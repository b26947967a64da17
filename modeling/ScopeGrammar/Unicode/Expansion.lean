import ScopeGrammar.Unicode.Fold

/-!
# ScopeGrammar.Unicode.Expansion

Characters that, without regard to case, are the same as several letters in a row: a sharp s is two
s, the ligature `ﬃ` is `ffi`.

* `Expansion` is such a character with its letters, `expansions` are all of them.
* `expansion?` finds the letters of a character.
* `ligature?` finds a character that stands for the letters a text begins with.
-/

namespace ScopeGrammar.Unicode

/-- Four numbers each: the character, and two or three letters, a zero where there are two. -/
def expansionRows : List String :=
  ["df:73:73:0 130:69:307:0 149:2bc:6e:0 1f0:6a:30c:0 587:565:582:0 1e96:68:331:0",
   "1e97:74:308:0 1e98:77:30a:0 1e99:79:30a:0 1e9a:61:2be:0 1e9e:73:73:0 1f50:3c5:313:0",
   "1f80:1f00:3b9:0 1f81:1f01:3b9:0 1f82:1f02:3b9:0 1f83:1f03:3b9:0 1f84:1f04:3b9:0",
   "1f85:1f05:3b9:0 1f86:1f06:3b9:0 1f87:1f07:3b9:0 1f88:1f00:3b9:0 1f89:1f01:3b9:0",
   "1f8a:1f02:3b9:0 1f8b:1f03:3b9:0 1f8c:1f04:3b9:0 1f8d:1f05:3b9:0 1f8e:1f06:3b9:0",
   "1f8f:1f07:3b9:0 1f90:1f20:3b9:0 1f91:1f21:3b9:0 1f92:1f22:3b9:0 1f93:1f23:3b9:0",
   "1f94:1f24:3b9:0 1f95:1f25:3b9:0 1f96:1f26:3b9:0 1f97:1f27:3b9:0 1f98:1f20:3b9:0",
   "1f99:1f21:3b9:0 1f9a:1f22:3b9:0 1f9b:1f23:3b9:0 1f9c:1f24:3b9:0 1f9d:1f25:3b9:0",
   "1f9e:1f26:3b9:0 1f9f:1f27:3b9:0 1fa0:1f60:3b9:0 1fa1:1f61:3b9:0 1fa2:1f62:3b9:0",
   "1fa3:1f63:3b9:0 1fa4:1f64:3b9:0 1fa5:1f65:3b9:0 1fa6:1f66:3b9:0 1fa7:1f67:3b9:0",
   "1fa8:1f60:3b9:0 1fa9:1f61:3b9:0 1faa:1f62:3b9:0 1fab:1f63:3b9:0 1fac:1f64:3b9:0",
   "1fad:1f65:3b9:0 1fae:1f66:3b9:0 1faf:1f67:3b9:0 1fb2:1f70:3b9:0 1fb3:3b1:3b9:0",
   "1fb4:3ac:3b9:0 1fb6:3b1:342:0 1fbc:3b1:3b9:0 1fc2:1f74:3b9:0 1fc3:3b7:3b9:0",
   "1fc4:3ae:3b9:0 1fc6:3b7:342:0 1fcc:3b7:3b9:0 1fd6:3b9:342:0 1fe4:3c1:313:0",
   "1fe6:3c5:342:0 1ff2:1f7c:3b9:0 1ff3:3c9:3b9:0 1ff4:3ce:3b9:0 1ff6:3c9:342:0",
   "1ffc:3c9:3b9:0 fb00:66:66:0 fb01:66:69:0 fb02:66:6c:0 fb05:73:74:0 fb06:73:74:0",
   "fb13:574:576:0 fb14:574:565:0 fb15:574:56b:0 fb16:57e:576:0 fb17:574:56d:0",
   "390:3b9:308:301 3b0:3c5:308:301 1f52:3c5:313:300 1f54:3c5:313:301 1f56:3c5:313:342",
   "1fb7:3b1:342:3b9 1fc7:3b7:342:3b9 1fd2:3b9:308:300 1fd3:3b9:308:301 1fd7:3b9:308:342",
   "1fe2:3c5:308:300 1fe3:3c5:308:301 1fe7:3c5:308:342 1ff7:3c9:342:3b9 fb03:66:66:69",
   "fb04:66:66:6c"]

structure Expansion where
  char : Char
  /-- Two or three letters, folded. -/
  letters : List Char

/-- All expansions, those of two letters first. -/
def expansions : List Expansion :=
  let ns := expansionRows.foldl (fun acc row => acc ++ hexNumbers row) #[]
  (List.range (ns.size / 4)).map fun i =>
    ⟨Char.ofNat (ns.getD (4 * i) 0),
     (((List.range 3).map fun k => ns.getD (4 * i + 1 + k) 0).filter (· != 0)).map Char.ofNat⟩

def expansion? (c : Char) : Option (List Char) :=
  (expansions.find? (·.char == c)).map (·.letters)

/-- The longest expansion whose letters a text begins with, case aside. -/
def ligature? (text : List Char) : Option Expansion :=
  let start := (text.take 3).map fun c => Char.ofNat (fold c)
  let starting (length : Nat) :=
    expansions.find? fun e => e.letters.length == length && e.letters.isPrefixOf start
  starting 3 <|> starting 2

end ScopeGrammar.Unicode
