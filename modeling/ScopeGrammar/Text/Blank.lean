/-!
# ScopeGrammar.Text.Blank

White space, as the Unicode property `White_Space` has it.

* `isBlank` is the property.
* `trim` cuts blanks off both ends, `words` cuts at every run of them.
-/

namespace ScopeGrammar.Text

/-- The characters with the property `White_Space`. -/
def isBlank (c : Char) : Bool :=
  let n := c.toNat
  (9 ≤ n && n ≤ 13) || n == 0x20 || n == 0x85 || n == 0xa0 || n == 0x1680 ||
  (0x2000 ≤ n && n ≤ 0x200a) || n == 0x2028 || n == 0x2029 || n == 0x202f || n == 0x205f ||
  n == 0x3000

/-- The characters without the blanks at both ends. -/
def trimChars (cs : List Char) : List Char :=
  ((cs.dropWhile isBlank).reverse.dropWhile isBlank).reverse

def trim (s : String) : String := String.ofList (trimChars s.toList)

/-- The runs of non-blank characters; `cur` is the run being read, last character first. -/
def wordsFrom (cur : List Char) : List Char → List (List Char)
  | [] => if cur.isEmpty then [] else [cur.reverse]
  | c :: rest =>
    if isBlank c then
      if cur.isEmpty then wordsFrom [] rest else cur.reverse :: wordsFrom [] rest
    else wordsFrom (c :: cur) rest

def words (s : String) : List String := (wordsFrom [] s.toList).map String.ofList

end ScopeGrammar.Text
