import ScopeGrammar.Token.Basic

/-!
# ScopeGrammar.Token.Cover

The tokens of a line are made from left to right without a gap.

* `Cover` are the tokens up to a position.
* `Cover.extend` goes on to a further position, `Cover.clip` cuts the tokens at the end of the line.
-/

namespace ScopeGrammar

structure Cover where
  tokens : Array Token
  /-- Where the next token starts. -/
  reached : Nat
  deriving Inhabited

namespace Cover

def startingAt (pos : Nat) : Cover := ⟨#[], pos⟩

/-- Adds the token up to `stop`, unless that has been reached before. -/
def extend (c : Cover) (stop : Nat) (scopes : List Scope) : Cover :=
  if stop ≤ c.reached then c else ⟨c.tokens.push ⟨c.reached, stop, scopes⟩, stop⟩

/-- Goes on with the tokens of another cover, as far as they are beyond this one. -/
def extendAll (c : Cover) (tokens : List Token) : Cover :=
  tokens.foldl (fun c t => c.extend t.stop t.scopes) c

/-- The tokens of the first `length` characters. -/
def clip (c : Cover) (length : Nat) : List Token :=
  (c.tokens.toList.filter (·.start < length)).map fun t => { t with stop := min t.stop length }

end Cover

end ScopeGrammar
