/-!
# ScopeGrammar.Pattern.Match

Where a pattern matched, in characters.
-/

namespace ScopeGrammar

structure Match where
  start : Nat
  stop : Nat
  /-- The whole match, then every group of the pattern; `none` for one that took no part. -/
  groups : List (Option (Nat × Nat))
  deriving DecidableEq, Repr, Inhabited

namespace Match

/-- The range of a group, if there is such a group and it took part. -/
def group? (m : Match) (i : Nat) : Option (Nat × Nat) := (m.groups[i]?).join

def isEmpty (m : Match) : Bool := m.start == m.stop

end Match

end ScopeGrammar
