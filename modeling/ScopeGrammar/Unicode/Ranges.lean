/-!
# ScopeGrammar.Unicode.Ranges

Sets of code points as sorted, disjoint intervals.

* `Ranges.contains` is membership, by bisection.
* `Ranges.ofRows` reads the compact form the tables are written in.
-/

namespace ScopeGrammar.Unicode

/-- The value of a hexadecimal digit. -/
def hexValue? (c : Char) : Option Nat :=
  if '0' ≤ c ∧ c ≤ '9' then some (c.toNat - '0'.toNat)
  else if 'a' ≤ c ∧ c ≤ 'f' then some (c.toNat - 'a'.toNat + 10)
  else if 'A' ≤ c ∧ c ≤ 'F' then some (c.toNat - 'A'.toNat + 10)
  else none

/-- The hexadecimal numbers of a text; anything else separates them. -/
def hexNumbers (s : String) : Array Nat :=
  let close : Option Nat → Array Nat → Array Nat
    | some n, out => out.push n
    | none, out => out
  let step : Option Nat × Array Nat → Char → Option Nat × Array Nat := fun (cur, out) c =>
    match hexValue? c with
    | some d => (some (cur.getD 0 * 16 + d), out)
    | none => (none, close cur out)
  let (cur, out) := s.toList.foldl step (none, #[])
  close cur out

/-- Intervals of numbers: `bounds` holds in turn where one starts and where it has stopped, ascending. -/
structure Ranges where
  bounds : Array Nat

namespace Ranges

def empty : Ranges := ⟨#[]⟩

/-- How many of the first `hi` bounds are at most `c`, given that the first `lo` are. -/
def countFrom (bounds : Array Nat) (c : Nat) : Nat → Nat → Nat → Nat
  | 0, lo, _ => lo
  | fuel + 1, lo, hi =>
    if lo < hi then
      let mid := (lo + hi) / 2
      if bounds.getD mid 0 ≤ c then countFrom bounds c fuel (mid + 1) hi
      else countFrom bounds c fuel lo mid
    else lo

/-- A code point is inside exactly when an odd number of bounds lie at or below it. -/
def contains (r : Ranges) (c : Nat) : Bool :=
  countFrom r.bounds c (r.bounds.size + 1) 0 r.bounds.size % 2 == 1

/-- Every number is the distance from the bound before it. -/
def ofRows (rows : List String) : Ranges :=
  let step : Nat × Array Nat → Nat → Nat × Array Nat := fun (last, out) d =>
    (last + d, out.push (last + d))
  ⟨((rows.foldl (fun acc row => acc ++ hexNumbers row) #[]).foldl step (0, #[])).2⟩

end Ranges

end ScopeGrammar.Unicode
