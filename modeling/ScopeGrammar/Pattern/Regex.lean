import ScopeGrammar.Pattern.Engine
import ScopeGrammar.Pattern.Matcher

/-!
# ScopeGrammar.Pattern.Regex

A single compiled pattern.

* `Regex.compile` reads, checks and prepares a pattern.
* `Regex.search` and `Regex.matchAt` find it, `Regex.index?` finds a group by its name.
* `Regex.engine` is the way of matching that grammars are used with.
-/

namespace ScopeGrammar

open Pattern (Outline Program Node)

structure Regex where
  source : String
  options : MatchOptions
  program : Program
  /-- The groups of each name, in order. -/
  names : List (String × List Nat)

namespace Regex

def flags (options : MatchOptions) : Pattern.Flags :=
  { ignoreCase := options.ignoreCase
    multiline := options.multiline
    singleline := options.singleline }

def compile (options : MatchOptions) (source : String) : Except PatternError Regex := do
  let outline ← Outline.ofString (flags options) source
  let g := outline.groups
  let called ← g.calls.mapM (Pattern.calledGroup g)
  let root := outline.root.resolveCalls called
  root.check g.count
  .ok { source, options
        program := Program.ofNode root g.count
        names := g.names.map fun (name, ns) => (String.ofList name, ns) }

/-- How many groups the pattern has, the whole match not counted. -/
def groupCount (r : Regex) : Nat := r.program.groupCount

/-- The number of the last group of a name. -/
def index? (r : Regex) (name : String) : Option Nat := (r.names.lookup name).bind (·.getLast?)

/-- The longest match at a position: of the ends from the greatest down, the first that is
reached. -/
def longestAt (r : Regex) (t : Subject) (start pos : Nat) : Option Match :=
  Pattern.firstDown (fun stop => r.program.attempt t start pos (some stop)) pos
    (t.length - pos + 1)

def attempt (r : Regex) (t : Subject) (start pos : Nat) : Option Match :=
  if r.options.findLongest then r.longestAt t start pos
  else r.program.attempt t start pos none

def engine : Engine Regex := { compile, attempt }

/-- How many characters a match at `pos` moves over. -/
def span (pos : Nat) (m : Match) : Nat := m.stop - pos

/-- The longest match of all positions, the leftmost of several. -/
def longestFrom (r : Regex) (t : Subject) (start : Nat) :
    Nat → Nat → Option (Nat × Match) → Option (Nat × Match)
  | 0, _, best => best
  | count + 1, pos, best =>
    let best := match r.longestAt t start pos, best with
      | some m, some (len, n) => if len < span pos m then some (span pos m, m) else some (len, n)
      | some m, none => some (span pos m, m)
      | none, best => best
    longestFrom r t start count (pos + 1) best

def search (r : Regex) (t : Subject) (start : Nat) : Option Match :=
  if r.options.findLongest then
    if t.length ≤ start then none
    else (r.longestFrom t start (t.length - start + 1) start none).map (·.2)
  else engine.search r t start

def matchAt (r : Regex) (t : Subject) (pos : Nat) : Option Match := engine.matchAt r t pos

/-- The range of the group of a name in a match of this pattern. -/
def named? (r : Regex) (m : Match) (name : String) : Option (Nat × Nat) :=
  (r.index? name).bind m.group?

def inspect (r : Regex) : String := "Pattern(" ++ r.source ++ ")"

end Regex

end ScopeGrammar
