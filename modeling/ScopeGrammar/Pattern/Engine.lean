import ScopeGrammar.Pattern.Error
import ScopeGrammar.Pattern.Match
import ScopeGrammar.Text.Subject

/-!
# ScopeGrammar.Pattern.Engine

Searching, for any way of compiling patterns and matching them at one position.

* `Engine` is such a way.
* `Engine.search` and `Engine.matchAt` look for one pattern, `PatternGroup.search` for several at
  once: the leftmost place wins, there the pattern that comes first.

Nothing is ever found at or behind the end of a text.
-/

namespace ScopeGrammar

/-- What a pattern is compiled with. -/
structure MatchOptions where
  ignoreCase : Bool := false
  /-- A dot matches a newline too. -/
  multiline : Bool := false
  /-- Lines do not count: `^` and `$` match at the ends of the text alone. -/
  singleline : Bool := false
  /-- The longest match wins. -/
  findLongest : Bool := false
  deriving DecidableEq, Repr

/-- Patterns of a type `P` that are tried at one position at a time. -/
structure Engine (P : Type) where
  compile : MatchOptions → String → Except PatternError P
  /-- Matches at one position: `attempt p text start pos` tries `pos` in a search that began at
  `start`. -/
  attempt : P → Subject → Nat → Nat → Option Match

/-- The answer for the first of `count` positions from `pos` on that has one. -/
def firstFrom {α : Type} (f : Nat → Option α) : Nat → Nat → Option α
  | 0, _ => none
  | count + 1, pos =>
    match f pos with
    | some a => some a
    | none => firstFrom f count (pos + 1)

namespace Engine

variable {P : Type} (engine : Engine P)

/-- The leftmost match that starts at or after `start`. -/
def search (p : P) (t : Subject) (start : Nat) : Option Match :=
  if t.length ≤ start then none
  else firstFrom (engine.attempt p t start) (t.length - start + 1) start

/-- The match that starts exactly at a position. -/
def matchAt (p : P) (t : Subject) (pos : Nat) : Option Match :=
  if t.length ≤ pos then none else engine.attempt p t pos pos

end Engine

/-- A refused pattern with the reason. -/
structure Refusal where
  pattern : String
  error : PatternError
  deriving DecidableEq, Repr

def Refusal.message (r : Refusal) : String :=
  "invalid pattern '" ++ r.pattern ++ "': " ++ r.error.message

/-- Patterns that are searched together, in order of preference. -/
structure PatternGroup (P : Type) where
  patterns : List P

namespace PatternGroup

variable {P : Type}

/-- A group that matches nothing. -/
def empty : PatternGroup P := ⟨[]⟩

/-- Compiles the patterns in order, up to the first one that is refused. -/
def compileAll (engine : Engine P) (options : MatchOptions) :
    List String → Except Refusal (List P)
  | [] => .ok []
  | s :: rest =>
    match engine.compile options s with
    | .error e => .error ⟨s, e⟩
    | .ok p => (compileAll engine options rest).map (p :: ·)

/-- A group compiles when all its patterns do. Several patterns cannot be searched for the longest
match; all of them together are blamed then. -/
def compile (engine : Engine P) (options : MatchOptions) (sources : List String) :
    Except Refusal (PatternGroup P) := do
  let patterns ← compileAll engine options sources
  if options.findLongest && !sources.isEmpty then
    .error ⟨"|".intercalate sources, .badArgument⟩
  else .ok ⟨patterns⟩

def length (g : PatternGroup P) : Nat := g.patterns.length

def isEmpty (g : PatternGroup P) : Bool := g.patterns.isEmpty

/-- The first of the patterns that matches at a position, with its place in the list. -/
def firstMatch (engine : Engine P) (t : Subject) (start pos : Nat) :
    Nat → List P → Option (Nat × Match)
  | _, [] => none
  | i, p :: rest =>
    match engine.attempt p t start pos with
    | some m => some (i, m)
    | none => firstMatch engine t start pos (i + 1) rest

/-- The leftmost match of any of the patterns that starts at or after `start`. -/
def search (engine : Engine P) (g : PatternGroup P) (t : Subject) (start : Nat) :
    Option (Nat × Match) :=
  if g.isEmpty || t.length ≤ start then none
  else firstFrom (fun pos => firstMatch engine t start pos 0 g.patterns)
    (t.length - start + 1) start

def inspect (g : PatternGroup P) : String := s!"PatternGroup({g.length} patterns)"

end PatternGroup

end ScopeGrammar
