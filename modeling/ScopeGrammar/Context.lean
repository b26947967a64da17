import ScopeGrammar.Grammar.Basic
import ScopeGrammar.Pattern.Anchoring
import ScopeGrammar.Pattern.Engine

/-!
# ScopeGrammar.Context

What can come next at some point of a line.

* `Situation` is everything that decides it: where the rules are from, and the ends that may close
  a span.
* `Context` is the answer: candidates with their patterns, in order of preference.
* `ContextStore` keeps the contexts by their situations.
-/

namespace ScopeGrammar

/-- The number of a context in a registry. -/
structure ContextId where
  val : UInt32
  deriving DecidableEq, Repr, Inhabited

/-- Where the rules of a situation are from. -/
inductive RuleOrigin where
  /-- The top-level rules of a grammar. -/
  | root (grammar : GrammarId)
  /-- The rules inside a span. -/
  | span (rule : RuleRef)
  /-- The rules for the text of a capture. -/
  | capture (grammar : GrammarId) (capture : CaptureId)
  deriving DecidableEq, Repr

/-- The closing pattern of an open span. -/
structure EndMark where
  /-- How many open frames are inside the one it closes. -/
  distance : Nat
  source : String
  /-- The pattern was filled in with text of the opening match, so it fits one span alone. -/
  filled : Bool
  deriving DecidableEq, Repr

structure Situation where
  /-- The grammar that `$base` means. -/
  base : GrammarId
  origin : RuleOrigin
  /-- The end of the innermost frame, if a match closes it. -/
  ownEnd : Option EndMark
  /-- The own end comes behind the rules instead of before them. -/
  endLast : Bool
  /-- The ends of the frames around it, the innermost first. -/
  outerEnds : List EndMark
  deriving DecidableEq, Repr

namespace Situation

def root (grammar : GrammarId) : Situation :=
  { base := grammar, origin := .root grammar, ownEnd := none, endLast := false, outerEnds := [] }

/-- The rules for the text of a capture, with no end of a frame. -/
def capture (base grammar : GrammarId) (capture : CaptureId) : Situation :=
  { base, origin := .capture grammar capture, ownEnd := none, endLast := false, outerEnds := [] }

/-- All ends, the innermost first. -/
def ends (s : Situation) : List EndMark := s.ownEnd.toList ++ s.outerEnds

/-- Where all ends are patterns of the grammar, the situation can come up again. -/
def isReusable (s : Situation) : Bool := !s.ends.any (·.filled)

end Situation

inductive Candidate where
  /-- A match rule, or the opening of a span. -/
  | rule (target : RuleRef)
  /-- Closes the frame that so many frames are inside of, and these with it. -/
  | closing (distance : Nat)
  deriving DecidableEq, Repr

def EndMark.candidate (e : EndMark) : Candidate × String := (.closing e.distance, e.source)

/-- Whether `\A` or `\G` is written in any of the patterns. -/
def mentionAnchors (entries : List (Candidate × String)) : Bool :=
  entries.any fun (_, source) => Anchoring.mentionsAnchor source.toList

structure Context where
  id : ContextId
  /-- The candidates, each with its pattern. -/
  entries : List (Candidate × String)
  usesAnchors : Bool
  usesAnchors_eq : usesAnchors = mentionAnchors entries

namespace Context

def ofEntries (id : ContextId) (entries : List (Candidate × String)) : Context :=
  ⟨id, entries, mentionAnchors entries, rfl⟩

instance : Inhabited Context := ⟨ofEntries ⟨0⟩ []⟩

def sources (c : Context) : List String := c.entries.map (·.2)

def candidate? (c : Context) (i : Nat) : Option Candidate := (c.entries[i]?).map (·.1)

def length (c : Context) : Nat := c.entries.length

def isEmpty (c : Context) : Bool := c.entries.isEmpty

/-- All patterns as one group, the anchors as written. -/
def patternGroup {P : Type} (engine : Engine P) (c : Context) :
    Except Refusal (PatternGroup P) :=
  PatternGroup.compile engine {} c.sources

def inspectEntry : Candidate × String → String
  | (.rule r, source) => s!"  grammar={r.grammar.val} rule={r.rule.val}: {source}\n"
  | (.closing distance, source) => s!"  end, {distance} frames down: {source}\n"

def inspect (c : Context) : String :=
  s!"CompiledContext #{c.id.val}:\n" ++ String.join (c.entries.map inspectEntry)

end Context

/-- Contexts by situation. -/
structure ContextStore where
  entries : List (Situation × Context)
  /-- How many contexts were made so far, those that are not kept or were forgotten included. -/
  made : Nat
  deriving Inhabited

namespace ContextStore

def empty : ContextStore := ⟨[], 0⟩

def get? (c : ContextStore) (s : Situation) : Option Context := c.entries.lookup s

def size (c : ContextStore) : Nat := c.entries.length

/-- Takes the next number. A context has its number to 32 bits, so the numbers come round again
after 2^32 contexts. -/
def takeId (c : ContextStore) : ContextId × ContextStore :=
  (⟨c.made.toUInt32⟩, { c with made := c.made + 1 })

def insert (c : ContextStore) (s : Situation) (context : Context) : ContextStore :=
  { c with entries := (s, context) :: c.entries }

/-- Forgets all contexts; their numbers are not given again. -/
def clear (c : ContextStore) : ContextStore := { c with entries := [] }

def inspect (c : ContextStore) : String := s!"ContextCache({c.size} contexts)"

end ContextStore

end ScopeGrammar
