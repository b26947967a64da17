import ScopeGrammar.Context
import ScopeGrammar.Scope

/-!
# ScopeGrammar.OpenSpans

What is carried from one line to the next: the spans still open.

* `Frame` is an open span, `OpenSpans` all of them.
* Equality of states leaves out what a frame can be found to have anyhow: its ends.
-/

namespace ScopeGrammar

/-- What a frame stays open for. -/
inductive Hold where
  /-- Closed by a match of its end, which is filled in with text of the opening match. -/
  | untilEnd (rule : RuleRef) (source : String)
  /-- Closed by the first line on which its pattern does not match. -/
  | whileMatched (rule : RuleRef) (source : String)
  /-- There only while the text of a capture is tokenized. -/
  | capture
  deriving DecidableEq, Repr, Inhabited

structure Frame where
  /-- 1 for the outermost frame. -/
  depth : Nat
  hold : Hold
  /-- All scopes down to those of the span itself. -/
  nameScopes : List Scope
  /-- All scopes of what is inside the span. -/
  contentScopes : List Scope
  /-- The opening match took the newline too, so `\G` may match at the start of the next line. -/
  capturedLineEnd : Bool
  /-- What can come next while this frame is the innermost one. -/
  context : Context
  /-- The ends in the context, counted from this frame. -/
  ends : List EndMark
  deriving Inhabited

instance : BEq Frame where
  beq a b :=
    a.depth == b.depth && a.hold == b.hold && a.capturedLineEnd == b.capturedLineEnd &&
    a.context.id == b.context.id && a.nameScopes == b.nameScopes &&
    a.contentScopes == b.contentScopes

/-- The open spans, the innermost first. -/
structure OpenSpans where
  frames : List Frame
  /-- A line was tokenized before, so `\A` matches no more. -/
  started : Bool
  deriving Inhabited, BEq

namespace OpenSpans

/-- The state before the first line. -/
def fresh : OpenSpans := ⟨[], false⟩

def isEmpty (s : OpenSpans) : Bool := s.frames.isEmpty

def top? (s : OpenSpans) : Option Frame := s.frames.head?

/-- How many spans are open, as the innermost one has it. -/
def depth (s : OpenSpans) : Nat := (s.top?.map (·.depth)).getD 0

/-- The scopes inside the innermost span, none if no span is open. -/
def contentScopes (s : OpenSpans) : List Scope := (s.top?.map (·.contentScopes)).getD []

/-- The scopes of plain text, where `root` is what has them outside of all spans. -/
def scopesOver (s : OpenSpans) (root : List Scope) : List Scope :=
  (s.top?.map (·.contentScopes)).getD root

def push (s : OpenSpans) (f : Frame) : OpenSpans := { s with frames := f :: s.frames }

def withFrames (s : OpenSpans) (frames : List Frame) : OpenSpans := { s with frames }

def start (s : OpenSpans) : OpenSpans := { s with started := true }

/-- What holds a frame open, with the rule as `ruleText` shows it. -/
def inspectHold (ruleText : RuleId → String) : Hold → String
  | .untilEnd r source =>
    s!"grammar={r.grammar.val}, rule={ruleText r.rule}, end=\"{source}\""
  | .whileMatched r source =>
    s!"grammar={r.grammar.val}, rule={ruleText r.rule}, while=\"{source}\""
  | .capture => "capture"

def inspectFrame (ruleText : RuleId → String) (f : Frame) : String :=
  let content := ", ".intercalate (f.contentScopes.map (·.name))
  inspectHold ruleText f.hold ++ ", content=[" ++ content ++ "]" ++
    (if f.capturedLineEnd then ", captured_eol" else "")

/-- A line for each frame, the outermost first, indented by its depth. -/
def inspect (ruleText : RuleId → String) (s : OpenSpans) : String :=
  let line (f : Frame) : String :=
    String.ofList (List.replicate (2 * f.depth) ' ') ++ inspectFrame ruleText f ++ "\n"
  s!"StateStack (started={s.started}):\n" ++ String.join (s.frames.reverse.map line)

end OpenSpans

end ScopeGrammar
