import ScopeGrammar.Pattern.Backreference
import ScopeGrammar.Session.Captures
import ScopeGrammar.Session.Cursor

/-!
# ScopeGrammar.Session.Step

What the match of a candidate does to a line.

* `Effect` is what a candidate stands for in a line: a span is closed, a match rule is applied, or
  a span is opened. `Registry.effect?` finds it, and finds none if the candidate does not fit the
  registry, which happens only to a state from elsewhere.
* `applyEffect` gives the match and its groups their scopes and moves on.
-/

namespace ScopeGrammar

/-- A line that is scanned up to some point. -/
structure LineState where
  spans : OpenSpans
  cursor : Cursor
  cover : Cover
  deriving Inhabited

/-- A line before anything of it from `start` on was looked at. -/
def LineState.startingAt (spans : OpenSpans) (start : Nat) (anchor : Option Nat)
    (firstLine : Bool) : LineState :=
  { spans, cursor := .startingAt start anchor firstLine, cover := .startingAt start }

/-- The ends of the frames around a new one, seen from inside it. An end with the pattern of one
before it can never be the first to match and is left out. -/
def outerEnds (own : Option EndMark) (ends : List EndMark) : List EndMark :=
  ends.foldl
    (fun outer e =>
      if (own.toList ++ outer).any (·.source == e.source) then outer
      else outer ++ [{ e with distance := e.distance + 1 }])
    []

/-- The situation inside a span that is opened inside the given frames. -/
def spanSituation (options : SessionOptions) (base : GrammarId) (rule : RuleRef) (span : SpanRule)
    (source : String) (spans : OpenSpans) : Situation :=
  let ownEnd : Option EndMark :=
    if span.isWhile then none
    else some { distance := 0, source, filled := span.fillsEnding }
  let around := if options.closeOuterSpans then (spans.top?.map (·.ends)).getD [] else []
  { base, origin := .span rule, ownEnd
    endLast := span.appliesEndLast
    outerEnds := outerEnds ownEnd around }

/-- The closing pattern of a span, filled in with text of its opening match. -/
def closingSource (grammar : Grammar) (span : SpanRule) (text : Subject) (m : Match) : String :=
  let source := grammar.pattern span.closePattern
  if span.fillsEnding then
    Pattern.fillBackreferences
      (m.groups.map fun g => g.map fun (start, stop) => text.sliceChars start stop) source
  else source

/-- What keeps a frame of the span open. -/
def holdOf (rule : RuleRef) (span : SpanRule) (source : String) : Hold :=
  if span.isWhile then .whileMatched rule source else .untilEnd rule source

/-- The frame of a span, where `outer` are the scopes of the text before it. -/
def spanFrame (depth : Nat) (rule : RuleRef) (span : SpanRule) (source : String)
    (outer : List Scope) (atEnd : Bool) (context : Context) (ends : List EndMark) : Frame :=
  { depth
    hold := holdOf rule span source
    nameScopes := outer ++ span.scopes
    contentScopes := outer ++ span.scopes ++ span.contentScopes
    capturedLineEnd := atEnd
    context
    ends }

/-- What a candidate does, with all it refers to. -/
inductive Effect where
  /-- Closes a frame of a span and all frames inside it; `outer` are those around it. -/
  | closing (target : Frame) (outer : List Frame) (rule : RuleRef) (span : SpanRule)
  | single (rule : RuleRef) (single : MatchRule)
  | opening (rule : RuleRef) (grammar : Grammar) (span : SpanRule)

def Registry.effect? (r : Registry) (frames : List Frame) : Option Candidate → Option Effect
  | none => none
  | some (.closing distance) =>
    match frames.drop distance with
    | [] => none
    | target :: outer =>
      match target.hold with
      | .untilEnd rule _ => (r.span? rule).map (.closing target outer rule)
      | _ => none
  | some (.rule rule) =>
    match r.grammar? rule.grammar with
    | none => none
    | some grammar =>
      match grammar.rule? rule.rule with
      | none => none
      | some (.single single) => some (.single rule single)
      | some (.span span) => some (.opening rule grammar span)

namespace Effect

/-- The grammar that the captures are of. -/
def grammarId : Effect → GrammarId
  | closing _ _ rule _ | single rule _ | opening rule _ _ => rule.grammar

/-- The captures of the pattern that matched. -/
def captures : Effect → CaptureTable
  | closing _ _ _ span => span.closeCaptures
  | single _ rule => rule.captures
  | opening _ _ span => span.openingCaptures

/-- The frames that the match is inside of. What closes a span is still inside it. -/
def spans (line : OpenSpans) : Effect → OpenSpans
  | closing target outer _ _ => line.withFrames (target :: outer)
  | single _ _ | opening _ _ _ => line

/-- The scopes of the match, where `plain` are those of the text before it. -/
def scopes (plain : List Scope) : Effect → List Scope
  | closing target _ _ _ => target.nameScopes
  | single _ rule => plain ++ rule.scopes
  | opening _ _ span => plain ++ span.scopes

end Effect

namespace SessionM

variable {P : Type} (scan : Option (Scanner P)) (text : Subject)

/-- Closes a span and all those inside it. -/
def closeSpan (target : Frame) (outer : List Frame) (m : Match) (line : LineState) : LineState :=
  { line with
    spans := line.spans.withFrames outer
    cursor := (line.cursor.reanchor target.depth).passSpan m.stop }

def applyMatch (m : Match) (line : LineState) : LineState :=
  { line with cursor := line.cursor.passRule m.stop }

def openSpan (rule : RuleRef) (grammar : Grammar) (span : SpanRule) (m : Match)
    (line : LineState) : SessionM P LineState := do
  let t ← tokenizer
  let source := closingSource grammar span text m
  let situation := spanSituation t.options t.base rule span source line.spans
  let context ← resolveContext situation
  let depth := line.spans.depth + 1
  let frame := spanFrame depth rule span source (t.scopesOf line.spans) (m.stop == text.length)
    context situation.ends
  return { line with
    spans := line.spans.push frame
    cursor := (line.cursor.openFrame depth m.stop).passSpan m.stop }

/-- Scopes up to the end of a match, those of its groups included. -/
def scopeMatch (m : Match) (line : LineState) (e : Effect) : SessionM P Cover := do
  let plain := (← tokenizer).scopesOf line.spans
  let cover ← scopeGroups scan text (e.spans line.spans) (e.scopes plain) e.grammarId e.captures m
    line.cursor.firstLine (line.cover.extend m.start plain)
  return cover.extend m.stop (e.scopes plain)

def applyEffect (m : Match) (line : LineState) (e : Effect) : SessionM P LineState := do
  let line := { line with cover := ← scopeMatch scan text m line e }
  match e with
  | .closing target outer _ _ => return closeSpan target outer m line
  | .single _ _ => return applyMatch m line
  | .opening rule grammar span => openSpan text rule grammar span m line

/-- Applies a candidate of the context, or answers `none` if it does not fit. -/
def applyCandidate (m : Match) (line : LineState) (candidate : Option Candidate) :
    SessionM P (Option LineState) := do
  match (← registry).effect? line.spans.frames candidate with
  | none => return none
  | some e => return some (← applyEffect scan text m line e)

end SessionM

end ScopeGrammar
