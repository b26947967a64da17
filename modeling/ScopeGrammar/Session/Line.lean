import ScopeGrammar.Session.Step
import ScopeGrammar.Text.Lines

/-!
# ScopeGrammar.Session.Line

Lines and whole texts.

* `scanLine` takes one candidate after the other up to the end of a text.
* `holdSpans` looks at the start of a line which spans stay open.
* `tokenizeLine` tokenizes a line, `tokenizeText` a text.

Captures with rules of their own may be nested `captureDepth` deep.
-/

namespace ScopeGrammar

/-- What a line gives: tokens that cover it, and the state for the next line. -/
structure TokenizedLine where
  tokens : List Token
  state : OpenSpans

def captureDepth : Nat := 32

namespace SessionM

variable {P : Type} (engine : Engine P)

/-- Applies candidates up to the end of the text, but at most `steps` of them. -/
def applyAll (scan : Option (Scanner P)) (text : Subject) :
    Nat → LineState → SessionM P LineState
  | 0, line => do
    let t ← tokenizer
    return { line with cover := line.cover.extend text.length (t.scopesOf line.spans) }
  | steps + 1, line => do
    let t ← tokenizer
    let context := t.contextOf line.spans
    match ← searchContext engine context line.cursor.anchors text line.cursor.pos with
    | none =>
      return { line with cover := line.cover.extend text.length (t.scopesOf line.spans) }
    | some (i, m) =>
      match ← applyCandidate scan text m line (context.candidate? i) with
      | some line => applyAll scan text steps line
      | none =>
        note [.inconsistentState line.cursor.pos]
        return { line with cover := line.cover.extend text.length t.rootScopes }

/-- Two candidates move on by a character at least, so these steps lead to the end. -/
def scanLine (scan : Option (Scanner P)) (text : Subject) (line : LineState) :
    SessionM P LineState :=
  applyAll engine scan text (2 * (text.length - line.cursor.pos) + 1) line

/-- Tokenizes the text of a capture, in which captures may be nested so many levels deep. -/
def captureScanner : Nat → Option (Scanner P)
  | 0 => none
  | levels + 1 => some fun text spans start firstLine => do
    let line ← scanLine engine (captureScanner levels) text
      (.startingAt spans start none firstLine)
    return line.cover.tokens.toList

/-- Looks at the given frames, outermost first, for the `while` patterns that keep them open. The
first one that does not match closes its frame and all inside it. -/
def holdFrames (scan : Option (Scanner P)) (text : Subject) :
    List Frame → List Frame → LineState → SessionM P LineState
  | [], _, line => return line
  | frame :: inner, outer, line =>
    match frame.hold with
    | .whileMatched rule source => do
      match ← matchAlone engine source line.cursor.anchors text line.cursor.pos with
      | none => return { line with spans := line.spans.withFrames outer }
      | some m =>
        let cover := line.cover.extend m.start frame.contentScopes
        let cover ←
          match (← registry).span? rule with
          | none => pure cover
          | some span =>
            scopeGroups scan text (line.spans.withFrames (frame :: outer))
              frame.contentScopes rule.grammar span.closeCaptures m line.cursor.firstLine cover
        holdFrames scan text inner (frame :: outer)
          { line with
            cursor := line.cursor.passWhile m.stop
            cover := cover.extend m.stop frame.contentScopes }
    | _ => holdFrames scan text inner (frame :: outer) line

def holdSpans (scan : Option (Scanner P)) (text : Subject) (line : LineState) :
    SessionM P LineState :=
  holdFrames engine scan text line.spans.frames.reverse [] line

/-- The line as it is before anything was looked at. If the innermost span was opened by a match
that took the newline, `\G` may match at the start. -/
def startLine (state : OpenSpans) : LineState :=
  let capturedLineEnd := (state.top?.map (·.capturedLineEnd)).getD false
  .startingAt state 0 (if capturedLineEnd then some 0 else none) (!state.started)

/-- Whether a line of so many characters is left unscanned. -/
def isTooLong (options : SessionOptions) (length : Nat) : Bool :=
  match options.maxLineLength with
  | some limit => limit < length
  | none => false

/-- Tokenizes a line, given without its terminator, with the state of the line before it. A line
that is too long is a single token. -/
def tokenizeLine (line : String) (state : OpenSpans) : SessionM P TokenizedLine := do
  let t ← tokenizer
  let length := line.length
  if isTooLong t.options length then
    return { tokens := [⟨0, length, t.scopesOf state⟩], state := state.start }
  else
    let text := Subject.ofLine line
    let scan := captureScanner engine captureDepth
    let checked ← holdSpans engine scan text (startLine state)
    let scanned ← scanLine engine scan text checked
    return { tokens := scanned.cover.clip length, state := scanned.spans.start }

/-- Tokenizes lines one after the other. -/
def tokenizeLines : List String → OpenSpans → SessionM P (List TokenizedLine)
  | [], _ => return []
  | line :: rest, state => do
    let l ← tokenizeLine engine line state
    return l :: (← tokenizeLines rest l.state)

/-- Tokenizes a whole text, line by line. -/
def tokenizeText (text : String) : SessionM P (List (List Token)) := do
  return (← tokenizeLines engine (Text.lines text) .fresh).map (·.tokens)

end SessionM

namespace Registry

variable {P : Type} (engine : Engine P)

/-- A session of a new tokenizer for the grammar of a scope name. -/
def session (r : Registry) (scopeName : String) (options : SessionOptions) :
    Except Error (Session P) :=
  match r.id? scopeName with
  | none => .error (.grammarNotFound scopeName)
  | some id =>
    let ((tokenizer, notices), registry) := Tokenizer.start r id options
    .ok { registry, tokenizer, notices }

/-- Tokenizes a whole text with a tokenizer of its own. -/
def tokenize (r : Registry) (scopeName text : String) :
    Except Error (List (List Token) × Session P) := do
  let s ← r.session scopeName {}
  .ok ((SessionM.tokenizeText engine text).run s)

end Registry

end ScopeGrammar
