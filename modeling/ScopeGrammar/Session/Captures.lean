import ScopeGrammar.Session.Basic
import ScopeGrammar.Token.Cover

/-!
# ScopeGrammar.Session.Captures

The scopes of the groups of a match.

* `scopeGroups` goes through the groups in order. A group inside another one has the scopes of
  both.
* `scanCapture` tokenizes the text of a group with rules of its own.
-/

namespace ScopeGrammar

/-- Tokenizes a text from a position to its end, starting with the given frames. The flag tells
whether the text begins the document. -/
abbrev Scanner (P : Type) := Subject → OpenSpans → Nat → Bool → SessionM P (List Token)

/-- The scopes and the end of a group whose end has not been reached, the innermost one first. -/
abbrev OpenGroups := List (List Scope × Nat)

namespace OpenGroups

/-- The scopes inside the innermost group. -/
def scopes (groups : OpenGroups) (base : List Scope) : List Scope :=
  match groups with
  | [] => base
  | (scopes, _) :: _ => scopes

/-- Closes the groups that end at or before a position. -/
def closeUpTo (pos : Nat) : OpenGroups → Cover → OpenGroups × Cover
  | [], cover => ([], cover)
  | (scopes, stop) :: rest, cover =>
    if stop ≤ pos then closeUpTo pos rest (cover.extend stop scopes)
    else ((scopes, stop) :: rest, cover)

def closeAll (groups : OpenGroups) (cover : Cover) : Cover :=
  groups.foldl (fun cover (scopes, stop) => cover.extend stop scopes) cover

end OpenGroups

/-- The frame of a capture whose text is tokenized with rules of its own. No end of a span outside
can be found in it. -/
def captureFrame (depth : Nat) (scopes : List Scope) (context : Context) : Frame :=
  { depth, hold := .capture, nameScopes := scopes, contentScopes := scopes
    capturedLineEnd := false, context, ends := [] }

/-- A match whose groups get scopes. -/
structure Captured where
  /-- The grammar of the rule. -/
  grammarId : GrammarId
  grammar : Grammar
  found : Match
  text : Subject
  /-- The frames the rule is inside of. -/
  spans : OpenSpans
  /-- The scopes of the match as a whole. -/
  scopes : List Scope
  firstLine : Bool

namespace Captured

variable {P : Type}

/-- Tokenizes a group from `start` to `stop` with rules of its own. The text is cut at the end of
the group, so nothing is found beyond it. -/
def scanCapture (scan : Scanner P) (c : Captured) (id : CaptureId) (scopes : List Scope)
    (start stop : Nat) : SessionM P (List Token) := do
  let base := (← SessionM.tokenizer).base
  let context ← SessionM.resolveContext (.capture base c.grammarId id)
  scan (c.text.take stop) (c.spans.push (captureFrame (c.spans.depth + 1) scopes context)) start
    (c.firstLine && start == 0)

/-- The capture of an entry with the range of its group, unless that took no part or is empty. -/
def place? (c : Captured) (i : Nat) (id : CaptureId) : Option (Capture × Nat × Nat) :=
  match c.found.group? i, c.grammar.capture? id with
  | some (start, stop), some capture => if stop ≤ start then none else some (capture, start, stop)
  | _, _ => none

/-- Goes through the entries of a capture table. Without a scanner the rules of captures are left
aside. -/
def scopeEntries (scan : Option (Scanner P)) (c : Captured) :
    List (Nat × CaptureId) → OpenGroups → Cover → SessionM P Cover
  | [], groups, cover => return groups.closeAll cover
  | (i, id) :: rest, groups, cover =>
    match c.place? i id with
    | none => c.scopeEntries scan rest groups cover
    | some (capture, start, stop) => do
      let (groups, cover) := groups.closeUpTo start cover
      let outer := groups.scopes c.scopes
      let cover := cover.extend start outer
      let scopes := outer ++ capture.scopes
      match capture.patterns, scan with
      | some _, some scan =>
        let tokens ← c.scanCapture scan id scopes start stop
        c.scopeEntries (some scan) rest groups (cover.extendAll tokens)
      | _, scan => c.scopeEntries scan rest ((scopes, stop) :: groups) cover

end Captured

namespace SessionM

variable {P : Type}

/-- Gives the groups of a match their scopes. -/
def scopeGroups (scan : Option (Scanner P)) (text : Subject) (spans : OpenSpans)
    (scopes : List Scope) (grammarId : GrammarId) (table : CaptureTable) (found : Match)
    (firstLine : Bool) (cover : Cover) : SessionM P Cover := do
  match (← registry).grammar? grammarId with
  | none => return cover
  | some grammar =>
    let c : Captured := { grammarId, grammar, found, text, spans, scopes, firstLine }
    c.scopeEntries scan table.entries [] cover

end SessionM

end ScopeGrammar
