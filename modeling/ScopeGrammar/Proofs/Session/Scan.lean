import ScopeGrammar.Proofs.Session.Run

/-!
# ScopeGrammar.Proofs.Session.Scan

The points that the scan of a line comes to, and the scans of captures begun on the way.

* `ScanPoint` is the head of the loop: what is known before the next candidate is looked for.
* `Applies` goes to the next point of the same scan by applying a candidate, `Chain` does so many
  times in a row, `ScanPoint.Ends` is the end of a scan.
* `ScanPoint.nested` are the scans of captures begun while the candidate at a point is applied,
  `heldScans` those begun by the `while` patterns at the start of a line.
* `Begins` are all scans of a line with their depth, `Visits` all points of them.

That no scan of a capture is left out is `scopeEntries_congr`: the scopes of a match depend on the
scanner for captures only through the scans that are listed.
-/

namespace ScopeGrammar

variable {P : Type} (engine : Engine P)

structure ScanPoint (P : Type) where
  /-- So many levels deep captures may still be nested. -/
  levels : Nat
  text : Subject
  /-- The capture that the text is of, none in the scan of a line. -/
  capture : Option (GrammarId × CaptureId)
  line : LineState
  session : Session P

namespace ScanPoint

def pos (p : ScanPoint P) : Nat := p.line.cursor.pos

def context (p : ScanPoint P) : Context := p.session.tokenizer.contextOf p.line.spans

/-- The number of the candidate that wins and its match, if anything is found. -/
def search (p : ScanPoint P) : Option (Nat × Match) × Session P :=
  (SessionM.searchContext engine p.context p.line.cursor.anchors p.text p.pos).run p.session

/-- What the scan gives when it goes on from here. -/
def result (p : ScanPoint P) : LineState × Session P :=
  (SessionM.scanLine engine (SessionM.captureScanner engine p.levels) p.text p.line).run p.session

def applied (p : ScanPoint P) (i : Nat) (m : Match) (s : Session P) :
    Option LineState × Session P :=
  (SessionM.applyCandidate (SessionM.captureScanner engine p.levels) p.text m p.line
    (p.context.candidate? i)).run s

/-- The scan is over: nothing is found, or what is found does not fit the state. -/
inductive Ends (p : ScanPoint P) : LineState × Session P → Prop
  | exhausted {s : Session P} : p.search engine = (none, s) →
      Ends p ({ p.line with
        cover := p.line.cover.extend p.text.length (p.session.plain p.line.spans) }, s)
  | inconsistent {i : Nat} {m : Match} {s₁ s₂ : Session P} :
      p.search engine = (some (i, m), s₁) → p.applied engine i m s₁ = (none, s₂) →
      Ends p ({ p.line with
        cover := p.line.cover.extend p.text.length p.session.tokenizer.rootScopes },
        { s₂ with notices := s₂.notices ++ [.inconsistentState p.pos] })

end ScanPoint

/-- A candidate is applied. -/
inductive Applies (p : ScanPoint P) : ScanPoint P → Prop
  | mk {i : Nat} {m : Match} {line : LineState} {s₁ s₂ : Session P} :
      p.search engine = (some (i, m), s₁) → p.applied engine i m s₁ = (some line, s₂) →
      Applies p { p with line, session := s₂ }

/-- So many candidates are applied, one after the other. -/
inductive Chain (p : ScanPoint P) : Nat → ScanPoint P → Prop
  | refl : Chain p 0 p
  | step {k : Nat} {q r : ScanPoint P} : Chain p k q → Applies engine q r → Chain p (k + 1) r

theorem Chain.head {engine : Engine P} {p q r : ScanPoint P} {k : Nat} (h : Applies engine p q)
    (hc : Chain engine q k r) : Chain engine p (k + 1) r := by
  induction hc with
  | refl => exact .step .refl h
  | step _ happ ih => exact .step ih happ

/-! ## Scans of captures -/

/-- The scan of a capture from its first point on, together with what its scanner answers. -/
def Captured.scanPoint (c : Captured) (levels : Nat) (id : CaptureId) (scopes : List Scope)
    (start stop : Nat) (s : Session P) : ScanPoint P :=
  let situation := .capture s.tokenizer.base c.grammarId id
  { levels
    text := c.text.take stop
    capture := some (c.grammarId, id)
    line := .startingAt
      (c.spans.push (captureFrame (c.spans.depth + 1) scopes (s.contextFor situation)))
      start none (c.firstLine && start == 0)
    session := s.resolved situation }

/-- The scans begun for the entries of a capture table, in the order in which they are begun. -/
def Captured.nested (c : Captured) (levels : Nat) :
    List (Nat × CaptureId) → OpenGroups → Cover → Session P → List (ScanPoint P)
  | [], _, _, _ => []
  | (i, id) :: rest, groups, cover, s =>
    match c.place? i id with
    | none => c.nested levels rest groups cover s
    | some (capture, start, stop) =>
      let closed := groups.closeUpTo start cover
      let outer := closed.1.scopes c.scopes
      let cover := closed.2.extend start outer
      match capture.patterns, levels with
      | some _, inner + 1 =>
        let p := c.scanPoint inner id (outer ++ capture.scopes) start stop s
        let r := p.result engine
        p :: c.nested (inner + 1) rest closed.1 (cover.extendAll r.1.cover.tokens.toList) r.2
      | _, levels => c.nested levels rest ((outer ++ capture.scopes, stop) :: closed.1) cover s

/-- The scans begun for the groups of a match. -/
def groupScans (levels : Nat) (text : Subject) (spans : OpenSpans) (scopes : List Scope)
    (grammarId : GrammarId) (table : CaptureTable) (found : Match) (firstLine : Bool)
    (cover : Cover) (s : Session P) : List (ScanPoint P) :=
  match s.registry.grammar? grammarId with
  | none => []
  | some grammar =>
    ({ grammarId, grammar, found, text, spans, scopes, firstLine } : Captured).nested engine levels
      table.entries [] cover s

/-- The scans begun while the candidate at this point is applied. -/
def ScanPoint.nested (p : ScanPoint P) : List (ScanPoint P) :=
  match p.search engine with
  | (none, _) => []
  | (some (i, m), s) =>
    match s.registry.effect? p.line.spans.frames (p.context.candidate? i) with
    | none => []
    | some e =>
      groupScans engine p.levels p.text (e.spans p.line.spans) (e.scopes (s.plain p.line.spans))
        e.grammarId e.captures m p.line.cursor.firstLine
        (p.line.cover.extend m.start (s.plain p.line.spans)) s

/-- The scans begun for the groups of the `while` patterns that keep spans open. -/
def heldScans (levels : Nat) (text : Subject) :
    List Frame → List Frame → LineState → Session P → List (ScanPoint P)
  | [], _, _, _ => []
  | frame :: inner, outer, line, s =>
    match frame.hold with
    | .whileMatched rule source =>
      let matched :=
        (SessionM.matchAlone engine source line.cursor.anchors text line.cursor.pos).run s
      match matched.1 with
      | none => []
      | some m =>
        let cover := line.cover.extend m.start frame.contentScopes
        let spans := line.spans.withFrames (frame :: outer)
        let scan := SessionM.captureScanner engine levels
        let go (cover : Cover) (s : Session P) : List (ScanPoint P) :=
          heldScans levels text inner (frame :: outer)
            { line with
              cursor := line.cursor.passWhile m.stop
              cover := cover.extend m.stop frame.contentScopes } s
        match matched.2.registry.span? rule with
        | none => go cover matched.2
        | some span =>
          let held := (SessionM.scopeGroups scan text spans frame.contentScopes rule.grammar
            span.closeCaptures m line.cursor.firstLine cover).run matched.2
          groupScans engine levels text spans frame.contentScopes rule.grammar span.closeCaptures m
            line.cursor.firstLine cover matched.2 ++ go held.1 held.2
    | _ => heldScans levels text inner (frame :: outer) line s

/-- All scans that scanning a text as a line begins, each with the number of captures it is
inside of. -/
inductive Begins (text : Subject) (line : LineState) (s : Session P) :
    Nat → ScanPoint P → Prop
  | held {p : ScanPoint P} :
      p ∈ heldScans engine captureDepth text line.spans.frames.reverse [] line s →
      Begins text line s 1 p
  | line {checked : LineState × Session P} :
      (SessionM.holdSpans engine (SessionM.captureScanner engine captureDepth) text line).run s =
        checked →
      Begins text line s 0
        { levels := captureDepth, text, capture := none, line := checked.1, session := checked.2 }
  | nested {depth k : Nat} {p q r : ScanPoint P} : Begins text line s depth p →
      Chain engine p k q → r ∈ q.nested engine → Begins text line s (depth + 1) r

def Visits (text : Subject) (line : LineState) (s : Session P) (q : ScanPoint P) : Prop :=
  ∃ depth p k, Begins engine text line s depth p ∧ Chain engine p k q

variable {engine}

/-! ## What the scans of captures look like -/

/-- The first point of the scan of a capture, in a place where captures may be nested so many
levels deep. -/
def ScanPoint.OfCapture (levels : Nat) (q : ScanPoint P) : Prop :=
  ∃ inner, levels = inner + 1 ∧ ∃ (c : Captured) (id : CaptureId) (scopes : List Scope)
    (start stop : Nat) (s : Session P), q = c.scanPoint inner id scopes start stop s

theorem Captured.nested_ofCapture {c : Captured} {levels : Nat} {q : ScanPoint P}
    {entries : List (Nat × CaptureId)} {groups : OpenGroups} {cover : Cover} {s : Session P}
    (h : q ∈ c.nested engine levels entries groups cover s) : q.OfCapture levels := by
  induction entries generalizing groups cover s with
  | nil => cases h
  | cons entry rest ih =>
    obtain ⟨i, id⟩ := entry
    rw [nested] at h
    split at h
    · exact ih h
    · next capture start stop _ =>
      dsimp only at h
      split at h
      · next inner _ =>
        cases h with
        | head => exact ⟨inner, rfl, c, id, _, start, stop, s, rfl⟩
        | tail _ h => exact ih h
      · exact ih h

theorem groupScans_ofCapture {levels : Nat} {text : Subject} {spans : OpenSpans}
    {scopes : List Scope} {grammarId : GrammarId} {table : CaptureTable} {found : Match}
    {firstLine : Bool} {cover : Cover} {s : Session P} {q : ScanPoint P}
    (h : q ∈ groupScans engine levels text spans scopes grammarId table found firstLine cover s) :
    q.OfCapture levels := by
  unfold groupScans at h
  split at h
  · cases h
  · exact Captured.nested_ofCapture h

theorem ScanPoint.nested_ofCapture {p q : ScanPoint P} (h : q ∈ p.nested engine) :
    q.OfCapture p.levels := by
  unfold nested at h
  split at h
  · cases h
  · split at h
    · cases h
    · exact groupScans_ofCapture h

theorem heldScans_ofCapture {levels : Nat} {text : Subject} {inner outer : List Frame}
    {line : LineState} {s : Session P} {q : ScanPoint P}
    (h : q ∈ heldScans engine levels text inner outer line s) : q.OfCapture levels := by
  induction inner generalizing outer line s with
  | nil => cases h
  | cons frame inner ih =>
    rw [heldScans] at h
    split at h
    · dsimp only at h
      split at h
      · cases h
      · split at h
        · exact ih h
        · rw [List.mem_append] at h
          exact h.elim groupScans_ofCapture ih
    · exact ih h

/-! ## No scan of a capture is left out -/

/-- The scanner answers for this scan what the scan gives. -/
def ScanPoint.AnsweredBy (engine : Engine P) (q : ScanPoint P) (scan : Scanner P) : Prop :=
  (scan q.text q.line.spans q.pos q.line.cursor.firstLine).run q.session =
    ((q.result engine).1.cover.tokens.toList, (q.result engine).2)

theorem Captured.scanPoint_answered {scan : Scanner P} {c : Captured} {levels : Nat}
    {id : CaptureId} {scopes : List Scope} {start stop : Nat} {s : Session P}
    (h : (c.scanPoint levels id scopes start stop s).AnsweredBy engine scan) :
    (c.scanCapture scan id scopes start stop).run s =
      (((c.scanPoint levels id scopes start stop s).result engine).1.cover.tokens.toList,
        ((c.scanPoint levels id scopes start stop s).result engine).2) := by
  rw [run_scanCapture]
  exact h

theorem ScanPoint.answeredBy_captureScanner {levels : Nat} {scan : Scanner P}
    (hscan : SessionM.captureScanner engine (levels + 1) = some scan) (c : Captured)
    (id : CaptureId) (scopes : List Scope) (start stop : Nat) (s : Session P) :
    (c.scanPoint levels id scopes start stop s).AnsweredBy engine scan :=
  SessionM.run_captureScanner engine _ levels hscan ..

theorem Captured.scopeEntries_congr {scan : Scanner P} {c : Captured} {levels : Nat}
    {entries : List (Nat × CaptureId)} {groups : OpenGroups} {cover : Cover} {s : Session P}
    (h : ∀ q ∈ c.nested engine (levels + 1) entries groups cover s, q.AnsweredBy engine scan) :
    (c.scopeEntries (some scan) entries groups cover).run s =
      (c.scopeEntries (SessionM.captureScanner engine (levels + 1)) entries groups
        cover).run s := by
  induction entries generalizing groups cover s with
  | nil => rfl
  | cons entry rest ih =>
    obtain ⟨i, id⟩ := entry
    rw [nested] at h
    rw [run_scopeEntries_cons, run_scopeEntries_cons]
    cases hplace : c.place? i id with
    | none => rw [hplace] at h; exact ih h
    | some place =>
      obtain ⟨capture, start, stop⟩ := place
      rw [hplace] at h
      dsimp only at h ⊢
      cases hpatterns : capture.patterns with
      | none => rw [hpatterns] at h; exact ih h
      | some list =>
        rw [hpatterns] at h
        obtain ⟨native, hnative⟩ : ∃ native, SessionM.captureScanner engine (levels + 1) =
          some native := ⟨_, rfl⟩
        rw [hnative] at ih ⊢
        dsimp only at h ⊢
        rw [scanPoint_answered (h _ (.head _)),
          scanPoint_answered (ScanPoint.answeredBy_captureScanner hnative ..)]
        exact ih fun q hq => h q (.tail _ hq)

end ScopeGrammar
