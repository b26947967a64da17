import ScopeGrammar.Proofs.Session.Closing

/-!
# ScopeGrammar.Proofs.Session.LineEnd

Where `\G` matches at the start of a line.

* `World.Past` is a run of lines that remembers them, `PastLine.OpensAtEnd` a line that opened some
  frames by a match up to its end, the newline included.
* `Applies.effect` : what is applied at a point of a scan, and what becomes of frames and cursor.
* `World.Past.capturedLineEnd_iff` : a frame that captured the end of a line was opened there.
* `World.Past.allowPlace_iff` : at the start of a line `\G` may match if and only if the innermost
  frame left by the line before was opened at the end of some earlier line. That line may lie any
  number of lines back (`allowPlace_two_lines_later`), and the frame is closed by then if its
  `while` pattern does not match.
-/

namespace ScopeGrammar

variable {P : Type} {engine : Engine P}

/-! ## Lines of the past -/

/-- A line with the state and the session it is tokenized with. -/
structure PastLine (P : Type) where
  line : String
  state : OpenSpans
  session : Session P

namespace PastLine

variable (engine)

def result (l : PastLine P) : TokenizedLine × Session P :=
  (SessionM.tokenizeLine engine l.line l.state).run l.session

/-- The first point of the scan of the line, after its `while` patterns. -/
def scan (l : PastLine P) : ScanPoint P :=
  let checked := (SessionM.holdSpans engine (SessionM.captureScanner engine captureDepth)
    (.ofLine l.line) (SessionM.startLine l.state)).run l.session
  { levels := captureDepth, text := .ofLine l.line, capture := none, line := checked.1
    session := checked.2 }

/-- On the line a span is opened that leads to these frames, by a match that takes the newline. -/
def OpensAtEnd (l : PastLine P) (frames : List Frame) : Prop :=
  SessionM.isTooLong l.session.tokenizer.options l.line.length = false ∧
    ∃ k p q m rule grammar span, Chain engine (l.scan engine) k p ∧
      p.effect? engine = some (m, .opening rule grammar span) ∧ m.stop = l.line.length + 1 ∧
      Applies engine p q ∧ q.line.spans.frames = frames

end PastLine

/-- A run of lines from the fresh state on that remembers them, the last one first. The lines may be
tokenized by any tokenizers, and other uses of the registry may come between them. -/
inductive World.Past (engine : Engine P) : World P → OpenSpans → List (PastLine P) → Prop
  | fresh {w : World P} : w.Reachable engine → Past engine w .fresh []
  | line {w : World P} {state : OpenSpans} {past : List (PastLine P)} {t : Tokenizer P}
      (line : String) : Past engine w state past → t ∈ w.tokenizers →
      Past engine (w.after (PastLine.result engine ⟨line, state, w.session t⟩))
        (PastLine.result engine ⟨line, state, w.session t⟩).1.state
        (⟨line, state, w.session t⟩ :: past)
  | use {w w' : World P} {state : OpenSpans} {past : List (PastLine P)} :
      Past engine w state past → World.Use engine w w' → Past engine w' state past

/-! ## What is applied -/

/-- A point is left by applying what the winner does there. -/
theorem Applies.effect {p q : ScanPoint P} (h : Applies engine p q) :
    ∃ m e s, p.effect? engine = some (m, e) ∧ q.line =
      ((SessionM.applyEffect (SessionM.captureScanner engine p.levels) p.text m p.line e).run
        s).1 := by
  obtain ⟨hsearch, happlied⟩ := h
  rename_i i m line s₁ s₂
  rw [ScanPoint.applied, SessionM.run_applyCandidate] at happlied
  cases heffect : s₁.registry.effect? p.line.spans.frames (p.context.candidate? i) with
  | none =>
    rw [heffect] at happlied
    cases happlied
  | some e =>
    rw [heffect] at happlied
    cases happlied
    exact ⟨m, e, s₁, by simp [ScanPoint.effect?, hsearch, heffect], rfl⟩

theorem Applies.opens {p q : ScanPoint P} (h : Applies engine p q) {m : Match} {rule : RuleRef}
    {grammar : Grammar} {span : SpanRule}
    (heffect : p.effect? engine = some (m, .opening rule grammar span)) :
    ∃ f : Frame, q.line.spans.frames = f :: p.line.spans.frames ∧
      f.capturedLineEnd = (m.stop == p.text.length) := by
  obtain ⟨m', e, s, heffect', hline⟩ := h.effect
  rw [heffect] at heffect'
  cases heffect'
  rw [hline]
  exact ⟨_, rfl, rfl⟩

/-- Frames are left or closed, or one is opened. -/
theorem Applies.suffix_or_opens {p q : ScanPoint P} (h : Applies engine p q) :
    q.line.spans.frames <:+ p.line.spans.frames ∨ ∃ m rule grammar span,
      p.effect? engine = some (m, .opening rule grammar span) := by
  obtain ⟨m, e, s, heffect, hline⟩ := h.effect
  cases e with
  | closing target outer rule span =>
    obtain ⟨i, s', _, hfound⟩ := ScanPoint.effect?_eq_some heffect
    obtain ⟨c, _, hhas⟩ := Registry.hasEffect_of_effect? hfound
    cases hhas with
    | closing hdrop _ _ =>
      refine .inl ?_
      rw [hline]
      exact (List.suffix_cons ..).trans (hdrop ▸ List.drop_suffix ..)
  | single rule single =>
    refine .inl ?_
    rw [hline]
    exact List.suffix_rfl
  | opening rule grammar span => exact .inr ⟨m, rule, grammar, span, heffect⟩

/-! ## Frames that captured the end of a line -/

namespace PastLine

variable {l : PastLine P} {frames outer : List Frame} {f : Frame}

theorem text_of_chain {k : Nat} {q : ScanPoint P} (h : Chain engine (l.scan engine) k q) :
    q.text.length = l.line.length + 1 := by
  induction h with
  | refl => exact SessionM.length_ofLine l.line
  | step _ happly ih => rw [happly.text_eq, ih]

theorem OpensAtEnd.capturedLineEnd (h : l.OpensAtEnd engine frames) :
    ∃ f outer, frames = f :: outer ∧ f.capturedLineEnd = true := by
  obtain ⟨_, k, p, q, m, rule, grammar, span, hchain, heffect, hstop, happly, hframes⟩ := h
  obtain ⟨f, hopened, hcaptured⟩ := happly.opens heffect
  refine ⟨f, _, hframes ▸ hopened, ?_⟩
  simp [hcaptured, text_of_chain hchain, hstop]

/-- The frames at a point of the scan come from before the line, or from a match that did not take
the newline, or from one that did. -/
theorem chain_capturedLineEnd {k : Nat} {q : ScanPoint P}
    (hshort : SessionM.isTooLong l.session.tokenizer.options l.line.length = false)
    (h : Chain engine (l.scan engine) k q) (hf : f :: outer <:+ q.line.spans.frames)
    (hcaptured : f.capturedLineEnd = true) :
    f :: outer <:+ l.state.frames ∨ l.OpensAtEnd engine (f :: outer) := by
  induction h with
  | refl =>
    exact .inl (hf.trans (SessionM.holdFrames_suffix _ _ _ _ _ (by simp)))
  | @step k q r hchain happly ih =>
    rcases happly.suffix_or_opens with hsuffix | ⟨m, rule, grammar, span, heffect⟩
    · exact ih (hf.trans hsuffix)
    · obtain ⟨g, hopened, hend⟩ := happly.opens heffect
      rw [hopened, List.suffix_cons_iff] at hf
      rcases hf with heq | hf
      · cases heq
        refine .inr ⟨hshort, k, q, r, m, rule, grammar, span, hchain, heffect, ?_, happly, hopened⟩
        rw [hcaptured, text_of_chain hchain] at hend
        simpa using hend.symm
      · exact ih hf

end PastLine

namespace World.Past

variable {w : World P} {state : OpenSpans} {past : List (PastLine P)} {t : Tokenizer P}

/-- A frame that captured the end of a line was opened by a match up to the end of some line of the
past. -/
theorem capturedLineEnd_iff (h : w.Past engine state past) {f : Frame} {outer : List Frame}
    (hf : f :: outer <:+ state.frames) :
    f.capturedLineEnd = true ↔ ∃ l ∈ past, l.OpensAtEnd engine (f :: outer) := by
  constructor
  · intro hcaptured
    induction h with
    | fresh h => cases List.suffix_nil.1 hf
    | @line w state past t line hpast ht ih =>
      let l : PastLine P := ⟨line, state, w.session t⟩
      have hbefore : f :: outer <:+ state.frames →
          ∃ l' ∈ l :: past, l'.OpensAtEnd engine (f :: outer) := by
        intro hold
        obtain ⟨l', hl', hopens⟩ := ih hold
        exact ⟨l', .tail _ hl', hopens⟩
      have hresult : l.result engine = (SessionM.tokenizeLine engine line state).run _ := rfl
      rw [show PastLine.result engine ⟨line, state, w.session t⟩ = l.result engine from rfl,
        hresult, SessionM.run_tokenizeLine] at hf
      split at hf
      · exact hbefore hf
      · next hlong =>
        obtain ⟨k, e, hchain, hends⟩ := (l.scan engine).result_ends engine
        have hspans : f :: outer <:+ e.line.spans.frames := hends.spans_eq ▸ hf
        rcases PastLine.chain_capturedLineEnd (by simpa using hlong) hchain hspans hcaptured with
          hold | hopens
        · exact hbefore hold
        · exact ⟨l, .head _, hopens⟩
    | use _ _ ih => exact ih hf
  · rintro ⟨l, _, hopens⟩
    obtain ⟨f', outer', heq, hcaptured⟩ := hopens.capturedLineEnd
    cases heq
    exact hcaptured

end World.Past

/-! ## The cursor at the start of a line -/

namespace SessionM

theorem startLine_allowPlace (state : OpenSpans) :
    (startLine state).cursor.anchors.allowPlace = true ↔
      ∃ f outer, state.frames = f :: outer ∧ f.capturedLineEnd = true := by
  obtain ⟨frames, started⟩ := state
  cases frames with
  | nil => simp [startLine, OpenSpans.top?, LineState.startingAt, Cursor.startingAt,
      Cursor.anchors, Anchoring.atPos]
  | cons f outer =>
    cases hcaptured : f.capturedLineEnd <;>
      simp [startLine, OpenSpans.top?, LineState.startingAt, Cursor.startingAt, Cursor.anchors,
        Anchoring.atPos, hcaptured]

/-- `while` patterns move the cursor on or leave it as it is, and open no frame. -/
theorem holdFrames_cursor (scan : Option (Scanner P)) (text : Subject)
    (inner outer : List Frame) (line : LineState) (s : Session P) :
    let held := ((holdFrames engine scan text inner outer line).run s).1
    (held.cursor = line.cursor ∨ line.cursor.pos < held.cursor.pos) ∧
      held.cursor.earlierAnchors = line.cursor.earlierAnchors := by
  induction inner generalizing outer line s with
  | nil => exact ⟨.inl rfl, rfl⟩
  | cons frame inner ih =>
    rw [run_holdFrames_cons]
    split
    · dsimp only
      split
      · exact ⟨.inl rfl, rfl⟩
      · next m _ =>
        have hpass : (line.cursor.passWhile m.stop = line.cursor ∨
            line.cursor.pos < (line.cursor.passWhile m.stop).pos) ∧
            (line.cursor.passWhile m.stop).earlierAnchors = line.cursor.earlierAnchors := by
          unfold Cursor.passWhile
          split
          · next hlt => exact ⟨.inr hlt, rfl⟩
          · exact ⟨.inl rfl, rfl⟩
        have hrest := fun cover s' =>
          ih (frame :: outer) { line with cursor := line.cursor.passWhile m.stop, cover } s'
        obtain ⟨hmoves, hearlier⟩ := hrest _ _
        refine ⟨?_, hearlier.trans hpass.2⟩
        rcases hpass.1 with heq | hlt
        · simpa only [heq] using hmoves
        · rcases hmoves with heq' | hlt'
          · right
            rw [heq']
            exact hlt
          · right
            exact Nat.lt_trans hlt hlt'
    · exact ih ..

end SessionM

theorem Cursor.passSpan_anchor (c : Cursor) (stop : Nat) : (c.passSpan stop).anchor = c.anchor := by
  unfold passSpan moveTo
  split
  · rfl
  · split <;> rfl

theorem Cursor.passSpan_earlierAnchors (c : Cursor) (stop : Nat) :
    (c.passSpan stop).earlierAnchors = c.earlierAnchors := by
  unfold passSpan moveTo
  split
  · rfl
  · split <;> rfl

/-- Where no frame was opened on the line, a rule that matches moves on and an end leaves no
anchor. -/
theorem Applies.anchor_or_pos {p q : ScanPoint P} (h : Applies engine p q)
    (hopens : ∀ m rule grammar span, p.effect? engine ≠ some (m, .opening rule grammar span))
    (hearlier : p.line.cursor.earlierAnchors = []) :
    q.line.cursor.earlierAnchors = [] ∧
      (q.line.cursor.anchor = none ∨ 0 < q.line.cursor.pos) := by
  obtain ⟨m, e, s, heffect, hline⟩ := h.effect
  cases e with
  | closing target outer rule span =>
    have hcursor : q.line.cursor =
        (p.line.cursor.reanchor target.depth).passSpan m.stop := by rw [hline]; rfl
    rw [hcursor, Cursor.passSpan_earlierAnchors, Cursor.passSpan_anchor]
    simp [Cursor.reanchor, hearlier]
  | single rule single =>
    have hcursor : q.line.cursor = p.line.cursor.passRule m.stop := by rw [hline]; rfl
    rw [hcursor]
    unfold Cursor.passRule Cursor.moveTo
    split
    · exact ⟨hearlier, .inr (show 0 < m.stop by omega)⟩
    · exact ⟨hearlier, .inr (Nat.succ_pos _)⟩
  | opening rule grammar span => exact absurd heffect (hopens m rule grammar span)

namespace PastLine

variable {l : PastLine P}

/-- No span is opened in the scan of the line before its `k`-th point. -/
def NoneOpened (engine : Engine P) (l : PastLine P) (k : Nat) : Prop :=
  ∀ j p, Chain engine (l.scan engine) j p → j < k →
    ∀ m rule grammar span, p.effect? engine ≠ some (m, .opening rule grammar span)

theorem earlierAnchors_eq_nil {k : Nat} {q : ScanPoint P} (h : Chain engine (l.scan engine) k q)
    (hnone : l.NoneOpened engine k) : q.line.cursor.earlierAnchors = [] := by
  induction h with
  | refl => exact (SessionM.holdFrames_cursor _ _ _ _ _ _).2
  | @step k p q hchain happly ih =>
    have hbefore : l.NoneOpened engine k := fun j p hp hj => hnone j p hp (by omega)
    exact (happly.anchor_or_pos (hnone k p hchain (by omega)) (ih hbefore)).1

end PastLine

/-- Before anything of a line is matched, `\G` may match at its start if and only if the innermost
frame left by the line before was opened by a match up to the end of some line of the past. So it is
when the line is scanned, whatever frames the `while` patterns have closed, but not after an end. -/
theorem World.Past.allowPlace_iff {w : World P} {state : OpenSpans} {past : List (PastLine P)}
    (h : w.Past engine state past) (t : Tokenizer P) (line : String) :
    let l : PastLine P := ⟨line, state, w.session t⟩
    let opened := ∃ l' ∈ past, l'.OpensAtEnd engine state.frames
    ((SessionM.startLine state).cursor.anchors.allowPlace = true ↔ opened) ∧
      ∀ k q, Chain engine (l.scan engine) k q → l.NoneOpened engine k →
        q.line.cursor.pos = 0 → (q.line.cursor.anchors.allowPlace = true ↔ k = 0 ∧ opened) := by
  intro l opened
  have hstart : (SessionM.startLine state).cursor.anchors.allowPlace = true ↔ opened := by
    rw [SessionM.startLine_allowPlace]
    constructor
    · rintro ⟨f, outer, hframes, hcaptured⟩
      show ∃ l' ∈ past, l'.OpensAtEnd engine state.frames
      rw [hframes]
      exact (h.capturedLineEnd_iff (hframes ▸ List.suffix_rfl)).1 hcaptured
    · rintro ⟨l', _, hopens⟩
      exact hopens.capturedLineEnd
  refine ⟨hstart, fun k q hchain hnone hpos => ?_⟩
  cases hchain with
  | refl =>
    have hcursor : (l.scan engine).line.cursor = (SessionM.startLine state).cursor := by
      rcases (SessionM.holdFrames_cursor _ _ _ _ _ _).1 with heq | hlt
      · exact heq
      · exact absurd hpos (Nat.ne_of_gt (Nat.zero_lt_of_lt hlt))
    rw [hcursor, hstart]
    simp
  | @step k p _ hchain happly =>
    have hbefore : l.NoneOpened engine k := fun j p hp hj => hnone j p hp (by omega)
    have hearlier := PastLine.earlierAnchors_eq_nil hchain hbefore
    rcases (happly.anchor_or_pos (hnone k p hchain (by omega)) hearlier).2 with hanchor | hmoved
    · simp [Cursor.anchors, Anchoring.atPos, hanchor]
    · omega

/-! ### A span over several lines -/

/-- A grammar of one span, from the end of a line to `b`. -/
def lineEndSpan : Grammar :=
  { name := "", scopeName := "s", scope := ⟨"s"⟩, fileTypes := [], patterns := #["\n", "b"]
    rules := #[.span
      { scopes := [], contentScopes := [], opening := ⟨0⟩, openingCaptures := .empty
        close := .atEnd ⟨1⟩ .empty false, fillsEnding := false, patterns := ⟨1⟩ }]
    lists := #[[.rule ⟨0⟩], []], captures := #[], repositories := #[], root := ⟨0⟩, skipped := [] }

def lineEndTokenizer : Tokenizer Char :=
  (Tokenizer.start (Registry.empty.add lineEndSpan).2 ⟨0⟩ {}).1.1

def lineEndWorld : World Char := (World.initial.add lineEndSpan).started ⟨0⟩ {}

/-- An empty line, which opens the span. -/
def lineEndFirst : PastLine Char := ⟨"", .fresh, lineEndWorld.session lineEndTokenizer⟩

def lineEndState : OpenSpans := (lineEndFirst.result oneCharacter).1.state

/-- Another one inside the span. -/
def lineEndSecond : PastLine Char :=
  ⟨"", lineEndState, (lineEndWorld.after (lineEndFirst.result oneCharacter)).session
    (lineEndFirst.result oneCharacter).2.tokenizer⟩

theorem lineEndWorld_past : lineEndWorld.Past oneCharacter .fresh [] := by
  have hid : (World.initial.add lineEndSpan : World Char).registry.id? "s" = some ⟨0⟩ := rfl
  exact .fresh (.use (.add lineEndSpan .initial) (.start {} hid))

theorem lineEndFirst_past :
    (lineEndWorld.after (lineEndFirst.result oneCharacter)).Past oneCharacter lineEndState
      [lineEndFirst] :=
  .line "" lineEndWorld_past (.head _)

theorem allowPlace_iff_lineEnd :
    (SessionM.startLine lineEndState).cursor.anchors.allowPlace = true ∧
      lineEndFirst.OpensAtEnd oneCharacter lineEndState.frames := by
  have hallow : (SessionM.startLine lineEndState).cursor.anchors.allowPlace = true := by
    decide +kernel
  obtain ⟨l, hl, hopens⟩ := (lineEndFirst_past.allowPlace_iff lineEndTokenizer "").1.1 hallow
  rw [List.mem_singleton.1 hl] at hopens
  exact ⟨hallow, hopens⟩

/-- The line at whose end the innermost frame was opened need not be the one just before. -/
theorem allowPlace_two_lines_later :
    ¬ ∀ (w : World Char) (state : OpenSpans) (l : PastLine Char) (past : List (PastLine Char)),
      w.Past oneCharacter state (l :: past) →
      (SessionM.startLine state).cursor.anchors.allowPlace = true →
      l.OpensAtEnd oneCharacter state.frames := by
  intro h
  have hpast : (World.after (lineEndWorld.after (lineEndFirst.result oneCharacter))
      (lineEndSecond.result oneCharacter)).Past oneCharacter
      (lineEndSecond.result oneCharacter).1.state [lineEndSecond, lineEndFirst] :=
    .line "" lineEndFirst_past (.head _)
  obtain ⟨_, k, p, q, _, _, _, _, hchain, _, _, happly, _⟩ :=
    h _ _ _ _ hpast (by decide +kernel)
  have hsearch : ((lineEndSecond.scan oneCharacter).search oneCharacter).1.isNone = true := by
    decide +kernel
  -- nothing is found on the second line, so nothing is opened on it
  have hfirst : ∃ r, Applies oneCharacter (lineEndSecond.scan oneCharacter) r := by
    cases k with
    | zero =>
      cases hchain
      exact ⟨q, happly⟩
    | succ k =>
      obtain ⟨r, hr, _⟩ := hchain.uncons
      exact ⟨r, hr⟩
  obtain ⟨r, hfound, _⟩ := hfirst
  rw [hfound] at hsearch
  cases hsearch

end ScopeGrammar
