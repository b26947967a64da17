import ScopeGrammar.Proofs.Session.Paired
import ScopeGrammar.Proofs.Session.Run

/-!
# ScopeGrammar.Proofs.Session.InStep

Sessions over registries that are alike, side by side.

* `Session.InStep` : the registries, the tokenizers and all they keep are the same but for numbers.
* `SessionM.InStep` : from such sessions two steps lead to such sessions, with answers that stand
  for each other. There is one lemma for every step, shaped like the step.
* `SessionM.tokenizeLines_inStep` : lines give the same tokens, and states that are the same but
  for numbers.
-/

namespace ScopeGrammar

variable {P : Type} {ρ : Pairing}

/-! ## Steps side by side -/

structure Session.InStep (ρ : Pairing) (s s' : Session P) : Prop where
  registry : s.registry.InStep ρ s'.registry
  tokenizer : ρ.TokenizerPaired s.tokenizer s'.tokenizer

namespace SessionM

variable {α β γ δ : Type}

/-- The steps stay in step, and their answers stand for each other. -/
def InStep (ρ : Pairing) (m : SessionM P α) (m' : SessionM P β) (A : α → β → Prop) : Prop :=
  ∀ s s', Session.InStep ρ s s' →
    A (m.run s).1 (m'.run s').1 ∧ Session.InStep ρ (m.run s).2 (m'.run s').2

theorem inStep_pure {A : α → β → Prop} {a : α} {b : β} (h : A a b) :
    InStep (P := P) ρ (pure a) (pure b) A := fun _ _ hs => ⟨h, hs⟩

theorem InStep.bind {m : SessionM P α} {m' : SessionM P β} {f : α → SessionM P γ}
    {f' : β → SessionM P δ} {A : α → β → Prop} {B : γ → δ → Prop} (hm : InStep ρ m m' A)
    (hf : ∀ a b, A a b → InStep ρ (f a) (f' b) B) : InStep ρ (m >>= f) (m' >>= f') B := by
  intro s s' hs
  obtain ⟨hanswer, hafter⟩ := hm s s' hs
  exact hf _ _ hanswer _ _ hafter

theorem registry_inStep : InStep (P := P) ρ registry registry (Registry.InStep ρ) :=
  fun _ _ hs => ⟨hs.registry, hs⟩

theorem tokenizer_inStep : InStep (P := P) ρ tokenizer tokenizer ρ.TokenizerPaired :=
  fun _ _ hs => ⟨hs.tokenizer, hs⟩

theorem note_inStep (notices notices' : List Notice) :
    InStep (P := P) ρ (note notices) (note notices') Eq :=
  fun _ _ hs => ⟨rfl, hs.registry, hs.tokenizer⟩

theorem resolveContext_inStep {s s' : Situation} (h : ρ.SituationPaired s s') :
    InStep (P := P) ρ (resolveContext s) (resolveContext s') ρ.ContextPaired := by
  intro u u' hu
  obtain ⟨hcontext, hafter⟩ := hu.registry.resolve h
  exact ⟨hcontext, hafter, hu.tokenizer⟩

variable (engine : Engine P)

theorem groupOf_inStep {c c' : Context} (h : ρ.ContextPaired c c') (anchors : Anchoring) :
    InStep ρ (groupOf engine c anchors) (groupOf engine c' anchors) Eq := by
  intro s s' hs
  have hkey : ρ.KeyPaired (c.id, anchors) (c'.id, anchors) := ⟨h.id, rfl⟩
  have hfound := lookup_of_forall₂ ρ.keys_unique hs.tokenizer.groups hkey
  have hbuilt : ContextGroup.build engine c anchors = ContextGroup.build engine c' anchors := by
    rw [ContextGroup.build, ContextGroup.build, h.sources]
  rw [run_groupOf, run_groupOf, hbuilt]
  generalize s.tokenizer.groups.lookup (c.id, anchors) = found at hfound
  generalize s'.tokenizer.groups.lookup (c'.id, anchors) = found' at hfound
  cases hfound with
  | some hg => exact ⟨hg, hs⟩
  | none => exact ⟨rfl, hs.registry, hs.tokenizer.addGroup hkey _⟩

theorem searchContext_inStep {c c' : Context} (h : ρ.ContextPaired c c') (anchors : Anchoring)
    (t : Subject) (pos : Nat) :
    InStep ρ (searchContext engine c anchors t pos) (searchContext engine c' anchors t pos) Eq := by
  rw [searchContext, searchContext, h.usesAnchors]
  refine (groupOf_inStep engine h _).bind fun g g' hg => ?_
  rw [hg]
  exact inStep_pure rfl

theorem singleOf_inStep (source : String) :
    InStep ρ (singleOf engine source) (singleOf engine source) Eq := by
  intro s s' hs
  rw [run_singleOf, run_singleOf, hs.tokenizer.singles]
  cases s'.tokenizer.singles.lookup source with
  | some p => exact ⟨rfl, hs⟩
  | none => exact ⟨rfl, hs.registry, hs.tokenizer.addSingle source _⟩

theorem matchAlone_inStep (source : String) (anchors : Anchoring) (t : Subject) (pos : Nat) :
    InStep ρ (matchAlone engine source anchors t pos) (matchAlone engine source anchors t pos)
      Eq := by
  rw [matchAlone]
  refine (singleOf_inStep engine _).bind fun p p' hp => ?_
  rw [hp]
  exact inStep_pure rfl

end SessionM

/-! ## Captures -/

/-- The scanner stays in step with itself. -/
def Scanner.InStep (ρ : Pairing) (scan : Scanner P) : Prop :=
  ∀ (text : Subject) (a a' : OpenSpans) (start : Nat) (firstLine : Bool), ρ.SpansPaired a a' →
    SessionM.InStep ρ (scan text a start firstLine) (scan text a' start firstLine) Eq

namespace Captured

structure Paired (ρ : Pairing) (c c' : Captured) : Prop where
  captures : ∀ {i i'}, ρ.Captures (c.grammarId, i) (c'.grammarId, i') →
    Option.Rel (Capture.Linked (ρ.links c.grammarId c'.grammarId)) (c.grammar.capture? i)
      (c'.grammar.capture? i')
  found : c.found = c'.found
  text : c.text = c'.text
  spans : ρ.SpansPaired c.spans c'.spans
  scopes : c.scopes = c'.scopes
  firstLine : c.firstLine = c'.firstLine

namespace Paired

variable {c c' : Captured}

theorem scanCapture (h : Paired ρ c c') {scan : Scanner P} (hscan : scan.InStep ρ)
    {i i' : CaptureId} (hi : ρ.Captures (c.grammarId, i) (c'.grammarId, i'))
    (scopes : List Scope) (start stop : Nat) :
    SessionM.InStep ρ (c.scanCapture scan i scopes start stop)
      (c'.scanCapture scan i' scopes start stop) Eq := by
  rw [Captured.scanCapture, Captured.scanCapture, ← h.text, ← h.firstLine]
  refine SessionM.tokenizer_inStep.bind fun t t' ht => ?_
  have hsituation : ρ.SituationPaired (.capture t.base c.grammarId i)
      (.capture t'.base c'.grammarId i') := ⟨ht.base, .capture hi, rfl, rfl, rfl⟩
  refine (SessionM.resolveContext_inStep hsituation).bind fun context context' hcontext => ?_
  rw [← h.spans.depth]
  exact hscan _ _ _ _ _ (h.spans.push ⟨rfl, .capture, rfl, rfl, rfl, hcontext, rfl⟩)

/-- A group has a capture on both sides or on none, in the same place. -/
theorem place? (h : Paired ρ c c') (n : Nat) {i i' : CaptureId}
    (hi : ρ.Captures (c.grammarId, i) (c'.grammarId, i')) :
    Option.Rel (fun p p' => p.1.Linked (ρ.links c.grammarId c'.grammarId) p'.1 ∧ p.2 = p'.2)
      (c.place? n i) (c'.place? n i') := by
  have hcapture := h.captures hi
  rw [Captured.place?, Captured.place?, ← h.found]
  generalize c.grammar.capture? i = capture at hcapture
  generalize c'.grammar.capture? i' = capture' at hcapture
  cases c.found.group? n with
  | none => exact .none
  | some range =>
    obtain ⟨start, stop⟩ := range
    cases hcapture with
    | none => exact .none
    | some hlinked =>
      dsimp only
      split
      · exact .none
      · exact .some ⟨hlinked, rfl⟩

theorem scopeEntries (h : Paired ρ c c') {scan : Option (Scanner P)}
    (hscan : ∀ scan' ∈ scan, scan'.InStep ρ) {entries entries' : List (Nat × CaptureId)}
    (hentries : List.Forall₂
      (fun e e' => e.1 = e'.1 ∧ ρ.Captures (c.grammarId, e.2) (c'.grammarId, e'.2)) entries entries')
    (groups : OpenGroups) (cover : Cover) :
    SessionM.InStep ρ (c.scopeEntries scan entries groups cover)
      (c'.scopeEntries scan entries' groups cover) Eq := by
  induction hentries generalizing groups cover with
  | nil => exact SessionM.inStep_pure rfl
  | @cons e e' _ _ he _ ih =>
    obtain ⟨n, i⟩ := e
    obtain ⟨n', i'⟩ := e'
    obtain ⟨rfl, hi⟩ := he
    have hplace := h.place? n hi
    rw [Captured.scopeEntries, Captured.scopeEntries]
    generalize c.place? n i = place at hplace
    generalize c'.place? n i' = place' at hplace
    cases hplace with
    | none => exact ih groups cover
    | @some p p' hp =>
      obtain ⟨capture, start, stop⟩ := p
      obtain ⟨capture', start', stop'⟩ := p'
      obtain ⟨hlinked, heq⟩ := hp
      cases heq
      have hpatterns := hlinked.patterns
      dsimp only
      rw [← h.scopes, ← hlinked.scopes]
      generalize capture.patterns = patterns at hpatterns
      generalize capture'.patterns = patterns' at hpatterns
      cases hpatterns with
      | none => exact ih _ _
      | some _ =>
        cases scan with
        | none => exact ih _ _
        | some scan =>
          dsimp only
          refine (h.scanCapture (hscan scan rfl) hi _ start stop).bind
            fun tokens tokens' htokens => ?_
          rw [htokens]
          exact ih _ _

end Paired

end Captured

namespace SessionM

variable {scan : Option (Scanner P)} {text : Subject}

theorem scopeGroups_inStep (hscan : ∀ scan' ∈ scan, scan'.InStep ρ) {spans spans' : OpenSpans}
    (h : ρ.SpansPaired spans spans') (scopes : List Scope) {a a' : RuleRef} (ha : ρ.Rules a a')
    {t t' : CaptureTable} (ht : t.Linked (ρ.links a.grammar a'.grammar) t') (found : Match)
    (firstLine : Bool) (cover : Cover) :
    InStep ρ (scopeGroups scan text spans scopes a.grammar t found firstLine cover)
      (scopeGroups scan text spans' scopes a'.grammar t' found firstLine cover) Eq := by
  rw [scopeGroups, scopeGroups]
  refine registry_inStep.bind fun r r' hr => ?_
  obtain ⟨g, g', hg, hg', _⟩ := hr.alike.rule? ha
  rw [hg, hg']
  let c : Captured :=
    { grammarId := a.grammar, grammar := g, found, text, spans, scopes, firstLine }
  let c' : Captured :=
    { grammarId := a'.grammar, grammar := g', found, text, spans := spans', scopes, firstLine }
  have hpaired : Captured.Paired ρ c c' := by
    refine ⟨fun {i i'} hi => ?_, rfl, rfl, h, rfl, rfl⟩
    obtain ⟨k, k', hk, hk', hlinked⟩ := hr.alike.capture? hi
    cases hg.symm.trans hk
    cases hg'.symm.trans hk'
    exact hlinked
  exact hpaired.scopeEntries hscan ht.entries [] cover

end SessionM

/-! ## Candidates -/

namespace SessionM

variable {scan : Option (Scanner P)} {text : Subject} {l l' : LineState}

theorem scopeMatch_inStep (hscan : ∀ scan' ∈ scan, scan'.InStep ρ) (m : Match)
    (hl : ρ.LinePaired l l') {e e' : Effect} (he : ρ.EffectPaired e e') :
    InStep ρ (scopeMatch scan text m l e) (scopeMatch scan text m l' e') Eq := by
  rw [scopeMatch, scopeMatch]
  refine tokenizer_inStep.bind fun t t' ht => ?_
  obtain ⟨a, a', ha, hid, hid', hcaptures⟩ := he.captures
  dsimp only
  rw [← ht.scopesOf hl.spans, ← he.scopes, ← hl.cursor, ← hl.cover, hid, hid']
  refine (scopeGroups_inStep hscan (he.spans hl.spans) _ ha hcaptures m _ _).bind
    fun cover cover' hcover => ?_
  rw [hcover]
  exact inStep_pure rfl

theorem openSpan_inStep (m : Match) (hl : ρ.LinePaired l l') {a a' : RuleRef} (ha : ρ.Rules a a')
    {g g' : Grammar} {span span' : SpanRule}
    (hclose : g.pattern span.closePattern = g'.pattern span'.closePattern)
    (hspan : span.Linked (ρ.links a.grammar a'.grammar) span') :
    InStep (P := P) ρ (openSpan text a g span m l) (openSpan text a' g' span' m l')
      ρ.LinePaired := by
  rw [openSpan, openSpan]
  refine tokenizer_inStep.bind fun t t' ht => ?_
  have hsource : closingSource g span text m = closingSource g' span' text m := by
    rw [closingSource, closingSource, hclose, hspan.fillsEnding]
  dsimp only
  rw [← hsource, ← ht.options, ← hl.cursor, ← hl.cover, ← hl.spans.depth, ← ht.scopesOf hl.spans]
  generalize closingSource g span text m = source
  have hsituation : ρ.SituationPaired (spanSituation t.options t.base a span source l.spans)
      (spanSituation t.options t'.base a' span' source l'.spans) := by
    have hends : l.spans.top?.map (·.ends) = l'.spans.top?.map (·.ends) :=
      hl.spans.top?_map fun _ _ hf => hf.ends
    rw [spanSituation, spanSituation, ← hspan.isWhile, ← hspan.fillsEnding, ← hspan.appliesEndLast,
      ← hends]
    exact ⟨ht.base, .span ha, rfl, rfl, rfl⟩
  have hends : (spanSituation t.options t.base a span source l.spans).ends =
      (spanSituation t.options t'.base a' span' source l'.spans).ends := by
    rw [Situation.ends, Situation.ends, hsituation.ownEnd, hsituation.outerEnds]
  refine (resolveContext_inStep hsituation).bind fun context context' hcontext => ?_
  refine inStep_pure ⟨hl.spans.push ⟨rfl, ?_, ?_, ?_, rfl, hcontext, hends⟩, rfl, rfl⟩
  · show ρ.HoldPaired (holdOf a span source) (holdOf a' span' source)
    rw [holdOf, holdOf, ← hspan.isWhile]
    split
    · exact .whileMatched ha
    · exact .untilEnd ha
  · show _ ++ span.scopes = _ ++ span'.scopes
    rw [hspan.scopes]
  · show _ ++ span.scopes ++ span.contentScopes = _ ++ span'.scopes ++ span'.contentScopes
    rw [hspan.scopes, hspan.contentScopes]

theorem applyEffect_inStep (hscan : ∀ scan' ∈ scan, scan'.InStep ρ) (m : Match)
    (hl : ρ.LinePaired l l') {e e' : Effect} (he : ρ.EffectPaired e e') :
    InStep ρ (applyEffect scan text m l e) (applyEffect scan text m l' e') ρ.LinePaired := by
  rw [applyEffect, applyEffect]
  refine (scopeMatch_inStep hscan m hl he).bind fun cover cover' hcover => ?_
  have hcovered : ρ.LinePaired { l with cover } { l' with cover := cover' } :=
    ⟨hl.spans, hl.cursor, hcover⟩
  cases he with
  | closing htarget houter _ _ =>
    refine inStep_pure ⟨hl.spans.withFrames houter, ?_, hcover⟩
    show (l.cursor.reanchor _).passSpan _ = (l'.cursor.reanchor _).passSpan _
    rw [hl.cursor, htarget.depth]
  | single _ _ =>
    refine inStep_pure ⟨hl.spans, ?_, hcover⟩
    show l.cursor.passRule _ = l'.cursor.passRule _
    rw [hl.cursor]
  | opening ha hclose hspan => exact openSpan_inStep m hcovered ha hclose hspan

theorem applyCandidate_inStep (hscan : ∀ scan' ∈ scan, scan'.InStep ρ) (m : Match)
    (hl : ρ.LinePaired l l') {c c' : Option Candidate} (hc : Option.Rel ρ.CandidatePaired c c') :
    InStep ρ (applyCandidate scan text m l c) (applyCandidate scan text m l' c')
      (Option.Rel ρ.LinePaired) := by
  rw [applyCandidate, applyCandidate]
  refine registry_inStep.bind fun r r' hr => ?_
  have heffect := hr.alike.effect? hl.spans.frames hc
  generalize r.effect? l.spans.frames c = effect at heffect
  generalize r'.effect? l'.spans.frames c' = effect' at heffect
  cases heffect with
  | none => exact inStep_pure .none
  | some he => exact (applyEffect_inStep hscan m hl he).bind fun _ _ h => inStep_pure (.some h)

variable (engine : Engine P)

theorem applyAll_inStep (hscan : ∀ scan' ∈ scan, scan'.InStep ρ) (steps : Nat)
    (hl : ρ.LinePaired l l') :
    InStep ρ (applyAll engine scan text steps l) (applyAll engine scan text steps l')
      ρ.LinePaired := by
  induction steps generalizing l l' with
  | zero =>
    rw [applyAll, applyAll]
    refine tokenizer_inStep.bind fun t t' ht => ?_
    rw [← ht.scopesOf hl.spans, ← hl.cover]
    exact inStep_pure ⟨hl.spans, hl.cursor, rfl⟩
  | succ steps ih =>
    -- the tokenizer and the candidate are the same but for numbers, so the same match is applied
    rw [applyAll, applyAll]
    refine tokenizer_inStep.bind fun t t' ht => ?_
    have hcontext := ht.contextOf hl.spans
    dsimp only
    rw [← hl.cursor, ← hl.cover, ← ht.scopesOf hl.spans, ← ht.rootScopes]
    refine (searchContext_inStep engine hcontext _ text _).bind fun found found' hfound => ?_
    rw [← hfound]
    cases found with
    | none => exact inStep_pure ⟨hl.spans, rfl, rfl⟩
    | some winner =>
      obtain ⟨i, m⟩ := winner
      refine (applyCandidate_inStep hscan m hl (hcontext.candidate? i)).bind
        fun applied applied' happlied => ?_
      cases happlied with
      | none =>
        refine (note_inStep _ _).bind fun _ _ _ => ?_
        exact inStep_pure ⟨hl.spans, rfl, rfl⟩
      | some hline => exact ih hline

theorem scanLine_inStep (hscan : ∀ scan' ∈ scan, scan'.InStep ρ) (hl : ρ.LinePaired l l') :
    InStep ρ (scanLine engine scan text l) (scanLine engine scan text l') ρ.LinePaired := by
  rw [scanLine, scanLine, ← hl.cursor]
  exact applyAll_inStep engine hscan _ hl

theorem captureScanner_inStep (levels : Nat) :
    ∀ scan ∈ captureScanner engine levels, scan.InStep ρ := by
  induction levels with
  | zero => intro scan h; cases h
  | succ levels ih =>
    intro scan h
    cases h
    intro text a a' start firstLine ha
    have hstart : ρ.LinePaired (.startingAt a start none firstLine)
        (.startingAt a' start none firstLine) := ⟨ha, rfl, rfl⟩
    refine (scanLine_inStep engine ih hstart).bind fun line line' hline => ?_
    rw [hline.cover]
    exact inStep_pure rfl

/-! ## Lines -/

theorem heldGroups_inStep (hscan : ∀ scan' ∈ scan, scan'.InStep ρ) {frame frame' : Frame}
    {outer outer' : List Frame} (hframe : ρ.FramePaired frame frame')
    (houter : List.Forall₂ ρ.FramePaired outer outer') {a a' : RuleRef} (ha : ρ.Rules a a')
    (m : Match) (hl : ρ.LinePaired l l') {s s' : Session P} (hs : Session.InStep ρ s s') :
    (heldGroups scan text frame outer a m l s).1 =
        (heldGroups scan text frame' outer' a' m l' s').1 ∧
      Session.InStep ρ (heldGroups scan text frame outer a m l s).2
        (heldGroups scan text frame' outer' a' m l' s').2 := by
  have hspan := hs.registry.alike.span? ha
  rw [heldGroups, heldGroups, ← hl.cursor, ← hl.cover, ← hframe.contentScopes]
  generalize s.registry.span? a = span at hspan
  generalize s'.registry.span? a' = span' at hspan
  cases hspan with
  | none => exact ⟨rfl, hs⟩
  | some hlinked =>
    exact scopeGroups_inStep hscan (hl.spans.withFrames (.cons hframe houter)) _ ha
      hlinked.closeCaptures m _ _ s s' hs

theorem holdFrames_inStep (hscan : ∀ scan' ∈ scan, scan'.InStep ρ)
    {inner inner' outer outer' : List Frame} (hinner : List.Forall₂ ρ.FramePaired inner inner')
    (houter : List.Forall₂ ρ.FramePaired outer outer') (hl : ρ.LinePaired l l') :
    InStep ρ (holdFrames engine scan text inner outer l)
      (holdFrames engine scan text inner' outer' l') ρ.LinePaired := by
  induction hinner generalizing outer outer' l l' with
  | nil => exact inStep_pure hl
  | @cons frame frame' inner inner' hframe _ ih =>
    intro s s' hs
    have hhold := hframe.hold
    rw [run_holdFrames_cons, run_holdFrames_cons]
    generalize frame.hold = hold at hhold
    generalize frame'.hold = hold' at hhold
    cases hhold with
    | untilEnd _ => exact ih (.cons hframe houter) hl s s' hs
    | capture => exact ih (.cons hframe houter) hl s s' hs
    | @whileMatched a a' source ha =>
      obtain ⟨hfound, hmatched⟩ :=
        matchAlone_inStep engine source l.cursor.anchors text l.cursor.pos s s' hs
      dsimp only
      rw [← hl.cursor, ← hl.cover, ← hframe.contentScopes]
      generalize (matchAlone engine source l.cursor.anchors text l.cursor.pos).run s = found
        at hfound hmatched ⊢
      generalize (matchAlone engine source l.cursor.anchors text l.cursor.pos).run s' = found'
        at hfound hmatched ⊢
      obtain ⟨answer, s₁⟩ := found
      obtain ⟨answer', s₁'⟩ := found'
      cases hfound
      cases answer with
      | none => exact ⟨⟨hl.spans.withFrames houter, rfl, rfl⟩, hmatched⟩
      | some m =>
        obtain ⟨hcover, hheld⟩ := heldGroups_inStep hscan hframe houter ha m hl hmatched
        have hnext : ρ.LinePaired
            { l with
              cursor := l.cursor.passWhile m.stop
              cover := (heldGroups scan text frame outer a m l s₁).1.extend m.stop
                frame.contentScopes }
            { l' with
              cursor := l.cursor.passWhile m.stop
              cover := (heldGroups scan text frame' outer' a' m l' s₁').1.extend m.stop
                frame.contentScopes } :=
          ⟨hl.spans, rfl, congrArg (·.extend m.stop frame.contentScopes) hcover⟩
        exact ih (.cons hframe houter) hnext _ _ hheld

theorem holdSpans_inStep (hscan : ∀ scan' ∈ scan, scan'.InStep ρ) (hl : ρ.LinePaired l l') :
    InStep ρ (holdSpans engine scan text l) (holdSpans engine scan text l') ρ.LinePaired :=
  holdFrames_inStep engine hscan (List.forall₂_reverse_iff.2 hl.spans.frames) .nil hl

theorem startLine_paired {a a' : OpenSpans} (h : ρ.SpansPaired a a') :
    ρ.LinePaired (startLine a) (startLine a') := by
  have hcaptured : a.top?.map (·.capturedLineEnd) = a'.top?.map (·.capturedLineEnd) :=
    h.top?_map fun _ _ hf => hf.capturedLineEnd
  refine ⟨h, ?_, rfl⟩
  rw [startLine, startLine, hcaptured, h.started]
  rfl

theorem tokenizeLine_inStep (line : String) {a a' : OpenSpans} (h : ρ.SpansPaired a a') :
    InStep ρ (tokenizeLine engine line a) (tokenizeLine engine line a') ρ.TokenizedPaired := by
  have hscan := captureScanner_inStep (ρ := ρ) engine captureDepth
  rw [tokenizeLine, tokenizeLine]
  refine tokenizer_inStep.bind fun t t' ht => ?_
  rw [← ht.options, ← ht.scopesOf h]
  dsimp only
  split
  · exact inStep_pure ⟨rfl, h.start⟩
  · refine (holdSpans_inStep engine hscan (startLine_paired h)).bind fun l l' hl => ?_
    refine (scanLine_inStep engine hscan hl).bind fun l l' hl => ?_
    exact inStep_pure ⟨congrArg (·.clip line.length) hl.cover, hl.spans.start⟩

/-- The lines give the same tokens, and states that are the same but for numbers. -/
theorem tokenizeLines_inStep (lines : List String) {a a' : OpenSpans} (h : ρ.SpansPaired a a') :
    InStep ρ (tokenizeLines engine lines a) (tokenizeLines engine lines a')
      (List.Forall₂ ρ.TokenizedPaired) := by
  induction lines generalizing a a' with
  | nil => exact inStep_pure .nil
  | cons line rest ih =>
    rw [tokenizeLines, tokenizeLines]
    refine (tokenizeLine_inStep engine line h).bind fun l l' hl => ?_
    exact (ih hl.state).bind fun _ _ hrest => inStep_pure (.cons hl hrest)

end SessionM

/-! ## New tokenizers -/

/-- Tokenizers that start with grammars that stand for each other are in step. -/
theorem Session.InStep.start {r r' : Registry} (h : r.InStep ρ r') {b b' : GrammarId}
    (hb : ρ.base b b') (options : SessionOptions) (notices notices' : List Notice) :
    Session.InStep (P := P) ρ
      { registry := (Tokenizer.start (P := P) r b options).2
        tokenizer := (Tokenizer.start r b options).1.1, notices }
      { registry := (Tokenizer.start (P := P) r' b' options).2
        tokenizer := (Tokenizer.start r' b' options).1.1, notices := notices' } := by
  have hroot : ρ.SituationPaired (.root b) (.root b') := ⟨hb, .root hb, rfl, rfl, rfl⟩
  obtain ⟨hcontext, hafter⟩ := h.resolve hroot
  refine ⟨hafter, hb, ?_, rfl, hcontext, .nil, rfl⟩
  have hscopes : (r.grammar? b).map (·.scope) = (r'.grammar? b').map (·.scope) :=
    map_eq_of_optionRel (h.alike.base hb) fun _ _ hg => hg.1
  exact congrArg Option.toList hscopes

end ScopeGrammar
