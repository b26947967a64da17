import ScopeGrammar.Proofs.Session.Resume
import ScopeGrammar.Proofs.World.Kept

/-!
# ScopeGrammar.Proofs.Session.Independence

A line gives the same whatever its tokenizer was used for before.

What two tokenizers with one base and the same options keep differs, and so do the contexts that the
registry keeps at different times. None of this is seen in the tokens, and in the states only by the
numbers of contexts (`SessionM.tokenizeLine_agree`). Here the numbers are followed too:

* `Frame.Matched` : two frames have contexts of one number, unless an end of theirs is filled in and
  the context was made on the line.
* `SessionM.applyAll_matched` : this is so of the frames on both sides when one session runs on what
  the other one left behind in the registry.
* `World.Reachable.tokenizeLine_unaffected` is the result for a line.
-/

namespace ScopeGrammar

variable {P : Type} {engine : Engine P}

/-! ## Frames with contexts of one number -/

/-- The contexts have one number, or the first one was given a number from `start` on and the frame
has an end that is filled in. -/
def Frame.Matched (start : Nat) (f g : Frame) : Prop :=
  f.context.id = g.context.id ∨
    (∃ e ∈ f.ends, e.filled = true) ∧ f.context.NumberedIn start (2 ^ 32)

abbrev OpenSpans.Matched (start : Nat) (a b : OpenSpans) : Prop :=
  List.Forall₂ (Frame.Matched start) a.frames b.frames

theorem OpenSpans.Matched.refl (start : Nat) (a : OpenSpans) : a.Matched start a :=
  List.forall₂_same.2 fun _ _ => .inl rfl

/-- Where as many frames are left open on both sides, they are matched still. -/
theorem Frame.matched_of_suffix {start : Nat} {l l' outer outer' : List Frame}
    (h : List.Forall₂ (Matched start) l l') (houter : outer <:+ l) (houter' : outer' <:+ l')
    (hlength : outer.length = outer'.length) : List.Forall₂ (Matched start) outer outer' := by
  rw [List.suffix_iff_eq_drop.1 houter, List.suffix_iff_eq_drop.1 houter', ← hlength,
    ← h.length_eq]
  exact List.forall₂_drop _ h

theorem Situation.exists_filled_of_not_reusable {situation : Situation}
    (h : situation.isReusable = false) : ∃ e ∈ situation.ends, e.filled = true := by
  simpa [Situation.isReusable] using h

/-- A session that goes on from what another one left behind finds the contexts that one made, and
makes anew only those of situations that cannot come up again. -/
theorem Session.contextFor_matched {s s' : Session P} {situation : Situation} {start : Nat}
    (hstart : start ≤ s.registry.contexts.made) (hn : (s.resolved situation).Numbered)
    (hkeep : (s.resolved situation).registry.Keeps s'.registry) :
    (s.contextFor situation).id = (s'.contextFor situation).id ∨
      (∃ e ∈ situation.ends, e.filled = true) ∧
        (s.contextFor situation).NumberedIn start (2 ^ 32) := by
  rw [resolved_registry] at hkeep
  rw [Numbered, resolved_registry] at hn
  rw [contextFor, contextFor]
  cases hs : situation.isReusable with
  | true => exact .inl (congrArg Context.id (hkeep.resolve_eq hs).symm)
  | false =>
    refine .inr ⟨situation.exists_filled_of_not_reusable hs, s.registry.contexts.made, hstart, ?_⟩
    rw [Registry.resolve_anew (by simp [hs])] at hn ⊢
    exact ⟨hn, rfl⟩

namespace SessionM

variable {scan : Option (Scanner P)} {text : Subject} {s s' u u' : Session P}
  {line line' l l' : LineState} {m : Match} {start : Nat}

theorem applyEffect_matched (hscan : ∀ scan' ∈ scan, scan'.Steady engine) (hline : line.Alike line')
    (h : s.Agree engine line.spans s' line'.spans) (hm : line.spans.Matched start line'.spans)
    {c c' : Candidate} {e e' : Effect} (hhas : s.registry.HasEffect line.spans.frames c e)
    (hhas' : s'.registry.HasEffect line'.spans.frames c' e') (he : e.Alike e')
    (hstart : start ≤ s.registry.contexts.made)
    (hn : ((applyEffect scan text m line e).run s).2.Numbered)
    (hkeep : ((applyEffect scan text m line e).run s).2.registry.Keeps s'.registry) :
    ((applyEffect scan text m line e).run s).1.spans.Matched start
      ((applyEffect scan text m line' e').run s').1.spans := by
  have hreturns := Scanner.returns_of_steady hscan
  have hleft := scopeMatch_leads hreturns text hhas m s
  have hright := scopeMatch_leads hreturns text hhas' m s'
  have hafter := h.after hleft hright hline.spans
  rw [run_applyEffect] at hn hkeep ⊢
  rw [run_applyEffect]
  cases he with
  | closing htarget houter =>
    cases hhas with
    | closing hdrop hhold hspan =>
      cases hhas' with
      | closing hdrop' hhold' hspan' =>
        exact Frame.matched_of_suffix hm
          ((List.suffix_cons ..).trans (hdrop ▸ List.drop_suffix ..))
          ((List.suffix_cons ..).trans (hdrop' ▸ List.drop_suffix ..)) houter.length_eq
  | single => exact hm
  | @opening rule grammar span =>
    dsimp only at hn hkeep ⊢
    rw [run_openSpan] at hn hkeep ⊢
    rw [run_openSpan]
    dsimp only at hn hkeep ⊢
    rw [← hafter.options, ← hafter.base, ← spanSituation_alike hline.spans]
    have hcontext := Session.contextFor_matched (Nat.le_trans hstart hleft.made_le) hn
      (hkeep.trans hright.keeps)
    exact .cons hcontext hm

theorem applyCandidate_matched (hscan : ∀ scan' ∈ scan, scan'.Steady engine)
    (hline : line.Alike line') (h : s.Agree engine line.spans s' line'.spans)
    (hm : line.spans.Matched start line'.spans) {candidate : Option Candidate}
    (hleft : (applyCandidate scan text m line candidate).run s = (some l, u))
    (hright : (applyCandidate scan text m line' candidate).run s' = (some l', u'))
    (hstart : start ≤ s.registry.contexts.made) (hn : u.Numbered)
    (hkeep : u.registry.Keeps s'.registry) : l.spans.Matched start l'.spans := by
  rw [run_applyCandidate] at hleft hright
  rw [h.grammars.effect?_eq] at hright
  obtain ⟨hnone, _⟩ | ⟨e, e', heffect, heffect', he⟩ :=
    s.registry.effect?_alike hline.spans.frames candidate
  · rw [hnone] at hleft; cases hleft
  · obtain ⟨c, _, hhas⟩ := Registry.hasEffect_of_effect? heffect
    have heffect'' := heffect'
    rw [← h.grammars.effect?_eq] at heffect''
    obtain ⟨c', _, hhas'⟩ := Registry.hasEffect_of_effect? heffect''
    rw [heffect] at hleft
    rw [heffect'] at hright
    cases hleft
    cases hright
    exact applyEffect_matched hscan hline h hm hhas hhas' he hstart hn hkeep

/-- The second session starts after the first one has come to the end of its scan. -/
theorem applyAll_matched (hscan : ∀ scan' ∈ scan, scan'.Steady engine) (steps : Nat)
    (hline : line.Alike line') (h : s.Agree engine line.spans s' line'.spans)
    (hm : line.spans.Matched start line'.spans) (hstart : start ≤ s.registry.contexts.made)
    (hn : ((applyAll engine scan text steps line).run s).2.Numbered)
    (hn' : ((applyAll engine scan text steps line').run s').2.Numbered)
    (hkeep : ((applyAll engine scan text steps line).run s).2.registry.Keeps s'.registry) :
    ((applyAll engine scan text steps line).run s).1.spans.Matched start
      ((applyAll engine scan text steps line').run s').1.spans := by
  have hreturns := Scanner.returns_of_steady hscan
  -- along both scans the registry of the second one keeps all that the first one comes to keep
  induction steps generalizing line line' s s' with
  | zero => exact hm
  | succ steps ih =>
    have hs := hn.before (applyAll_leads hreturns text (steps + 1) line s)
    have hs' := hn'.before (applyAll_leads hreturns text (steps + 1) line' s')
    have hfound := h.searchContext hs hs' line.cursor.anchors text line.cursor.pos
    have hsearch := Leads.searchContext engine s line.spans line.cursor.anchors text line.cursor.pos
    have hsearch' := Leads.searchContext engine s' line'.spans line.cursor.anchors text
      line.cursor.pos
    rw [run_applyAll_succ] at hn hn' hkeep ⊢
    rw [run_applyAll_succ]
    dsimp only at hn hn' hkeep ⊢
    rw [← hline.cursor] at hn' ⊢
    generalize (searchContext engine (s.tokenizer.contextOf line.spans) line.cursor.anchors
      text line.cursor.pos).run s = found at hn hkeep hfound hsearch ⊢
    generalize (searchContext engine (s'.tokenizer.contextOf line'.spans)
      line.cursor.anchors text line.cursor.pos).run s' = found' at hn' hfound hsearch' ⊢
    obtain ⟨answer, s₁⟩ := found
    obtain ⟨answer', s₁'⟩ := found'
    cases hfound
    cases answer with
    | none => exact hm
    | some winner =>
      obtain ⟨i, m⟩ := winner
      have hcandidate : (s'.tokenizer.contextOf line'.spans).candidate? i =
          (s.tokenizer.contextOf line.spans).candidate? i := by
        rw [Context.candidate?, Context.candidate?, h.contextOf]
      have hafter := h.after hsearch hsearch' hline.spans
      dsimp only at hn hn' hkeep ⊢
      rw [hcandidate] at hn' ⊢
      obtain ⟨hnone, hnone'⟩ | ⟨l, l', u, u', hsome, hsome', halike⟩ := applyCandidate_agree hscan
        hline hafter ((s.tokenizer.contextOf line.spans).candidate? i)
      · rw [hnone, hnone']
        exact hm
      · rw [hsome] at hn hkeep ⊢
        rw [hsome'] at hn' ⊢
        dsimp only at hn hn' hkeep ⊢
        have hleft := applyCandidate_leads hreturns text hsome
        have hright := applyCandidate_leads hreturns text hsome'
        have hrest := applyAll_leads hreturns text steps l u
        have hnumbered := hn.before hrest
        have hl := halike hnumbered (hn'.before (applyAll_leads hreturns text steps l' u'))
        have hmatched := applyCandidate_matched hscan hline hafter hm hsome hsome'
          (Nat.le_trans hstart hsearch.made_le) hnumbered
          ((hrest.keeps.trans hkeep).trans hsearch'.keeps)
        exact ih hl (hafter.after hleft hright hl.spans) hmatched
          (Nat.le_trans hstart (hsearch.trans hleft).made_le) hn hn'
          (hkeep.trans (hsearch'.trans hright).keeps)

theorem holdSpans_matched (hscan : ∀ scan' ∈ scan, scan'.Steady engine)
    (hline : line.Alike line') (h : s.Agree engine line.spans s' line'.spans)
    (hm : line.spans.Matched start line'.spans)
    (hn : ((holdSpans engine scan text line).run s).2.Numbered)
    (hn' : ((holdSpans engine scan text line').run s').2.Numbered) :
    ((holdSpans engine scan text line).run s).1.spans.Matched start
      ((holdSpans engine scan text line').run s').1.spans :=
  Frame.matched_of_suffix hm (holdFrames_suffix text _ _ line s (by simp))
    (holdFrames_suffix text _ _ line' s' (by simp))
    (holdSpans_agree hscan hline h hn hn').spans.frames.length_eq

/-- A line is tokenized from one state, a second time on what the first time left in the
registry. -/
theorem tokenizeLine_matched (line : String) {a : OpenSpans} (h : s.Agree engine a s' a)
    (hstart : start ≤ s.registry.contexts.made)
    (hn : ((tokenizeLine engine line a).run s).2.Numbered)
    (hn' : ((tokenizeLine engine line a).run s').2.Numbered)
    (hkeep : ((tokenizeLine engine line a).run s).2.registry.Keeps s'.registry) :
    ((tokenizeLine engine line a).run s).1.state.Matched start
      ((tokenizeLine engine line a).run s').1.state := by
  have hsteady : ∀ scan ∈ captureScanner engine captureDepth, scan.Steady engine :=
    captureScanner_steady captureDepth
  rw [run_tokenizeLine] at hn hn' hkeep ⊢
  rw [run_tokenizeLine]
  rw [← h.options] at hn' ⊢
  by_cases hlong : isTooLong s.tokenizer.options line.length = true
  · rw [if_pos hlong, if_pos hlong]
    exact .refl start a.start
  · rw [if_neg hlong] at hn hn' hkeep ⊢
    rw [if_neg hlong]
    dsimp only at hn hn' hkeep ⊢
    have hleft : Leads engine s (startLine a).spans _ _ :=
      holdSpans_leads captureDepth (.ofLine line) (startLine a) s
    have hright : Leads engine s' (startLine a).spans _ _ :=
      holdSpans_leads captureDepth (.ofLine line) (startLine a) s'
    have hstarted := startLine_alike (OpenSpans.Alike.refl a)
    have hnumbered := hn.before (scanLine_leads ..)
    have hnumbered' := hn'.before (scanLine_leads ..)
    have hheld := holdSpans_agree hsteady hstarted h hnumbered hnumbered'
    have hmatched := holdSpans_matched hsteady hstarted h (.refl start a) hnumbered hnumbered'
    rw [scanLine, ← hheld.cursor] at hn'
    rw [scanLine, scanLine, ← hheld.cursor]
    exact applyAll_matched hsteady _ hheld (h.after hleft hright hheld.spans) hmatched
      (Nat.le_trans hstart hleft.made_le) hn hn' (hkeep.trans hright.keeps)

end SessionM

/-! ## Equal states -/

namespace OpenSpans

/-- Alike states are equal if their contexts have the same numbers. -/
theorem beq_of_alike {a b : OpenSpans} (h : a.Alike b)
    (hid : List.Forall₂ (fun f g : Frame => f.context.id = g.context.id) a.frames b.frames) :
    (a == b) = true := by
  refine beq_iff.2 ⟨?_, h.started⟩
  have hframes := h.frames
  generalize a.frames = l at hid hframes
  generalize b.frames = l' at hid hframes
  induction hframes with
  | nil => rfl
  | cons hframe _ ih =>
    cases hid with
    | cons hhead htail =>
      rw [List.cons_beq_cons, Bool.and_eq_true]
      exact ⟨Frame.beq_iff.2 ⟨hframe.depth, hframe.hold, hframe.capturedLineEnd, hhead,
        hframe.nameScopes, hframe.contentScopes⟩, ih htail⟩

end OpenSpans

/-- A frame that is listed has a context of before. -/
theorem Frame.Listed.not_numberedIn {K : Catalog} {f : Frame} (h : f.Listed K) :
    ¬ f.context.NumberedIn K.length (2 ^ 32) := by
  obtain ⟨s, ⟨n, hget, hid⟩, _⟩ := h
  intro hlate
  have hearly : f.context.NumberedIn 0 K.length :=
    ⟨n, Nat.zero_le n, (List.getElem?_eq_some_iff.1 hget).1, hid⟩
  exact hearly.id_ne hlate (Nat.le_refl _) rfl

namespace World

variable {w v v' : World P} {t t' : Tokenizer P} {state : OpenSpans}

/-- A line has the same tokens with any two tokenizers that have one base grammar and the same
options, whatever each of them was used for before and whatever else the registry was used for, and
states that differ at most in the numbers of contexts. Where the second one, which may be new,
comes later, the states are equal if no frame that was opened has an end that is filled in. Wherever
the steps of the line lead (`Visits.leads`), no more than 256 groups and 256 single patterns are
kept. -/
theorem Reachable.tokenizeLine_unaffected (hw : w.Reachable engine) (hstate : state ∈ w.states)
    (huses : Uses engine w v) (huses' : Uses engine w v') (ht : t ∈ v.tokenizers)
    (ht' : t' ∈ v'.tokenizers) (hbase : t.base = t'.base) (hoptions : t.options = t'.options)
    (line : String) :
    let r := (SessionM.tokenizeLine engine line state).run (v.session t)
    let r' := (SessionM.tokenizeLine engine line state).run (v'.session t')
    (r.2.Numbered → r'.2.Numbered → r.1.Alike r'.1 ∧
      (Uses engine (v.after r) v' →
        (∀ f ∈ r.1.state.frames, f ∉ state.frames → ∀ e ∈ f.ends, e.filled = false) →
        (r.1.state == r'.1.state) = true)) ∧
    (∀ u b, Leads engine (v.session t) state u b →
      u.tokenizer.groups.length ≤ 256 ∧ u.tokenizer.singles.length ≤ 256) := by
  intro r r'
  obtain ⟨K, hsound⟩ := (hw.uses huses).sound
  obtain ⟨K', hsound'⟩ := (hw.uses huses').sound
  have hstates := huses.extends.states hstate
  have hagree : (v.session t).Agree engine state (v'.session t') state :=
    { left := ⟨v, K, hsound, session_at ht hstates⟩
      right := ⟨v', K', hsound', session_at ht' (huses'.extends.states hstate)⟩
      grammars := huses.extends.grammars.symm.trans huses'.extends.grammars
      base := hbase
      options := hoptions
      spans := .refl state }
  refine ⟨fun hn hn' => ?_, fun u b hu => ?_⟩
  · have halike : r.1.Alike r'.1 := SessionM.tokenizeLine_agree line hagree hn hn'
    refine ⟨halike, fun hlater hpushed => OpenSpans.beq_of_alike halike.state ?_⟩
    have hmatched : r.1.state.Matched v.registry.contexts.made r'.1.state :=
      SessionM.tokenizeLine_matched line hagree (Nat.le_refl _) hn hn' hlater.keeps
    have hid : ∀ f ∈ r.1.state.frames, ∀ g, f.Matched v.registry.contexts.made g →
        f.context.id = g.context.id := by
      rintro f hf g (hsame | ⟨⟨e, he, hfilled⟩, hlate⟩)
      · exact hsame
      · -- the frame is none of those from before, and so it was opened
        have hnew : f ∉ state.frames := by
          intro hold
          rw [hsound.registry.made] at hlate
          exact (hsound.frames state hstates f hold).not_numberedIn hlate
        rw [hpushed f hf hnew e he] at hfilled
        cases hfilled
    exact ((List.forall₂_and_left _ _).2 ⟨hid, hmatched⟩).imp fun f g h => h.1 g h.2
  · have hbounded := hu.bounded ((hw.uses huses).bounded t ht)
    exact ⟨hbounded.groups, hbounded.singles⟩

end World

/-- A second line, by the tokenizer that had the first one. -/
def nestedSpansSecond : TokenizedLine × Session Char :=
  (SessionM.tokenizeLine oneCharacter "cabca" nestedSpansFirst.1.state).run
    ((nestedSpansWorld.after nestedSpansFirst).session nestedSpansFirst.2.tokenizer)

/-- The world after the second line, with a new tokenizer. -/
def nestedSpansRestarted : World Char :=
  ((nestedSpansWorld.after nestedSpansFirst).after nestedSpansSecond).started ⟨0⟩ {}

def nestedSpansNewTokenizer : Tokenizer Char :=
  (Tokenizer.start ((nestedSpansWorld.after nestedSpansFirst).after nestedSpansSecond).registry
    ⟨0⟩ {}).1.1

/-- The second line, by the new tokenizer. -/
def nestedSpansSecondAnew : TokenizedLine × Session Char :=
  (SessionM.tokenizeLine oneCharacter "cabca" nestedSpansFirst.1.state).run
    (nestedSpansRestarted.session nestedSpansNewTokenizer)

/-- The line `cabca` after the line `a`, by the tokenizer that had that one and by a new one. -/
theorem tokenizeLine_unaffected_cabca :
    nestedSpansSecond.1.Alike nestedSpansSecondAnew.1 ∧
      (nestedSpansSecond.1.state == nestedSpansSecondAnew.1.state) = true := by
  have hfirst : (nestedSpansWorld.after nestedSpansFirst).Reachable oneCharacter :=
    .use nestedSpansWorld_reachable (.line "a" (.head _) (.head _))
  have hid : ((nestedSpansWorld.after nestedSpansFirst).after nestedSpansSecond).registry.id? "s" =
      some ⟨0⟩ := by decide +kernel
  have hlater : World.Uses oneCharacter
      ((nestedSpansWorld.after nestedSpansFirst).after nestedSpansSecond) nestedSpansRestarted :=
    .single (World.Use.start {} hid)
  have hline : World.Use oneCharacter (nestedSpansWorld.after nestedSpansFirst)
      ((nestedSpansWorld.after nestedSpansFirst).after nestedSpansSecond) :=
    .line "cabca" (.head _) (.head _)
  have hrestarted : World.Uses oneCharacter (nestedSpansWorld.after nestedSpansFirst)
      nestedSpansRestarted := .head hline hlater
  have hbase : nestedSpansFirst.2.tokenizer.base = nestedSpansNewTokenizer.base := by decide +kernel
  have hoptions : nestedSpansFirst.2.tokenizer.options = nestedSpansNewTokenizer.options := by
    decide +kernel
  have hn : nestedSpansSecond.2.Numbered := by
    have hmade : nestedSpansSecond.2.registry.contexts.made ≤ 2 ^ 32 := by decide +kernel
    exact hmade
  have hn' : nestedSpansSecondAnew.2.Numbered := by
    have hmade : nestedSpansSecondAnew.2.registry.contexts.made ≤ 2 ^ 32 := by decide +kernel
    exact hmade
  have hunfilled : ∀ f ∈ nestedSpansSecond.1.state.frames, ∀ e ∈ f.ends, e.filled = false := by
    decide +kernel
  have hstate : nestedSpansFirst.1.state ∈ (nestedSpansWorld.after nestedSpansFirst).states :=
    .head _
  have hold : nestedSpansFirst.2.tokenizer ∈ (nestedSpansWorld.after nestedSpansFirst).tokenizers :=
    .head _
  have hnew : nestedSpansNewTokenizer ∈ nestedSpansRestarted.tokenizers :=
    World.mem_started ..
  have hunaffected := (hfirst.tokenizeLine_unaffected hstate .refl hrestarted hold hnew hbase
    hoptions "cabca").1 hn hn'
  have hsecond : (SessionM.tokenizeLine oneCharacter "cabca" nestedSpansFirst.1.state).run
      ((nestedSpansWorld.after nestedSpansFirst).session nestedSpansFirst.2.tokenizer) =
      nestedSpansSecond := rfl
  have hanew : (SessionM.tokenizeLine oneCharacter "cabca" nestedSpansFirst.1.state).run
      (nestedSpansRestarted.session nestedSpansNewTokenizer) = nestedSpansSecondAnew := rfl
  rw [hsecond, hanew] at hunaffected
  exact ⟨hunaffected.1, hunaffected.2 hlater fun f hf _ => hunfilled f hf⟩

end ScopeGrammar
