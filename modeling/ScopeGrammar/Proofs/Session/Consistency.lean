import ScopeGrammar.Proofs.Session.Agreement
import ScopeGrammar.Proofs.Span.Fitting
import ScopeGrammar.Proofs.Span.Run

/-!
# ScopeGrammar.Proofs.Session.Consistency

States that come from lines fit the grammars they were tokenized with.

* `Session.Quiet` : in between no state was noted not to fit. Every step of a session is quiet while
  its open frames fit and the numbers of contexts have not come round, down to the scans of captures
  (`SessionM.tokenizeLine_quiet`).
* `World.Own.fits` : states from lines tokenized since a grammar was added last fit, whatever
  tokenizers the lines had.
* `Chain.above` : in the scan of a capture, frames are opened and closed above that of the capture.
* `World.Own.consistent` is the result for a line.
-/

namespace ScopeGrammar

variable {P : Type} {engine : Engine P} {r : Registry}

/-! ## What is noted -/

/-- In between no state was noted not to fit. -/
def Session.Quiet (s s' : Session P) : Prop :=
  ∀ pos, Notice.inconsistentState pos ∈ s'.notices → Notice.inconsistentState pos ∈ s.notices

def Gathering.Quiet (g : Gathering) : Prop := ∀ pos, Notice.inconsistentState pos ∉ g.notices

namespace Registry

theorem target_quiet (r : Registry) (base id : GrammarId) (grammar : Grammar) (i : Include)
    (pos : Nat) : .inconsistentState pos ∉ (r.target base id grammar i).2 := by
  unfold target
  repeat' split
  all_goals simp

theorem gatherList_quiet (r : Registry) (base : GrammarId) (levels : Nat)
    (place : GrammarId × ListId) {g : Gathering} (hg : g.Quiet) :
    (r.gatherList base levels place g).Quiet := by
  induction levels generalizing place g with
  | zero => exact hg
  | succ levels ih =>
    rw [gatherList]
    split
    · exact hg
    · split
      · exact hg
      · next grammar _ =>
        refine List.foldlRecOn (motive := Gathering.Quiet) _ _ hg fun g' hg' item hitem => ?_
        split
        · next id =>
          rw [Gathering.addRule]
          split <;> exact hg'
        · exact ih _ hg'
        · next i =>
          have hnoted : (g'.note (r.target base place.1 grammar i).2).Quiet := by
            intro pos hmem
            obtain hmem | hmem := List.mem_append.1 hmem
            · exact hg' pos hmem
            · exact r.target_quiet base place.1 grammar i pos hmem
          dsimp only
          split
          · exact ih _ hnoted
          · exact hnoted

theorem ruleEntries_quiet (r : Registry) (s : Situation) (pos : Nat) :
    .inconsistentState pos ∉ (r.ruleEntries s).2 := by
  rw [ruleEntries]
  split
  · exact List.not_mem_nil
  · next place _ =>
    exact r.gatherList_quiet s.base (r.listCount + 1) place (fun _ => List.not_mem_nil) pos

theorem resolve_quiet (r : Registry) (s : Situation) (pos : Nat) :
    .inconsistentState pos ∉ (r.resolve s).1.2 := by
  rw [resolve]
  split
  · split
    · exact List.not_mem_nil
    · exact r.ruleEntries_quiet s pos
  · exact r.ruleEntries_quiet s pos

end Registry

theorem ContextGroup.build_quiet (engine : Engine P) (context : Context) (anchors : Anchoring)
    (pos : Nat) : .inconsistentState pos ∉ (ContextGroup.build engine context anchors).2 := by
  rw [build]
  dsimp only
  split <;> simp

namespace Session.Quiet

variable {s s' s'' : Session P}

theorem refl (s : Session P) : s.Quiet s := fun _ h => h

theorem trans (h : s.Quiet s') (h' : s'.Quiet s'') : s.Quiet s'' := fun pos hmem =>
  h pos (h' pos hmem)

theorem of_append {notices : List Notice} (hs' : s'.notices = s.notices ++ notices)
    (h : ∀ pos, .inconsistentState pos ∉ notices) : s.Quiet s' := by
  intro pos hmem
  rw [hs', List.mem_append] at hmem
  exact hmem.resolve_right (h pos)

theorem resolved (s : Session P) (situation : Situation) : s.Quiet (s.resolved situation) :=
  of_append rfl (s.registry.resolve_quiet situation)

theorem searchContext (engine : Engine P) (s : Session P) (context : Context)
    (anchors : Anchoring) (text : Subject) (pos : Nat) :
    s.Quiet ((SessionM.searchContext engine context anchors text pos).run s).2 := by
  rw [SessionM.run_searchContext, SessionM.run_groupOf]
  dsimp only
  split
  · exact refl s
  · exact of_append rfl (ContextGroup.build_quiet engine context _)

theorem matchAlone (engine : Engine P) (s : Session P) (source : String) (anchors : Anchoring)
    (text : Subject) (pos : Nat) :
    s.Quiet ((SessionM.matchAlone engine source anchors text pos).run s).2 := by
  rw [SessionM.run_matchAlone, SessionM.run_singleOf]
  dsimp only
  split
  · exact refl s
  · refine of_append rfl fun pos => ?_
    split <;> simp

end Session.Quiet

/-! ## Steps of a session -/

/-- The scanner notes no state not to fit if the one it is given fits, and goes back to it. -/
structure Scanner.Quiet (engine : Engine P) (r : Registry) (scan : Scanner P) : Prop where
  returns : scan.Returns engine
  quiet : ∀ {text : Subject} {a : OpenSpans} {start : Nat} {firstLine : Bool} {s : Session P},
    s.Fits engine r a → ((scan text a start firstLine).run s).2.Numbered →
    s.Quiet ((scan text a start firstLine).run s).2

variable {scan : Option (Scanner P)} {s s' : Session P}

theorem Scanner.returns_of_quiet (hscan : ∀ scan' ∈ scan, scan'.Quiet engine r) :
    ∀ scan' ∈ scan, scan'.Returns engine :=
  fun scan' hs => (hscan scan' hs).returns

theorem Captured.scopeEntries_quiet (hscan : ∀ scan' ∈ scan, scan'.Quiet engine r) {c : Captured}
    {entries : List (Nat × CaptureId)} {groups : OpenGroups} {cover : Cover}
    (h : s.Fits engine r c.spans) (hgrammar : s.registry.grammar? c.grammarId = some c.grammar)
    (hn : ((c.scopeEntries scan entries groups cover).run s).2.Numbered) :
    s.Quiet ((c.scopeEntries scan entries groups cover).run s).2 := by
  have hreturns := Scanner.returns_of_quiet hscan
  induction entries generalizing groups cover s with
  | nil => exact .refl s
  | cons entry rest ih =>
    obtain ⟨i, id⟩ := entry
    rw [run_scopeEntries_cons] at hn ⊢
    cases hplace : c.place? i id with
    | none => rw [hplace] at hn; exact ih h hgrammar hn
    | some place =>
      obtain ⟨capture, start, stop⟩ := place
      rw [hplace] at hn
      dsimp only at hn ⊢
      cases hpatterns : capture.patterns with
      | none => rw [hpatterns] at hn; exact ih h hgrammar hn
      | some list =>
        rw [hpatterns] at hn
        cases scan with
        | none => exact ih h hgrammar hn
        | some scan =>
          dsimp only at hn ⊢
          have hcapture := place?_capture hplace
          have hscanned := scanCapture_leads (hreturns scan rfl) c hcapture
            ((groups.closeUpTo start cover).1.scopes c.scopes ++ capture.scopes) start stop s
            hgrammar
          have hgrammar' := hscanned.sameGrammars.grammar?_eq c.grammarId ▸ hgrammar
          have hrest := ih (h.after hscanned) hgrammar' hn
          have hnumbered := hn.before (scopeEntries_leads hreturns c rest _ _ _ hgrammar')
          refine .trans ?_ hrest
          have hopened := h.after (.captureFrame engine s c.spans
            ((groups.closeUpTo start cover).1.scopes c.scopes ++ capture.scopes) hgrammar hcapture)
          rw [run_scanCapture] at hnumbered ⊢
          exact (Session.Quiet.resolved s _).trans ((hscan scan rfl).quiet hopened hnumbered)

namespace SessionM

variable (hscan : ∀ scan' ∈ scan, scan'.Quiet engine r) {text : Subject}
include hscan

theorem scopeGroups_quiet {spans : OpenSpans} {scopes : List Scope} {grammarId : GrammarId}
    {table : CaptureTable} {found : Match} {firstLine : Bool} {cover : Cover}
    (h : s.Fits engine r spans)
    (hn : ((scopeGroups scan text spans scopes grammarId table found firstLine cover).run
      s).2.Numbered) :
    s.Quiet
      ((scopeGroups scan text spans scopes grammarId table found firstLine cover).run s).2 := by
  rw [run_scopeGroups] at hn ⊢
  cases hgrammar : s.registry.grammar? grammarId with
  | none => exact .refl s
  | some grammar =>
    rw [hgrammar] at hn
    let c : Captured := { grammarId, grammar, found, text, spans, scopes, firstLine }
    have hc : s.Fits engine r c.spans := h
    exact Captured.scopeEntries_quiet hscan hc hgrammar hn

theorem applyEffect_quiet {m : Match} {line : LineState} {c : Candidate} {e : Effect}
    (h : s.Fits engine r line.spans) (hhas : s.registry.HasEffect line.spans.frames c e)
    (hn : ((applyEffect scan text m line e).run s).2.Numbered) :
    s.Quiet ((applyEffect scan text m line e).run s).2 := by
  have hinside := h.after (Leads.effectSpans hhas s)
  have hscopes : ((scopeMatch scan text m line e).run s).2.Numbered →
      s.Quiet ((scopeMatch scan text m line e).run s).2 :=
    fun hn => scopeGroups_quiet hscan hinside hn
  rw [run_applyEffect] at hn ⊢
  cases e with
  | closing target outer rule span => exact hscopes hn
  | single rule single => exact hscopes hn
  | opening rule grammar span =>
    dsimp only at hn ⊢
    rw [run_openSpan] at hn ⊢
    exact (hscopes hn.of_resolved).trans (.resolved _ _)

/-- Where the open frames fit, every candidate that is found is applied. -/
theorem applyAll_quiet (steps : Nat) {line : LineState} (h : s.Fits engine r line.spans)
    (hn : ((applyAll engine scan text steps line).run s).2.Numbered) :
    s.Quiet ((applyAll engine scan text steps line).run s).2 := by
  have hreturns := Scanner.returns_of_quiet hscan
  induction steps generalizing line s with
  | zero => exact .refl s
  | succ steps ih =>
    have hs := hn.before (applyAll_leads hreturns text (steps + 1) line s)
    have hquiet := Session.Quiet.searchContext engine s (s.tokenizer.contextOf line.spans)
      line.cursor.anchors text line.cursor.pos
    have hsearch := Leads.searchContext engine s line.spans line.cursor.anchors text line.cursor.pos
    have heffect := h.effect?_of_search hs line.cursor.anchors text line.cursor.pos
    rw [run_applyAll_succ] at hn ⊢
    dsimp only at hn ⊢
    generalize (searchContext engine (s.tokenizer.contextOf line.spans) line.cursor.anchors text
      line.cursor.pos).run s = found at hn hquiet hsearch heffect ⊢
    obtain ⟨answer, s₁⟩ := found
    cases answer with
    | none => exact hquiet
    | some winner =>
      obtain ⟨i, m⟩ := winner
      obtain ⟨e, he⟩ := heffect i m rfl
      rw [← hsearch.sameGrammars.effect?_eq] at he
      obtain ⟨c, _, hhas⟩ := Registry.hasEffect_of_effect? he
      have hfits := h.after hsearch
      dsimp only at hn ⊢
      rw [run_applyCandidate, he] at hn ⊢
      dsimp only at hn ⊢
      have happlied := applyEffect_leads hreturns text hhas m
      have hrest := ih (hfits.after happlied) hn
      have hnumbered := hn.before (applyAll_leads hreturns text steps _ _)
      exact hquiet.trans ((applyEffect_quiet hscan hfits hhas hnumbered).trans hrest)

omit hscan in
theorem captureScanner_quiet (engine : Engine P) (r : Registry) (levels : Nat) :
    ∀ scan ∈ captureScanner engine levels, scan.Quiet engine r := by
  induction levels with
  | zero => intro scan h; cases h
  | succ levels ih =>
    intro scan hscan
    refine ⟨captureScanner_returns (levels + 1) scan hscan, ?_⟩
    intro text a start firstLine s h hn
    rw [run_captureScanner engine text levels hscan] at hn ⊢
    have hline : s.Fits engine r (LineState.startingAt a start none firstLine).spans := h
    exact applyAll_quiet ih _ hline hn

theorem heldGroups_quiet {frame : Frame} {outer : List Frame} {rule : RuleRef} {m : Match}
    {line : LineState} (h : s.Fits engine r line.spans)
    (hframes : frame :: outer <:+ line.spans.frames)
    (hn : (heldGroups scan text frame outer rule m line s).2.Numbered) :
    s.Quiet (heldGroups scan text frame outer rule m line s).2 := by
  rw [heldGroups] at hn ⊢
  cases hspan : s.registry.span? rule with
  | none => exact .refl s
  | some span =>
    rw [hspan] at hn
    exact scopeGroups_quiet hscan (h.after (.closeTo engine s hframes)) hn

theorem holdFrames_quiet {inner outer : List Frame} {line : LineState}
    (h : s.Fits engine r line.spans) (hframes : line.spans.frames = inner.reverse ++ outer)
    (hn : ((holdFrames engine scan text inner outer line).run s).2.Numbered) :
    s.Quiet ((holdFrames engine scan text inner outer line).run s).2 := by
  have hreturns := Scanner.returns_of_quiet hscan
  induction inner generalizing outer line s with
  | nil => exact .refl s
  | cons frame inner ih =>
    have hbelow : line.spans.frames = inner.reverse ++ frame :: outer := by simp [hframes]
    rw [run_holdFrames_cons] at hn ⊢
    cases hhold : frame.hold with
    | untilEnd rule source => rw [hhold] at hn; exact ih h hbelow hn
    | capture => rw [hhold] at hn; exact ih h hbelow hn
    | whileMatched rule source =>
      rw [hhold] at hn
      dsimp only at hn ⊢
      have hquiet := Session.Quiet.matchAlone engine s source line.cursor.anchors text
        line.cursor.pos
      have hafter := h.after (.matchAlone engine s line.spans source line.cursor.anchors text
        line.cursor.pos)
      generalize (matchAlone engine source line.cursor.anchors text line.cursor.pos).run s = matched
        at hn hquiet hafter ⊢
      obtain ⟨answer, s₁⟩ := matched
      cases answer with
      | none => exact hquiet
      | some m =>
        have hsuffix : frame :: outer <:+ line.spans.frames := ⟨_, hbelow.symm⟩
        have hheld := heldGroups_leads hreturns text frame outer rule m line s₁ hsuffix
        have hnumbered :=
          hn.before (holdFrames_leads hreturns text inner (frame :: outer) _ _ hbelow)
        have hrest : ∀ cover, _ → Session.Quiet _ _ := fun cover =>
          @ih _ (frame :: outer) { line with cursor := line.cursor.passWhile m.stop, cover }
            (hafter.after hheld) hbelow
        exact hquiet.trans ((heldGroups_quiet hscan hafter hsuffix hnumbered).trans (hrest _ hn))

omit hscan in
theorem tokenizeLine_quiet (line : String) {a : OpenSpans} (h : s.Fits engine r a)
    (hn : ((tokenizeLine engine line a).run s).2.Numbered) :
    s.Quiet ((tokenizeLine engine line a).run s).2 := by
  have hscanner := captureScanner_quiet engine r captureDepth
  rw [run_tokenizeLine] at hn ⊢
  split
  · exact .refl s
  · next hlong =>
    rw [if_neg hlong] at hn
    dsimp only at hn ⊢
    have hstart : s.Fits engine r (startLine a).spans := h
    have hleads : Leads engine s (startLine a).spans _ _ :=
      holdSpans_leads captureDepth (.ofLine line) (startLine a) s
    have hheld := holdFrames_quiet hscanner hstart (by simp) (hn.before (scanLine_leads ..))
    exact hheld.trans (applyAll_quiet hscanner _ (hstart.after hleads) hn)

end SessionM

/-! ## Scans of captures -/

/-- What an end of the stack closes is above all frames of captures. -/
theorem IsOpenEnd.lt_of_capture {inner outer : List Frame} {f : Frame} (hf : f.hold = .capture)
    {distance : Nat} {source : String} (h : IsOpenEnd (inner ++ f :: outer) distance source) :
    distance < inner.length := by
  by_contra hle
  have hmem : f ∈ (inner ++ f :: outer).take (distance + 1) :=
    List.mem_take_iff_getElem.2 ⟨inner.length, by simp; omega, by simp⟩
  exact h.hold_ne_capture f hmem hf

/-- Frames are opened and closed above that of a capture. -/
theorem Applies.above {p q : ScanPoint P} (h : Applies engine p q)
    (hp : p.session.Fits engine r p.line.spans) {f : Frame} {outer : List Frame}
    (hf : f.hold = .capture) (habove : f :: outer <:+ p.line.spans.frames) :
    f :: outer <:+ q.line.spans.frames := by
  obtain ⟨distance, source, hmem, hframes⟩ | hframes | ⟨g, _, hframes⟩ := h.frames_cases
  · have hopen := hp.isOpenEnd_of_closing hmem
    obtain ⟨inner, hinner⟩ := habove
    rw [← hinner] at hopen
    rw [hframes, ← hinner, List.drop_append_of_le_length (hopen.lt_of_capture hf)]
    exact List.suffix_append ..
  · rw [hframes]
    exact habove
  · rw [hframes]
    exact habove.trans (List.suffix_cons ..)

theorem Chain.above {p q : ScanPoint P} {k : Nat} (h : Chain engine p k q)
    (hp : p.session.Fits engine r p.line.spans) {f : Frame} {outer : List Frame}
    (hf : f.hold = .capture) (habove : f :: outer <:+ p.line.spans.frames) :
    f :: outer <:+ q.line.spans.frames := by
  induction h with
  | refl => exact habove
  | step hchain happly ih => exact happly.above (hp.after hchain.leads) hf ih

theorem Begins.frames_of_capture {text : Subject} {line : LineState} {depth : Nat} {p : ScanPoint P}
    (h : Begins engine text line s depth p) (hp : p.capture ≠ none) :
    ∃ height scopes context outer,
      p.line.spans.frames = captureFrame height scopes context :: outer := by
  have hcapture : ∀ levels, p.OfCapture levels → ∃ height scopes context outer,
      p.line.spans.frames = captureFrame height scopes context :: outer := by
    rintro levels ⟨inner, _, c, id, scopes, start, stop, s, rfl⟩
    exact ⟨_, scopes, _, _, rfl⟩
  cases h with
  | held h => exact hcapture _ (heldScans_ofCapture h)
  | line h => exact absurd rfl hp
  | nested _ _ h => exact hcapture _ (ScanPoint.nested_ofCapture h)

/-! ## States of lines -/

namespace World.Own

variable {w : World P} {state : OpenSpans} {t : Tokenizer P}

theorem session_fits (h : w.Own engine state) (hfits : w.registry.Fits state.frames)
    (ht : t ∈ w.tokenizers) : (w.session t).Fits engine w.registry state := by
  refine ⟨Leads.alone (w.session t) state, ⟨h.sound_alone ht, .refl _, fun spans hspans => ?_⟩,
    Leads.alone_at ..⟩
  rw [Leads.alone, List.mem_singleton] at hspans
  exact hspans ▸ hfits

theorem fits (h : w.Own engine state) : w.registry.Fits state.frames := by
  induction h with
  | fresh h => exact .nil _
  | line line hown ht ih =>
    have hafter := (hown.session_fits ih ht).after (SessionM.tokenizeLine_leads line _ _)
    exact hafter.frames.congr hafter.sameGrammars
  | use _ huse ih => exact ih.congr huse.extends.grammars

/-- Tokenizing a further line never finds that its state does not fit. At every point of every scan
each candidate stands for something in the open frames and the grammars, and the search answers the
number of a candidate. In the scan of a capture no candidate closes the frame of the capture or one
below it. -/
theorem consistent (h : w.Own engine state) (ht : t ∈ w.tokenizers) (line : String) :
    let r := (SessionM.tokenizeLine engine line state).run (w.session t)
    (r.2.Numbered → ∀ pos, .inconsistentState pos ∉ r.2.notices) ∧
    ∀ depth p k q,
      Begins engine (.ofLine line) (SessionM.startLine state) (w.session t) depth p →
      Chain engine p k q →
      (∀ c source, (c, source) ∈ q.context.entries →
        ∃ e, q.session.registry.HasEffect q.line.spans.frames c e) ∧
      (q.session.Numbered → ∀ i m, (q.search engine).1 = some (i, m) → i < q.context.length) ∧
      (p.capture ≠ none → ∃ height scopes context outer inner,
        p.line.spans.frames = captureFrame height scopes context :: outer ∧
        q.line.spans.frames = inner ++ captureFrame height scopes context :: outer ∧
        ∀ distance source, (.closing distance, source) ∈ q.context.entries →
          distance < inner.length) := by
  intro r
  have hfits := h.session_fits h.fits ht
  refine ⟨fun hn pos hmem => ?_, fun depth p k q hbegins hchain => ?_⟩
  · have hquiet := SessionM.tokenizeLine_quiet line hfits hn
    exact List.not_mem_nil (hquiet pos hmem)
  · have hp := hfits.after hbegins.leads
    have hq := hp.after hchain.leads
    refine ⟨fun c source hmem => ?_, fun hs => hq.lt_of_search hs _ _ _, fun hcapture => ?_⟩
    · obtain ⟨e, he⟩ := hq.effect? hmem
      obtain ⟨c', hc', hhas⟩ := Registry.hasEffect_of_effect? he
      cases hc'
      exact ⟨e, hhas⟩
    · obtain ⟨height, scopes, context, outer, hframes⟩ := hbegins.frames_of_capture hcapture
      have hsuffix : captureFrame height scopes context :: outer <:+ p.line.spans.frames :=
        hframes ▸ List.suffix_rfl
      -- the frame of the capture stays where it is; all that is opened is above it
      obtain ⟨inner, hinner⟩ := hchain.above hp rfl hsuffix
      refine ⟨height, scopes, context, outer, inner, hframes, hinner.symm, ?_⟩
      intro distance source hmem
      have hopen := hq.isOpenEnd_of_closing hmem
      rw [← hinner] at hopen
      exact hopen.lt_of_capture rfl

end World.Own

/-! ### Tokenizers with different options -/

/-- The end of the innermost span alone is looked for. -/
def innermostOnly : SessionOptions := { closeOuterSpans := false }

def innermostTokenizer : Tokenizer Char :=
  (Tokenizer.start nestedSpansWorld.registry ⟨0⟩ innermostOnly).1.1

/-- A world with a tokenizer for each way of closing spans. -/
def mixedWorld : World Char := nestedSpansWorld.started ⟨0⟩ innermostOnly

/-- A line by the tokenizer that closes all spans. -/
def mixedFirst : TokenizedLine × Session Char :=
  (SessionM.tokenizeLine oneCharacter "ac" .fresh).run (mixedWorld.session nestedSpansTokenizer)

/-- The next line by the one that closes the innermost span alone. -/
def mixedSecond : TokenizedLine × Session Char :=
  (SessionM.tokenizeLine oneCharacter "ca" mixedFirst.1.state).run
    ((mixedWorld.after mixedFirst).session innermostTokenizer)

/-- And the line after that by the first one again. -/
def mixedThird : TokenizedLine × Session Char :=
  (SessionM.tokenizeLine oneCharacter "cdbdbb" mixedSecond.1.state).run
    (((mixedWorld.after mixedFirst).after mixedSecond).session mixedFirst.2.tokenizer)

theorem consistent_mixed : mixedThird.1.state.frames = [] ∧ mixedThird.2.Numbered ∧
    ∀ pos, Notice.inconsistentState pos ∉ mixedThird.2.notices := by
  have hid : nestedSpansWorld.registry.id? "s" = some ⟨0⟩ := by decide +kernel
  have hfresh : mixedWorld.Own oneCharacter .fresh :=
    .fresh (.use nestedSpansWorld_reachable (.start innermostOnly hid))
  have hfirst : (mixedWorld.after mixedFirst).Own oneCharacter mixedFirst.1.state :=
    hfresh.after (.tail _ (.head _)) rfl
  have hinnermost : innermostTokenizer ∈ (mixedWorld.after mixedFirst).tokenizers :=
    .tail _ (World.mem_started ..)
  have hsecond : ((mixedWorld.after mixedFirst).after mixedSecond).Own oneCharacter
      mixedSecond.1.state :=
    hfirst.after hinnermost rfl
  have hmem : mixedFirst.2.tokenizer ∈
      ((mixedWorld.after mixedFirst).after mixedSecond).tokenizers :=
    .tail _ (.head _)
  have hmade : mixedThird.2.registry.contexts.made ≤ 2 ^ 32 := by decide +kernel
  have hconsistent := (hsecond.consistent hmem "cdbdbb").1
  have hthird : (SessionM.tokenizeLine oneCharacter "cdbdbb" mixedSecond.1.state).run
      (((mixedWorld.after mixedFirst).after mixedSecond).session mixedFirst.2.tokenizer) =
      mixedThird := rfl
  rw [hthird] at hconsistent
  have hnil : mixedThird.1.state.frames.length = 0 := by decide +kernel
  exact ⟨List.length_eq_zero_iff.1 hnil, hmade, hconsistent hmade⟩

end ScopeGrammar
