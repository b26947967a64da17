import ScopeGrammar.Proofs.Session.Scan
import ScopeGrammar.Proofs.World.Basic

/-!
# ScopeGrammar.Proofs.World.Walk

Every step of a session is a number of moves of the world.

* `Leads` : in any world that the session is in, some moves lead to one that it is in afterwards.
* `SessionM.tokenizeLine_leads` is this for a line, from the state before it to the state behind it.
* `Visits.leads` is this for every point that a scan comes to.

So what holds of a world and is preserved by every move holds in all these places.
-/

namespace ScopeGrammar

variable {P : Type} {engine : Engine P}

/-- Some moves take a session with some open frames to another one. -/
structure Leads (engine : Engine P) (s : Session P) (a : OpenSpans) (s' : Session P)
    (b : OpenSpans) : Prop where
  moves : ∀ w : World P, w.At s a → ∃ w', World.Moves engine w w' ∧ w'.At s' b

namespace Leads

variable {s s' s'' : Session P} {a b c : OpenSpans}

theorem refl (s : Session P) (a : OpenSpans) : Leads engine s a s a :=
  ⟨fun w hat => ⟨w, .refl, hat⟩⟩

theorem trans (h : Leads engine s a s' b) (h' : Leads engine s' b s'' c) :
    Leads engine s a s'' c := by
  constructor
  intro w hat
  obtain ⟨w', hmoves, hat'⟩ := h.moves w hat
  obtain ⟨w'', hmoves', hat''⟩ := h'.moves w' hat'
  exact ⟨w'', hmoves.trans hmoves', hat''⟩

/-- The frames from before can be gone back to. -/
theorem keep (h : Leads engine s a s' b) : Leads engine s a s' a := by
  constructor
  intro w hat
  obtain ⟨w', hmoves, hat'⟩ := h.moves w hat
  have hspans := (World.Moves.extends hmoves).states hat.spans
  exact ⟨w', hmoves, hat'.registry, hat'.tokenizer, hspans⟩

/-- Notices do not count. -/
theorem of_eq (hregistry : s'.registry = s.registry) (htokenizer : s'.tokenizer = s.tokenizer) :
    Leads engine s a s' a :=
  ⟨fun w hat =>
    ⟨w, .refl, hregistry.trans hat.registry, htokenizer ▸ hat.tokenizer, hat.spans⟩⟩

theorem move {w' : World P → World P} (hmove : ∀ w, w.At s a → World.Move engine w (w' w))
    (hat : ∀ w, w.At s a → (w' w).At s' b) : Leads engine s a s' b :=
  ⟨fun w h => ⟨w' w, .single (hmove w h), hat w h⟩⟩

/-- The least world that a session is in. -/
def alone (s : Session P) (a : OpenSpans) : World P := ⟨s.registry, [s.tokenizer], [a]⟩

theorem alone_at (s : Session P) (a : OpenSpans) : (alone s a).At s a :=
  ⟨rfl, .head _, .head _⟩

theorem sameGrammars (h : Leads engine s a s' b) : s.registry.SameGrammars s'.registry := by
  obtain ⟨w', hmoves, hat⟩ := h.moves _ (alone_at s a)
  rw [hat.registry]
  exact (World.Moves.extends hmoves).grammars

theorem made_le (h : Leads engine s a s' b) :
    s.registry.contexts.made ≤ s'.registry.contexts.made := by
  obtain ⟨w', hmoves, hat⟩ := h.moves _ (alone_at s a)
  rw [hat.registry]
  exact (World.Moves.extends hmoves).made

theorem sameStart (h : Leads engine s a s' b) : s.tokenizer.SameStart s'.tokenizer := by
  obtain ⟨w', hmoves, hat⟩ := h.moves _ (alone_at s a)
  obtain ⟨t, ht, hsame⟩ := World.Moves.sameStart hmoves hat.tokenizer
  rw [alone, List.mem_singleton] at ht
  exact ht ▸ hsame

/-! ### One move -/

theorem close (engine : Engine P) (s : Session P) (a : OpenSpans) (n : Nat) :
    Leads engine s a s (a.withFrames (a.frames.drop n)) :=
  .move (fun _ h => .close n h.spans) fun _ h => ⟨h.registry, h.tokenizer, .head _⟩

theorem closeTo (engine : Engine P) (s : Session P) {a : OpenSpans} {outer : List Frame}
    (h : outer <:+ a.frames) : Leads engine s a s (a.withFrames outer) := by
  have hclose := Leads.close engine s a (a.frames.length - outer.length)
  rwa [← List.suffix_iff_eq_drop.1 h] at hclose

theorem start (s : Session P) (a : OpenSpans) : Leads engine s a s a.start :=
  .move (fun _ h => .start h.spans) fun _ h => ⟨h.registry, h.tokenizer, .head _⟩

theorem groupOf (engine : Engine P) (s : Session P) (a : OpenSpans) (anchors : Anchoring) :
    Leads engine s a
      ((SessionM.groupOf engine (s.tokenizer.contextOf a) anchors).run s).2 a := by
  rw [SessionM.run_groupOf]
  split
  · exact .refl s a
  · exact .move (fun _ h => .group anchors h.tokenizer h.spans)
      fun _ h => ⟨h.registry, .head _, h.spans⟩

theorem singleOf (engine : Engine P) (s : Session P) (a : OpenSpans) (source : String) :
    Leads engine s a ((SessionM.singleOf engine source).run s).2 a := by
  rw [SessionM.run_singleOf]
  split
  · exact .refl s a
  · exact .move (fun _ h => .single source h.tokenizer) fun _ h => ⟨h.registry, .head _, h.spans⟩

theorem searchContext (engine : Engine P) (s : Session P) (a : OpenSpans) (anchors : Anchoring)
    (text : Subject) (pos : Nat) :
    Leads engine s a
      ((SessionM.searchContext engine (s.tokenizer.contextOf a) anchors text pos).run s).2 a :=
  .groupOf engine s a _

theorem matchAlone (engine : Engine P) (s : Session P) (a : OpenSpans) (source : String)
    (anchors : Anchoring) (text : Subject) (pos : Nat) :
    Leads engine s a ((SessionM.matchAlone engine source anchors text pos).run s).2 a :=
  .singleOf engine s a _

theorem captureFrame (engine : Engine P) (s : Session P) (a : OpenSpans)
    {grammarId : GrammarId} {grammar : Grammar} {id : CaptureId} {capture : Capture}
    (scopes : List Scope) (hgrammar : s.registry.grammar? grammarId = some grammar)
    (hcapture : grammar.capture? id = some capture) :
    Leads engine s a (s.resolved (.capture s.tokenizer.base grammarId id))
      (a.push (captureFrame (a.depth + 1) scopes
        (s.contextFor (.capture s.tokenizer.base grammarId id)))) := by
  constructor
  intro w h
  refine ⟨_, .single (.capture scopes h.tokenizer h.spans (h.registry ▸ hgrammar) hcapture),
    ?_, h.tokenizer, ?_⟩
  · rw [Session.resolved_registry, h.registry]; rfl
  · rw [Session.contextFor, h.registry]; exact .head _

theorem openSpan (text : Subject) {rule : RuleRef} {grammar : Grammar} {span : SpanRule}
    (m : Match) (line : LineState) (s : Session P)
    (hgrammar : s.registry.grammar? rule.grammar = some grammar)
    (hspan : s.registry.span? rule = some span) :
    Leads engine s line.spans ((SessionM.openSpan text rule grammar span m line).run s).2
      ((SessionM.openSpan text rule grammar span m line).run s).1.spans := by
  rw [SessionM.run_openSpan]
  constructor
  intro w h
  have hopens : World.Opens w.registry rule span (closingSource grammar span text m) :=
    ⟨h.registry ▸ hspan, grammar, text, m, h.registry ▸ hgrammar, rfl⟩
  refine ⟨_, .single (.span (m.stop == text.length) h.tokenizer h.spans hopens), ?_,
    h.tokenizer, ?_⟩
  · rw [Session.resolved_registry, h.registry]; rfl
  · dsimp only [Session.contextFor]; rw [h.registry]; exact .head _

end Leads

/-! ## Effects -/

namespace Registry

/-- What a candidate stands for. -/
inductive HasEffect (r : Registry) (frames : List Frame) : Candidate → Effect → Prop
  | closing {distance : Nat} {target : Frame} {outer : List Frame} {rule : RuleRef}
      {source : String} {span : SpanRule} : frames.drop distance = target :: outer →
      target.hold = .untilEnd rule source → r.span? rule = some span →
      HasEffect r frames (.closing distance) (.closing target outer rule span)
  | single {rule : RuleRef} {grammar : Grammar} {single : MatchRule} :
      r.grammar? rule.grammar = some grammar → grammar.rule? rule.rule = some (.single single) →
      HasEffect r frames (.rule rule) (.single rule single)
  | opening {rule : RuleRef} {grammar : Grammar} {span : SpanRule} :
      r.grammar? rule.grammar = some grammar → r.span? rule = some span →
      HasEffect r frames (.rule rule) (.opening rule grammar span)

theorem hasEffect_of_effect? {r : Registry} {frames : List Frame} {candidate : Option Candidate}
    {e : Effect} (h : r.effect? frames candidate = some e) :
    ∃ c, candidate = some c ∧ r.HasEffect frames c e := by
  unfold effect? at h
  split at h
  · cases h
  · next distance =>
    split at h
    · cases h
    · next target outer hdrop =>
      split at h
      · next rule source hhold =>
        obtain ⟨span, hspan, rfl⟩ := Option.map_eq_some_iff.1 h
        exact ⟨_, rfl, .closing hdrop hhold hspan⟩
      · cases h
  · next rule =>
    split at h
    · cases h
    · next grammar hgrammar =>
      split at h
      · cases h
      · next single hrule => cases h; exact ⟨_, rfl, .single hgrammar hrule⟩
      · next span hrule =>
        cases h
        have hspan : r.span? rule = some span := by
          simp [span?, hgrammar, Grammar.span?, hrule]
        exact ⟨_, rfl, .opening hgrammar hspan⟩

theorem SameGrammars.effect?_eq {r r' : Registry} (h : r.SameGrammars r') (frames : List Frame)
    (candidate : Option Candidate) : r'.effect? frames candidate = r.effect? frames candidate := by
  rw [h.eq_withContexts]
  rfl

end Registry

/-- An effect is inside some of the open frames. -/
theorem Leads.effectSpans {r : Registry} {spans : OpenSpans} {c : Candidate} {e : Effect}
    (h : r.HasEffect spans.frames c e) (s : Session P) :
    Leads engine s spans s (e.spans spans) := by
  cases h with
  | closing hdrop hhold hspan => exact .closeTo engine s (hdrop ▸ List.drop_suffix ..)
  | single hgrammar hrule => exact .refl s spans
  | opening hgrammar hspan => exact .refl s spans

/-! ## Captures -/

/-- The scanner goes back to the frames it was given. -/
def Scanner.Returns (engine : Engine P) (scan : Scanner P) : Prop :=
  ∀ (text : Subject) (spans : OpenSpans) (start : Nat) (firstLine : Bool) (s : Session P),
    Leads engine s spans ((scan text spans start firstLine).run s).2 spans

theorem Captured.place?_capture {c : Captured} {i : Nat} {id : CaptureId}
    {place : Capture × Nat × Nat} (h : c.place? i id = some place) :
    c.grammar.capture? id = some place.1 := by
  unfold place? at h
  split at h
  · next start stop capture _ hcapture =>
    split at h
    · cases h
    · cases h; exact hcapture
  · cases h

theorem Captured.scanCapture_leads {scan : Scanner P} (hscan : scan.Returns engine) (c : Captured)
    {id : CaptureId} {capture : Capture} (hcapture : c.grammar.capture? id = some capture)
    (scopes : List Scope) (start stop : Nat) (s : Session P)
    (hgrammar : s.registry.grammar? c.grammarId = some c.grammar) :
    Leads engine s c.spans ((c.scanCapture scan id scopes start stop).run s).2 c.spans := by
  rw [run_scanCapture]
  exact ((Leads.captureFrame engine s c.spans scopes hgrammar hcapture).trans (hscan ..)).keep

theorem Captured.scopeEntries_leads {scan : Option (Scanner P)}
    (hscan : ∀ scan' ∈ scan, scan'.Returns engine) (c : Captured)
    (entries : List (Nat × CaptureId)) (groups : OpenGroups) (cover : Cover) (s : Session P)
    (hgrammar : s.registry.grammar? c.grammarId = some c.grammar) :
    Leads engine s c.spans ((c.scopeEntries scan entries groups cover).run s).2 c.spans := by
  induction entries generalizing groups cover s with
  | nil => exact .refl s c.spans
  | cons entry rest ih =>
    obtain ⟨i, id⟩ := entry
    rw [run_scopeEntries_cons]
    cases hplace : c.place? i id with
    | none => exact ih _ _ s hgrammar
    | some place =>
      obtain ⟨capture, start, stop⟩ := place
      dsimp only
      split
      · next scan' hpatterns =>
        have hcapture := c.scanCapture_leads (hscan _ rfl) (place?_capture hplace)
          ((groups.closeUpTo start cover).1.scopes c.scopes ++ capture.scopes) start stop s hgrammar
        refine hcapture.trans (ih _ _ _ ?_)
        rw [hcapture.sameGrammars.grammar?_eq, hgrammar]
      · exact ih _ _ s hgrammar

namespace SessionM

variable {scan : Option (Scanner P)} (hscan : ∀ scan' ∈ scan, scan'.Returns engine) (text : Subject)
include hscan

theorem scopeGroups_leads (spans : OpenSpans) (scopes : List Scope) (grammarId : GrammarId)
    (table : CaptureTable) (found : Match) (firstLine : Bool) (cover : Cover) (s : Session P) :
    Leads engine s spans
      ((scopeGroups scan text spans scopes grammarId table found firstLine cover).run s).2
      spans := by
  rw [run_scopeGroups]
  split
  · exact .refl s spans
  · next grammar hgrammar =>
    exact Captured.scopeEntries_leads hscan
      { grammarId, grammar, found, text, spans, scopes, firstLine } _ _ _ _ hgrammar

theorem scopeMatch_leads {r : Registry} {c : Candidate} {e : Effect} {line : LineState}
    (h : r.HasEffect line.spans.frames c e) (m : Match) (s : Session P) :
    Leads engine s line.spans ((scopeMatch scan text m line e).run s).2 line.spans := by
  rw [run_scopeMatch]
  exact ((Leads.effectSpans h s).trans (scopeGroups_leads hscan ..)).keep

theorem applyEffect_leads {c : Candidate} {e : Effect} {line : LineState} {s : Session P}
    (h : s.registry.HasEffect line.spans.frames c e) (m : Match) :
    Leads engine s line.spans ((applyEffect scan text m line e).run s).2
      ((applyEffect scan text m line e).run s).1.spans := by
  have hscopes := scopeMatch_leads hscan text h m s
  rw [run_applyEffect]
  cases h with
  | @closing distance target outer rule source span hdrop hhold hspan =>
    have htarget : target :: outer <:+ line.spans.frames := hdrop ▸ List.drop_suffix ..
    exact hscopes.trans (.closeTo engine _ ((List.suffix_cons ..).trans htarget))
  | single hgrammar hrule => exact hscopes
  | opening hgrammar hspan =>
    refine hscopes.trans (.openSpan text m _ _ ?_ ?_)
    · rw [hscopes.sameGrammars.grammar?_eq, hgrammar]
    · rw [hscopes.sameGrammars.span?_eq, hspan]

theorem applyCandidate_leads {m : Match} {line line' : LineState} {candidate : Option Candidate}
    {s s' : Session P} (h : (applyCandidate scan text m line candidate).run s = (some line', s')) :
    Leads engine s line.spans s' line'.spans := by
  rw [run_applyCandidate] at h
  cases heffect : s.registry.effect? line.spans.frames candidate with
  | none => rw [heffect] at h; cases h
  | some e =>
    rw [heffect] at h
    obtain ⟨c, _, hhas⟩ := Registry.hasEffect_of_effect? heffect
    cases h
    exact applyEffect_leads hscan text hhas m

omit hscan in
theorem session_of_applyCandidate_none {m : Match} {line : LineState} {candidate : Option Candidate}
    {s s' : Session P} (h : (applyCandidate scan text m line candidate).run s = (none, s')) :
    s' = s := by
  rw [run_applyCandidate] at h
  cases heffect : s.registry.effect? line.spans.frames candidate with
  | none => rw [heffect] at h; cases h; rfl
  | some e => rw [heffect] at h; cases h

theorem applyAll_leads (steps : Nat) (line : LineState) (s : Session P) :
    Leads engine s line.spans ((applyAll engine scan text steps line).run s).2
      ((applyAll engine scan text steps line).run s).1.spans := by
  induction steps generalizing line s with
  | zero => exact .refl s line.spans
  | succ steps ih =>
    rw [run_applyAll_succ]
    have hsearch := Leads.searchContext engine s line.spans line.cursor.anchors text
      line.cursor.pos
    dsimp only
    cases hfound : (searchContext engine (s.tokenizer.contextOf line.spans) line.cursor.anchors text
      line.cursor.pos).run s with
    | mk found s₁ =>
      rw [hfound] at hsearch
      cases found with
      | none => exact hsearch
      | some winner =>
        obtain ⟨i, m⟩ := winner
        dsimp only
        cases happlied : (applyCandidate scan text m line
          ((s.tokenizer.contextOf line.spans).candidate? i)).run s₁ with
        | mk line' s₂ =>
          cases line' with
          | some line' =>
            exact hsearch.trans ((applyCandidate_leads hscan text happlied).trans (ih ..))
          | none =>
            cases session_of_applyCandidate_none text happlied
            exact hsearch.trans (.of_eq rfl rfl)

theorem heldGroups_leads (frame : Frame) (outer : List Frame) (rule : RuleRef) (m : Match)
    (line : LineState) (s : Session P) (hframes : frame :: outer <:+ line.spans.frames) :
    Leads engine s line.spans (heldGroups scan text frame outer rule m line s).2 line.spans := by
  rw [heldGroups]
  split
  · exact .refl s line.spans
  · exact ((Leads.closeTo engine s hframes).trans (scopeGroups_leads hscan ..)).keep

theorem holdFrames_leads (inner outer : List Frame) (line : LineState) (s : Session P)
    (hframes : line.spans.frames = inner.reverse ++ outer) :
    Leads engine s line.spans ((holdFrames engine scan text inner outer line).run s).2
      ((holdFrames engine scan text inner outer line).run s).1.spans := by
  induction inner generalizing outer line s with
  | nil => exact .refl s line.spans
  | cons frame inner ih =>
    have hframes' : line.spans.frames = inner.reverse ++ frame :: outer := by simp [hframes]
    rw [run_holdFrames_cons]
    split
    · next rule source hhold =>
      have hmatch := Leads.matchAlone engine s line.spans source line.cursor.anchors
        text line.cursor.pos
      dsimp only
      split
      · exact hmatch.trans (.closeTo engine _ ⟨_, hframes.symm⟩)
      · next m hm =>
        have hheld := heldGroups_leads hscan text frame outer rule m line
          ((matchAlone engine source line.cursor.anchors text line.cursor.pos).run s).2
          ⟨_, hframes'.symm⟩
        have hrest : ∀ cover s', Leads engine s' line.spans _ _ := fun cover s' =>
          ih (frame :: outer) { line with cursor := line.cursor.passWhile m.stop, cover } s'
            hframes'
        exact (hmatch.trans hheld).trans (hrest ..)
    · exact ih _ _ _ hframes'

omit hscan in
/-- What `while` patterns leave open are the outermost of the frames. -/
theorem holdFrames_suffix (inner outer : List Frame) (line : LineState) (s : Session P)
    (hframes : line.spans.frames = inner.reverse ++ outer) :
    ((holdFrames engine scan text inner outer line).run s).1.spans.frames <:+
      line.spans.frames := by
  induction inner generalizing outer line s with
  | nil => exact List.suffix_rfl
  | cons frame inner ih =>
    have hframes' : line.spans.frames = inner.reverse ++ frame :: outer := by simp [hframes]
    rw [run_holdFrames_cons]
    split
    · dsimp only
      split
      · exact ⟨_, hframes.symm⟩
      · next m _ =>
        have hrest : ∀ cover s', _ <:+ line.spans.frames := fun cover s' =>
          ih (frame :: outer) { line with cursor := line.cursor.passWhile m.stop, cover } s'
            hframes'
        exact hrest ..
    · exact ih _ _ _ hframes'

end SessionM

theorem SessionM.captureScanner_returns (levels : Nat) :
    ∀ scan ∈ captureScanner engine levels, scan.Returns engine := by
  induction levels with
  | zero => intro scan h; cases h
  | succ levels ih =>
    intro scan h text spans start firstLine s
    rw [run_captureScanner engine text levels h]
    exact (applyAll_leads ih text _ (.startingAt spans start none firstLine) s).keep

namespace SessionM

theorem scanLine_leads (levels : Nat) (text : Subject) (line : LineState) (s : Session P) :
    Leads engine s line.spans
      ((scanLine engine (captureScanner engine levels) text line).run s).2
      ((scanLine engine (captureScanner engine levels) text line).run s).1.spans :=
  applyAll_leads (captureScanner_returns levels) text _ line s

theorem holdSpans_leads (levels : Nat) (text : Subject) (line : LineState) (s : Session P) :
    Leads engine s line.spans
      ((holdSpans engine (captureScanner engine levels) text line).run s).2
      ((holdSpans engine (captureScanner engine levels) text line).run s).1.spans :=
  holdFrames_leads (captureScanner_returns levels) text _ _ line s (by simp)

theorem tokenizeLine_leads (line : String) (state : OpenSpans) (s : Session P) :
    Leads engine s state ((tokenizeLine engine line state).run s).2
      ((tokenizeLine engine line state).run s).1.state := by
  rw [run_tokenizeLine]
  split
  · exact .start s state
  · have hheld : Leads engine s (startLine state).spans _ _ :=
      holdSpans_leads captureDepth (.ofLine line) (startLine state) s
    exact (hheld.trans (scanLine_leads ..)).trans (.start ..)

end SessionM

/-! ## The points of a scan -/

theorem ScanPoint.search_leads (engine : Engine P) (p : ScanPoint P) :
    Leads engine p.session p.line.spans (p.search engine).2 p.line.spans :=
  .searchContext ..

theorem Applies.leads {p q : ScanPoint P} (h : Applies engine p q) :
    Leads engine p.session p.line.spans q.session q.line.spans := by
  cases h with
  | mk hsearch happlied =>
    have hfound := p.search_leads engine
    rw [hsearch] at hfound
    exact hfound.trans (SessionM.applyCandidate_leads (SessionM.captureScanner_returns _) p.text
      happlied)

theorem Chain.leads {p q : ScanPoint P} {k : Nat} (h : Chain engine p k q) :
    Leads engine p.session p.line.spans q.session q.line.spans := by
  induction h with
  | refl => exact .refl ..
  | step _ happly ih => exact ih.trans happly.leads

theorem ScanPoint.result_leads (p : ScanPoint P) :
    Leads engine p.session p.line.spans (p.result engine).2 p.line.spans :=
  (SessionM.scanLine_leads ..).keep

/-- The point is the first one of the scan of a capture, begun after some moves. -/
inductive ScanPoint.BegunFrom (engine : Engine P) (s : Session P) (a : OpenSpans) :
    ScanPoint P → Prop
  | mk {c : Captured} {inner : Nat} {id : CaptureId} {capture : Capture} {scopes : List Scope}
      {start stop : Nat} {s' : Session P} : Leads engine s a s' c.spans →
      s'.registry.grammar? c.grammarId = some c.grammar → c.grammar.capture? id = some capture →
      BegunFrom engine s a (c.scanPoint inner id scopes start stop s')

namespace ScanPoint.BegunFrom

variable {s s' : Session P} {a b : OpenSpans} {q : ScanPoint P}

theorem leads (h : q.BegunFrom engine s a) : Leads engine s a q.session q.line.spans := by
  cases h with
  | mk hleads hgrammar hcapture => exact hleads.trans (.captureFrame _ _ _ _ hgrammar hcapture)

theorem after (h : q.BegunFrom engine s' b) (hleads : Leads engine s a s' b) :
    q.BegunFrom engine s a := by
  cases h with
  | mk hleads' hgrammar hcapture => exact .mk (hleads.trans hleads') hgrammar hcapture

end ScanPoint.BegunFrom

theorem Captured.nested_begun {c : Captured} {levels : Nat} {entries : List (Nat × CaptureId)}
    {groups : OpenGroups} {cover : Cover} {s : Session P} {q : ScanPoint P}
    (hgrammar : s.registry.grammar? c.grammarId = some c.grammar)
    (h : q ∈ c.nested engine levels entries groups cover s) : q.BegunFrom engine s c.spans := by
  induction entries generalizing groups cover s with
  | nil => cases h
  | cons entry rest ih =>
    obtain ⟨i, id⟩ := entry
    rw [nested] at h
    cases hplace : c.place? i id with
    | none => rw [hplace] at h; exact ih hgrammar h
    | some place =>
      obtain ⟨capture, start, stop⟩ := place
      rw [hplace] at h
      dsimp only at h
      split at h
      · next inner _ =>
        generalize hscopes : (groups.closeUpTo start cover).1.scopes c.scopes ++ capture.scopes =
          scopes at h
        have hbegun : (c.scanPoint inner id scopes start stop s).BegunFrom engine s c.spans :=
          .mk (.refl ..) hgrammar (place?_capture hplace)
        cases h with
        | head => exact hbegun
        | tail _ h =>
          have hscanned := (hbegun.leads.trans (ScanPoint.result_leads _)).keep
          refine (ih ?_ h).after hscanned
          rw [hscanned.sameGrammars.grammar?_eq, hgrammar]
      · exact ih hgrammar h

theorem groupScans_begun {levels : Nat} {text : Subject} {spans : OpenSpans}
    {scopes : List Scope} {grammarId : GrammarId} {table : CaptureTable} {found : Match}
    {firstLine : Bool} {cover : Cover} {s : Session P} {q : ScanPoint P}
    (h : q ∈ groupScans engine levels text spans scopes grammarId table found firstLine cover s) :
    q.BegunFrom engine s spans := by
  unfold groupScans at h
  split at h
  · cases h
  · next grammar hgrammar => exact Captured.nested_begun hgrammar h

theorem ScanPoint.nested_begun {p q : ScanPoint P} (h : q ∈ p.nested engine) :
    q.BegunFrom engine p.session p.line.spans := by
  unfold nested at h
  split at h
  · cases h
  · next i m s hsearch =>
    split at h
    · cases h
    · next e heffect =>
      have hfound := p.search_leads engine
      rw [hsearch] at hfound
      obtain ⟨c, _, hhas⟩ := Registry.hasEffect_of_effect? heffect
      exact (groupScans_begun h).after (hfound.trans (Leads.effectSpans hhas s))

theorem heldScans_begun {levels : Nat} {text : Subject} {inner outer : List Frame}
    {line : LineState} {s : Session P} {q : ScanPoint P}
    (hframes : line.spans.frames = inner.reverse ++ outer)
    (h : q ∈ heldScans engine levels text inner outer line s) :
    q.BegunFrom engine s line.spans := by
  induction inner generalizing outer line s with
  | nil => cases h
  | cons frame inner ih =>
    have hframes' : line.spans.frames = inner.reverse ++ frame :: outer := by simp [hframes]
    rw [heldScans] at h
    split at h
    · next rule source hhold =>
      have hmatch := Leads.matchAlone engine s line.spans source line.cursor.anchors
        text line.cursor.pos
      dsimp only at h
      split at h
      · cases h
      · next m hm =>
        have hrest : ∀ cover s', q ∈ heldScans engine levels text inner (frame :: outer)
            { line with cursor := line.cursor.passWhile m.stop, cover } s' →
            q.BegunFrom engine s' line.spans := fun cover s' =>
          @ih (frame :: outer) { line with cursor := line.cursor.passWhile m.stop, cover } s'
            hframes'
        split at h
        · exact (hrest _ _ h).after hmatch
        · next span hspan =>
          have hinside := Leads.closeTo engine
            ((SessionM.matchAlone engine source line.cursor.anchors text line.cursor.pos).run s).2
            ⟨_, hframes'.symm⟩
          rw [List.mem_append] at h
          obtain h | h := h
          · exact (groupScans_begun h).after (hmatch.trans hinside)
          · have hreturns : ∀ scan ∈ SessionM.captureScanner engine levels, scan.Returns engine :=
              SessionM.captureScanner_returns levels
            refine (hrest _ _ h).after (hmatch.trans ?_)
            exact (hinside.trans (SessionM.scopeGroups_leads hreturns ..)).keep
    · exact ih hframes' h

theorem Begins.leads {text : Subject} {line : LineState} {s : Session P} {depth : Nat}
    {p : ScanPoint P} (h : Begins engine text line s depth p) :
    Leads engine s line.spans p.session p.line.spans := by
  induction h with
  | held h => exact (heldScans_begun (by simp) h).leads
  | line h => subst h; exact SessionM.holdSpans_leads ..
  | nested _ hchain h ih => exact (ih.trans hchain.leads).trans (ScanPoint.nested_begun h).leads

/-- From the start of a line moves lead to every point that its scans come to. -/
theorem Visits.leads {text : Subject} {line : LineState} {s : Session P} {q : ScanPoint P}
    (h : Visits engine text line s q) : Leads engine s line.spans q.session q.line.spans := by
  obtain ⟨depth, p, k, hbegins, hchain⟩ := h
  exact hbegins.leads.trans hchain.leads

end ScopeGrammar
