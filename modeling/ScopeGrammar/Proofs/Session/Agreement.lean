import Mathlib.Data.List.Forall2
import ScopeGrammar.Proofs.World.Catalog

/-!
# ScopeGrammar.Proofs.Session.Agreement

Two sessions that differ in what they keep.

* `OpenSpans.Alike` states differ at most in the numbers of contexts.
* `Session.Agree` : the grammars, the start of the tokenizers and the open frames are alike, and
  both sessions are in sound worlds. Nothing is said of what is kept.
* `SessionM.tokenizeLine_agree` : such sessions give the same tokens for a line, and alike states.

All of this is as long as the numbers of contexts have not come round (`Session.Numbered`).
-/

namespace ScopeGrammar

variable {P : Type} {engine : Engine P}

/-! ## States that differ in the numbers of contexts -/

structure Frame.Alike (f g : Frame) : Prop where
  depth : f.depth = g.depth
  hold : f.hold = g.hold
  nameScopes : f.nameScopes = g.nameScopes
  contentScopes : f.contentScopes = g.contentScopes
  capturedLineEnd : f.capturedLineEnd = g.capturedLineEnd
  entries : f.context.entries = g.context.entries
  ends : f.ends = g.ends

structure OpenSpans.Alike (a b : OpenSpans) : Prop where
  frames : List.Forall₂ Frame.Alike a.frames b.frames
  started : a.started = b.started

structure LineState.Alike (l l' : LineState) : Prop where
  spans : l.spans.Alike l'.spans
  cursor : l.cursor = l'.cursor
  cover : l.cover = l'.cover

structure TokenizedLine.Alike (l l' : TokenizedLine) : Prop where
  tokens : l.tokens = l'.tokens
  state : l.state.Alike l'.state

theorem Frame.Alike.refl (f : Frame) : f.Alike f := ⟨rfl, rfl, rfl, rfl, rfl, rfl, rfl⟩

namespace OpenSpans.Alike

variable {a b : OpenSpans}

theorem refl (a : OpenSpans) : a.Alike a := by
  refine ⟨?_, rfl⟩
  induction a.frames with
  | nil => exact .nil
  | cons f outer ih => exact .cons (.refl f) ih

theorem withFrames (h : a.Alike b) {l l' : List Frame} (hframes : List.Forall₂ Frame.Alike l l') :
    (a.withFrames l).Alike (b.withFrames l') := ⟨hframes, h.started⟩

theorem push (h : a.Alike b) {f g : Frame} (hf : f.Alike g) : (a.push f).Alike (b.push g) :=
  ⟨.cons hf h.frames, h.started⟩

theorem start (h : a.Alike b) : a.start.Alike b.start := ⟨h.frames, rfl⟩

/-- What is read off the innermost frame is the same. -/
theorem top?_map {α : Type} (h : a.Alike b) {f : Frame → α} (hf : ∀ x y, x.Alike y → f x = f y) :
    a.top?.map f = b.top?.map f := by
  have hframes := h.frames
  rw [top?, top?]
  generalize a.frames = l at hframes
  generalize b.frames = l' at hframes
  cases hframes with
  | nil => rfl
  | cons hhead _ => exact congrArg some (hf _ _ hhead)

theorem depth (h : a.Alike b) : a.depth = b.depth := by
  rw [OpenSpans.depth, OpenSpans.depth, h.top?_map fun _ _ hf => hf.depth]

theorem scopesOver (h : a.Alike b) (root : List Scope) : a.scopesOver root = b.scopesOver root := by
  rw [OpenSpans.scopesOver, OpenSpans.scopesOver, h.top?_map fun _ _ hf => hf.contentScopes]

end OpenSpans.Alike

/-! ### Effects -/

inductive Effect.Alike : Effect → Effect → Prop
  | closing {target target' : Frame} {outer outer' : List Frame} {rule : RuleRef}
      {span : SpanRule} :
      target.Alike target' → List.Forall₂ Frame.Alike outer outer' →
      Alike (.closing target outer rule span) (.closing target' outer' rule span)
  | single {rule : RuleRef} {single : MatchRule} : Alike (.single rule single) (.single rule single)
  | opening {rule : RuleRef} {grammar : Grammar} {span : SpanRule} :
      Alike (.opening rule grammar span) (.opening rule grammar span)

namespace Effect.Alike

variable {e e' : Effect}

theorem grammarId (h : e.Alike e') : e.grammarId = e'.grammarId := by cases h <;> rfl

theorem captures (h : e.Alike e') : e.captures = e'.captures := by cases h <;> rfl

theorem scopes (h : e.Alike e') (plain : List Scope) : e.scopes plain = e'.scopes plain := by
  cases h with
  | closing htarget _ => exact htarget.nameScopes
  | single => rfl
  | opening => rfl

theorem spans (h : e.Alike e') {a b : OpenSpans} (hab : a.Alike b) :
    (e.spans a).Alike (e'.spans b) := by
  cases h with
  | closing htarget houter => exact hab.withFrames (.cons htarget houter)
  | single => exact hab
  | opening => exact hab

end Effect.Alike

/-- A candidate has alike effects on alike stacks, or none on both. -/
theorem Registry.effect?_alike (r : Registry) {l l' : List Frame}
    (h : List.Forall₂ Frame.Alike l l') (candidate : Option Candidate) :
    (r.effect? l candidate = none ∧ r.effect? l' candidate = none) ∨
      ∃ e e', r.effect? l candidate = some e ∧ r.effect? l' candidate = some e' ∧ e.Alike e' := by
  cases candidate with
  | none => exact .inl ⟨rfl, rfl⟩
  | some c =>
    cases c with
    | closing distance =>
      have hdrop := List.forall₂_drop distance h
      simp only [effect?]
      generalize l.drop distance = dropped at hdrop
      generalize l'.drop distance = dropped' at hdrop
      cases hdrop with
      | nil => exact .inl ⟨rfl, rfl⟩
      | @cons target target' outer outer' htarget houter =>
        dsimp only
        rw [← htarget.hold]
        cases target.hold with
        | untilEnd rule source =>
          dsimp only
          cases r.span? rule with
          | none => exact .inl ⟨rfl, rfl⟩
          | some span => exact .inr ⟨_, _, rfl, rfl, .closing htarget houter⟩
        | whileMatched rule source => exact .inl ⟨rfl, rfl⟩
        | capture => exact .inl ⟨rfl, rfl⟩
    | rule rule =>
      -- rules do not look at the frames
      have hsame : r.effect? l (some (.rule rule)) = r.effect? l' (some (.rule rule)) := rfl
      rw [hsame]
      cases heffect : r.effect? l' (some (.rule rule)) with
      | none => exact .inl ⟨rfl, rfl⟩
      | some e =>
        refine .inr ⟨e, e, rfl, rfl, ?_⟩
        obtain ⟨c, hc, hhas⟩ := hasEffect_of_effect? heffect
        cases hc
        cases hhas with
        | single hgrammar hrule => exact .single
        | opening hgrammar hspan => exact .opening

/-! ## Sessions that differ in what they keep -/

def Session.Sound (engine : Engine P) (s : Session P) (a : OpenSpans) : Prop :=
  ∃ (w : World P) (K : Catalog), w.Sound engine K ∧ w.At s a

namespace Session.Sound

variable {s s' : Session P} {a b : OpenSpans}

theorem after (h : s.Sound engine a) (hleads : Leads engine s a s' b) : s'.Sound engine b := by
  obtain ⟨w, K, hsound, hat⟩ := h
  obtain ⟨w', hmoves, hat'⟩ := hleads.moves w hat
  obtain ⟨K', _, hsound'⟩ := hsound.moves hmoves
  exact ⟨w', K', hsound', hat'⟩

theorem rootScopes (h : s.Sound engine a) : s.tokenizer.rootScopes =
    ((s.registry.grammar? s.tokenizer.base).map (·.scope)).toList := by
  obtain ⟨w, K, hsound, hat⟩ := h
  rw [(hsound.tokenizers _ hat.tokenizer).rootScopes, hat.registry]

theorem rootContext (h : s.Sound engine a) :
    s.tokenizer.rootContext.entries = s.registry.entriesFor (.root s.tokenizer.base) := by
  obtain ⟨w, K, hsound, hat⟩ := h
  rw [(hsound.tokenizers _ hat.tokenizer).rootCurrent, hat.registry]

theorem contextFor (h : s.Sound engine a) (situation : Situation) :
    (s.contextFor situation).entries = s.registry.entriesFor situation := by
  obtain ⟨w, K, hsound, hat⟩ := h
  rw [Session.contextFor, hat.registry, hsound.resolve_entries]

theorem searchContext (h : s.Sound engine a) (hs : s.Numbered) (anchors : Anchoring) (t : Subject)
    (pos : Nat) :
    ((SessionM.searchContext engine (s.tokenizer.contextOf a) anchors t pos).run s).1 =
      (ContextGroup.build engine (s.tokenizer.contextOf a) anchors).1.search engine t pos := by
  obtain ⟨w, K, hsound, hat⟩ := h
  exact hsound.searchContext hat hs anchors t pos

theorem matchAlone (h : s.Sound engine a) (source : String) (anchors : Anchoring) (t : Subject)
    (pos : Nat) :
    ((SessionM.matchAlone engine source anchors t pos).run s).1 =
      (engine.compile {} (anchors.rewrite source)).toOption.bind
        fun p => engine.matchAt p t pos := by
  obtain ⟨w, K, hsound, hat⟩ := h
  exact hsound.matchAlone hat source anchors t pos

end Session.Sound

theorem Session.Numbered.before {s s' : Session P} {a b : OpenSpans} (hs : s'.Numbered)
    (hleads : Leads engine s a s' b) : s.Numbered :=
  Nat.le_trans hleads.made_le hs

/-- Two sessions with open frames that differ at most in what is kept and in numbers of contexts. -/
structure Session.Agree (engine : Engine P) (s : Session P) (a : OpenSpans) (s' : Session P)
    (b : OpenSpans) : Prop where
  left : s.Sound engine a
  right : s'.Sound engine b
  grammars : s.registry.SameGrammars s'.registry
  base : s.tokenizer.base = s'.tokenizer.base
  options : s.tokenizer.options = s'.tokenizer.options
  spans : a.Alike b

namespace Session.Agree

variable {s s' u u' : Session P} {a b c d : OpenSpans}

theorem after (h : s.Agree engine a s' b) (hleft : Leads engine s a u c)
    (hright : Leads engine s' b u' d) (hspans : c.Alike d) : u.Agree engine c u' d :=
  { left := h.left.after hleft
    right := h.right.after hright
    grammars := (hleft.sameGrammars.symm.trans h.grammars).trans hright.sameGrammars
    base := by rw [hleft.sameStart.base, hright.sameStart.base, h.base]
    options := by rw [hleft.sameStart.options, hright.sameStart.options, h.options]
    spans := hspans }

theorem rootScopes (h : s.Agree engine a s' b) :
    s.tokenizer.rootScopes = s'.tokenizer.rootScopes := by
  rw [h.left.rootScopes, h.right.rootScopes, h.grammars.grammar?_eq, h.base]

theorem plain (h : s.Agree engine a s' b) : s.plain a = s'.plain b := by
  rw [Session.plain, Session.plain, Tokenizer.scopesOf, Tokenizer.scopesOf, h.rootScopes,
    h.spans.scopesOver]

theorem contextOf (h : s.Agree engine a s' b) :
    (s.tokenizer.contextOf a).entries = (s'.tokenizer.contextOf b).entries := by
  have hroot : s.tokenizer.rootContext.entries = s'.tokenizer.rootContext.entries := by
    rw [h.left.rootContext, h.right.rootContext, h.grammars.entriesFor_eq, h.base]
  have hframes := h.spans.frames
  rw [Tokenizer.contextOf, Tokenizer.contextOf, OpenSpans.top?, OpenSpans.top?]
  generalize a.frames = l at hframes
  generalize b.frames = l' at hframes
  cases hframes with
  | nil => exact hroot
  | cons hhead _ => exact hhead.entries

theorem contextFor (h : s.Agree engine a s' b) (situation : Situation) :
    (s.contextFor situation).entries = (s'.contextFor situation).entries := by
  rw [h.left.contextFor, h.right.contextFor, h.grammars.entriesFor_eq]

theorem searchContext (h : s.Agree engine a s' b) (hs : s.Numbered) (hs' : s'.Numbered)
    (anchors : Anchoring) (t : Subject) (pos : Nat) :
    ((SessionM.searchContext engine (s.tokenizer.contextOf a) anchors t pos).run s).1 =
      ((SessionM.searchContext engine (s'.tokenizer.contextOf b) anchors t pos).run s').1 := by
  rw [h.left.searchContext hs, h.right.searchContext hs', ContextGroup.build_eq,
    ContextGroup.build_eq, Context.sources, Context.sources, h.contextOf]

theorem matchAlone (h : s.Agree engine a s' b) (source : String) (anchors : Anchoring) (t : Subject)
    (pos : Nat) :
    ((SessionM.matchAlone engine source anchors t pos).run s).1 =
      ((SessionM.matchAlone engine source anchors t pos).run s').1 := by
  rw [h.left.matchAlone, h.right.matchAlone]

end Session.Agree

/-! ## Captures -/

/-- The scanner gives the same tokens in sessions that agree, and goes back to its frames. -/
structure Scanner.Steady (engine : Engine P) (scan : Scanner P) : Prop where
  returns : scan.Returns engine
  tokens : ∀ {text : Subject} {a b : OpenSpans} {start : Nat} {firstLine : Bool} {s s' : Session P},
    s.Agree engine a s' b → ((scan text a start firstLine).run s).2.Numbered →
    ((scan text b start firstLine).run s').2.Numbered →
    ((scan text a start firstLine).run s).1 = ((scan text b start firstLine).run s').1

theorem Scanner.returns_of_steady {scan : Option (Scanner P)}
    (hscan : ∀ scan' ∈ scan, scan'.Steady engine) : ∀ scan' ∈ scan, scan'.Returns engine :=
  fun scan' hs => (hscan scan' hs).returns

theorem captureFrame_alike {a b : OpenSpans} (h : a.Alike b) {c d : Context}
    (hentries : c.entries = d.entries) (scopes : List Scope) :
    (captureFrame (a.depth + 1) scopes c).Alike (captureFrame (b.depth + 1) scopes d) :=
  ⟨congrArg (· + 1) h.depth, rfl, rfl, rfl, rfl, hentries, rfl⟩

namespace Captured

variable {c : Captured} {b : OpenSpans} {s s' : Session P}

theorem scanCapture_agree {scan : Scanner P} (hscan : scan.Steady engine) {id : CaptureId}
    {capture : Capture} (hcapture : c.grammar.capture? id = some capture) (scopes : List Scope)
    (start stop : Nat) (h : s.Agree engine c.spans s' b)
    (hgrammar : s.registry.grammar? c.grammarId = some c.grammar)
    (hn : ((c.scanCapture scan id scopes start stop).run s).2.Numbered)
    (hn' : (({ c with spans := b }.scanCapture scan id scopes start stop).run s').2.Numbered) :
    ((c.scanCapture scan id scopes start stop).run s).1 =
      (({ c with spans := b }.scanCapture scan id scopes start stop).run s').1 := by
  have hgrammar' : s'.registry.grammar? c.grammarId = some c.grammar := by
    rw [h.grammars.grammar?_eq, hgrammar]
  have hleft := Leads.captureFrame engine s c.spans scopes hgrammar hcapture
  have hright := Leads.captureFrame engine s' b scopes hgrammar' hcapture
  rw [← h.base] at hright
  have hframes := h.spans.push (captureFrame_alike h.spans
    (h.contextFor (.capture s.tokenizer.base c.grammarId id)) scopes)
  rw [run_scanCapture] at hn hn' ⊢
  rw [run_scanCapture]
  rw [← h.base] at hn' ⊢
  exact hscan.tokens (h.after hleft hright hframes) hn hn'

theorem scopeEntries_agree {scan : Option (Scanner P)}
    (hscan : ∀ scan' ∈ scan, scan'.Steady engine) (entries : List (Nat × CaptureId))
    (groups : OpenGroups) (cover : Cover) (h : s.Agree engine c.spans s' b)
    (hgrammar : s.registry.grammar? c.grammarId = some c.grammar)
    (hn : ((c.scopeEntries scan entries groups cover).run s).2.Numbered)
    (hn' : (({ c with spans := b }.scopeEntries scan entries groups cover).run s').2.Numbered) :
    ((c.scopeEntries scan entries groups cover).run s).1 =
      (({ c with spans := b }.scopeEntries scan entries groups cover).run s').1 := by
  have hreturns := Scanner.returns_of_steady hscan
  induction entries generalizing groups cover s s' with
  | nil => rfl
  | cons entry rest ih =>
    obtain ⟨i, id⟩ := entry
    have hplace' : Captured.place? { c with spans := b } i id = c.place? i id := rfl
    rw [run_scopeEntries_cons] at hn hn' ⊢
    rw [run_scopeEntries_cons]
    rw [hplace'] at hn' ⊢
    cases hplace : c.place? i id with
    | none =>
      rw [hplace] at hn hn'
      exact ih groups cover h hgrammar hn hn'
    | some place =>
      obtain ⟨capture, start, stop⟩ := place
      rw [hplace] at hn hn'
      dsimp only at hn hn' ⊢
      cases hpatterns : capture.patterns with
      | none =>
        rw [hpatterns] at hn hn'
        exact ih _ _ h hgrammar hn hn'
      | some list =>
        rw [hpatterns] at hn hn'
        cases scan with
        | none => exact ih _ _ h hgrammar hn hn'
        | some scan =>
          dsimp only at hn hn' ⊢
          have hgrammar' : s'.registry.grammar? c.grammarId = some c.grammar := by
            rw [h.grammars.grammar?_eq, hgrammar]
          have hcapture := place?_capture hplace
          have hleft := scanCapture_leads (hreturns scan rfl) c hcapture
            ((groups.closeUpTo start cover).1.scopes c.scopes ++ capture.scopes) start stop s
            hgrammar
          have hright := scanCapture_leads (hreturns scan rfl) { c with spans := b } hcapture
            ((groups.closeUpTo start cover).1.scopes c.scopes ++ capture.scopes) start stop s'
            hgrammar'
          have hgrammar₁ := hleft.sameGrammars.grammar?_eq c.grammarId ▸ hgrammar
          have hgrammar₁' := hright.sameGrammars.grammar?_eq c.grammarId ▸ hgrammar'
          have htokens := scanCapture_agree (hscan scan rfl) hcapture _ start stop h hgrammar
            (hn.before (scopeEntries_leads hreturns c rest _ _ _ hgrammar₁))
            (hn'.before (scopeEntries_leads hreturns { c with spans := b } rest _ _ _ hgrammar₁'))
          rw [htokens] at hn ⊢
          exact ih _ _ (h.after hleft hright h.spans) hgrammar₁ hn hn'

end Captured

/-! ## Candidates -/

theorem spanSituation_alike {a b : OpenSpans} (h : a.Alike b) (options : SessionOptions)
    (base : GrammarId) (rule : RuleRef) (span : SpanRule) (source : String) :
    spanSituation options base rule span source a =
      spanSituation options base rule span source b := by
  rw [spanSituation, spanSituation, h.top?_map fun _ _ hf => hf.ends]

theorem spanFrame_alike {a b : OpenSpans} (h : a.Alike b) {c d : Context}
    (hentries : c.entries = d.entries) (rule : RuleRef) (span : SpanRule) (source : String)
    (scopes : List Scope) (atEnd : Bool) (ends : List EndMark) :
    (spanFrame (a.depth + 1) rule span source scopes atEnd c ends).Alike
      (spanFrame (b.depth + 1) rule span source scopes atEnd d ends) :=
  ⟨congrArg (· + 1) h.depth, rfl, rfl, rfl, rfl, hentries, rfl⟩

theorem Session.Numbered.of_resolved {s : Session P} {situation : Situation}
    (hs : (s.resolved situation).Numbered) : s.Numbered :=
  Nat.le_trans (s.registry.resolve_made situation) hs

namespace SessionM

variable {scan : Option (Scanner P)} {text : Subject} {s s' : Session P} {a b : OpenSpans}
  {line line' : LineState} {m : Match}

theorem scopeGroups_agree (hscan : ∀ scan' ∈ scan, scan'.Steady engine)
    (h : s.Agree engine a s' b) {scopes : List Scope} {grammarId : GrammarId}
    {table : CaptureTable} {found : Match} {firstLine : Bool} {cover : Cover}
    (hn : ((scopeGroups scan text a scopes grammarId table found firstLine cover).run s).2.Numbered)
    (hn' : ((scopeGroups scan text b scopes grammarId table found firstLine cover).run
      s').2.Numbered) :
    ((scopeGroups scan text a scopes grammarId table found firstLine cover).run s).1 =
      ((scopeGroups scan text b scopes grammarId table found firstLine cover).run s').1 := by
  rw [run_scopeGroups] at hn hn' ⊢
  rw [run_scopeGroups]
  rw [h.grammars.grammar?_eq] at hn' ⊢
  cases hgrammar : s.registry.grammar? grammarId with
  | none => rfl
  | some grammar =>
    rw [hgrammar] at hn hn'
    let c : Captured := { grammarId, grammar, found, text, spans := a, scopes, firstLine }
    have hc : s.Agree engine c.spans s' b := h
    exact Captured.scopeEntries_agree hscan table.entries [] cover hc hgrammar hn hn'

theorem scopeMatch_agree (hscan : ∀ scan' ∈ scan, scan'.Steady engine) (hline : line.Alike line')
    (h : s.Agree engine line.spans s' line'.spans) {r r' : Registry} {c c' : Candidate}
    {e e' : Effect} (hhas : r.HasEffect line.spans.frames c e)
    (hhas' : r'.HasEffect line'.spans.frames c' e') (he : e.Alike e')
    (hn : ((scopeMatch scan text m line e).run s).2.Numbered)
    (hn' : ((scopeMatch scan text m line' e').run s').2.Numbered) :
    ((scopeMatch scan text m line e).run s).1 = ((scopeMatch scan text m line' e').run s').1 := by
  rw [run_scopeMatch] at hn hn' ⊢
  rw [run_scopeMatch]
  dsimp only at hn hn' ⊢
  rw [← h.plain, ← he.grammarId, ← he.captures, ← he.scopes, ← hline.cursor, ← hline.cover] at hn' ⊢
  have hinside := h.after (Leads.effectSpans hhas s) (Leads.effectSpans hhas' s')
    (he.spans hline.spans)
  rw [scopeGroups_agree hscan hinside hn hn']

theorem applyEffect_agree (hscan : ∀ scan' ∈ scan, scan'.Steady engine) (hline : line.Alike line')
    (h : s.Agree engine line.spans s' line'.spans) {c c' : Candidate} {e e' : Effect}
    (hhas : s.registry.HasEffect line.spans.frames c e)
    (hhas' : s'.registry.HasEffect line'.spans.frames c' e') (he : e.Alike e')
    (hn : ((applyEffect scan text m line e).run s).2.Numbered)
    (hn' : ((applyEffect scan text m line' e').run s').2.Numbered) :
    ((applyEffect scan text m line e).run s).1.Alike
      ((applyEffect scan text m line' e').run s').1 := by
  have hreturns := Scanner.returns_of_steady hscan
  have hleft := scopeMatch_leads hreturns text hhas m s
  have hright := scopeMatch_leads hreturns text hhas' m s'
  have hafter := h.after hleft hright hline.spans
  have hcover : ((scopeMatch scan text m line e).run s).2.Numbered →
      ((scopeMatch scan text m line' e').run s').2.Numbered → _ :=
    scopeMatch_agree hscan hline h hhas hhas' he
  have hcursor := hline.cursor
  rw [run_applyEffect] at hn hn' ⊢
  rw [run_applyEffect]
  cases he with
  | closing htarget houter =>
    refine ⟨hline.spans.withFrames houter, ?_, hcover hn hn'⟩
    simp only [closeSpan, hcursor, htarget.depth]
  | single => exact ⟨hline.spans, by simp only [applyMatch, hcursor], hcover hn hn'⟩
  | @opening rule grammar span =>
    dsimp only at hn hn' ⊢
    rw [run_openSpan] at hn hn' ⊢
    rw [run_openSpan]
    dsimp only at hn hn' ⊢
    rw [← hafter.options, ← hafter.base, ← spanSituation_alike hline.spans] at hn' ⊢
    refine ⟨hline.spans.push ?_, ?_, hcover hn.of_resolved hn'.of_resolved⟩
    · rw [← hafter.plain]
      exact spanFrame_alike hline.spans (hafter.contextFor _) ..
    · simp only [hcursor, hline.spans.depth]

/-- A candidate is applied on both sides or on none. -/
theorem applyCandidate_agree (hscan : ∀ scan' ∈ scan, scan'.Steady engine)
    (hline : line.Alike line') (h : s.Agree engine line.spans s' line'.spans)
    (candidate : Option Candidate) :
    ((applyCandidate scan text m line candidate).run s = (none, s) ∧
      (applyCandidate scan text m line' candidate).run s' = (none, s')) ∨
    ∃ l l' u u', (applyCandidate scan text m line candidate).run s = (some l, u) ∧
      (applyCandidate scan text m line' candidate).run s' = (some l', u') ∧
      (u.Numbered → u'.Numbered → l.Alike l') := by
  rw [run_applyCandidate, run_applyCandidate, h.grammars.effect?_eq]
  obtain ⟨hnone, hnone'⟩ | ⟨e, e', heffect, heffect', he⟩ :=
    s.registry.effect?_alike hline.spans.frames candidate
  · rw [hnone, hnone']
    exact .inl ⟨rfl, rfl⟩
  · obtain ⟨c, _, hhas⟩ := Registry.hasEffect_of_effect? heffect
    have heffect'' := heffect'
    rw [← h.grammars.effect?_eq] at heffect''
    obtain ⟨c', _, hhas'⟩ := Registry.hasEffect_of_effect? heffect''
    rw [heffect, heffect']
    exact .inr ⟨_, _, _, _, rfl, rfl, applyEffect_agree hscan hline h hhas hhas' he⟩

theorem applyAll_agree (hscan : ∀ scan' ∈ scan, scan'.Steady engine) (steps : Nat)
    (hline : line.Alike line') (h : s.Agree engine line.spans s' line'.spans)
    (hn : ((applyAll engine scan text steps line).run s).2.Numbered)
    (hn' : ((applyAll engine scan text steps line').run s').2.Numbered) :
    ((applyAll engine scan text steps line).run s).1.Alike
      ((applyAll engine scan text steps line').run s').1 := by
  have hreturns := Scanner.returns_of_steady hscan
  induction steps generalizing line line' s s' with
  | zero =>
    rw [run_applyAll_zero, run_applyAll_zero]
    exact ⟨hline.spans, hline.cursor, by rw [hline.cover, h.plain]⟩
  | succ steps ih =>
    have hs := hn.before (applyAll_leads hreturns text (steps + 1) line s)
    have hs' := hn'.before (applyAll_leads hreturns text (steps + 1) line' s')
    have hfound := h.searchContext hs hs' line.cursor.anchors text line.cursor.pos
    have hafter := h.after (.searchContext engine s line.spans line.cursor.anchors text
      line.cursor.pos) (.searchContext engine s' line'.spans line.cursor.anchors text
      line.cursor.pos) hline.spans
    rw [run_applyAll_succ] at hn hn' ⊢
    rw [run_applyAll_succ]
    dsimp only at hn hn' ⊢
    rw [← hline.cursor, ← hline.cover] at hn' ⊢
    generalize hrun : (searchContext engine (s.tokenizer.contextOf line.spans) line.cursor.anchors
      text line.cursor.pos).run s = found at hn hfound hafter ⊢
    generalize hrun' : (searchContext engine (s'.tokenizer.contextOf line'.spans)
      line.cursor.anchors text line.cursor.pos).run s' = found' at hn' hfound hafter ⊢
    obtain ⟨answer, s₁⟩ := found
    obtain ⟨answer', s₁'⟩ := found'
    cases hfound
    cases answer with
    | none => exact ⟨hline.spans, rfl, by rw [h.plain]⟩
    | some winner =>
      obtain ⟨i, m⟩ := winner
      have hcandidate : (s'.tokenizer.contextOf line'.spans).candidate? i =
          (s.tokenizer.contextOf line.spans).candidate? i := by
        rw [Context.candidate?, Context.candidate?, h.contextOf]
      dsimp only at hn hn' ⊢
      rw [hcandidate] at hn' ⊢
      obtain ⟨hnone, hnone'⟩ | ⟨l, l', u, u', hsome, hsome', halike⟩ := applyCandidate_agree hscan
        hline hafter ((s.tokenizer.contextOf line.spans).candidate? i)
      · rw [hnone, hnone']
        exact ⟨hline.spans, rfl, by rw [h.rootScopes]⟩
      · rw [hsome] at hn ⊢
        rw [hsome'] at hn' ⊢
        dsimp only at hn hn' ⊢
        have hleft := applyCandidate_leads hreturns text hsome
        have hright := applyCandidate_leads hreturns text hsome'
        have hl := halike (hn.before (applyAll_leads hreturns text steps l u))
          (hn'.before (applyAll_leads hreturns text steps l' u'))
        exact ih hl (hafter.after hleft hright hl.spans) hn hn'

theorem scanLine_agree (hscan : ∀ scan' ∈ scan, scan'.Steady engine) (hline : line.Alike line')
    (h : s.Agree engine line.spans s' line'.spans)
    (hn : ((scanLine engine scan text line).run s).2.Numbered)
    (hn' : ((scanLine engine scan text line').run s').2.Numbered) :
    ((scanLine engine scan text line).run s).1.Alike
      ((scanLine engine scan text line').run s').1 := by
  rw [scanLine, ← hline.cursor] at hn'
  rw [scanLine, scanLine, ← hline.cursor]
  exact applyAll_agree hscan _ hline h hn hn'

theorem captureScanner_steady (levels : Nat) :
    ∀ scan ∈ captureScanner engine levels, scan.Steady engine := by
  induction levels with
  | zero => intro scan h; cases h
  | succ levels ih =>
    intro scan hscan
    refine ⟨captureScanner_returns (levels + 1) scan hscan, ?_⟩
    intro text a b start firstLine s s' h hn hn'
    rw [run_captureScanner engine text levels hscan] at hn hn' ⊢
    rw [run_captureScanner engine text levels hscan]
    have hline : (LineState.startingAt a start none firstLine).Alike
        (.startingAt b start none firstLine) := ⟨h.spans, rfl, rfl⟩
    have hscanned := scanLine_agree ih hline h hn hn'
    exact congrArg (fun cover : Cover => cover.tokens.toList) hscanned.cover

/-! ## Lines -/

theorem heldGroups_agree (hscan : ∀ scan' ∈ scan, scan'.Steady engine) {frame frame' : Frame}
    {outer outer' : List Frame} (hframe : frame.Alike frame')
    (houter : List.Forall₂ Frame.Alike outer outer') (hline : line.Alike line')
    (h : s.Agree engine line.spans s' line'.spans) (hframes : frame :: outer <:+ line.spans.frames)
    (hframes' : frame' :: outer' <:+ line'.spans.frames) (rule : RuleRef)
    (hn : (heldGroups scan text frame outer rule m line s).2.Numbered)
    (hn' : (heldGroups scan text frame' outer' rule m line' s').2.Numbered) :
    (heldGroups scan text frame outer rule m line s).1 =
      (heldGroups scan text frame' outer' rule m line' s').1 := by
  rw [heldGroups] at hn hn' ⊢
  rw [heldGroups]
  rw [h.grammars.span?_eq, ← hline.cursor, ← hline.cover, ← hframe.contentScopes] at hn' ⊢
  cases hspan : s.registry.span? rule with
  | none => rfl
  | some span =>
    rw [hspan] at hn hn'
    have hinside := h.after (.closeTo engine s hframes) (.closeTo engine s' hframes')
      (hline.spans.withFrames (.cons hframe houter))
    exact scopeGroups_agree hscan hinside hn hn'

theorem holdFrames_agree (hscan : ∀ scan' ∈ scan, scan'.Steady engine)
    {inner inner' outer outer' : List Frame} (hinner : List.Forall₂ Frame.Alike inner inner')
    (houter : List.Forall₂ Frame.Alike outer outer') (hline : line.Alike line')
    (h : s.Agree engine line.spans s' line'.spans)
    (hframes : line.spans.frames = inner.reverse ++ outer)
    (hframes' : line'.spans.frames = inner'.reverse ++ outer')
    (hn : ((holdFrames engine scan text inner outer line).run s).2.Numbered)
    (hn' : ((holdFrames engine scan text inner' outer' line').run s').2.Numbered) :
    ((holdFrames engine scan text inner outer line).run s).1.Alike
      ((holdFrames engine scan text inner' outer' line').run s').1 := by
  have hreturns := Scanner.returns_of_steady hscan
  induction hinner generalizing outer outer' line line' s s' with
  | nil => exact hline
  | @cons frame frame' inner inner' hframe _ ih =>
    have hbelow : line.spans.frames = inner.reverse ++ frame :: outer := by simp [hframes]
    have hbelow' : line'.spans.frames = inner'.reverse ++ frame' :: outer' := by simp [hframes']
    rw [run_holdFrames_cons] at hn hn' ⊢
    rw [run_holdFrames_cons]
    rw [← hframe.hold] at hn' ⊢
    cases hhold : frame.hold with
    | untilEnd rule source =>
      rw [hhold] at hn hn'
      exact ih (.cons hframe houter) hline h hbelow hbelow' hn hn'
    | capture =>
      rw [hhold] at hn hn'
      exact ih (.cons hframe houter) hline h hbelow hbelow' hn hn'
    | whileMatched rule source =>
      rw [hhold] at hn hn'
      dsimp only at hn hn' ⊢
      rw [← hline.cursor, ← hline.cover] at hn' ⊢
      have hmatched := h.matchAlone source line.cursor.anchors text line.cursor.pos
      have hafter := h.after (.matchAlone engine s line.spans source line.cursor.anchors text
        line.cursor.pos) (.matchAlone engine s' line'.spans source line.cursor.anchors text
        line.cursor.pos) hline.spans
      generalize (matchAlone engine source line.cursor.anchors text line.cursor.pos).run s = matched
        at hn hmatched hafter ⊢
      generalize (matchAlone engine source line.cursor.anchors text line.cursor.pos).run s' =
        matched' at hn' hmatched hafter ⊢
      obtain ⟨answer, s₁⟩ := matched
      obtain ⟨answer', s₁'⟩ := matched'
      cases hmatched
      cases answer with
      | none => exact ⟨hline.spans.withFrames houter, rfl, rfl⟩
      | some m =>
        have hsuffix : frame :: outer <:+ line.spans.frames := ⟨_, hbelow.symm⟩
        have hsuffix' : frame' :: outer' <:+ line'.spans.frames := ⟨_, hbelow'.symm⟩
        have hleft := heldGroups_leads hreturns text frame outer rule m line s₁ hsuffix
        have hright := heldGroups_leads hreturns text frame' outer' rule m line' s₁' hsuffix'
        have hcover := heldGroups_agree hscan hframe houter hline hafter hsuffix hsuffix' rule
          (hn.before (holdFrames_leads hreturns text inner (frame :: outer) _ _ hbelow))
          (hn'.before (holdFrames_leads hreturns text inner' (frame' :: outer') _ _ hbelow'))
        dsimp only at hn hn' ⊢
        rw [hcover, hframe.contentScopes] at hn ⊢
        exact ih (.cons hframe houter) ⟨hline.spans, rfl, rfl⟩
          (hafter.after hleft hright hline.spans) hbelow hbelow' hn hn'

theorem holdSpans_agree (hscan : ∀ scan' ∈ scan, scan'.Steady engine) (hline : line.Alike line')
    (h : s.Agree engine line.spans s' line'.spans)
    (hn : ((holdSpans engine scan text line).run s).2.Numbered)
    (hn' : ((holdSpans engine scan text line').run s').2.Numbered) :
    ((holdSpans engine scan text line).run s).1.Alike
      ((holdSpans engine scan text line').run s').1 :=
  holdFrames_agree hscan (List.forall₂_reverse_iff.2 hline.spans.frames) .nil hline h (by simp)
    (by simp) hn hn'

theorem startLine_alike (h : a.Alike b) : (startLine a).Alike (startLine b) := by
  have hcaptured : a.top?.map (·.capturedLineEnd) = b.top?.map (·.capturedLineEnd) :=
    h.top?_map fun _ _ hf => hf.capturedLineEnd
  refine ⟨h, ?_, rfl⟩
  rw [startLine, startLine, hcaptured, h.started]
  rfl

/-- Sessions that agree give the same tokens for a line and alike states after it. -/
theorem tokenizeLine_agree (line : String) (h : s.Agree engine a s' b)
    (hn : ((tokenizeLine engine line a).run s).2.Numbered)
    (hn' : ((tokenizeLine engine line b).run s').2.Numbered) :
    ((tokenizeLine engine line a).run s).1.Alike ((tokenizeLine engine line b).run s').1 := by
  have hsteady : ∀ scan ∈ captureScanner engine captureDepth, scan.Steady engine :=
    captureScanner_steady captureDepth
  rw [run_tokenizeLine] at hn hn' ⊢
  rw [run_tokenizeLine]
  rw [← h.options] at hn' ⊢
  by_cases hlong : isTooLong s.tokenizer.options line.length = true
  · rw [if_pos hlong, if_pos hlong]
    exact ⟨by rw [h.plain], h.spans.start⟩
  · rw [if_neg hlong] at hn hn' ⊢
    rw [if_neg hlong]
    dsimp only at hn hn' ⊢
    have hstart := startLine_alike h.spans
    have hheld := holdSpans_agree hsteady hstart h (hn.before (scanLine_leads ..))
      (hn'.before (scanLine_leads ..))
    have hafter := h.after (holdSpans_leads captureDepth (.ofLine line) (startLine a) s)
      (holdSpans_leads captureDepth (.ofLine line) (startLine b) s') hheld.spans
    have hscanned := scanLine_agree hsteady hheld hafter hn hn'
    exact ⟨congrArg (·.clip line.length) hscanned.cover, hscanned.spans.start⟩

end SessionM

end ScopeGrammar
