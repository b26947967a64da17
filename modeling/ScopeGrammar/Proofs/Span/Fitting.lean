import ScopeGrammar.Proofs.Span.Rebuilt

/-!
# ScopeGrammar.Proofs.Span.Fitting

States that fit the grammars.

* `Frame.Fits` : what a frame refers to is there, the span it is held open by and the frames that
  its ends close.
* `World.Fitting` worlds hold such states alone, from tokenizers of any base grammar and with any
  options. Every move keeps them so.
* `Session.Fits.effect?` : every candidate of the context that is searched then stands for something
  that can be done.
* `Session.Fits.lt_of_search` : what the search answers is the number of a candidate.
-/

namespace ScopeGrammar

variable {P : Type} {engine : Engine P}

structure Frame.Fits (r : Registry) (f : Frame) (outer : List Frame) : Prop where
  context : ∃ s : Situation, f.context.entries = r.entriesFor s ∧ f.ends = s.ends
  ends : ∀ e ∈ f.ends, IsOpenEnd (f :: outer) e.distance e.source
  rule : ∀ {rule source}, f.hold = .untilEnd rule source → ∃ span, r.span? rule = some span

/-- Every frame fits with those around it. -/
def Registry.Fits (r : Registry) (frames : List Frame) : Prop :=
  ∀ f outer, f :: outer <:+ frames → f.Fits r outer

theorem IsOpenEnd.drop_eq {frames : List Frame} {distance : Nat} {source : String}
    (h : IsOpenEnd frames distance source) : ∃ f rule, f.hold = .untilEnd rule source ∧
      frames.drop distance = f :: frames.drop (distance + 1) := by
  obtain ⟨f, rule, hget, hhold, _⟩ := h
  obtain ⟨hlt, rfl⟩ := List.getElem?_eq_some_iff.1 hget
  exact ⟨_, rule, hhold, List.drop_eq_getElem_cons hlt⟩

namespace Registry

variable {r : Registry} {frames : List Frame}

/-! ## What candidates stand for -/

/-- A candidate for a rule is found among the rules of the situation. -/
theorem mem_contentRules_of_rule {s : Situation} {rule : RuleRef} {source : String}
    (h : (.rule rule, source) ∈ r.entriesFor s) :
    (.rule rule, source) ∈ r.contentRules s.base s.origin := by
  have hends : ∀ ends : List EndMark,
      (Candidate.rule rule, source) ∉ ends.map EndMark.candidate := by
    intro ends hmem
    obtain ⟨e, _, heq⟩ := List.mem_map.1 hmem
    cases heq
  rw [entriesFor, ruleEntries_eq_contentRules, allEntries] at h
  split at h <;> simpa [hends] using h

theorem effect?_of_mem_contentRules (frames : List Frame) {base : GrammarId} {origin : RuleOrigin}
    {rule : RuleRef} {source : String} (h : (.rule rule, source) ∈ r.contentRules base origin) :
    ∃ e, r.effect? frames (some (.rule rule)) = some e := by
  rw [contentRules, ruleEntries] at h
  split at h
  · cases h
  · obtain ⟨rule', _, hentry⟩ := List.mem_filterMap.1 h
    obtain ⟨source', hopening, heq⟩ := Option.map_eq_some_iff.1 hentry
    cases heq
    obtain ⟨grammar, hgrammar, hrule⟩ := Option.bind_eq_some_iff.1 hopening
    obtain ⟨found, hfound, _⟩ := Option.map_eq_some_iff.1 hrule
    cases found with
    | single single => exact ⟨.single rule single, by simp only [effect?, hgrammar, hfound]⟩
    | span span => exact ⟨.opening rule grammar span, by simp only [effect?, hgrammar, hfound]⟩

namespace Fits

theorem nil (r : Registry) : r.Fits [] := by
  intro f outer h
  cases List.suffix_nil.1 h

theorem cons {f : Frame} (hf : f.Fits r frames) (h : r.Fits frames) : r.Fits (f :: frames) := by
  intro g outer hsuffix
  obtain heq | hsuffix := List.suffix_cons_iff.1 hsuffix
  · cases heq; exact hf
  · exact h g outer hsuffix

theorem drop (h : r.Fits frames) (n : Nat) : r.Fits (frames.drop n) :=
  fun f outer hsuffix => h f outer (hsuffix.trans (List.drop_suffix n frames))

theorem congr {r' : Registry} (h : r.Fits frames) (hr : r.SameGrammars r') : r'.Fits frames := by
  intro f outer hsuffix
  obtain ⟨⟨s, hentries, hends⟩, hopen, hrule⟩ := h f outer hsuffix
  refine ⟨⟨s, hentries.trans (hr.entriesFor_eq s).symm, hends⟩, hopen, fun hhold => ?_⟩
  rw [hr.span?_eq]
  exact hrule hhold

/-- An end of the stack closes a frame of a span. -/
theorem effect?_of_isOpenEnd (h : r.Fits frames) {distance : Nat} {source : String}
    (hopen : IsOpenEnd frames distance source) :
    ∃ e, r.effect? frames (some (.closing distance)) = some e := by
  obtain ⟨f, rule, hhold, hdrop⟩ := hopen.drop_eq
  obtain ⟨span, hspan⟩ := (h f _ (hdrop ▸ List.drop_suffix ..)).rule hhold
  exact ⟨.closing f (frames.drop (distance + 1)) rule span, by
    simp only [effect?, hdrop, hhold, hspan, Option.map_some]⟩

end Fits

end Registry

/-! ## Frames that are opened -/

section Opening

variable {r : Registry} {spans : OpenSpans} {depth : Nat}

theorem Registry.Fits.isOpenEnd_of_top (h : r.Fits spans.frames) {e : EndMark}
    (he : e ∈ (spans.top?.map (·.ends)).getD []) :
    IsOpenEnd spans.frames e.distance e.source := by
  rw [OpenSpans.top?] at he
  cases hframes : spans.frames with
  | nil => rw [hframes] at he; cases he
  | cons f outer =>
    rw [hframes] at he
    exact (h f outer (hframes ▸ List.suffix_rfl)).ends e he

/-- The ends handed on to a span are open ends of the stack with its frame. -/
theorem Registry.Fits.isOpenEnd_of_span (h : r.Fits spans.frames) (options : SessionOptions)
    (base : GrammarId) (rule : RuleRef) (span : SpanRule) (source : String) (scopes : List Scope)
    (atEnd : Bool) (context : Context) {ends : List EndMark} {e : EndMark}
    (he : e ∈ (spanSituation options base rule span source spans).ends) :
    IsOpenEnd (spanFrame depth rule span source scopes atEnd context ends :: spans.frames) e.distance
      e.source := by
  have hplace : e.place ∈ ((spanSituation options base rule span source spans).ends).map
      EndMark.place := List.mem_map_of_mem he
  rw [Situation.ends, List.map_append, spanSituation, outerEnds_place, List.mem_append] at hplace
  obtain hown | houter := hplace
  · dsimp only at hown
    split at hown
    · cases hown
    · next hwhile =>
      rw [Option.toList_some, List.map_cons, List.map_nil, List.mem_singleton, EndMark.place,
        EndMark.place, Prod.mk.injEq] at hown
      rw [hown.1, hown.2]
      refine ⟨_, rule, rfl, ?_, fun g hg => (List.not_mem_nil hg).elim⟩
      rw [spanFrame, holdOf, if_neg hwhile]
  · obtain ⟨distance, hdistance, hmem⟩ := mem_fartherOut.1 houter
    obtain ⟨e', he', hsame⟩ := List.mem_map.1 (dropRepeats_sublist.subset hmem)
    rw [EndMark.place, Prod.mk.injEq] at hsame
    rw [hdistance, isOpenEnd_succ (hold_spanFrame _ _ _ _ _ _ _ _), ← hsame.1, ← hsame.2]
    split at he'
    · exact h.isOpenEnd_of_top he'
    · cases he'

theorem Registry.Fits.span (h : r.Fits spans.frames) {rule : RuleRef} {span : SpanRule}
    (hspan : r.span? rule = some span) (options : SessionOptions) (base : GrammarId)
    (source : String) (scopes : List Scope) (atEnd : Bool) {context : Context}
    (hentries : context.entries =
      r.entriesFor (spanSituation options base rule span source spans)) :
    r.Fits (spanFrame depth rule span source scopes atEnd context
      (spanSituation options base rule span source spans).ends :: spans.frames) := by
  refine .cons ⟨⟨_, hentries, rfl⟩, fun e he => ?_, fun {rule' source'} hhold => ?_⟩ h
  · exact h.isOpenEnd_of_span options base rule span source scopes atEnd context he
  · rw [spanFrame, holdOf] at hhold
    split at hhold
    · cases hhold
    · cases hhold; exact ⟨span, hspan⟩

theorem Registry.Fits.capture (h : r.Fits spans.frames) {base grammar : GrammarId} {id : CaptureId}
    (scopes : List Scope) {context : Context}
    (hentries : context.entries = r.entriesFor (.capture base grammar id)) :
    r.Fits (captureFrame depth scopes context :: spans.frames) := by
  refine .cons ⟨⟨_, hentries, rfl⟩, fun e he => (List.not_mem_nil he).elim, fun hhold => ?_⟩ h
  cases hhold

end Opening

/-! ## Worlds of states that fit -/

structure World.Fitting (engine : Engine P) (r : Registry) (w : World P) : Prop where
  sound : ∃ K : Catalog, w.Sound engine K
  grammars : r.SameGrammars w.registry
  states : ∀ spans ∈ w.states, r.Fits spans.frames

namespace World.Fitting

variable {r : Registry} {w w' : World P}

theorem resolve_entries (h : w.Fitting engine r) (s : Situation) :
    (w.registry.resolve s).1.1.entries = r.entriesFor s := by
  obtain ⟨K, hsound⟩ := h.sound
  rw [hsound.resolve_entries, h.grammars.entriesFor_eq]

theorem move (h : w.Fitting engine r) (hmove : Move engine w w') : w'.Fitting engine r := by
  have hsound : ∃ K : Catalog, w'.Sound engine K := by
    obtain ⟨K, hsound⟩ := h.sound
    obtain ⟨K', _, hsound'⟩ := hsound.move hmove
    exact ⟨K', hsound'⟩
  refine ⟨hsound, h.grammars.trans hmove.extends.grammars, ?_⟩
  cases hmove with
  | group anchors ht hspans => exact h.states
  | single source ht => exact h.states
  | close n hspans => exact List.forall_mem_cons.2 ⟨(h.states _ hspans).drop n, h.states⟩
  | @start spans hspans => exact List.forall_mem_cons.2 ⟨h.states spans hspans, h.states⟩
  | span atEnd ht hspans hopens =>
    refine List.forall_mem_cons.2 ⟨?_, h.states⟩
    exact (h.states _ hspans).span (h.grammars.span?_eq _ ▸ hopens.found) _ _ _ _ atEnd
      (h.resolve_entries _)
  | capture scopes ht hspans hgrammar hcapture =>
    refine List.forall_mem_cons.2 ⟨?_, h.states⟩
    exact (h.states _ hspans).capture scopes (h.resolve_entries _)

theorem moves (h : w.Fitting engine r) (hmoves : Moves engine w w') : w'.Fitting engine r :=
  Moves.preserves (fun w => w.Fitting engine r) hmoves (fun hmove h => h.move hmove) h

end World.Fitting

def Session.Fits (engine : Engine P) (r : Registry) (s : Session P) (a : OpenSpans) : Prop :=
  ∃ w : World P, w.Fitting engine r ∧ w.At s a

namespace Session.Fits

variable {r : Registry} {s s' : Session P} {a b : OpenSpans} {c : Candidate} {source : String}

theorem after (h : s.Fits engine r a) (hleads : Leads engine s a s' b) : s'.Fits engine r b := by
  obtain ⟨w, hfitting, hat⟩ := h
  obtain ⟨w', hmoves, hat'⟩ := hleads.moves w hat
  exact ⟨w', hfitting.moves hmoves, hat'⟩

theorem frames (h : s.Fits engine r a) : r.Fits a.frames := by
  obtain ⟨w, hfitting, hat⟩ := h
  exact hfitting.states a hat.spans

theorem sameGrammars (h : s.Fits engine r a) : r.SameGrammars s.registry := by
  obtain ⟨w, hfitting, hat⟩ := h
  rw [hat.registry]
  exact hfitting.grammars

/-- The context that is searched is that of a situation whose ends are open. -/
theorem contextOf (h : s.Fits engine r a) : ∃ situation : Situation,
    (s.tokenizer.contextOf a).entries = r.entriesFor situation ∧
      ∀ e ∈ situation.ends, IsOpenEnd a.frames e.distance e.source := by
  have hframes := h.frames
  rw [Tokenizer.contextOf, OpenSpans.top?]
  cases ha : a.frames with
  | nil =>
    obtain ⟨w, hfitting, hat⟩ := h
    obtain ⟨K, hsound⟩ := hfitting.sound
    refine ⟨.root s.tokenizer.base, ?_, fun e he => (List.not_mem_nil he).elim⟩
    rw [← hfitting.grammars.entriesFor_eq]
    exact (hsound.tokenizers _ hat.tokenizer).rootCurrent
  | cons f outer =>
    obtain ⟨⟨situation, hentries, hends⟩, hopen, _⟩ := hframes f outer (ha ▸ List.suffix_rfl)
    exact ⟨situation, hentries, hends ▸ hopen⟩

/-- A candidate that closes a frame is an end of the stack. -/
theorem isOpenEnd_of_closing (h : s.Fits engine r a) {distance : Nat}
    (hmem : (.closing distance, source) ∈ (s.tokenizer.contextOf a).entries) :
    IsOpenEnd a.frames distance source := by
  obtain ⟨situation, hentries, hopen⟩ := h.contextOf
  rw [hentries] at hmem
  obtain ⟨e, he, heq⟩ := List.mem_map.1 (Registry.mem_ends_of_closing hmem)
  cases heq
  exact hopen e he

/-- Every candidate of the context that is searched has an effect. -/
theorem effect? (h : s.Fits engine r a) (hmem : (c, source) ∈ (s.tokenizer.contextOf a).entries) :
    ∃ e, s.registry.effect? a.frames (some c) = some e := by
  rw [h.sameGrammars.effect?_eq]
  cases c with
  | closing distance => exact h.frames.effect?_of_isOpenEnd (h.isOpenEnd_of_closing hmem)
  | rule rule =>
    obtain ⟨situation, hentries, _⟩ := h.contextOf
    rw [hentries] at hmem
    exact Registry.effect?_of_mem_contentRules _ (Registry.mem_contentRules_of_rule hmem)

/-- A search answers the number of a candidate. -/
theorem lt_of_search (h : s.Fits engine r a) (hs : s.Numbered) (anchors : Anchoring) (t : Subject)
    (pos : Nat) : ∀ i m,
      ((SessionM.searchContext engine (s.tokenizer.contextOf a) anchors t pos).run s).1 =
        some (i, m) → i < (s.tokenizer.contextOf a).length := by
  intro i m hsearch
  obtain ⟨w, hfitting, hat⟩ := h
  obtain ⟨K, hsound⟩ := hfitting.sound
  rw [hsound.searchContext hat hs, ContextGroup.search_build_eq] at hsearch
  obtain ⟨source, hmem⟩ := engine.mem_of_winner hsearch
  obtain ⟨⟨source', i'⟩, hentry, heq⟩ := List.mem_map.1 hmem
  cases heq
  have hlt := (List.getElem?_eq_some_iff.1 (List.mem_zipIdx_iff_getElem?.1 hentry)).1
  rwa [Context.sources, List.length_map] at hlt

/-- What a search answers has an effect. -/
theorem effect?_of_search (h : s.Fits engine r a) (hs : s.Numbered) (anchors : Anchoring)
    (t : Subject) (pos : Nat) : ∀ i m,
      ((SessionM.searchContext engine (s.tokenizer.contextOf a) anchors t pos).run s).1 =
        some (i, m) →
      ∃ e, s.registry.effect? a.frames ((s.tokenizer.contextOf a).candidate? i) = some e := by
  intro i m hsearch
  have hlt := h.lt_of_search hs anchors t pos i m hsearch
  obtain ⟨e, he⟩ := h.effect? (List.getElem_mem hlt)
  refine ⟨e, ?_⟩
  rw [Context.candidate?, List.getElem?_eq_getElem hlt]
  exact he

end Session.Fits

end ScopeGrammar
