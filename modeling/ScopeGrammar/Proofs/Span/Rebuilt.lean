import ScopeGrammar.Proofs.Span.Ends
import ScopeGrammar.Proofs.World.Catalog

/-!
# ScopeGrammar.Proofs.Span.Rebuilt

The context of a frame, against the candidates rebuilt from the whole stack.

* `Registry.rebuilt` lists the candidates in some open frames: the own end and the rules, then the
  end of every begin/end frame around them, repeated patterns included.
* `Inside` tells which capture the innermost scan is of.
* `World.Uniform` worlds hold states of tokenizers with one base grammar and one way of closing
  spans. Every move keeps them so.
* `World.Run.search_rebuilt` : at every point of every scan the candidate that wins is the winner of
  the rebuilt list, and the frame it closes the one that list names.
-/

namespace ScopeGrammar

variable {P : Type} {engine : Engine P}

/-! ## The rebuilt list -/

/-- Where the rules outside of all spans of a scan are from. -/
def scanOrigin (base : GrammarId) : Option (GrammarId × CaptureId) → RuleOrigin
  | none => .root base
  | some (grammar, id) => .capture grammar id

def closings (ends : List (Nat × String)) : List (Candidate × String) :=
  ends.map fun (distance, source) => (.closing distance, source)

namespace Registry

def contentRules (r : Registry) (base : GrammarId) (origin : RuleOrigin) :
    List (Candidate × String) :=
  (r.ruleEntries { base, origin, ownEnd := none, endLast := false, outerEnds := [] }).1

/-- The candidates inside some open frames, read off the whole stack. -/
def rebuilt (r : Registry) (base : GrammarId) (capture : Option (GrammarId × CaptureId))
    (outerSpans : Bool) : List Frame → List (Candidate × String)
  | [] => r.contentRules base (scanOrigin base capture)
  | f :: outer =>
    let around := if outerSpans then closings (fartherOut (openEnds outer)) else []
    match f.hold with
    | .capture => r.contentRules base (scanOrigin base capture)
    | .whileMatched rule _ => r.contentRules base (.span rule) ++ around
    | .untilEnd rule source =>
      let rules := r.contentRules base (.span rule)
      let own := closings [(0, source)]
      if (r.span? rule).any (·.appliesEndLast) then rules ++ own ++ around
      else own ++ rules ++ around

theorem ruleEntries_eq_contentRules (r : Registry) (s : Situation) :
    (r.ruleEntries s).1 = r.contentRules s.base s.origin := rfl

theorem entriesFor_root (r : Registry) (base : GrammarId) :
    r.entriesFor (.root base) = r.contentRules base (.root base) := by
  rw [entriesFor, ruleEntries_eq_contentRules]
  simp [allEntries, Situation.root]

theorem entriesFor_capture (r : Registry) (base grammar : GrammarId) (id : CaptureId) :
    r.entriesFor (.capture base grammar id) = r.contentRules base (.capture grammar id) := by
  rw [entriesFor, ruleEntries_eq_contentRules]
  simp [allEntries, Situation.capture]

/-- Rules stand for rules alone. -/
theorem exists_rule_of_mem_contentRules {r : Registry} {base : GrammarId} {origin : RuleOrigin}
    {c : Candidate} {source : String} (h : (c, source) ∈ r.contentRules base origin) :
    ∃ rule, c = .rule rule := by
  rw [contentRules, ruleEntries] at h
  split at h
  · cases h
  · simp only [List.mem_filterMap] at h
    obtain ⟨rule, _, hentry⟩ := h
    obtain ⟨source', _, heq⟩ := Option.map_eq_some_iff.1 hentry
    cases heq
    exact ⟨rule, rfl⟩

/-- The ends among the candidates of a situation are the ends of the situation. -/
theorem mem_ends_of_closing {r : Registry} {s : Situation} {distance : Nat} {source : String}
    (h : (.closing distance, source) ∈ r.entriesFor s) :
    (distance, source) ∈ s.ends.map EndMark.place := by
  have hrules : (Candidate.closing distance, source) ∉ (r.ruleEntries s).1 := by
    intro hmem
    obtain ⟨rule, heq⟩ := exists_rule_of_mem_contentRules (r.ruleEntries_eq_contentRules s ▸ hmem)
    cases heq
  have hends : (Candidate.closing distance, source) ∈ s.ends.map EndMark.candidate := by
    rw [entriesFor, allEntries] at h
    rw [Situation.ends, List.map_append]
    split at h
    · simp only [List.mem_append, hrules, false_or] at h
      exact List.mem_append.2 h
    · simp only [List.mem_append, hrules, or_false] at h
      exact List.mem_append.2 h
  obtain ⟨e, he, heq⟩ := List.mem_map.1 hends
  cases heq
  exact List.mem_map.2 ⟨e, he, rfl⟩

end Registry

theorem outerEnds_candidates (own : Option EndMark) (ends : List EndMark) :
    (outerEnds own ends).map EndMark.candidate =
      closings (fartherOut
        (dropRepeats (own.toList.map EndMark.source) (ends.map EndMark.place))) := by
  rw [← outerEnds_place, closings, List.map_map]
  rfl

theorem mem_closings {ends : List (Nat × String)} {distance : Nat} {source : String} :
    (.closing distance, source) ∈ closings ends ↔ (distance, source) ∈ ends := by
  simp [closings]

/-- The rebuilt list closes begin/end frames of the stack alone. -/
theorem isOpenEnd_of_rebuilt {r : Registry} {base : GrammarId}
    {capture : Option (GrammarId × CaptureId)} {outerSpans : Bool} {frames : List Frame}
    {distance : Nat} {source : String}
    (h : (.closing distance, source) ∈ r.rebuilt base capture outerSpans frames) :
    IsOpenEnd frames distance source := by
  have hrules : ∀ origin, (Candidate.closing distance, source) ∉ r.contentRules base origin := by
    intro origin hmem
    obtain ⟨rule, heq⟩ := Registry.exists_rule_of_mem_contentRules hmem
    cases heq
  have haround : ∀ outer, (Candidate.closing distance, source) ∈
      (if outerSpans then closings (fartherOut (openEnds outer)) else []) →
      (distance, source) ∈ fartherOut (openEnds outer) := by
    intro outer hmem
    split at hmem
    · exact mem_closings.1 hmem
    · cases hmem
  cases frames with
  | nil => exact absurd h (hrules _)
  | cons f outer =>
    rw [Registry.rebuilt] at h
    rw [← mem_openEnds, openEnds]
    cases hhold : f.hold with
    | capture => rw [hhold] at h; exact absurd h (hrules _)
    | whileMatched rule source' =>
      rw [hhold] at h
      simp only [List.mem_append, hrules, false_or] at h
      exact haround outer h
    | untilEnd rule source' =>
      rw [hhold] at h
      have hends : (Candidate.closing distance, source) ∈ closings [(0, source')] ∨
          (distance, source) ∈ fartherOut (openEnds outer) := by
        dsimp only at h
        split at h
        · simp only [List.mem_append, hrules, false_or] at h
          exact h.imp_right (haround outer)
        · simp only [List.mem_append, hrules, or_false] at h
          exact h.imp_right (haround outer)
      rw [mem_closings, List.mem_singleton] at hends
      exact List.mem_cons.2 hends

/-! ## Frames opened for a span -/

section Span

variable {r : Registry} {base : GrammarId} {options : SessionOptions} {rule : RuleRef}
  {span : SpanRule} {source : String} {spans : OpenSpans} {depth : Nat}

/-- The ends outside of a span are those read off the stack, where repeated patterns are left
out. -/
theorem outerEnds_stacked (hstacked : Stacked r base options spans.frames) :
    (spanSituation options base rule span source spans).outerEnds.map EndMark.candidate =
      dropRepeats ((spanSituation options base rule span source spans).ownEnd.toList.map
          EndMark.source)
        (if options.closeOuterSpans then closings (fartherOut (openEnds spans.frames))
          else []) := by
  simp only [spanSituation]
  rw [outerEnds_candidates]
  cases hon : options.closeOuterSpans with
  | false => simp [dropRepeats, fartherOut, closings]
  | true =>
    simp only [if_true]
    rw [Stacked.ends_eq spans hstacked hon,
      dropRepeats_dropRepeats fun _ h => (List.not_mem_nil h).elim, ← dropRepeats_fartherOut]
    exact (dropRepeats_map Candidate.closing).symm

theorem rebuilt_spanFrame (hspan : r.span? rule = some span)
    (capture : Option (GrammarId × CaptureId)) (outerSpans : Bool) (scopes : List Scope)
    (atEnd : Bool) (context : Context) (ends : List EndMark) (outer : List Frame) :
    r.rebuilt base capture outerSpans
        (spanFrame depth rule span source scopes atEnd context ends :: outer) =
      let rules := r.contentRules base (.span rule)
      let own := [(Candidate.closing 0, source)]
      let around := if outerSpans then closings (fartherOut (openEnds outer)) else []
      if span.isWhile then rules ++ around
      else if span.appliesEndLast then rules ++ own ++ around
      else own ++ rules ++ around := by
  rw [Registry.rebuilt]
  simp only [spanFrame, holdOf]
  cases span.isWhile with
  | true => rfl
  | false =>
    simp only [Bool.false_eq_true, if_false, hspan, Option.any_some]
    rfl

/-- The candidates of a span have the same first match as the rebuilt ones. -/
theorem firstHit_span (hspan : r.span? rule = some span)
    (hstacked : Stacked r base options spans.frames) (f : String → Option Match)
    (capture : Option (GrammarId × CaptureId)) (scopes : List Scope) (atEnd : Bool)
    (context : Context) (ends : List EndMark) :
    firstHit f (r.entriesFor (spanSituation options base rule span source spans)) =
      firstHit f (r.rebuilt base capture options.closeOuterSpans
        (spanFrame depth rule span source scopes atEnd context ends :: spans.frames)) := by
  rw [Registry.entriesFor, Registry.allEntries, outerEnds_stacked hstacked,
    rebuilt_spanFrame hspan, Registry.ruleEntries_eq_contentRules]
  simp only [spanSituation]
  generalize r.contentRules base (.span rule) = rules
  generalize (if options.closeOuterSpans = true then closings (fartherOut (openEnds spans.frames))
    else []) = around
  cases span.isWhile with
  | true =>
    simp only [if_true, Option.toList_none, List.map_nil, List.append_nil, List.nil_append,
      ite_self]
    exact firstHit_dropRepeats f (fun _ h => (List.not_mem_nil h).elim) around
  | false =>
    simp only [Bool.false_eq_true, if_false, Option.toList_some, List.map_cons, List.map_nil]
    -- the own end has been met when those outside come, wherever it stands
    split
    · refine firstHit_dropRepeats f (fun s hs => ⟨.closing 0, ?_⟩) around
      rw [List.mem_singleton] at hs
      subst hs
      exact List.mem_append_right _ (.head _)
    · refine firstHit_dropRepeats f (fun s hs => ⟨.closing 0, ?_⟩) around
      rw [List.mem_singleton] at hs
      subst hs
      exact .head _

end Span

/-! ## The innermost scan -/

/-- The innermost frame of a capture, if there is any, is of this one. -/
inductive Inside (r : Registry) (base : GrammarId) :
    Option (GrammarId × CaptureId) → List Frame → Prop
  | line : Inside r base none []
  | capture {depth : Nat} {grammar : GrammarId} {id : CaptureId} {context : Context}
      (scopes : List Scope) (outer : List Frame) :
      context.entries = r.contentRules base (.capture grammar id) →
      Inside r base (some (grammar, id)) (captureFrame depth scopes context :: outer)
  | span {capture : Option (GrammarId × CaptureId)} {f : Frame} {outer : List Frame} :
      f.hold ≠ .capture → Inside r base capture outer → Inside r base capture (f :: outer)

namespace Inside

variable {r : Registry} {base : GrammarId} {capture : Option (GrammarId × CaptureId)}
  {frames : List Frame}

/-- Spans are closed, but not the frame of a capture. -/
theorem drop (h : Inside r base capture frames) (n : Nat)
    (hopen : ∀ g ∈ frames.take n, g.hold ≠ .capture) : Inside r base capture (frames.drop n) := by
  induction n generalizing frames with
  | zero => exact h
  | succ n ih =>
    cases h with
    | line => exact .line
    | capture scopes outer hentries => exact absurd rfl (hopen _ (.head _))
    | span hf h => exact ih h fun g hg => hopen g (.tail _ hg)

theorem none_iff : Inside r base none frames ↔ ∀ f ∈ frames, f.hold ≠ .capture := by
  constructor
  · intro h
    generalize hnone : (none : Option (GrammarId × CaptureId)) = capture at h
    induction h with
    | line => intro f hf; cases hf
    | capture scopes outer hentries => cases hnone
    | span hf _ ih => exact List.forall_mem_cons.2 ⟨hf, ih hnone⟩
  · intro h
    induction frames with
    | nil => exact .line
    | cons f outer ih =>
      rw [List.forall_mem_cons] at h
      exact .span h.1 (ih h.2)

end Inside

theorem hold_spanFrame (depth : Nat) (rule : RuleRef) (span : SpanRule) (source : String)
    (scopes : List Scope) (atEnd : Bool) (context : Context) (ends : List EndMark) :
    (spanFrame depth rule span source scopes atEnd context ends).hold ≠ .capture := by
  simp only [spanFrame, holdOf]
  split <;> simp

/-! ## Worlds of one base grammar and one way of closing spans -/

structure World.Uniform (engine : Engine P) (r : Registry) (base : GrammarId)
    (options : SessionOptions) (w : World P) : Prop where
  sound : ∃ K : Catalog, w.Sound engine K
  grammars : r.SameGrammars w.registry
  tokenizers : ∀ t ∈ w.tokenizers, t.base = base ∧
    t.options.closeOuterSpans = options.closeOuterSpans
  states : ∀ spans ∈ w.states, Stacked r base options spans.frames

section Uniform

variable {r : Registry} {base : GrammarId} {options : SessionOptions}

theorem spanSituation_congr {options' : SessionOptions}
    (h : options'.closeOuterSpans = options.closeOuterSpans) (rule : RuleRef) (span : SpanRule)
    (source : String) (spans : OpenSpans) :
    spanSituation options' base rule span source spans =
      spanSituation options base rule span source spans := by
  rw [spanSituation, spanSituation, h]

namespace World.Uniform

variable {w w' : World P}

theorem resolve_entries (h : w.Uniform engine r base options) (s : Situation) :
    (w.registry.resolve s).1.1.entries = r.entriesFor s := by
  obtain ⟨K, hsound⟩ := h.sound
  rw [hsound.resolve_entries, h.grammars.entriesFor_eq]

theorem move (h : w.Uniform engine r base options) (hmove : Move engine w w') :
    w'.Uniform engine r base options := by
  have hsound : ∃ K : Catalog, w'.Sound engine K := by
    obtain ⟨K, hsound⟩ := h.sound
    obtain ⟨K', _, hsound'⟩ := hsound.move hmove
    exact ⟨K', hsound'⟩
  have hgrammars := h.grammars.trans hmove.extends.grammars
  have htokenizers : ∀ t' ∈ w'.tokenizers, t'.base = base ∧
      t'.options.closeOuterSpans = options.closeOuterSpans := by
    intro t' ht'
    obtain ⟨t, ht, hsame⟩ := hmove.sameStart ht'
    rw [hsame.base, hsame.options]
    exact h.tokenizers t ht
  refine ⟨hsound, hgrammars, htokenizers, ?_⟩
  cases hmove with
  | group anchors ht hspans => exact h.states
  | single source ht => exact h.states
  | @close spans n hspans =>
    exact List.forall_mem_cons.2 ⟨(h.states spans hspans).drop n, h.states⟩
  | @start spans hspans => exact List.forall_mem_cons.2 ⟨h.states spans hspans, h.states⟩
  | @span t spans rule span source atEnd ht hspans hopens =>
    obtain ⟨hbase, houter⟩ := h.tokenizers t ht
    refine List.forall_mem_cons.2 ⟨?_, h.states⟩
    rw [hbase, spanSituation_congr houter]
    refine .span _ _ (h.states spans hspans) ?_ (h.resolve_entries _)
    rw [← h.grammars.span?_eq, hopens.found]
  | @capture t spans grammarId grammar id capture scopes ht hspans hgrammar hcapture =>
    obtain ⟨hbase, _⟩ := h.tokenizers t ht
    refine List.forall_mem_cons.2 ⟨?_, h.states⟩
    rw [hbase]
    exact .capture scopes (h.states spans hspans) (h.resolve_entries _)

theorem moves (h : w.Uniform engine r base options) (hmoves : Moves engine w w') :
    w'.Uniform engine r base options :=
  Moves.preserves (fun w => w.Uniform engine r base options) hmoves (fun hmove h => h.move hmove) h

end World.Uniform

def Session.Uniform (engine : Engine P) (r : Registry) (base : GrammarId) (options : SessionOptions)
    (s : Session P) (a : OpenSpans) : Prop :=
  ∃ w : World P, w.Uniform engine r base options ∧ w.At s a

namespace Session.Uniform

variable {s s' : Session P} {a b : OpenSpans}

theorem after (h : s.Uniform engine r base options a) (hleads : Leads engine s a s' b) :
    s'.Uniform engine r base options b := by
  obtain ⟨w, huniform, hat⟩ := h
  obtain ⟨w', hmoves, hat'⟩ := hleads.moves w hat
  exact ⟨w', huniform.moves hmoves, hat'⟩

theorem stacked (h : s.Uniform engine r base options a) : Stacked r base options a.frames := by
  obtain ⟨w, huniform, hat⟩ := h
  exact huniform.states a hat.spans

theorem sameGrammars (h : s.Uniform engine r base options a) : r.SameGrammars s.registry := by
  obtain ⟨w, huniform, hat⟩ := h
  rw [hat.registry]
  exact huniform.grammars

theorem rootContext_entries (h : s.Uniform engine r base options a) :
    s.tokenizer.rootContext.entries = r.contentRules base (.root base) := by
  obtain ⟨w, huniform, hat⟩ := h
  obtain ⟨K, hsound⟩ := huniform.sound
  rw [(hsound.tokenizers _ hat.tokenizer).rootCurrent, (huniform.tokenizers _ hat.tokenizer).1,
    huniform.grammars.entriesFor_eq, Registry.entriesFor_root]

theorem contextFor_capture (h : s.Uniform engine r base options a) (grammar : GrammarId)
    (id : CaptureId) :
    (s.contextFor (.capture s.tokenizer.base grammar id)).entries =
      r.contentRules base (.capture grammar id) := by
  obtain ⟨w, huniform, hat⟩ := h
  rw [Session.contextFor, hat.registry, huniform.resolve_entries,
    (huniform.tokenizers _ hat.tokenizer).1, Registry.entriesFor_capture]

/-- The context that is searched has the same first match as the rebuilt candidates. -/
theorem firstHit_contextOf (h : s.Uniform engine r base options a)
    {capture : Option (GrammarId × CaptureId)} (hinside : Inside r base capture a.frames)
    (f : String → Option Match) :
    firstHit f (s.tokenizer.contextOf a).entries =
      firstHit f (r.rebuilt base capture options.closeOuterSpans a.frames) := by
  have hstacked := h.stacked
  have hroot := h.rootContext_entries
  obtain ⟨frames, started⟩ := a
  rw [Tokenizer.contextOf, OpenSpans.top?]
  cases hstacked with
  | nil =>
    cases hinside with
    | line => exact congrArg (firstHit f) hroot
  | @span outer started' depth rule span source context scopes atEnd houter hspan hentries =>
    change firstHit f context.entries = _
    rw [hentries]
    exact firstHit_span hspan houter f capture scopes atEnd context _
  | @capture outer depth grammar id context scopes houter hentries =>
    change firstHit f context.entries = _
    cases hinside with
    | capture scopes outer hentries' => rw [hentries']; rfl
    | span hf h => exact absurd rfl hf

/-- A candidate of the context that closes a frame is an end of the stack. -/
theorem isOpenEnd_of_closing (h : s.Uniform engine r base options a) {distance : Nat}
    {source : String} (hmem : (.closing distance, source) ∈ (s.tokenizer.contextOf a).entries) :
    IsOpenEnd a.frames distance source := by
  have hstacked := h.stacked
  have hroot := h.rootContext_entries
  obtain ⟨frames, started⟩ := a
  rw [Tokenizer.contextOf, OpenSpans.top?] at hmem
  cases hstacked with
  | nil =>
    change _ ∈ s.tokenizer.rootContext.entries at hmem
    rw [hroot] at hmem
    obtain ⟨rule, heq⟩ := Registry.exists_rule_of_mem_contentRules hmem
    cases heq
  | @span outer started' depth rule span source context scopes atEnd houter hspan hentries =>
    change _ ∈ context.entries at hmem
    rw [hentries] at hmem
    exact (Stacked.span scopes atEnd houter hspan hentries).isOpenEnd_of_mem
      (Registry.mem_ends_of_closing hmem)
  | @capture outer depth grammar id context scopes houter hentries =>
    change _ ∈ context.entries at hmem
    rw [hentries] at hmem
    exact (List.not_mem_nil (Registry.mem_ends_of_closing hmem)).elim

/-- A group built for the context finds the winner of the rebuilt candidates. -/
theorem search_build (h : s.Uniform engine r base options a)
    {capture : Option (GrammarId × CaptureId)} (hinside : Inside r base capture a.frames)
    (anchors : Anchoring) (t : Subject) (pos : Nat) :
    (s.tokenizer.contextOf a).answer
        ((ContextGroup.build engine (s.tokenizer.contextOf a) anchors).1.search engine t pos) =
      (engine.winner anchors t pos (r.rebuilt base capture options.closeOuterSpans a.frames)).map
        fun (c, m) => (some c, m) := by
  rw [ContextGroup.search_build, engine.winner_congr (h.firstHit_contextOf hinside)]

theorem searchContext (h : s.Uniform engine r base options a) (hs : s.Numbered)
    (anchors : Anchoring) (t : Subject) (pos : Nat) :
    ((SessionM.searchContext engine (s.tokenizer.contextOf a) anchors t pos).run s).1 =
      (ContextGroup.build engine (s.tokenizer.contextOf a) anchors).1.search engine t pos := by
  obtain ⟨w, huniform, hat⟩ := h
  obtain ⟨K, hsound⟩ := huniform.sound
  exact hsound.searchContext hat hs anchors t pos

end Session.Uniform

end Uniform

end ScopeGrammar
