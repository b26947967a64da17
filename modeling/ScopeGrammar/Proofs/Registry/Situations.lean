import Mathlib.Data.List.Nodup
import Mathlib.Data.List.Perm.Subperm
import ScopeGrammar.Proofs.Context.Store
import ScopeGrammar.Proofs.Span.Ends
import ScopeGrammar.Proofs.World.History

/-!
# ScopeGrammar.Proofs.Registry.Situations

The situations that lines lead to.

* `Registry.situations` lists the situations that can come up in a registry, from its grammars alone
  and a limit on the number of frames that an end closes.
* `World.Tokenized` worlds come from starting tokenizers and tokenizing lines, with nothing else
  resolved in between.
* `World.Written` : what such a world keeps is in these lists.
* `World.Tokenized.countP_le` : so the contexts whose ends are within a limit are bounded by the
  grammars. Where outer spans are not closed these are all of them
  (`World.Tokenized.contextCount_le`).
-/

namespace ScopeGrammar

variable {P : Type} {engine : Engine P}

/-! ## All situations within a limit -/

/-- The lists of at most so many of the letters. -/
def words {α : Type} (letters : List α) : Nat → List (List α)
  | 0 => [[]]
  | n + 1 => [] :: letters.flatMap fun a => (words letters n).map (a :: ·)

theorem mem_words {α : Type} {letters l : List α} {n : Nat} (hl : ∀ a ∈ l, a ∈ letters)
    (hn : l.length ≤ n) : l ∈ words letters n := by
  induction n generalizing l with
  | zero => rw [List.length_eq_zero_iff.1 (Nat.le_zero.1 hn)]; exact .head _
  | succ n ih =>
    cases l with
    | nil => exact .head _
    | cons a l =>
      rw [List.forall_mem_cons] at hl
      refine .tail _ (List.mem_flatMap.2 ⟨a, hl.1, List.mem_map_of_mem (ih hl.2 ?_)⟩)
      exact Nat.le_of_succ_le_succ hn

namespace Registry

def bases (r : Registry) : List GrammarId := r.ids.map (·.2)

/-- All numbers below a count, for each grammar. -/
def numbers (r : Registry) (count : Grammar → Nat) : List (GrammarId × UInt32) :=
  (List.range r.grammars.size).flatMap fun i =>
    (List.range ((r.grammars[i]?.map count).getD 0)).map fun j => (⟨i.toUInt16⟩, j.toUInt32)

def ruleRefs (r : Registry) : List RuleRef :=
  (r.numbers (·.rules.size)).map fun (g, j) => ⟨g, ⟨j⟩⟩

/-- The closing pattern of a span as it is written in the grammar. -/
def closingPattern? (r : Registry) (rule : RuleRef) : Option String :=
  (r.grammar? rule.grammar).bind fun g => (g.span? rule.rule).map fun s => g.pattern s.closePattern

def closingPatterns (r : Registry) : List String := r.ruleRefs.filterMap r.closingPattern?

def endMarks (r : Registry) (limit : Nat) : List EndMark :=
  r.closingPatterns.flatMap fun source =>
    (List.range limit).map fun distance => ⟨distance, source, false⟩

/-- The situations inside a span. No two ends have the same pattern. -/
def spanSituations (r : Registry) (base : GrammarId) (limit : Nat) (rule : RuleRef) :
    List Situation :=
  match r.span? rule, r.closingPattern? rule with
  | some span, some source =>
    (words (r.endMarks limit) r.closingPatterns.length).map fun outerEnds =>
      { base, origin := .span rule
        ownEnd := if span.isWhile then none else some ⟨0, source, false⟩
        endLast := span.appliesEndLast
        outerEnds }
  | _, _ => []

/-- The situations in which no end closes as many frames as the limit. -/
def situations (r : Registry) (limit : Nat) : List Situation :=
  r.bases.flatMap fun base =>
    .root base :: (r.numbers (·.captures.size)).map (fun (g, id) => .capture base g ⟨id⟩) ++
      r.ruleRefs.flatMap (r.spanSituations base limit)

variable {r : Registry} {base : GrammarId} {limit : Nat}

theorem mem_numbers {count : Grammar → Nat} {id : GrammarId} {grammar : Grammar} {j : UInt32}
    (hgrammar : r.grammar? id = some grammar) (hj : j.toNat < count grammar) :
    (id, j) ∈ r.numbers count := by
  have hindex : id.index < r.grammars.size := (Array.getElem?_eq_some_iff.1 hgrammar).1
  refine List.mem_flatMap.2 ⟨id.index, List.mem_range.2 hindex, List.mem_map.2 ⟨j.toNat, ?_, ?_⟩⟩
  · rw [grammar?] at hgrammar
    rw [hgrammar]
    exact List.mem_range.2 hj
  · simp [GrammarId.index]

theorem mem_ruleRefs_of_span? {rule : RuleRef} {span : SpanRule} (h : r.span? rule = some span) :
    rule ∈ r.ruleRefs := by
  obtain ⟨grammar, hgrammar, hspan⟩ := Option.bind_eq_some_iff.1 h
  have hrule : grammar.rule? rule.rule = some (.span span) := by
    rw [Grammar.span?] at hspan
    split at hspan
    · next hrule => cases hspan; exact hrule
    · cases hspan
  have hlt : rule.rule.index < grammar.rules.size := (Array.getElem?_eq_some_iff.1 hrule).1
  exact List.mem_map.2 ⟨(rule.grammar, rule.rule.val), mem_numbers hgrammar hlt, rfl⟩

theorem closingPattern?_of_span? {rule : RuleRef} {grammar : Grammar} {span : SpanRule}
    (hgrammar : r.grammar? rule.grammar = some grammar) (hspan : r.span? rule = some span) :
    r.closingPattern? rule = some (grammar.pattern span.closePattern) := by
  rw [span?, hgrammar, Option.bind_some] at hspan
  rw [closingPattern?, hgrammar, Option.bind_some, hspan, Option.map_some]

theorem root_mem (hbase : base ∈ r.bases) : .root base ∈ r.situations limit :=
  List.mem_flatMap.2 ⟨base, hbase, .head _⟩

theorem capture_mem (hbase : base ∈ r.bases) {grammarId : GrammarId} {grammar : Grammar}
    {id : CaptureId} {capture : Capture} (hgrammar : r.grammar? grammarId = some grammar)
    (hcapture : grammar.capture? id = some capture) :
    .capture base grammarId id ∈ r.situations limit := by
  have hlt : id.index < grammar.captures.size := (Array.getElem?_eq_some_iff.1 hcapture).1
  have hnumber : (grammarId, id.val) ∈ r.numbers (·.captures.size) := mem_numbers hgrammar hlt
  exact List.mem_flatMap.2 ⟨base, hbase, List.mem_append_left _ (.tail _
    (List.mem_map.2 ⟨_, hnumber, rfl⟩))⟩

/-! ## Ends that are written in the grammars -/

/-- The ends have different patterns, which are written in the grammars unless they are filled
in. -/
structure WrittenEnds (r : Registry) (ends : List EndMark) : Prop where
  written : ∀ e ∈ ends, e.filled = false → e.source ∈ r.closingPatterns
  distinct : (ends.map EndMark.source).Nodup

namespace WrittenEnds

theorem nil (r : Registry) : r.WrittenEnds [] :=
  ⟨fun _ he => (List.not_mem_nil he).elim, .nil⟩

theorem of_append_right {own outer : List EndMark} (h : r.WrittenEnds (own ++ outer)) :
    r.WrittenEnds outer := by
  have hdistinct := h.distinct
  rw [List.map_append] at hdistinct
  exact ⟨fun e he => h.written e (List.mem_append_right _ he), hdistinct.of_append_right⟩

/-- There are no more such ends than closing patterns. -/
theorem mem_words {ends : List EndMark} (h : r.WrittenEnds ends)
    (hunfilled : ∀ e ∈ ends, e.filled = false) (hlimit : ∀ e ∈ ends, e.distance < limit) :
    ends ∈ words (r.endMarks limit) r.closingPatterns.length := by
  have hsources : ends.map EndMark.source ⊆ r.closingPatterns := by
    intro source hsource
    obtain ⟨e, he, rfl⟩ := List.mem_map.1 hsource
    exact h.written e he (hunfilled e he)
  have hlength := (h.distinct.subperm hsources).length_le
  rw [List.length_map] at hlength
  refine ScopeGrammar.mem_words (fun e he => ?_) hlength
  have hmark : (⟨e.distance, e.source, false⟩ : EndMark) ∈ r.endMarks limit :=
    List.mem_flatMap.2 ⟨e.source, h.written e he (hunfilled e he),
      List.mem_map_of_mem (List.mem_range.2 (hlimit e he))⟩
  rwa [← hunfilled e he] at hmark

end WrittenEnds

end Registry

theorem mem_of_mem_outerEnds {own : Option EndMark} {ends : List EndMark} {e : EndMark}
    (h : e ∈ outerEnds own ends) : ∃ e' ∈ ends, e = { e' with distance := e'.distance + 1 } := by
  have hall : ∀ e ∈ outerEnds own ends,
      ∃ e' ∈ ends, e = { e' with distance := e'.distance + 1 } := by
    refine List.foldlRecOn (motive := fun outer : List EndMark => ∀ e ∈ outer, ∃ e' ∈ ends,
      e = { e' with distance := e'.distance + 1 }) _ _ (fun e he => (List.not_mem_nil he).elim) ?_
    intro outer houter e' he' e he
    split at he
    · exact houter e he
    · obtain he | he := List.mem_append.1 he
      · exact houter e he
      · exact ⟨e', he', List.mem_singleton.1 he⟩
  exact hall e h

theorem nodup_outerEnds (own : Option EndMark) (ends : List EndMark) :
    ((own.toList ++ outerEnds own ends).map EndMark.source).Nodup := by
  refine List.foldlRecOn (motive := fun outer : List EndMark =>
    ((own.toList ++ outer).map EndMark.source).Nodup) _ _ ?_ ?_
  · cases own <;> simp
  · intro outer houter e _
    split
    · exact houter
    · next hnew =>
      have hsource : e.source ∉ (own.toList ++ outer).map EndMark.source :=
        fun hmem => hnew (any_source_iff.2 hmem)
      rw [← List.append_assoc, List.map_append]
      refine List.Nodup.append houter (List.nodup_singleton _) ?_
      simpa using hsource

section Opening

variable {r : Registry} {rule : RuleRef} {span : SpanRule} {source : String}

/-- The closing pattern of a span that does not fill it in is the one of its rule. -/
theorem World.Opens.closingPattern? (h : World.Opens r rule span source)
    (hfilled : span.fillsEnding = false) : r.closingPattern? rule = some source := by
  obtain ⟨hspan, grammar, text, m, hgrammar, rfl⟩ := h
  rw [Registry.closingPattern?_of_span? hgrammar hspan, closingSource, hfilled]
  rfl

variable {spans : OpenSpans} {base : GrammarId} {options : SessionOptions}

theorem Registry.WrittenEnds.opening
    (hends : r.WrittenEnds ((spans.top?.map (·.ends)).getD []))
    (hopens : World.Opens r rule span source) :
    r.WrittenEnds (spanSituation options base rule span source spans).ends := by
  refine ⟨fun e he hfilled => ?_, nodup_outerEnds _ _⟩
  obtain he | he := List.mem_append.1 he
  · rw [spanSituation] at he
    dsimp only at he
    split at he
    · cases he
    · rw [Option.toList_some, List.mem_singleton] at he
      subst he
      exact List.mem_filterMap.2
        ⟨rule, mem_ruleRefs_of_span? hopens.found, hopens.closingPattern? hfilled⟩
  · obtain ⟨e', he', rfl⟩ := mem_of_mem_outerEnds he
    split at he'
    · exact hends.written e' he' hfilled
    · cases he'

/-- Where outer spans are not closed, a span has no end but its own. -/
theorem distance_lt_one {e : EndMark} (hoff : options.closeOuterSpans = false)
    (he : e ∈ (spanSituation options base rule span source spans).ends) : e.distance < 1 := by
  have hends : (spanSituation options base rule span source spans).ends =
      if span.isWhile then [] else [⟨0, source, span.fillsEnding⟩] := by
    rw [Situation.ends]
    simp only [spanSituation, hoff, Bool.false_eq_true, if_false]
    cases span.isWhile <;> rfl
  rw [hends] at he
  split at he
  · cases he
  · rw [List.mem_singleton] at he
    subst he
    exact Nat.one_pos

/-- The situation inside a span is in the list, if it can come up again. -/
theorem Registry.spanSituation_mem (hbase : base ∈ r.bases)
    (hends : r.WrittenEnds ((spans.top?.map (·.ends)).getD []))
    (hopens : World.Opens r rule span source) {limit : Nat}
    (hreusable : (spanSituation options base rule span source spans).isReusable = true)
    (hlimit : ∀ e ∈ (spanSituation options base rule span source spans).ends, e.distance < limit) :
    spanSituation options base rule span source spans ∈ r.situations limit := by
  have hunfilled : ∀ e ∈ (spanSituation options base rule span source spans).ends,
      e.filled = false := by
    simpa [Situation.isReusable] using hreusable
  have houter : (spanSituation options base rule span source spans).outerEnds ∈
      words (r.endMarks limit) r.closingPatterns.length :=
    (hends.opening hopens).of_append_right.mem_words
      (fun e he => hunfilled e (List.mem_append_right _ he))
      (fun e he => hlimit e (List.mem_append_right _ he))
  have hsituation : spanSituation options base rule span source spans ∈
      r.spanSituations base limit rule := by
    obtain ⟨grammar, hgrammar, _⟩ := Option.bind_eq_some_iff.1 hopens.found
    have hclosing := closingPattern?_of_span? hgrammar hopens.found
    rw [spanSituations, hopens.found, hclosing]
    refine List.mem_map.2 ⟨_, houter, ?_⟩
    rw [spanSituation]
    cases hwhile : span.isWhile with
    | true => simp
    | false =>
      have hfilled : span.fillsEnding = false :=
        hunfilled ⟨0, source, span.fillsEnding⟩
          (List.mem_append_left _ (by simp [spanSituation, hwhile]))
      rw [hopens.closingPattern? hfilled, Option.some.injEq] at hclosing
      simp [hclosing, hfilled]
  exact List.mem_flatMap.2 ⟨base, hbase, List.mem_append_right _
    (List.mem_flatMap.2 ⟨rule, mem_ruleRefs_of_span? hopens.found, hsituation⟩)⟩

end Opening

/-! ## Worlds in which lines are tokenized -/

/-- As long as its ends are within a limit, the situation is in the list for it. -/
def Situation.WrittenIn (r : Registry) (s : Situation) : Prop :=
  ∀ limit, (∀ e ∈ s.ends, e.distance < limit) → s ∈ r.situations limit

namespace World

/-- A world in which nothing happened yet. -/
def new (r : Registry) : World P := ⟨r, [], [.fresh]⟩

/-- A tokenizer is started, or has a line. -/
inductive Tokenizes (engine : Engine P) (w : World P) : World P → Prop
  | start {scopeName : String} {base : GrammarId} (options : SessionOptions) :
      w.registry.id? scopeName = some base → Tokenizes engine w (w.started base options)
  | line {t : Tokenizer P} {state : OpenSpans} (line : String) : t ∈ w.tokenizers →
      state ∈ w.states →
      Tokenizes engine w (w.after ((SessionM.tokenizeLine engine line state).run (w.session t)))

/-- What lines can be tokenized to from a registry. -/
abbrev Tokenized (engine : Engine P) (r : Registry) : World P → Prop :=
  Relation.ReflTransGen (Tokenizes engine) (new r)

theorem Tokenizes.use {w w' : World P} (h : Tokenizes engine w w') : Use engine w w' := by
  cases h with
  | start options hid => exact .start options hid
  | line line ht hstate => exact .line line ht hstate

theorem Tokenized.uses {r : Registry} {w : World P} (h : Tokenized engine r w) :
    Uses engine (new r) w :=
  Relation.ReflTransGen.mono (fun _ _ => Tokenizes.use) _ _ h

theorem Tokenized.reachable {g : Grammar} {w : World P}
    (h : Tokenized engine (Registry.empty.add g).2 w) : w.Reachable engine :=
  Reachable.uses (.add g .initial) h.uses

/-- Ends other than the own one are looked for only by a tokenizer that closes outer spans. -/
def Passes (w : World P) (s : Situation) : Prop :=
  (∀ e ∈ s.ends, e.distance < 1) ∨ ∃ t ∈ w.tokenizers, t.options.closeOuterSpans = true

/-- All that is kept comes from what is written in the grammars of a registry. -/
structure Written (r : Registry) (w : World P) : Prop where
  grammars : r.SameGrammars w.registry
  once : w.registry.KeepsOnce
  kept : ∀ {s c}, (s, c) ∈ w.registry.contexts.entries → s.WrittenIn r ∧ w.Passes s
  bases : ∀ t ∈ w.tokenizers, t.base ∈ r.bases
  ends : ∀ spans ∈ w.states, ∀ f ∈ spans.frames, r.WrittenEnds f.ends

namespace Written

variable {r : Registry} {w w' : World P}

theorem withTokenizer (h : w.Written r) {t : Tokenizer P} (hbase : t.base ∈ r.bases) :
    (w.withTokenizer t).Written r := by
  refine ⟨h.grammars, h.once, fun hmem => ?_, List.forall_mem_cons.2 ⟨hbase, h.bases⟩, h.ends⟩
  obtain ⟨hwritten, hpasses⟩ := h.kept hmem
  exact ⟨hwritten, hpasses.imp_right fun ⟨t', ht', hon⟩ => ⟨t', .tail _ ht', hon⟩⟩

theorem withState (h : w.Written r) {spans : OpenSpans}
    (hends : ∀ f ∈ spans.frames, r.WrittenEnds f.ends) : (w.withState spans).Written r :=
  ⟨h.grammars, h.once, h.kept, h.bases, List.forall_mem_cons.2 ⟨hends, h.ends⟩⟩

theorem withRegistry (h : w.Written r) {s : Situation}
    (hs : s.isReusable = true → s.WrittenIn r ∧ w.Passes s) :
    (w.withRegistry (w.registry.resolve s).2).Written r := by
  refine ⟨h.grammars.trans (w.registry.resolve_sameGrammars s), h.once.resolve s, ?_, h.bases,
    h.ends⟩
  intro s' c hmem
  obtain hmem | ⟨hreusable, rfl⟩ := Registry.mem_resolve hmem
  · exact h.kept hmem
  · exact hs hreusable

theorem top_ends (h : w.Written r) {spans : OpenSpans} (hspans : spans ∈ w.states) :
    r.WrittenEnds ((spans.top?.map (·.ends)).getD []) := by
  rw [OpenSpans.top?]
  cases hframes : spans.frames with
  | nil => exact .nil r
  | cons f outer => exact h.ends spans hspans f (hframes ▸ .head _)

theorem opens (h : w.Written r) {rule : RuleRef} {span : SpanRule} {source : String}
    (hopens : Opens w.registry rule span source) : Opens r rule span source := by
  obtain ⟨hspan, grammar, text, m, hgrammar, hsource⟩ := hopens
  rw [h.grammars.span?_eq] at hspan
  rw [h.grammars.grammar?_eq] at hgrammar
  exact ⟨hspan, grammar, text, m, hgrammar, hsource⟩

theorem move (h : w.Written r) (hmove : Move engine w w') : w'.Written r := by
  cases hmove with
  | group anchors ht hspans =>
    have hbase := h.bases _ ht
    exact h.withTokenizer hbase
  | single source ht =>
    have hbase := h.bases _ ht
    exact h.withTokenizer hbase
  | close n hspans =>
    exact h.withState fun f hf => h.ends _ hspans f (List.mem_of_mem_drop hf)
  | start hspans =>
    have hends := h.ends _ hspans
    exact h.withState hends
  | @span t spans rule span source atEnd ht hspans hopens =>
    have hopens := h.opens hopens
    have hends := h.top_ends hspans
    refine (h.withRegistry (s := spanSituation t.options t.base rule span source spans)
      fun hreusable => ⟨fun limit hlimit => ?_, ?_⟩).withState ?_
    · exact Registry.spanSituation_mem (h.bases t ht) hends hopens hreusable hlimit
    · by_cases hon : t.options.closeOuterSpans = true
      · exact .inr ⟨t, ht, hon⟩
      · exact .inl fun e he => distance_lt_one (by simpa using hon) he
    · exact List.forall_mem_cons.2 ⟨hends.opening hopens, h.ends spans hspans⟩
  | @capture t spans grammarId grammar id capture scopes ht hspans hgrammar hcapture =>
    rw [h.grammars.grammar?_eq] at hgrammar
    refine (h.withRegistry (s := .capture t.base grammarId id)
      fun _ => ⟨fun limit _ => ?_, .inl fun e he => (List.not_mem_nil he).elim⟩).withState ?_
    · exact Registry.capture_mem (h.bases t ht) hgrammar hcapture
    · exact List.forall_mem_cons.2 ⟨.nil r, h.ends spans hspans⟩

theorem within (h : w'.Written r) (hwithin : w.Within w')
    (hpasses : ∀ {s}, w'.Passes s → w.Passes s) : w.Written r := by
  refine ⟨hwithin.registry ▸ h.grammars, hwithin.registry ▸ h.once, fun hmem => ?_,
    fun t ht => h.bases t (hwithin.tokenizers ht),
    fun spans hspans => h.ends spans (hwithin.states hspans)⟩
  rw [hwithin.registry] at hmem
  exact (h.kept hmem).imp_right hpasses

theorem tokenizes (h : w.Written r) (htokenizes : Tokenizes engine w w') : w'.Written r := by
  cases htokenizes with
  | @start scopeName base options hid =>
    have hbase : base ∈ r.bases := by
      obtain ⟨before, behind, hids, _⟩ := List.lookup_eq_some_iff.1 hid
      rw [Registry.bases, ← h.grammars.ids, hids]
      simp
    have hroot := h.withRegistry (s := .root base)
      fun _ => ⟨fun limit _ => Registry.root_mem hbase,
        .inl fun e he => (List.not_mem_nil he).elim⟩
    exact hroot.withTokenizer (t := (Tokenizer.start w.registry base options).1.1) hbase
  | line line ht hstate =>
    obtain ⟨u, hmoves, hwithin⟩ := after_within engine (session_at ht hstate) line
    have hu : u.Written r :=
      Moves.preserves (fun u => u.Written r) hmoves (fun hmove hv => hv.move hmove) h
    refine hu.within hwithin fun hpasses => hpasses.imp_right fun ⟨t', ht', hon⟩ => ?_
    -- a tokenizer that appears while a line is tokenized has the options of one from before
    obtain ⟨t₀, ht₀, hsame⟩ := Moves.sameStart hmoves ht'
    exact ⟨t₀, .tail _ ht₀, hsame.options ▸ hon⟩

theorem of_tokenized {r : Registry} (hempty : r.contexts.entries = [])
    (h : Tokenized engine r w) : w.Written r := by
  induction h with
  | refl =>
    refine ⟨.refl r, ?_, fun hmem => ?_, fun t ht => (List.not_mem_nil ht).elim, ?_⟩
    · change (r.contexts.entries.map (·.1)).Nodup
      rw [hempty]
      exact .nil
    · change _ ∈ r.contexts.entries at hmem
      rw [hempty] at hmem
      exact (List.not_mem_nil hmem).elim
    · intro spans hspans f hf
      rw [new, List.mem_singleton] at hspans
      subst hspans
      exact (List.not_mem_nil hf).elim
  | tail _ htokenizes ih => exact ih.tokenizes htokenizes

/-- Situations that are kept and in a list, each once, are not more than the list has. -/
theorem countP_le_of_mem (h : w.Written r) (p : Situation → Bool) (limit : Nat)
    (hp : ∀ {s c}, (s, c) ∈ w.registry.contexts.entries → p s = true → s ∈ r.situations limit) :
    w.registry.contexts.entries.countP (fun entry => p entry.1) ≤
      (r.situations limit).length := by
  have hsubset : (w.registry.contexts.entries.map (·.1)).filter p ⊆ r.situations limit := by
    intro s hs
    obtain ⟨hmem, hps⟩ := List.mem_filter.1 hs
    obtain ⟨⟨s', c⟩, hentry, rfl⟩ := List.mem_map.1 hmem
    exact hp hentry hps
  calc w.registry.contexts.entries.countP (fun entry => p entry.1)
      = ((w.registry.contexts.entries.map (·.1)).filter p).length := by
        rw [← List.countP_eq_length_filter, List.countP_map]; rfl
    _ ≤ (r.situations limit).length := ((h.once.filter p).subperm hsubset).length_le

end Written

variable {r : Registry} {w : World P}

/-- However many lines are tokenized, and however deep they are nested, the contexts kept whose ends
are within a limit are bounded by the grammars. -/
theorem Tokenized.countP_le {g : Grammar} (h : w.Tokenized engine (r.add g).2) (limit : Nat) :
    w.registry.contexts.entries.countP (fun (s, _) => s.ends.all (·.distance < limit)) ≤
      ((r.add g).2.situations limit).length := by
  have hwritten := Written.of_tokenized (by rw [r.add_contexts]; rfl) h
  refine hwritten.countP_le_of_mem (fun s => s.ends.all (·.distance < limit)) limit ?_
  intro s c hmem hends
  exact (hwritten.kept hmem).1 limit (by simpa using hends)

/-- A span opened inside the other one. -/
def afterAc : World Char :=
  nestedSpansWorld.after ((SessionM.tokenizeLine oneCharacter "ac" .fresh).run
    (nestedSpansWorld.session nestedSpansTokenizer))

/-- Two of the three contexts have no end but that of the innermost span. -/
theorem countP_le_ac :
    afterAc.Tokenized oneCharacter (Registry.empty.add nestedSpans).2 ∧
    afterAc.registry.contexts.entries.countP (fun (s, _) => s.ends.all (·.distance < 1)) = 2 ∧
    afterAc.registry.contexts.entries.countP (fun (s, _) => s.ends.all (·.distance < 1)) ≤
      ((Registry.empty.add nestedSpans).2.situations 1).length ∧
    ((Registry.empty.add nestedSpans).2.situations 1).length = 15 := by
  have ht : nestedSpansTokenizer ∈ nestedSpansWorld.tokenizers := World.mem_started ..
  have hfresh : OpenSpans.fresh ∈ nestedSpansWorld.states := .head _
  have hid : (new (Registry.empty.add nestedSpans).2 : World Char).registry.id? "s" = some ⟨0⟩ :=
    rfl
  have hstart : Tokenizes oneCharacter (new (Registry.empty.add nestedSpans).2) nestedSpansWorld :=
    .start {} hid
  have htokenized : afterAc.Tokenized oneCharacter (Registry.empty.add nestedSpans).2 :=
    .tail (.single hstart) (.line "ac" ht hfresh)
  exact ⟨htokenized, by decide +kernel, Tokenized.countP_le htokenized 1, by decide +kernel⟩

/-- Tokenizers that look for no end but the own one keep as many contexts as there are situations
without others. -/
theorem Tokenized.contextCount_le {g : Grammar} (h : w.Tokenized engine (r.add g).2)
    (hoff : ∀ t ∈ w.tokenizers, t.options.closeOuterSpans = false) :
    w.registry.contextCount ≤ ((r.add g).2.situations 1).length := by
  have hwritten := Written.of_tokenized (by rw [r.add_contexts]; rfl) h
  have hcount := hwritten.countP_le_of_mem (fun _ => true) 1 fun {s c} hmem _ => by
    obtain ⟨hsituation, houter | ⟨t, ht, hon⟩⟩ := hwritten.kept hmem
    · exact hsituation 1 houter
    · rw [hoff t ht] at hon
      cases hon
  simpa [Registry.contextCount, ContextStore.size] using hcount

end World

end ScopeGrammar
