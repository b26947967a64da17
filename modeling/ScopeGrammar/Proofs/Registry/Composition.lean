import ScopeGrammar.Proofs.Registry.Additions
import ScopeGrammar.Proofs.Registry.Expansion
import ScopeGrammar.Proofs.Registry.Renumbered
import ScopeGrammar.Proofs.World.History

/-!
# ScopeGrammar.Proofs.Registry.Composition

Which grammars the tokens of a base grammar depend on.

* `Registry.Reached` : the lists, rules and captures that tokenizing with a base grammar can come
  to. `Registry.Mentions` : an include in such a list names a grammar.
* `Registry.tokensOf_congr` : registries give the same tokens if they hold the same grammars under
  the name of the base grammar and all names that are mentioned.
* `Registry.tokensOf_composition` : so it makes no difference in which order grammars are added, or
  whether there is one more that is not mentioned.

The numbers of the grammars may differ, and with them those of contexts. What is reached stands for
what has the same place in the grammar of the same name.
-/

namespace ScopeGrammar

/-- The captures of a rule, whatever match they are for. -/
def Rule.captureIds : Rule → List CaptureId
  | .single m => m.captures.entries.map (·.2)
  | .span s => (s.openingCaptures.entries ++ s.closeCaptures.entries).map (·.2)

namespace Registry

/-! ## What can be reached -/

/-- What tokenizing with a base grammar can come to: lists through containers and includes, the
rules in them, the captures of these, and the lists inside spans and captures. -/
inductive Reached (r : Registry) (b : GrammarId) : GrammarId × PartId → Prop
  | root {g : Grammar} : r.grammar? b = some g → Reached r b (b, g.root.part)
  | next {p q : GrammarId × ListId} :
    Reached r b (p.1, p.2.part) → r.LeadsTo b p q → Reached r b (q.1, q.2.part)
  | rule {p : GrammarId × ListId} {a : RuleRef} :
    Reached r b (p.1, p.2.part) → r.Holds p a → Reached r b (a.grammar, a.rule.part)
  | inside {a : RuleRef} {s : SpanRule} :
    Reached r b (a.grammar, a.rule.part) → r.span? a = some s →
      Reached r b (a.grammar, s.patterns.part)
  | capture {a : RuleRef} {g : Grammar} {rule : Rule} {c : CaptureId} :
    Reached r b (a.grammar, a.rule.part) → r.grammar? a.grammar = some g →
      g.rule? a.rule = some rule → c ∈ rule.captureIds → Reached r b (a.grammar, c.part)
  | captured {id : GrammarId} {g : Grammar} {c : CaptureId} {capture : Capture} {l : ListId} :
    Reached r b (id, c.part) → r.grammar? id = some g → g.capture? c = some capture →
      capture.patterns = some l → Reached r b (id, l.part)

/-- An include that can be reached from the grammar of a scope name names the other one. -/
def Mentions (r : Registry) (scopeName other : String) : Prop :=
  ∃ b, r.id? scopeName = some b ∧ ∃ p : GrammarId × ListId, r.Reached b (p.1, p.2.part) ∧
    ∃ i entry, .linked i ∈ r.items p ∧ i.target = .foreign other entry

/-- The tokens of lines with a new tokenizer for a scope name. -/
def tokensOf {P : Type} (engine : Engine P) (r : Registry) (scopeName : String)
    (options : SessionOptions) (lines : List String) : Except Error (List (List Token)) :=
  (r.session scopeName options).map fun s : Session P =>
    ((SessionM.tokenizeLines engine lines .fresh).run s).1.map (·.tokens)

/-! ## The same grammars -/

/-- The registries hold the same grammars under these names, with numbers of their own. -/
structure SameUnder (names : String → Prop) (r r' : Registry) : Prop where
  unique : ∀ {s t id}, names s → names t → r.id? s = some id → r.id? t = some id → s = t
  unique' : ∀ {s t id}, names s → names t → r'.id? s = some id → r'.id? t = some id → s = t
  grammars : ∀ {s}, names s →
    Option.Rel (fun id id' => ∃ g, r.grammar? id = some g ∧ r'.grammar? id' = some g)
      (r.id? s) (r'.id? s)

/-- The numbers that a name has in both registries. -/
def SameName (names : String → Prop) (r r' : Registry) (id id' : GrammarId) : Prop :=
  ∃ s, names s ∧ r.id? s = some id ∧ r'.id? s = some id'

variable {names : String → Prop} {r r' : Registry} {b : GrammarId}

namespace SameUnder

variable (h : SameUnder names r r')

include h

theorem sameName_unique : Relator.BiUnique (SameName names r r') := by
  constructor
  · rintro id id' other ⟨s, hs, hid, hid'⟩ ⟨t, ht, hother, hother'⟩
    cases h.unique' hs ht hid' hother'
    exact Option.some.inj (hid.symm.trans hother)
  · rintro id id' other ⟨s, hs, hid, hid'⟩ ⟨t, ht, hother, hother'⟩
    cases h.unique hs ht hid hother
    exact Option.some.inj (hid'.symm.trans hother')

theorem grammar?_of_sameName {id id' : GrammarId} (hid : SameName names r r' id id') :
    ∃ g, r.grammar? id = some g ∧ r'.grammar? id' = some g := by
  obtain ⟨s, hs, hid, hid'⟩ := hid
  have hgrammars := h.grammars hs
  rw [hid, hid'] at hgrammars
  cases hgrammars with
  | some hboth => exact hboth

/-- Includes lead to the same place, if what they name is among the names. -/
theorem target_sameName {c c' id id' : GrammarId} (hc : SameName names r r' c c')
    (hid : SameName names r r' id id') (g : Grammar) (i : Include)
    (hi : ∀ t entry, i.target = .foreign t entry → names t) :
    Option.Rel (fun q q' => SameName names r r' q.1 q'.1 ∧ q.2 = q'.2)
      (r.target c id g i).1 (r'.target c' id' g i).1 := by
  obtain ⟨target, repositories⟩ := i
  cases target with
  | self => exact .some ⟨hid, rfl⟩
  | base =>
    obtain ⟨k, hk, hk'⟩ := h.grammar?_of_sameName hc
    simp only [target, hk, hk', Option.map_some]
    exact .some ⟨hc, rfl⟩
  | entry name =>
    simp only [target]
    cases g.visibleEntry? name repositories with
    | none => exact .none
    | some l => exact .some ⟨hid, rfl⟩
  | foreign t entry =>
    have ht : names t := hi t entry rfl
    have hgrammars := h.grammars ht
    simp only [target]
    cases hother : r.id? t with
    | none =>
      rw [hother] at hgrammars
      generalize r'.id? t = other' at hgrammars
      cases hgrammars
      exact .none
    | some other =>
      cases hother' : r'.id? t with
      | none =>
        rw [hother, hother'] at hgrammars
        cases hgrammars
      | some other' =>
        have hsame : SameName names r r' other other' := ⟨t, ht, hother, hother'⟩
        obtain ⟨k, hk, hk'⟩ := h.grammar?_of_sameName hsame
        simp only [hk, hk']
        cases entry with
        | none => exact .some ⟨hsame, rfl⟩
        | some name =>
          cases hentry : k.ownEntry? name with
          | none => simp only [hentry]; exact .none
          | some l => simp only [hentry]; exact .some ⟨hsame, rfl⟩

end SameUnder

/-! ## What is reached stands for itself -/

end Registry

/-- What is reached stands for what has its place in the grammar of the same name. So do all
patterns, since nothing is reached through them. -/
def Pairing.reached (names : String → Prop) (r r' : Registry) (b : GrammarId) (shift : UInt32) :
    Pairing where
  base c c' := c = b ∧ Registry.SameName names r r' c c'
  part p p' := Registry.SameName names r r' p.1 p'.1 ∧ p.2 = p'.2 ∧
    (r.Reached b p ∨ p.2.kind = .pattern)
  shift := shift

/-- A rule is the same if its numbers are. -/
theorem Rule.linked_self {μ : Links} (rule : Rule) (hpattern : ∀ i : PatternId, μ i.part i.part)
    (hcapture : ∀ c ∈ rule.captureIds, μ c.part c.part)
    (hlist : ∀ s, rule = .span s → μ s.patterns.part s.patterns.part) : rule.Linked μ rule := by
  have htable (t : CaptureTable) (ht : ∀ e ∈ t.entries, e.2 ∈ rule.captureIds) :
      t.Linked μ t :=
    ⟨rfl, List.forall₂_same.2 fun e he => ⟨rfl, hcapture _ (ht e he)⟩⟩
  cases rule with
  | single m => exact .single ⟨rfl, hpattern _, htable _ fun e he => List.mem_map_of_mem he⟩
  | span s =>
    have hopening := htable s.openingCaptures fun e he =>
      List.mem_map_of_mem (List.mem_append_left _ he)
    have hclose := htable s.closeCaptures fun e he =>
      List.mem_map_of_mem (List.mem_append_right _ he)
    refine .span ⟨rfl, rfl, hpattern _, hopening, ?_, rfl, hlist s rfl⟩
    rw [SpanRule.closeCaptures] at hclose
    cases hending : s.close with
    | atEnd p t last => exact .atEnd (hpattern p) (by simpa [hending] using hclose)
    | whileMatched p t => exact .whileMatched (hpattern p) (by simpa [hending] using hclose)

namespace Registry

variable {names : String → Prop} {r r' : Registry} {b b' : GrammarId} {shift : UInt32}

namespace SameUnder

variable (h : SameUnder names r r')

include h

theorem reached_part_unique : Relator.BiUnique (Pairing.reached names r r' b shift).part := by
  constructor
  · rintro ⟨id, n⟩ ⟨id', n'⟩ ⟨other, m⟩ ⟨hid, hn, _⟩ ⟨hid', hn', _⟩
    cases h.sameName_unique.1 hid hid'
    exact congrArg (Prod.mk id) (hn.trans hn'.symm)
  · rintro ⟨id, n⟩ ⟨id', n'⟩ ⟨other, m⟩ ⟨hid, hn, _⟩ ⟨hid', hn', _⟩
    cases h.sameName_unique.2 hid hid'
    exact congrArg (Prod.mk id') (hn.symm.trans hn')

variable {id id' : GrammarId} (hid : SameName names r r' id id') {g : Grammar}
  (hg : r.grammar? id = some g)

include hid hg

theorem itemPaired_self (hb : SameName names r r' b b') {l : ListId}
    (hreached : r.Reached b (id, l.part)) {item : ListItem} (hitem : item ∈ g.list l)
    (hnames : ∀ i t entry, item = .linked i → i.target = .foreign t entry → names t) :
    let ρ := Pairing.reached names r r' b shift
    ρ.ItemPaired (ρ.TargetPaired r r' b b' id id' g g) id id' item item := by
  have hin : item ∈ r.items (id, l) := by
    rw [items_of_grammar hg]
    exact hitem
  cases item with
  | rule a => exact .rule ⟨hid, rfl, .inl (.rule hreached ⟨_, hin, rfl⟩)⟩
  | list inner => exact .list ⟨hid, rfl, .inl (.next hreached ⟨_, hin, rfl⟩)⟩
  | linked i =>
    refine .linked ?_
    have htarget := h.target_sameName hb hid g i fun t entry => hnames i t entry rfl
    have hnext : r.next? b (id, l) (.linked i) = (r.target b id g i).1 := by
      simp [next?, hg]
    rw [Pairing.TargetPaired]
    generalize (r.target b id g i).1 = found at htarget hnext
    generalize (r'.target b' id' g i).1 = found' at htarget
    cases htarget with
    | none => exact .none
    | some hq =>
      exact .some ⟨hq.1, congrArg ListId.part hq.2, .inl (.next hreached ⟨_, hin, hnext⟩)⟩

end SameUnder

section

variable {id id' : GrammarId} (hid : SameName names r r' id id') {g : Grammar}
  (hg : r.grammar? id = some g)

include hid hg

theorem linked_of_reached_rule {i : RuleId} (hreached : r.Reached b (id, i.part)) {rule : Rule}
    (hrule : g.rule? i = some rule) :
    rule.Linked ((Pairing.reached names r r' b shift).links id id') rule := by
  refine rule.linked_self (fun _ => ⟨hid, rfl, .inr rfl⟩)
    (fun c hc => ⟨hid, rfl, .inl (.capture (a := ⟨id, i⟩) hreached hg hrule hc)⟩) fun s hs => ?_
  subst hs
  have hspan : r.span? ⟨id, i⟩ = some s := by
    simp [Registry.span?, hg, Grammar.span?, hrule]
  exact ⟨hid, rfl, .inl (.inside hreached hspan)⟩

theorem linked_of_reached_capture {c : CaptureId} (hreached : r.Reached b (id, c.part))
    {capture : Capture} (hcapture : g.capture? c = some capture) :
    capture.Linked ((Pairing.reached names r r' b shift).links id id') capture := by
  refine ⟨rfl, ?_⟩
  cases hpatterns : capture.patterns with
  | none => exact .none
  | some l => exact .some ⟨hid, rfl, .inl (.captured hreached hg hcapture hpatterns)⟩

end

theorem SameUnder.alike (h : SameUnder names r r')
    (hnames : ∀ t p, r.Reached b (p.1, ListId.part p.2) →
      ∀ i entry, .linked i ∈ r.items p → i.target = .foreign t entry → names t) :
    r.Alike (.reached names r r' b shift) r' where
  base_unique := by
    constructor
    · rintro c c' d ⟨_, hc⟩ ⟨_, hd⟩
      exact h.sameName_unique.1 hc hd
    · rintro c c' d ⟨_, hc⟩ ⟨_, hd⟩
      exact h.sameName_unique.2 hc hd
  part_unique := h.reached_part_unique
  base := by
    rintro c c' ⟨rfl, hc⟩
    obtain ⟨g, hg, hg'⟩ := h.grammar?_of_sameName hc
    rw [hg, hg']
    exact .some ⟨rfl, hc, rfl, .inl (.root hg)⟩
  items := by
    rintro c c' ⟨id, l⟩ ⟨id', l'⟩ ⟨rfl, hc⟩ ⟨hid, hl, hreached⟩
    cases ListId.part_inj.1 hl
    replace hreached := hreached.resolve_right nofun
    obtain ⟨g, hg, hg'⟩ := h.grammar?_of_sameName hid
    refine ⟨g, g, hg, hg', List.forall₂_same.2 fun item hitem => ?_⟩
    refine h.itemPaired_self hid hg hc hreached hitem fun i t entry hi => ?_
    exact hnames t (id, l) hreached i entry (by rwa [← hi, items_of_grammar hg])
  rule? := by
    rintro ⟨id, i⟩ ⟨id', i'⟩ ⟨hid, hi, hreached⟩
    cases RuleId.part_inj.1 hi
    replace hreached := hreached.resolve_right nofun
    obtain ⟨g, hg, hg'⟩ := h.grammar?_of_sameName hid
    refine ⟨g, g, hg, hg', ?_⟩
    cases hrule : g.rule? i with
    | none => exact .none
    | some rule => exact .some (linked_of_reached_rule hid hg hreached hrule)
  capture? := by
    rintro id id' c c' ⟨hid, hc, hreached⟩
    cases CaptureId.part_inj.1 hc
    replace hreached := hreached.resolve_right nofun
    obtain ⟨g, hg, hg'⟩ := h.grammar?_of_sameName hid
    refine ⟨g, g, hg, hg', ?_⟩
    cases hcapture : g.capture? c with
    | none => exact .none
    | some capture => exact .some (linked_of_reached_capture hid hg hreached hcapture)
  pattern := by
    rintro id id' i i' g g' ⟨hid, hi, _⟩ hg hg'
    cases PatternId.part_inj.1 hi
    obtain ⟨k, hk, hk'⟩ := h.grammar?_of_sameName hid
    cases hg.symm.trans hk
    cases hg'.symm.trans hk'
    rfl

section

variable {P : Type} (engine : Engine P)

/-- Registries that hold the same grammars under the name of the base grammar, and under all names
that are mentioned, give the same tokens. -/
theorem tokensOf_congr (h : SameUnder names r r') (hnew : r.contexts.entries = [])
    (hnew' : r'.contexts.entries = []) {scopeName : String} (hscope : names scopeName)
    (hmentions : ∀ t, r.Mentions scopeName t → names t) (options : SessionOptions)
    (lines : List String) :
    r.tokensOf engine scopeName options lines = r'.tokensOf engine scopeName options lines := by
  have hgrammars := h.grammars hscope
  rw [tokensOf, tokensOf, session, session]
  cases hid : r.id? scopeName with
  | none =>
    rw [hid] at hgrammars
    generalize r'.id? scopeName = found' at hgrammars
    cases hgrammars
    rfl
  | some b =>
    cases hid' : r'.id? scopeName with
    | none =>
      rw [hid, hid'] at hgrammars
      cases hgrammars
    | some b' =>
      have hb : SameName names r r' b b' := ⟨scopeName, hscope, hid, hid'⟩
      -- the distance between the numbers that contexts get next
      let shift := r'.contexts.made.toUInt32 - r.contexts.made.toUInt32
      have halike : r.Alike (.reached names r r' b shift) r' :=
        h.alike fun t p hp i entry hi ht => hmentions t ⟨b, hid, p, hp, i, entry, hi, ht⟩
      have hregistry : Registry.InStep (.reached names r r' b shift) r r' :=
        ⟨halike, .of_new hnew hnew' rfl⟩
      have hstart := Session.InStep.start (P := P) hregistry ⟨rfl, hb⟩ options
      exact congrArg Except.ok <| Pairing.tokens_eq
        (SessionM.tokenizeLines_inStep engine lines .fresh _ _ (hstart _ _)).1

end

/-! ## Adding grammars -/

/-- A grammar of a scope name that no other one has is the last one of it. -/
theorem latest?_eq_some {grammars : List Grammar} (hnames : (grammars.map (·.scopeName)).Nodup)
    {s : String} {g : Grammar} : latest? grammars s = some g ↔ g ∈ grammars ∧ g.scopeName = s := by
  rw [latest?]
  constructor
  · intro h
    exact ⟨List.mem_reverse.1 (List.mem_of_find?_eq_some h), by simpa using List.find?_some h⟩
  · rintro ⟨hg, rfl⟩
    cases hfound : grammars.reverse.find? (·.scopeName == g.scopeName) with
    | none => simpa using List.find?_eq_none.1 hfound g (List.mem_reverse.2 hg)
    | some k =>
      have hk : k ∈ grammars := List.mem_reverse.1 (List.mem_of_find?_eq_some hfound)
      have hsame : k.scopeName = g.scopeName := by simpa using List.find?_some hfound
      rw [List.inj_on_of_nodup_map hnames hk hg hsame]

namespace Lists

variable {grammars grammars' : List Grammar}

theorem addAll (h : r.Lists grammars) {more : List Grammar}
    (hcount : (scopeNames (grammars ++ more)).length ≤ 65536) :
    (r.addAll more).Lists (grammars ++ more) := by
  induction more generalizing r grammars with
  | nil => rwa [List.append_nil]
  | cons g rest ih =>
    rw [List.append_cons] at hcount ⊢
    have hless := Nat.le_trans (length_scopeNames_append_le ..) hcount
    exact ih (h.add (Nat.le_trans (length_scopeNames_append_le ..) hless) g) hcount

theorem sameUnder (h : r.Lists grammars) (hcount : (scopeNames grammars).length ≤ 65536)
    (h' : r'.Lists grammars') (hcount' : (scopeNames grammars').length ≤ 65536)
    (hlatest : ∀ s, latest? grammars s = latest? grammars' s) :
    SameUnder (fun _ => True) r r' where
  unique _ _ hs ht :=
    Option.some.inj (((h.id?_eq_some hcount).1 hs).symm.trans ((h.id?_eq_some hcount).1 ht))
  unique' _ _ hs ht :=
    Option.some.inj (((h'.id?_eq_some hcount').1 hs).symm.trans ((h'.id?_eq_some hcount').1 ht))
  grammars := by
    intro s _
    have hbind : (r.id? s).bind r.grammar? = (r'.id? s).bind r'.grammar? := by
      rw [h.bind_id? hcount, h'.bind_id? hcount', hlatest]
    cases hid : r.id? s with
    | none =>
      cases hid' : r'.id? s with
      | none => exact .none
      | some id' =>
        obtain ⟨g, _, hg⟩ := h'.exists_grammar hcount' hid'
        simp [hid, hid', hg] at hbind
    | some id =>
      obtain ⟨g, _, hg⟩ := h.exists_grammar hcount hid
      cases hid' : r'.id? s with
      | none => simp [hid, hid', hg] at hbind
      | some id' =>
        simp only [hid, hid', Option.bind_some, hg] at hbind
        exact .some ⟨g, hg, hbind.symm⟩

/-- Under all other names there are the same grammars after one was added. -/
theorem sameUnder_add (h : r.Lists grammars) (hcount : (scopeNames grammars).length ≤ 65536)
    (g : Grammar) : SameUnder (fun s => g.scopeName ≠ s) r (r.add g).2 where
  unique _ _ hs ht :=
    Option.some.inj (((h.id?_eq_some hcount).1 hs).symm.trans ((h.id?_eq_some hcount).1 ht))
  unique' hs ht hid hid' := by
    rw [id?_add_of_ne r hs] at hid
    rw [id?_add_of_ne r ht] at hid'
    exact Option.some.inj
      (((h.id?_eq_some hcount).1 hid).symm.trans ((h.id?_eq_some hcount).1 hid'))
  grammars := by
    intro s hs
    rw [id?_add_of_ne r hs]
    cases hid : r.id? s with
    | none => exact .none
    | some id =>
      obtain ⟨k, hlatest, hk⟩ := h.exists_grammar hcount hid
      refine .some ⟨k, hk, ?_⟩
      have hplace := getElem?_scopeNames_append ((h.id?_eq_some hcount).1 hid) g
      rw [grammar?, (h.add hcount g).grammars, hplace, Option.bind_some, latest?_append, if_neg hs]
      exact hlatest

end Lists

section

variable {P : Type} (engine : Engine P)

/-- Grammars with different scope names give the same tokens in whatever order they are added. One
more grammar changes nothing about the tokens of a base grammar from which no include can be
reached that names it. -/
theorem tokensOf_composition {grammars : List Grammar}
    (hnames : (grammars.map (·.scopeName)).Nodup) (hcount : grammars.length ≤ 65536) :
    let r := Registry.empty.addAll grammars
    (∀ grammars', grammars.Perm grammars' → ∀ scopeName options lines,
      (Registry.empty.addAll grammars').tokensOf engine scopeName options lines =
        r.tokensOf engine scopeName options lines) ∧
    ∀ (g : Grammar) (scopeName : String), g.scopeName ≠ scopeName →
      ¬ r.Mentions scopeName g.scopeName → ∀ options lines,
        (r.add g).2.tokensOf engine scopeName options lines =
          r.tokensOf engine scopeName options lines := by
  intro r
  have hcounts : (scopeNames grammars).length ≤ 65536 :=
    Nat.le_trans (length_scopeNames_le grammars) hcount
  have hlists : r.Lists grammars := Lists.addAll .empty hcounts
  have hnew : r.contexts.entries = [] := addAll_empty_contexts grammars
  constructor
  · intro grammars' hperm scopeName options lines
    have hcounts' : (scopeNames grammars').length ≤ 65536 :=
      Nat.le_trans (length_scopeNames_le grammars') (hperm.length_eq ▸ hcount)
    have hlatest (s : String) : latest? grammars s = latest? grammars' s := by
      ext g
      rw [latest?_eq_some hnames, latest?_eq_some ((hperm.map _).nodup_iff.1 hnames),
        hperm.mem_iff]
    have hsame := hlists.sameUnder hcounts (Lists.addAll .empty hcounts') hcounts' hlatest
    exact (tokensOf_congr engine hsame hnew (addAll_empty_contexts grammars') trivial
      (fun _ _ => trivial) options lines).symm
  · intro g scopeName hscope hmentions options lines
    refine (tokensOf_congr engine (hlists.sameUnder_add hcounts g) hnew ?_ hscope ?_ options
      lines).symm
    · exact congrArg (·.entries) (add_contexts r g)
    · rintro t ht rfl
      exact hmentions ht

end

/-- What no include in any grammar names is not mentioned. -/
theorem not_mentions_of_forall {s : String}
    (h : ∀ g ∈ r.grammars, ∀ items ∈ g.lists, ∀ i, .linked i ∈ items →
      ∀ entry, i.target ≠ .foreign s entry) (scopeName : String) : ¬ r.Mentions scopeName s := by
  rintro ⟨_, _, ⟨id, l⟩, _, i, entry, hitem, htarget⟩
  cases hg : r.grammar? id with
  | none =>
    rw [items_of_missing hg] at hitem
    cases hitem
  | some g =>
    rw [items_of_grammar hg, Grammar.list, Array.getD_eq_getD_getElem?] at hitem
    cases hlist : g.lists[l.index]? with
    | none =>
      rw [hlist] at hitem
      cases hitem
    | some items =>
      rw [hlist] at hitem
      exact h g (Array.mem_of_getElem? hg) items (Array.mem_of_getElem? hlist) i hitem entry htarget

/-! ### Two grammars and one more -/

/-- A grammar of one span, from `a` to `b`, with the rules of another grammar in it. -/
def outerGrammar : Grammar :=
  { name := "", scopeName := "outer", scope := ⟨"outer"⟩, fileTypes := [], patterns := #["a", "b"]
    rules := #[.span
      { scopes := [⟨"span"⟩], contentScopes := [], opening := ⟨0⟩, openingCaptures := .empty
        close := .atEnd ⟨1⟩ .empty false, fillsEnding := false, patterns := ⟨1⟩ }]
    lists := #[[.rule ⟨0⟩], [.linked ⟨.foreign "inner" none, .empty⟩]]
    captures := #[], repositories := #[], root := ⟨0⟩, skipped := [] }

/-- A grammar of one rule, whose match is a capture with the rules of the base grammar in it. -/
def innerGrammar : Grammar :=
  { name := "", scopeName := "inner", scope := ⟨"inner"⟩, fileTypes := [], patterns := #["c"]
    rules := #[.single ⟨[], ⟨0⟩, ⟨1, [(0, ⟨0⟩)]⟩⟩]
    lists := #[[.rule ⟨0⟩], [.linked ⟨.base, .empty⟩]]
    captures := #[⟨[⟨"capture"⟩], some ⟨1⟩⟩], repositories := #[], root := ⟨0⟩, skipped := [] }

theorem tokensOf_composition_two :
    ([outerGrammar, innerGrammar].map (·.scopeName)).Nodup ∧
      ¬ (empty.addAll [outerGrammar, innerGrammar]).Mentions "outer" nestedSpans.scopeName ∧
      ∀ options lines,
        (empty.addAll [innerGrammar, outerGrammar]).tokensOf oneCharacter "outer" options lines =
          (empty.addAll [outerGrammar, innerGrammar]).tokensOf oneCharacter "outer" options lines ∧
        ((empty.addAll [outerGrammar, innerGrammar]).add nestedSpans).2.tokensOf oneCharacter
            "outer" options lines =
          (empty.addAll [outerGrammar, innerGrammar]).tokensOf oneCharacter "outer" options
            lines := by
  have hnames : ([outerGrammar, innerGrammar].map (·.scopeName)).Nodup := by decide
  have hmentions :
      ¬ (empty.addAll [outerGrammar, innerGrammar]).Mentions "outer" nestedSpans.scopeName := by
    refine not_mentions_of_forall ?_ "outer"
    have hgrammars : (empty.addAll [outerGrammar, innerGrammar]).grammars =
        #[outerGrammar, innerGrammar] := rfl
    rw [hgrammars]
    simp [outerGrammar, innerGrammar, nestedSpans]
  obtain ⟨horder, hmore⟩ := tokensOf_composition oneCharacter hnames (by decide)
  exact ⟨hnames, hmentions, fun options lines =>
    ⟨horder _ (List.Perm.swap innerGrammar outerGrammar []) "outer" options lines,
      hmore nestedSpans "outer" (by decide) hmentions options lines⟩⟩

end Registry

end ScopeGrammar
