import ScopeGrammar.Proofs.Grammar.Links
import ScopeGrammar.Proofs.Registry.Gathered

/-!
# ScopeGrammar.Proofs.Registry.Pairing

Registries that differ in the numbers of their grammars and of the parts of these.

* `Pairing` says which grammars and which parts of them stand for each other.
* `Registry.Paired` : what stands for each other is the same but for numbers.
* `Registry.Alike` : so is what tokenizing finds there. This asks for less, since an include need
  only lead to the right list, whatever else the repositories around it hold.
* `Registry.Alike.ruleEntries` : situations that stand for each other have the same rules in the
  same order.
-/

namespace ScopeGrammar

structure Pairing where
  /-- The grammars that tokenizing may start with. -/
  base : GrammarId → GrammarId → Prop
  part : GrammarId × PartId → GrammarId × PartId → Prop
  /-- How far the numbers of contexts are apart. -/
  shift : UInt32

namespace Pairing

variable (ρ : Pairing)

/-- The links between the parts of two grammars. -/
def links (id id' : GrammarId) : Links := fun n n' => ρ.part (id, n) (id', n')

def Rules (a a' : RuleRef) : Prop := ρ.links a.grammar a'.grammar a.rule.part a'.rule.part

def Lists (p p' : GrammarId × ListId) : Prop := ρ.links p.1 p'.1 p.2.part p'.2.part

def Captures (c c' : GrammarId × CaptureId) : Prop := ρ.links c.1 c'.1 c.2.part c'.2.part

/-- Grammars stand for those of the same number. -/
structure KeepsGrammars : Prop where
  base : ρ.base = Eq
  part : ∀ {p p'}, ρ.part p p' → p.1 = p'.1

end Pairing

/-- What stands for each other is the same but for numbers. -/
structure Registry.Paired (ρ : Pairing) (r r' : Registry) : Prop where
  base_unique : Relator.BiUnique ρ.base
  part_unique : Relator.BiUnique ρ.part
  base : ∀ {b b'}, ρ.base b b' →
    Option.Rel (fun g g' => g.scope = g'.scope ∧ ρ.Lists (b, g.root) (b', g'.root))
      (r.grammar? b) (r'.grammar? b')
  part : ∀ {id id' n n'}, ρ.links id id' n n' →
    ∃ g g', r.grammar? id = some g ∧ r'.grammar? id' = some g' ∧
      Option.Rel (Part.Linked (ρ.links id id')) (g.part? n) (g'.part? n')
  target : ∀ {b b' p p' g g' i i'}, ρ.base b b' → ρ.Lists p p' →
    r.grammar? p.1 = some g → r'.grammar? p'.1 = some g' → .linked i ∈ g.list p.2 →
    ListItem.Linked (ρ.links p.1 p'.1) (.linked i) (.linked i') →
    Option.Rel ρ.Lists (r.target b p.1 g i).1 (r'.target b' p'.1 g' i').1

/-- Elements of lists that stand for each other, where it is known which includes do. -/
inductive Pairing.ItemPaired (ρ : Pairing) (T : Include → Include → Prop) (id id' : GrammarId) :
    ListItem → ListItem → Prop
  | rule {i i' : RuleId} :
    ρ.Rules ⟨id, i⟩ ⟨id', i'⟩ → ItemPaired ρ T id id' (.rule i) (.rule i')
  | list {l l' : ListId} :
    ρ.Lists (id, l) (id', l') → ItemPaired ρ T id id' (.list l) (.list l')
  | linked {i i' : Include} : T i i' → ItemPaired ρ T id id' (.linked i) (.linked i')

/-- The includes lead to lists that stand for each other, or both lead nowhere. -/
def Pairing.TargetPaired (ρ : Pairing) (r r' : Registry) (b b' id id' : GrammarId)
    (g g' : Grammar) (i i' : Include) : Prop :=
  Option.Rel ρ.Lists (r.target b id g i).1 (r'.target b' id' g' i').1

/-- What tokenizing finds in what stands for each other is the same but for numbers. -/
structure Registry.Alike (ρ : Pairing) (r r' : Registry) : Prop where
  base_unique : Relator.BiUnique ρ.base
  part_unique : Relator.BiUnique ρ.part
  base : ∀ {b b'}, ρ.base b b' →
    Option.Rel (fun g g' => g.scope = g'.scope ∧ ρ.Lists (b, g.root) (b', g'.root))
      (r.grammar? b) (r'.grammar? b')
  items : ∀ {b b' p p'}, ρ.base b b' → ρ.Lists p p' →
    ∃ g g', r.grammar? p.1 = some g ∧ r'.grammar? p'.1 = some g' ∧
      List.Forall₂ (ρ.ItemPaired (ρ.TargetPaired r r' b b' p.1 p'.1 g g') p.1 p'.1)
        (g.list p.2) (g'.list p'.2)
  rule? : ∀ {a a'}, ρ.Rules a a' →
    ∃ g g', r.grammar? a.grammar = some g ∧ r'.grammar? a'.grammar = some g' ∧
      Option.Rel (Rule.Linked (ρ.links a.grammar a'.grammar)) (g.rule? a.rule) (g'.rule? a'.rule)
  capture? : ∀ {id id' c c'}, ρ.Captures (id, c) (id', c') →
    ∃ g g', r.grammar? id = some g ∧ r'.grammar? id' = some g' ∧
      Option.Rel (Capture.Linked (ρ.links id id')) (g.capture? c) (g'.capture? c')
  pattern : ∀ {id id' i i' g g'}, ρ.links id id' (PatternId.part i) (PatternId.part i') →
    r.grammar? id = some g → r'.grammar? id' = some g' → g.pattern i = g'.pattern i'

namespace Registry.Paired

variable {ρ : Pairing} {r r' : Registry}

/-- The elements of lists that stand for each other do so too. -/
theorem items (h : Paired ρ r r') {b b' : GrammarId} (hb : ρ.base b b')
    {p p' : GrammarId × ListId} (hp : ρ.Lists p p') :
    ∃ g g', r.grammar? p.1 = some g ∧ r'.grammar? p'.1 = some g' ∧
      List.Forall₂ (ρ.ItemPaired (ρ.TargetPaired r r' b b' p.1 p'.1 g g') p.1 p'.1)
        (g.list p.2) (g'.list p'.2) := by
  obtain ⟨g, g', hg, hg', hlinked⟩ := h.part hp
  refine ⟨g, g', hg, hg', ?_⟩
  have hmem : List.Forall₂ (fun i i' => i ∈ g.list p.2 ∧ ListItem.Linked (ρ.links p.1 p'.1) i i')
      (g.list p.2) (g'.list p'.2) :=
    (List.forall₂_and_left ..).2 ⟨fun _ hi => hi, Grammar.list_linked hlinked⟩
  refine hmem.imp fun item item' ⟨hin, hitem⟩ => ?_
  cases hitem with
  | rule ha => exact .rule ha
  | list hl => exact .list hl
  | linked hσ => exact .linked (h.target hb hp hg hg' hin (.linked hσ))

theorem alike (h : Paired ρ r r') : Alike ρ r r' where
  base_unique := h.base_unique
  part_unique := h.part_unique
  base := h.base
  items := fun hb hp => h.items hb hp
  rule? := by
    intro a a' ha
    obtain ⟨g, g', hg, hg', hlinked⟩ := h.part ha
    exact ⟨g, g', hg, hg', Grammar.rule?_linked hlinked⟩
  capture? := by
    intro id id' c c' hc
    obtain ⟨g, g', hg, hg', hlinked⟩ := h.part hc
    exact ⟨g, g', hg, hg', Grammar.capture?_linked hlinked⟩
  pattern := by
    intro id id' i i' g g' hi hg hg'
    obtain ⟨k, k', hk, hk', hlinked⟩ := h.part hi
    cases hg.symm.trans hk
    cases hg'.symm.trans hk'
    exact Grammar.pattern_linked hlinked

end Registry.Paired

namespace Pairing

variable (ρ : Pairing)

inductive OriginPaired : RuleOrigin → RuleOrigin → Prop
  | root {b b' : GrammarId} : ρ.base b b' → OriginPaired (.root b) (.root b')
  | span {a a' : RuleRef} : ρ.Rules a a' → OriginPaired (.span a) (.span a')
  | capture {g g' : GrammarId} {c c' : CaptureId} :
    ρ.Captures (g, c) (g', c') → OriginPaired (.capture g c) (.capture g' c')

structure SituationPaired (s s' : Situation) : Prop where
  base : ρ.base s.base s'.base
  origin : ρ.OriginPaired s.origin s'.origin
  ownEnd : s.ownEnd = s'.ownEnd
  endLast : s.endLast = s'.endLast
  outerEnds : s.outerEnds = s'.outerEnds

inductive CandidatePaired : Candidate → Candidate → Prop
  | rule {a a' : RuleRef} : ρ.Rules a a' → CandidatePaired (.rule a) (.rule a')
  | closing (distance : Nat) : CandidatePaired (.closing distance) (.closing distance)

def EntryPaired (e e' : Candidate × String) : Prop := ρ.CandidatePaired e.1 e'.1 ∧ e.2 = e'.2

structure GatheringPaired (g g' : Gathering) : Prop where
  visited : List.Forall₂ ρ.Lists g.visited g'.visited
  rules : List.Forall₂ ρ.Rules g.rules g'.rules

end Pairing

/-! ## Gathering side by side -/

theorem contains_eq_of_forall₂ {α β : Type} [BEq α] [LawfulBEq α] [BEq β] [LawfulBEq β]
    {R : α → β → Prop} (hR : Relator.BiUnique R) {l : List α} {l' : List β}
    (h : List.Forall₂ R l l') {a : α} {b : β} (hab : R a b) : l.contains a = l'.contains b := by
  rw [Bool.eq_iff_iff, List.contains_iff_mem, List.contains_iff_mem]
  exact List.rel_mem hR hab h

theorem biUnique_comap {α β : Type} {R : β → β → Prop} (hR : Relator.BiUnique R) {f : α → β}
    (hf : Function.Injective f) : Relator.BiUnique fun a a' => R (f a) (f a') :=
  ⟨fun _ _ _ h h' => hf (hR.1 h h'), fun _ _ _ h h' => hf (hR.2 h h')⟩

namespace Registry.Alike

variable {ρ : Pairing} {r r' : Registry}

theorem rules_unique (h : Alike ρ r r') : Relator.BiUnique ρ.Rules :=
  biUnique_comap h.part_unique (f := fun a : RuleRef => (a.grammar, a.rule.part)) <| by
    rintro ⟨g, ⟨i⟩⟩ ⟨g', ⟨i'⟩⟩ h
    simpa using h

theorem lists_unique (h : Alike ρ r r') : Relator.BiUnique ρ.Lists :=
  biUnique_comap h.part_unique (f := fun p : GrammarId × ListId => (p.1, p.2.part)) <| by
    rintro ⟨g, ⟨i⟩⟩ ⟨g', ⟨i'⟩⟩ h
    simpa using h

theorem captures_unique (h : Alike ρ r r') : Relator.BiUnique ρ.Captures :=
  biUnique_comap h.part_unique (f := fun c : GrammarId × CaptureId => (c.1, c.2.part)) <| by
    rintro ⟨g, ⟨i⟩⟩ ⟨g', ⟨i'⟩⟩ h
    simpa using h

theorem addRule (h : Alike ρ r r') {g g' : Gathering} (hg : ρ.GatheringPaired g g')
    {a a' : RuleRef} (ha : ρ.Rules a a') : ρ.GatheringPaired (g.addRule a) (g'.addRule a') := by
  rw [Gathering.addRule, Gathering.addRule, contains_eq_of_forall₂ h.rules_unique hg.rules ha]
  split
  · exact hg
  · exact ⟨hg.visited, List.rel_append hg.rules (.cons ha .nil)⟩

theorem gatherList (h : Alike ρ r r') {b b' : GrammarId} (hb : ρ.base b b') (levels : Nat)
    {p p' : GrammarId × ListId} (hp : ρ.Lists p p') {g g' : Gathering}
    (hg : ρ.GatheringPaired g g') :
    ρ.GatheringPaired (r.gatherList b levels p g) (r'.gatherList b' levels p' g') := by
  induction levels generalizing p p' g g' with
  | zero => exact hg
  | succ levels ih =>
    rw [gatherList_succ, gatherList_succ, contains_eq_of_forall₂ h.lists_unique hg.visited hp]
    split
    · exact hg
    · obtain ⟨grammar, grammar', hgrammar, hgrammar', hitems⟩ := h.items hb hp
      rw [hgrammar, hgrammar']
      refine List.rel_foldl (fun g g' hg item item' hitem => ?_)
        (show ρ.GatheringPaired (g.enter p) (g'.enter p') from ⟨.cons hp hg.visited, hg.rules⟩)
        hitems
      cases hitem with
      | rule ha => exact h.addRule hg ha
      | list hl => exact ih hl hg
      | linked htarget =>
        rw [Pairing.TargetPaired] at htarget
        rw [gatherItem, gatherItem]
        generalize r.target b p.1 grammar _ = found at htarget
        generalize r'.target b' p'.1 grammar' _ = found' at htarget
        obtain ⟨other, notices⟩ := found
        obtain ⟨other', notices'⟩ := found'
        cases htarget with
        | none => exact ⟨hg.visited, hg.rules⟩
        | some hl => exact ih hl ⟨hg.visited, hg.rules⟩

/-- Lists that stand for each other hold the same rules in the same order. -/
theorem gather (h : Alike ρ r r') {b b' : GrammarId} (hb : ρ.base b b')
    {p p' : GrammarId × ListId} (hp : ρ.Lists p p') :
    List.Forall₂ ρ.Rules (r.gather b p).1 (r'.gather b' p').1 := by
  -- as many levels on both sides as either needs
  have hlevels : r.listCount < max r.listCount r'.listCount + 1 := by omega
  have hlevels' : r'.listCount < max r.listCount r'.listCount + 1 := by omega
  rw [gather_eq hlevels, gather_eq hlevels']
  exact (h.gatherList hb _ hp ⟨.nil, .nil⟩).rules

/-! ## Rules side by side -/

theorem span? (h : Alike ρ r r') {a a' : RuleRef} (ha : ρ.Rules a a') :
    Option.Rel (SpanRule.Linked (ρ.links a.grammar a'.grammar)) (r.span? a) (r'.span? a') := by
  obtain ⟨g, g', hg, hg', hrule⟩ := h.rule? ha
  rw [Registry.span?, Registry.span?, hg, hg', Option.bind_some, Option.bind_some, Grammar.span?,
    Grammar.span?]
  generalize g.rule? a.rule = rule at hrule
  generalize g'.rule? a'.rule = rule' at hrule
  cases hrule with
  | none => exact .none
  | some hlinked =>
    cases hlinked with
    | single _ => exact .none
    | span hs => exact .some hs

theorem originList (h : Alike ρ r r') {o o' : RuleOrigin} (ho : ρ.OriginPaired o o') :
    Option.Rel ρ.Lists (r.originList o) (r'.originList o') := by
  cases ho with
  | root hb => exact optionRel_map (h.base hb) fun _ _ hg => hg.2
  | span ha => exact optionRel_map (h.span? ha) fun _ _ hs => hs.patterns
  | capture hc =>
    obtain ⟨g, g', hg, hg', hcapture⟩ := h.capture? hc
    rw [Registry.originList, Registry.originList, hg, hg', Option.bind_some, Option.bind_some]
    exact optionRel_map (optionRel_bind hcapture fun _ _ hlinked => hlinked.patterns)
      fun _ _ hl => hl

theorem ruleEntry (h : Alike ρ r r') {a a' : RuleRef} (ha : ρ.Rules a a') :
    Option.Rel ρ.EntryPaired (r.ruleEntry a) (r'.ruleEntry a') := by
  obtain ⟨g, g', hg, hg', hrule⟩ := h.rule? ha
  rw [Registry.ruleEntry, Registry.ruleEntry, openingSource, openingSource, hg, hg',
    Option.bind_some, Option.bind_some, Option.map_map, Option.map_map]
  refine optionRel_map hrule fun rule rule' hlinked => ⟨.rule ha, ?_⟩
  cases hlinked with
  | single hm => exact h.pattern hm.pattern hg hg'
  | span hs => exact h.pattern hs.opening hg hg'

/-- Situations that stand for each other have the same rules in the same order. -/
theorem ruleEntries (h : Alike ρ r r') {s s' : Situation} (hs : ρ.SituationPaired s s') :
    List.Forall₂ ρ.EntryPaired (r.ruleEntries s).1 (r'.ruleEntries s').1 := by
  have hplace := h.originList hs.origin
  rw [Registry.ruleEntries, Registry.ruleEntries]
  generalize r.originList s.origin = place at hplace
  generalize r'.originList s'.origin = place' at hplace
  cases hplace with
  | none => exact .nil
  | some hl => exact List.rel_filterMap (fun _ _ ha => h.ruleEntry ha) (h.gather hs.base hl)

end Registry.Alike

end ScopeGrammar
