import Mathlib.Tactic.Choose
import ScopeGrammar.Proofs.Context.Resolve
import ScopeGrammar.Proofs.Session.InStep

/-!
# ScopeGrammar.Proofs.Registry.Renumbered

Registries with the same grammars but for the numbers of rules, lists and the like.

* `Registry.Renumbered` is kept by adding such grammars, or one grammar to both
  (`Registry.Renumbered.add`).
* `Registry.Renumbered.exists_pairing` : then the registries are paired.
* `Registry.Renumbered.sameTokens` : tokenizers of such registries give the same tokens for all
  lines, and states that are the same but for numbers.
* `Grammar.Paired.interchangeable` : so one grammar may take the place of another one that is the
  same but for numbers.
-/

namespace ScopeGrammar

namespace Registry

/-- Adds grammars one after the other. -/
def addAll (r : Registry) (grammars : List Grammar) : Registry :=
  grammars.foldl (fun r g => (r.add g).2) r

/-- Nothing is kept from before grammars were added. -/
theorem addAll_contexts {r : Registry} {grammars : List Grammar} (h : grammars ≠ []) :
    (r.addAll grammars).contexts.entries = [] := by
  obtain ⟨before, g, rfl⟩ := List.eq_nil_or_concat'  grammars |>.resolve_left h
  rw [addAll, List.foldl_append]
  exact congrArg (·.entries) (add_contexts _ g)

theorem addAll_empty_contexts (grammars : List Grammar) :
    (empty.addAll grammars).contexts.entries = [] := by
  cases grammars with
  | nil => rfl
  | cons g rest => exact addAll_contexts (List.cons_ne_nil g rest)

/-- The grammars have the same places and are the same but for numbers. -/
structure Renumbered (r r' : Registry) : Prop where
  ids : r.ids = r'.ids
  grammars : ∀ i : Nat,
    Option.Rel (fun g g' => ∃ μ, Grammar.Paired μ g g') r.grammars[i]? r'.grammars[i]?

namespace Renumbered

variable {r r' : Registry}

theorem of_sameGrammars (h : r.SameGrammars r') : r.Renumbered r' := by
  refine ⟨h.ids.symm, fun i => ?_⟩
  rw [h.grammars]
  cases r.grammars[i]? with
  | none => exact .none
  | some g => exact .some ⟨Eq, .refl g⟩

theorem size_eq (h : r.Renumbered r') : r.grammars.size = r'.grammars.size := by
  have hlast := h.grammars r.grammars.size
  have hlast' := h.grammars r'.grammars.size
  rcases Nat.lt_trichotomy r.grammars.size r'.grammars.size with hlt | heq | hgt
  · rw [Array.getElem?_eq_getElem hlt, Array.getElem?_eq_none (Nat.le_refl _)] at hlast
    cases hlast
  · exact heq
  · rw [Array.getElem?_eq_getElem hgt, Array.getElem?_eq_none (Nat.le_refl _)] at hlast'
    cases hlast'

/-- It stays so when such grammars are added. -/
theorem add (h : r.Renumbered r') {μ : Links} {g g' : Grammar} (hg : g.Paired μ g') :
    (r.add g).2.Renumbered (r'.add g').2 := by
  rw [Registry.add, Registry.add, id?, id?, ← h.ids, ← hg.scopeName]
  cases r.ids.lookup g.scopeName with
  | some id =>
    refine ⟨rfl, fun i => ?_⟩
    have hi := h.grammars i
    dsimp only
    rw [Array.getElem?_setIfInBounds, Array.getElem?_setIfInBounds, h.size_eq]
    by_cases hid : id.index = i
    · rw [if_pos hid, if_pos hid]
      split
      · exact .some ⟨μ, hg⟩
      · exact .none
    · rw [if_neg hid, if_neg hid]
      exact hi
  | none =>
    refine ⟨?_, fun i => ?_⟩
    · dsimp only
      rw [h.size_eq]
    · dsimp only
      rw [Array.getElem?_push, Array.getElem?_push, h.size_eq]
      split
      · exact .some ⟨μ, hg⟩
      · exact h.grammars i

theorem addAll (h : r.Renumbered r') (more : List Grammar) :
    (r.addAll more).Renumbered (r'.addAll more) := by
  induction more generalizing r r' with
  | nil => exact h
  | cons g rest ih => exact ih (h.add (.refl g))

end Renumbered

end Registry

/-! ## The pairing -/

/-- Every grammar stands for the one in its place, with links for each place. -/
def Pairing.inPlace (r : Registry) (links : Nat → Links) (shift : UInt32) : Pairing where
  base := Eq
  part p p' := p.1 = p'.1 ∧ (∃ g, r.grammar? p.1 = some g) ∧ links p.1.index p.2 p'.2
  shift := shift

namespace Registry

variable {r r' : Registry} {links : Nat → Links} {shift : UInt32}

theorem links_inPlace {id : GrammarId} {g : Grammar} (hg : r.grammar? id = some g) :
    (Pairing.inPlace r links shift).links id id = links id.index := by
  funext n n'
  exact propext ⟨fun hn => hn.2.2, fun hn => ⟨rfl, ⟨g, hg⟩, hn⟩⟩

section

variable (h : ∀ i, Option.Rel (Grammar.Paired (links i)) r.grammars[i]? r'.grammars[i]?)

include h

theorem grammar?_inPlace (id : GrammarId) :
    Option.Rel (Grammar.Paired (links id.index)) (r.grammar? id) (r'.grammar? id) := h id.index

theorem paired_inPlace {id : GrammarId} {g : Grammar} (hg : r.grammar? id = some g) :
    ∃ g', r'.grammar? id = some g' ∧ g.Paired (links id.index) g' := by
  have hid := grammar?_inPlace h id
  rw [hg] at hid
  generalize r'.grammar? id = found at hid
  cases hid with
  | some hpaired => exact ⟨_, rfl, hpaired⟩

theorem missing_inPlace {id : GrammarId} (hg : r.grammar? id = none) : r'.grammar? id = none := by
  have hid := grammar?_inPlace h id
  rw [hg] at hid
  generalize r'.grammar? id = found at hid
  cases hid
  rfl

theorem inPlace_unique : Relator.BiUnique (Pairing.inPlace r links shift).part := by
  constructor
  · rintro ⟨id, n⟩ ⟨id', n'⟩ ⟨id'', m⟩ ⟨rfl, ⟨g, hg⟩, hn⟩ ⟨rfl, _, hn'⟩
    obtain ⟨g', _, hpaired⟩ := paired_inPlace h hg
    cases hpaired.unique.1 hn hn'
    rfl
  · rintro ⟨id'', m⟩ ⟨id, n⟩ ⟨id', n'⟩ ⟨rfl, ⟨g, hg⟩, hn⟩ ⟨rfl, _, hn'⟩
    obtain ⟨g', _, hpaired⟩ := paired_inPlace h hg
    cases hpaired.unique.2 hn hn'
    rfl

theorem base_inPlace (b : GrammarId) :
    Option.Rel (fun g g' => g.scope = g'.scope ∧
      (Pairing.inPlace r links shift).Lists (b, g.root) (b, g'.root))
      (r.grammar? b) (r'.grammar? b) := by
  cases hg : r.grammar? b with
  | none =>
    rw [missing_inPlace h hg]
    exact .none
  | some g =>
    obtain ⟨g', hg', hpaired⟩ := paired_inPlace h hg
    rw [hg']
    exact .some ⟨hpaired.scope, rfl, ⟨g, hg⟩, hpaired.root⟩

/-- Includes that are the same but for numbers lead to lists that stand for each other. -/
theorem target_inPlace (hids : r.ids = r'.ids) (b : GrammarId) {id : GrammarId} {g g' : Grammar}
    (hg : r.grammar? id = some g) (hpaired : g.Paired (links id.index) g') {i i' : Include}
    (hi : ListItem.Linked (links id.index) (.linked i) (.linked i')) :
    Option.Rel (Pairing.inPlace r links shift).Lists (r.target b id g i).1
      (r'.target b id g' i').1 := by
  cases hi with
  | @linked target σ σ' hσ =>
    cases target with
    | self => exact .some ⟨rfl, ⟨g, hg⟩, hpaired.root⟩
    | base => exact optionRel_map (base_inPlace h b) fun _ _ hk => hk.2
    | entry name =>
      exact optionRel_map (hpaired.visibleEntry? hσ name) fun _ _ hl => ⟨rfl, ⟨g, hg⟩, hl⟩
    | foreign scopeName entry =>
      rw [Registry.target, Registry.target]
      dsimp only
      rw [id?, id?, ← hids]
      cases r.ids.lookup scopeName with
      | none => exact .none
      | some other =>
        dsimp only
        cases hk : r.grammar? other with
        | none =>
          rw [missing_inPlace h hk]
          exact .none
        | some k =>
          obtain ⟨k', hk', hpaired'⟩ := paired_inPlace h hk
          rw [hk']
          cases entry with
          | none => exact .some ⟨rfl, ⟨k, hk⟩, hpaired'.root⟩
          | some name =>
            have hentry := hpaired'.ownEntry? name
            dsimp only
            generalize k.ownEntry? name = found at hentry
            generalize k'.ownEntry? name = found' at hentry
            cases hentry with
            | none => exact .none
            | some hl => exact .some ⟨rfl, ⟨k, hk⟩, hl⟩

theorem paired_of_inPlace (hids : r.ids = r'.ids) :
    r.Paired (.inPlace r links shift) r' where
  base_unique := ⟨fun _ _ _ h h' => h.trans h'.symm, fun _ _ _ h h' => h.symm.trans h'⟩
  part_unique := inPlace_unique h
  base := by
    rintro b _ rfl
    exact base_inPlace h b
  part := by
    rintro id _ n n' ⟨rfl, ⟨g, hg⟩, hn⟩
    obtain ⟨g', hg', hpaired⟩ := paired_inPlace h hg
    refine ⟨g, g', hg, hg', ?_⟩
    rw [links_inPlace hg]
    exact hpaired.parts hn
  target := by
    rintro b _ ⟨id, l⟩ ⟨_, l'⟩ g g' i i' rfl ⟨rfl, _, _⟩ hg hg' _ hi
    obtain ⟨k, hk, hpaired⟩ := paired_inPlace h hg
    cases hg'.symm.trans hk
    rw [links_inPlace hg] at hi
    exact target_inPlace h hids b hg hpaired hi

end

namespace Renumbered

/-- The registries are paired, with every grammar standing for the one in its place. -/
theorem exists_pairing (h : r.Renumbered r') (shift : UInt32) :
    ∃ ρ : Pairing, ρ.KeepsGrammars ∧ ρ.shift = shift ∧ r.Paired ρ r' := by
  have hlinks : ∀ i : Nat, ∃ μ, Option.Rel (Grammar.Paired μ) r.grammars[i]? r'.grammars[i]? := by
    intro i
    have hi := h.grammars i
    generalize r.grammars[i]? = g at hi
    generalize r'.grammars[i]? = g' at hi
    cases hi with
    | none => exact ⟨Eq, .none⟩
    | some hg =>
      obtain ⟨μ, hg⟩ := hg
      exact ⟨μ, .some hg⟩
  choose links hpaired using hlinks
  exact ⟨.inPlace r links shift, ⟨rfl, fun h => h.1⟩, rfl, paired_of_inPlace hpaired h.ids⟩

end Renumbered

end Registry

/-! ## The same tokens -/

/-- Tokenizers for a scope name, which there are in both registries or in none, give the same tokens
for all lines, and states that are the same but for numbers. -/
def Registry.SameTokens {P : Type} (engine : Engine P) (ρ : Pairing) (r r' : Registry) : Prop :=
  ∀ scopeName options, Option.Rel
    (fun s s' : Session P => ∀ lines, List.Forall₂ ρ.TokenizedPaired
      ((SessionM.tokenizeLines engine lines .fresh).run s).1
      ((SessionM.tokenizeLines engine lines .fresh).run s').1)
    (r.session scopeName options).toOption (r'.session scopeName options).toOption

namespace Registry

variable {P : Type} (engine : Engine P) {r r' : Registry}

theorem Renumbered.sameTokens (h : r.Renumbered r') (hnew : r.contexts.entries = [])
    (hnew' : r'.contexts.entries = []) :
    ∃ ρ : Pairing, ρ.KeepsGrammars ∧ r.Paired ρ r' ∧ r.SameTokens engine ρ r' := by
  -- the distance between the numbers that come next
  obtain ⟨ρ, hkeeps, hshift, hpaired⟩ :=
    h.exists_pairing (r'.contexts.made.toUInt32 - r.contexts.made.toUInt32)
  have hstore : ρ.StorePaired r.contexts r'.contexts := .of_new hnew hnew' hshift
  refine ⟨ρ, hkeeps, hpaired, fun scopeName options => ?_⟩
  rw [Registry.session, Registry.session, id?, id?, ← h.ids]
  cases r.ids.lookup scopeName with
  | none => exact .none
  | some b =>
    have hb : ρ.base b b := by rw [hkeeps.base]
    refine .some fun lines => ?_
    have hstart := Session.InStep.start (P := P) ⟨hpaired.alike, hstore⟩ hb options
    exact (SessionM.tokenizeLines_inStep engine lines .fresh _ _ (hstart _ _)).1

end Registry

/-- Each may take the place of the other one: added to equal grammars, with any grammars added after
them, they give the same tokens. -/
def Grammar.Interchangeable {P : Type} (engine : Engine P) (g g' : Grammar) : Prop :=
  ∀ (r r' : Registry) (more : List Grammar), r.SameGrammars r' →
    ∃ ρ : Pairing, ρ.KeepsGrammars ∧ (r.addAll (g :: more)).Paired ρ (r'.addAll (g' :: more)) ∧
      (r.addAll (g :: more)).SameTokens engine ρ (r'.addAll (g' :: more))

theorem Grammar.Paired.interchangeable {P : Type} (engine : Engine P) {μ : Links} {g g' : Grammar}
    (h : g.Paired μ g') : g.Interchangeable engine g' := by
  intro r r' more hsame
  have hrenumbered : (r.addAll (g :: more)).Renumbered (r'.addAll (g' :: more)) :=
    ((Registry.Renumbered.of_sameGrammars hsame).add h).addAll more
  exact hrenumbered.sameTokens engine (Registry.addAll_contexts (List.cons_ne_nil g more))
    (Registry.addAll_contexts (List.cons_ne_nil g' more))

end ScopeGrammar
