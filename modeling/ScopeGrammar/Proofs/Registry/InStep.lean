import ScopeGrammar.Proofs.Registry.Pairing
import ScopeGrammar.Registry.Resolve

/-!
# ScopeGrammar.Proofs.Registry.InStep

Registries that are alike and have made their contexts side by side.

* `Registry.InStep` : the contexts kept are the same but for numbers, and the numbers of contexts
  are a fixed distance apart.
* `Registry.InStep.resolve` : it stays so whenever a context is asked for.
-/

namespace ScopeGrammar

namespace Pairing

variable {ρ : Pairing}

/-! ## Contexts -/

structure ContextPaired (ρ : Pairing) (c c' : Context) : Prop where
  id : c'.id.val = c.id.val + ρ.shift
  entries : List.Forall₂ ρ.EntryPaired c.entries c'.entries

namespace ContextPaired

variable {c c' : Context}

theorem sources (h : ρ.ContextPaired c c') : c.sources = c'.sources := by
  have hsources : List.Forall₂ Eq c.sources c'.sources :=
    List.rel_map (fun _ _ he => he.2) h.entries
  rwa [List.forall₂_eq_eq_eq] at hsources

theorem usesAnchors (h : ρ.ContextPaired c c') : c.usesAnchors = c'.usesAnchors := by
  have hmention (entries : List (Candidate × String)) : mentionAnchors entries =
      (entries.map (·.2)).any fun source => Anchoring.mentionsAnchor source.toList := by
    rw [mentionAnchors, List.any_map]
    rfl
  have hsources : c.entries.map (·.2) = c'.entries.map (·.2) := h.sources
  rw [c.usesAnchors_eq, c'.usesAnchors_eq, hmention, hmention, hsources]

theorem candidate? (h : ρ.ContextPaired c c') (i : Nat) :
    Option.Rel ρ.CandidatePaired (c.candidate? i) (c'.candidate? i) := by
  have hentries := List.forall₂_drop i h.entries
  rw [Context.candidate?, Context.candidate?, ← List.head?_drop, ← List.head?_drop]
  generalize c.entries.drop i = entries at hentries
  generalize c'.entries.drop i = entries' at hentries
  cases hentries with
  | nil => exact .none
  | cons he _ => exact .some he.1

end ContextPaired

/-! ## Situations -/

namespace SituationPaired

variable {s s' : Situation}

theorem isReusable (h : ρ.SituationPaired s s') : s.isReusable = s'.isReusable := by
  rw [Situation.isReusable, Situation.isReusable, Situation.ends, Situation.ends, h.ownEnd,
    h.outerEnds]

theorem allEntries (h : ρ.SituationPaired s s') {rules rules' : List (Candidate × String)}
    (hrules : List.Forall₂ ρ.EntryPaired rules rules') :
    List.Forall₂ ρ.EntryPaired (Registry.allEntries s rules) (Registry.allEntries s' rules') := by
  have hends (l : List EndMark) :
      List.Forall₂ ρ.EntryPaired (l.map EndMark.candidate) (l.map EndMark.candidate) := by
    refine List.forall₂_same.2 fun e he => ?_
    obtain ⟨mark, _, rfl⟩ := List.mem_map.1 he
    exact ⟨.closing mark.distance, rfl⟩
  rw [Registry.allEntries, Registry.allEntries, ← h.ownEnd, ← h.endLast, ← h.outerEnds]
  split
  · exact List.rel_append (List.rel_append hrules (hends _)) (hends _)
  · exact List.rel_append (List.rel_append (hends _) hrules) (hends _)

end SituationPaired

end Pairing

namespace Registry.Alike

variable {ρ : Pairing} {r r' : Registry}

theorem origins_unique (h : Alike ρ r r') : Relator.BiUnique ρ.OriginPaired := by
  constructor
  · intro _ _ _ ho hu
    cases ho with
    | root hb =>
      cases hu with
      | root hb' => rw [h.base_unique.1 hb hb']
    | span ha =>
      cases hu with
      | span ha' => rw [h.rules_unique.1 ha ha']
    | capture hc =>
      cases hu with
      | capture hc' =>
        cases h.captures_unique.1 hc hc'
        rfl
  · intro _ _ _ ho hu
    cases ho with
    | root hb =>
      cases hu with
      | root hb' => rw [h.base_unique.2 hb hb']
    | span ha =>
      cases hu with
      | span ha' => rw [h.rules_unique.2 ha ha']
    | capture hc =>
      cases hu with
      | capture hc' =>
        cases h.captures_unique.2 hc hc'
        rfl

theorem situations_unique (h : Alike ρ r r') : Relator.BiUnique ρ.SituationPaired := by
  constructor
  · rintro ⟨_, _, _, _, _⟩ ⟨_, _, _, _, _⟩ ⟨_, _, _, _, _⟩ hs hu
    obtain ⟨hb, ho, rfl, rfl, rfl⟩ := hs
    obtain ⟨hc, hp, rfl, rfl, rfl⟩ := hu
    cases h.base_unique.1 hb hc
    cases h.origins_unique.1 ho hp
    rfl
  · rintro ⟨_, _, _, _, _⟩ ⟨_, _, _, _, _⟩ ⟨_, _, _, _, _⟩ hs hu
    obtain ⟨hb, ho, rfl, rfl, rfl⟩ := hs
    obtain ⟨hc, hp, rfl, rfl, rfl⟩ := hu
    cases h.base_unique.2 hb hc
    cases h.origins_unique.2 ho hp
    rfl

theorem buildContext (h : Alike ρ r r') {s s' : Situation} (hs : ρ.SituationPaired s s')
    {id id' : ContextId} (hid : id'.val = id.val + ρ.shift) :
    ρ.ContextPaired (r.buildContext s id).1 (r'.buildContext s' id').1 :=
  ⟨hid, hs.allEntries (h.ruleEntries hs)⟩

end Registry.Alike

/-! ## Contexts that are kept -/

/-- Entries of keys that stand for each other are found on both sides or on none. -/
theorem lookup_of_forall₂ {α β γ δ : Type} [BEq α] [LawfulBEq α] [BEq β] [LawfulBEq β]
    {K : α → β → Prop} {V : γ → δ → Prop} (hK : Relator.BiUnique K) {l : List (α × γ)}
    {l' : List (β × δ)} (h : List.Forall₂ (fun e e' => K e.1 e'.1 ∧ V e.2 e'.2) l l') {a : α}
    {b : β} (hab : K a b) : Option.Rel V (l.lookup a) (l'.lookup b) := by
  induction h with
  | nil => exact .none
  | @cons e e' _ _ he _ ih =>
    obtain ⟨k, v⟩ := e
    obtain ⟨k', v'⟩ := e'
    obtain ⟨hk, hv⟩ := he
    by_cases heq : a = k
    · subst heq
      cases hK.2 hab hk
      rw [List.lookup_cons_self, List.lookup_cons_self]
      exact .some hv
    · have hne : b ≠ k' := by
        rintro rfl
        exact heq (hK.1 hab hk)
      rw [List.lookup_cons, List.lookup_cons, beq_false_of_ne heq, beq_false_of_ne hne]
      exact ih

structure Pairing.StorePaired (ρ : Pairing) (c c' : ContextStore) : Prop where
  entries : List.Forall₂ (fun e e' => ρ.SituationPaired e.1 e'.1 ∧ ρ.ContextPaired e.2 e'.2)
    c.entries c'.entries
  made : c'.made.toUInt32 = c.made.toUInt32 + ρ.shift

/-- Where no contexts are kept it is enough that the numbers that come next are so far apart. -/
theorem Pairing.StorePaired.of_new {ρ : Pairing} {c c' : ContextStore} (h : c.entries = [])
    (h' : c'.entries = []) (hshift : ρ.shift = c'.made.toUInt32 - c.made.toUInt32) :
    ρ.StorePaired c c' := by
  refine ⟨?_, ?_⟩
  · rw [h, h']
    exact .nil
  · rw [hshift, UInt32.add_comm, UInt32.sub_add_cancel]

structure Registry.InStep (ρ : Pairing) (r r' : Registry) : Prop where
  alike : Registry.Alike ρ r r'
  contexts : ρ.StorePaired r.contexts r'.contexts

namespace Registry.InStep

variable {ρ : Pairing} {r r' : Registry} {s s' : Situation}

theorem withContexts (h : InStep ρ r r') {c c' : ContextStore} (hc : ρ.StorePaired c c') :
    InStep ρ { r with contexts := c } { r' with contexts := c' } where
  alike := ⟨h.alike.base_unique, h.alike.part_unique, h.alike.base, h.alike.items, h.alike.rule?,
    h.alike.capture?, h.alike.pattern⟩
  contexts := hc

theorem freshContext (h : InStep ρ r r') (hs : ρ.SituationPaired s s') :
    ρ.ContextPaired (r.freshContext s).1.1 (r'.freshContext s').1.1 ∧
      InStep ρ (r.freshContext s).2 (r'.freshContext s').2 := by
  refine ⟨h.alike.buildContext hs h.contexts.made, h.withContexts ⟨h.contexts.entries, ?_⟩⟩
  have hmade := h.contexts.made
  simp only [Nat.toUInt32_eq, UInt32.ofNat_add] at hmade ⊢
  rw [hmade, UInt32.add_assoc, UInt32.add_assoc, UInt32.add_comm ρ.shift]

theorem resolve (h : InStep ρ r r') (hs : ρ.SituationPaired s s') :
    ρ.ContextPaired (r.resolve s).1.1 (r'.resolve s').1.1 ∧
      InStep ρ (r.resolve s).2 (r'.resolve s').2 := by
  rw [Registry.resolve, Registry.resolve, hs.isReusable]
  by_cases hreusable : s'.isReusable = true
  · have hfound := lookup_of_forall₂ h.alike.situations_unique h.contexts.entries hs
    rw [if_pos hreusable, if_pos hreusable, ContextStore.get?, ContextStore.get?]
    generalize r.contexts.entries.lookup s = found at hfound
    generalize r'.contexts.entries.lookup s' = found' at hfound
    cases hfound with
    | some hcontext => exact ⟨hcontext, h⟩
    | none =>
      obtain ⟨hcontext, hafter⟩ := h.freshContext hs
      exact ⟨hcontext, hafter.withContexts
        ⟨.cons ⟨hs, hcontext⟩ hafter.contexts.entries, hafter.contexts.made⟩⟩
  · rw [if_neg hreusable, if_neg hreusable]
    exact h.freshContext hs

end Registry.InStep

end ScopeGrammar
