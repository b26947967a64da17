import ScopeGrammar.Registry.Resolve

/-!
# ScopeGrammar.Proofs.Context.Resolve

What resolving a situation does to a registry.

* `Registry.entriesFor` are the candidates of a situation. They depend on the grammars alone
  (`SameGrammars.entriesFor_eq`), not on what is kept.
* `Registry.resolve_cases` : a context is one that is kept, or is made of these candidates under the
  next number.
-/

namespace ScopeGrammar

namespace Registry

def entriesFor (r : Registry) (s : Situation) : List (Candidate × String) :=
  allEntries s (r.ruleEntries s).1

/-- The registries differ at most in the contexts that are kept. -/
structure SameGrammars (r r' : Registry) : Prop where
  grammars : r'.grammars = r.grammars
  ids : r'.ids = r.ids

theorem gatherList_withContexts (r : Registry) (contexts : ContextStore) (base : GrammarId)
    (levels : Nat) (place : GrammarId × ListId) (g : Gathering) :
    gatherList { r with contexts } base levels place g = gatherList r base levels place g := by
  induction levels generalizing place g with
  | zero => rfl
  | succ levels ih =>
    have hgrammar : ∀ id, grammar? { r with contexts } id = r.grammar? id := fun _ => rfl
    have htarget : ∀ id grammar i,
        target { r with contexts } base id grammar i = r.target base id grammar i :=
      fun _ _ _ => rfl
    rw [gatherList, gatherList]
    simp only [hgrammar, htarget, ih]

namespace SameGrammars

variable {r r' r'' : Registry}

theorem refl (r : Registry) : r.SameGrammars r := ⟨rfl, rfl⟩

theorem symm (h : r.SameGrammars r') : r'.SameGrammars r := ⟨h.grammars.symm, h.ids.symm⟩

theorem trans (h : r.SameGrammars r') (h' : r'.SameGrammars r'') : r.SameGrammars r'' :=
  ⟨h'.grammars.trans h.grammars, h'.ids.trans h.ids⟩

theorem eq_withContexts (h : r.SameGrammars r') : r' = { r with contexts := r'.contexts } := by
  obtain ⟨hgrammars, hids⟩ := h
  cases r'
  cases hgrammars
  cases hids
  rfl

theorem grammar?_eq (h : r.SameGrammars r') (id : GrammarId) : r'.grammar? id = r.grammar? id := by
  rw [grammar?, grammar?, h.grammars]

theorem span?_eq (h : r.SameGrammars r') (rule : RuleRef) : r'.span? rule = r.span? rule := by
  rw [span?, span?, h.grammar?_eq]

theorem ruleEntries_eq (h : r.SameGrammars r') (s : Situation) :
    r'.ruleEntries s = r.ruleEntries s := by
  rw [h.eq_withContexts]
  have horigin : originList { r with contexts := r'.contexts } = r.originList := rfl
  have hgather : ∀ base place, gather { r with contexts := r'.contexts } base place =
      r.gather base place := by
    intro base place
    rw [gather, gather, gatherList_withContexts]
    rfl
  have hentry : ruleEntry { r with contexts := r'.contexts } = r.ruleEntry := rfl
  rw [ruleEntries, ruleEntries, horigin]
  simp only [hgather, hentry]

theorem entriesFor_eq (h : r.SameGrammars r') (s : Situation) :
    r'.entriesFor s = r.entriesFor s := by
  rw [entriesFor, entriesFor, h.ruleEntries_eq]

end SameGrammars

/-! ## The context of a situation -/

theorem buildContext_entries (r : Registry) (s : Situation) (id : ContextId) :
    (r.buildContext s id).1.entries = r.entriesFor s := rfl

theorem buildContext_id (r : Registry) (s : Situation) (id : ContextId) :
    (r.buildContext s id).1.id = id := rfl

def nextId (r : Registry) : ContextId := ⟨r.contexts.made.toUInt32⟩

/-- A context is kept already, or is made under the next number; only where the situation can come
up again it is kept from then on. -/
theorem resolve_cases (r : Registry) (s : Situation) :
    ((s, (r.resolve s).1.1) ∈ r.contexts.entries ∧ (r.resolve s).2 = r) ∨
    ((r.resolve s).1.1 = (r.buildContext s r.nextId).1 ∧
      ∃ kept, (r.resolve s).2 = { r with contexts := ⟨kept, r.contexts.made + 1⟩ } ∧
        (kept = r.contexts.entries ∨
          s.isReusable ∧ kept = (s, (r.resolve s).1.1) :: r.contexts.entries)) := by
  rw [resolve]
  split
  · next hreusable =>
    cases hget : r.contexts.get? s with
    | some context =>
      rw [ContextStore.get?] at hget
      obtain ⟨_, _, hentries, _⟩ := List.lookup_eq_some_iff.1 hget
      refine .inl ⟨?_, rfl⟩
      simp [hentries]
    | none => exact .inr ⟨rfl, _, rfl, .inr ⟨hreusable, rfl⟩⟩
  · exact .inr ⟨rfl, _, rfl, .inl rfl⟩

theorem resolve_sameGrammars (r : Registry) (s : Situation) : r.SameGrammars (r.resolve s).2 := by
  obtain ⟨_, hr⟩ | ⟨_, kept, hr, _⟩ := r.resolve_cases s
  · rw [hr]; exact .refl r
  · rw [hr]; exact ⟨rfl, rfl⟩

theorem resolve_made (r : Registry) (s : Situation) :
    r.contexts.made ≤ (r.resolve s).2.contexts.made := by
  obtain ⟨_, hr⟩ | ⟨_, kept, hr, _⟩ := r.resolve_cases s
  · exact Nat.le_of_eq (by rw [hr])
  · rw [hr]; exact Nat.le_succ _

end Registry

end ScopeGrammar
