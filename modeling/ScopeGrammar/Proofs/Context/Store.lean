import ScopeGrammar.Proofs.Context.Resolve

/-!
# ScopeGrammar.Proofs.Context.Store

The contexts that a registry keeps.

* `Registry.resolve_of_kept` and `Registry.resolve_anew` are what resolving gives where the
  situation is known and where it is not.
* `Registry.KeepsOnce` : no situation is kept twice, whatever is resolved.
* `Registry.Keeps` : a registry still has all contexts that an earlier one kept, under the same
  situations. Resolving keeps them (`Registry.resolve_keeps`).
-/

namespace ScopeGrammar

namespace ContextStore

theorem mem_of_get? {c : ContextStore} {s : Situation} {context : Context}
    (h : c.get? s = some context) : (s, context) ∈ c.entries := by
  obtain ⟨before, after, hentries, _⟩ := List.lookup_eq_some_iff.1 h
  simp [hentries]

theorem not_mem_of_get?_none {c : ContextStore} {s : Situation} (h : c.get? s = none)
    (context : Context) : (s, context) ∉ c.entries := by
  intro hmem
  simpa using List.lookup_eq_none_iff.1 h _ hmem

theorem get?_cons (s s' : Situation) (context : Context) (entries : List (Situation × Context))
    (made : Nat) :
    get? ⟨(s, context) :: entries, made⟩ s' =
      if s' = s then some context else get? ⟨entries, made⟩ s' := by
  rw [get?, List.lookup_cons]
  by_cases hsame : s' = s
  · simp [hsame]
  · have hother : (s' == s) = false := by simpa using hsame
    rw [hother, if_neg hsame, get?]

end ContextStore

namespace Registry

variable {r r' r'' : Registry} {s s' : Situation} {c : Context}

/-! ## What resolving gives -/

theorem resolve_of_kept (hs : s.isReusable = true) (hget : r.contexts.get? s = some c) :
    r.resolve s = ((c, []), r) := by
  rw [resolve, if_pos hs, hget]

/-- What is not known is made, under the next number, and kept if it can come up again. -/
theorem resolve_anew (hnew : s.isReusable = true → r.contexts.get? s = none) :
    r.resolve s =
      (r.buildContext s r.nextId,
        { r with contexts :=
          { entries :=
              if s.isReusable then (s, (r.buildContext s r.nextId).1) :: r.contexts.entries
              else r.contexts.entries
            made := r.contexts.made + 1 } }) := by
  rw [resolve]
  cases hs : s.isReusable with
  | true => rw [if_pos rfl, hnew hs]; rfl
  | false => rfl

/-- From then on the context of a situation that can come up again is kept. -/
theorem get?_resolve (hs : s.isReusable = true) :
    (r.resolve s).2.contexts.get? s = some (r.resolve s).1.1 := by
  cases hget : r.contexts.get? s with
  | some c => rw [resolve_of_kept hs hget, hget]
  | none =>
    rw [resolve_anew fun _ => hget, if_pos hs]
    dsimp only
    rw [ContextStore.get?_cons, if_pos rfl]

/-! ## What is kept -/

theorem add_contexts (r : Registry) (g : Grammar) : (r.add g).2.contexts = r.contexts.clear := by
  rw [add]
  cases r.id? g.scopeName <;> rfl

/-- Each situation is kept once. -/
def KeepsOnce (r : Registry) : Prop := (r.contexts.entries.map (·.1)).Nodup

theorem KeepsOnce.resolve (h : r.KeepsOnce) (s : Situation) : (r.resolve s).2.KeepsOnce := by
  by_cases hs : s.isReusable
  · cases hget : r.contexts.get? s with
    | some c => rw [resolve_of_kept hs hget]; exact h
    | none =>
      rw [resolve_anew fun _ => hget, if_pos hs]
      refine List.nodup_cons.2 ⟨fun hmem => ?_, h⟩
      obtain ⟨⟨s', c⟩, hentry, rfl⟩ := List.mem_map.1 hmem
      exact ContextStore.not_mem_of_get?_none hget c hentry
  · rw [resolve_anew fun h => absurd h hs, if_neg hs]
    exact h

/-- Nothing is kept but what was kept before and the situation itself. -/
theorem mem_resolve (h : (s', c) ∈ (r.resolve s).2.contexts.entries) :
    (s', c) ∈ r.contexts.entries ∨ s.isReusable = true ∧ s' = s := by
  obtain ⟨_, hr⟩ | ⟨_, kept, hr, rfl | ⟨hs, rfl⟩⟩ := r.resolve_cases s <;> rw [hr] at h
  · exact .inl h
  · exact .inl h
  · obtain heq | hmem := List.mem_cons.1 h
    · cases heq; exact .inr ⟨hs, rfl⟩
    · exact .inl hmem

/-! ## Nothing that is kept is lost -/

/-- All contexts that were kept are kept still. -/
structure Keeps (r r' : Registry) : Prop where
  get? : ∀ {s c}, r.contexts.get? s = some c → r'.contexts.get? s = some c

theorem Keeps.refl (r : Registry) : r.Keeps r := ⟨fun h => h⟩

theorem Keeps.trans (h : r.Keeps r') (h' : r'.Keeps r'') : r.Keeps r'' :=
  ⟨fun hget => h'.get? (h.get? hget)⟩

theorem resolve_keeps (r : Registry) (s : Situation) : r.Keeps (r.resolve s).2 := by
  constructor
  intro s' c hget'
  cases hs : s.isReusable with
  | false => rw [resolve_anew (by simp [hs]), hs]; exact hget'
  | true =>
    cases hget : r.contexts.get? s with
    | some context => rw [resolve_of_kept hs hget]; exact hget'
    | none =>
      have hne : s' ≠ s := by
        rintro rfl
        rw [hget] at hget'
        cases hget'
      rw [resolve_anew fun _ => hget, if_pos hs]
      dsimp only
      rw [ContextStore.get?_cons, if_neg hne]
      exact hget'

/-- A context that is kept is found again. -/
theorem Keeps.resolve_eq (h : (r.resolve s).2.Keeps r') (hs : s.isReusable = true) :
    (r'.resolve s).1.1 = (r.resolve s).1.1 := by
  rw [resolve_of_kept hs (h.get? (get?_resolve hs))]

end Registry

end ScopeGrammar
