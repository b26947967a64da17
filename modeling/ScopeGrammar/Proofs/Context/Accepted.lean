import ScopeGrammar.Proofs.Context.Winner

/-!
# ScopeGrammar.Proofs.Context.Accepted

Searching a context some of whose patterns may be refused.

* `Context.Accepts` : the pattern of a candidate compiles by itself, with the anchors rewritten.
* `ContextGroup.search_build_iff` : the group of a context finds the first of these candidates that
  matches at the leftmost position where any of them does, by its place in the context.
-/

namespace ScopeGrammar

variable {P : Type} {engine : Engine P}

namespace Engine

variable {anchors : Anchoring} {t : Subject} {start : Nat}

theorem attemptSource_eq_some_iff {source : String} {pos : Nat} {m : Match} :
    engine.attemptSource source t start pos = some m ↔
      ∃ p, engine.compile {} source = .ok p ∧ engine.attempt p t start pos = some m := by
  rw [attemptSource]
  cases engine.compile {} source <;> simp

theorem attemptSource_eq_none_iff {source : String} {pos : Nat} :
    engine.attemptSource source t start pos = none ↔
      ∀ p, engine.compile {} source = .ok p → engine.attempt p t start pos = none := by
  rw [attemptSource]
  cases engine.compile {} source <;> simp

variable {sources : List String}

/-- Where candidates are told by their places, the winner is the leftmost one and the first there. -/
theorem winner_places_eq_some_iff {i : Nat} {m : Match} :
    engine.winner anchors t start (sources.zipIdx.map Prod.swap) = some (i, m) ↔
      start < t.length ∧ ∃ pos, Leftmost
        (fun source pos => engine.attemptSource (anchors.rewrite source) t start pos)
        sources start t.length i m pos := by
  rw [winner]
  split
  · next hend => exact iff_of_false (by simp) fun h => Nat.not_le.2 h.1 hend
  · next hend =>
    rw [← firstFrom_findSome?_iff (by omega)]
    simp only [firstHit, List.findSome?_map]
    exact (and_iff_right (by omega)).symm

theorem winner_places_eq_none_iff :
    engine.winner anchors t start (sources.zipIdx.map Prod.swap) = none ↔
      (start < t.length → ∀ source ∈ sources, ∀ pos, start ≤ pos → pos ≤ t.length →
        engine.attemptSource (anchors.rewrite source) t start pos = none) := by
  rw [winner]
  split
  · next hend => exact iff_of_true rfl fun hlt => absurd hend (Nat.not_le.2 hlt)
  · next hend =>
    rw [firstFrom_eq_none_iff]
    simp only [firstHit, List.findSome?_map, List.findSome?_eq_none_iff]
    constructor
    · intro h _ source hmem pos hlow hhigh
      obtain ⟨i, hi⟩ := List.mem_iff_getElem?.1 hmem
      simpa using h pos hlow (by omega) (source, i) (List.mem_zipIdx_iff_getElem?.2 hi)
    · rintro h pos hlow hhigh ⟨source, i⟩ hmem
      have hnone := h (by omega) source (List.fst_mem_of_mem_zipIdx hmem) pos hlow (by omega)
      simpa using hnone

end Engine

/-- The pattern of the candidate in place `i` is accepted, as `p`. -/
def Context.Accepts (engine : Engine P) (context : Context) (anchors : Anchoring) (i : Nat)
    (p : P) : Prop :=
  ∃ source, context.sources[i]? = some source ∧
    engine.compile {} (anchors.rewrite source) = .ok p

theorem Context.forall_attemptSource_eq_none_iff {context : Context} {anchors : Anchoring}
    {t : Subject} {start pos : Nat} :
    (∀ source ∈ context.sources,
        engine.attemptSource (anchors.rewrite source) t start pos = none) ↔
      ∀ j q, context.Accepts engine anchors j q → engine.attempt q t start pos = none := by
  constructor
  · rintro h j q ⟨source, hget, hq⟩
    exact Engine.attemptSource_eq_none_iff.1 (h source (List.mem_of_getElem? hget)) q hq
  · intro h source hmem
    obtain ⟨j, hj⟩ := List.mem_iff_getElem?.1 hmem
    exact Engine.attemptSource_eq_none_iff.2 fun q hq => h j q ⟨source, hj, hq⟩

/-- The group of a context finds the candidate that comes first among those that are accepted and
match at the leftmost position, whether any are refused or not. -/
theorem ContextGroup.search_build_iff (engine : Engine P) (context : Context)
    (anchors : Anchoring) (t : Subject) (start : Nat) :
    (∀ i m, (ContextGroup.build engine context anchors).1.search engine t start = some (i, m) ↔
      start < t.length ∧ ∃ pos p, start ≤ pos ∧ pos ≤ t.length ∧
        context.Accepts engine anchors i p ∧ engine.attempt p t start pos = some m ∧
        (∀ j q, context.Accepts engine anchors j q → j < i →
          engine.attempt q t start pos = none) ∧
        ∀ before, start ≤ before → before < pos →
          ∀ j q, context.Accepts engine anchors j q → engine.attempt q t start before = none) ∧
    ((ContextGroup.build engine context anchors).1.search engine t start = none ↔
      (start < t.length → ∀ j q, context.Accepts engine anchors j q →
        ∀ pos, start ≤ pos → pos ≤ t.length → engine.attempt q t start pos = none)) := by
  refine ⟨fun i m => ?_, ?_⟩
  · rw [search_build_eq, Engine.winner_places_eq_some_iff]
    refine and_congr_right fun _ => exists_congr fun pos => ?_
    constructor
    · rintro ⟨hlow, hhigh, ⟨source, hget, hattempt⟩, hfirst, hleft⟩
      obtain ⟨p, hp, hm⟩ := Engine.attemptSource_eq_some_iff.1 hattempt
      refine ⟨p, hlow, hhigh, ⟨source, hget, hp⟩, hm, ?_, fun before hstart hlt => ?_⟩
      · rintro j q ⟨source', hget', hq⟩ hj
        exact Engine.attemptSource_eq_none_iff.1 (hfirst j source' hj hget') q hq
      · exact Context.forall_attemptSource_eq_none_iff.1 (hleft before hstart hlt)
    · rintro ⟨p, hlow, hhigh, ⟨source, hget, hp⟩, hm, hfirst, hleft⟩
      refine ⟨hlow, hhigh, ⟨source, hget, Engine.attemptSource_eq_some_iff.2 ⟨p, hp, hm⟩⟩,
        fun j source' hj hget' => ?_, fun before hstart hlt => ?_⟩
      · exact Engine.attemptSource_eq_none_iff.2 fun q hq => hfirst j q ⟨source', hget', hq⟩ hj
      · exact Context.forall_attemptSource_eq_none_iff.2 (hleft before hstart hlt)
  · rw [search_build_eq, Engine.winner_places_eq_none_iff]
    refine forall_congr' fun _ => ?_
    constructor
    · intro h j q hq pos hlow hhigh
      exact Context.forall_attemptSource_eq_none_iff.1
        (fun source hmem => h source hmem pos hlow hhigh) j q hq
    · intro h source hmem pos hlow hhigh
      exact Context.forall_attemptSource_eq_none_iff.2
        (fun j q hq => h j q hq pos hlow hhigh) source hmem

end ScopeGrammar
