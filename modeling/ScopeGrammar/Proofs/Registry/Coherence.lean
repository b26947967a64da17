import Mathlib.Data.List.Dedup
import Mathlib.Data.List.Induction
import Mathlib.Data.List.Pairwise
import ScopeGrammar.Proofs.Context.Store
import ScopeGrammar.Proofs.World.Catalog

/-!
# ScopeGrammar.Proofs.Registry.Coherence

What a registry answers while grammars are added and situations resolved in any order.

* `Registry.Log` is a registry with the answers it gave, those since the grammars last changed apart
  from those before.
* `Log.Coherent` is what every call preserves: answers are as if made anew, they are numbered in the
  order in which they were made, and the contexts kept are the answers that can come up again.
* `Log.coherent` : two answers have one number only if they are for one situation that can come up
  again, as long as the numbers of contexts have not come round.
-/

namespace ScopeGrammar

namespace Registry

/-- One use of a registry. -/
inductive Call where
  | add (g : Grammar)
  | resolve (s : Situation)

/-- A registry with the answers it gave. -/
structure Log where
  registry : Registry
  /-- The answers since a grammar was added last, the latest one first. -/
  answers : List (Situation × Context)
  /-- All answers before that. -/
  earlier : List (Situation × Context)

namespace Log

def initial : Log := ⟨.empty, [], []⟩

def after (log : Log) : Call → Log
  | .add g => ⟨(log.registry.add g).2, [], log.answers ++ log.earlier⟩
  | .resolve s =>
    ⟨(log.registry.resolve s).2, (s, (log.registry.resolve s).1.1) :: log.answers, log.earlier⟩

/-- After some calls to a new registry. -/
def ofCalls (calls : List Call) : Log := calls.foldl after initial

def made (log : Log) : Nat := log.registry.contexts.made

def kept (log : Log) : List (Situation × Context) := log.registry.contexts.entries

/-- Two answers have one number if they are for one situation that can come up again, and only
then. -/
def SameNumber (a b : Situation × Context) : Prop :=
  a.2.id = b.2.id ↔ a.1.isReusable = true ∧ a.1 = b.1

instance : Std.Symm SameNumber where
  symm a b h := by
    refine eq_comm.trans (Iff.trans h ?_)
    constructor
    · rintro ⟨hreusable, heq⟩; exact ⟨heq ▸ hreusable, heq.symm⟩
    · rintro ⟨hreusable, heq⟩; exact ⟨heq ▸ hreusable, heq.symm⟩

structure Coherent (log : Log) : Prop where
  anew : ∀ a ∈ log.answers, a.2 = (log.registry.buildContext a.1 a.2.id).1
  numbered : ∃ start ≤ log.made, (∀ a ∈ log.answers, a.2.NumberedIn start log.made) ∧
    ∀ a ∈ log.earlier, a.2.NumberedIn 0 start
  mem_kept : ∀ a, a ∈ log.kept ↔ a ∈ log.answers ∧ a.1.isReusable = true
  keys : (log.kept.map (·.1)).Nodup
  apart : log.made ≤ 2 ^ 32 → log.answers.Pairwise SameNumber

variable {log : Log}

theorem buildContext_after_resolve (log : Log) (s s' : Situation) (id : ContextId) :
    ((log.after (.resolve s)).registry.buildContext s' id).1 =
      (log.registry.buildContext s' id).1 := by
  have hgrammars : log.registry.SameGrammars (log.after (.resolve s)).registry :=
    log.registry.resolve_sameGrammars s
  refine Context.ext_of_entries ?_ ?_
  · rw [buildContext_id, buildContext_id]
  · rw [buildContext_entries, buildContext_entries, hgrammars.entriesFor_eq]

namespace Coherent

theorem initial : Log.initial.Coherent :=
  { anew := fun _ ha => (List.not_mem_nil ha).elim
    numbered := ⟨0, Nat.le_refl 0, fun _ ha => (List.not_mem_nil ha).elim,
      fun _ ha => (List.not_mem_nil ha).elim⟩
    mem_kept := fun _ =>
      ⟨fun ha => (List.not_mem_nil ha).elim, fun ha => (List.not_mem_nil ha.1).elim⟩
    keys := .nil
    apart := fun _ => .nil }

/-- A context that is kept has been an answer, and the new answer is told from all others as that
one is. -/
theorem resolve_kept (h : log.Coherent) {s : Situation} {c : Context} (hs : s.isReusable = true)
    (hget : log.registry.contexts.get? s = some c) : (log.after (.resolve s)).Coherent := by
  have hlog : log.after (.resolve s) = ⟨log.registry, (s, c) :: log.answers, log.earlier⟩ := by
    rw [after, resolve_of_kept hs hget]
  have hkept : (s, c) ∈ log.kept := ContextStore.mem_of_get? hget
  have hmem : (s, c) ∈ log.answers := ((h.mem_kept _).1 hkept).1
  obtain ⟨start, hstart, hanswers, hearlier⟩ := h.numbered
  rw [hlog]
  refine ⟨List.forall_mem_cons.2 ⟨h.anew _ hmem, h.anew⟩,
    ⟨start, hstart, List.forall_mem_cons.2 ⟨hanswers _ hmem, hanswers⟩, hearlier⟩, fun a => ?_,
    h.keys, fun hmade => ?_⟩
  · rw [List.mem_cons]
    refine (h.mem_kept a).trans (and_congr_left fun _ => ⟨.inr, ?_⟩)
    rintro (rfl | ha)
    · exact hmem
    · exact ha
  · refine .cons (fun b hb => ?_) (h.apart hmade)
    by_cases heq : b = (s, c)
    · rw [heq]
      exact ⟨fun _ => ⟨hs, rfl⟩, fun _ => rfl⟩
    · exact (h.apart hmade).forall hmem hb (Ne.symm heq)

/-- The new answer is kept if it can come up again. -/
theorem mem_kept_cons (h : log.Coherent) {s : Situation} {c : Context}
    (a : Situation × Context) :
    (a ∈ if s.isReusable then (s, c) :: log.kept else log.kept) ↔
      a ∈ (s, c) :: log.answers ∧ a.1.isReusable = true := by
  cases hs : s.isReusable with
  | true =>
    rw [if_pos rfl, List.mem_cons, List.mem_cons, h.mem_kept, or_and_right]
    refine or_congr_left ⟨fun heq => ⟨heq, heq ▸ hs⟩, And.left⟩
  | false =>
    rw [if_neg Bool.false_ne_true, List.mem_cons, h.mem_kept, or_and_right]
    refine (or_iff_right ?_).symm
    rintro ⟨rfl, hreusable⟩
    exact Bool.false_ne_true (hs.symm.trans hreusable)

/-- A context made anew has a number no answer had before. -/
theorem resolve_anew (h : log.Coherent) {s : Situation}
    (hnew : s.isReusable = true → log.registry.contexts.get? s = none) :
    (log.after (.resolve s)).Coherent := by
  obtain ⟨start, hstart, hanswers, hearlier⟩ := h.numbered
  have hanew : ∀ s' id, ((log.after (.resolve s)).registry.buildContext s' id).1 =
      (log.registry.buildContext s' id).1 := buildContext_after_resolve log s
  have hkeys : (log.after (.resolve s)).registry.KeepsOnce := KeepsOnce.resolve h.keys s
  generalize hlog : log.after (.resolve s) = log' at hanew hkeys ⊢
  rw [after, Registry.resolve_anew hnew] at hlog
  generalize hc : (log.registry.buildContext s log.registry.nextId).1 = c at hlog
  have hnumber : c.NumberedIn log.made (log.made + 1) :=
    ⟨log.made, Nat.le_refl _, Nat.lt_succ_self _, by rw [← hc, buildContext_id]; rfl⟩
  have hunknown : ∀ c', s.isReusable = true → (s, c') ∉ log.kept :=
    fun c' hs => ContextStore.not_mem_of_get?_none (hnew hs) c'
  subst hlog
  refine ⟨List.forall_mem_cons.2 ⟨?_, fun a ha => ?_⟩,
    ⟨start, Nat.le_succ_of_le hstart, ?_, hearlier⟩, fun a => ?_, ?_,
    fun hmade => .cons (fun b hb => ?_) (h.apart (Nat.le_of_succ_le hmade))⟩
  · rw [hanew, ← hc]; rfl
  · rw [hanew]; exact h.anew a ha
  · obtain ⟨n, hlo, hhi, hid⟩ := hnumber
    exact List.forall_mem_cons.2 ⟨⟨n, Nat.le_trans hstart hlo, hhi, hid⟩,
      fun a ha => (hanswers a ha).mono (Nat.le_succ _)⟩
  · exact mem_kept_cons h a
  · exact hkeys
  · -- neither side holds: the number is new, and so is the situation if it can come up again
    refine iff_of_false (fun hid => (hanswers b hb).id_ne hnumber hmade hid.symm) ?_
    rintro ⟨hs, rfl⟩
    exact hunknown b.2 hs ((h.mem_kept b).2 ⟨hb, hs⟩)

theorem resolve (h : log.Coherent) (s : Situation) : (log.after (.resolve s)).Coherent := by
  cases hs : s.isReusable with
  | false => exact h.resolve_anew fun hreusable => by rw [hs] at hreusable; cases hreusable
  | true =>
    cases hget : log.registry.contexts.get? s with
    | none => exact h.resolve_anew fun _ => hget
    | some c => exact h.resolve_kept hs hget

/-- Adding a grammar leaves no answer to be given again. -/
theorem add (h : log.Coherent) (g : Grammar) : (log.after (.add g)).Coherent := by
  obtain ⟨start, hstart, hanswers, hearlier⟩ := h.numbered
  have hmade : (log.after (.add g)).made = log.made := by
    change (log.registry.add g).2.contexts.made = log.registry.contexts.made
    rw [add_contexts]; rfl
  have hkept : (log.after (.add g)).kept = [] := by
    change (log.registry.add g).2.contexts.entries = []
    rw [add_contexts]; rfl
  refine ⟨fun a ha => (List.not_mem_nil ha).elim, ⟨log.made, Nat.le_of_eq hmade.symm,
    fun a ha => (List.not_mem_nil ha).elim, ?_⟩, fun a => ?_, ?_, fun _ => .nil⟩
  · intro a ha
    obtain ha | ha := List.mem_append.1 ha
    · obtain ⟨n, _, hn, hid⟩ := hanswers a ha
      exact ⟨n, Nat.zero_le n, hn, hid⟩
    · exact (hearlier a ha).mono hstart
  · rw [hkept]
    exact ⟨fun ha => (List.not_mem_nil ha).elim, fun ha => (List.not_mem_nil ha.1).elim⟩
  · rw [hkept]
    exact .nil

end Coherent

theorem coherent_ofCalls (calls : List Call) : (ofCalls calls).Coherent := by
  induction calls using List.reverseRecOn with
  | nil => exact .initial
  | append_singleton calls call ih =>
    rw [ofCalls, List.foldl_append]
    cases call with
    | add g => exact ih.add g
    | resolve s => exact ih.resolve s

/-- In whatever order grammars are added and situations resolved: the answers since the last change
of the grammars are the contexts that would be made anew from the grammars there are now. Two of them
have one number if they are for one situation that can come up again, and only then; none has a
number from before the change. Kept are the contexts of the situations that came up and can come up
again, one for each. -/
theorem coherent (calls : List Call) (hmade : (ofCalls calls).made ≤ 2 ^ 32) :
    let log := ofCalls calls
    (∀ a ∈ log.answers, a.2 = (log.registry.buildContext a.1 a.2.id).1) ∧
    log.answers.Pairwise SameNumber ∧
    (∀ a ∈ log.answers, ∀ b ∈ log.earlier, a.2.id ≠ b.2.id) ∧
    (∀ a ∈ log.kept, a.1.isReusable = true) ∧
    log.registry.contextCount =
      ((log.answers.map (·.1)).filter (·.isReusable)).dedup.length := by
  have h := coherent_ofCalls calls
  obtain ⟨start, hstart, hanswers, hearlier⟩ := h.numbered
  refine ⟨h.anew, h.apart hmade, fun a ha b hb => ?_, fun a ha => ((h.mem_kept a).1 ha).2, ?_⟩
  · exact ((hearlier b hb).id_ne (hanswers a ha) hmade).symm
  · have hperm : ((ofCalls calls).kept.map (·.1)).Perm
        (((ofCalls calls).answers.map (·.1)).filter (·.isReusable)).dedup := by
      refine (List.perm_ext_iff_of_nodup h.keys (List.nodup_dedup _)).2 fun s => ?_
      simp only [List.mem_dedup, List.mem_filter, List.mem_map, Prod.exists, exists_and_right,
        exists_eq_right, h.mem_kept]
    rw [← hperm.length_eq, List.length_map]
    rfl

/-- A situation that cannot come up again. -/
def filledSituation : Situation :=
  { base := ⟨0⟩, origin := .span ⟨⟨0⟩, ⟨0⟩⟩, ownEnd := some ⟨0, "b", true⟩, endLast := false
    outerEnds := [] }

/-- A grammar is replaced by one with fewer rules, with situations resolved before and after. -/
def replacingCalls : List Call :=
  [.add nestedSpans, .resolve (.root ⟨0⟩), .resolve filledSituation, .resolve filledSituation,
    .resolve (.root ⟨0⟩), .add { nestedSpans with lists := #[[.rule ⟨1⟩]] }, .resolve (.root ⟨0⟩),
    .resolve filledSituation, .resolve (.root ⟨0⟩)]

theorem coherent_replacingCalls :
    (ofCalls replacingCalls).made ≤ 2 ^ 32 ∧
      (∀ a ∈ (ofCalls replacingCalls).answers,
        a.2 = ((ofCalls replacingCalls).registry.buildContext a.1 a.2.id).1) ∧
      (ofCalls replacingCalls).answers.Pairwise SameNumber ∧
      (ofCalls replacingCalls).registry.contextCount = 1 := by
  have hmade : (ofCalls replacingCalls).made ≤ 2 ^ 32 := by decide +kernel
  obtain ⟨hanew, happart, _, _, hcount⟩ := coherent replacingCalls hmade
  refine ⟨hmade, hanew, happart, ?_⟩
  rw [hcount]
  decide +kernel

end Log

end Registry

end ScopeGrammar
