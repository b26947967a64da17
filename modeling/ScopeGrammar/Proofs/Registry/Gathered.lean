import Mathlib.Algebra.BigOperators.Group.List.Basic
import ScopeGrammar.Proofs.Registry.Situations

/-!
# ScopeGrammar.Proofs.Registry.Gathered

Gathering the rules of a list enters every list at most once.

* `Registry.unseen` counts the lists that were not entered yet.
* `Registry.gatherList_levels` : with more levels than there are such lists, their number does not
  matter. So `Registry.gather` has no limit (`Registry.gather_eq`).
-/

namespace ScopeGrammar

namespace Registry

variable {r : Registry} {base : GrammarId}

/-- All lists of all grammars. -/
def places (r : Registry) : List (GrammarId × ListId) :=
  (r.numbers (·.lists.size)).map fun (g, j) => (g, ⟨j⟩)

def unseen (r : Registry) (visited : List (GrammarId × ListId)) : Nat :=
  r.places.countP fun place => !visited.contains place

theorem mem_places {place : GrammarId × ListId} {grammar : Grammar}
    (hgrammar : r.grammar? place.1 = some grammar) (hlist : grammar.list place.2 ≠ []) :
    place ∈ r.places := by
  refine List.mem_map.2 ⟨(place.1, place.2.val), mem_numbers hgrammar ?_, rfl⟩
  by_contra hlt
  refine hlist ?_
  have hnone : grammar.lists[place.2.index]? = none :=
    Array.getElem?_eq_none (Nat.le_of_not_lt hlt)
  rw [Grammar.list, Array.getD_eq_getD_getElem?, hnone]
  rfl

theorem length_places (r : Registry) : r.places.length = r.listCount := by
  have hsizes : (List.range r.grammars.size).map
      (fun i => ((r.grammars[i]?.map fun g : Grammar => g.lists.size).getD 0)) =
      r.grammars.toList.map (·.lists.size) := by
    refine List.ext_getElem (by simp) fun i hi _ => ?_
    have hlt : i < r.grammars.size := by simpa using hi
    simp [Array.getElem?_eq_getElem hlt]
  rw [places, numbers, listCount, List.length_map, List.length_flatMap, ← Array.foldl_toList]
  simp only [List.length_map, List.length_range]
  rw [hsizes, List.sum_eq_foldl, List.foldl_map]

theorem unseen_le (r : Registry) (visited : List (GrammarId × ListId)) :
    r.unseen visited ≤ r.listCount := by
  rw [← r.length_places]
  exact List.countP_le_length

theorem unseen_mono {visited visited' : List (GrammarId × ListId)} (h : visited ⊆ visited') :
    r.unseen visited' ≤ r.unseen visited := by
  refine List.countP_mono_left fun place _ hplace => ?_
  simp only [Bool.not_eq_true', List.contains_eq_mem, decide_eq_false_iff_not] at hplace ⊢
  exact fun hmem => hplace (h hmem)

theorem unseen_enter {place : GrammarId × ListId} {visited : List (GrammarId × ListId)}
    (hplace : place ∈ r.places) (hnew : visited.contains place = false) :
    r.unseen (place :: visited) < r.unseen visited := by
  obtain ⟨before, after, hsplit⟩ := List.append_of_mem hplace
  have hmono : ∀ l : List (GrammarId × ListId),
      l.countP (fun p => !(place :: visited).contains p) ≤ l.countP fun p => !visited.contains p := by
    intro l
    refine List.countP_mono_left fun p _ hp => ?_
    simp only [List.contains_cons, Bool.not_or, Bool.and_eq_true] at hp
    exact hp.2
  have hbefore := hmono before
  have hafter := hmono after
  rw [unseen, unseen, hsplit, List.countP_append, List.countP_append, List.countP_cons,
    List.countP_cons]
  simp only [List.contains_cons, beq_self_eq_true, Bool.true_or, hnew, Bool.not_true,
    Bool.not_false, Bool.false_eq_true, if_false, if_true] at hbefore hafter ⊢
  omega

theorem visited_addRule (g : Gathering) (rule : RuleRef) : (g.addRule rule).visited = g.visited := by
  rw [Gathering.addRule]
  split <;> rfl

/-- What is done with an element of a list. -/
def gatherItem (r : Registry) (base : GrammarId) (levels : Nat) (id : GrammarId)
    (grammar : Grammar) (g : Gathering) : ListItem → Gathering
  | .rule rule => g.addRule ⟨id, rule⟩
  | .list inner => r.gatherList base levels (id, inner) g
  | .linked i =>
    let (found, notices) := r.target base id grammar i
    match found with
    | some other => r.gatherList base levels other (g.note notices)
    | none => g.note notices

theorem gatherList_succ (levels : Nat) (place : GrammarId × ListId) (g : Gathering) :
    r.gatherList base (levels + 1) place g =
      if g.visited.contains place then g
      else
        match r.grammar? place.1 with
        | none => g.enter place
        | some grammar =>
          (grammar.list place.2).foldl (r.gatherItem base levels place.1 grammar)
            (g.enter place) := by
  rw [gatherList]
  split
  · rfl
  · cases r.grammar? place.1 with
    | none => rfl
    | some grammar =>
      refine congrArg (fun f => (grammar.list place.2).foldl f (g.enter place)) ?_
      funext g item
      cases item <;> rfl

/-- Elements leave what was entered as long as the lists do that they lead to. -/
theorem visited_gatherItem_of {levels : Nat}
    (hlist : ∀ place g, g.visited ⊆ (r.gatherList base levels place g).visited) (id : GrammarId)
    (grammar : Grammar) (item : ListItem) (g : Gathering) :
    g.visited ⊆ (r.gatherItem base levels id grammar g item).visited := by
  cases item with
  | rule rule =>
    rw [gatherItem, visited_addRule]
    exact List.Subset.refl _
  | list inner => exact hlist _ _
  | linked i =>
    rw [gatherItem]
    generalize r.target base id grammar i = found
    obtain ⟨other, notices⟩ := found
    cases other with
    | none => exact List.Subset.refl _
    | some other => exact hlist other (g.note notices)

theorem visited_gatherList (levels : Nat) (place : GrammarId × ListId) (g : Gathering) :
    g.visited ⊆ (r.gatherList base levels place g).visited := by
  induction levels generalizing place g with
  | zero => exact List.Subset.refl _
  | succ levels ih =>
    rw [gatherList_succ]
    split
    · exact List.Subset.refl _
    · have henter : g.visited ⊆ (g.enter place).visited := List.subset_cons_self _ _
      cases r.grammar? place.1 with
      | none => exact henter
      | some grammar =>
        dsimp only
        generalize g.enter place = entered at henter
        induction grammar.list place.2 generalizing entered with
        | nil => exact henter
        | cons item rest ih' =>
          exact ih' _ (List.Subset.trans henter (visited_gatherItem_of ih _ _ item entered))

theorem visited_gatherItem (levels : Nat) (id : GrammarId) (grammar : Grammar) (item : ListItem)
    (g : Gathering) : g.visited ⊆ (r.gatherItem base levels id grammar g item).visited :=
  visited_gatherItem_of (visited_gatherList levels) id grammar item g

/-- The elements of a list are gathered alike if the lists are that they lead to. -/
theorem foldl_gatherItem_levels {levels levels' : Nat} {id : GrammarId} {grammar : Grammar}
    (hlist : ∀ {place g}, r.unseen g.visited < levels → r.unseen g.visited < levels' →
      r.gatherList base levels place g = r.gatherList base levels' place g)
    (items : List ListItem) {g : Gathering} (h : r.unseen g.visited < levels)
    (h' : r.unseen g.visited < levels') :
    items.foldl (r.gatherItem base levels id grammar) g =
      items.foldl (r.gatherItem base levels' id grammar) g := by
  induction items generalizing g with
  | nil => rfl
  | cons item rest ih =>
    have hitem : r.gatherItem base levels id grammar g item =
        r.gatherItem base levels' id grammar g item := by
      cases item with
      | rule rule => rfl
      | list inner => exact hlist h h'
      | linked i =>
        rw [gatherItem, gatherItem]
        generalize r.target base id grammar i = found
        obtain ⟨other, notices⟩ := found
        cases other with
        | none => rfl
        | some other => exact hlist h h'
    have hmono : r.unseen (r.gatherItem base levels id grammar g item).visited ≤
        r.unseen g.visited := unseen_mono (visited_gatherItem ..)
    rw [List.foldl_cons, List.foldl_cons, ← hitem]
    exact ih (Nat.lt_of_le_of_lt hmono h) (Nat.lt_of_le_of_lt hmono h')

/-- More levels than lists that were not entered are as good as any other number of them. -/
theorem gatherList_levels {levels levels' : Nat} {place : GrammarId × ListId} {g : Gathering}
    (h : r.unseen g.visited < levels) (h' : r.unseen g.visited < levels') :
    r.gatherList base levels place g = r.gatherList base levels' place g := by
  induction levels generalizing levels' place g with
  | zero => exact absurd h (Nat.not_lt_zero _)
  | succ levels ih =>
    cases levels' with
    | zero => exact absurd h' (Nat.not_lt_zero _)
    | succ levels' =>
      rw [gatherList_succ, gatherList_succ]
      cases hvisited : g.visited.contains place with
      | true => rfl
      | false =>
        rw [if_neg Bool.false_ne_true, if_neg Bool.false_ne_true]
        cases hgrammar : r.grammar? place.1 with
        | none => rfl
        | some grammar =>
          dsimp only
          cases hitems : grammar.list place.2 with
          | nil => rfl
          | cons first more =>
            -- the list has elements, so entering it leaves one list fewer
            have hplace : place ∈ r.places := mem_places hgrammar (by simp [hitems])
            have hfewer : r.unseen (g.enter place).visited < r.unseen g.visited :=
              unseen_enter hplace hvisited
            exact foldl_gatherItem_levels ih _ (by omega) (by omega)

theorem gather_eq {levels : Nat} (h : r.listCount < levels) (place : GrammarId × ListId) :
    r.gather base place =
      ((r.gatherList base levels place .empty).rules,
        (r.gatherList base levels place .empty).notices) := by
  have hunseen := r.unseen_le Gathering.empty.visited
  rw [gather, gatherList_levels (Nat.lt_succ_of_le hunseen) (Nat.lt_of_le_of_lt hunseen h)]

end Registry

end ScopeGrammar
