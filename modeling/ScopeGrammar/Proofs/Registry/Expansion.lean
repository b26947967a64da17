import Mathlib.Logic.Relation
import ScopeGrammar.Proofs.Registry.Gathered

/-!
# ScopeGrammar.Proofs.Registry.Expansion

The rules that gathering finds, against the plain expansion of a list.

* `Registry.expand` replaces every include by the rules of the list it points to, depth first and
  from left to right. It leaves out only what leads back into a list that is being expanded.
* `Registry.Reaches` : a list leads to another one through containers and includes.
* `Registry.gather_expands` : gathering passes over all lists it has met before, and yet gives the
  rules of the plain expansion, each where it occurs there first.

What carries this is `Registry.Settled`: of every list that was met and is not being expanded, all
rules were met, and all lists it leads to. So expanding such a list once more gives nothing new
(`Settled.expand_subset`).
-/

namespace ScopeGrammar

namespace Registry

variable {r : Registry} {base : GrammarId}

/-! ## Where lists lead to -/

/-- The elements of a list of rules, none if there is no such list. -/
def items (r : Registry) (place : GrammarId × ListId) : List ListItem :=
  ((r.grammar? place.1).map (·.list place.2)).getD []

/-- The list that an element stands for, if it is no rule. -/
def next? (r : Registry) (base : GrammarId) (place : GrammarId × ListId) :
    ListItem → Option (GrammarId × ListId)
  | .rule _ => none
  | .list inner => some (place.1, inner)
  | .linked i => (r.grammar? place.1).bind fun grammar => (r.target base place.1 grammar i).1

/-- A list has a container or an include in it that stands for the other list. -/
def LeadsTo (r : Registry) (base : GrammarId) (place other : GrammarId × ListId) : Prop :=
  ∃ item ∈ r.items place, r.next? base place item = some other

abbrev Reaches (r : Registry) (base : GrammarId) :
    GrammarId × ListId → GrammarId × ListId → Prop :=
  Relation.ReflTransGen (r.LeadsTo base)

/-- The rule that an element is. -/
def ruleOf? (place : GrammarId × ListId) : ListItem → Option RuleRef
  | .rule id => some ⟨place.1, id⟩
  | _ => none

/-- The rule is an element of the list. -/
def Holds (r : Registry) (place : GrammarId × ListId) (rule : RuleRef) : Prop :=
  ∃ item ∈ r.items place, ruleOf? place item = some rule

theorem items_of_grammar {place : GrammarId × ListId} {grammar : Grammar}
    (h : r.grammar? place.1 = some grammar) : r.items place = grammar.list place.2 := by
  simp [items, h]

theorem items_of_missing {place : GrammarId × ListId} (h : r.grammar? place.1 = none) :
    r.items place = [] := by
  simp [items, h]

theorem mem_places_of_items {place : GrammarId × ListId} (h : r.items place ≠ []) :
    place ∈ r.places := by
  cases hgrammar : r.grammar? place.1 with
  | none => exact absurd (items_of_missing hgrammar) h
  | some grammar => exact mem_places hgrammar (items_of_grammar hgrammar ▸ h)

/-! ## The plain expansion -/

/-- The rules of a list with every container and every include replaced by the rules it stands for,
where the lists of `path` are being expanded. -/
def expand (r : Registry) (base : GrammarId) (path : List (GrammarId × ListId))
    (place : GrammarId × ListId) : List RuleRef :=
  -- what is no list of the registry has no elements, so nothing is lost here
  if _h : place ∈ r.places ∧ path.contains place = false then
    (r.items place).flatMap fun item =>
      match r.next? base place item with
      | some other => r.expand base (place :: path) other
      | none => (ruleOf? place item).toList
  else []
termination_by r.unseen path
decreasing_by exact unseen_enter _h.1 _h.2

/-- The rules that an element of a list stands for. -/
def expandItem (r : Registry) (base : GrammarId) (path : List (GrammarId × ListId))
    (place : GrammarId × ListId) (item : ListItem) : List RuleRef :=
  match r.next? base place item with
  | some other => r.expand base path other
  | none => (ruleOf? place item).toList

variable {path : List (GrammarId × ListId)} {place : GrammarId × ListId}

theorem expand_of_mem (h : place ∈ path) : r.expand base path place = [] := by
  rw [expand, dif_neg]
  simp [h]

theorem expand_of_not_mem (h : place ∉ path) :
    r.expand base path place =
      (r.items place).flatMap (r.expandItem base (place :: path) place) := by
  rw [expand]
  by_cases hplace : place ∈ r.places
  · rw [dif_pos ⟨hplace, by simpa using h⟩]
    rfl
  · have hitems : r.items place = [] := by
      by_contra hne
      exact hplace (mem_places_of_items hne)
    simp [hplace, hitems]

theorem mem_expand {rule : RuleRef} (h : rule ∈ r.expand base path place) :
    place ∉ path ∧ place ∈ r.places ∧ (r.Holds place rule ∨
      ∃ other, r.LeadsTo base place other ∧ rule ∈ r.expand base (place :: path) other) := by
  by_cases hpath : place ∈ path
  · rw [expand_of_mem hpath] at h
    cases h
  rw [expand_of_not_mem hpath, List.mem_flatMap] at h
  obtain ⟨item, hitem, hrule⟩ := h
  refine ⟨hpath, mem_places_of_items (List.ne_nil_of_mem hitem), ?_⟩
  unfold expandItem at hrule
  split at hrule
  · next other hother => exact .inr ⟨other, ⟨item, hitem, hother⟩, hrule⟩
  · exact .inl ⟨item, hitem, Option.mem_toList.1 hrule⟩

/-- The rules of the expansion are rules of lists that the list leads to. -/
theorem exists_of_mem_expand {rule : RuleRef} (h : rule ∈ r.expand base path place) :
    ∃ p, r.Reaches base place p ∧ r.Holds p rule := by
  induction hleft : r.unseen path using Nat.strongRecOn generalizing path place with
  | _ left ih =>
    subst hleft
    obtain ⟨hpath, hplace, hholds | ⟨other, hother, hrule⟩⟩ := mem_expand h
    · exact ⟨place, .refl, hholds⟩
    · have hless : r.unseen (place :: path) < r.unseen path :=
        unseen_enter hplace (by simpa using hpath)
      obtain ⟨p, hp, hholds⟩ := ih _ hless hrule rfl
      exact ⟨p, .head hother hp, hholds⟩

/-! ## Lists that were gathered before -/

/-- Of each list that was met and is not being expanded, the rules were met and the lists that it
leads to. -/
def Settled (r : Registry) (base : GrammarId) (path : List (GrammarId × ListId)) (g : Gathering) :
    Prop :=
  ∀ p ∈ g.visited, p ∉ path →
    (∀ rule, r.Holds p rule → rule ∈ g.rules) ∧ ∀ q, r.LeadsTo base p q → q ∈ g.visited

namespace Settled

variable {g : Gathering}

theorem cons (h : r.Settled base path g) (place : GrammarId × ListId) :
    r.Settled base (place :: path) g :=
  fun p hp hpath => h p hp fun hin => hpath (.tail _ hin)

theorem congr {g' : Gathering} (h : r.Settled base path g) (hvisited : g'.visited = g.visited)
    (hrules : g.rules ⊆ g'.rules) : r.Settled base path g' := by
  intro p hp hpath
  rw [hvisited] at hp ⊢
  obtain ⟨hheld, hnext⟩ := h p hp hpath
  exact ⟨fun rule hrule => hrules (hheld rule hrule), hnext⟩

/-- A list that is about to be expanded is met, and nothing is known of it yet. -/
theorem enter (h : r.Settled base path g) (place : GrammarId × ListId) :
    r.Settled base (place :: path) (g.enter place) := by
  intro p hp hpath
  simp only [Gathering.enter, List.mem_cons, not_or] at hp hpath ⊢
  obtain ⟨hrules, hnext⟩ := h p (hp.resolve_left hpath.1) hpath.2
  exact ⟨hrules, fun q hq => .inr (hnext q hq)⟩

/-- Expanding what was met before gives no rule that was not. -/
theorem expand_subset (h : r.Settled base path g) (hplace : place ∈ g.visited) :
    r.expand base path place ⊆ g.rules := by
  induction hleft : r.unseen path using Nat.strongRecOn generalizing path place with
  | _ left ih =>
    subst hleft
    intro rule hrule
    obtain ⟨hpath, hin, hholds | ⟨other, hother, hrule⟩⟩ := mem_expand hrule
    · exact (h place hplace hpath).1 rule hholds
    · have hless : r.unseen (place :: path) < r.unseen path :=
        unseen_enter hin (by simpa using hpath)
      exact ih _ hless (h.cons place) ((h place hplace hpath).2 other hother) rfl hrule

end Settled

/-! ## Gathering is expanding -/

/-- Adds rules one after the other, each where it is met first. -/
def meetAll (met rules : List RuleRef) : List RuleRef :=
  rules.foldl (fun met rule => if met.contains rule then met else met ++ [rule]) met

theorem meetAll_append (met rules more : List RuleRef) :
    meetAll met (rules ++ more) = meetAll (meetAll met rules) more := List.foldl_append

section

variable {met rules rest : List RuleRef} {rule : RuleRef}

theorem meetAll_cons_of_mem (h : rule ∈ met) : meetAll met (rule :: rest) = meetAll met rest := by
  simp [meetAll, h]

theorem meetAll_cons_of_not_mem (h : rule ∉ met) :
    meetAll met (rule :: rest) = meetAll (met ++ [rule]) rest := by
  simp [meetAll, h]

theorem mem_meetAll : rule ∈ meetAll met rules ↔ rule ∈ met ∨ rule ∈ rules := by
  induction rules generalizing met with
  | nil => simp [meetAll]
  | cons first rest ih =>
    by_cases hfirst : first ∈ met
    · rw [meetAll_cons_of_mem hfirst, ih, List.mem_cons]
      constructor
      · rintro (hmet | hrest)
        · exact .inl hmet
        · exact .inr (.inr hrest)
      · rintro (hmet | rfl | hrest)
        · exact .inl hmet
        · exact .inl hfirst
        · exact .inr hrest
    · simp [meetAll_cons_of_not_mem hfirst, ih, or_assoc]

theorem subset_meetAll (met rules : List RuleRef) : met ⊆ meetAll met rules :=
  fun _ hrule => mem_meetAll.2 (.inl hrule)

theorem meetAll_of_subset (h : rules ⊆ met) : meetAll met rules = met := by
  induction rules with
  | nil => rfl
  | cons rule rest ih =>
    obtain ⟨hrule, hrest⟩ := List.cons_subset.1 h
    rw [meetAll_cons_of_mem hrule, ih hrest]

theorem meetAll_eq_eraseDups (met rules : List RuleRef) :
    meetAll met rules = met ++ (rules.filter (· ∉ met)).eraseDups := by
  induction rules generalizing met with
  | nil => simp [meetAll]
  | cons rule rest ih =>
    by_cases hrule : rule ∈ met
    · rw [meetAll_cons_of_mem hrule, ih, List.filter_cons_of_neg (by simpa using hrule)]
    · have hboth : (fun other => decide (other ∉ met ++ [rule])) =
          fun other => !other == rule && decide (other ∉ met) := by
        funext other
        simp [Bool.and_comm, Bool.beq_eq_decide_eq]
      rw [meetAll_cons_of_not_mem hrule, ih, List.filter_cons_of_pos (by simpa using hrule),
        List.eraseDups_cons, List.filter_filter, List.append_assoc, List.singleton_append, hboth]

theorem nodup_meetAll (h : met.Nodup) (rules : List RuleRef) : (meetAll met rules).Nodup := by
  induction rules generalizing met with
  | nil => exact h
  | cons rule rest ih =>
    by_cases hrule : rule ∈ met
    · rw [meetAll_cons_of_mem hrule]
      exact ih h
    · rw [meetAll_cons_of_not_mem hrule]
      refine ih (List.nodup_append.2 ⟨h, List.nodup_singleton rule, ?_⟩)
      rintro a ha b hb rfl
      exact hrule (List.mem_singleton.1 hb ▸ ha)

end

theorem rules_addRule (g : Gathering) (rule : RuleRef) :
    (g.addRule rule).rules = meetAll g.rules [rule] := by
  simp only [Gathering.addRule, meetAll, List.foldl_cons, List.foldl_nil]
  split <;> rfl

/-- What gathering comes to where the given rules are to be met. -/
structure Gathers (r : Registry) (base : GrammarId) (path : List (GrammarId × ListId))
    (rules : List RuleRef) (g g' : Gathering) : Prop where
  rules : g'.rules = meetAll g.rules rules
  visited : g.visited ⊆ g'.visited
  settled : r.Settled base path g'

namespace Gathers

variable {rules more : List RuleRef} {g g' g'' : Gathering}

theorem trans (h : r.Gathers base path rules g g') (h' : r.Gathers base path more g' g'') :
    r.Gathers base path (rules ++ more) g g'' where
  rules := by rw [h'.rules, h.rules, meetAll_append]
  visited := List.Subset.trans h.visited h'.visited
  settled := h'.settled

end Gathers

/-- Gathering a list does what its plain expansion asks for. -/
def GathersLists (r : Registry) (base : GrammarId) (levels : Nat) : Prop :=
  ∀ path place g, r.unseen g.visited < levels → path ⊆ g.visited → r.Settled base path g →
    r.Gathers base path (r.expand base path place) g (r.gatherList base levels place g) ∧
      place ∈ (r.gatherList base levels place g).visited

/-- The element is done with: it is a rule that was met, or leads to a list that was met. -/
structure Done (r : Registry) (base : GrammarId) (place : GrammarId × ListId) (g : Gathering)
    (item : ListItem) : Prop where
  rule : ∀ rule, ruleOf? place item = some rule → rule ∈ g.rules
  next : ∀ q, r.next? base place item = some q → q ∈ g.visited

theorem Gathers.done {rules : List RuleRef} {g g' : Gathering} {item : ListItem}
    (h : r.Gathers base path rules g g') (hitem : r.Done base place g item) :
    r.Done base place g' item :=
  ⟨fun rule hrule => h.rules ▸ subset_meetAll _ _ (hitem.rule rule hrule),
    fun q hq => h.visited (hitem.next q hq)⟩

theorem gathers_item {levels : Nat} {grammar : Grammar} {g : Gathering}
    (hgrammar : r.grammar? place.1 = some grammar) (hlists : r.GathersLists base levels)
    (hleft : r.unseen g.visited < levels) (hpath : path ⊆ g.visited)
    (hsettled : r.Settled base path g) (item : ListItem) :
    r.Gathers base path (r.expandItem base path place item) g
        (r.gatherItem base levels place.1 grammar g item) ∧
      r.Done base place (r.gatherItem base levels place.1 grammar g item) item := by
  cases item with
  | rule id =>
    have hrules : (g.addRule ⟨place.1, id⟩).rules = meetAll g.rules [⟨place.1, id⟩] :=
      rules_addRule ..
    have hvisited : (g.addRule ⟨place.1, id⟩).visited = g.visited := visited_addRule ..
    have hsub : g.rules ⊆ (g.addRule ⟨place.1, id⟩).rules := hrules ▸ subset_meetAll _ _
    refine ⟨⟨hrules, hvisited ▸ List.Subset.refl _, hsettled.congr hvisited hsub⟩, ?_, ?_⟩
    · rintro rule ⟨⟩
      rw [gatherItem, hrules]
      exact mem_meetAll.2 (.inr (List.mem_singleton_self _))
    · rintro q ⟨⟩
  | list inner =>
    obtain ⟨hgathers, hmem⟩ := hlists path (place.1, inner) g hleft hpath hsettled
    refine ⟨hgathers, ?_, ?_⟩
    · rintro rule ⟨⟩
    · rintro q ⟨⟩
      exact hmem
  | linked i =>
    have hnext : r.next? base place (.linked i) = (r.target base place.1 grammar i).1 := by
      simp [next?, hgrammar]
    rw [expandItem, gatherItem, hnext]
    generalize r.target base place.1 grammar i = found at hnext
    obtain ⟨other, notices⟩ := found
    cases other with
    | none =>
      refine ⟨⟨rfl, List.Subset.refl _, hsettled⟩, ?_, ?_⟩
      · rintro rule ⟨⟩
      · simp [hnext]
    | some other =>
      obtain ⟨hgathers, hmem⟩ := hlists path other (g.note notices) hleft hpath hsettled
      refine ⟨⟨hgathers.rules, hgathers.visited, hgathers.settled⟩, ?_, fun q hq => ?_⟩
      · rintro rule ⟨⟩
      · rw [hnext] at hq
        cases hq
        exact hmem

theorem gathers_items {levels : Nat} {grammar : Grammar}
    (hgrammar : r.grammar? place.1 = some grammar) (hlists : r.GathersLists base levels)
    (items : List ListItem) {g : Gathering} (hleft : items ≠ [] → r.unseen g.visited < levels)
    (hpath : path ⊆ g.visited) (hsettled : r.Settled base path g) :
    let g' := items.foldl (r.gatherItem base levels place.1 grammar) g
    r.Gathers base path (items.flatMap (r.expandItem base path place)) g g' ∧
      ∀ item ∈ items, r.Done base place g' item := by
  induction items generalizing g with
  | nil => exact ⟨⟨rfl, List.Subset.refl _, hsettled⟩, nofun⟩
  | cons item rest ih =>
    have hleft : r.unseen g.visited < levels := hleft (List.cons_ne_nil item rest)
    obtain ⟨hitem, hdone⟩ := gathers_item hgrammar hlists hleft hpath hsettled item
    have hfewer := unseen_mono (r := r) hitem.visited
    obtain ⟨hrest, hdones⟩ := ih (fun _ => Nat.lt_of_le_of_lt hfewer hleft)
      (List.Subset.trans hpath hitem.visited) hitem.settled
    exact ⟨hitem.trans hrest, List.forall_mem_cons.2 ⟨hrest.done hdone, hdones⟩⟩

/-- Once its elements are done with, a list need not be expanded any more. -/
theorem Settled.leave {g : Gathering} (h : r.Settled base (place :: path) g)
    (hdone : ∀ item ∈ r.items place, r.Done base place g item) : r.Settled base path g := by
  intro p hp hpath
  by_cases heq : p = place
  · subst heq
    refine ⟨?_, ?_⟩
    · rintro rule ⟨item, hitem, hrule⟩
      exact (hdone item hitem).rule rule hrule
    · rintro q ⟨item, hitem, hq⟩
      exact (hdone item hitem).next q hq
  · exact h p hp (by simp [heq, hpath])

theorem gathersLists (r : Registry) (base : GrammarId) (levels : Nat) :
    r.GathersLists base levels := by
  induction levels with
  | zero => exact fun _ _ _ hleft => absurd hleft (Nat.not_lt_zero _)
  | succ levels ih =>
    intro path place g hleft hpath hsettled
    rw [gatherList_succ]
    by_cases hmet : place ∈ g.visited
    · rw [if_pos (by simpa using hmet)]
      have hnothing := meetAll_of_subset (hsettled.expand_subset hmet)
      exact ⟨⟨hnothing.symm, List.Subset.refl _, hsettled⟩, hmet⟩
    rw [if_neg (by simpa using hmet), expand_of_not_mem fun hin => hmet (hpath hin)]
    have hpath' : place :: path ⊆ (g.enter place).visited := List.cons_subset_cons _ hpath
    have henter : g.visited ⊆ (g.enter place).visited := List.subset_cons_self ..
    cases hgrammar : r.grammar? place.1 with
    | none =>
      rw [items_of_missing hgrammar]
      have hdone : ∀ item ∈ r.items place, r.Done base place (g.enter place) item := by
        simp [items_of_missing hgrammar]
      exact ⟨⟨rfl, henter, (hsettled.enter place).leave hdone⟩, .head _⟩
    | some grammar =>
      rw [items_of_grammar hgrammar]
      -- where the list has elements, entering it leaves one list fewer
      have hfewer : grammar.list place.2 ≠ [] → r.unseen (g.enter place).visited < levels := by
        intro hne
        have hless : r.unseen (g.enter place).visited < r.unseen g.visited :=
          unseen_enter (mem_places hgrammar hne) (by simpa using hmet)
        omega
      obtain ⟨hitems, hdone⟩ := gathers_items hgrammar ih (grammar.list place.2) hfewer hpath'
        (hsettled.enter place)
      refine ⟨⟨hitems.rules, List.Subset.trans henter hitems.visited, ?_⟩,
        hitems.visited (.head _)⟩
      exact hitems.settled.leave (items_of_grammar hgrammar ▸ hdone)

/-! ## All rules, once, in their order -/

/-- Whatever cycles the includes form: gathering comes to an end by itself, since no higher limit of
levels gives more. What it gives are the rules of the plain expansion, each where it occurs there
first; these are the rules of the lists that the list leads to, and each is there once. -/
theorem gather_expands (r : Registry) (base : GrammarId) (place : GrammarId × ListId) :
    (∀ levels, r.listCount < levels →
      (r.gatherList base levels place .empty).rules = (r.gather base place).1) ∧
    (r.gather base place).1 = (r.expand base [] place).eraseDups ∧
    (r.gather base place).1.Nodup ∧
    ∀ rule, rule ∈ (r.gather base place).1 ↔ ∃ p, r.Reaches base place p ∧ r.Holds p rule := by
  have hleft : r.unseen Gathering.empty.visited < r.listCount + 1 :=
    Nat.lt_succ_of_le (r.unseen_le _)
  obtain ⟨hgathers, hmet⟩ := gathersLists r base _ [] place .empty hleft (List.nil_subset _) nofun
  have hrules : (r.gather base place).1 = meetAll [] (r.expand base [] place) := hgathers.rules
  refine ⟨fun levels hlevels => ?_, ?_, ?_, fun rule => ⟨fun hrule => ?_, ?_⟩⟩
  · rw [gather_eq hlevels]
  · rw [hrules, meetAll_eq_eraseDups]
    simp
  · rw [hrules]
    exact nodup_meetAll List.nodup_nil _
  · rw [hrules, mem_meetAll] at hrule
    exact exists_of_mem_expand (hrule.resolve_left nofun)
  · rintro ⟨p, hreaches, hholds⟩
    -- all lists that the list leads to were met
    have hvisited : p ∈ (r.gatherList base (r.listCount + 1) place .empty).visited := by
      clear hholds
      induction hreaches with
      | refl => exact hmet
      | tail _ hstep ih => exact (hgathers.settled _ ih nofun).2 _ hstep
    exact (hgathers.settled p hvisited nofun).1 rule hholds

end Registry

end ScopeGrammar
