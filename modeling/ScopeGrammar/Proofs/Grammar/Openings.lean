import Mathlib.Data.Nat.ModEq
import ScopeGrammar.Proofs.Grammar.Traversal

/-!
# ScopeGrammar.Proofs.Grammar.Openings

The numbers that repositories get while a source is compiled.

* `Build.Opens` : a step was run, and the repositories that were opened in it got these numbers.
* `Build.Opens.ids_eq` : the numbers count on, and come round after 2^16 of them.
* `Grammar.ofSource_opens` : so it is for all repositories of a grammar that is accepted.
* `nodup_map_range'_iff` : numbers that come round are given twice just in case there are more of
  them than fit.
-/

namespace ScopeGrammar

open Build

/-! ## Numbers that come round -/

theorem nodup_map_range'_iff {α : Type} {number : Nat → α} {size : Nat} (hsize : 0 < size)
    (hnumber : ∀ i j, number i = number j ↔ i % size = j % size) (start n : Nat) :
    ((List.range' start n).map number).Nodup ↔ n ≤ size := by
  rw [List.nodup_map_iff_inj_on List.nodup_range']
  constructor
  · intro h
    by_contra hlt
    have heq : start + size = start :=
      h _ (List.mem_range'_1.2 (by omega)) _ (List.mem_range'_1.2 (by omega))
        ((hnumber _ _).2 (Nat.add_mod_right start size))
    omega
  · intro hle i hi j hj hij
    rw [List.mem_range'_1] at hi hj
    have hmod : i ≡ j [MOD size] := (hnumber i j).1 hij
    refine hmod.eq_of_abs_lt (abs_lt.2 ?_)
    omega

/-- The number of the repository that is opened after so many others. -/
def RepositoryId.ofCount (n : Nat) : RepositoryId := ⟨n.toUInt16⟩

theorem RepositoryId.ofCount_eq_iff (i j : Nat) :
    ofCount i = ofCount j ↔ i % 2 ^ 16 = j % 2 ^ 16 := by
  simp [ofCount, ← UInt16.toNat_inj]

/-! ## Repositories opened by a step -/

/-- The step ended well, and the repositories opened on the way got these numbers, the first one
first. -/
inductive Build.Opens : {α : Type} → Build α → Builder → List RepositoryId → α → Builder → Prop
  | one {b c : Builder} {id : RepositoryId} :
    Gives addRepository b id c → Opens addRepository b [id] id c
  | none {α : Type} {m : Build α} {b c : Builder} {a : α} :
    Gives m b a c → c.grammar.count .repository = b.grammar.count .repository → Opens m b [] a c
  | bind {α β : Type} {m : Build α} {f : α → Build β} {b c d : Builder}
      {ids ids' : List RepositoryId} {a : α} {y : β} :
    Opens m b ids a c → Opens (f a) c ids' y d → Opens (m >>= f) b (ids ++ ids') y d

namespace Build.Opens

variable {α : Type} {m : Build α} {b c : Builder} {ids : List RepositoryId} {a : α}

theorem count_eq (h : Opens m b ids a c) :
    c.grammar.count .repository = b.grammar.count .repository + ids.length := by
  induction h with
  | one h =>
    obtain ⟨rfl, _⟩ := addRepository_adds.of_gives h
    exact Grammar.count_addPart (.repository []) .repository
  | none _ h => exact h
  | bind _ _ ih ih' => rw [ih', ih, List.length_append, Nat.add_assoc]

/-- The numbers count on from how many repositories there are. -/
theorem ids_eq (h : Opens m b ids a c) :
    ids = (List.range' (b.grammar.count .repository) ids.length).map RepositoryId.ofCount := by
  induction h with
  | one h =>
    cases h
    rfl
  | none _ _ => rfl
  | bind h _ ih ih' =>
    rw [h.count_eq] at ih'
    rw [List.length_append, ← List.range'_append_1, List.map_append, ← ih, ← ih']

end Build.Opens

/-! ## All steps -/

/-- Whenever the step ends well, it opens some repositories. -/
def Build.Opening {α : Type} (m : Build α) (Q : α → Prop) : Prop :=
  ∀ b a c, Gives m b a c → Q a ∧ ∃ ids, Opens m b ids a c

namespace Build.Opening

variable {α β : Type} {validate : Validator}

theorem pure {Q : α → Prop} {a : α} (h : Q a) : Opening (pure a) Q := by
  intro b a' c hgives
  obtain ⟨rfl, rfl⟩ := gives_pure.1 hgives
  exact ⟨h, [], .none hgives rfl⟩

theorem bind {m : Build α} {f : α → Build β} {Q : α → Prop} {R : β → Prop} (h : Opening m Q)
    (h' : ∀ a, Q a → Opening (f a) R) : Opening (m >>= f) R := by
  intro b y d hgives
  obtain ⟨a, c, hm, hf⟩ := gives_bind.1 hgives
  obtain ⟨hQ, ids, hids⟩ := h b a c hm
  obtain ⟨hR, ids', hids'⟩ := h' a hQ c y d hf
  exact ⟨hR, ids ++ ids', hids.bind hids'⟩

/-- A step that leaves the repositories as they are opens none. -/
theorem of_count {m : Build α}
    (h : ∀ b a c, Gives m b a c →
      c.grammar.count .repository = b.grammar.count .repository) :
    Opening m fun _ => True :=
  fun b a c hgives => ⟨trivial, [], .none hgives (h b a c hgives)⟩

theorem of_adds {ι : Type} {part : ι → PartId} {m : Build ι} {p : Part} (h : Adds part m p)
    (hp : p.kind ≠ .repository) : Opening m fun _ => True :=
  of_count fun _ _ _ hgives => by
    obtain ⟨rfl, _⟩ := h.of_gives hgives
    rw [Builder.add, Grammar.count_addPart, if_neg hp.symm]
    rfl

theorem compileInclude (repositories : RepositoryChain) (path text : String) :
    Opening (compileInclude repositories path text) fun _ => True := by
  refine of_count fun _ _ _ hgives => ?_
  unfold ScopeGrammar.compileInclude at hgives
  cases htarget : IncludeTarget.ofString text <;> rw [htarget] at hgives <;> cases hgives <;> rfl

theorem compileRepository {repositories : RepositoryChain} {path : String}
    {entries : List (String × RuleSource)}
    (h : ∀ stack, Opening (compileEntries validate stack path entries) fun _ => True) :
    Opening (compileRepository validate repositories path entries) fun _ => True := by
  rw [ScopeGrammar.compileRepository, openRepository]
  refine bind (Q := fun _ => True) ?_ fun opened _ => ?_
  · refine bind (Q := fun _ => True) ?_ fun id _ => ?_
    · exact fun _ _ _ hgives => ⟨trivial, [_], .one hgives⟩
    · cases repositories.push id with
      | some stack => exact pure trivial
      | none => exact fun _ _ _ hgives => absurd hgives not_gives_refuse
  · refine bind (h opened.2) fun lists _ => ?_
    refine bind (Q := fun _ => True) ?_ fun _ _ => pure trivial
    exact of_count fun _ _ _ hgives => by
      cases hgives
      exact Grammar.count_withRepository opened.1 lists .repository

theorem traversal (validate : Validator) (s : GrammarSource) :
    Traversal validate s Opening (fun _ _ => True) fun _ => True where
  pure := pure
  bind := bind
  adds hadds hp _ := of_adds hadds hp
  skip path refusal := of_count fun _ _ _ hgives => by
    cases hgives
    rfl
  linked path _ _ _ _ := fun b item c hgives =>
    ⟨fun _ _ => trivial, (compileInclude _ path _ b item c hgives).2⟩
  refuse _ _ _ _ _ := fun _ _ _ hgives => absurd hgives not_gives_refuse
  space path _ _ _ := of_count fun _ _ _ hgives => by
    obtain ⟨rfl, _⟩ := captureSpace_gives hgives
    rfl
  repository path _ _ _ _ _ hentries := compileRepository fun stack => hentries stack trivial

theorem compileSource (validate : Validator) (s : GrammarSource) :
    Opening (compileSource validate s) fun _ => True := by
  have t := traversal validate s
  rw [compileSource_eq, compileParts]
  refine bind (Q := fun _ => True) ?_ fun parts _ => ?_
  · refine bind (compileRepository fun stack => ?_) fun stack _ => ?_
    · exact t.entries (fun e he path => t.rule path (.ownEntry he) trivial) _
    · refine bind (t.items (fun r hr path => t.rule path (.pattern hr) trivial) _) fun _ _ => ?_
      exact pure trivial
  · refine bind (Q := fun _ => True) (of_count fun _ _ _ hgives => ?_) fun _ _ =>
      of_count fun _ _ _ hgives => ?_
    · cases hgives
      rfl
    · obtain ⟨rfl, _⟩ := gives_checkIncludes.1 hgives
      rfl

end Build.Opening

/-- The repositories of a grammar are numbered in the order in which they are opened, the one of the
grammar itself first, as far as their count fits into a number. -/
theorem Grammar.ofSource_opens {validate : Validator} {s : GrammarSource} {g : Grammar}
    (h : (Grammar.ofSource validate s).1 = .ok g) :
    ∃ ids last, Opens (compileSource validate s) (.first s) ids () last ∧ last.grammar = g ∧
      ids = (List.range g.repositories.size).map RepositoryId.ofCount := by
  obtain ⟨_, last, hgives, rfl⟩ := ofSource_eq_ok.1 h
  obtain ⟨_, ids, hopens⟩ := Opening.compileSource validate s _ _ _ hgives
  have hcount := hopens.count_eq
  have hids := hopens.ids_eq
  rw [Builder.count_first, Nat.zero_add] at hcount
  rw [Builder.count_first, ← hcount, ← List.range_eq_range'] at hids
  exact ⟨ids, last, hopens, rfl, hids⟩

end ScopeGrammar
