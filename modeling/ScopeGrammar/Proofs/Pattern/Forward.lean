import ScopeGrammar.Proofs.Pattern.Inside

/-!
# ScopeGrammar.Proofs.Pattern.Forward

Matches begin where they were tried.

* `Node.keepFree` : nothing in a pattern says that the match starts somewhere else.
* `Pattern.run_forward` : without such a node items are worked off from left to right, and the start
  stays where it is.
* `Pattern.Program.forward_of_attempt` : a match of such a pattern starts at the position at which
  it was tried.
-/

namespace ScopeGrammar.Pattern

/-! ## Patterns that leave the start as it is -/

/-- No part of a pattern sets where the match starts. -/
def Node.keepFree : Node → Bool
  | keep => false
  | cat a b | alt a b => a.keepFree && b.keepFree
  | group _ body | atomic body | ahead _ body | behind _ _ _ body | rounds _ _ _ body
  | absent body => body.keepFree
  | branch condition yes no => condition.keepFree && yes.keepFree && no.keepFree
  | _ => true

theorem Node.keepFree_of_mem_groupBodies {n : Node} {number : Nat} {body : Node}
    (h : n.keepFree = true) (hmem : (number, body) ∈ n.groupBodies) : body.keepFree = true := by
  induction n with
  | cat a b iha ihb | alt a b iha ihb =>
    rw [keepFree, Bool.and_eq_true] at h
    rw [groupBodies, List.mem_append] at hmem
    exact hmem.elim (iha h.1) (ihb h.2)
  | group n body' ih =>
    rw [groupBodies] at hmem
    obtain heq | hmem := List.mem_cons.1 hmem
    · cases heq
      exact h
    · exact ih h hmem
  | atomic body' ih | ahead _ body' ih | behind _ _ _ body' ih | rounds _ _ _ body' ih
  | absent body' ih => exact ih h hmem
  | branch condition yes no ihc ihy ihn =>
    simp only [keepFree, Bool.and_eq_true] at h
    simp only [groupBodies, List.mem_append] at hmem
    obtain (hmem | hmem) | hmem := hmem
    · exact ihc h.1.1 hmem
    · exact ihy h.1.2 hmem
    · exact ihn h.2 hmem
  | _ => cases hmem

/-- All bodies of groups leave the start as it is. -/
def Setting.KeepFree (s : Setting) : Prop := ∀ body ∈ s.bodies, body.keepFree = true

theorem Setting.le_backrefEnd {s : Setting} {caseless : Bool} {p : Progress} {ns : List Nat}
    {pos : Nat} (h : s.backrefEnd caseless p ns = some pos) : p.pos ≤ pos := by
  induction ns with
  | nil => cases h
  | cons n rest ih =>
    rw [backrefEnd] at h
    split at h
    · exact ih h
    · split at h
      · cases h
        exact Nat.le_add_right _ _
      · exact ih h

/-! ## Working off items -/

/-- The item may be worked off at a position: it leaves the start as it is, and a group that it
closes began before. -/
def Item.Ready (pos : Nat) : Item → Prop
  | .node n => n.keepFree = true
  | .again _ _ _ body _ => body.keepFree = true
  | .close _ start => start ≤ pos
  | .stopAt _ => True

def Ready (pos : Nat) (items : List Item) : Prop := ∀ item ∈ items, item.Ready pos

theorem Ready.node {n : Node} {pos : Nat} {rest : List Item} (hn : n.keepFree = true)
    (hrest : Ready pos rest) : Ready pos (.node n :: rest) := List.forall_mem_cons.2 ⟨hn, hrest⟩

theorem Ready.mono {pos pos' : Nat} {items : List Item} (h : Ready pos items) (hle : pos ≤ pos') :
    Ready pos' items := by
  intro item hitem
  have hready := h item hitem
  cases item with
  | close number start => exact Nat.le_trans hready hle
  | node n => exact hready
  | again least most greedy body start => exact hready
  | stopAt pos => exact hready

/-- No group ends before it begins. -/
def Progress.Ordered (p : Progress) : Prop :=
  ∀ {i : Nat} {range : Nat × Nat}, (p.groups[i]?).join = some range → range.1 ≤ range.2

theorem Progress.Ordered.close {p : Progress} (h : p.Ordered) {start : Nat} (hstart : start ≤ p.pos)
    (number : Nat) :
    Progress.Ordered
      { p with groups := p.groups.setIfInBounds number (some (start, p.pos)) } := by
  intro i range hi
  rw [Array.getElem?_setIfInBounds] at hi
  split at hi
  · split at hi
    · cases hi
      exact hstart
    · cases hi
  · exact h hi

/-- The work on a match went on from `p` to `q`. -/
structure Progress.Leads (p q : Progress) : Prop where
  pos_le : p.pos ≤ q.pos
  kept_eq : q.kept = p.kept
  ordered : p.Ordered → q.Ordered

namespace Progress.Leads

variable {p q r : Progress}

theorem refl (p : Progress) : p.Leads p := ⟨Nat.le_refl _, rfl, id⟩

theorem trans (h : p.Leads q) (h' : q.Leads r) : p.Leads r :=
  ⟨Nat.le_trans h.pos_le h'.pos_le, h'.kept_eq.trans h.kept_eq, h'.ordered ∘ h.ordered⟩

theorem move {pos : Nat} (hpos : p.pos ≤ pos) : p.Leads { p with pos } := ⟨hpos, rfl, id⟩

end Progress.Leads

/-- Working off items with this fuel goes forward. -/
def GoesForward (s : Setting) (fuel : Nat) : Prop :=
  ∀ {items p q}, Ready p.pos items → run s fuel items p = some q → p.Leads q

namespace GoesForward

variable {s : Setting} {fuel : Nat} (ih : GoesForward s fuel) {rest : List Item} {p q : Progress}
  (hrest : Ready p.pos rest)

include ih

theorem alone {n : Node} (hn : n.keepFree = true) (h : run s fuel [.node n] p = some q) :
    p.Leads q := ih (.node hn (List.forall_mem_nil _)) h

include hrest

/-- What is left goes on from further to the right. -/
theorem onward {r : Progress} (hr : p.Leads r) (h : run s fuel rest r = some q) : p.Leads q :=
  hr.trans (ih (hrest.mono hr.pos_le) h)

theorem single {n : Node}
    (h : (if s.singleAt n p.pos then run s fuel rest { p with pos := p.pos + 1 } else none) =
      some q) : p.Leads q := by
  split at h
  · exact ih.onward hrest (.move (Nat.le_succ _)) h
  · cases h

/-- Where a match inside a match was tried, what follows starts at the same place again. -/
theorem after {found : Option Progress} {negative : Bool}
    (h : (match found with
      | some r => if negative then none else run s fuel rest { r with pos := p.pos }
      | none => if negative then run s fuel rest p else none) = some q)
    (hfound : ∀ r, found = some r → r.kept = p.kept ∧ (p.Ordered → r.Ordered)) : p.Leads q := by
  cases found with
  | some r =>
    obtain ⟨hkept, hordered⟩ := hfound r rfl
    dsimp only at h
    split at h
    · cases h
    · exact ih.onward (r := { r with pos := p.pos }) hrest ⟨Nat.le_refl _, hkept, hordered⟩ h
  | none =>
    dsimp only at h
    split at h
    · exact ih hrest h
    · cases h

theorem either {items : List Item} (hitems : Ready p.pos items)
    (h : (match run s fuel items p with
      | some r => some r
      | none => run s fuel rest p) = some q) : p.Leads q := by
  split at h
  · next hfirst => exact ih hitems (hfirst.trans h)
  · exact ih hrest h

theorem rounds {least : Nat} {most : Option Nat} {greedy : Bool} {body : Node}
    (hbody : (Node.rounds least most greedy body).keepFree = true)
    (h : run s (fuel + 1) (.node (.rounds least most greedy body) :: rest) p = some q) :
    p.Leads q := by
  rw [run] at h
  dsimp only at h
  have hround : Ready p.pos
      (.node body :: .again (least - 1) (most.map (· - 1)) greedy body p.pos :: rest) :=
    .node hbody (List.forall_mem_cons.2 ⟨hbody, hrest⟩)
  split at h
  · exact ih hrest h
  split at h
  · -- as many single characters as there are, and then fewer, or the other way round
    split at h
    · split at h
      · cases h
      · obtain ⟨k, _, _, hrun⟩ := exists_of_firstDown h
        exact ih.onward hrest (.move (Nat.le_add_right _ _)) hrun
    · split at h
      · cases h
      · obtain ⟨k, _, _, hrun⟩ := exists_of_firstUp h
        exact ih.onward hrest (.move (Nat.le_add_right _ _)) hrun
  · split at h
    · exact ih hround h
    · split at h
      · exact ih.either hrest hround h
      · exact ih.either hround hrest h

theorem absent {body : Node}
    (h : run s (fuel + 1) (.node (.absent body) :: rest) p = some q) : p.Leads q := by
  rw [run] at h
  dsimp only at h
  split at h
  · split at h
    · cases h
    · obtain ⟨k, hk, _, hrun⟩ := exists_of_firstDown h
      exact ih.onward hrest (.move hk) hrun
  · obtain ⟨k, hk, _, hrun⟩ := exists_of_firstDown h
    exact ih.onward hrest (.move hk) hrun

theorem node {n : Node} (hs : s.KeepFree) (hn : n.keepFree = true)
    (h : run s (fuel + 1) (.node n :: rest) p = some q) : p.Leads q := by
  cases n with
  | empty =>
    rw [run] at h
    exact ih hrest h
  | char c =>
    rw [run] at h
    exact ih.single hrest h
  | letter folded =>
    rw [run] at h
    exact ih.single hrest h
  | set set =>
    rw [run] at h
    exact ih.single hrest h
  | anchor a =>
    rw [run] at h
    split at h
    · exact ih hrest h
    · cases h
  | keep => cases hn
  | cat a b =>
    rw [Node.keepFree, Bool.and_eq_true] at hn
    rw [run] at h
    exact ih (.node hn.1 (.node hn.2 hrest)) h
  | alt a b =>
    rw [Node.keepFree, Bool.and_eq_true] at hn
    rw [run] at h
    exact ih.either (.node hn.2 hrest) (.node hn.1 hrest) h
  | group number body =>
    rw [run] at h
    have hclose : Ready p.pos (.close number p.pos :: rest) :=
      List.forall_mem_cons.2 ⟨Nat.le_refl _, hrest⟩
    exact ih (.node (n := body) hn hclose) h
  | atomic body =>
    rw [run] at h
    split at h
    · next r hbody => exact ih.onward hrest (ih.alone (n := body) hn hbody) h
    · cases h
  | ahead negative body =>
    rw [run] at h
    refine ih.after hrest h fun r hr => ?_
    have hleads := ih.alone (n := body) hn hr
    exact ⟨hleads.kept_eq, hleads.ordered⟩
  | behind negative least most body =>
    rw [run] at h
    refine ih.after hrest h fun r hr => ?_
    split at hr
    · cases hr
    · obtain ⟨back, _, _, hrun⟩ := exists_of_firstUp hr
      have hstop : ∀ pos', Ready pos' [.stopAt p.pos] := fun _ =>
        List.forall_mem_singleton.2 trivial
      have hleads := ih (.node (n := body) hn (hstop _)) hrun
      exact ⟨hleads.kept_eq, hleads.ordered⟩
  | rounds least most greedy body => exact ih.rounds hrest hn h
  | backref ns caseless =>
    rw [run] at h
    split at h
    · next pos hend => exact ih.onward hrest (.move (Setting.le_backrefEnd hend)) h
    · cases h
  | matched ns =>
    rw [run] at h
    split at h
    · exact ih hrest h
    · cases h
  | branch condition yes no =>
    simp only [Node.keepFree, Bool.and_eq_true] at hn
    rw [run] at h
    split at h
    · next r hcondition =>
      have hfirst := ih.alone hn.1.1 hcondition
      exact hfirst.trans (ih (.node hn.1.2 (hrest.mono hfirst.pos_le)) h)
    · exact ih (.node hn.2 hrest) h
  | absent body => exact ih.absent hrest h
  | call number =>
    rw [run] at h
    split at h
    · next body hbody =>
      have hfree : body.keepFree = true := hs body (Array.mem_of_getElem? hbody)
      split at h
      · exact ih (.node hfree hrest) h
      · exact ih (.node (n := .group number body) hfree hrest) h
    · cases h

end GoesForward

/-- Items that leave the start as it is are worked off from left to right. -/
theorem run_forward {s : Setting} (hs : s.KeepFree) (fuel : Nat) : GoesForward s fuel := by
  induction fuel with
  | zero =>
    intro items p q hitems h
    cases items with
    | nil =>
      rw [run] at h
      cases h
      exact .refl p
    | cons item rest => cases h
  | succ fuel ih =>
    intro items p q hitems h
    cases items with
    | nil =>
      rw [run] at h
      cases h
      exact .refl p
    | cons item rest =>
      obtain ⟨hitem, hrest⟩ := List.forall_mem_cons.1 hitems
      cases item with
      | node n => exact ih.node hrest hs hitem h
      | close number start =>
        rw [run] at h
        have hleads : p.Leads
            { p with groups := p.groups.setIfInBounds number (some (start, p.pos)) } :=
          ⟨Nat.le_refl _, rfl, fun hp => hp.close hitem number⟩
        exact ih.onward hrest hleads h
      | again least most greedy body start =>
        rw [run] at h
        split at h
        · exact ih hrest h
        · exact ih (.node (n := .rounds least most greedy body) hitem hrest) h
      | stopAt pos =>
        rw [run] at h
        split at h
        · exact ih hrest h
        · cases h

/-! ## Programs -/

namespace Program

/-- Neither the pattern nor a group that it calls sets where the match starts. -/
def keepFree (p : Program) : Bool := p.root.keepFree && p.bodies.all Node.keepFree

theorem keepFree_ofNode {root : Node} (h : root.keepFree = true) (groupCount : Nat) :
    (ofNode root groupCount).keepFree = true := by
  rw [keepFree, Bool.and_eq_true, Array.all_eq_true_iff_forall_mem]
  refine ⟨h, fun body hbody => ?_⟩
  simp only [ofNode, List.mem_toArray, List.mem_map] at hbody
  obtain ⟨n, _, rfl⟩ := hbody
  split
  · exact h
  · cases hfound : root.groupBodies.lookup n with
    | none => rfl
    | some body =>
      obtain ⟨before, behind, hbodies, _⟩ := List.lookup_eq_some_iff.1 hfound
      exact Node.keepFree_of_mem_groupBodies h (hbodies ▸ by simp : (n, body) ∈ root.groupBodies)

variable {p : Program} {t : Subject} {start pos : Nat} {stop : Option Nat} {m : Match}

/-- Without a part that sets it, a match starts at the position at which it was tried, and its
groups do not end before they begin. -/
theorem forward_of_attempt (h : p.keepFree = true) (hm : p.attempt t start pos stop = some m) :
    m.start = pos ∧ ∀ {i range}, m.group? i = some range → range.1 ≤ range.2 := by
  obtain ⟨q, hrun, rfl⟩ := Option.map_eq_some_iff.1 hm
  rw [keepFree, Bool.and_eq_true, Array.all_eq_true_iff_forall_mem] at h
  have hs : Setting.KeepFree { chars := t.chars, start, bodies := p.bodies } := h.2
  have hitems : Ready pos (.node p.root :: (stop.map Item.stopAt).toList) := by
    refine .node h.1 fun item hitem => ?_
    obtain ⟨_, _, rfl⟩ := by simpa using hitem
    exact trivial
  have hleads := run_forward hs _ hitems hrun
  have hkept : q.kept = none := hleads.kept_eq
  have hle : pos ≤ q.pos := hleads.pos_le
  have hordered : q.Ordered := by
    refine hleads.ordered fun {i range} hi => ?_
    rw [Array.getElem?_replicate] at hi
    split at hi <;> cases hi
  refine ⟨?_, fun {i range} hi => ?_⟩
  · show min (q.kept.getD pos) q.pos = pos
    rw [hkept]
    exact Nat.min_eq_left hle
  · rw [Match.group?] at hi
    cases i with
    | zero =>
      cases hi
      exact Nat.min_le_right ..
    | succ i => exact hordered (i := i + 1) (by simpa [Nat.add_comm] using hi)

end Program

end ScopeGrammar.Pattern
