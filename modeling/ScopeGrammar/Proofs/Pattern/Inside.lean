import ScopeGrammar.Pattern.Regex
import ScopeGrammar.Proofs.Text.Offsets

/-!
# ScopeGrammar.Proofs.Pattern.Inside

Matches lie inside the text.

* `Match.Inside` : a match and all its groups end at or before the end of the text.
* `Engine.Inside` : so do all matches of an engine. Then what a group of patterns finds does too
  (`PatternGroup.inside_of_search`).
* `Regex.engine_inside` : the engine that grammars are used with is one of these. Every item that is
  worked off leaves the position and the groups inside the text (`Pattern.run_inside`).
-/

namespace ScopeGrammar

structure Match.Inside (length : Nat) (m : Match) : Prop where
  start_le : m.start ≤ m.stop
  stop_le : m.stop ≤ length
  group_le : ∀ {i : Nat} {range : Nat × Nat}, m.group? i = some range → range.2 ≤ length

/-- No match that begins inside a text leaves it. -/
def Engine.Inside {P : Type} (engine : Engine P) : Prop :=
  ∀ {p t start pos m}, pos ≤ Subject.length t → engine.attempt p t start pos = some m →
    m.Inside t.length

/-! ## Searching -/

theorem exists_of_firstFrom {α : Type} {f : Nat → Option α} {count pos : Nat} {a : α}
    (h : firstFrom f count pos = some a) : ∃ i, pos ≤ i ∧ i < pos + count ∧ f i = some a := by
  induction count generalizing pos with
  | zero => cases h
  | succ count ih =>
    rw [firstFrom] at h
    split at h
    · next hfound =>
      cases h
      exact ⟨pos, by omega, by omega, hfound⟩
    · obtain ⟨i, hlow, hhigh, hi⟩ := ih h
      exact ⟨i, by omega, by omega, hi⟩

section

variable {P : Type} {engine : Engine P} (hengine : engine.Inside)

include hengine

theorem PatternGroup.inside_of_firstMatch {t : Subject} {start pos i j : Nat} {patterns : List P}
    {m : Match} (hpos : pos ≤ t.length)
    (h : firstMatch engine t start pos i patterns = some (j, m)) : m.Inside t.length := by
  induction patterns generalizing i with
  | nil => cases h
  | cons p rest ih =>
    rw [firstMatch] at h
    split at h
    · next hfound =>
      cases h
      exact hengine hpos hfound
    · exact ih h

theorem PatternGroup.inside_of_search {g : PatternGroup P} {t : Subject} {start i : Nat} {m : Match}
    (h : g.search engine t start = some (i, m)) : m.Inside t.length := by
  rw [search] at h
  split at h
  · cases h
  · next hstart =>
    simp only [Bool.or_eq_true, decide_eq_true_eq, not_or, Nat.not_le] at hstart
    obtain ⟨pos, _, hpos, hfound⟩ := exists_of_firstFrom h
    exact inside_of_firstMatch hengine (by omega) hfound

theorem Engine.inside_of_matchAt {p : P} {t : Subject} {pos : Nat} {m : Match}
    (h : engine.matchAt p t pos = some m) : m.Inside t.length := by
  rw [matchAt] at h
  split at h
  · cases h
  · exact hengine (by omega) h

end

/-! ## The matcher -/

namespace Pattern

structure Progress.Inside (length : Nat) (p : Progress) : Prop where
  pos_le : p.pos ≤ length
  group_le : ∀ {i : Nat} {range : Nat × Nat}, (p.groups[i]?).join = some range → range.2 ≤ length

namespace Progress.Inside

variable {length : Nat} {p : Progress}

theorem moveTo (h : p.Inside length) {pos : Nat} (hpos : pos ≤ length) :
    Progress.Inside length { p with pos } := ⟨hpos, h.group_le⟩

theorem close (h : p.Inside length) (number start : Nat) :
    Progress.Inside length
      { p with groups := p.groups.setIfInBounds number (some (start, p.pos)) } := by
  refine ⟨h.pos_le, fun {i range} hi => ?_⟩
  rw [Array.getElem?_setIfInBounds] at hi
  split at hi
  · split at hi
    · cases hi
      exact h.pos_le
    · cases hi
  · exact h.group_le hi

end Progress.Inside

theorem exists_of_firstDown {α : Type} {f : Nat → Option α} {low count : Nat} {a : α}
    (h : firstDown f low count = some a) : ∃ i, low ≤ i ∧ i < low + count ∧ f i = some a := by
  induction count with
  | zero => cases h
  | succ count ih =>
    rw [firstDown] at h
    split at h
    · next hfound =>
      cases h
      exact ⟨low + count, by omega, by omega, hfound⟩
    · obtain ⟨i, hlow, hhigh, hi⟩ := ih h
      exact ⟨i, hlow, by omega, hi⟩

theorem exists_of_firstUp {α : Type} {f : Nat → Option α} {low count : Nat} {a : α}
    (h : firstUp f low count = some a) : ∃ i, low ≤ i ∧ i < low + count ∧ f i = some a := by
  induction count generalizing low with
  | zero => cases h
  | succ count ih =>
    rw [firstUp] at h
    split at h
    · next hfound =>
      cases h
      exact ⟨low, by omega, by omega, hfound⟩
    · obtain ⟨i, hlow, hhigh, hi⟩ := ih h
      exact ⟨i, by omega, by omega, hi⟩

namespace Setting

variable {s : Setting}

theorem lt_of_singleAt {n : Node} {pos : Nat} (h : s.singleAt n pos = true) :
    pos < s.chars.size := by
  rw [singleAt] at h
  split at h
  · cases h
  · next hchar => exact (Array.getElem?_eq_some_iff.1 hchar).1

theorem countSingles_le (n : Node) (room : Nat) {pos : Nat} (h : pos ≤ s.chars.size) :
    s.countSingles n room pos ≤ room ∧ pos + s.countSingles n room pos ≤ s.chars.size := by
  induction room generalizing pos with
  | zero => exact ⟨Nat.le_refl _, h⟩
  | succ room ih =>
    rw [countSingles]
    split
    · next hsingle =>
      have hnext : pos + 1 ≤ s.chars.size := lt_of_singleAt hsingle
      have := ih hnext
      omega
    · exact ⟨Nat.zero_le _, h⟩

theorem add_le_of_sameText {caseless : Bool} {width i pos : Nat}
    (h : s.sameText caseless width i pos = true) (hpos : pos ≤ s.chars.size) :
    pos + width ≤ s.chars.size := by
  induction width generalizing i pos with
  | zero => exact hpos
  | succ width ih =>
    rw [sameText] at h
    split at h
    · next hchar =>
      rw [Bool.and_eq_true] at h
      have := ih h.2 (Array.getElem?_eq_some_iff.1 hchar).1
      omega
    · cases h

theorem backrefEnd_le {caseless : Bool} {p : Progress} {ns : List Nat} {pos : Nat}
    (h : s.backrefEnd caseless p ns = some pos) (hpos : p.pos ≤ s.chars.size) :
    pos ≤ s.chars.size := by
  induction ns with
  | nil => cases h
  | cons n rest ih =>
    rw [backrefEnd] at h
    split at h
    · exact ih h
    · split at h
      · next hsame =>
        cases h
        exact add_le_of_sameText hsame hpos
      · exact ih h

end Setting

/-- Working off items with this fuel leaves the position and the groups inside the text. -/
def StaysInside (s : Setting) (fuel : Nat) : Prop :=
  ∀ {items p q}, run s fuel items p = some q → Progress.Inside s.chars.size p →
    Progress.Inside s.chars.size q

namespace StaysInside

variable {s : Setting} {fuel : Nat} (ih : StaysInside s fuel) {rest : List Item} {p q : Progress}

include ih

theorem single {n : Node} (hp : p.Inside s.chars.size)
    (h : (if s.singleAt n p.pos then run s fuel rest { p with pos := p.pos + 1 } else none) =
      some q) : q.Inside s.chars.size := by
  split at h
  · next hsingle => exact ih h (hp.moveTo (Setting.lt_of_singleAt hsingle))
  · cases h

/-- Where a match inside a match was tried, what follows starts at the same place again. -/
theorem after {found : Option Progress} {negative : Bool} (hp : p.Inside s.chars.size)
    (h : (match found with
      | some r => if negative then none else run s fuel rest { r with pos := p.pos }
      | none => if negative then run s fuel rest p else none) = some q)
    (hfound : ∀ r, found = some r → r.Inside s.chars.size) : q.Inside s.chars.size := by
  cases found with
  | some r =>
    dsimp only at h
    split at h
    · cases h
    · exact ih h ((hfound r rfl).moveTo hp.pos_le)
  | none =>
    dsimp only at h
    split at h
    · exact ih h hp
    · cases h

theorem either {items items' : List Item} (hp : p.Inside s.chars.size)
    (h : (match run s fuel items p with
      | some r => some r
      | none => run s fuel items' p) = some q) : q.Inside s.chars.size := by
  split at h
  · next hfirst => exact ih (hfirst.trans h) hp
  · exact ih h hp

theorem rounds {least : Nat} {most : Option Nat} {greedy : Bool} {body : Node}
    (hp : p.Inside s.chars.size)
    (h : run s (fuel + 1) (.node (.rounds least most greedy body) :: rest) p = some q) :
    q.Inside s.chars.size := by
  have hpos := hp.pos_le
  rw [run] at h
  dsimp only at h
  split at h
  · exact ih h hp
  split at h
  · split at h
    · -- as many single characters as there are, and then fewer
      split at h
      · cases h
      · obtain ⟨k, _, hk, hrun⟩ := exists_of_firstDown h
        have := Setting.countSingles_le (s := s) body
          (min (s.chars.size - p.pos) (most.getD (s.chars.size - p.pos))) hpos
        exact ih hrun (hp.moveTo (by omega))
    · split at h
      · cases h
      · next hleast =>
        have hfirst := Setting.countSingles_le (s := s) body least hpos
        have hmore := Setting.countSingles_le (s := s) body
          (min (s.chars.size - p.pos) (most.getD (s.chars.size - p.pos)) - least)
          (show p.pos + least ≤ s.chars.size by omega)
        obtain ⟨k, _, hk, hrun⟩ := exists_of_firstUp h
        exact ih hrun (hp.moveTo (by omega))
  · split at h
    · exact ih h hp
    · split at h <;> exact either ih hp h

theorem absent {body : Node} (hp : p.Inside s.chars.size)
    (h : run s (fuel + 1) (.node (.absent body) :: rest) p = some q) :
    q.Inside s.chars.size := by
  have hpos := hp.pos_le
  rw [run] at h
  dsimp only at h
  split at h
  · next e hending =>
    obtain ⟨i, _, hi, hfound⟩ := exists_of_firstUp hending
    split at h
    · cases h
    · split at hfound
      · cases hfound
        obtain ⟨k, _, hk, hrun⟩ := exists_of_firstDown h
        exact ih hrun (hp.moveTo (by omega))
      · cases hfound
  · obtain ⟨k, _, hk, hrun⟩ := exists_of_firstDown h
    exact ih hrun (hp.moveTo (by omega))

theorem node {n : Node} (hp : p.Inside s.chars.size)
    (h : run s (fuel + 1) (.node n :: rest) p = some q) : q.Inside s.chars.size := by
  cases n with
  | empty =>
    rw [run] at h
    exact ih h hp
  | char c =>
    rw [run] at h
    exact ih.single hp h
  | letter folded =>
    rw [run] at h
    exact ih.single hp h
  | set set =>
    rw [run] at h
    exact ih.single hp h
  | anchor a =>
    rw [run] at h
    split at h
    · exact ih h hp
    · cases h
  | keep =>
    rw [run] at h
    exact ih h ⟨hp.pos_le, hp.group_le⟩
  | cat a b =>
    rw [run] at h
    exact ih h hp
  | alt a b =>
    rw [run] at h
    exact ih.either hp h
  | group number body =>
    rw [run] at h
    exact ih h hp
  | atomic body =>
    rw [run] at h
    split at h
    · next r hbody => exact ih h (ih hbody hp)
    · cases h
  | ahead negative body =>
    rw [run] at h
    exact ih.after hp h fun r hr => ih hr hp
  | behind negative least most body =>
    rw [run] at h
    refine ih.after hp h fun r hr => ?_
    split at hr
    · cases hr
    · obtain ⟨back, _, _, hrun⟩ := exists_of_firstUp hr
      have hpos := hp.pos_le
      exact ih hrun (hp.moveTo (by omega))
  | rounds least most greedy body => exact ih.rounds hp h
  | backref ns caseless =>
    rw [run] at h
    split at h
    · next pos hend => exact ih h (hp.moveTo (Setting.backrefEnd_le hend hp.pos_le))
    · cases h
  | matched ns =>
    rw [run] at h
    split at h
    · exact ih h hp
    · cases h
  | branch condition yes no =>
    rw [run] at h
    split at h
    · next r hcondition => exact ih h (ih hcondition hp)
    · exact ih h hp
  | absent body => exact ih.absent hp h
  | call number =>
    rw [run] at h
    split at h
    · split at h <;> exact ih h hp
    · cases h

end StaysInside

/-- Whatever is worked off, the position and the groups stay inside the text. -/
theorem run_inside (s : Setting) (fuel : Nat) : StaysInside s fuel := by
  induction fuel with
  | zero =>
    intro items p q h hp
    cases items with
    | nil =>
      rw [run] at h
      cases h
      exact hp
    | cons item rest => cases h
  | succ fuel ih =>
    intro items p q h hp
    cases items with
    | nil =>
      rw [run] at h
      cases h
      exact hp
    | cons item rest =>
      cases item with
      | node n => exact ih.node hp h
      | close number start =>
        rw [run] at h
        exact ih h (hp.close number start)
      | again least most greedy body start =>
        rw [run] at h
        split at h <;> exact ih h hp
      | stopAt pos =>
        rw [run] at h
        split at h
        · exact ih h hp
        · cases h

theorem Program.attempt_inside {p : Program} {t : Subject} {start pos : Nat} {stop : Option Nat}
    {m : Match} (hpos : pos ≤ t.length) (h : p.attempt t start pos stop = some m) :
    m.Inside t.length := by
  rw [t.length_eq] at hpos ⊢
  obtain ⟨q, hrun, rfl⟩ := Option.map_eq_some_iff.1 h
  have hfirst : Progress.Inside t.chars.size
      { pos, groups := Array.replicate (p.groupCount + 1) none, kept := none } := by
    refine ⟨hpos, fun {i range} hi => ?_⟩
    rw [Array.getElem?_replicate] at hi
    split at hi <;> cases hi
  have hq : q.Inside t.chars.size := run_inside _ _ hrun hfirst
  refine ⟨Nat.min_le_right .., hq.pos_le, fun {i range} hi => ?_⟩
  rw [Match.group?] at hi
  cases i with
  | zero =>
    cases hi
    exact hq.pos_le
  | succ i =>
    have hgroup : (q.groups[i + 1]?).join = some range := by simpa [Nat.add_comm] using hi
    exact hq.group_le hgroup

end Pattern

/-- All matches of a pattern lie in the text. -/
theorem Regex.engine_inside : Regex.engine.Inside := by
  intro r t start pos m hpos h
  have hattempt : r.attempt t start pos = some m := h
  rw [Regex.attempt] at hattempt
  split at hattempt
  · obtain ⟨stop, _, _, hstop⟩ := Pattern.exists_of_firstDown hattempt
    exact Pattern.Program.attempt_inside hpos hstop
  · exact Pattern.Program.attempt_inside hpos hattempt

end ScopeGrammar
