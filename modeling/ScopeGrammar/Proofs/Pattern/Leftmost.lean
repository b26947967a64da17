import ScopeGrammar.Proofs.Pattern.Inside

/-!
# ScopeGrammar.Proofs.Pattern.Leftmost

What a search from left to right answers.

* `firstFrom_eq_some_iff` : the answer for one position, with none for those before it.
* `Leftmost` : of several elements the first one that has an answer, at the leftmost position where
  any has one (`firstFrom_findSome?_iff`).
* `Engine.search_eq_some_iff`, `matchAt_eq_some_iff`, `PatternGroup.search_eq_some_iff` : the
  searches for one pattern, at one position and for several patterns, in terms of each other, where
  a match starts at the position at which it was tried (`Engine.Places`).
-/

namespace ScopeGrammar

variable {α β : Type}

theorem findSome?_congr {f g : α → Option β} {l : List α} (h : ∀ a ∈ l, f a = g a) :
    l.findSome? f = l.findSome? g := by
  induction l with
  | nil => rfl
  | cons a rest ih =>
    obtain ⟨ha, hrest⟩ := List.forall_mem_cons.1 h
    rw [List.findSome?_cons, List.findSome?_cons, ha, ih hrest]

theorem findSome?_bind {γ : Type} {f : α → Option β} {g : β → Option γ} {l : List α}
    (h : ∀ a ∈ l, ∀ b, f a = some b → (g b).isSome) :
    l.findSome? (fun a => (f a).bind g) = (l.findSome? f).bind g := by
  induction l with
  | nil => rfl
  | cons a rest ih =>
    obtain ⟨ha, hrest⟩ := List.forall_mem_cons.1 h
    rw [List.findSome?_cons, List.findSome?_cons]
    cases hf : f a with
    | none => exact ih hrest
    | some b =>
      obtain ⟨c, hc⟩ := Option.isSome_iff_exists.1 (ha b hf)
      simp [hc]

/-- The first answer for a number of positions. -/
theorem firstFrom_eq_findSome? (f : Nat → Option α) (count pos : Nat) :
    firstFrom f count pos = (List.range' pos count).findSome? f := by
  induction count generalizing pos with
  | zero => rfl
  | succ count ih =>
    rw [firstFrom, List.range'_succ, List.findSome?_cons, ih]
    cases f pos <;> rfl

theorem firstFrom_eq_none_iff {f : Nat → Option α} {count pos : Nat} :
    firstFrom f count pos = none ↔ ∀ i, pos ≤ i → i < pos + count → f i = none := by
  rw [firstFrom_eq_findSome?, List.findSome?_eq_none_iff]
  simp only [List.mem_range'_1, and_imp]

theorem firstFrom_eq_some_iff {f : Nat → Option α} {count pos : Nat} {a : α} :
    firstFrom f count pos = some a ↔
      ∃ i, pos ≤ i ∧ i < pos + count ∧ f i = some a ∧ ∀ j, pos ≤ j → j < i → f j = none := by
  induction count generalizing pos with
  | zero => exact iff_of_false (by simp [firstFrom]) fun ⟨i, _, _, _⟩ => by omega
  | succ count ih =>
    rw [firstFrom]
    cases hpos : f pos with
    | some b =>
      constructor
      · rintro ⟨⟩
        exact ⟨pos, Nat.le_refl _, by omega, hpos, fun j _ _ => by omega⟩
      · rintro ⟨i, hlow, _, hi, hbefore⟩
        obtain rfl | hlt := Nat.eq_or_lt_of_le hlow
        · exact hpos.symm.trans hi
        · rw [hbefore pos (Nat.le_refl _) hlt] at hpos
          cases hpos
    | none =>
      refine ih.trans ⟨?_, ?_⟩
      · rintro ⟨i, hlow, hhigh, hi, hbefore⟩
        refine ⟨i, by omega, by omega, hi, fun j hj hji => ?_⟩
        obtain rfl | hlt := Nat.eq_or_lt_of_le hj
        · exact hpos
        · exact hbefore j hlt hji
      · rintro ⟨i, hlow, hhigh, hi, hbefore⟩
        obtain rfl | hlt := Nat.eq_or_lt_of_le hlow
        · rw [hpos] at hi
          cases hi
        · exact ⟨i, hlt, by omega, hi, fun j hj => hbefore j (by omega)⟩

theorem firstFrom_congr {f g : Nat → Option α} {count pos : Nat}
    (h : ∀ i, pos ≤ i → i < pos + count → f i = g i) :
    firstFrom f count pos = firstFrom g count pos := by
  rw [firstFrom_eq_findSome?, firstFrom_eq_findSome?]
  refine findSome?_congr fun i hi => ?_
  obtain ⟨hlow, hhigh⟩ := List.mem_range'_1.1 hi
  exact h i hlow hhigh

theorem firstFrom_bind {g : α → Option β} {f : Nat → Option α}
    (h : ∀ i a, f i = some a → (g a).isSome) (count pos : Nat) :
    firstFrom (fun i => (f i).bind g) count pos = (firstFrom f count pos).bind g := by
  rw [firstFrom_eq_findSome?, firstFrom_eq_findSome?, findSome?_bind fun i _ => h i]

theorem firstFrom_map (g : α → β) (f : Nat → Option α) (count pos : Nat) :
    firstFrom (fun i => (f i).map g) count pos = (firstFrom f count pos).map g := by
  rw [firstFrom_eq_findSome?, firstFrom_eq_findSome?, List.map_findSome?]
  rfl

/-- The first element with an answer, and its place in the list. -/
theorem findSome?_zipIdx_eq_some_iff {f : α → Option β} {l : List α} {k i : Nat} {b : β} :
    ((l.zipIdx k).findSome? fun x => (f x.1).map fun b => (x.2, b)) = some (i, b) ↔
      k ≤ i ∧ (∃ a, l[i - k]? = some a ∧ f a = some b) ∧
        ∀ j a, j < i - k → l[j]? = some a → f a = none := by
  induction l generalizing k with
  | nil => simp
  | cons a rest ih =>
    rw [List.zipIdx_cons, List.findSome?_cons]
    cases ha : f a with
    | some c =>
      dsimp only [Option.map_some]
      constructor
      · rintro ⟨⟩
        exact ⟨Nat.le_refl _, ⟨a, by simp, ha⟩, fun j _ hj => by omega⟩
      · rintro ⟨hk, ⟨a', hget, ha'⟩, hbefore⟩
        obtain rfl | hlt := Nat.eq_or_lt_of_le hk
        · have heq : a = a' := by simpa using hget
          subst heq
          cases ha.symm.trans ha'
          rfl
        · have hnone := hbefore 0 a (by omega) rfl
          cases ha.symm.trans hnone
    | none =>
      dsimp only [Option.map_none]
      refine ih.trans ⟨?_, ?_⟩
      · rintro ⟨hk, ⟨a', hget, ha'⟩, hbefore⟩
        have hsucc : i - k = i - (k + 1) + 1 := by omega
        refine ⟨by omega, ⟨a', by rw [hsucc]; exact hget, ha'⟩, fun j b hj hb => ?_⟩
        cases j with
        | zero =>
          cases hb
          exact ha
        | succ j => exact hbefore j b (by omega) hb
      · rintro ⟨hk, ⟨a', hget, ha'⟩, hbefore⟩
        obtain rfl | hlt := Nat.eq_or_lt_of_le hk
        · have heq : a = a' := by simpa using hget
          subst heq
          cases ha.symm.trans ha'
        · have hsucc : i - k = i - (k + 1) + 1 := by omega
          rw [hsucc] at hget hbefore
          exact ⟨hlt, ⟨a', hget, ha'⟩, fun j b hj hb => hbefore (j + 1) b (by omega) hb⟩

/-- At a position from `low` to `high` the element in place `i` has the answer `b`. No element
before it has one there, and none has one at a position before that. -/
structure Leftmost (f : α → Nat → Option β) (l : List α) (low high i : Nat) (b : β) (pos : Nat) :
    Prop where
  low_le : low ≤ pos
  le_high : pos ≤ high
  answers : ∃ a, l[i]? = some a ∧ f a pos = some b
  first : ∀ j a, j < i → l[j]? = some a → f a pos = none
  leftmost : ∀ before, low ≤ before → before < pos → ∀ a ∈ l, f a before = none

theorem firstFrom_findSome?_iff {f : α → Nat → Option β} {l : List α} {low high i : Nat} {b : β}
    (h : low ≤ high) :
    firstFrom (fun pos => l.zipIdx.findSome? fun x => (f x.1 pos).map fun b => (x.2, b))
        (high - low + 1) low = some (i, b) ↔ ∃ pos, Leftmost f l low high i b pos := by
  have hnone : ∀ pos, (l.zipIdx.findSome? fun x => (f x.1 pos).map fun b => (x.2, b)) = none ↔
      ∀ a ∈ l, f a pos = none := by
    intro pos
    rw [List.findSome?_eq_none_iff]
    constructor
    · intro hall a ha
      obtain ⟨i, hi⟩ := List.mem_iff_getElem?.1 ha
      simpa using hall (a, i) (List.mem_zipIdx_iff_getElem?.2 hi)
    · rintro hall ⟨a, i⟩ hmem
      rw [hall a (List.fst_mem_of_mem_zipIdx hmem)]
      rfl
  have hsome : ∀ pos,
      (l.zipIdx.findSome? fun x => (f x.1 pos).map fun b => (x.2, b)) = some (i, b) ↔
        (∃ a, l[i]? = some a ∧ f a pos = some b) ∧
          ∀ j a, j < i → l[j]? = some a → f a pos = none := fun pos =>
    (findSome?_zipIdx_eq_some_iff (f := fun a => f a pos) (k := 0)).trans
      (and_iff_right (Nat.zero_le i))
  rw [firstFrom_eq_some_iff]
  refine exists_congr fun pos => ?_
  rw [hsome]
  constructor
  · rintro ⟨hlow, hhigh, ⟨hanswers, hfirst⟩, hleft⟩
    exact ⟨hlow, by omega, hanswers, hfirst, fun p hp hlt => (hnone p).1 (hleft p hp hlt)⟩
  · rintro ⟨hlow, hhigh, hanswers, hfirst, hleft⟩
    exact ⟨hlow, by omega, ⟨hanswers, hfirst⟩, fun p hp hlt => (hnone p).2 (hleft p hp hlt)⟩

/-! ## Groups of patterns -/

namespace PatternGroup

variable {P : Type} {engine : Engine P}

/-- A group compiles just in case each of its patterns does by itself. -/
theorem compileAll_eq_ok_iff {options : MatchOptions} {sources : List String} {ps : List P} :
    compileAll engine options sources = .ok ps ↔
      sources.map (engine.compile options) = ps.map .ok := by
  induction sources generalizing ps with
  | nil => cases ps <;> simp [compileAll]
  | cons source rest ih =>
    rw [compileAll, List.map_cons]
    cases hsource : engine.compile options source with
    | error e => cases ps <;> simp
    | ok p =>
      dsimp only
      cases hrest : compileAll engine options rest with
      | error e =>
        cases ps with
        | nil => simp [Except.map]
        | cons q qs =>
          have hne : rest.map (engine.compile options) ≠ qs.map .ok := fun h => by
            rw [ih.2 h] at hrest
            cases hrest
          simp [Except.map, hne]
      | ok qs =>
        have hqs := ih.1 hrest
        rw [hqs]
        cases ps with
        | nil => simp [Except.map]
        | cons q qs' =>
          have hinj : qs.map (Except.ok (ε := PatternError)) = qs'.map .ok ↔ qs = qs' :=
            List.map_inj_right fun _ _ => Except.ok.inj
          simp [Except.map, hinj]

theorem firstMatch_eq (t : Subject) (start pos k : Nat) (ps : List P) :
    firstMatch engine t start pos k ps =
      (ps.zipIdx k).findSome? fun x => (engine.attempt x.1 t start pos).map fun m => (x.2, m) := by
  induction ps generalizing k with
  | nil => rfl
  | cons p rest ih =>
    rw [firstMatch, List.zipIdx_cons, List.findSome?_cons, ih (k + 1)]
    cases engine.attempt p t start pos <;> rfl

theorem firstMatch_congr {engine' : Engine P} {t : Subject} {start pos k : Nat} {ps : List P}
    (h : ∀ p ∈ ps, engine.attempt p t start pos = engine'.attempt p t start pos) :
    firstMatch engine t start pos k ps = firstMatch engine' t start pos k ps := by
  rw [firstMatch_eq, firstMatch_eq]
  refine findSome?_congr fun x hx => ?_
  rw [h x.1 (List.fst_mem_of_mem_zipIdx hx)]

theorem firstMatch_eq_none_iff {t : Subject} {start pos k : Nat} {ps : List P} :
    firstMatch engine t start pos k ps = none ↔ ∀ p ∈ ps, engine.attempt p t start pos = none := by
  induction ps generalizing k with
  | nil => simp [firstMatch]
  | cons p rest ih =>
    rw [firstMatch, List.forall_mem_cons]
    cases engine.attempt p t start pos <;> simp [ih]

/-- Whether there are patterns makes no difference to the search. -/
theorem search_eq (g : PatternGroup P) (t : Subject) (start : Nat) :
    g.search engine t start =
      if t.length ≤ start then none
      else firstFrom (fun pos => firstMatch engine t start pos 0 g.patterns)
        (t.length - start + 1) start := by
  obtain ⟨ps⟩ := g
  cases ps with
  | nil =>
    have hnone : firstFrom (fun pos => firstMatch engine t start pos 0 [])
        (t.length - start + 1) start = none := firstFrom_eq_none_iff.2 fun _ _ _ => rfl
    rw [hnone, ite_self]
    rfl
  | cons p ps =>
    rw [search]
    simp [isEmpty]

end PatternGroup

/-! ## Patterns that match in place -/

/-- A match that starts at `pos`. Its list of groups begins with the whole match, and each of them
is a range of the text. -/
structure Match.PlacedAt (pos length : Nat) (m : Match) : Prop where
  start_eq : m.start = pos
  whole : m.group? 0 = some (m.start, m.stop)
  range_le : ∀ {i : Nat} {range : Nat × Nat}, m.group? i = some range →
    range.1 ≤ range.2 ∧ range.2 ≤ length

/-- Each match of the pattern starts at the position at which it was tried. -/
def Engine.Places {P : Type} (engine : Engine P) (p : P) : Prop :=
  ∀ {t start pos m}, pos ≤ Subject.length t → engine.attempt p t start pos = some m →
    m.PlacedAt pos t.length

section

variable {P : Type} {engine : Engine P} {p : P} {t : Subject} {start : Nat} {m : Match}

namespace Engine

theorem search_eq_none_iff :
    engine.search p t start = none ↔
      start < t.length → ∀ pos, start ≤ pos → pos ≤ t.length →
        engine.attempt p t start pos = none := by
  rw [search]
  split
  · next h => exact iff_of_true rfl fun hlt => absurd hlt (Nat.not_lt.2 h)
  · next h =>
    rw [firstFrom_eq_none_iff]
    constructor
    · intro hnone _ pos hlow hhigh
      exact hnone pos hlow (by omega)
    · intro hnone pos hlow hhigh
      exact hnone (by omega) pos hlow (by omega)

variable (hp : engine.Places p)

include hp

/-- A search finds the match at the leftmost position at which there is one. -/
theorem search_eq_some_iff :
    engine.search p t start = some m ↔
      start < t.length ∧ start ≤ m.start ∧ m.start ≤ t.length ∧
        engine.attempt p t start m.start = some m ∧
        ∀ before, start ≤ before → before < m.start → engine.attempt p t start before = none := by
  rw [search]
  split
  · next hend => exact iff_of_false (by simp) fun h => Nat.not_le.2 h.1 hend
  · rw [firstFrom_eq_some_iff]
    constructor
    · rintro ⟨pos, hlow, hhigh, hm, hbefore⟩
      obtain rfl := (hp (by omega) hm).start_eq
      exact ⟨by omega, hlow, by omega, hm, hbefore⟩
    · rintro ⟨_, hlow, hhigh, hm, hbefore⟩
      exact ⟨m.start, hlow, by omega, hm, hbefore⟩

theorem placedAt_of_search (h : engine.search p t start = some m) :
    m.PlacedAt m.start t.length := by
  obtain ⟨_, _, hle, hm, _⟩ := (search_eq_some_iff hp).1 h
  exact hp hle hm

theorem range_of_search (h : engine.search p t start = some m) :
    start ≤ m.start ∧ m.start ≤ m.stop ∧ m.stop ≤ t.length := by
  have hplaced := placedAt_of_search hp h
  exact ⟨((search_eq_some_iff hp).1 h).2.1, hplaced.range_le hplaced.whole⟩

/-- If there is a match somewhere, the search finds one there or further left. -/
theorem exists_search_of_attempt {pos : Nat} (hstart : start < t.length) (hlow : start ≤ pos)
    (hhigh : pos ≤ t.length) (hm : engine.attempt p t start pos = some m) :
    ∃ n, engine.search p t start = some n ∧ n.start ≤ pos := by
  cases hsearch : engine.search p t start with
  | none =>
    have := search_eq_none_iff.1 hsearch hstart pos hlow hhigh
    cases hm.symm.trans this
  | some n =>
    obtain ⟨_, _, _, _, hbefore⟩ := (search_eq_some_iff hp).1 hsearch
    refine ⟨n, rfl, Nat.le_of_not_lt fun hlt => ?_⟩
    cases hm.symm.trans (hbefore pos hlow hlt)

/-- The match at a position is that of a search from there, if it starts there. -/
theorem matchAt_eq_some_iff :
    engine.matchAt p t start = some m ↔ engine.search p t start = some m ∧ m.start = start := by
  rw [search_eq_some_iff hp, matchAt]
  split
  · next hend => exact iff_of_false (by simp) fun h => Nat.not_le.2 h.1.1 hend
  · constructor
    · intro hm
      obtain rfl := (hp (by omega) hm).start_eq
      exact ⟨⟨by omega, Nat.le_refl _, by omega, hm, fun before _ _ => by omega⟩, rfl⟩
    · rintro ⟨⟨_, _, _, hm, _⟩, rfl⟩
      exact hm

end Engine

namespace PatternGroup

variable {ps : List P}

theorem search_eq_none_iff :
    (PatternGroup.mk ps).search engine t start = none ↔
      ∀ p ∈ ps, engine.search p t start = none := by
  rw [search_eq]
  split
  · next h =>
    exact iff_of_true rfl fun p _ => Engine.search_eq_none_iff.2 fun hlt =>
      absurd hlt (Nat.not_lt.2 h)
  · next h =>
    rw [firstFrom_eq_none_iff]
    constructor
    · intro hnone p hmem
      refine Engine.search_eq_none_iff.2 fun _ pos hlow hhigh => ?_
      exact firstMatch_eq_none_iff.1 (hnone pos hlow (by omega)) p hmem
    · intro hnone pos hlow hhigh
      refine firstMatch_eq_none_iff.2 fun p hmem => ?_
      exact Engine.search_eq_none_iff.1 (hnone p hmem) (by omega) pos hlow (by omega)

theorem search_eq_some_iff_leftmost {i : Nat} :
    (PatternGroup.mk ps).search engine t start = some (i, m) ↔
      start < t.length ∧
        ∃ pos, Leftmost (fun p pos => engine.attempt p t start pos) ps start t.length i m pos := by
  rw [search_eq]
  split
  · next hend => exact iff_of_false (by simp) fun h => Nat.not_le.2 h.1 hend
  · next h =>
    rw [← firstFrom_findSome?_iff (by omega), and_iff_right (by omega)]
    simp only [firstMatch_eq]

/-- Of several patterns the one wins that by itself is found leftmost, among these the first one. -/
theorem search_eq_some_iff (hps : ∀ p ∈ ps, engine.Places p) {i : Nat} :
    (PatternGroup.mk ps).search engine t start = some (i, m) ↔
      ∃ p, ps[i]? = some p ∧ engine.search p t start = some m ∧
        ∀ j q n, ps[j]? = some q → engine.search q t start = some n →
          m.start < n.start ∨ m.start = n.start ∧ i ≤ j := by
  rw [search_eq_some_iff_leftmost]
  constructor
  · rintro ⟨hstart, pos, hwin⟩
    obtain ⟨p, hget, hm⟩ := hwin.answers
    have hp : engine.Places p := hps p (List.mem_of_getElem? hget)
    obtain rfl := (hp hwin.le_high hm).start_eq
    refine ⟨p, hget, (Engine.search_eq_some_iff hp).2 ⟨hstart, hwin.low_le, hwin.le_high, hm,
      fun before hlow hlt => hwin.leftmost before hlow hlt p (List.mem_of_getElem? hget)⟩, ?_⟩
    intro j q n hq hn
    have hmem : q ∈ ps := List.mem_of_getElem? hq
    obtain ⟨_, hlow, _, hn, _⟩ := (Engine.search_eq_some_iff (hps q hmem)).1 hn
    obtain hlt | heq | hgt := Nat.lt_trichotomy m.start n.start
    · exact .inl hlt
    · refine .inr ⟨heq, Nat.le_of_not_lt fun hji => ?_⟩
      cases hn.symm.trans (heq ▸ hwin.first j q hji hq)
    · cases hn.symm.trans (hwin.leftmost n.start hlow hgt q hmem)
  · rintro ⟨p, hget, hm, hbest⟩
    have hp : engine.Places p := hps p (List.mem_of_getElem? hget)
    obtain ⟨hstart, hlow, hhigh, hattempt, _⟩ := (Engine.search_eq_some_iff hp).1 hm
    -- No pattern has a match where a search for it would have beaten this one.
    have hbeaten : ∀ {j q pos n}, ps[j]? = some q → start ≤ pos → pos ≤ m.start →
        engine.attempt q t start pos = some n → pos = m.start ∧ i ≤ j := by
      intro j q pos n hq hpos hle hn
      obtain ⟨n', hn', hstop⟩ := Engine.exists_search_of_attempt
        (hps q (List.mem_of_getElem? hq)) hstart hpos (by omega) hn
      have := hbest j q n' hq hn'
      omega
    refine ⟨hstart, m.start, hlow, hhigh, ⟨p, hget, hattempt⟩, fun j q hji hq => ?_,
      fun before hbefore hlt q hmem => ?_⟩
    · refine Option.eq_none_iff_forall_ne_some.2 fun n hn => ?_
      have := (hbeaten hq hlow (Nat.le_refl _) hn).2
      omega
    · obtain ⟨j, hq⟩ := List.mem_iff_getElem?.1 hmem
      refine Option.eq_none_iff_forall_ne_some.2 fun n hn => ?_
      have := (hbeaten hq hbefore (by omega) hn).1
      omega

end PatternGroup

end

end ScopeGrammar
