import ScopeGrammar.Session.Captures

/-!
# ScopeGrammar.Proofs.Token.Tiling

Tokens without gaps.

* `Tiles a b tokens`: the tokens are not empty and lie one behind the other from `a` to `b`.
* `Cover.Extends`: a cover goes on from another one. `Cover.extend` is all that is ever done to the
  cover of a line, so everything that is done extends it.
* `Cover.reached_extend`, `Cover.reached_extendAll`: how far a cover reaches then.
* `Cover.clip_tiles`: cut at the end of the line, the tokens reach from 0 to there.
-/

namespace ScopeGrammar

def Tiles : Nat → Nat → List Token → Prop
  | a, b, [] => a = b
  | a, b, t :: rest => t.start = a ∧ a < t.stop ∧ Tiles t.stop b rest

namespace Tiles

theorem le {a b : Nat} {tokens : List Token} (h : Tiles a b tokens) : a ≤ b := by
  induction tokens generalizing a with
  | nil => exact Nat.le_of_eq h
  | cons t rest ih =>
    obtain ⟨_, hlt, hrest⟩ := h
    have := ih hrest
    omega

theorem append {a b c : Nat} {l₁ l₂ : List Token} (h₁ : Tiles a b l₁) (h₂ : Tiles b c l₂) :
    Tiles a c (l₁ ++ l₂) := by
  induction l₁ generalizing a with
  | nil =>
    have hab : a = b := h₁
    rw [hab]; exact h₂
  | cons t rest ih =>
    obtain ⟨hstart, hlt, hrest⟩ := h₁
    exact ⟨hstart, hlt, ih hrest⟩

theorem le_start {a b : Nat} {tokens : List Token} (h : Tiles a b tokens) :
    ∀ t ∈ tokens, a ≤ t.start := by
  induction tokens generalizing a with
  | nil => intro t ht; cases ht
  | cons u rest ih =>
    obtain ⟨hstart, hlt, hrest⟩ := h
    intro t ht
    cases ht with
    | head => omega
    | tail _ ht =>
      have := ih hrest t ht
      omega

theorem forall_stop_le_iff {a b limit : Nat} {tokens : List Token} (h : Tiles a b tokens)
    (ha : a ≤ limit) : (∀ t ∈ tokens, t.stop ≤ limit) ↔ b ≤ limit := by
  induction tokens generalizing a with
  | nil =>
    have hab : a = b := h
    simp only [List.not_mem_nil, false_implies, implies_true, true_iff]
    omega
  | cons t rest ih =>
    obtain ⟨_, hlt, hrest⟩ := h
    rw [List.forall_mem_cons]
    constructor
    · rintro ⟨hstop, hall⟩
      exact (ih hrest hstop).1 hall
    · intro hb
      have := hrest.le
      exact ⟨by omega, (ih hrest (by omega)).2 hb⟩

theorem eq_nil_iff {a b : Nat} {tokens : List Token} (h : Tiles a b tokens) :
    tokens = [] ↔ a = b := by
  cases tokens with
  | nil =>
    have hab : a = b := h
    simp [hab]
  | cons t rest =>
    obtain ⟨_, hlt, hrest⟩ := h
    have := hrest.le
    simp only [reduceCtorEq, false_iff]
    omega

/-- Nothing starts before the end of a line that the tokens start behind. -/
theorem filter_eq_nil {a b n : Nat} {tokens : List Token} (h : Tiles a b tokens) (hn : n ≤ a) :
    tokens.filter (·.start < n) = [] := by
  rw [List.filter_eq_nil_iff]
  intro t ht
  have := h.le_start t ht
  simp only [decide_eq_true_eq]
  omega

/-- Cut at `n`, the tokens reach from `a` to `n`. -/
theorem clip {a b n : Nat} {tokens : List Token} (h : Tiles a b tokens) (ha : a ≤ n) (hn : n ≤ b) :
    Tiles a n ((tokens.filter (·.start < n)).map fun t => { t with stop := min t.stop n }) := by
  induction tokens generalizing a with
  | nil =>
    have hab : a = b := h
    exact Nat.le_antisymm ha (hab ▸ hn)
  | cons t rest ih =>
    by_cases han : a = n
    · rw [filter_eq_nil h (Nat.le_of_eq han.symm)]
      exact han
    obtain ⟨hstart, hlt, hrest⟩ := h
    rw [List.filter_cons_of_pos (by simp only [decide_eq_true_eq]; omega), List.map_cons]
    refine ⟨hstart, by simp only [Nat.lt_min]; omega, ?_⟩
    by_cases hfull : t.stop ≤ n
    · simpa only [Nat.min_eq_left hfull] using ih hrest hfull
    · -- the token is cut, and all behind it start beyond the end
      rw [hrest.filter_eq_nil (by omega), Nat.min_eq_right (by omega)]
      exact rfl

end Tiles

namespace Cover

/-- `d` has the tokens of `c` and goes on from where `c` ends. -/
def Extends (c d : Cover) : Prop :=
  ∃ more, d.tokens.toList = c.tokens.toList ++ more ∧ Tiles c.reached d.reached more

namespace Extends

theorem refl (c : Cover) : c.Extends c := ⟨[], by simp, rfl⟩

theorem trans {c d e : Cover} (h₁ : c.Extends d) (h₂ : d.Extends e) : c.Extends e := by
  obtain ⟨m₁, e₁, t₁⟩ := h₁
  obtain ⟨m₂, e₂, t₂⟩ := h₂
  exact ⟨m₁ ++ m₂, by rw [e₂, e₁, List.append_assoc], t₁.append t₂⟩

end Extends

theorem extends_extend (c : Cover) (stop : Nat) (scopes : List Scope) :
    c.Extends (c.extend stop scopes) := by
  unfold extend
  split
  · exact .refl c
  · next h =>
    have hlt : c.reached < stop := by omega
    exact ⟨[⟨c.reached, stop, scopes⟩], by simp, rfl, hlt, rfl⟩

theorem reached_extend (c : Cover) (stop : Nat) (scopes : List Scope) :
    (c.extend stop scopes).reached = max c.reached stop := by
  unfold extend
  split
  · omega
  · show stop = max c.reached stop
    omega

theorem le_reached_extend (c : Cover) (stop : Nat) (scopes : List Scope) :
    stop ≤ (c.extend stop scopes).reached := by
  rw [reached_extend]
  exact Nat.le_max_right ..

theorem extends_extendAll (c : Cover) (tokens : List Token) : c.Extends (c.extendAll tokens) := by
  induction tokens generalizing c with
  | nil => exact .refl c
  | cons t rest ih => exact (c.extends_extend t.stop t.scopes).trans (ih _)

/-- The tokens of a cover lie one behind the other. -/
theorem Extends.tiles {c : Cover} {pos : Nat} (h : (startingAt pos).Extends c) :
    Tiles pos c.reached c.tokens.toList := by
  obtain ⟨tokens, htokens, htiles⟩ := h
  have : c.tokens.toList = tokens := by simpa [startingAt] using htokens
  rwa [this]

/-- With tokens that end further on, the cover reaches to where they end. -/
theorem reached_extendAll {a b : Nat} {tokens : List Token} (h : Tiles a b tokens) (hab : a < b)
    (c : Cover) : (c.extendAll tokens).reached = max c.reached b := by
  induction tokens generalizing a c with
  | nil =>
    have : a = b := h
    omega
  | cons t rest ih =>
    obtain ⟨_, _, hrest⟩ := h
    show ((c.extend t.stop t.scopes).extendAll rest).reached = max c.reached b
    rcases Nat.lt_or_eq_of_le hrest.le with hlt | heq
    · rw [ih hrest hlt, reached_extend]
      omega
    · rw [hrest.eq_nil_iff.2 heq, extendAll, List.foldl_nil, reached_extend, heq]

theorem clip_tiles {c : Cover} {n : Nat} (h : (startingAt 0).Extends c) (hn : n ≤ c.reached) :
    Tiles 0 n (c.clip n) := Tiles.clip h.tiles (Nat.zero_le n) hn

end Cover

namespace OpenGroups

theorem closeUpTo_extends (pos : Nat) (groups : OpenGroups) (cover : Cover) :
    cover.Extends (groups.closeUpTo pos cover).2 := by
  induction groups generalizing cover with
  | nil => exact .refl cover
  | cons g rest ih =>
    obtain ⟨scopes, stop⟩ := g
    unfold closeUpTo
    split
    · exact (cover.extends_extend stop scopes).trans (ih _)
    · exact .refl cover

theorem closeAll_extends (groups : OpenGroups) (cover : Cover) :
    cover.Extends (groups.closeAll cover) := by
  unfold closeAll
  induction groups generalizing cover with
  | nil => exact .refl cover
  | cons g rest ih => exact (cover.extends_extend g.2 g.1).trans (ih _)

end OpenGroups

end ScopeGrammar
