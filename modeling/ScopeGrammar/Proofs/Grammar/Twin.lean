import ScopeGrammar.Proofs.Grammar.Growing
import ScopeGrammar.Proofs.Grammar.Links

/-!
# ScopeGrammar.Proofs.Grammar.Twin

Two grammars that are compiled side by side.

* `Piece` is what some steps of compiling added: parts, includes to be checked, rules left out.
* `Twin` : other steps added the same but for numbers, with the links between them.
* `Build.Follows` : whatever one step of compiling gives, another one gives its twin, wherever it
  starts. Steps that follow each other follow each other in a row (`Follows.bind`).

With `drop` the rules that one side leaves out are not there on the other side.
-/

namespace ScopeGrammar

structure Piece where
  parts : PartId → Prop
  grammar : Grammar
  includes : List LocalInclude
  skipped : List SkippedRule
  growth : PartKind → Nat

namespace Piece

/-- What was added from one builder to another. -/
def between (b c : Builder) : Piece where
  parts n := b.grammar.count n.kind ≤ n.index ∧ n.index < c.grammar.count n.kind
  grammar := c.grammar
  includes := c.localIncludes
  skipped := c.grammar.skipped.drop b.grammar.skipped.length
  growth k := c.grammar.count k - b.grammar.count k

/-- All of a piece is part of another one. -/
structure In (p q : Piece) : Prop where
  parts : ∀ n, p.parts n → q.parts n
  kept : ∀ n x, p.parts n → p.grammar.part? n = some x → q.grammar.part? n = some x
  includes : p.includes ⊆ q.includes

/-- There are numbers for all parts of the piece. -/
def Fits (p : Piece) (b : Builder) : Prop :=
  ∀ k, b.grammar.count k + p.growth k ≤ k.limit

variable {b c d : Builder}

theorem in_between_left (h : c.Grows d) (hd : d.grammar.Numbered) :
    (between b c).In (between b d) where
  parts _ hn := ⟨hn.1, Nat.lt_of_lt_of_le hn.2 (h.count_le _)⟩
  kept n x _ hx := h.kept hd n x hx
  includes := h.localIncludes.subset

theorem in_between_right (h : b.Grows c) : (between c d).In (between b d) where
  parts _ hn := ⟨Nat.le_trans (h.count_le _) hn.1, hn.2⟩
  kept _ _ _ hx := hx
  includes := List.Subset.refl _

theorem skipped_between (h : b.Grows c) :
    c.grammar.skipped = b.grammar.skipped ++ (between b c).skipped := by
  obtain ⟨more, hmore⟩ := h.skipped
  rw [between, ← hmore, List.drop_left]

theorem skipped_between_trans (h : b.Grows c) (h' : c.Grows d) :
    (between b d).skipped = (between b c).skipped ++ (between c d).skipped := by
  have hskipped := skipped_between (h.trans h')
  rw [skipped_between h', skipped_between h, List.append_assoc] at hskipped
  exact (List.append_cancel_left hskipped).symm

end Piece

def LocalInclude.Linked (μ : Links) (i i' : LocalInclude) : Prop :=
  i.name = i'.name ∧ i.repositories.Linked μ i'.repositories

/-- What was added from `b` to `c` is the same as the piece but for numbers. Outside of it `μ` links
the numbers, inside of it `ν`. -/
structure Twin (drop : Bool) (μ : Links) (p : Piece) (b c : Builder) (ν : Links) : Prop where
  grows : b.Grows c
  growth : ∀ k, c.grammar.count k ≤ b.grammar.count k + p.growth k
  left : ∀ n n', ν n n' → p.parts n
  right : ∀ n n', ν n n' → (Piece.between b c).parts n'
  unique : Relator.BiUnique ν
  parts : ∀ n n', ν n n' → ∃ x x', p.grammar.part? n = some x ∧ c.grammar.part? n' = some x' ∧
    x.Linked (μ ⊔ ν) x'
  includes : ∀ i' ∈ c.localIncludes, i' ∈ b.localIncludes ∨ ∃ i ∈ p.includes, i.Linked (μ ⊔ ν) i'
  skipped : ((Piece.between b c).skipped).Perm (if drop then [] else p.skipped)

variable {drop : Bool} {μ μ' ν ν₁ ν₂ : Links} {p p₁ p₂ q : Piece} {b c d : Builder}

theorem Builder.skipped_between_add (b : Builder) (x : Part) :
    (Piece.between b (b.add x)).skipped = [] := by
  cases x <;> simp [Piece.between, Builder.add, Grammar.addPart]

theorem LocalInclude.Linked.mono (h : μ ≤ μ') {i i' : LocalInclude} (hl : i.Linked μ i') :
    i.Linked μ' i' := ⟨hl.1, hl.2.mono h⟩

namespace Twin

/-- No parts were added. -/
theorem unlinked (hgrows : b.Grows c) (hcount : ∀ k, c.grammar.count k = b.grammar.count k)
    (hincludes : ∀ i' ∈ c.localIncludes,
      i' ∈ b.localIncludes ∨ ∃ i ∈ p.includes, i.Linked μ i')
    (hskipped : ((Piece.between b c).skipped).Perm (if drop then [] else p.skipped)) :
    Twin drop μ p b c ⊥ where
  grows := hgrows
  growth k := by
    rw [hcount k]
    exact Nat.le_add_right _ _
  left _ _ h := h.elim
  right _ _ h := h.elim
  unique := ⟨fun _ _ _ h => h.elim, fun _ _ _ h => h.elim⟩
  parts _ _ h := h.elim
  includes := by rwa [sup_bot_eq]
  skipped := hskipped

/-- Nothing was added. -/
theorem none (h : drop = true ∨ p.skipped = []) : Twin drop μ p b b ⊥ := by
  refine unlinked (.refl b) (fun _ => rfl) (fun _ h => .inl h) ?_
  obtain rfl | h := h
  · simp [Piece.between]
  · simp [Piece.between, h]

/-- More links outside do no harm. -/
theorem mono (h : Twin drop μ p b c ν) (hμ : μ ≤ μ') : Twin drop μ' p b c ν where
  grows := h.grows
  growth := h.growth
  left := h.left
  right := h.right
  unique := h.unique
  parts n n' hn := by
    obtain ⟨x, x', hx, hx', hlinked⟩ := h.parts n n' hn
    exact ⟨x, x', hx, hx', hlinked.mono (sup_le_sup_right hμ ν)⟩
  includes i' hi' := by
    obtain hi | ⟨i, hi, hlinked⟩ := h.includes i' hi'
    · exact .inl hi
    · exact .inr ⟨i, hi, hlinked.mono (sup_le_sup_right hμ ν)⟩
  skipped := h.skipped

/-- The piece may be seen as part of a larger one that leaves out the same rules. -/
theorem within (h : Twin drop μ p b c ν) (hin : p.In q) (hskipped : p.skipped.Perm q.skipped)
    (hgrowth : ∀ k, p.growth k ≤ q.growth k) : Twin drop μ q b c ν where
  grows := h.grows
  growth k := Nat.le_trans (h.growth k) (Nat.add_le_add_left (hgrowth k) _)
  left n n' hn := hin.parts n (h.left n n' hn)
  right := h.right
  unique := h.unique
  parts n n' hn := by
    obtain ⟨x, x', hx, hx', hlinked⟩ := h.parts n n' hn
    exact ⟨x, x', hin.kept n x (h.left n n' hn) hx, hx', hlinked⟩
  includes i' hi' := by
    obtain hi | ⟨i, hi, hlinked⟩ := h.includes i' hi'
    · exact .inl hi
    · exact .inr ⟨i, hin.includes hi, hlinked⟩
  skipped := by
    cases drop with
    | true => exact h.skipped
    | false => exact h.skipped.trans hskipped

/-- Twins of two pieces in a row are a twin of a piece that is made of both. The second one may refer
to what the first one added. -/
theorem append (h₁ : Twin drop μ p₁ b c ν₁) (h₂ : Twin drop (μ ⊔ ν₁) p₂ c d ν₂) (hin₁ : p₁.In q)
    (hin₂ : p₂.In q) (hapart : ∀ n, p₁.parts n → ¬ p₂.parts n)
    (hskipped : q.skipped.Perm (p₁.skipped ++ p₂.skipped))
    (hgrowth : ∀ k, p₁.growth k + p₂.growth k ≤ q.growth k)
    (hd : d.grammar.Numbered) :
    Twin drop μ q b d (ν₁ ⊔ ν₂) where
  grows := h₁.grows.trans h₂.grows
  growth k := by
    have hc := h₁.growth k
    have hd := h₂.growth k
    have hq := hgrowth k
    omega
  left n n' hn := by
    obtain hn | hn := hn
    · exact hin₁.parts n (h₁.left n n' hn)
    · exact hin₂.parts n (h₂.left n n' hn)
  right n n' hn := by
    obtain hn | hn := hn
    · exact (Piece.in_between_left h₂.grows hd).parts n' (h₁.right n n' hn)
    · exact (Piece.in_between_right h₁.grows).parts n' (h₂.right n n' hn)
  unique := by
    refine Links.sup_biUnique h₁.unique h₂.unique ?_ ?_
    · intro n m m' hm hm'
      exact hapart n (h₁.left n m hm) (h₂.left n m' hm')
    · intro n n' m hm hm'
      have hlt := (h₁.right n m hm).2
      have hle := (h₂.right n' m hm').1
      omega
  parts n n' hn := by
    rw [← sup_assoc]
    obtain hn | hn := hn
    · obtain ⟨x, x', hx, hx', hlinked⟩ := h₁.parts n n' hn
      exact ⟨x, x', hin₁.kept n x (h₁.left n n' hn) hx, h₂.grows.kept hd n' x' hx',
        hlinked.mono le_sup_left⟩
    · obtain ⟨x, x', hx, hx', hlinked⟩ := h₂.parts n n' hn
      exact ⟨x, x', hin₂.kept n x (h₂.left n n' hn) hx, hx', hlinked⟩
  includes i' hi' := by
    rw [← sup_assoc]
    obtain hi | ⟨i, hi, hlinked⟩ := h₂.includes i' hi'
    · obtain hi | ⟨i, hi, hlinked⟩ := h₁.includes i' hi
      · exact .inl hi
      · exact .inr ⟨i, hin₁.includes hi, hlinked.mono le_sup_left⟩
    · exact .inr ⟨i, hin₂.includes hi, hlinked⟩
  skipped := by
    rw [Piece.skipped_between_trans h₁.grows h₂.grows]
    cases drop with
    | true => exact h₁.skipped.append h₂.skipped
    | false => exact (h₁.skipped.append h₂.skipped).trans hskipped.symm

/-- One part was added on both sides. -/
theorem add {x x' : Part} (hx : x.Linked μ x') (b b' : Builder) :
    Twin drop μ (.between b (b.add x)) b' (b'.add x')
      (Links.only (b.grammar.next x.kind) (b'.grammar.next x.kind)) where
  grows := .add b' x'
  growth k := by
    simp only [Piece.between, Builder.add, Grammar.count_addPart, hx.kind_eq]
    omega
  left n n' hn := by
    obtain ⟨rfl, rfl⟩ := hn
    simp only [Piece.between, Builder.add, Grammar.count_addPart, Grammar.next, if_true]
    omega
  right n n' hn := by
    obtain ⟨rfl, rfl⟩ := hn
    simp only [Piece.between, Builder.add, Grammar.count_addPart, Grammar.next, hx.kind_eq, if_true]
    omega
  unique := Links.only_biUnique _ _
  parts n n' hn := by
    obtain ⟨rfl, rfl⟩ := hn
    refine ⟨x, x', ?_, ?_, hx.mono le_sup_left⟩
    · simp only [Piece.between, Builder.add, Grammar.part?_addPart, if_true]
    · simp only [Builder.add, Grammar.part?_addPart, hx.kind_eq, if_true]
  includes _ hi' := .inl hi'
  skipped := by
    rw [Builder.skipped_between_add, Builder.skipped_between_add]
    cases drop <;> exact .refl _

end Twin

/-! ## Steps side by side -/

namespace Build

variable {α α' β β' : Type}

/-- Whatever `m` gives, `m'` gives the same but for numbers, wherever there are numbers left. `R` says
what that means for the answers. -/
def Follows (drop : Bool) (μ : Links) (m : Build α) (m' : Build α') (R : Links → α → α' → Prop) :
    Prop :=
  ∀ ⦃b a c⦄, Gives m b a c → c.grammar.Numbered → ∀ ⦃b'⦄, (Piece.between b c).Fits b' →
    ∃ a' c' ν, Gives m' b' a' c' ∧ Twin drop μ (.between b c) b' c' ν ∧ R (μ ⊔ ν) a a'

variable {m : Build α} {m' : Build α'} {R : Links → α → α' → Prop}

theorem follows_pure {a : α} {a' : α'} (h : R μ a a') :
    Follows drop μ (pure a) (pure a') R := by
  intro b x c hx _ b' _
  obtain ⟨rfl, rfl⟩ := gives_pure.1 hx
  refine ⟨a', b', ⊥, gives_pure.2 ⟨rfl, rfl⟩, .none (.inr ?_), by rwa [sup_bot_eq]⟩
  simp [Piece.between]

/-- What never ends well is followed by anything. -/
theorem follows_of_not_gives (h : ∀ b a c, ¬ Gives m b a c) : Follows drop μ m m' R :=
  fun b a c hgives => absurd hgives (h b a c)

theorem Follows.bind {f : α → Build β} {f' : α' → Build β'} {S : Links → β → β' → Prop}
    [Growing m] [∀ a, Growing (f a)] (hm : Follows drop μ m m' R)
    (hf : ∀ μ' a a', μ ≤ μ' → R μ' a a' → Follows drop μ' (f a) (f' a') S) :
    Follows drop μ (m >>= f) (m' >>= f') S := by
  intro b y d hy hd b' hfits
  obtain ⟨a, c, ha, hy⟩ := gives_bind.1 hy
  have hbc : b.Grows c := Growing.grows ha
  have hcd : c.Grows d := Growing.grows hy
  have hfits₁ : (Piece.between b c).Fits b' := by
    intro k
    have hk := hfits k
    have hle := hcd.count_le k
    simp only [Piece.between] at hk ⊢
    omega
  obtain ⟨a', c', ν₁, ha', htwin₁, hR⟩ := hm ha (hcd.numbered hd) hfits₁
  have hfits₂ : (Piece.between c d).Fits c' := by
    intro k
    have hk := hfits k
    have hc' := htwin₁.growth k
    have hle := hbc.count_le k
    have hle' := hcd.count_le k
    simp only [Piece.between] at hk hc' ⊢
    omega
  obtain ⟨y', d', ν₂, hy', htwin₂, hS⟩ := hf (μ ⊔ ν₁) a a' le_sup_left hR hy hd hfits₂
  refine ⟨y', d', ν₁ ⊔ ν₂, gives_bind.2 ⟨a', c', ha', hy'⟩, ?_, by rwa [← sup_assoc]⟩
  refine htwin₁.append htwin₂ (Piece.in_between_left hcd hd) (Piece.in_between_right hbc) ?_ ?_ ?_ ?_
  · intro n hn hn'
    have hlt := hn.2
    have hle := hn'.1
    omega
  · rw [Piece.skipped_between_trans hbc hcd]
  · intro k
    have hle := hbc.count_le k
    have hle' := hcd.count_le k
    simp only [Piece.between]
    omega
  · intro k
    have hk := hfits₂ k
    have hd' := htwin₂.growth k
    omega

/-- Steps that add linked parts answer linked numbers. -/
theorem Adds.follows {ι : Type} {part : ι → PartId} {m m' : Build ι} {x x' : Part}
    (h : Adds part m x) (h' : Adds part m' x') (hx : x.Linked μ x') :
    Follows drop μ m m' (fun μ i i' => μ (part i) (part i')) := by
  intro b i c hi hc b' hfits
  obtain ⟨rfl, hpart⟩ := h.of_gives hi
  obtain ⟨i', hi', hpart'⟩ := h' b'
  refine ⟨i', b'.add x', _, hi', .add hx b b', .inr ⟨hpart hc, ?_⟩⟩
  rw [hpart', hx.kind_eq]
  intro k
  have hk := hfits k
  simp only [Piece.between, Builder.add, Grammar.count_addPart, hx.kind_eq] at hk ⊢
  omega

end Build

end ScopeGrammar
