import Mathlib.Algebra.BigOperators.Group.List.Basic
import Mathlib.Algebra.GroupWithZero.Nat
import ScopeGrammar.Proofs.Grammar.Matching

/-!
# ScopeGrammar.Proofs.Grammar.Entries

Repositories whose entries are compiled in another order.

* `Window` is the compiling of one entry. The windows of a repository lie side by side
  (`compileEntries_windows`), so they can be followed in any order (`follow_windows`).
* `compileRule_follows` : matched rules are compiled by steps that follow each other.
-/

namespace ScopeGrammar

open Build

variable {validate : Validator} {drop : Bool} {μ : Links} {σ σ' : RepositoryChain} {path : String}

/-- The compiling of an entry. -/
structure Window where
  key : String
  rule : RuleSource
  list : ListId
  start : Builder
  stop : Builder

namespace Window

def piece (w : Window) : Piece := .between w.start w.stop

/-- What all of them added, as the last builder has it. -/
def pieces (last : Builder) (ws : List Window) : Piece where
  parts n := ∃ w ∈ ws, w.piece.parts n
  grammar := last.grammar
  includes := last.localIncludes
  skipped := ws.flatMap (·.piece.skipped)
  growth k := (ws.map (·.piece.growth k)).sum

def Apart (w u : Window) : Prop := ∀ n, w.piece.parts n → ¬ u.piece.parts n

theorem Apart.symm {w u : Window} (h : w.Apart u) : u.Apart w := fun n hu hw => h n hw hu

theorem apart_of_grows {w u : Window} (h : w.stop.Grows u.start) : w.Apart u := by
  intro n hw hu
  have hle := h.count_le n.kind
  have hlt := hw.2
  have hge := hu.1
  omega

end Window

/-- The entries of a repository are compiled one after the other. -/
theorem compileEntries_windows {entries : List (String × RuleSource)}
    {lists : List (String × ListId)} {b d : Builder}
    (h : Gives (compileEntries validate σ path entries) b lists d) :
    ∃ ws : List Window, ws.map (fun w => (w.key, w.rule)) = entries ∧
      ws.map (fun w => (w.key, w.list)) = lists ∧
      (∀ w ∈ ws, Gives (compileEntry validate σ (path ++ "." ++ w.key) w.rule) w.start w.list w.stop ∧
        b.Grows w.start ∧ w.start.Grows w.stop ∧ w.stop.Grows d) ∧
      ws.Pairwise Window.Apart ∧
      (Piece.between b d).skipped = (Window.pieces d ws).skipped ∧
      ∀ k, (Window.pieces d ws).growth k = (Piece.between b d).growth k := by
  induction entries generalizing b lists with
  | nil =>
    obtain ⟨rfl, rfl⟩ := gives_pure.1 h
    exact ⟨[], rfl, rfl, by simp, .nil, by simp [Piece.between, Window.pieces],
      by simp [Piece.between, Window.pieces]⟩
  | cons e rest ih =>
    obtain ⟨key, r⟩ := e
    rw [compileEntries_cons] at h
    obtain ⟨list, c, hentry, h⟩ := gives_bind.1 h
    obtain ⟨lists', d', hrest, h⟩ := gives_bind.1 h
    obtain ⟨rfl, rfl⟩ := gives_pure.1 h
    have hbc : b.Grows c := Growing.grows hentry
    have hcd : c.Grows d := Growing.grows hrest
    obtain ⟨ws, hsources, hlists, hws, hapart, hskipped, hgrowth⟩ := ih hrest
    refine ⟨⟨key, r, list, b, c⟩ :: ws, by rw [List.map_cons, hsources],
      by rw [List.map_cons, hlists], ?_, ?_, ?_, ?_⟩
    · refine List.forall_mem_cons.2 ⟨⟨hentry, .refl b, hbc, hcd⟩, fun w hw => ?_⟩
      obtain ⟨hgives, hbefore, hinside, hafter⟩ := hws w hw
      exact ⟨hgives, hbc.trans hbefore, hinside, hafter⟩
    · refine .cons (fun w hw => Window.apart_of_grows ?_) hapart
      exact (hws w hw).2.1
    · rw [Piece.skipped_between_trans hbc hcd, hskipped]
      rfl
    · intro k
      have hle := hbc.count_le k
      have hle' := hcd.count_le k
      have hk := hgrowth k
      simp only [Window.pieces, List.map_cons, List.sum_cons, Window.piece, Piece.between]
        at hk ⊢
      omega

/-- Windows that are apart are followed in the order in which they are listed, whatever the order in
which they were compiled. -/
theorem follow_windows {ws : List Window} {entries : List (String × RuleSource)} {d : Builder}
    (hws : ∀ w ∈ ws, Gives (compileEntry validate σ (path ++ "." ++ w.key) w.rule) w.start w.list
      w.stop ∧ w.stop.Grows d)
    (hapart : ws.Pairwise Window.Apart) (hd : d.grammar.Numbered)
    (hmatch : List.Forall₂ (fun w e => w.key = e.1 ∧ w.rule.Follows validate drop e.2) ws entries)
    (hσ : σ.Linked μ σ') {b' : Builder} (hfits : (Window.pieces d ws).Fits b') :
    ∃ lists' c' ν, Gives (compileEntries validate σ' path entries) b' lists' c' ∧
      Twin drop μ (Window.pieces d ws) b' c' ν ∧
      List.Forall₂ (fun w l => w.key = l.1 ∧ (μ ⊔ ν) w.list.part l.2.part) ws lists' := by
  induction hmatch generalizing b' with
  | nil => exact ⟨[], b', ⊥, gives_pure.2 ⟨rfl, rfl⟩, .none (.inr rfl), .nil⟩
  | @cons w e ws rest hw _ ih =>
    obtain ⟨key, r'⟩ := e
    obtain ⟨hkey, hrule⟩ := hw
    obtain rfl : w.key = key := hkey
    obtain ⟨⟨hgives, hafter⟩, hrest⟩ := List.forall_mem_cons.1 hws
    obtain ⟨hhead, htail⟩ := List.pairwise_cons.1 hapart
    have hcount : ∀ k, b'.grammar.count k + (w.piece.growth k + (Window.pieces d ws).growth k) ≤
        k.limit := by
      intro k
      have hk := hfits k
      simpa [Window.pieces] using hk
    have hfits₀ : w.piece.Fits b' := by
      intro k
      have hk := hcount k
      omega
    obtain ⟨list', c₁, ν₁, hlist', htwin₁, hlinked₁⟩ := compileEntry_follows hrule hσ hgives
      (hafter.numbered hd) hfits₀
    have hfits₁ : (Window.pieces d ws).Fits c₁ := by
      intro k
      have hk := hcount k
      have hc₁ := htwin₁.growth k
      simp only [Window.piece] at hk
      omega
    obtain ⟨lists', c₂, ν₂, hlists', htwin₂, hlinked₂⟩ := ih hrest htail hfits₁
    refine ⟨(w.key, list') :: lists', c₂, ν₁ ⊔ ν₂, ?_, ?_, .cons ⟨rfl, ?_⟩ ?_⟩
    · rw [compileEntries_cons]
      exact gives_bind.2 ⟨list', c₁, hlist',
        gives_bind.2 ⟨lists', c₂, hlists', gives_pure.2 ⟨rfl, rfl⟩⟩⟩
    · refine htwin₁.append (htwin₂.mono le_sup_left) ?_ ?_ ?_ ?_ ?_ ?_
      · refine ⟨fun n hn => ⟨w, by simp, hn⟩, fun n x _ hx => hafter.kept hd n x hx,
          hafter.localIncludes.subset⟩
      · refine ⟨?_, fun n x _ hx => hx, List.Subset.refl _⟩
        rintro n ⟨u, hu, hn⟩
        exact ⟨u, List.mem_cons_of_mem _ hu, hn⟩
      · rintro n hn ⟨u, hu, hn'⟩
        exact hhead u hu n hn hn'
      · simp [Window.pieces, Window.piece]
      · intro k
        simp [Window.pieces, Window.piece]
      · intro k
        have hk := hfits₁ k
        have hc₂ := htwin₂.growth k
        omega
    · rw [← sup_assoc]
      exact .inl hlinked₁
    · refine hlinked₂.imp fun u l hl => ⟨hl.1, ?_⟩
      obtain hl | hl := hl.2
      · exact .inl hl
      · exact .inr (.inr hl)

/-! ## Names in another order -/

theorem lookup_eq_of_perm {l l' : List (String × ListId)} (h : l.Perm l')
    (hnodup : (l.map (·.1)).Nodup) (name : String) : l.lookup name = l'.lookup name := by
  induction h with
  | nil => rfl
  | cons e _ ih =>
    rw [List.lookup_cons, List.lookup_cons, ih (List.nodup_cons.1 hnodup).2]
  | swap e e' l =>
    obtain ⟨hne, _⟩ := List.nodup_cons.1 hnodup
    rw [List.lookup_cons, List.lookup_cons, List.lookup_cons, List.lookup_cons]
    cases hname : name == e.1 with
    | false => rfl
    | true =>
      cases hname' : name == e'.1 with
      | false => rfl
      | true =>
        rw [beq_iff_eq] at hname hname'
        exact (hne (by simp [← hname, hname'])).elim
  | trans h₁ _ ih₁ ih₂ =>
    rw [ih₁ hnodup, ih₂ ((h₁.map _).nodup_iff.1 hnodup)]

theorem entriesLinked_of_forall₂ {l l' : List (String × ListId)}
    (h : List.Forall₂ (fun e e' => e.1 = e'.1 ∧ μ e.2.part e'.2.part) l l') :
    EntriesLinked μ l l' := by
  intro name
  induction h with
  | nil => exact .none
  | @cons e e' _ _ he _ ih =>
    obtain ⟨hkey, hl⟩ := he
    rw [List.lookup_cons, List.lookup_cons, ← hkey]
    cases name == e.1 with
    | true => exact .some hl
    | false => exact ih

/-- The same windows in the order of the other side. Names mean the same in both orders. -/
theorem exists_ordered {ws : List Window} {entries ordered : List (String × RuleSource)}
    (hsources : ws.map (fun w => (w.key, w.rule)) = entries) (hperm : entries.Perm ordered)
    (horder : ordered = entries ∨ (entries.map (·.1)).Nodup) :
    ∃ us : List Window, us.map (fun w => (w.key, w.rule)) = ordered ∧ ws.Perm us ∧
      ∀ name, (ws.map fun w => (w.key, w.list)).lookup name =
        (us.map fun w => (w.key, w.list)).lookup name := by
  obtain rfl | hnodup := horder
  · exact ⟨ws, hsources, .refl _, fun _ => rfl⟩
  · rw [← hsources] at hperm hnodup
    have hmapped : Relation.Comp (· = List.map (fun w : Window => (w.key, w.rule)) ·) List.Perm
        ordered ws := by
      rw [List.eq_map_comp_perm]
      exact hperm.symm
    obtain ⟨us, hus, hus'⟩ := hmapped
    refine ⟨us, hus.symm, hus'.symm, fun name => lookup_eq_of_perm (hus'.symm.map _) ?_ name⟩
    rw [List.map_map] at hnodup ⊢
    exact hnodup

theorem compileEntries_follows {entries entries' : List (String × RuleSource)}
    (h : RepositoryMatch (RuleSource.Follows validate drop) entries entries')
    (hσ : σ.Linked μ σ') :
    Follows drop μ (compileEntries validate σ path entries)
      (compileEntries validate σ' path entries') (fun μ l l' => EntriesLinked μ l l') := by
  obtain ⟨ordered, hperm, horder, hmatch⟩ := h
  intro b lists d hgives hd b' hfits
  obtain ⟨ws, hsources, hlists, hws, hapart, hskipped, hgrowth⟩ := compileEntries_windows hgives
  obtain ⟨us, hsources', hus, hnames⟩ := exists_ordered hsources hperm horder
  have hmatch' : List.Forall₂ (fun w e => w.key = e.1 ∧ w.rule.Follows validate drop e.2) us
      entries' := by
    have hforall := hmatch.forall₂
    rwa [← hsources', List.forall₂_map_left_iff] at hforall
  have hwindow : ∀ w ∈ us, _ := fun w hw => hws w (hus.mem_iff.2 hw)
  have hpieces : (Window.pieces d us).In (.between b d) := by
    refine ⟨?_, fun n x _ hx => hx, List.Subset.refl _⟩
    rintro n ⟨w, hw, hn⟩
    obtain ⟨_, hbefore, _, hafter⟩ := hwindow w hw
    exact ⟨Nat.le_trans (hbefore.count_le _) hn.1, Nat.lt_of_lt_of_le hn.2 (hafter.count_le _)⟩
  have hgrowth' : ∀ k, (Window.pieces d us).growth k = (Piece.between b d).growth k := by
    intro k
    rw [← hgrowth k]
    exact ((hus.map _).sum_eq).symm
  have hfits' : (Window.pieces d us).Fits b' := by
    intro k
    rw [hgrowth' k]
    exact hfits k
  obtain ⟨lists', c', ν, hlists', htwin, hlinked⟩ := follow_windows
    (fun w hw => ⟨(hwindow w hw).1, (hwindow w hw).2.2.2⟩)
    ((hus.pairwise_iff Window.Apart.symm).1 hapart) hd hmatch' hσ hfits'
  refine ⟨lists', c', ν, hlists', htwin.within hpieces ?_ fun k => Nat.le_of_eq (hgrowth' k), ?_⟩
  · rw [hskipped]
    exact (hus.flatMap_right _).symm
  · intro name
    rw [← hlists, hnames name]
    exact entriesLinked_of_forall₂ (List.forall₂_map_left_iff.2 hlinked) name

/-! ## Rules with a repository -/

theorem push_linked {σ σ' stack : RepositoryChain} {id id' : RepositoryId} (hσ : σ.Linked μ σ')
    (hid : μ id.part id'.part) (hpush : σ.push id = some stack) :
    ∃ stack', σ'.push id' = some stack' ∧ stack.Linked μ stack' := by
  rw [RepositoryChain.push] at hpush ⊢
  rw [← List.Forall₂.length_eq hσ]
  split at hpush
  · next hlt =>
    cases hpush
    rw [if_pos hlt]
    exact ⟨_, rfl, .cons hid hσ⟩
  · cases hpush

/-- A repository that was opened on both sides is filled with linked entries. -/
theorem Twin.fill {b c b' c' : Builder} {id id' : RepositoryId}
    {lists lists' : List (String × ListId)}
    {ν : Links} (hid : id.part = b.grammar.next .repository)
    (hid' : id'.part = b'.grammar.next .repository) (hbc : (b.add (.repository [])).Grows c)
    (hgrows : b'.Grows { c' with grammar := c'.grammar.withRepository id' lists' })
    (h : Twin drop (μ ⊔ Links.only id.part id'.part) (.between (b.add (.repository [])) c)
      (b'.add (.repository [])) c' ν)
    (hlists : EntriesLinked (μ ⊔ Links.only id.part id'.part ⊔ ν) lists lists') :
    Twin drop μ (.between b { c with grammar := c.grammar.withRepository id lists }) b'
      { c' with grammar := c'.grammar.withRepository id' lists' }
      (Links.only id.part id'.part ⊔ ν) := by
  have hcount : ∀ (b : Builder) k, (b.add (.repository [])).grammar.count k =
      b.grammar.count k + if k = .repository then 1 else 0 := fun b k => by
    rw [Builder.add, Grammar.count_addPart]
    rfl
  have hlt : b.grammar.count .repository < c.grammar.count .repository := by
    have hle := hbc.count_le .repository
    rw [hcount, if_pos rfl] at hle
    omega
  have hlt' : b'.grammar.count .repository < c'.grammar.count .repository := by
    have hle := h.grows.count_le .repository
    rw [hcount, if_pos rfl] at hle
    omega
  -- what is inside the repository has other numbers
  have hleft : ∀ {n n'}, ν n n' → b.grammar.count n.kind ≤ n.index ∧ n ≠ id.part ∧
      n.index < c.grammar.count n.kind := by
    intro n n' hn
    obtain ⟨hle, hn⟩ := h.left n n' hn
    rw [hcount] at hle
    refine ⟨by omega, ?_, hn⟩
    rintro rfl
    rw [hid, Grammar.next, if_pos rfl] at hle
    dsimp only at hle
    omega
  have hright : ∀ {n n'}, ν n n' → b'.grammar.count n'.kind ≤ n'.index ∧ n' ≠ id'.part ∧
      n'.index < c'.grammar.count n'.kind := by
    intro n n' hn
    obtain ⟨hle, hn⟩ := h.right n n' hn
    rw [hcount] at hle
    refine ⟨by omega, ?_, hn⟩
    rintro rfl
    rw [hid', Grammar.next, if_pos rfl] at hle
    dsimp only at hle
    omega
  refine ⟨hgrows, fun k => ?_, ?_, ?_, ?_, ?_, ?_, h.skipped⟩
  · have hk := h.growth k
    have hle := hbc.count_le k
    simp only [Piece.between, hcount, Grammar.count_withRepository] at hk hle ⊢
    omega
  · rintro n n' (⟨rfl, rfl⟩ | hn)
    · simp only [Piece.between, Grammar.count_withRepository, hid, Grammar.next]
      omega
    · obtain ⟨hle, _, hlt⟩ := hleft hn
      simp only [Piece.between, Grammar.count_withRepository]
      omega
  · rintro n n' (⟨rfl, rfl⟩ | hn)
    · simp only [Piece.between, Grammar.count_withRepository, hid', Grammar.next]
      omega
    · obtain ⟨hle, _, hlt⟩ := hright hn
      simp only [Piece.between, Grammar.count_withRepository]
      omega
  · refine Links.sup_biUnique (Links.only_biUnique _ _) h.unique ?_ ?_
    · rintro n m m' ⟨rfl, _⟩ hm
      exact (hleft hm).2.1 rfl
    · rintro n n' m ⟨_, rfl⟩ hm
      exact (hright hm).2.1 rfl
  · rintro n n' (⟨rfl, rfl⟩ | hn)
    · refine ⟨.repository lists, .repository lists', ?_, ?_, .repository ?_⟩
      · refine Grammar.part?_withRepository_self ?_ lists
        have hindex : id.index = b.grammar.count .repository := congrArg PartId.index hid
        omega
      · refine Grammar.part?_withRepository_self ?_ lists'
        have hindex : id'.index = b'.grammar.count .repository := congrArg PartId.index hid'
        omega
      · rwa [← sup_assoc]
    · obtain ⟨x, x', hx, hx', hlinked⟩ := h.parts n n' hn
      refine ⟨x, x', ?_, ?_, by rwa [← sup_assoc]⟩
      · exact (Grammar.part?_withRepository_of_ne (hleft hn).2.1 lists).trans hx
      · exact (Grammar.part?_withRepository_of_ne (hright hn).2.1 lists').trans hx'
  · rw [← sup_assoc]
    exact h.includes

theorem compileRepository_follows {entries entries' : List (String × RuleSource)}
    (h : RepositoryMatch (RuleSource.Follows validate drop) entries entries')
    (hσ : σ.Linked μ σ') :
    Follows drop μ (compileRepository validate σ path entries)
      (compileRepository validate σ' path entries') (fun μ σ σ' => σ.Linked μ σ') := by
  intro b stack d hgives hd b' hfits
  obtain ⟨id, lists, c, hid, hpush, hentries, rfl⟩ := compileRepository_gives.1 hgives
  have hbc : (b.add (.repository [])).Grows c := Growing.grows hentries
  have hc : c.grammar.Numbered := hd.of_count_le fun k =>
    Nat.le_of_eq (Grammar.count_withRepository ..).symm
  have hpart := (addRepository_adds.of_gives hid).2 (hbc.numbered hc)
  obtain ⟨id', hid', hpart'⟩ := addRepository_adds b'
  have hfits₁ : (Piece.between (b.add (.repository [])) c).Fits (b'.add (.repository [])) := by
    intro k
    have hk := hfits k
    have hle := hbc.count_le k
    simp only [Piece.between, Builder.add, Grammar.count_addPart, Grammar.count_withRepository]
      at hk hle ⊢
    omega
  have hpart' := hpart' fun k => Nat.le_trans (Nat.le_add_right _ _) (hfits₁ k)
  have hσ₁ : σ.Linked (μ ⊔ Links.only id.part id'.part) σ' := hσ.mono le_sup_left
  obtain ⟨stack', hpush', hstack⟩ := push_linked hσ₁ (.inr ⟨rfl, rfl⟩) hpush
  obtain ⟨lists', c', ν, hlists', htwin, hlinked⟩ :=
    compileEntries_follows h hstack hentries hc hfits₁
  have hgives' : Gives (compileRepository validate σ' path entries') b' stack'
      { c' with grammar := c'.grammar.withRepository id' lists' } :=
    compileRepository_gives.2 ⟨id', lists', c', hid', hpush', hlists', rfl⟩
  refine ⟨stack', _, _, hgives', .fill hpart hpart' hbc (Growing.grows hgives') htwin hlinked, ?_⟩
  rw [← sup_assoc]
  exact hstack.mono le_sup_left

theorem enterRule_follows (path : String) {r r' : RuleSource}
    (h : RepositoryMatch (RuleSource.Follows validate drop) r.repository r'.repository)
    (hσ : σ.Linked μ σ') :
    Follows drop μ (enterRule validate σ path r) (enterRule validate σ' path r')
      (fun μ σ σ' => σ.Linked μ σ') := by
  have hempty : r'.repository.isEmpty = r.repository.isEmpty := by
    obtain ⟨ordered, hperm, _, hmatch⟩ := h
    have hlength := hperm.length_eq.trans hmatch.forall₂.length_eq
    rw [Bool.eq_iff_iff, List.isEmpty_iff_length_eq_zero, List.isEmpty_iff_length_eq_zero, hlength]
  rw [enterRule, enterRule, hempty]
  split
  · exact follows_pure hσ
  · exact compileRepository_follows h hσ

theorem compileShape_follows {r r' : RuleSource} {shape : RuleForm}
    (hkept : drop = true → shape.refusal? validate = none)
    (hrepository : RepositoryMatch (RuleSource.Follows validate drop) r.repository r'.repository)
    (hinside : r.SameInside (RuleSource.Follows validate drop) r' shape) (hσ : σ.Linked μ σ') :
    Follows drop μ (compileShape validate σ path r shape) (compileShape validate σ' path r' shape)
      (fun μ i i' => Option.Rel (ListItem.Linked μ) i i') := by
  have henter := enterRule_follows path hrepository hσ
  rw [compileShape, compileShape]
  cases hrefusal : shape.refusal? validate with
  | none => exact henter.bind fun _ _ _ _ hσ₁ => compileForm_follows hinside hσ₁
  | some refusal =>
    cases drop with
    | true =>
      have hnone := hkept rfl
      rw [hrefusal] at hnone
      cases hnone
    | false =>
      exact henter.bind fun _ _ _ _ _ => (skip_follows refusal).bind fun _ _ _ _ _ =>
        follows_pure .none

/-- A rule that is left out on one side is disabled on the other one. -/
theorem dropped_follows {r : RuleSource} {shape : RuleForm} {refusal : Refusal}
    (h : shape.refusal? validate = some refusal) :
    Follows true μ (compileShape validate σ path r shape) (pure none)
      (fun μ i i' => Option.Rel (ListItem.Linked μ) i i') := by
  intro b item c hgives _ b' _
  rw [compileShape, h] at hgives
  obtain ⟨_, b₁, _, hgives⟩ := gives_bind.1 hgives
  obtain ⟨_, b₂, _, hgives⟩ := gives_bind.1 hgives
  obtain ⟨rfl, rfl⟩ := gives_pure.1 hgives
  exact ⟨none, b', ⊥, gives_pure.2 ⟨rfl, rfl⟩, .none (.inl rfl), .none⟩

/-- If the rules inside two matched rules are compiled the same but for numbers, so are these. -/
theorem RuleSource.Matched.follows {r r' : RuleSource}
    (h : r.Matched validate drop (RuleSource.Follows validate drop) r') :
    r.Follows validate drop r' := by
  intro μ σ σ' path hσ
  rw [compileRule_eq, compileRule_eq]
  cases h with
  | disabled h h' =>
    rw [if_pos h, if_pos h']
    exact follows_pure .none
  | linked target h h' htarget htarget' =>
    rw [if_neg (by simp [h]), if_neg (by simp [h']), htarget, htarget']
    exact (compileInclude_follows target hσ).bind fun _ _ _ _ hi => follows_pure (.some hi)
  | illFormed fault h hinclude hform =>
    rw [if_neg (by simp [h]), hinclude, hform]
    exact follows_of_not_gives fun _ _ _ => not_gives_refuse
  | dropped shape refusal hdrop h hinclude hform hrefusal h' =>
    subst hdrop
    rw [if_neg (by simp [h]), if_pos h', hinclude, hform]
    exact dropped_follows hrefusal
  | same shape h h' hinclude hinclude' hform hform' hkept hrepository hinside =>
    rw [if_neg (by simp [h]), if_neg (by simp [h']), hinclude, hinclude', hform, hform']
    exact compileShape_follows hkept hrepository hinside hσ

theorem RuleSource.Matched.imp_of_mem {S T : RuleSource → RuleSource → Prop} {r r' : RuleSource}
    (h : r.Matched validate drop S r') (himp : ∀ c ∈ r.children, ∀ c', S c c' → T c c') :
    r.Matched validate drop T r' := by
  have hcaptures : ∀ {l l' : List (String × RuleSource)},
      l ⊆ r.captures ++ r.beginCaptures ++ r.endCaptures ++ r.whileCaptures →
      CapturesMatch S l l' → CapturesMatch T l l' := fun hsub hl =>
    hl.imp_of_mem fun e he c hc => himp c (mem_children_of_capture (hsub he) hc)
  have hpatterns : ∀ {l' : List RuleSource}, List.Forall₂ S r.patterns l' →
      List.Forall₂ T r.patterns l' := fun hl =>
    forall₂_imp_of_mem (fun c hc => himp c (mem_children_of_pattern hc)) hl
  cases h with
  | disabled h h' => exact .disabled h h'
  | linked target h h' htarget htarget' => exact .linked target h h' htarget htarget'
  | illFormed fault h hinclude hform => exact .illFormed fault h hinclude hform
  | dropped shape refusal hdrop h hinclude hform hrefusal h' =>
    exact .dropped shape refusal hdrop h hinclude hform hrefusal h'
  | same shape h h' hinclude hinclude' hform hform' hkept hrepository hinside =>
    refine .same shape h h' hinclude hinclude' hform hform' hkept ?_ ?_
    · obtain ⟨ordered, hperm, horder, hmatch⟩ := hrepository
      exact ⟨ordered, hperm, horder, hmatch.imp_of_mem fun e he =>
        himp _ (mem_children_of_entry (hperm.mem_iff.2 he))⟩
    · cases shape with
      | single source => exact ⟨hinside.1, hcaptures (fun e he => by simp [he]) hinside.2⟩
      | span opening close isWhile =>
        obtain ⟨hnames, hopening, hclose, hitems⟩ := hinside
        exact ⟨hnames, hcaptures r.openingCaptures_subset hopening,
          hcaptures (r.closeCaptures_subset isWhile) hclose, hpatterns hitems⟩
      | container => exact hpatterns hinside

/-- Matched sources are compiled the same but for numbers. -/
theorem compileRule_follows {S : RuleSource → RuleSource → Prop}
    (hS : ∀ r r', S r r' → r.Matched validate drop S r') {r r' : RuleSource} (h : S r r') :
    r.Follows validate drop r' := by
  induction r using RuleSource.children_induction generalizing r' with
  | step r ih => exact ((hS r r' h).imp_of_mem fun c hc c' hcc' => ih c hc hcc').follows

end ScopeGrammar
