import Mathlib.Data.List.Forall2
import Mathlib.Logic.Relator
import Mathlib.Order.ConditionallyCompleteLattice.Basic
import ScopeGrammar.Proofs.Grammar.Build

/-!
# ScopeGrammar.Proofs.Grammar.Links

Grammars that differ in their numbers.

* `Links` say which parts of two grammars stand for each other, `Part.Linked` that two parts are the
  same but for numbers that are linked.
* `Grammar.Paired` : the links are one to one, linked parts are the same, and the roots are linked.
* `RepositoryChain.Linked.visibleEntry?` : names mean the same in linked repositories.
-/

namespace ScopeGrammar

abbrev Links := PartId → PartId → Prop

namespace Links

/-- A single link. -/
def only (n n' : PartId) : Links := fun m m' => m = n ∧ m' = n'

theorem only_biUnique (n n' : PartId) : Relator.BiUnique (only n n') := by
  constructor
  · rintro a b c ⟨rfl, _⟩ ⟨rfl, _⟩
    rfl
  · rintro a b c ⟨_, rfl⟩ ⟨_, rfl⟩
    rfl

/-- Links of different parts on both sides are one to one together. -/
theorem sup_biUnique {μ ν : Links} (hμ : Relator.BiUnique μ) (hν : Relator.BiUnique ν)
    (hleft : ∀ {n m m'}, μ n m → ν n m' → False)
    (hright : ∀ {n n' m}, μ n m → ν n' m → False) : Relator.BiUnique (μ ⊔ ν) := by
  constructor
  · rintro a b c (h | h) (h' | h')
    · exact hμ.1 h h'
    · exact (hright h h').elim
    · exact (hright h' h).elim
    · exact hν.1 h h'
  · rintro a b c (h | h) (h' | h')
    · exact hμ.2 h h'
    · exact (hleft h h').elim
    · exact (hleft h' h).elim
    · exact hν.2 h h'

end Links

/-! ### Related options -/

section

variable {α β γ δ : Type} {R : α → β → Prop} {x : Option α} {y : Option β}

theorem optionRel_mono {S : α → β → Prop} (h : ∀ a b, R a b → S a b) (hxy : Option.Rel R x y) :
    Option.Rel S x y := by
  cases hxy with
  | some hab => exact .some (h _ _ hab)
  | none => exact .none

theorem optionRel_map {S : γ → δ → Prop} {f : α → γ} {g : β → δ} (hxy : Option.Rel R x y)
    (h : ∀ a b, R a b → S (f a) (g b)) : Option.Rel S (x.map f) (y.map g) := by
  cases hxy with
  | some hab => exact .some (h _ _ hab)
  | none => exact .none

theorem optionRel_bind {S : γ → δ → Prop} {f : α → Option γ} {g : β → Option δ}
    (hxy : Option.Rel R x y) (h : ∀ a b, R a b → Option.Rel S (f a) (g b)) :
    Option.Rel S (x.bind f) (y.bind g) := by
  cases hxy with
  | some hab => exact h _ _ hab
  | none => exact .none

theorem map_eq_of_optionRel {f : α → γ} {g : β → γ} (hxy : Option.Rel R x y)
    (h : ∀ a b, R a b → f a = g b) : x.map f = y.map g := by
  cases hxy with
  | some hab => exact congrArg some (h _ _ hab)
  | none => rfl

end

/-! ## The same but for numbers -/

variable {μ ν : Links}

def RepositoryChain.Linked (μ : Links) (σ σ' : RepositoryChain) : Prop :=
  List.Forall₂ (fun i i' => μ i.part i'.part) σ.ids σ'.ids

inductive ListItem.Linked (μ : Links) : ListItem → ListItem → Prop
  | rule {i i' : RuleId} : μ i.part i'.part → Linked μ (.rule i) (.rule i')
  | list {i i' : ListId} : μ i.part i'.part → Linked μ (.list i) (.list i')
  | linked {target : IncludeTarget} {σ σ' : RepositoryChain} :
    σ.Linked μ σ' → Linked μ (.linked ⟨target, σ⟩) (.linked ⟨target, σ'⟩)

structure CaptureTable.Linked (μ : Links) (t t' : CaptureTable) : Prop where
  size : t.size = t'.size
  entries : List.Forall₂ (fun e e' => e.1 = e'.1 ∧ μ e.2.part e'.2.part) t.entries t'.entries

structure MatchRule.Linked (μ : Links) (r r' : MatchRule) : Prop where
  scopes : r.scopes = r'.scopes
  pattern : μ r.pattern.part r'.pattern.part
  captures : r.captures.Linked μ r'.captures

inductive SpanEnding.Linked (μ : Links) : SpanEnding → SpanEnding → Prop
  | atEnd {p p' : PatternId} {t t' : CaptureTable} {last : Bool} :
    μ p.part p'.part → t.Linked μ t' → Linked μ (.atEnd p t last) (.atEnd p' t' last)
  | whileMatched {p p' : PatternId} {t t' : CaptureTable} :
    μ p.part p'.part → t.Linked μ t' → Linked μ (.whileMatched p t) (.whileMatched p' t')

structure SpanRule.Linked (μ : Links) (s s' : SpanRule) : Prop where
  scopes : s.scopes = s'.scopes
  contentScopes : s.contentScopes = s'.contentScopes
  opening : μ s.opening.part s'.opening.part
  openingCaptures : s.openingCaptures.Linked μ s'.openingCaptures
  close : s.close.Linked μ s'.close
  fillsEnding : s.fillsEnding = s'.fillsEnding
  patterns : μ s.patterns.part s'.patterns.part

inductive Rule.Linked (μ : Links) : Rule → Rule → Prop
  | single {r r' : MatchRule} : r.Linked μ r' → Linked μ (.single r) (.single r')
  | span {s s' : SpanRule} : s.Linked μ s' → Linked μ (.span s) (.span s')

structure Capture.Linked (μ : Links) (c c' : Capture) : Prop where
  scopes : c.scopes = c'.scopes
  patterns : Option.Rel (fun l l' => μ l.part l'.part) c.patterns c'.patterns

/-- Every name is that of linked lists, whatever the order of the entries. -/
def EntriesLinked (μ : Links) (entries entries' : List (String × ListId)) : Prop :=
  ∀ name, Option.Rel (fun l l' => μ l.part l'.part) (entries.lookup name) (entries'.lookup name)

inductive Part.Linked (μ : Links) : Part → Part → Prop
  | pattern (source : String) : Linked μ (.pattern source) (.pattern source)
  | rule {r r' : Rule} : r.Linked μ r' → Linked μ (.rule r) (.rule r')
  | list {items items' : List ListItem} :
    List.Forall₂ (ListItem.Linked μ) items items' → Linked μ (.list items) (.list items')
  | capture {c c' : Capture} : c.Linked μ c' → Linked μ (.capture c) (.capture c')
  | repository {entries entries' : List (String × ListId)} :
    EntriesLinked μ entries entries' → Linked μ (.repository entries) (.repository entries')

namespace SpanRule.Linked

variable {s s' : SpanRule}

theorem closePattern (h : s.Linked μ s') : μ s.closePattern.part s'.closePattern.part := by
  have hclose := h.close
  rw [SpanRule.closePattern, SpanRule.closePattern]
  generalize s.close = close at hclose
  generalize s'.close = close' at hclose
  cases hclose with
  | atEnd hp _ => exact hp
  | whileMatched hp _ => exact hp

theorem closeCaptures (h : s.Linked μ s') : s.closeCaptures.Linked μ s'.closeCaptures := by
  have hclose := h.close
  rw [SpanRule.closeCaptures, SpanRule.closeCaptures]
  generalize s.close = close at hclose
  generalize s'.close = close' at hclose
  cases hclose with
  | atEnd _ ht => exact ht
  | whileMatched _ ht => exact ht

theorem isWhile (h : s.Linked μ s') : s.isWhile = s'.isWhile := by
  have hclose := h.close
  rw [SpanRule.isWhile, SpanRule.isWhile]
  generalize s.close = close at hclose
  generalize s'.close = close' at hclose
  cases hclose <;> rfl

theorem appliesEndLast (h : s.Linked μ s') : s.appliesEndLast = s'.appliesEndLast := by
  have hclose := h.close
  rw [SpanRule.appliesEndLast, SpanRule.appliesEndLast]
  generalize s.close = close at hclose
  generalize s'.close = close' at hclose
  cases hclose <;> rfl

end SpanRule.Linked

/-! ### More links -/

section

variable (h : μ ≤ ν)

include h

theorem RepositoryChain.Linked.mono {σ σ' : RepositoryChain} (hl : σ.Linked μ σ') :
    σ.Linked ν σ' := hl.imp fun _ _ hi => h _ _ hi

theorem ListItem.Linked.mono {i i' : ListItem} (hl : i.Linked μ i') : i.Linked ν i' := by
  cases hl with
  | rule hi => exact .rule (h _ _ hi)
  | list hi => exact .list (h _ _ hi)
  | linked hσ => exact .linked (hσ.mono h)

theorem CaptureTable.Linked.mono {t t' : CaptureTable} (hl : t.Linked μ t') : t.Linked ν t' :=
  ⟨hl.size, hl.entries.imp fun _ _ he => ⟨he.1, h _ _ he.2⟩⟩

theorem MatchRule.Linked.mono {r r' : MatchRule} (hl : r.Linked μ r') : r.Linked ν r' :=
  ⟨hl.scopes, h _ _ hl.pattern, hl.captures.mono h⟩

theorem SpanEnding.Linked.mono {e e' : SpanEnding} (hl : e.Linked μ e') : e.Linked ν e' := by
  cases hl with
  | atEnd hp ht => exact .atEnd (h _ _ hp) (ht.mono h)
  | whileMatched hp ht => exact .whileMatched (h _ _ hp) (ht.mono h)

theorem SpanRule.Linked.mono {s s' : SpanRule} (hl : s.Linked μ s') : s.Linked ν s' :=
  ⟨hl.scopes, hl.contentScopes, h _ _ hl.opening, hl.openingCaptures.mono h, hl.close.mono h,
    hl.fillsEnding, h _ _ hl.patterns⟩

theorem Rule.Linked.mono {r r' : Rule} (hl : r.Linked μ r') : r.Linked ν r' := by
  cases hl with
  | single hr => exact .single (hr.mono h)
  | span hs => exact .span (hs.mono h)

theorem Capture.Linked.mono {c c' : Capture} (hl : c.Linked μ c') : c.Linked ν c' :=
  ⟨hl.scopes, optionRel_mono (fun _ _ hi => h _ _ hi) hl.patterns⟩

theorem EntriesLinked.mono {entries entries' : List (String × ListId)}
    (hl : EntriesLinked μ entries entries') : EntriesLinked ν entries entries' :=
  fun name => optionRel_mono (fun _ _ hi => h _ _ hi) (hl name)

theorem Part.Linked.mono {p p' : Part} (hl : p.Linked μ p') : p.Linked ν p' := by
  cases hl with
  | pattern source => exact .pattern source
  | rule hr => exact .rule (hr.mono h)
  | list hitems => exact .list (hitems.imp fun _ _ hi => hi.mono h)
  | capture hc => exact .capture (hc.mono h)
  | repository hentries => exact .repository (hentries.mono h)

end

theorem Part.Linked.kind_eq {p p' : Part} (h : p.Linked μ p') : p.kind = p'.kind := by
  cases h <;> rfl

/-! ### The same numbers -/

theorem RepositoryChain.Linked.refl (σ : RepositoryChain) : σ.Linked Eq σ :=
  List.forall₂_same.2 fun _ _ => rfl

theorem CaptureTable.Linked.refl (t : CaptureTable) : t.Linked Eq t :=
  ⟨rfl, List.forall₂_same.2 fun _ _ => ⟨rfl, rfl⟩⟩

theorem ListItem.Linked.refl (i : ListItem) : i.Linked Eq i := by
  cases i with
  | rule id => exact .rule rfl
  | list id => exact .list rfl
  | linked target => exact .linked (.refl target.repositories)

theorem SpanEnding.Linked.refl (e : SpanEnding) : e.Linked Eq e := by
  cases e with
  | atEnd pattern captures last => exact .atEnd rfl (.refl captures)
  | whileMatched pattern captures => exact .whileMatched rfl (.refl captures)

theorem Rule.Linked.refl (r : Rule) : r.Linked Eq r := by
  cases r with
  | single r => exact .single ⟨rfl, rfl, .refl r.captures⟩
  | span s => exact .span ⟨rfl, rfl, rfl, .refl s.openingCaptures, .refl s.close, rfl, rfl⟩

theorem optionRel_eq_part (x : Option ListId) :
    Option.Rel (fun l l' : ListId => l.part = l'.part) x x := by
  cases x with
  | none => exact .none
  | some l => exact .some rfl

theorem Part.Linked.refl (p : Part) : p.Linked Eq p := by
  cases p with
  | pattern source => exact .pattern source
  | rule r => exact .rule (.refl r)
  | list items => exact .list (List.forall₂_same.2 fun i _ => .refl i)
  | capture c => exact .capture ⟨rfl, optionRel_eq_part c.patterns⟩
  | repository entries => exact .repository fun name => optionRel_eq_part (entries.lookup name)

/-! ### Captures at their places -/

theorem CaptureTable.Linked.put {t t' : CaptureTable} (h : t.Linked μ t') (i : Nat)
    {id id' : CaptureId} (hid : μ id.part id'.part) : (t.put i id).Linked μ (t'.put i id') := by
  refine ⟨h.size, ?_⟩
  have hentries := h.entries
  simp only [CaptureTable.put]
  generalize t.entries = entries at hentries ⊢
  generalize t'.entries = entries' at hentries ⊢
  induction hentries with
  | nil => exact .cons ⟨rfl, hid⟩ .nil
  | @cons e e' rest rest' he hrest ih =>
    obtain ⟨j, jd⟩ := e
    obtain ⟨j', jd'⟩ := e'
    obtain ⟨rfl, hjd⟩ := he
    rw [putPlace, putPlace]
    by_cases hsame : i = j
    · rw [if_pos hsame, if_pos hsame]
      exact .cons ⟨rfl, hid⟩ hrest
    · rw [if_neg hsame, if_neg hsame]
      by_cases hbefore : i < j
      · rw [if_pos hbefore, if_pos hbefore]
        exact .cons ⟨rfl, hid⟩ (.cons ⟨rfl, hjd⟩ hrest)
      · rw [if_neg hbefore, if_neg hbefore]
        exact .cons ⟨rfl, hjd⟩ ih

/-! ### What linked numbers stand for -/

theorem optionRel_of_map {α : Type} {f : α → Part} {R : α → α → Prop}
    (hf : ∀ a a', (f a).Linked μ (f a') → R a a') {x y : Option α}
    (h : Option.Rel (Part.Linked μ) (x.map f) (y.map f)) : Option.Rel R x y := by
  cases x with
  | none =>
    cases y with
    | none => exact .none
    | some b => cases h
  | some a =>
    cases y with
    | none => cases h
    | some b =>
      cases h with
      | some hab => exact .some (hf _ _ hab)

namespace Grammar

variable {g g' : Grammar}

theorem pattern_linked {i i' : PatternId}
    (h : Option.Rel (Part.Linked μ) (g.part? i.part) (g'.part? i'.part)) :
    g.pattern i = g'.pattern i' := by
  have hsource : Option.Rel Eq g.patterns[i.index]? g'.patterns[i'.index]? :=
    optionRel_of_map (fun a a' ha => by cases ha; rfl) h
  rw [pattern, pattern, Array.getD_eq_getD_getElem?, Array.getD_eq_getD_getElem?]
  generalize g.patterns[i.index]? = source at hsource
  generalize g'.patterns[i'.index]? = source' at hsource
  cases hsource with
  | some h => exact h
  | none => rfl

theorem rule?_linked {i i' : RuleId}
    (h : Option.Rel (Part.Linked μ) (g.part? i.part) (g'.part? i'.part)) :
    Option.Rel (Rule.Linked μ) (g.rule? i) (g'.rule? i') :=
  optionRel_of_map (fun a a' ha => by cases ha; assumption) h

theorem list_linked {i i' : ListId}
    (h : Option.Rel (Part.Linked μ) (g.part? i.part) (g'.part? i'.part)) :
    List.Forall₂ (ListItem.Linked μ) (g.list i) (g'.list i') := by
  have hitems : Option.Rel (List.Forall₂ (ListItem.Linked μ)) g.lists[i.index]?
      g'.lists[i'.index]? := optionRel_of_map (fun a a' ha => by cases ha; assumption) h
  rw [list, list, Array.getD_eq_getD_getElem?, Array.getD_eq_getD_getElem?]
  generalize g.lists[i.index]? = items at hitems
  generalize g'.lists[i'.index]? = items' at hitems
  cases hitems with
  | some h => exact h
  | none => exact .nil

theorem capture?_linked {i i' : CaptureId}
    (h : Option.Rel (Part.Linked μ) (g.part? i.part) (g'.part? i'.part)) :
    Option.Rel (Capture.Linked μ) (g.capture? i) (g'.capture? i') :=
  optionRel_of_map (fun a a' ha => by cases ha; assumption) h

theorem entryIn?_linked {i i' : RepositoryId}
    (h : Option.Rel (Part.Linked μ) (g.part? i.part) (g'.part? i'.part)) (name : String) :
    Option.Rel (fun l l' => μ l.part l'.part) (g.entryIn? name i) (g'.entryIn? name i') := by
  have hentries : Option.Rel (EntriesLinked μ) g.repositories[i.index]?
      g'.repositories[i'.index]? := optionRel_of_map (fun a a' ha => by cases ha; assumption) h
  exact optionRel_bind hentries fun _ _ h => h name

end Grammar

/-! ## Paired grammars -/

/-- The grammars are the same but for numbers, as far as can be reached from their roots. -/
structure Grammar.Paired (μ : Links) (g g' : Grammar) : Prop where
  unique : Relator.BiUnique μ
  parts : ∀ {n n'}, μ n n' → Option.Rel (Part.Linked μ) (g.part? n) (g'.part? n')
  root : μ g.root.part g'.root.part
  /-- The repository of the grammar itself. -/
  own : μ ⟨.repository, 0⟩ ⟨.repository, 0⟩
  scopeName : g.scopeName = g'.scopeName
  scope : g.scope = g'.scope

namespace Grammar.Paired

variable {g g' : Grammar}

/-- Every grammar is paired with itself. -/
theorem refl (g : Grammar) : g.Paired Eq g where
  unique := ⟨fun _ _ _ h h' => h.trans h'.symm, fun _ _ _ h h' => h.symm.trans h'⟩
  parts := by
    rintro n _ rfl
    cases g.part? n with
    | none => exact .none
    | some p => exact .some (.refl p)
  root := rfl
  own := rfl
  scopeName := rfl
  scope := rfl

theorem ownEntry? (h : g.Paired μ g') (name : String) :
    Option.Rel (fun l l' => μ l.part l'.part) (g.ownEntry? name) (g'.ownEntry? name) := by
  have hown : Option.Rel (Part.Linked μ) (g.part? (RepositoryId.part ⟨0⟩))
      (g'.part? (RepositoryId.part ⟨0⟩)) := h.parts h.own
  exact entryIn?_linked hown name

theorem visibleEntry? (h : g.Paired μ g') {σ σ' : RepositoryChain} (hσ : σ.Linked μ σ')
    (name : String) :
    Option.Rel (fun l l' => μ l.part l'.part) (g.visibleEntry? name σ)
      (g'.visibleEntry? name σ') := by
  rw [Grammar.visibleEntry?, Grammar.visibleEntry?]
  rw [RepositoryChain.Linked] at hσ
  generalize σ.ids = ids at hσ
  generalize σ'.ids = ids' at hσ
  induction hσ with
  | nil => exact .none
  | @cons id id' rest rest' hid _ ih =>
    have hentry := entryIn?_linked (h.parts hid) name
    rw [List.findSome?_cons, List.findSome?_cons]
    generalize g.entryIn? name id = entry at hentry
    generalize g'.entryIn? name id' = entry' at hentry
    cases hentry with
    | none => exact ih
    | some hl => exact .some hl

end Grammar.Paired

end ScopeGrammar
