import Mathlib.Algebra.Group.Nat.Defs
import ScopeGrammar.Grammar.Compile

/-!
# ScopeGrammar.Proofs.Grammar.Build

The parts of a grammar, and steps of compiling that add them.

* `Grammar.part?` sees all that is numbered in a grammar in one way: a part has a kind and an index.
* `Build.Gives` : a step of compiling ends well, with a result.
* `Build.Adds` : a step adds a part and answers its number, if that is in range
  (`Grammar.Numbered`).
-/

namespace ScopeGrammar

/-! ## The parts of a grammar -/

inductive PartKind where
  | pattern
  | rule
  | list
  | capture
  | repository
  deriving DecidableEq

/-- So many parts of a kind have numbers of their own. -/
def PartKind.limit : PartKind → Nat
  | .repository => 2 ^ 16
  | _ => 2 ^ 32

structure PartId where
  kind : PartKind
  index : Nat
  deriving DecidableEq

def PatternId.part (i : PatternId) : PartId := ⟨.pattern, i.index⟩
def RuleId.part (i : RuleId) : PartId := ⟨.rule, i.index⟩
def ListId.part (i : ListId) : PartId := ⟨.list, i.index⟩
def CaptureId.part (i : CaptureId) : PartId := ⟨.capture, i.index⟩
def RepositoryId.part (i : RepositoryId) : PartId := ⟨.repository, i.index⟩

@[simp] theorem PatternId.part_inj {i j : PatternId} : i.part = j.part ↔ i = j := by
  cases i
  cases j
  simp [PatternId.part, PatternId.index, UInt32.toNat_inj]

@[simp] theorem RuleId.part_inj {i j : RuleId} : i.part = j.part ↔ i = j := by
  cases i
  cases j
  simp [RuleId.part, RuleId.index, UInt32.toNat_inj]

@[simp] theorem ListId.part_inj {i j : ListId} : i.part = j.part ↔ i = j := by
  cases i
  cases j
  simp [ListId.part, ListId.index, UInt32.toNat_inj]

@[simp] theorem CaptureId.part_inj {i j : CaptureId} : i.part = j.part ↔ i = j := by
  cases i
  cases j
  simp [CaptureId.part, CaptureId.index, UInt32.toNat_inj]

inductive Part where
  | pattern (source : String)
  | rule (rule : Rule)
  | list (items : List ListItem)
  | capture (capture : Capture)
  | repository (entries : List (String × ListId))

def Part.kind : Part → PartKind
  | pattern _ => .pattern
  | rule _ => .rule
  | list _ => .list
  | capture _ => .capture
  | repository _ => .repository

namespace Grammar

def count (g : Grammar) : PartKind → Nat
  | .pattern => g.patterns.size
  | .rule => g.rules.size
  | .list => g.lists.size
  | .capture => g.captures.size
  | .repository => g.repositories.size

/-- No number was given twice. -/
def Numbered (g : Grammar) : Prop := ∀ k, g.count k ≤ k.limit

instance (g : Grammar) : Decidable g.Numbered :=
  decidable_of_iff (∀ k ∈ [PartKind.pattern, .rule, .list, .capture, .repository],
      g.count k ≤ k.limit) <| by
    constructor
    · intro h k
      exact h k (by cases k <;> decide)
    · intro h k _
      exact h k

def part? (g : Grammar) (n : PartId) : Option Part :=
  match n.kind with
  | .pattern => (g.patterns[n.index]?).map .pattern
  | .rule => (g.rules[n.index]?).map .rule
  | .list => (g.lists[n.index]?).map .list
  | .capture => (g.captures[n.index]?).map .capture
  | .repository => (g.repositories[n.index]?).map .repository

def addPart (g : Grammar) : Part → Grammar
  | .pattern source => { g with patterns := g.patterns.push source }
  | .rule rule => { g with rules := g.rules.push rule }
  | .list items => { g with lists := g.lists.push items }
  | .capture capture => { g with captures := g.captures.push capture }
  | .repository entries => { g with repositories := g.repositories.push entries }

/-- Where the next part of a kind comes. -/
def next (g : Grammar) (k : PartKind) : PartId := ⟨k, g.count k⟩

variable {g : Grammar}

theorem lt_count_of_part? {n : PartId} {p : Part} (h : g.part? n = some p) :
    n.index < g.count n.kind := by
  obtain ⟨k, i⟩ := n
  cases k <;>
  · obtain ⟨x, hx, _⟩ := Option.map_eq_some_iff.1 h
    exact (Array.getElem?_eq_some_iff.1 hx).1

theorem count_addPart (p : Part) (k : PartKind) :
    (g.addPart p).count k = g.count k + if k = p.kind then 1 else 0 := by
  cases p <;> cases k <;> simp [addPart, count, Part.kind]

theorem part?_addPart (p : Part) (n : PartId) :
    (g.addPart p).part? n = if n = g.next p.kind then some p else g.part? n := by
  obtain ⟨k, i⟩ := n
  cases p <;> cases k <;>
    simp only [addPart, part?, Part.kind, next, count, PartId.mk.injEq, reduceCtorEq, true_and,
      false_and, if_false, Array.getElem?_push] <;>
    split <;> rfl

/-- The grammar with other entries of a repository. -/
def withRepository (g : Grammar) (id : RepositoryId) (entries : List (String × ListId)) : Grammar :=
  { g with repositories := g.repositories.setIfInBounds id.index entries }

theorem count_withRepository (id : RepositoryId) (entries : List (String × ListId)) (k : PartKind) :
    (g.withRepository id entries).count k = g.count k := by
  cases k <;> simp [withRepository, count]

theorem part?_withRepository_of_ne {id : RepositoryId} {n : PartId} (h : n ≠ id.part)
    (entries : List (String × ListId)) : (g.withRepository id entries).part? n = g.part? n := by
  obtain ⟨k, i⟩ := n
  cases k <;> try rfl
  have hi : id.index ≠ i := fun hi => h (by rw [RepositoryId.part, hi])
  simp [withRepository, part?, hi]

theorem part?_withRepository_self {id : RepositoryId} (h : id.index < g.count .repository)
    (entries : List (String × ListId)) :
    (g.withRepository id entries).part? id.part = some (.repository entries) := by
  have hi : id.index < g.repositories.size := h
  simp [withRepository, part?, RepositoryId.part, hi]

theorem Numbered.of_count_le {g' : Grammar} (h : g'.Numbered)
    (hle : ∀ k, g.count k ≤ g'.count k) : g.Numbered := fun k => Nat.le_trans (hle k) (h k)

end Grammar

/-! ## Steps that end well -/

def Builder.add (b : Builder) (p : Part) : Builder := { b with grammar := b.grammar.addPart p }

namespace Build

variable {α β : Type} {b c : Builder}

def Gives (m : Build α) (b : Builder) (a : α) (c : Builder) : Prop := m.run b = (.ok a, c)

theorem gives_pure {a a' : α} : Gives (pure a) b a' c ↔ a' = a ∧ c = b := by
  constructor
  · intro h
    cases h
    exact ⟨rfl, rfl⟩
  · rintro ⟨rfl, rfl⟩
    rfl

theorem run_bind (m : Build α) (f : α → Build β) (b : Builder) :
    (m >>= f).run b =
      match m.run b with
      | (.ok a, c) => (f a).run c
      | (.error e, c) => (.error e, c) := by
  show StateT.bind m (ExceptT.bindCont f) b = _
  unfold StateT.bind ExceptT.run
  rcases m b with ⟨e | a, c⟩ <;> rfl

theorem gives_bind {m : Build α} {f : α → Build β} {y : β} {d : Builder} :
    Gives (m >>= f) b y d ↔ ∃ a c, Gives m b a c ∧ Gives (f a) c y d := by
  rw [Gives, run_bind]
  rcases hm : m.run b with ⟨e | a, c⟩
  · constructor
    · intro h
      cases h
    · rintro ⟨a, c, h, _⟩
      rw [Gives, hm] at h
      cases h
  · constructor
    · intro h
      exact ⟨a, c, hm, h⟩
    · rintro ⟨a', c', h, h'⟩
      rw [Gives, hm] at h
      cases h
      exact h'

theorem not_gives_refuse {path : String} {fault : GrammarFault} {a : α} :
    ¬ Gives (refuse path fault) b a c := by
  intro h
  cases h

theorem not_gives_throw {e : Error} {a : α} : ¬ Gives (throw e) b a c := by
  intro h
  cases h

/-- The step adds a part and answers its number. -/
def Adds {ι : Type} (part : ι → PartId) (m : Build ι) (p : Part) : Prop :=
  ∀ b, ∃ id, Gives m b id (b.add p) ∧
    ((b.add p).grammar.Numbered → part id = b.grammar.next p.kind)

theorem Adds.of_gives {ι : Type} {part : ι → PartId} {m : Build ι} {p : Part} {id : ι}
    (h : Adds part m p) (hm : Gives m b id c) :
    c = b.add p ∧ (c.grammar.Numbered → part id = b.grammar.next p.kind) := by
  obtain ⟨id', hgives, hpart⟩ := h b
  rw [Gives, hgives] at hm
  cases hm
  exact ⟨rfl, hpart⟩

theorem count_lt_limit {p : Part} (h : (b.add p).grammar.Numbered) :
    b.grammar.count p.kind < p.kind.limit := by
  have hle := h p.kind
  rw [Builder.add, Grammar.count_addPart, if_pos rfl] at hle
  omega

/-- The step adds a part and answers how many of its kind there were, as far as that fits into a
number. -/
def Pushes {ι : Type} (part : ι → PartId) (m : Build ι) (p : Part) : Prop :=
  ∀ b, ∃ id, Gives m b id (b.add p) ∧
    part id = ⟨p.kind, b.grammar.count p.kind % p.kind.limit⟩

theorem Pushes.adds {ι : Type} {part : ι → PartId} {m : Build ι} {p : Part}
    (h : Pushes part m p) : Adds part m p := by
  intro b
  obtain ⟨id, hgives, hpart⟩ := h b
  refine ⟨id, hgives, fun hn => ?_⟩
  rw [hpart, Nat.mod_eq_of_lt (count_lt_limit hn)]
  rfl

theorem Pushes.of_gives {ι : Type} {part : ι → PartId} {m : Build ι} {p : Part} {id : ι}
    (h : Pushes part m p) (hm : Gives m b id c) :
    c = b.add p ∧ part id = ⟨p.kind, b.grammar.count p.kind % p.kind.limit⟩ := by
  obtain ⟨id', hgives, hpart⟩ := h b
  rw [Gives, hgives] at hm
  cases hm
  exact ⟨rfl, hpart⟩

theorem addPattern_pushes (source : String) :
    Pushes PatternId.part (addPattern source) (.pattern source) := fun _ => ⟨_, rfl, rfl⟩

theorem addRule_pushes (rule : Rule) : Pushes RuleId.part (addRule rule) (.rule rule) :=
  fun _ => ⟨_, rfl, rfl⟩

theorem addList_pushes (items : List ListItem) :
    Pushes ListId.part (addList items) (.list items) := fun _ => ⟨_, rfl, rfl⟩

theorem addCapture_pushes (capture : Capture) :
    Pushes CaptureId.part (addCapture capture) (.capture capture) := fun _ => ⟨_, rfl, rfl⟩

theorem addRepository_pushes : Pushes RepositoryId.part addRepository (.repository []) :=
  fun _ => ⟨_, rfl, rfl⟩

theorem addPattern_adds (source : String) :
    Adds PatternId.part (addPattern source) (.pattern source) := (addPattern_pushes source).adds

theorem addRule_adds (rule : Rule) : Adds RuleId.part (addRule rule) (.rule rule) :=
  (addRule_pushes rule).adds

theorem addList_adds (items : List ListItem) : Adds ListId.part (addList items) (.list items) :=
  (addList_pushes items).adds

theorem addCapture_adds (capture : Capture) :
    Adds CaptureId.part (addCapture capture) (.capture capture) := (addCapture_pushes capture).adds

theorem addRepository_adds : Adds RepositoryId.part addRepository (.repository []) :=
  addRepository_pushes.adds

end Build

end ScopeGrammar
