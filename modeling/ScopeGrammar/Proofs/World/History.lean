import ScopeGrammar.Proofs.World.Walk

/-!
# ScopeGrammar.Proofs.World.History

The worlds there can be.

* `World.Use` is one use of a registry while its grammars stay: a situation is resolved, a tokenizer
  started, a line tokenized.
* `World.Reachable` worlds come from an empty registry by uses and by adding grammars. A tokenizer
  does not outlive a change of the grammars; a state does.
* `World.Own` states come from lines tokenized since the grammars changed last.
* `World.after_within` : tokenizing a line is a number of moves.
* `World.Reachable.grammar?` : the grammar of a tokenizer is there.
-/

namespace ScopeGrammar

variable {P : Type} {engine : Engine P}

namespace World

def initial : World P := ⟨.empty, [], [.fresh]⟩

def add (w : World P) (g : Grammar) : World P := ⟨(w.registry.add g).2, [], w.states⟩

def session (w : World P) (t : Tokenizer P) : Session P := ⟨w.registry, t, []⟩

def started (w : World P) (base : GrammarId) (options : SessionOptions) : World P :=
  let r : (Tokenizer P × List Notice) × Registry := Tokenizer.start w.registry base options
  ⟨r.2, r.1.1 :: w.tokenizers, w.states⟩

def after (w : World P) (r : TokenizedLine × Session P) : World P :=
  ⟨r.2.registry, r.2.tokenizer :: w.tokenizers, r.1.state :: w.states⟩

/-- One use of a registry whose grammars stay. -/
inductive Use (engine : Engine P) (w : World P) : World P → Prop
  | resolve (situation : Situation) : Use engine w (w.withRegistry (w.registry.resolve situation).2)
  | start {scopeName : String} {base : GrammarId} (options : SessionOptions) :
      w.registry.id? scopeName = some base →
      Use engine w (w.started base options)
  | line {t : Tokenizer P} {state : OpenSpans} (line : String) : t ∈ w.tokenizers →
      state ∈ w.states →
      Use engine w (w.after ((SessionM.tokenizeLine engine line state).run (w.session t)))

abbrev Uses (engine : Engine P) : World P → World P → Prop := Relation.ReflTransGen (Use engine)

/-- The worlds there can be. -/
inductive Reachable (engine : Engine P) : World P → Prop
  | initial : Reachable engine initial
  | add {w : World P} (g : Grammar) : Reachable engine w → Reachable engine (w.add g)
  | use {w w' : World P} : Reachable engine w → Use engine w w' → Reachable engine w'

theorem session_at {w : World P} {t : Tokenizer P} {state : OpenSpans} (ht : t ∈ w.tokenizers)
    (hstate : state ∈ w.states) : w.At (w.session t) state := ⟨rfl, ht, hstate⟩

theorem mem_started (w : World P) (base : GrammarId) (options : SessionOptions) :
    (Tokenizer.start w.registry base options).1.1 ∈ (w.started base options).tokenizers := .head _

theorem after_at (w : World P) (r : TokenizedLine × Session P) : (w.after r).At r.2 r.1.state :=
  ⟨rfl, .head _, .head _⟩

/-- Tokenizing a line is a number of moves, which may leave more behind than the line does. -/
theorem after_within (engine : Engine P) {w : World P} {s : Session P} {state : OpenSpans}
    (hat : w.At s state) (line : String) :
    ∃ w', Moves engine w w' ∧
      (w.after ((SessionM.tokenizeLine engine line state).run s)).Within w' := by
  have hleads : Leads engine s state _ _ := SessionM.tokenizeLine_leads line state s
  obtain ⟨w', hmoves, hat'⟩ := hleads.moves w hat
  have hextends := Moves.extends hmoves
  refine ⟨w', hmoves, hat'.registry, ?_, ?_⟩
  · exact List.cons_subset.2 ⟨hat'.tokenizer, hextends.tokenizers⟩
  · exact List.cons_subset.2 ⟨hat'.spans, hextends.states⟩

theorem Within.extends {w w' w'' : World P} (h : w.Extends w'') (hw : w'.Within w'')
    (htokenizers : w.tokenizers ⊆ w'.tokenizers) (hstates : w.states ⊆ w'.states) :
    w.Extends w' :=
  ⟨hw.registry ▸ h.grammars, hw.registry ▸ h.made, htokenizers, hstates⟩

theorem after_extends (engine : Engine P) {w : World P} {s : Session P} {state : OpenSpans}
    (hat : w.At s state) (line : String) :
    w.Extends (w.after ((SessionM.tokenizeLine engine line state).run s)) := by
  obtain ⟨w', hmoves, hwithin⟩ := after_within engine hat line
  exact hwithin.extends (Moves.extends hmoves) (List.subset_cons_self ..) (List.subset_cons_self ..)

theorem Use.extends {w w' : World P} (h : Use engine w w') : w.Extends w' := by
  cases h with
  | resolve situation => exact .withRegistry ..
  | start options hid => exact (Extends.withRegistry w (.root _)).trans (.withTokenizer ..)
  | line line ht hstate =>
    exact after_extends engine (session_at ht hstate) line

theorem Uses.extends {w w' : World P} (h : Uses engine w w') : w.Extends w' := by
  induction h with
  | refl => exact .refl _
  | tail _ huse ih => exact ih.trans huse.extends

theorem Reachable.uses {w w' : World P} (h : Reachable engine w) (h' : Uses engine w w') :
    Reachable engine w' := by
  induction h' with
  | refl => exact h
  | tail _ huse ih => exact .use ih huse

theorem Reachable.fresh_mem {w : World P} (h : w.Reachable engine) : .fresh ∈ w.states := by
  induction h with
  | initial => exact .head _
  | add g _ ih => exact ih
  | use _ huse ih => exact huse.extends.states ih

/-- The states that lines lead to since a grammar was added last, from the fresh one on. The lines
may be tokenized by any tokenizers, and other uses of the registry may come between them. -/
inductive Own (engine : Engine P) : World P → OpenSpans → Prop
  | fresh {w : World P} : w.Reachable engine → Own engine w .fresh
  | line {w : World P} {state : OpenSpans} {t : Tokenizer P} (line : String) :
      Own engine w state → t ∈ w.tokenizers →
      Own engine (w.after ((SessionM.tokenizeLine engine line state).run (w.session t)))
        ((SessionM.tokenizeLine engine line state).run (w.session t)).1.state
  | use {w w' : World P} {state : OpenSpans} : Own engine w state → Use engine w w' →
      Own engine w' state

namespace Own

variable {w : World P} {state : OpenSpans}

theorem mem (h : w.Own engine state) : state ∈ w.states := by
  induction h with
  | fresh h => exact h.fresh_mem
  | line line _ ht ih => exact .head _
  | use _ huse ih => exact huse.extends.states ih

theorem reachable (h : w.Own engine state) : w.Reachable engine := by
  induction h with
  | fresh h => exact h
  | line line hown ht ih => exact ih.use (.line line ht hown.mem)
  | use _ huse ih => exact ih.use huse

theorem after (h : w.Own engine state) {t : Tokenizer P} (ht : t ∈ w.tokenizers) {line : String}
    {r : TokenizedLine × Session P}
    (hr : (SessionM.tokenizeLine engine line state).run (w.session t) = r) :
    (w.after r).Own engine r.1.state := hr ▸ .line line h ht

end Own

/-! ## Grammars of tokenizers -/

/-- The grammars that scope names and tokenizers stand for are there. -/
structure Founded (w : World P) : Prop where
  ids : ∀ entry ∈ w.registry.ids, entry.2.index < w.registry.grammars.size
  bases : ∀ t ∈ w.tokenizers, t.base.index < w.registry.grammars.size

namespace Founded

variable {w w' : World P}

theorem of_id? (h : w.Founded) {scopeName : String} {id : GrammarId}
    (hid : w.registry.id? scopeName = some id) : id.index < w.registry.grammars.size := by
  obtain ⟨before, behind, hids, _⟩ := List.lookup_eq_some_iff.1 hid
  exact h.ids (scopeName, id) (by simp [hids])

theorem add (h : w.Founded) (g : Grammar) : (w.add g).Founded := by
  refine ⟨?_, fun t ht => (List.not_mem_nil ht).elim⟩
  show ∀ entry ∈ (w.registry.add g).2.ids, entry.2.index < (w.registry.add g).2.grammars.size
  unfold Registry.add
  cases hid : w.registry.id? g.scopeName with
  | some id => simpa using h.ids
  | none =>
    intro entry hentry
    simp only [List.mem_append, List.mem_singleton] at hentry
    rcases hentry with hentry | rfl
    · have := h.ids entry hentry
      simp only [Array.size_push]
      omega
    · -- a number that comes round is that of an earlier grammar
      simp only [GrammarId.index, Nat.toUInt16, UInt16.toNat_ofNat', Array.size_push]
      have := Nat.mod_le w.registry.grammars.size (2 ^ 16)
      omega

theorem use (h : w.Founded) (huse : Use engine w w') : w'.Founded := by
  have hsame := huse.extends.grammars
  refine ⟨by rw [hsame.ids, hsame.grammars]; exact h.ids, ?_⟩
  rw [hsame.grammars]
  cases huse with
  | resolve situation => exact h.bases
  | start options hid => exact List.forall_mem_cons.2 ⟨h.of_id? hid, h.bases⟩
  | @line t state line ht hstate =>
    have hleads : Leads engine (w.session t) state _ _ := SessionM.tokenizeLine_leads line ..
    refine List.forall_mem_cons.2 ⟨?_, h.bases⟩
    rw [hleads.sameStart.base]
    exact h.bases t ht

end Founded

theorem Reachable.founded {w : World P} (h : w.Reachable engine) : w.Founded := by
  induction h with
  | initial => exact ⟨fun _ h => (List.not_mem_nil h).elim, fun _ h => (List.not_mem_nil h).elim⟩
  | add g _ ih => exact ih.add g
  | use _ huse ih => exact ih.use huse

theorem Reachable.grammar? {w : World P} (h : w.Reachable engine) {t : Tokenizer P}
    (ht : t ∈ w.tokenizers) : ∃ g, w.registry.grammar? t.base = some g :=
  ⟨_, Array.getElem?_eq_getElem (h.founded.bases t ht)⟩

end World

/-! ## Spans nested in each other -/

/-- A pattern is a character and matches that character. -/
def oneCharacter : Engine Char where
  compile _ source :=
    match source.toList with
    | [c] => .ok c
    | _ => .error .badArgument
  attempt c t _ pos :=
    if t.get? pos = some c then some ⟨pos, pos + 1, [some (pos, pos + 1)]⟩ else none

/-- A grammar of two spans, from `a` to `b` and from `c` to `d`, with both of them in each. -/
def nestedSpans : Grammar :=
  let span (opening close : UInt32) : Rule := .span
    { scopes := [], contentScopes := [], opening := ⟨opening⟩, openingCaptures := .empty
      close := .atEnd ⟨close⟩ .empty false, fillsEnding := false, patterns := ⟨0⟩ }
  { name := "", scopeName := "s", scope := ⟨"s"⟩, fileTypes := [], patterns := #["a", "b", "c", "d"]
    rules := #[span 0 1, span 2 3], lists := #[[.rule ⟨0⟩, .rule ⟨1⟩]]
    captures := #[], repositories := #[], root := ⟨0⟩, skipped := [] }

def nestedSpansWorld : World Char := (World.initial.add nestedSpans).started ⟨0⟩ {}

def nestedSpansTokenizer : Tokenizer Char :=
  (Tokenizer.start (Registry.empty.add nestedSpans).2 ⟨0⟩ {}).1.1

theorem nestedSpansWorld_reachable : nestedSpansWorld.Reachable oneCharacter := by
  have hid : (World.initial.add nestedSpans : World Char).registry.id? "s" = some ⟨0⟩ := rfl
  exact .use (.add nestedSpans .initial) (.start {} hid)

end ScopeGrammar
