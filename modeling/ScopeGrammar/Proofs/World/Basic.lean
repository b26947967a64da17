import Mathlib.Logic.Relation
import ScopeGrammar.Proofs.Context.Resolve
import ScopeGrammar.Proofs.Session.Run

/-!
# ScopeGrammar.Proofs.World.Basic

A registry with all tokenizers and all states there have been.

* `World` is that. Nothing is ever taken out of it, so a tokenizer or a state may be used again.
* `World.Move` is the least that a session does to it: a group or a pattern is kept, frames are
  closed, a frame is opened. What every move preserves, every step of a session preserves.
* `World.At` tells that a session with some open frames is in the world.
* `World.Within` compares worlds by what they hold.
-/

namespace ScopeGrammar

variable {P : Type}

structure World (P : Type) where
  registry : Registry
  tokenizers : List (Tokenizer P)
  states : List OpenSpans

namespace World

def withRegistry (w : World P) (registry : Registry) : World P := { w with registry }

def withTokenizer (w : World P) (t : Tokenizer P) : World P :=
  { w with tokenizers := t :: w.tokenizers }

def withState (w : World P) (spans : OpenSpans) : World P := { w with states := spans :: w.states }

def opening (w : World P) (situation : Situation) (spans : OpenSpans) (frame : Context → Frame) :
    World P :=
  { w with
    registry := (w.registry.resolve situation).2
    states := spans.push (frame (w.registry.resolve situation).1.1) :: w.states }

/-- A session with some open frames is in the world. -/
structure At (w : World P) (s : Session P) (spans : OpenSpans) : Prop where
  registry : s.registry = w.registry
  tokenizer : s.tokenizer ∈ w.tokenizers
  spans : spans ∈ w.states

/-- All that is in a world is in another one too. -/
structure Within (w w' : World P) : Prop where
  registry : w.registry = w'.registry
  tokenizers : w.tokenizers ⊆ w'.tokenizers
  states : w.states ⊆ w'.states

/-- The span of a rule, with its closing pattern as it is after some match. -/
structure Opens (r : Registry) (rule : RuleRef) (span : SpanRule) (source : String) : Prop where
  found : r.span? rule = some span
  closing : ∃ grammar text m, r.grammar? rule.grammar = some grammar ∧
    source = closingSource grammar span text m

/-- One thing that a session does. -/
inductive Move (engine : Engine P) (w : World P) : World P → Prop
  | group {t : Tokenizer P} {spans : OpenSpans} (anchors : Anchoring) : t ∈ w.tokenizers →
      spans ∈ w.states →
      Move engine w (w.withTokenizer (t.addGroup ((t.contextOf spans).id, anchors)
        (ContextGroup.build engine (t.contextOf spans) anchors).1))
  | single {t : Tokenizer P} (source : String) : t ∈ w.tokenizers →
      Move engine w (w.withTokenizer (t.addSingle source (engine.compile {} source).toOption))
  | close {spans : OpenSpans} (n : Nat) : spans ∈ w.states →
      Move engine w (w.withState (spans.withFrames (spans.frames.drop n)))
  | start {spans : OpenSpans} : spans ∈ w.states → Move engine w (w.withState spans.start)
  | span {t : Tokenizer P} {spans : OpenSpans} {rule : RuleRef} {span : SpanRule}
      {source : String} (atEnd : Bool) : t ∈ w.tokenizers → spans ∈ w.states →
      Opens w.registry rule span source →
      Move engine w (w.opening (spanSituation t.options t.base rule span source spans) spans
        fun context => spanFrame (spans.depth + 1) rule span source (t.scopesOf spans) atEnd context
          (spanSituation t.options t.base rule span source spans).ends)
  | capture {t : Tokenizer P} {spans : OpenSpans} {grammarId : GrammarId} {grammar : Grammar}
      {id : CaptureId} {capture : Capture} (scopes : List Scope) : t ∈ w.tokenizers →
      spans ∈ w.states → w.registry.grammar? grammarId = some grammar →
      grammar.capture? id = some capture →
      Move engine w (w.opening (.capture t.base grammarId id) spans
        (captureFrame (spans.depth + 1) scopes))

abbrev Moves (engine : Engine P) : World P → World P → Prop := Relation.ReflTransGen (Move engine)

end World

/-- The tokenizers differ at most in what they keep. -/
structure Tokenizer.SameStart (t t' : Tokenizer P) : Prop where
  base : t'.base = t.base
  options : t'.options = t.options
  rootScopes : t'.rootScopes = t.rootScopes
  rootContext : t'.rootContext = t.rootContext

namespace Tokenizer.SameStart

theorem refl (t : Tokenizer P) : t.SameStart t := ⟨rfl, rfl, rfl, rfl⟩

theorem addGroup (t : Tokenizer P) (key : ContextId × Anchoring) (g : ContextGroup P) :
    t.SameStart (t.addGroup key g) := ⟨rfl, rfl, rfl, rfl⟩

theorem addSingle (t : Tokenizer P) (source : String) (p : Option P) :
    t.SameStart (t.addSingle source p) := ⟨rfl, rfl, rfl, rfl⟩

variable {t t' t'' : Tokenizer P}

theorem trans (h : t.SameStart t') (h' : t'.SameStart t'') : t.SameStart t'' :=
  ⟨h'.base.trans h.base, h'.options.trans h.options, h'.rootScopes.trans h.rootScopes,
    h'.rootContext.trans h.rootContext⟩

end Tokenizer.SameStart

namespace World

variable {engine : Engine P} {w w' : World P}

/-! ## What moves leave as it is -/

/-- The grammars stay, and nothing is taken out. -/
structure Extends (w w' : World P) : Prop where
  grammars : w.registry.SameGrammars w'.registry
  made : w.registry.contexts.made ≤ w'.registry.contexts.made
  tokenizers : w.tokenizers ⊆ w'.tokenizers
  states : w.states ⊆ w'.states

namespace Extends

theorem refl (w : World P) : w.Extends w :=
  ⟨.refl _, Nat.le_refl _, List.Subset.refl _, List.Subset.refl _⟩

theorem trans {w'' : World P} (h : w.Extends w') (h' : w'.Extends w'') : w.Extends w'' :=
  ⟨h.grammars.trans h'.grammars, Nat.le_trans h.made h'.made,
    List.Subset.trans h.tokenizers h'.tokenizers, List.Subset.trans h.states h'.states⟩

theorem withRegistry (w : World P) (situation : Situation) :
    w.Extends (w.withRegistry (w.registry.resolve situation).2) :=
  ⟨w.registry.resolve_sameGrammars situation, w.registry.resolve_made situation,
    List.Subset.refl _, List.Subset.refl _⟩

theorem withTokenizer (w : World P) (t : Tokenizer P) : w.Extends (w.withTokenizer t) :=
  ⟨.refl _, Nat.le_refl _, List.subset_cons_self .., List.Subset.refl _⟩

theorem withState (w : World P) (spans : OpenSpans) : w.Extends (w.withState spans) :=
  ⟨.refl _, Nat.le_refl _, List.Subset.refl _, List.subset_cons_self ..⟩

theorem opening (w : World P) (situation : Situation) (spans : OpenSpans)
    (frame : Context → Frame) : w.Extends (w.opening situation spans frame) :=
  ⟨w.registry.resolve_sameGrammars situation, w.registry.resolve_made situation,
    List.Subset.refl _, List.subset_cons_self ..⟩

end Extends

theorem Move.extends (h : Move engine w w') : w.Extends w' := by
  cases h with
  | group anchors ht hspans => exact .withTokenizer ..
  | single source ht => exact .withTokenizer ..
  | close n hspans => exact .withState ..
  | start hspans => exact .withState ..
  | span atEnd ht hspans hopens => exact .opening ..
  | capture scopes ht hspans hgrammar hcapture => exact .opening ..

theorem Moves.extends (h : Moves engine w w') : w.Extends w' := by
  induction h with
  | refl => exact .refl _
  | tail _ hmove ih => exact ih.trans hmove.extends

/-- What holds at the start and is preserved by every move holds in the end. -/
theorem Moves.preserves (Inv : World P → Prop) (h : Moves engine w w')
    (hstep : ∀ {u v}, Move engine u v → Inv u → Inv v) (hstart : Inv w) : Inv w' := by
  induction h with
  | refl => exact hstart
  | tail _ hmove ih => exact hstep hmove ih

/-- No tokenizer is started by a move. -/
theorem Move.sameStart (h : Move engine w w') {t' : Tokenizer P} (ht' : t' ∈ w'.tokenizers) :
    ∃ t ∈ w.tokenizers, t.SameStart t' := by
  cases h with
  | group anchors ht hspans =>
    cases ht' with
    | head => exact ⟨_, ht, .addGroup ..⟩
    | tail _ ht' => exact ⟨t', ht', .refl t'⟩
  | single source ht =>
    cases ht' with
    | head => exact ⟨_, ht, .addSingle ..⟩
    | tail _ ht' => exact ⟨t', ht', .refl t'⟩
  | close n hspans => exact ⟨t', ht', .refl t'⟩
  | start hspans => exact ⟨t', ht', .refl t'⟩
  | span atEnd ht hspans hopens => exact ⟨t', ht', .refl t'⟩
  | capture scopes ht hspans hgrammar hcapture => exact ⟨t', ht', .refl t'⟩

theorem Moves.sameStart (h : Moves engine w w') {t' : Tokenizer P} (ht' : t' ∈ w'.tokenizers) :
    ∃ t ∈ w.tokenizers, t.SameStart t' := by
  induction h generalizing t' with
  | refl => exact ⟨t', ht', .refl t'⟩
  | tail _ hmove ih =>
    obtain ⟨t₁, ht₁, hsame₁⟩ := hmove.sameStart ht'
    obtain ⟨t, ht, hsame⟩ := ih ht₁
    exact ⟨t, ht, hsame.trans hsame₁⟩

end World

end ScopeGrammar
