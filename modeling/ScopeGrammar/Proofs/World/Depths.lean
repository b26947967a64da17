import ScopeGrammar.Proofs.World.History

/-!
# ScopeGrammar.Proofs.World.Depths

The depth that a frame is opened with, against the frames around it.

* `Counted` frames have the numbers 1, 2 and so on from the outermost one inwards.
* Every move keeps all states so (`World.Move.counted`), and with it every step of a session
  (`Leads.counted`): a new frame gets the number after that of the innermost one, and closing leaves
  the frames further out with the numbers they have.
* `World.Own.counted` : so they are in every state that lines lead to.
-/

namespace ScopeGrammar

variable {P : Type} {engine : Engine P}

inductive Counted : List Frame → Prop
  | nil : Counted []
  | cons {f : Frame} {outer : List Frame} : f.depth = outer.length + 1 → Counted outer →
      Counted (f :: outer)

namespace Counted

variable {f : Frame} {frames outer : List Frame}

theorem of_suffix (h : Counted frames) (hsuffix : outer <:+ frames) : Counted outer := by
  induction h with
  | nil => exact List.suffix_nil.1 hsuffix ▸ .nil
  | cons hdepth h ih =>
    obtain rfl | hsuffix := List.suffix_cons_iff.1 hsuffix
    · exact .cons hdepth h
    · exact ih hsuffix

theorem depth_eq (h : Counted frames) (hsuffix : f :: outer <:+ frames) :
    f.depth = outer.length + 1 := by
  cases h.of_suffix hsuffix with
  | cons hdepth _ => exact hdepth

/-- The depth of a state is how many frames are open. -/
theorem depth_spans {spans : OpenSpans} (h : Counted spans.frames) :
    spans.depth = spans.frames.length := by
  rw [OpenSpans.depth, OpenSpans.top?]
  cases hframes : spans.frames with
  | nil => rfl
  | cons f outer => exact h.depth_eq (hframes ▸ List.suffix_rfl)

theorem push {spans : OpenSpans} (h : Counted spans.frames) (hf : f.depth = spans.depth + 1) :
    Counted (spans.push f).frames :=
  .cons (h.depth_spans ▸ hf) h

end Counted

theorem World.Move.counted {w w' : World P} (h : Move engine w w')
    (hw : ∀ spans ∈ w.states, Counted spans.frames) :
    ∀ spans ∈ w'.states, Counted spans.frames := by
  cases h with
  | group anchors ht hspans => exact hw
  | single source ht => exact hw
  | @close spans n hspans =>
    exact List.forall_mem_cons.2 ⟨(hw spans hspans).of_suffix (List.drop_suffix ..), hw⟩
  | @start spans hspans => exact List.forall_mem_cons.2 ⟨hw spans hspans, hw⟩
  | @span t spans rule span source atEnd ht hspans hopens =>
    exact List.forall_mem_cons.2 ⟨(hw spans hspans).push rfl, hw⟩
  | @capture t spans grammarId grammar id capture scopes ht hspans hgrammar hcapture =>
    exact List.forall_mem_cons.2 ⟨(hw spans hspans).push rfl, hw⟩

theorem Leads.counted {s s' : Session P} {a b : OpenSpans} (h : Leads engine s a s' b)
    (ha : Counted a.frames) : Counted b.frames := by
  obtain ⟨w', hmoves, hat⟩ := h.moves _ (alone_at s a)
  have hstates : ∀ spans ∈ w'.states, Counted spans.frames :=
    World.Moves.preserves (fun w => ∀ spans ∈ w.states, Counted spans.frames) hmoves
      World.Move.counted (List.forall_mem_singleton.2 ha)
  exact hstates b hat.spans

theorem World.Own.counted {w : World P} {state : OpenSpans} (h : w.Own engine state) :
    Counted state.frames := by
  induction h with
  | fresh _ => exact .nil
  | line line _ _ ih => exact (SessionM.tokenizeLine_leads line _ _).counted ih
  | use _ _ ih => exact ih

end ScopeGrammar
