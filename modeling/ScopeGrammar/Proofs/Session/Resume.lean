import ScopeGrammar.Proofs.Session.Agreement

/-!
# ScopeGrammar.Proofs.Session.Resume

Going on from a state that equals an earlier one.

`==` on states does not look at the ends of a frame, and at contexts only by their numbers. In a
world there can be, the number of a context stands for the situation it was made for, and that has
the ends (`Frame.Listed`). So equal states are the same state (`World.Sound.eq_of_beq`), and lines
tokenized from them, now and later, have the same tokens (`World.Reachable.resume`).
-/

namespace ScopeGrammar

variable {P : Type} {engine : Engine P} {K : Catalog}

theorem Frame.beq_iff {f g : Frame} : (f == g) = true ↔
    f.depth = g.depth ∧ f.hold = g.hold ∧ f.capturedLineEnd = g.capturedLineEnd ∧
      f.context.id = g.context.id ∧ f.nameScopes = g.nameScopes ∧
      f.contentScopes = g.contentScopes := by
  change (f.depth == g.depth && f.hold == g.hold && f.capturedLineEnd == g.capturedLineEnd &&
    f.context.id == g.context.id && f.nameScopes == g.nameScopes &&
    f.contentScopes == g.contentScopes) = true ↔ _
  simp only [Bool.and_eq_true, beq_iff_eq, and_assoc]

theorem OpenSpans.beq_iff {a b : OpenSpans} :
    (a == b) = true ↔ (a.frames == b.frames) = true ∧ a.started = b.started := by
  change (a.frames == b.frames && a.started == b.started) = true ↔ _
  rw [Bool.and_eq_true]
  exact and_congr_right fun _ => beq_iff_eq

/-- What equality leaves out is given by the number of the context. -/
theorem Frame.eq_of_beq (hlength : K.length ≤ 2 ^ 32) {f g : Frame} (hf : f.Listed K)
    (hg : g.Listed K) (h : (f == g) = true) : f = g := by
  obtain ⟨s, hcontext, hends⟩ := hf
  obtain ⟨s', hcontext', hends'⟩ := hg
  obtain ⟨hdepth, hhold, hcaptured, hid, hname, hcontent⟩ := Frame.beq_iff.1 h
  obtain ⟨hsituation, hsame⟩ := hcontext.unique hlength hcontext' hid
  have hendsSame : f.ends = g.ends := by rw [hends, hends', hsituation]
  cases f
  cases g
  rw [Frame.mk.injEq]
  exact ⟨hdepth, hhold, hname, hcontent, hcaptured, hsame, hendsSame⟩

theorem Frame.list_eq_of_beq (hlength : K.length ≤ 2 ^ 32) {l l' : List Frame}
    (hl : ∀ f ∈ l, f.Listed K) (hl' : ∀ f ∈ l', f.Listed K) (h : (l == l') = true) : l = l' := by
  induction l generalizing l' with
  | nil =>
    cases l' with
    | nil => rfl
    | cons g outer => cases h
  | cons f outer ih =>
    cases l' with
    | nil => cases h
    | cons g outer' =>
      rw [List.cons_beq_cons, Bool.and_eq_true] at h
      obtain ⟨hf, houter⟩ := List.forall_mem_cons.1 hl
      obtain ⟨hg, houter'⟩ := List.forall_mem_cons.1 hl'
      rw [eq_of_beq hlength hf hg h.1, ih houter houter' h.2]

/-- In a sound world equal states are the same, so long as no number was given twice. -/
theorem World.Sound.eq_of_beq {w : World P} (hw : w.Sound engine K) (hlength : K.length ≤ 2 ^ 32)
    {a b : OpenSpans} (ha : a ∈ w.states) (hb : b ∈ w.states) (h : (a == b) = true) : a = b := by
  obtain ⟨hframes, hstarted⟩ := OpenSpans.beq_iff.1 h
  have hsame : a.frames = b.frames :=
    Frame.list_eq_of_beq hlength (hw.frames a ha) (hw.frames b hb) hframes
  cases a
  cases b
  cases hsame
  cases hstarted
  rfl

namespace World

/-- Lines tokenized one after the other from a state on, by tokenizers with one base and the same
options. Anything else may be done in between while the grammars stay. -/
inductive Continues (engine : Engine P) (base : GrammarId) (options : SessionOptions) :
    World P → OpenSpans → List String → List TokenizedLine → World P → Prop
  | nil {w : World P} {a : OpenSpans} : Continues engine base options w a [] [] w
  | cons {w u v : World P} {s : Session P} {a : OpenSpans} {line : String} {rest : List String}
      {out : List TokenizedLine} : Uses engine w u → u.At s a → s.tokenizer.base = base →
      s.tokenizer.options = options →
      Continues engine base options (u.after ((SessionM.tokenizeLine engine line a).run s))
        ((SessionM.tokenizeLine engine line a).run s).1.state rest out v →
      Continues engine base options w a (line :: rest)
        (((SessionM.tokenizeLine engine line a).run s).1 :: out) v

variable {w w' v v' : World P} {base : GrammarId} {options : SessionOptions} {a b : OpenSpans}
  {lines : List String} {out out' : List TokenizedLine} {K' : Catalog}

namespace Continues

theorem made_le (h : Continues engine base options w a lines out v) :
    w.registry.contexts.made ≤ v.registry.contexts.made := by
  induction h with
  | nil => exact Nat.le_refl _
  | @cons _ _ _ _ _ line _ _ huses hat _ _ _ ih =>
    exact Nat.le_trans huses.extends.made (Nat.le_trans (after_extends engine hat line).made ih)

/-- With alike states lines go on alike. -/
theorem alike (h : Continues engine base options w a lines out v)
    (h' : Continues engine base options w' b lines out' v') (hw : w.Sound engine K)
    (hw' : w'.Sound engine K') (hgrammars : w.registry.SameGrammars w'.registry) (hab : a.Alike b)
    (hv : v.registry.contexts.made ≤ 2 ^ 32) (hv' : v'.registry.contexts.made ≤ 2 ^ 32) :
    List.Forall₂ TokenizedLine.Alike out out' := by
  induction h generalizing w' b out' K K' with
  | nil => cases h'; exact .nil
  | @cons w u v s a line rest out huses hat hbase hoptions hrest ih =>
    cases h' with
    | @cons _ u' _ s' _ _ _ out' huses' hat' hbase' hoptions' hrest' =>
      obtain ⟨K₁, _, hu⟩ := hw.uses huses
      obtain ⟨K₁', _, hu'⟩ := hw'.uses huses'
      have hbetween : u.registry.SameGrammars u'.registry :=
        (huses.extends.grammars.symm.trans hgrammars).trans huses'.extends.grammars
      have hagree : Session.Agree engine s a s' b :=
        { left := ⟨u, K₁, hu, hat⟩
          right := ⟨u', K₁', hu', hat'⟩
          grammars := by rw [hat.registry, hat'.registry]; exact hbetween
          base := hbase.trans hbase'.symm
          options := hoptions.trans hoptions'.symm
          spans := hab }
      have hline := SessionM.tokenizeLine_agree line hagree (Nat.le_trans hrest.made_le hv)
        (Nat.le_trans hrest'.made_le hv')
      obtain ⟨_, _, hafter⟩ := hu.after hat line
      obtain ⟨_, _, hafter'⟩ := hu'.after hat' line
      have hgrammars' := ((after_extends engine hat line).grammars.symm.trans hbetween).trans
        (after_extends engine hat' line).grammars
      exact .cons hline (ih hrest' hafter hafter' hgrammars' hline.state hv)

/-- Lines without anything in between. -/
theorem tokenizeLines (lines : List String) {s : Session P} (hat : w.At s a) :
    ∃ v, Continues engine s.tokenizer.base s.tokenizer.options w a lines
        ((SessionM.tokenizeLines engine lines a).run s).1 v ∧
      v.registry = ((SessionM.tokenizeLines engine lines a).run s).2.registry := by
  induction lines generalizing w a s with
  | nil => exact ⟨w, .nil, hat.registry.symm⟩
  | cons line rest ih =>
    rw [SessionM.run_tokenizeLines_cons]
    have hleads : Leads engine s a _ _ := SessionM.tokenizeLine_leads line a s
    obtain ⟨v, hrest, hv⟩ := ih (w.after_at ((SessionM.tokenizeLine engine line a).run s))
    rw [hleads.sameStart.base, hleads.sameStart.options] at hrest
    exact ⟨v, .cons .refl hat rfl rfl hrest, hv⟩

end Continues

/-- Equal states lead to the same tokens on all further lines, whatever was done in between, and to
states that differ at most in the numbers of contexts. -/
theorem Reachable.resume (h : w.Reachable engine) (huses : Uses engine w w') (ha : a ∈ w.states)
    (hb : b ∈ w'.states) (hab : (a == b) = true)
    (hlines : Continues engine base options w a lines out v)
    (hlines' : Continues engine base options w' b lines out' v')
    (hv : v.registry.contexts.made ≤ 2 ^ 32) (hv' : v'.registry.contexts.made ≤ 2 ^ 32) :
    List.Forall₂ TokenizedLine.Alike out out' := by
  obtain ⟨K, hsound⟩ := h.sound
  obtain ⟨K', hsound'⟩ := (h.uses huses).sound
  have hlength : K'.length ≤ 2 ^ 32 := by
    rw [← hsound'.registry.made]
    exact Nat.le_trans hlines'.made_le hv'
  have hsame : a = b := hsound'.eq_of_beq hlength (huses.extends.states ha) hb hab
  exact hlines.alike hlines' hsound hsound' huses.extends.grammars (hsame ▸ .refl a) hv hv'

end World

/-- A first line, that leaves a span open. -/
def nestedSpansFirst : TokenizedLine × Session Char :=
  (SessionM.tokenizeLine oneCharacter "a" .fresh).run
    (nestedSpansWorld.session nestedSpansTokenizer)

/-- Another first line, which leaves the same span open. -/
def nestedSpansOther : TokenizedLine × Session Char :=
  (SessionM.tokenizeLine oneCharacter "cda" .fresh).run
    ((nestedSpansWorld.after nestedSpansFirst).session nestedSpansFirst.2.tokenizer)

/-- The lines after `a` are tokenized again after `cda`. -/
theorem resume_after_cda :
    (nestedSpansFirst.1.state == nestedSpansOther.1.state) = true ∧
      List.Forall₂ TokenizedLine.Alike
        ((SessionM.tokenizeLines oneCharacter ["ca", "b", "d"] nestedSpansFirst.1.state).run
          nestedSpansFirst.2).1
        ((SessionM.tokenizeLines oneCharacter ["ca", "b", "d"] nestedSpansOther.1.state).run
          nestedSpansOther.2).1 := by
  have hfirst : (nestedSpansWorld.after nestedSpansFirst).Reachable oneCharacter :=
    .use nestedSpansWorld_reachable (.line "a" (.head _) (.head _))
  have hother : World.Uses oneCharacter (nestedSpansWorld.after nestedSpansFirst)
      ((nestedSpansWorld.after nestedSpansFirst).after nestedSpansOther) :=
    .single (.line "cda" (.head _) (.tail _ (.head _)))
  have hequal : (nestedSpansFirst.1.state == nestedSpansOther.1.state) = true := by decide +kernel
  obtain ⟨v, hlines, hv⟩ := World.Continues.tokenizeLines ["ca", "b", "d"]
    (nestedSpansWorld.after_at nestedSpansFirst)
  obtain ⟨v', hlines', hv'⟩ := World.Continues.tokenizeLines ["ca", "b", "d"]
    ((nestedSpansWorld.after nestedSpansFirst).after_at nestedSpansOther)
  have hbase : nestedSpansOther.2.tokenizer.base = nestedSpansFirst.2.tokenizer.base := by
    decide +kernel
  have hoptions : nestedSpansOther.2.tokenizer.options = nestedSpansFirst.2.tokenizer.options := by
    decide +kernel
  rw [hbase, hoptions] at hlines'
  refine ⟨hequal, hfirst.resume hother (.head _) (.head _) hequal hlines hlines' ?_ ?_⟩
  · rw [hv]; decide +kernel
  · rw [hv']; decide +kernel

end ScopeGrammar
