import ScopeGrammar.Proofs.Registry.InStep
import ScopeGrammar.Session.Line

/-!
# ScopeGrammar.Proofs.Session.Paired

States and tokenizers that are the same but for numbers, over registries that are alike.

* `Pairing.SpansPaired`, `Pairing.TokenizedPaired` : what a line leads to.
* `Pairing.TokenizerPaired` : tokenizers, with all they keep.
* `Registry.Alike.effect?` : candidates that stand for each other have effects that do so.
-/

namespace ScopeGrammar

variable {P : Type} {ρ : Pairing}

/-! ## States that are the same but for numbers -/

namespace Pairing

inductive HoldPaired (ρ : Pairing) : Hold → Hold → Prop
  | untilEnd {a a' : RuleRef} {source : String} :
    ρ.Rules a a' → HoldPaired ρ (.untilEnd a source) (.untilEnd a' source)
  | whileMatched {a a' : RuleRef} {source : String} :
    ρ.Rules a a' → HoldPaired ρ (.whileMatched a source) (.whileMatched a' source)
  | capture : HoldPaired ρ .capture .capture

structure FramePaired (ρ : Pairing) (f f' : Frame) : Prop where
  depth : f.depth = f'.depth
  hold : ρ.HoldPaired f.hold f'.hold
  nameScopes : f.nameScopes = f'.nameScopes
  contentScopes : f.contentScopes = f'.contentScopes
  capturedLineEnd : f.capturedLineEnd = f'.capturedLineEnd
  context : ρ.ContextPaired f.context f'.context
  ends : f.ends = f'.ends

structure SpansPaired (ρ : Pairing) (a a' : OpenSpans) : Prop where
  frames : List.Forall₂ ρ.FramePaired a.frames a'.frames
  started : a.started = a'.started

structure LinePaired (ρ : Pairing) (l l' : LineState) : Prop where
  spans : ρ.SpansPaired l.spans l'.spans
  cursor : l.cursor = l'.cursor
  cover : l.cover = l'.cover

/-- The same tokens, and states that are the same but for numbers. -/
structure TokenizedPaired (ρ : Pairing) (l l' : TokenizedLine) : Prop where
  tokens : l.tokens = l'.tokens
  state : ρ.SpansPaired l.state l'.state

theorem tokens_eq {l l' : List TokenizedLine} (h : List.Forall₂ ρ.TokenizedPaired l l') :
    l.map (·.tokens) = l'.map (·.tokens) := by
  have htokens : List.Forall₂ Eq (l.map (·.tokens)) (l'.map (·.tokens)) :=
    List.rel_map (fun _ _ hl => hl.tokens) h
  rwa [List.forall₂_eq_eq_eq] at htokens

def KeyPaired (ρ : Pairing) (k k' : ContextId × Anchoring) : Prop :=
  k'.1.val = k.1.val + ρ.shift ∧ k.2 = k'.2

structure TokenizerPaired (ρ : Pairing) (t t' : Tokenizer P) : Prop where
  base : ρ.base t.base t'.base
  rootScopes : t.rootScopes = t'.rootScopes
  options : t.options = t'.options
  rootContext : ρ.ContextPaired t.rootContext t'.rootContext
  groups : List.Forall₂ (fun e e' => ρ.KeyPaired e.1 e'.1 ∧ e.2 = e'.2) t.groups t'.groups
  singles : t.singles = t'.singles

theorem SpansPaired.fresh : ρ.SpansPaired .fresh .fresh := ⟨.nil, rfl⟩

namespace SpansPaired

variable {a a' : OpenSpans}

theorem withFrames (h : ρ.SpansPaired a a') {l l' : List Frame}
    (hframes : List.Forall₂ ρ.FramePaired l l') :
    ρ.SpansPaired (a.withFrames l) (a'.withFrames l') := ⟨hframes, h.started⟩

theorem push (h : ρ.SpansPaired a a') {f f' : Frame} (hf : ρ.FramePaired f f') :
    ρ.SpansPaired (a.push f) (a'.push f') := ⟨.cons hf h.frames, h.started⟩

theorem start (h : ρ.SpansPaired a a') : ρ.SpansPaired a.start a'.start := ⟨h.frames, rfl⟩

theorem top? (h : ρ.SpansPaired a a') : Option.Rel ρ.FramePaired a.top? a'.top? := by
  have hframes := h.frames
  rw [OpenSpans.top?, OpenSpans.top?]
  generalize a.frames = l at hframes
  generalize a'.frames = l' at hframes
  cases hframes with
  | nil => exact .none
  | cons hf _ => exact .some hf

/-- What is read off the innermost frame is the same. -/
theorem top?_map {α : Type} (h : ρ.SpansPaired a a') {f : Frame → α}
    (hf : ∀ x y, ρ.FramePaired x y → f x = f y) : a.top?.map f = a'.top?.map f :=
  map_eq_of_optionRel h.top? hf

theorem depth (h : ρ.SpansPaired a a') : a.depth = a'.depth := by
  rw [OpenSpans.depth, OpenSpans.depth, h.top?_map fun _ _ hf => hf.depth]

end SpansPaired

theorem keys_unique (ρ : Pairing) : Relator.BiUnique ρ.KeyPaired := by
  constructor
  · rintro ⟨⟨i⟩, a⟩ ⟨⟨j⟩, b⟩ ⟨⟨k⟩, c⟩ ⟨hi, ha⟩ ⟨hj, hb⟩
    cases ha.trans hb.symm
    cases (UInt32.add_left_inj ρ.shift).1 (hi.symm.trans hj)
    rfl
  · rintro ⟨⟨i⟩, a⟩ ⟨⟨j⟩, b⟩ ⟨⟨k⟩, c⟩ ⟨hj, hb⟩ ⟨hk, hc⟩
    cases hb.symm.trans hc
    cases hj.trans hk.symm
    rfl

namespace TokenizerPaired

variable {t t' : Tokenizer P} {a a' : OpenSpans}

theorem addGroup (h : ρ.TokenizerPaired t t') {k k' : ContextId × Anchoring}
    (hk : ρ.KeyPaired k k') (g : ContextGroup P) :
    ρ.TokenizerPaired (t.addGroup k g) (t'.addGroup k' g) := by
  refine ⟨h.base, h.rootScopes, h.options, h.rootContext, .cons ⟨hk, rfl⟩ ?_, h.singles⟩
  rw [h.groups.length_eq]
  split
  · exact h.groups
  · exact .nil

theorem addSingle (h : ρ.TokenizerPaired t t') (source : String) (p : Option P) :
    ρ.TokenizerPaired (t.addSingle source p) (t'.addSingle source p) := by
  refine ⟨h.base, h.rootScopes, h.options, h.rootContext, h.groups, ?_⟩
  rw [Tokenizer.addSingle, Tokenizer.addSingle, h.singles]

theorem scopesOf (h : ρ.TokenizerPaired t t') (hs : ρ.SpansPaired a a') :
    t.scopesOf a = t'.scopesOf a' := by
  rw [Tokenizer.scopesOf, Tokenizer.scopesOf, OpenSpans.scopesOver, OpenSpans.scopesOver,
    h.rootScopes, hs.top?_map fun _ _ hf => hf.contentScopes]

theorem contextOf (h : ρ.TokenizerPaired t t') (hs : ρ.SpansPaired a a') :
    ρ.ContextPaired (t.contextOf a) (t'.contextOf a') := by
  have htop := hs.top?
  rw [Tokenizer.contextOf, Tokenizer.contextOf]
  generalize a.top? = top at htop
  generalize a'.top? = top' at htop
  cases htop with
  | none => exact h.rootContext
  | some hf => exact hf.context

end TokenizerPaired

end Pairing

/-! ## Effects -/

inductive Pairing.EffectPaired (ρ : Pairing) : Effect → Effect → Prop
  | closing {target target' : Frame} {outer outer' : List Frame} {a a' : RuleRef}
      {span span' : SpanRule} :
      ρ.FramePaired target target' → List.Forall₂ ρ.FramePaired outer outer' → ρ.Rules a a' →
      span.Linked (ρ.links a.grammar a'.grammar) span' →
      EffectPaired ρ (.closing target outer a span) (.closing target' outer' a' span')
  | single {a a' : RuleRef} {single single' : MatchRule} :
      ρ.Rules a a' → single.Linked (ρ.links a.grammar a'.grammar) single' →
      EffectPaired ρ (.single a single) (.single a' single')
  | opening {a a' : RuleRef} {g g' : Grammar} {span span' : SpanRule} :
      ρ.Rules a a' → g.pattern span.closePattern = g'.pattern span'.closePattern →
      span.Linked (ρ.links a.grammar a'.grammar) span' →
      EffectPaired ρ (.opening a g span) (.opening a' g' span')

/-- Candidates that stand for each other have such effects on such frames, or none on both. -/
theorem Registry.Alike.effect? {r r' : Registry} (h : Registry.Alike ρ r r')
    {frames frames' : List Frame} (hframes : List.Forall₂ ρ.FramePaired frames frames')
    {c c' : Option Candidate} (hc : Option.Rel ρ.CandidatePaired c c') :
    Option.Rel ρ.EffectPaired (r.effect? frames c) (r'.effect? frames' c') := by
  cases hc with
  | none => exact .none
  | some hc =>
    cases hc with
    | closing distance =>
      have hdrop := List.forall₂_drop distance hframes
      rw [Registry.effect?, Registry.effect?]
      generalize frames.drop distance = dropped at hdrop
      generalize frames'.drop distance = dropped' at hdrop
      cases hdrop with
      | nil => exact .none
      | @cons target target' _ _ htarget houter =>
        have hhold := htarget.hold
        dsimp only
        generalize target.hold = hold at hhold
        generalize target'.hold = hold' at hhold
        cases hhold with
        | @untilEnd a a' source ha =>
          have hspan := h.span? ha
          dsimp only
          generalize r.span? a = span at hspan
          generalize r'.span? a' = span' at hspan
          cases hspan with
          | none => exact .none
          | some hlinked => exact .some (.closing htarget houter ha hlinked)
        | whileMatched _ => exact .none
        | capture => exact .none
    | @rule a a' ha =>
      obtain ⟨g, g', hg, hg', hrule⟩ := h.rule? ha
      rw [Registry.effect?, Registry.effect?, hg, hg']
      dsimp only
      generalize g.rule? a.rule = rule at hrule
      generalize g'.rule? a'.rule = rule' at hrule
      cases hrule with
      | none => exact .none
      | some hlinked =>
        cases hlinked with
        | single hm => exact .some (.single ha hm)
        | span hs => exact .some (.opening ha (h.pattern hs.closePattern hg hg') hs)

namespace Pairing.EffectPaired

variable {e e' : Effect}

theorem scopes (h : ρ.EffectPaired e e') (plain : List Scope) :
    e.scopes plain = e'.scopes plain := by
  cases h with
  | closing htarget _ _ _ => exact htarget.nameScopes
  | single _ hm => exact congrArg (plain ++ ·) hm.scopes
  | opening _ _ hs => exact congrArg (plain ++ ·) hs.scopes

theorem spans (h : ρ.EffectPaired e e') {a a' : OpenSpans} (ha : ρ.SpansPaired a a') :
    ρ.SpansPaired (e.spans a) (e'.spans a') := by
  cases h with
  | closing htarget houter _ _ => exact ha.withFrames (.cons htarget houter)
  | single _ _ => exact ha
  | opening _ _ _ => exact ha

/-- The captures of the effects are of rules that stand for each other. -/
theorem captures (h : ρ.EffectPaired e e') :
    ∃ a a', ρ.Rules a a' ∧ e.grammarId = a.grammar ∧ e'.grammarId = a'.grammar ∧
      e.captures.Linked (ρ.links a.grammar a'.grammar) e'.captures := by
  cases h with
  | closing _ _ ha hs => exact ⟨_, _, ha, rfl, rfl, hs.closeCaptures⟩
  | single ha hm => exact ⟨_, _, ha, rfl, rfl, hm.captures⟩
  | opening ha _ hs => exact ⟨_, _, ha, rfl, rfl, hs.openingCaptures⟩

end Pairing.EffectPaired

end ScopeGrammar
