import ScopeGrammar.Pattern.Regex
import ScopeGrammar.Proofs.Grammar.Sources
import ScopeGrammar.Proofs.Registry.Renumbered

/-!
# ScopeGrammar.Proofs.Grammar.Disabled

Sources with the rules disabled that are left out anyhow.

* `RuleSource.disableRefused`, `GrammarSource.disableRefused` disable the rules that compiling
  leaves out for a refused pattern, and no others.
* `Grammar.skipping_isolated` : that changes nothing but what is noted, as long as all numbers are
  in range.
-/

namespace ScopeGrammar

/-- The rule with the captures and rules in it replaced, as far as a rule of this form is compiled:
the shared captures only where a pattern has none of its own. -/
def RuleSource.replaceInside (r : RuleSource)
    (captures beginCaptures endCaptures whileCaptures : List (String × RuleSource))
    (patterns : List RuleSource) : RuleForm → RuleSource
  | .single _ => { r with captures }
  | .span _ _ isWhile =>
    let closing := if isWhile then r.whileCaptures else r.endCaptures
    { r with
      captures := if r.beginCaptures.isEmpty || closing.isEmpty then captures else r.captures
      beginCaptures
      whileCaptures := if isWhile then whileCaptures else r.whileCaptures
      endCaptures := if isWhile then r.endCaptures else endCaptures
      patterns }
  | .container => { r with patterns }

mutual

/-- Disables a rule that is left out for a refused pattern, and those in it, as far as rules in it
are compiled at all. The repository of a rule is compiled before its patterns are tried. -/
def RuleSource.disableRefused (validate : Validator) : RuleSource → RuleSource
  | r@⟨_, _, matchText, beginText, endText, whileText, captures, beginCaptures, endCaptures,
      whileCaptures, patterns, includeText, repository, _, disabled⟩ =>
    if disabled || includeText.isSome then r
    else
      match RuleForm.of matchText beginText endText whileText with
      | .error _ => r
      | .ok shape =>
        let entered := { r with repository := disableEntries validate repository }
        if (shape.refusal? validate).isSome then { entered with disabled := true }
        else
          entered.replaceInside (disableCaptures validate captures)
            (disableCaptures validate beginCaptures) (disableCaptures validate endCaptures)
            (disableCaptures validate whileCaptures) (disableRules validate patterns) shape

def disableRules (validate : Validator) : List RuleSource → List RuleSource
  | [] => []
  | r :: rest => r.disableRefused validate :: disableRules validate rest

def disableEntries (validate : Validator) :
    List (String × RuleSource) → List (String × RuleSource)
  | [] => []
  | (key, r) :: rest => (key, r.disableRefused validate) :: disableEntries validate rest

/-- Of the rule for a capture only the patterns are compiled. -/
def disableCaptures (validate : Validator) :
    List (String × RuleSource) → List (String × RuleSource)
  | [] => []
  | (key, r@⟨_, _, _, _, _, _, _, _, _, _, patterns, _, _, _, _⟩) :: rest =>
    (key, { r with patterns := disableRules validate patterns }) :: disableCaptures validate rest

end

def GrammarSource.disableRefused (validate : Validator) (s : GrammarSource) : GrammarSource :=
  { s with
    patterns := disableRules validate s.patterns
    repository := disableEntries validate s.repository }

variable (validate : Validator)

/-- The second rule is the first one with what is left out disabled. -/
def RuleSource.Disabled (validate : Validator) (r r' : RuleSource) : Prop :=
  r' = r.disableRefused validate

theorem disableRules_match (rules : List RuleSource) :
    List.Forall₂ (RuleSource.Disabled validate) rules (disableRules validate rules) := by
  induction rules with
  | nil => exact .nil
  | cons r rest ih =>
    rw [disableRules]
    exact .cons rfl ih

theorem disableEntries_match (entries : List (String × RuleSource)) :
    EntriesMatch (RuleSource.Disabled validate) entries (disableEntries validate entries) := by
  induction entries with
  | nil => exact .nil
  | cons e rest ih =>
    rw [disableEntries]
    exact .cons rfl ih

theorem disableCaptures_match (entries : List (String × RuleSource)) :
    CapturesMatch (RuleSource.Disabled validate) entries (disableCaptures validate entries) := by
  induction entries with
  | nil => exact .nil
  | cons e rest ih =>
    obtain ⟨key, r⟩ := e
    cases r
    rw [disableCaptures]
    exact .cons rfl (disableRules_match validate _) ih

theorem isEmpty_disableCaptures (entries : List (String × RuleSource)) :
    (disableCaptures validate entries).isEmpty = entries.isEmpty := by
  cases entries with
  | nil => rfl
  | cons e rest =>
    obtain ⟨key, r⟩ := e
    cases r
    rfl

namespace RuleSource

theorem disableRefused_of_form {r : RuleSource} {shape : RuleForm} (hdisabled : r.disabled = false)
    (hinclude : r.includeText = none) (hshape : r.form = .ok shape) :
    r.disableRefused validate =
      let entered := { r with repository := disableEntries validate r.repository }
      if (shape.refusal? validate).isSome then { entered with disabled := true }
      else
        entered.replaceInside (disableCaptures validate r.captures)
          (disableCaptures validate r.beginCaptures) (disableCaptures validate r.endCaptures)
          (disableCaptures validate r.whileCaptures) (disableRules validate r.patterns) shape := by
  cases r
  simp only at hdisabled hinclude
  subst hdisabled hinclude
  rw [form] at hshape
  dsimp only at hshape
  rw [disableRefused, hshape]
  rfl

theorem disableRefused_of_disabled {r : RuleSource} (h : r.disabled = true) :
    r.disableRefused validate = r := by
  cases r
  simp only at h
  subst h
  rfl

theorem disableRefused_of_include {r : RuleSource} {target : String}
    (h : r.includeText = some target) : r.disableRefused validate = r := by
  cases r
  simp only at h
  subst h
  rw [disableRefused, Option.isSome_some, Bool.or_true, if_pos rfl]

theorem replaceInside_same (r : RuleSource) (shape : RuleForm) :
    r.SameInside (Disabled validate)
      (r.replaceInside (disableCaptures validate r.captures)
        (disableCaptures validate r.beginCaptures) (disableCaptures validate r.endCaptures)
        (disableCaptures validate r.whileCaptures) (disableRules validate r.patterns) shape)
      shape := by
  cases shape with
  | single source => exact ⟨rfl, disableCaptures_match validate _⟩
  | container => exact disableRules_match validate _
  | span opening close isWhile =>
    refine ⟨⟨rfl, rfl, rfl⟩, ?_, ?_, disableRules_match validate _⟩
    · simp only [openingCaptures, replaceInside, isEmpty_disableCaptures]
      cases r.beginCaptures.isEmpty with
      | true => exact disableCaptures_match validate _
      | false => exact disableCaptures_match validate _
    · cases isWhile with
      | true =>
        simp only [closeCaptures, replaceInside, isEmpty_disableCaptures, if_true]
        cases r.whileCaptures.isEmpty with
        | true => simpa using disableCaptures_match validate _
        | false => exact disableCaptures_match validate _
      | false =>
        simp only [closeCaptures, replaceInside, Bool.false_and, Bool.false_eq_true, if_false,
          isEmpty_disableCaptures]
        cases r.endCaptures.isEmpty with
        | true => simpa using disableCaptures_match validate _
        | false => exact disableCaptures_match validate _

theorem disableRefused_matched (r : RuleSource) :
    r.Matched validate true (Disabled validate) (r.disableRefused validate) := by
  cases hdisabled : r.disabled with
  | true =>
    exact .disabled hdisabled (by rw [disableRefused_of_disabled validate hdisabled, hdisabled])
  | false =>
    cases hinclude : r.includeText with
    | some target =>
      have heq := disableRefused_of_include validate hinclude
      exact .linked target hdisabled (by rw [heq, hdisabled]) hinclude (by rw [heq, hinclude])
    | none =>
      cases hshape : r.form with
      | error fault => exact .illFormed fault hdisabled hinclude hshape
      | ok shape =>
        have heq := disableRefused_of_form validate hdisabled hinclude hshape
        dsimp only at heq
        cases hrefusal : shape.refusal? validate with
        | some refusal =>
          rw [hrefusal, Option.isSome_some, if_pos rfl] at heq
          exact .dropped shape refusal rfl hdisabled hinclude hshape hrefusal (by rw [heq])
        | none =>
          rw [hrefusal, Option.isSome_none, if_neg Bool.false_ne_true] at heq
          rw [heq]
          refine .same shape hdisabled ?_ hinclude ?_ hshape ?_ (fun _ => hrefusal) ?_ ?_
          · cases shape <;> exact hdisabled
          · cases shape <;> exact hinclude
          · cases shape <;> exact hshape
          · have hentries := disableEntries_match validate r.repository
            cases shape <;> exact ⟨_, .refl _, .inl rfl, hentries⟩
          · have hinside := replaceInside_same validate
              { r with repository := disableEntries validate r.repository } shape
            cases shape <;> exact hinside

end RuleSource

theorem GrammarSource.disableRefused_matched (s : GrammarSource) :
    s.Matched (RuleSource.Disabled validate) (s.disableRefused validate) :=
  ⟨rfl, ⟨_, .refl _, .inl rfl, disableEntries_match validate _⟩, disableRules_match validate _⟩

/-- With all rules disabled that are left out for a refused pattern, a grammar is accepted too, with
nothing left out, and the grammars are interchangeable, as long as no number was given twice. -/
theorem Grammar.skipping_isolated {P : Type} (engine : Engine P) {s : GrammarSource} {g : Grammar}
    (hg : (Grammar.ofSource validate s).1 = .ok g) (hn : g.Numbered) :
    ∃ g', (Grammar.ofSource validate (s.disableRefused validate)).1 = .ok g' ∧ g'.skipped = [] ∧
      g.Interchangeable engine g' := by
  have hstep : ∀ r r', RuleSource.Disabled validate r r' →
      r.Matched validate true (RuleSource.Disabled validate) r' := by
    rintro r _ rfl
    exact r.disableRefused_matched validate
  obtain ⟨μ, g', hg', _, hpaired, hskipped⟩ :=
    Grammar.ofSource_matched hstep (s.disableRefused_matched validate) hg hn
  exact ⟨g', hg', List.perm_nil.1 hskipped, hpaired.interchangeable engine⟩

/-- A rule that is left out, with an entry of the name of one of the grammar. -/
def shadowingSource : GrammarSource where
  scopeName := "source.pair"
  patterns :=
    [{ matchText := some "(", repository := [("x", { matchText := some "b" })] },
      { includeText := some "#x" }]
  repository := [("x", { matchText := some "a", name := some "own" })]

theorem Grammar.skipping_isolated_shadowing :
    ∃ g g', (Grammar.ofSource Regex.engine.validator shadowingSource).1 = .ok g ∧ g.Numbered ∧
      g.skipped.length = 1 ∧
      (Grammar.ofSource Regex.engine.validator
        (shadowingSource.disableRefused Regex.engine.validator)).1 = .ok g' ∧
      g'.skipped = [] ∧ g.Interchangeable Regex.engine g' := by
  have haccepted : (Grammar.ofSource Regex.engine.validator shadowingSource).1.toOption.any
      (fun g => decide (g.Numbered ∧ g.skipped.length = 1)) = true := by decide +kernel
  cases hg : (Grammar.ofSource Regex.engine.validator shadowingSource).1 with
  | error e =>
    rw [hg] at haccepted
    cases haccepted
  | ok g =>
    rw [hg] at haccepted
    obtain ⟨hn, hskipped⟩ := of_decide_eq_true haccepted
    obtain ⟨g', hg', hnone, hsame⟩ := skipping_isolated Regex.engine.validator Regex.engine hg hn
    exact ⟨g, g', rfl, hn, hskipped, hg', hnone, hsame⟩

end ScopeGrammar
