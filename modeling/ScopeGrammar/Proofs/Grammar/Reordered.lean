import ScopeGrammar.Pattern.Regex
import ScopeGrammar.Proofs.Grammar.Sources
import ScopeGrammar.Proofs.Registry.Renumbered

/-!
# ScopeGrammar.Proofs.Grammar.Reordered

Sources that differ in the order of the entries of repositories.

* `RuleSource.Reordered`, `GrammarSource.Reordered` : repositories, at any depth, have the same
  entries in perhaps another order.
* `GrammarSource.Reordered.order_invisible` : nothing depends on that order, as long as all numbers
  are in range.
-/

namespace ScopeGrammar

/-- The texts and flags of a rule are the same. -/
structure RuleSource.SameKeys (r r' : RuleSource) : Prop where
  name : r.name = r'.name
  contentName : r.contentName = r'.contentName
  matchText : r.matchText = r'.matchText
  beginText : r.beginText = r'.beginText
  endText : r.endText = r'.endText
  whileText : r.whileText = r'.whileText
  includeText : r.includeText = r'.includeText
  applyEndPatternLast : r.applyEndPatternLast = r'.applyEndPatternLast
  disabled : r.disabled = r'.disabled

/-- The same rule, with the entries of the repositories in it in perhaps another order. No key is
twice in a repository. Of the rule for a capture only the name and the patterns count. -/
inductive RuleSource.Reordered : RuleSource → RuleSource → Prop
  | intro {r r' : RuleSource} {ordered : List (String × RuleSource)} :
    r.SameKeys r' →
    CapturesMatch Reordered r.captures r'.captures →
    CapturesMatch Reordered r.beginCaptures r'.beginCaptures →
    CapturesMatch Reordered r.endCaptures r'.endCaptures →
    CapturesMatch Reordered r.whileCaptures r'.whileCaptures →
    List.Forall₂ Reordered r.patterns r'.patterns →
    r.repository.Perm ordered → (r.repository.map (·.1)).Nodup →
    EntriesMatch Reordered ordered r'.repository → Reordered r r'

structure GrammarSource.Reordered (s s' : GrammarSource) : Prop where
  name : s.name = s'.name
  scopeName : s.scopeName = s'.scopeName
  fileTypes : s.fileTypes = s'.fileTypes
  patterns : List.Forall₂ RuleSource.Reordered s.patterns s'.patterns
  repository : ∃ ordered, s.repository.Perm ordered ∧
    EntriesMatch RuleSource.Reordered ordered s'.repository
  keys : (s.repository.map (·.1)).Nodup

/-- No key is twice in a repository of the rule or of the rules inside it. -/
inductive RuleSource.KeysOnce : RuleSource → Prop
  | intro {r : RuleSource} : (r.repository.map (·.1)).Nodup → (∀ c ∈ r.children, KeysOnce c) →
    KeysOnce r

/-! ## The same order, and both ways -/

section

variable {S : RuleSource → RuleSource → Prop} {l l' : List (String × RuleSource)}

theorem EntriesMatch.refl (h : ∀ e ∈ l, S e.2 e.2) : EntriesMatch S l l := by
  induction l with
  | nil => exact .nil
  | cons e rest ih =>
    obtain ⟨hhead, htail⟩ := List.forall_mem_cons.1 h
    exact .cons hhead (ih htail)

theorem CapturesMatch.refl (h : ∀ e ∈ l, ∀ c ∈ e.2.patterns, S c c) : CapturesMatch S l l := by
  induction l with
  | nil => exact .nil
  | cons e rest ih =>
    obtain ⟨hhead, htail⟩ := List.forall_mem_cons.1 h
    exact .cons rfl (List.forall₂_same.2 hhead) (ih htail)

theorem EntriesMatch.flip (h : EntriesMatch S l l') : EntriesMatch (flip S) l' l := by
  induction h with
  | nil => exact .nil
  | cons hr _ ih => exact .cons hr ih

theorem CapturesMatch.flip (h : CapturesMatch S l l') : CapturesMatch (flip S) l' l := by
  induction h with
  | nil => exact .nil
  | cons hname hr _ ih => exact .cons hname.symm (List.Forall₂.flip hr) ih

theorem CapturesMatch.isEmpty_eq (h : CapturesMatch S l l') : l.isEmpty = l'.isEmpty := by
  cases h <;> rfl

theorem EntriesMatch.keys_eq (h : EntriesMatch S l l') : l.map (·.1) = l'.map (·.1) := by
  induction h with
  | nil => rfl
  | @cons key _ _ _ _ _ _ ih => exact congrArg (key :: ·) ih

theorem EntriesMatch.of_forall₂
    (h : List.Forall₂ (fun e e' => e.1 = e'.1 ∧ S e.2 e'.2) l l') : EntriesMatch S l l' := by
  induction h with
  | nil => exact .nil
  | @cons e e' _ _ he _ ih =>
    obtain ⟨key, r⟩ := e
    obtain ⟨key', r'⟩ := e'
    obtain ⟨rfl, hr⟩ := he
    exact .cons hr ih

/-- Other entries may be put in order before or after they are matched. -/
theorem EntriesMatch.perm {l'' : List (String × RuleSource)} (h : EntriesMatch S l l')
    (hperm : l'.Perm l'') : ∃ ordered, l.Perm ordered ∧ EntriesMatch S ordered l'' := by
  have hcomp : Relation.Comp
      (List.Forall₂ fun e e' : String × RuleSource => e.1 = e'.1 ∧ S e.2 e'.2) List.Perm l l'' :=
    ⟨l', h.forall₂, hperm⟩
  rw [List.forall₂_comp_perm_eq_perm_comp_forall₂] at hcomp
  obtain ⟨ordered, hordered, hmatch⟩ := hcomp
  exact ⟨ordered, hordered, .of_forall₂ hmatch⟩

end

theorem RuleSource.KeysOnce.reordered {r : RuleSource} (h : r.KeysOnce) : r.Reordered r := by
  induction h with
  | @intro r hkeys _ ih =>
    have htable : ∀ {l : List (String × RuleSource)},
        l ⊆ r.captures ++ r.beginCaptures ++ r.endCaptures ++ r.whileCaptures →
        CapturesMatch RuleSource.Reordered l l :=
      fun hsub => .refl fun e he c hc => ih c (mem_children_of_capture (hsub he) hc)
    refine .intro ⟨rfl, rfl, rfl, rfl, rfl, rfl, rfl, rfl, rfl⟩ (htable ?_) (htable ?_) (htable ?_)
      (htable ?_) (List.forall₂_same.2 fun c hc => ih c (mem_children_of_pattern hc)) (.refl _) hkeys
      (.refl fun e he => ih e.2 (mem_children_of_entry he))
    all_goals
      intro e he
      simp [he]

theorem RuleSource.SameKeys.symm {r r' : RuleSource} (h : r.SameKeys r') : r'.SameKeys r :=
  ⟨h.name.symm, h.contentName.symm, h.matchText.symm, h.beginText.symm, h.endText.symm,
    h.whileText.symm, h.includeText.symm, h.applyEndPatternLast.symm, h.disabled.symm⟩

theorem RuleSource.Reordered.symm {r r' : RuleSource} (h : r.Reordered r') : r'.Reordered r := by
  induction r using RuleSource.children_induction generalizing r' with
  | step r ih =>
    cases h with
    | @intro _ _ ordered hkeys hcaptures hbegin hend hwhile hpatterns hperm hnodup hentries =>
      have htable : ∀ {l l' : List (String × RuleSource)},
          l ⊆ r.captures ++ r.beginCaptures ++ r.endCaptures ++ r.whileCaptures →
          CapturesMatch RuleSource.Reordered l l' → CapturesMatch RuleSource.Reordered l' l := by
        intro l l' hsub hl
        refine (hl.imp_of_mem (T := flip RuleSource.Reordered) fun e he c hc c' => ?_).flip
        exact ih c (mem_children_of_capture (hsub he) hc)
      have hrules : List.Forall₂ (flip RuleSource.Reordered) r.patterns r'.patterns :=
        forall₂_imp_of_mem (fun c hc c' => ih c (mem_children_of_pattern hc)) hpatterns
      have hflipped : EntriesMatch RuleSource.Reordered r'.repository ordered := by
        refine (hentries.imp_of_mem (T := flip RuleSource.Reordered) fun e he c' => ?_).flip
        exact ih e.2 (mem_children_of_entry (hperm.mem_iff.2 he))
      obtain ⟨ordered', hperm', hmatch⟩ := hflipped.perm hperm.symm
      have hnodup' : (r'.repository.map (·.1)).Nodup := by
        rw [← hentries.keys_eq]
        exact (hperm.map _).nodup_iff.1 hnodup
      refine .intro hkeys.symm (htable ?_ hcaptures) (htable ?_ hbegin) (htable ?_ hend)
        (htable ?_ hwhile) hrules.flip hperm' hnodup' hmatch
      all_goals
        intro e he
        simp [he]

theorem GrammarSource.Reordered.symm {s s' : GrammarSource} (h : s.Reordered s') :
    s'.Reordered s := by
  obtain ⟨ordered, hperm, hentries⟩ := h.repository
  have hflipped : EntriesMatch RuleSource.Reordered s'.repository ordered :=
    (hentries.imp_of_mem (T := flip RuleSource.Reordered) fun _ _ _ hr => hr.symm).flip
  refine ⟨h.name.symm, h.scopeName.symm, h.fileTypes.symm, ?_, hflipped.perm hperm.symm, ?_⟩
  · have hrules : List.Forall₂ (flip RuleSource.Reordered) s.patterns s'.patterns :=
      h.patterns.imp fun _ _ hr => hr.symm
    exact hrules.flip
  · rw [← hentries.keys_eq]
    exact (hperm.map _).nodup_iff.1 h.keys

/-! ## Compiled alike -/

/-- Reordered rules are compiled alike. -/
theorem RuleSource.Reordered.matched {r r' : RuleSource} (h : r.Reordered r')
    (validate : Validator) : r.Matched validate false RuleSource.Reordered r' := by
  cases h with
  | @intro _ _ ordered hkeys hcaptures hbegin hend hwhile hpatterns hperm hnodup hentries =>
    cases hdisabled : r.disabled with
    | true => exact .disabled hdisabled (hkeys.disabled ▸ hdisabled)
    | false =>
      have hdisabled' : r'.disabled = false := hkeys.disabled ▸ hdisabled
      cases hinclude : r.includeText with
      | some target =>
        exact .linked target hdisabled hdisabled' hinclude (hkeys.includeText ▸ hinclude)
      | none =>
        have hinclude' : r'.includeText = none := hkeys.includeText ▸ hinclude
        have hform : r'.form = r.form := by
          rw [form, form, hkeys.matchText, hkeys.beginText, hkeys.endText, hkeys.whileText]
        cases hshape : r.form with
        | error fault => exact .illFormed fault hdisabled hinclude hshape
        | ok shape =>
          refine .same shape hdisabled hdisabled' hinclude hinclude' hshape (hform.trans hshape)
            (fun hdrop => absurd hdrop Bool.false_ne_true) ⟨ordered, hperm, .inr hnodup, hentries⟩ ?_
          cases shape with
          | single source => exact ⟨hkeys.name, hcaptures⟩
          | container => exact hpatterns
          | span opening close isWhile =>
            refine ⟨⟨hkeys.name, hkeys.contentName, hkeys.applyEndPatternLast⟩, ?_, ?_, hpatterns⟩
            · rw [openingCaptures, openingCaptures, hbegin.isEmpty_eq]
              split
              · exact hcaptures
              · exact hbegin
            · rw [closeCaptures, closeCaptures, hwhile.isEmpty_eq, hend.isEmpty_eq]
              split
              · exact hwhile
              · split
                · exact hend
                · exact hcaptures

theorem GrammarSource.Reordered.matched {s s' : GrammarSource} (h : s.Reordered s') :
    s.Matched RuleSource.Reordered s' := by
  obtain ⟨ordered, hperm, hentries⟩ := h.repository
  exact ⟨h.scopeName, ⟨ordered, hperm, .inr h.keys, hentries⟩, h.patterns⟩

/-- Whatever the order of the entries of repositories: the source is accepted in both orders or in
none, as long as no number would be given twice; the same rules are left out; and the grammars are
interchangeable. -/
theorem GrammarSource.Reordered.order_invisible {P : Type} (engine : Engine P)
    (validate : Validator) {s s' : GrammarSource} (h : s.Reordered s') :
    ((∃ g, (Grammar.ofSource validate s).1 = .ok g ∧ g.Numbered) ↔
      ∃ g', (Grammar.ofSource validate s').1 = .ok g' ∧ g'.Numbered) ∧
    ∀ g g', (Grammar.ofSource validate s).1 = .ok g → g.Numbered →
      (Grammar.ofSource validate s').1 = .ok g' →
      g.skipped.Perm g'.skipped ∧ g.Interchangeable engine g' := by
  have hstep : ∀ r r', RuleSource.Reordered r r' →
      r.Matched validate false RuleSource.Reordered r' := fun r r' hr => hr.matched validate
  refine ⟨⟨?_, ?_⟩, ?_⟩
  · rintro ⟨g, hg, hn⟩
    obtain ⟨_, g', hg', hn', _⟩ := Grammar.ofSource_matched hstep h.matched hg hn
    exact ⟨g', hg', hn'⟩
  · rintro ⟨g', hg', hn'⟩
    obtain ⟨_, g, hg, hn, _⟩ := Grammar.ofSource_matched hstep h.symm.matched hg' hn'
    exact ⟨g, hg, hn⟩
  · intro g g' hg hn hg'
    obtain ⟨μ, k, hk, _, hpaired, hskipped⟩ := Grammar.ofSource_matched hstep h.matched hg hn
    cases hg'.symm.trans hk
    exact ⟨hskipped.symm, hpaired.interchangeable engine⟩

/-- A rule with two entries, one of which leads to the other. -/
def entriesInOrder : List (String × RuleSource) :=
  [("x", { matchText := some "a", name := some "own" }),
    ("y",
      { beginText := some "b", endText := some "c", patterns := [{ includeText := some "#x" }] })]

/-- A container with a repository of its own, beside a rule that is left out. -/
def containerSource (entries : List (String × RuleSource)) : GrammarSource where
  scopeName := "source.pair"
  patterns :=
    [{ patterns := [{ includeText := some "#y" }], repository := entries },
      { matchText := some "(" }]

theorem GrammarSource.Reordered.order_invisible_swapped :
    ∃ g g', (containerSource entriesInOrder).Reordered (containerSource entriesInOrder.reverse) ∧
      (Grammar.ofSource Regex.engine.validator (containerSource entriesInOrder)).1 = .ok g ∧
      g.Numbered ∧ g.skipped.length = 1 ∧
      (Grammar.ofSource Regex.engine.validator (containerSource entriesInOrder.reverse)).1 = .ok g' ∧
      g.skipped.Perm g'.skipped ∧ g.Interchangeable Regex.engine g' := by
  have hleaf : ∀ r : RuleSource, r.repository = [] → r.children = [] → r.Reordered r := by
    intro r hrepository hchildren
    refine RuleSource.KeysOnce.reordered (.intro ?_ ?_)
    · rw [hrepository]
      exact List.nodup_nil
    · rw [hchildren]
      exact List.forall_mem_nil _
  have hspan : RuleSource.Reordered _ _ := RuleSource.KeysOnce.reordered
    (r := { beginText := some "b", endText := some "c"
            patterns := [{ includeText := some "#x" }] }) <|
    .intro List.nodup_nil (List.forall_mem_singleton.2 (.intro List.nodup_nil nofun))
  have hordered : (containerSource entriesInOrder).Reordered
      (containerSource entriesInOrder.reverse) := by
    refine ⟨rfl, rfl, rfl, ?_, ⟨[], .refl _, .nil⟩, List.nodup_nil⟩
    refine .cons ?_ (.cons (hleaf _ rfl rfl) .nil)
    exact .intro ⟨rfl, rfl, rfl, rfl, rfl, rfl, rfl, rfl, rfl⟩ .nil .nil .nil .nil
      (.cons (hleaf _ rfl rfl) .nil) (List.reverse_perm _).symm (by decide)
      (.cons hspan (.cons (hleaf _ rfl rfl) .nil))
  have haccepted : (Grammar.ofSource Regex.engine.validator
      (containerSource entriesInOrder)).1.toOption.any
      (fun g => decide (g.Numbered ∧ g.skipped.length = 1)) = true := by decide +kernel
  cases hg : (Grammar.ofSource Regex.engine.validator (containerSource entriesInOrder)).1 with
  | error e =>
    rw [hg] at haccepted
    cases haccepted
  | ok g =>
    rw [hg] at haccepted
    obtain ⟨hn, hskipped⟩ := of_decide_eq_true haccepted
    obtain ⟨hboth, hsame⟩ :=
      hordered.order_invisible Regex.engine Regex.engine.validator
    obtain ⟨g', hg', _⟩ := hboth.1 ⟨g, hg, hn⟩
    obtain ⟨hperm, hinterchangeable⟩ := hsame g g' hg hn hg'
    exact ⟨g, g', hordered, rfl, hn, hskipped, hg', hperm, hinterchangeable⟩

end ScopeGrammar
