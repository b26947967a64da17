import ScopeGrammar.Proofs.Grammar.Scoping

/-!
# ScopeGrammar.Proofs.Grammar.Acceptance

Which sources are accepted.

* `RuleSource.Legal` : a rule has the keys of one of the forms, its repository is not too deep, the
  keys of its captures are group numbers, and an entry that it includes is defined around it.
* `Build.Decides` : a step ends well, or refuses a source that is not legal. All steps of compiling
  do (`decides_traversal`), for they refuse nothing but rules that are looked at.
* `Grammar.ofSource_accepts_iff` : a source is accepted just in case it has a scope name and all
  rules that are looked at are legal. If it is not, the error tells a place in the grammar.
-/

namespace ScopeGrammar

open Build

variable {validate : Validator} {s : GrammarSource}

/-! ## Legal rules -/

namespace RuleSource

/-- The keys are `match` alone, `begin` with one of `end` and `while`, or none of the four. -/
def HasForm (r : RuleSource) : Prop :=
  (r.matchText.isSome, r.beginText.isSome, r.endText.isSome, r.whileText.isSome) ∈
    [(true, false, false, false), (false, true, true, false), (false, true, false, true),
      (false, false, false, false)]

theorem hasForm_iff (r : RuleSource) : r.HasForm ↔ ∃ shape, r.form = .ok shape := by
  rw [HasForm, form]
  cases r.matchText <;> cases r.beginText <;> cases r.endText <;> cases r.whileText <;>
    simp [RuleForm.of]

/-- A rule that is not disabled may stand where it is, with these repositories around it. -/
structure Legal (validate : Validator) (chain : SourceChain) (r : RuleSource) : Prop where
  defined : ∀ name, r.includeText.map IncludeTarget.ofString = some (.entry name) →
    ∃ entries ∈ chain, ∃ e, (name, e) ∈ entries
  hasForm : r.includeText = none → r.HasForm
  depth : r.includeText = none → r.repository ≠ [] → chain.length < repositoryDepth
  keys : ∀ shape, r.TakenAs validate shape → ∀ table ∈ r.tables shape, ∀ e ∈ table,
    (captureKey? e.1).isSome

end RuleSource

namespace GrammarSource

/-- All rules that are looked at are legal, but for disabled ones. -/
def Legal (validate : Validator) (s : GrammarSource) : Prop :=
  ∀ chain r, s.Visits validate chain r → r.disabled = false → r.Legal validate chain

/-- The tables of captures that are looked at can be built. -/
def CapturesFit (validate : Validator) (s : GrammarSource) : Prop :=
  ∀ chain r shape, s.Visits validate chain r → r.TakenAs validate shape →
    ∀ table ∈ r.tables shape, ∀ e ∈ table, ∀ n, captureKey? e.1 = some n → n < maxCaptureTable

end GrammarSource

theorem captureKeys_eq_ok {entries : List (String × RuleSource)} {numbers : List Nat}
    (h : captureKeys entries = .ok numbers) :
    entries.map (fun e => captureKey? e.1) = numbers.map some := by
  induction entries generalizing numbers with
  | nil =>
    cases h
    rfl
  | cons e rest ih =>
    obtain ⟨key, r⟩ := e
    rw [captureKeys] at h
    cases hkey : captureKey? key with
    | none =>
      rw [hkey] at h
      cases h
    | some n =>
      rw [hkey] at h
      cases hrest : captureKeys rest with
      | error _ =>
        rw [hrest] at h
        cases h
      | ok more =>
        rw [hrest] at h
        cases h
        rw [List.map_cons, List.map_cons, ih hrest, hkey]

theorem captureKeys_eq_error {entries : List (String × RuleSource)} {key : String}
    (h : captureKeys entries = .error key) : ∃ e ∈ entries, captureKey? e.1 = none := by
  induction entries with
  | nil => cases h
  | cons e rest ih =>
    obtain ⟨key', r⟩ := e
    rw [captureKeys] at h
    cases hkey : captureKey? key' with
    | none => exact ⟨_, .head _, hkey⟩
    | some n =>
      rw [hkey] at h
      cases hrest : captureKeys rest with
      | error _ =>
        rw [hrest] at h
        cases h
        obtain ⟨e, he, hnone⟩ := ih hrest
        exact ⟨e, .tail _ he, hnone⟩
      | ok _ =>
        rw [hrest] at h
        cases h

/-! ## Accepted sources are legal -/

/-- Where everything was compiled and all includes are found, a rule that is looked at is legal. -/
theorem GrammarSource.CompiledTo.legal {last : Builder} (h : s.CompiledTo validate last)
    (hnone : last.grammar.danglingInclude? last.localIncludes = none)
    (hn : last.grammar.Numbered) : s.Legal validate := by
  intro chain r hr henabled
  obtain ⟨repositories, hshows, hrun⟩ := hr.run h hn
  refine ⟨fun name htarget => ?_, fun hinclude => ?_, fun hinclude hne => ?_, ?_⟩
  · have hasks : s.Asks validate chain r name := ⟨hr, henabled, htarget⟩
    obtain ⟨_, _, _, _, _, _, _, _, hentry, _⟩ := hasks.finds h hnone hn
    exact SourceChain.resolve?_isSome_iff.1 (Option.isSome_of_eq_some hentry)
  · obtain ⟨_, shape, _, hform, _⟩ := hrun.shape henabled hinclude
    exact r.hasForm_iff.2 ⟨shape, hform⟩
  · obtain ⟨_, shape, _, _, hshape⟩ := hrun.shape henabled hinclude
    obtain ⟨stack, hstack, _⟩ := compileShape_run hshape
    obtain ⟨_, hdepth, _⟩ := enterRule_shows hshows hstack
    rw [← hshows.length_eq]
    exact hdepth hne
  · -- a rule that is left out never gets to its captures, so its patterns have to be accepted here
    intro shape htaken table ht e he
    obtain ⟨_, shape', _, hform, hshape⟩ := hrun.shape htaken.enabled htaken.noInclude
    obtain rfl : shape = shape' := Except.ok.inj (htaken.form.symm.trans hform)
    obtain ⟨stack, _, hinside⟩ := compileShape_run hshape
    obtain ⟨hkeys, _⟩ := compileForm_run (hinside htaken.accepted)
    obtain ⟨numbers, hnumbers⟩ := hkeys table ht
    have hmem : captureKey? e.1 ∈ table.map fun e => captureKey? e.1 := List.mem_map_of_mem he
    rw [captureKeys_eq_ok hnumbers] at hmem
    obtain ⟨n, _, hkey⟩ := List.mem_map.1 hmem
    rw [← hkey]
    rfl

/-! ## Steps that end well unless something is not legal -/

namespace Build

variable {α β : Type} {ok : Prop}

/-- The step ends well and its answer is as wanted, or it is refused, and not all is well. -/
def Decides (ok : Prop) (m : Build α) (Q : α → Prop) : Prop :=
  ∀ b, (∃ a c, Gives m b a c ∧ Q a) ∨
    ¬ ok ∧ ∃ path fault c, m.run b = (.error (.grammar path fault), c)

theorem decides_pure {Q : α → Prop} {a : α} (h : Q a) : Decides ok (pure a) Q :=
  fun b => .inl ⟨a, b, gives_pure.2 ⟨rfl, rfl⟩, h⟩

theorem Decides.bind {m : Build α} {f : α → Build β} {Q : α → Prop} {R : β → Prop}
    (h : Decides ok m Q) (hf : ∀ a, Q a → Decides ok (f a) R) : Decides ok (m >>= f) R := by
  intro b
  rw [run_bind]
  obtain ⟨a, c, hm, ha⟩ | ⟨hnot, path, fault, c, hm⟩ := h b
  · obtain ⟨y, d, hy, hR⟩ | hrefused := hf a ha c
    · exact .inl ⟨y, d, gives_bind.2 ⟨a, c, hm, hy⟩, hR⟩
    · rw [hm]
      exact .inr hrefused
  · rw [hm]
    exact .inr ⟨hnot, path, fault, c, rfl⟩

theorem Decides.mono {ok' : Prop} {m : Build α} {Q : α → Prop} (h : Decides ok m Q)
    (hok : ok' → ok) : Decides ok' m Q :=
  fun b => (h b).imp_right fun ⟨hnot, hrefused⟩ => ⟨mt hok hnot, hrefused⟩

theorem Adds.decides {ι : Type} {part : ι → PartId} {m : Build ι} {p : Part} (h : Adds part m p) :
    Decides ok m fun _ => True := by
  intro b
  obtain ⟨id, hgives, _⟩ := h b
  exact .inl ⟨id, _, hgives, trivial⟩

theorem decides_modify (f : Builder → Builder) :
    Decides ok (modify f : Build Unit) fun _ => True := fun b => .inl ⟨(), f b, rfl, trivial⟩

theorem decides_refuse {path : String} {fault : GrammarFault} {Q : α → Prop} (h : ¬ ok) :
    Decides ok (refuse path fault) Q := fun b => .inr ⟨h, path, fault, b, rfl⟩

end Build

section Steps

variable {ok : Prop}

theorem compileInclude_decides (repositories : RepositoryChain) (path text : String) :
    Decides ok (compileInclude repositories path text) fun _ => True := by
  have hpure : ∀ item : ListItem, Decides ok (pure item) fun _ => True :=
    fun item => decides_pure trivial
  unfold compileInclude
  cases IncludeTarget.ofString text with
  | entry name =>
    exact Decides.bind (decides_modify _) fun _ _ => hpure _
  | self => exact hpure _
  | base => exact hpure _
  | foreign scopeName entry => exact hpure _

/-- A table is refused only for a key that is no group number. -/
theorem captureSpace_decides {entries : List (String × RuleSource)} (path : String)
    (hkeys : ok → ∀ e ∈ entries, (captureKey? e.1).isSome)
    (hfit : ∀ e ∈ entries, ∀ n, captureKey? e.1 = some n → n < maxCaptureTable) :
    Decides ok (captureSpace path entries) fun _ => True := by
  rw [captureSpace]
  split
  · next key hkey =>
    refine decides_refuse fun hok => ?_
    obtain ⟨e, he, hnone⟩ := captureKeys_eq_error hkey
    have hsome := hkeys hok e he
    rw [hnone] at hsome
    cases hsome
  · exact decides_pure trivial
  · next numbers _ hnumbers =>
    have hlt : numbers.foldl max 0 < maxCaptureTable := by
      refine List.foldlRecOn numbers max (motive := (· < maxCaptureTable)) (by decide) ?_
      intro m hm n hn
      have hmem : some n ∈ numbers.map some := List.mem_map_of_mem hn
      rw [← captureKeys_eq_ok hnumbers] at hmem
      obtain ⟨e, he, hkey⟩ := List.mem_map.1 hmem
      exact max_lt hm (hfit e he n hkey)
    rw [if_neg (by omega)]
    exact decides_pure trivial

/-- Repositories are refused only for their depth. -/
theorem compileRepository_decides {repositories : RepositoryChain} {path : String}
    {entries : List (String × RuleSource)}
    (hdepth : ok → repositories.ids.length < repositoryDepth)
    (h : ∀ stack : RepositoryChain, stack.ids.length = repositories.ids.length + 1 →
      Decides ok (compileEntries validate stack path entries) fun _ => True) :
    Decides ok (compileRepository validate repositories path entries) fun stack =>
      stack.ids.length = repositories.ids.length + 1 := by
  rw [compileRepository, openRepository, bind_assoc]
  refine addRepository_adds.decides.bind fun id _ => ?_
  rw [RepositoryChain.push]
  by_cases hlt : repositories.ids.length < repositoryDepth
  · rw [if_pos hlt]
    refine (h _ (List.length_cons ..)).bind fun lists _ => ?_
    exact Decides.bind (decides_modify _) fun _ _ => decides_pure (List.length_cons ..)
  · rw [if_neg hlt]
    exact Decides.bind (Q := fun _ => False) (decides_refuse (mt hdepth hlt)) fun _ h => h.elim

end Steps

theorem decides_traversal (hfit : s.CapturesFit validate) :
    Traversal validate s (Decides (s.Legal validate))
      (fun chain repositories => repositories.ids.length = chain.length) fun _ => True where
  pure := decides_pure
  bind := Decides.bind
  adds hadds _ _ := hadds.decides
  skip path refusal := decides_modify _
  linked path _ _ _ _ := by
    refine fun b => (compileInclude_decides _ path _ b).imp_left ?_
    exact fun ⟨item, c, hgives, _⟩ => ⟨item, c, hgives, fun _ _ => trivial⟩
  refuse path hr henabled hinclude hform := by
    refine decides_refuse fun hlegal => ?_
    obtain ⟨shape, hshape⟩ :=
      (RuleSource.hasForm_iff _).1 ((hlegal _ _ hr henabled).hasForm hinclude)
    cases hform.symm.trans hshape
  space path hr htaken ht :=
    captureSpace_decides path (fun hlegal => (hlegal _ _ hr htaken.enabled).keys _ htaken _ ht)
      (hfit _ _ _ hr htaken _ ht)
  repository path hr henabled hinclude hne hlength hentries := by
    simp only [List.length_cons, ← hlength] at hentries ⊢
    exact compileRepository_decides
      (fun hlegal => hlength ▸ (hlegal _ _ hr henabled).depth hinclude hne) hentries

/-! ## Whole sources -/

theorem compileParts_decides (hfit : s.CapturesFit validate) :
    Decides (s.Legal validate) (compileParts validate s) fun _ => True := by
  have t := decides_traversal hfit
  rw [compileParts]
  refine Decides.bind (compileRepository_decides (fun _ => by decide) fun stack hstack => ?_)
    fun stack hstack => ?_
  · exact t.entries (fun e he path => t.rule path (.ownEntry he) hstack) _
  · refine Decides.bind (t.items (fun r hr path => t.rule path (.pattern hr) hstack) _) ?_
    exact fun _ _ => decides_pure trivial

/-- Whatever the source is, it is refused with a place in the grammar. -/
theorem compileSource_decides (hfit : s.CapturesFit validate) :
    Decides False (compileSource validate s) fun _ => True := by
  rw [compileSource_eq]
  refine ((compileParts_decides hfit).mono False.elim).bind fun p _ => ?_
  refine (decides_modify _).bind fun _ _ b => ?_
  cases hfound : b.grammar.danglingInclude? b.localIncludes with
  | none => exact .inl ⟨(), b, gives_checkIncludes.2 ⟨rfl, hfound⟩, trivial⟩
  | some i =>
    refine .inr ⟨not_false, i.path, .unknownEntry i.name, b, ?_⟩
    rw [checkIncludes_run, hfound]
    rfl

theorem GrammarSource.Legal.compiledTo (hlegal : s.Legal validate)
    (hfit : s.CapturesFit validate) : ∃ last, s.CompiledTo validate last := by
  obtain ⟨⟨stack, root⟩, c, hgives, _⟩ | ⟨hnot, _⟩ := compileParts_decides hfit (.first s)
  · exact ⟨_, stack, root, c, hgives, rfl⟩
  · exact absurd hlegal hnot

/-- Includes of a legal source find what they name. -/
theorem GrammarSource.Legal.danglingInclude? {last : Builder} (hlegal : s.Legal validate)
    (h : s.CompiledTo validate last) (hn : last.grammar.Numbered) :
    last.grammar.danglingInclude? last.localIncludes = none := by
  refine List.find?_eq_none.2 fun l hl => ?_
  obtain ⟨chain, r, text, hr, henabled, htext, htarget, hshows⟩ := (h.written hn).noted l hl
  have hnamed : r.includeText.map IncludeTarget.ofString = some (.entry l.name) := by
    rw [htext, Option.map_some, ← htarget]
  have hdefined := (hlegal chain r hr henabled).defined l.name hnamed
  rw [← SourceChain.resolve?_isSome_iff, ← hshows.visibleEntry?_isSome] at hdefined
  simpa [Option.isSome_iff_ne_none] using hdefined

theorem ofSource_eq_error {e : Error} (h : (Grammar.ofSource validate s).1 = .error e) :
    e = .grammar "scopeName" .noScopeName ∨
      ∃ c, (compileSource validate s).run (.first s) = (.error e, c) := by
  rw [Grammar.ofSource] at h
  split at h
  · cases h
    exact .inl rfl
  · dsimp only at h
    rw [← Builder.first] at h
    rcases hrun : (compileSource validate s).run (.first s) with ⟨e' | _, c⟩
    · rw [hrun] at h
      cases h
      exact .inr ⟨c, rfl⟩
    · rw [hrun] at h
      cases h

/-- A source whose capture tables can be built is accepted just in case it has a scope name and all
rules that are looked at are legal, as long as no number was given twice. If it is refused, then with
a place in the grammar. -/
theorem Grammar.ofSource_accepts_iff (hfit : s.CapturesFit validate) :
    ((∀ last, s.CompiledTo validate last → last.grammar.Numbered) →
      ((∃ g, (Grammar.ofSource validate s).1 = .ok g) ↔
        Text.trim s.scopeName ≠ "" ∧ s.Legal validate)) ∧
    ∀ e, (Grammar.ofSource validate s).1 = .error e → ∃ path fault, e = .grammar path fault := by
  refine ⟨fun hnumbered => ⟨?_, ?_⟩, fun e he => ?_⟩
  · rintro ⟨g, hg⟩
    obtain ⟨hname, last, hsource, rfl⟩ := ofSource_eq_ok.1 hg
    obtain ⟨hparts, hnone⟩ := gives_compileSource_first.1 hsource
    exact ⟨by simpa using hname, hparts.legal hnone (hnumbered last hparts)⟩
  · -- nothing is refused on the way to the last builder, which then decides about the includes
    rintro ⟨hname, hlegal⟩
    obtain ⟨last, hparts⟩ := hlegal.compiledTo hfit
    have hnone := hlegal.danglingInclude? hparts (hnumbered last hparts)
    exact ⟨last.grammar, ofSource_eq_ok.2
      ⟨by simpa using hname, last, gives_compileSource_first.2 ⟨hparts, hnone⟩, rfl⟩⟩
  · obtain rfl | ⟨c, hrefused⟩ := ofSource_eq_error he
    · exact ⟨_, _, rfl⟩
    · obtain ⟨_, _, hgives, _⟩ | ⟨_, path, fault, _, hrun⟩ := compileSource_decides hfit (.first s)
      · cases hrefused.symm.trans hgives
      · cases hrefused.symm.trans hrun
        exact ⟨path, fault, rfl⟩

/-- A span whose captures count for both of its ends. -/
def bothEndsRule : RuleSource where
  beginText := some "(a)"
  endText := some "(c)"
  captures := [("1", { name := some "end" })]
  patterns := [{ includeText := some "#x" }]

def bothEndsSource : GrammarSource where
  scopeName := " source.ends "
  patterns := [bothEndsRule]
  repository := [("x", { matchText := some "b" })]

theorem bothEndsSource_visits {chain : SourceChain} {r : RuleSource}
    (h : bothEndsSource.Visits validate chain r) :
    r = { matchText := some "b" } ∨ r = bothEndsRule ∨ r = { includeText := some "#x" } := by
  induction h with
  | ownEntry he =>
    cases List.mem_singleton.1 he
    exact .inl rfl
  | pattern hr => exact .inr (.inl (List.mem_singleton.1 hr))
  | entry _ _ _ he ih => obtain rfl | rfl | rfl := ih <;> cases he
  | inside _ htaken hc ih =>
    obtain rfl | rfl | rfl := ih
    · cases htaken.form
      cases hc
    · cases htaken.form
      exact .inr (.inr (List.mem_singleton.1 hc))
    · cases htaken.noInclude

theorem Grammar.ofSource_accepts_iff_bothEnds :
    bothEndsSource.CapturesFit Regex.engine.validator ∧
      (∃ g, (Grammar.ofSource Regex.engine.validator bothEndsSource).1 = .ok g) ∧
      bothEndsSource.Legal Regex.engine.validator := by
  have hfit : bothEndsSource.CapturesFit Regex.engine.validator := by
    intro chain r shape hr htaken table ht e he n hkey
    obtain rfl | rfl | rfl := bothEndsSource_visits hr
    · cases htaken.form
      cases List.mem_singleton.1 ht
      cases he
    · have he : e ∈ bothEndsRule.captures := by
        cases htaken.form
        obtain rfl | ht := List.mem_cons.1 ht
        · exact he
        · cases List.mem_singleton.1 ht
          exact he
      cases List.mem_singleton.1 he
      have hone : captureKey? "1" = some 1 := by decide +kernel
      cases hkey.symm.trans hone
      decide
    · cases htaken.noInclude
  have hend : ((compileParts Regex.engine.validator bothEndsSource).run
      (.first bothEndsSource)).2.grammar.Numbered := by decide +kernel
  have hnumbered : ∀ last, bothEndsSource.CompiledTo Regex.engine.validator last →
      last.grammar.Numbered := by
    rintro _ ⟨stack, root, c, hgives, rfl⟩
    rw [Gives] at hgives
    rw [hgives] at hend
    exact hend
  have hsome : (Grammar.ofSource Regex.engine.validator bothEndsSource).1.toOption.any
      (fun _ => true) = true := by decide +kernel
  obtain ⟨g, hg, _⟩ := exists_ok_of_any hsome
  obtain ⟨_, hlegal⟩ := ((ofSource_accepts_iff hfit).1 hnumbered).1 ⟨g, hg⟩
  exact ⟨hfit, ⟨g, hg⟩, hlegal⟩

end ScopeGrammar
