import ScopeGrammar.Proofs.Grammar.Sources

/-!
# ScopeGrammar.Proofs.Grammar.Visits

Which rules of a source are looked at, and with which repositories around them.

* `GrammarSource.Visits` : a rule is looked at, with the repositories around it as they are written.
* `Builder.LeadsTo`, `Build.RunTo` : a step of compiling was run on the way to the last builder.
* `Builder.Shows` : the numbers of repositories are those of repositories as they are written, each
  filled with the lists that its entries were compiled to.
* `GrammarSource.CompiledTo` : the parts of a source were compiled, its includes not yet checked.
* `GrammarSource.Visits.run` : every rule that is looked at was compiled, under the numbers of the
  repositories around it.
-/

namespace ScopeGrammar

open Build

variable {validate : Validator}

/-! ## What is looked at -/

/-- The repositories that can be seen from a rule, as they are written, the innermost one first. -/
abbrev SourceChain := List (List (String × RuleSource))

namespace SourceChain

/-- The entry of the innermost repository that has one of this name, with the repositories that can
be seen from its own rules. -/
def resolve? (name : String) : SourceChain → Option (RuleSource × SourceChain)
  | [] => none
  | entries :: outer =>
    match entries.lookup name with
    | some e => some (e, entries :: outer)
    | none => resolve? name outer

theorem exists_of_resolve? {name : String} {chain outer : SourceChain} {e : RuleSource}
    (h : chain.resolve? name = some (e, outer)) :
    ∃ entries rest, outer = entries :: rest ∧ outer <:+ chain ∧ (name, e) ∈ entries := by
  induction chain with
  | nil => cases h
  | cons entries rest ih =>
    rw [resolve?] at h
    cases hlookup : entries.lookup name with
    | none =>
      rw [hlookup] at h
      obtain ⟨entries', rest', houter, hsuffix, hmem⟩ := ih h
      exact ⟨entries', rest', houter, hsuffix.trans (List.suffix_cons entries rest), hmem⟩
    | some e' =>
      rw [hlookup] at h
      cases h
      obtain ⟨before, behind, rfl, _⟩ := List.lookup_eq_some_iff.1 hlookup
      exact ⟨_, rest, rfl, List.suffix_refl _, by simp⟩

theorem resolve?_isSome_iff {name : String} {chain : SourceChain} :
    (chain.resolve? name).isSome ↔ ∃ entries ∈ chain, ∃ e, (name, e) ∈ entries := by
  induction chain with
  | nil => simp [resolve?]
  | cons entries rest ih =>
    rw [resolve?]
    cases hlookup : entries.lookup name with
    | some e =>
      obtain ⟨before, behind, rfl, _⟩ := List.lookup_eq_some_iff.1 hlookup
      exact ⟨fun _ => ⟨_, .head _, e, by simp⟩, fun _ => rfl⟩
    | none =>
      have hnone : ¬ ∃ e, (name, e) ∈ entries := by
        rintro ⟨e, he⟩
        simpa using List.lookup_eq_none_iff.1 hlookup _ he
      rw [List.exists_mem_cons_iff, or_iff_right hnone]
      exact ih

end SourceChain

namespace RuleSource

/-- The rule is compiled, as one of this form. -/
structure TakenAs (validate : Validator) (r : RuleSource) (shape : RuleForm) : Prop where
  enabled : r.disabled = false
  noInclude : r.includeText = none
  form : r.form = .ok shape
  accepted : shape.refusal? validate = none

/-- The repositories that can be seen from inside a rule. -/
def chainInside (chain : SourceChain) (r : RuleSource) : SourceChain :=
  if r.repository.isEmpty then chain else r.repository :: chain

/-- The capture tables that count for a rule of this form. -/
def tables (r : RuleSource) : RuleForm → List (List (String × RuleSource))
  | .single _ => [r.captures]
  | .span _ _ isWhile => [r.openingCaptures, r.closeCaptures isWhile]
  | .container => []

/-- The patterns that count for a rule of this form. -/
def body (r : RuleSource) : RuleForm → List RuleSource
  | .single _ => []
  | .span _ _ _ => r.patterns
  | .container => r.patterns

/-- The rules inside a rule of this form, but for those of its repository. -/
def inner (r : RuleSource) (shape : RuleForm) : List RuleSource :=
  (r.tables shape).flatMap (·.flatMap (·.2.patterns)) ++ r.body shape

theorem mem_children_of_inner {r c : RuleSource} {shape : RuleForm} (h : c ∈ r.inner shape) :
    c ∈ r.children := by
  rw [inner, List.mem_append] at h
  obtain h | h := h
  · obtain ⟨table, htable, hc⟩ := List.mem_flatMap.1 h
    obtain ⟨e, he, hc⟩ := List.mem_flatMap.1 hc
    refine mem_children_of_capture (e := e) ?_ hc
    cases shape with
    | single _ =>
      rw [List.mem_singleton.1 htable] at he
      simp [he]
    | span _ _ isWhile =>
      obtain rfl | htable := List.mem_cons.1 htable
      · exact r.openingCaptures_subset he
      · rw [List.mem_singleton.1 htable] at he
        exact r.closeCaptures_subset isWhile he
    | container => cases htable
  · cases shape with
    | single _ => cases h
    | span _ _ _ => exact mem_children_of_pattern h
    | container => exact mem_children_of_pattern h

theorem mem_inner_of_table {r c : RuleSource} {shape : RuleForm}
    {table : List (String × RuleSource)} (htable : table ∈ r.tables shape)
    (hc : c ∈ table.flatMap (·.2.patterns)) : c ∈ r.inner shape := by
  rw [inner, List.mem_append]
  exact .inl (List.mem_flatMap.2 ⟨table, htable, hc⟩)

end RuleSource

/-- A rule of the grammar is looked at, with these repositories around it. -/
inductive GrammarSource.Visits (validate : Validator) (s : GrammarSource) :
    SourceChain → RuleSource → Prop
  | ownEntry {e : String × RuleSource} : e ∈ s.repository → Visits validate s [s.repository] e.2
  | pattern {r : RuleSource} : r ∈ s.patterns → Visits validate s [s.repository] r
  | entry {chain : SourceChain} {r : RuleSource} {e : String × RuleSource} :
      Visits validate s chain r → r.disabled = false → r.includeText = none → e ∈ r.repository →
      Visits validate s (r.repository :: chain) e.2
  | inside {chain : SourceChain} {r c : RuleSource} {shape : RuleForm} :
      Visits validate s chain r → r.TakenAs validate shape → c ∈ r.inner shape →
      Visits validate s (r.chainInside chain) c

/-- The entries of all repositories around a rule are looked at, with these repositories and those
outside of them around them. -/
theorem GrammarSource.Visits.entries {s : GrammarSource} {chain outer : SourceChain}
    {r : RuleSource} {entries : List (String × RuleSource)} (h : s.Visits validate chain r)
    (hsuffix : entries :: outer <:+ chain) {e : String × RuleSource} (he : e ∈ entries) :
    s.Visits validate (entries :: outer) e.2 := by
  have hown : entries :: outer <:+ [s.repository] → s.Visits validate (entries :: outer) e.2 := by
    intro hsuffix
    obtain heq | hnil := List.suffix_cons_iff.1 hsuffix
    · cases heq
      exact .ownEntry he
    · cases List.suffix_nil.1 hnil
  induction h with
  | ownEntry _ => exact hown hsuffix
  | pattern _ => exact hown hsuffix
  | entry hr hdisabled hinclude _ ih =>
    obtain heq | hsuffix := List.suffix_cons_iff.1 hsuffix
    · cases heq
      exact .entry hr hdisabled hinclude he
    · exact ih hsuffix
  | inside hr htaken _ ih =>
    unfold RuleSource.chainInside at hsuffix
    split at hsuffix
    · exact ih hsuffix
    · obtain heq | hsuffix := List.suffix_cons_iff.1 hsuffix
      · cases heq
        exact .entry hr htaken.enabled htaken.noInclude he
      · exact ih hsuffix

/-- The entry that a name stands for is looked at. -/
theorem GrammarSource.Visits.resolve? {s : GrammarSource} {chain outer : SourceChain}
    {r e : RuleSource} {name : String} (h : s.Visits validate chain r)
    (hfound : chain.resolve? name = some (e, outer)) : s.Visits validate outer e := by
  obtain ⟨entries, rest, rfl, hsuffix, hmem⟩ := SourceChain.exists_of_resolve? hfound
  exact h.entries hsuffix hmem

/-! ## On the way to the last builder -/

/-- The numbers of the last builder are in range, and it has all parts of this one, but for
repositories that still were to be filled. -/
structure Builder.LeadsTo (b last : Builder) : Prop where
  numbered : last.grammar.Numbered
  count_le : ∀ k, b.grammar.count k ≤ last.grammar.count k
  kept : ∀ n p, b.grammar.part? n = some p → p ≠ .repository [] → last.grammar.part? n = some p
  localIncludes : b.localIncludes ⊆ last.localIncludes

namespace Builder

variable {b c last : Builder}

theorem LeadsTo.withRoot {root : ListId} (h : (c.withRoot root).grammar.Numbered) :
    c.LeadsTo (c.withRoot root) :=
  ⟨h, fun _ => Nat.le_refl _, fun _ _ hp _ => hp, List.Subset.refl _⟩

theorem Grows.leadsTo (h : b.Grows c) (hc : c.LeadsTo last) : b.LeadsTo last where
  numbered := hc.numbered
  count_le k := Nat.le_trans (h.count_le k) (hc.count_le k)
  kept n p hp hne :=
    hc.kept n p (h.kept (hc.numbered.of_count_le hc.count_le) n p hp) hne
  localIncludes := List.Subset.trans h.localIncludes.subset hc.localIncludes

/-- Filling a repository is on the way. -/
theorem LeadsTo.unfilled {id : RepositoryId} {lists : List (String × ListId)}
    (hid : c.grammar.part? id.part = some (.repository []))
    (h : LeadsTo { c with grammar := c.grammar.withRepository id lists } last) :
    c.LeadsTo last where
  numbered := h.numbered
  count_le k := Nat.le_trans (Nat.le_of_eq (Grammar.count_withRepository ..).symm) (h.count_le k)
  kept n p hp hne := by
    by_cases hn : n = id.part
    · rw [hn, hid] at hp
      cases hp
      exact absurd rfl hne
    · exact h.kept n p ((Grammar.part?_withRepository_of_ne hn lists).trans hp) hne
  localIncludes := h.localIncludes

end Builder

/-- The step was run on the way to the last builder, with this answer. -/
def Build.RunTo {α : Type} (last : Builder) (m : Build α) (a : α) : Prop :=
  ∃ b c, Gives m b a c ∧ c.LeadsTo last

namespace Build

variable {α β : Type} {last : Builder} {a : α}

theorem RunTo.bind {m : Build α} {f : α → Build β} [∀ a, Growing (f a)] {y : β}
    (h : RunTo last (m >>= f) y) : ∃ a, RunTo last m a ∧ RunTo last (f a) y := by
  obtain ⟨b, d, hgives, hd⟩ := h
  obtain ⟨a, c, hm, hrest⟩ := gives_bind.1 hgives
  have hc : c.LeadsTo last := Builder.Grows.leadsTo (Growing.grows hrest) hd
  exact ⟨a, ⟨b, c, hm, hc⟩, c, d, hrest, hd⟩

theorem runTo_pure {a' : α} (h : RunTo last (pure a) a') : a' = a := by
  obtain ⟨b, c, hgives, _⟩ := h
  exact (gives_pure.1 hgives).1

end Build

/-! ## Rules that were compiled -/

/-- The rule was compiled under these repositories. -/
def RuleRun (validate : Validator) (last : Builder) (repositories : RepositoryChain)
    (r : RuleSource) : Prop :=
  ∃ path item, RunTo last (compileRule validate repositories path r) item

/-- The entry was compiled to the list, under these repositories. -/
def EntryRun (validate : Validator) (last : Builder) (repositories : RepositoryChain)
    (r : RuleSource) (list : ListId) : Prop :=
  ∃ path, RunTo last (compileEntry validate repositories path r) list

section Runs

variable {last : Builder} {repositories : RepositoryChain} {path : String}

theorem EntryRun.rule {r : RuleSource} {list : ListId}
    (h : EntryRun validate last repositories r list) : RuleRun validate last repositories r := by
  obtain ⟨path, hrun⟩ := h
  rw [compileEntry_eq] at hrun
  obtain ⟨item, hitem, _⟩ := hrun.bind
  exact ⟨path, item, hitem⟩

theorem compileRules_run {i : Nat} {rules : List RuleSource} {items : List ListItem}
    (h : RunTo last (compileRules validate repositories path i rules) items) :
    ∀ r ∈ rules, RuleRun validate last repositories r := by
  induction rules generalizing i items with
  | nil => exact nofun
  | cons r rest ih =>
    rw [compileRules] at h
    obtain ⟨item, hitem, h⟩ := h.bind
    obtain ⟨more, hmore, _⟩ := h.bind
    exact List.forall_mem_cons.2 ⟨⟨_, item, hitem⟩, ih hmore⟩

theorem compileItems_run {rules : List RuleSource} {list : ListId}
    (h : RunTo last (compileItems validate repositories path rules) list) :
    ∀ r ∈ rules, RuleRun validate last repositories r := by
  obtain ⟨items, hitems, _⟩ := RunTo.bind h
  exact compileRules_run hitems

theorem compileEntries_run {entries : List (String × RuleSource)} {lists : List (String × ListId)}
    (h : RunTo last (compileEntries validate repositories path entries) lists) :
    List.Forall₂ (fun e l => e.1 = l.1 ∧ EntryRun validate last repositories e.2 l.2)
      entries lists := by
  induction entries generalizing lists with
  | nil =>
    rw [compileEntries] at h
    cases runTo_pure h
    exact .nil
  | cons e rest ih =>
    obtain ⟨key, r⟩ := e
    rw [compileEntries_cons] at h
    obtain ⟨list, hlist, h⟩ := h.bind
    obtain ⟨more, hmore, h⟩ := h.bind
    cases runTo_pure h
    exact .cons ⟨rfl, _, hlist⟩ (ih hmore)

theorem captureItems_run {rules : List RuleSource} {list : Option ListId}
    (h : RunTo last (captureItems validate repositories path rules) list) :
    ∀ r ∈ rules, RuleRun validate last repositories r := by
  rw [captureItems] at h
  split at h
  · next hempty =>
    rw [List.isEmpty_iff] at hempty
    simp [hempty]
  · obtain ⟨list, hlist, _⟩ := h.bind
    exact compileItems_run hlist

theorem fillCaptures_run {entries : List (String × RuleSource)} {table table' : CaptureTable}
    (h : RunTo last (fillCaptures validate repositories path table entries) table') :
    ∀ r ∈ entries.flatMap (·.2.patterns), RuleRun validate last repositories r := by
  induction entries generalizing table with
  | nil => exact nofun
  | cons e rest ih =>
    obtain ⟨key, r⟩ := e
    rw [fillCaptures_cons] at h
    obtain ⟨id, hid, hrest⟩ := h.bind
    rw [compileCapture] at hid
    obtain ⟨list, hlist, _⟩ := hid.bind
    rw [List.flatMap_cons, List.forall_mem_append]
    exact ⟨captureItems_run hlist, ih hrest⟩

/-- The keys are group numbers, and the rules of the captures were compiled. -/
theorem compileTable_run {entries : List (String × RuleSource)} {table : CaptureTable}
    (h : RunTo last (compileTable validate repositories path entries) table) :
    (∃ numbers, captureKeys entries = .ok numbers) ∧
      ∀ r ∈ entries.flatMap (·.2.patterns), RuleRun validate last repositories r := by
  obtain ⟨space, ⟨b, c, hspace, _⟩, hfill⟩ := RunTo.bind h
  refine ⟨?_, fillCaptures_run hfill⟩
  rw [captureSpace] at hspace
  cases hkeys : captureKeys entries with
  | error key =>
    rw [hkeys] at hspace
    exact absurd hspace not_gives_refuse
  | ok numbers => exact ⟨numbers, rfl⟩

theorem compileForm_run {r : RuleSource} {shape : RuleForm} {item : Option ListItem}
    (h : RunTo last (compileForm validate repositories path r shape) item) :
    (∀ table ∈ r.tables shape, ∃ numbers, captureKeys table = .ok numbers) ∧
      ∀ c ∈ r.inner shape, RuleRun validate last repositories c := by
  cases shape with
  | single source =>
    rw [compileForm] at h
    obtain ⟨_, _, h⟩ := h.bind
    obtain ⟨table, htable, _⟩ := h.bind
    obtain ⟨hkeys, hrules⟩ := compileTable_run htable
    refine ⟨List.forall_mem_singleton.2 hkeys, ?_⟩
    simpa [RuleSource.inner, RuleSource.tables, RuleSource.body] using hrules
  | span opening close isWhile =>
    rw [compileForm] at h
    obtain ⟨_, _, h⟩ := h.bind
    obtain ⟨_, _, h⟩ := h.bind
    obtain ⟨_, hopening, h⟩ := h.bind
    obtain ⟨_, hclose, h⟩ := h.bind
    obtain ⟨_, hitems, _⟩ := h.bind
    obtain ⟨hopeningKeys, hopeningRules⟩ := compileTable_run hopening
    obtain ⟨hcloseKeys, hcloseRules⟩ := compileTable_run hclose
    refine ⟨List.forall_mem_cons.2 ⟨hopeningKeys, List.forall_mem_singleton.2 hcloseKeys⟩, ?_⟩
    intro c hc
    simp only [RuleSource.inner, RuleSource.tables, List.flatMap_cons, List.flatMap_nil,
      List.append_nil, List.mem_append] at hc
    obtain (hc | hc) | hc := hc
    · exact hopeningRules c hc
    · exact hcloseRules c hc
    · exact compileItems_run hitems c hc
  | container =>
    refine ⟨List.forall_mem_nil _, fun c hc => ?_⟩
    have hc : c ∈ r.patterns := by
      simpa [RuleSource.inner, RuleSource.tables, RuleSource.body] using hc
    rw [compileForm, if_neg (by simpa using List.ne_nil_of_mem hc)] at h
    obtain ⟨list, hlist, _⟩ := h.bind
    exact compileItems_run hlist c hc

theorem compileInclude_run {text : String} {item : ListItem}
    (h : RunTo last (compileInclude repositories path text) item) :
    item = .linked { target := .ofString text, repositories } ∧
      ∀ name, IncludeTarget.ofString text = .entry name →
        ∃ l ∈ last.localIncludes, l.name = name ∧ l.repositories = repositories := by
  unfold compileInclude at h
  cases htarget : IncludeTarget.ofString text with
  | entry name =>
    rw [htarget] at h
    obtain ⟨_, ⟨b, c, hnoted, hc⟩, h⟩ := RunTo.bind h
    refine ⟨runTo_pure h, ?_⟩
    rintro _ ⟨⟩
    cases hnoted
    exact ⟨_, hc.localIncludes (List.mem_append_right _ (.head _)), rfl, rfl⟩
  | self =>
    rw [htarget] at h
    exact ⟨runTo_pure h, nofun⟩
  | base =>
    rw [htarget] at h
    exact ⟨runTo_pure h, nofun⟩
  | foreign scopeName entry =>
    rw [htarget] at h
    exact ⟨runTo_pure h, nofun⟩

/-- A repository is reserved, its entries are compiled with it around them, and it is filled. -/
theorem compileRepository_steps {entries : List (String × RuleSource)} {stack : RepositoryChain}
    {b d : Builder} (h : Gives (compileRepository validate repositories path entries) b stack d)
    (hd : d.LeadsTo last) :
    ∃ id lists c, stack = ⟨id :: repositories.ids⟩ ∧ repositories.ids.length < repositoryDepth ∧
      id.part = b.grammar.next .repository ∧
      Gives (compileEntries validate stack path entries) (b.add (.repository [])) lists c ∧
      c.LeadsTo last ∧ c.grammar.part? id.part = some (.repository []) ∧
      d = { c with grammar := c.grammar.withRepository id lists } := by
  obtain ⟨id, lists, c, hid, hpush, hentries, rfl⟩ := compileRepository_gives.1 h
  have hgrows : (b.add (.repository [])).Grows c := Growing.grows hentries
  have hc : c.grammar.Numbered := hd.numbered.of_count_le fun k =>
    Nat.le_trans (Nat.le_of_eq (Grammar.count_withRepository ..).symm) (hd.count_le k)
  have hpart := (addRepository_adds.of_gives hid).2 (hgrows.numbered hc)
  have hempty : c.grammar.part? id.part = some (.repository []) := by
    refine hgrows.kept hc _ _ ?_
    rw [Builder.add, Grammar.part?_addPart, if_pos hpart]
  unfold RepositoryChain.push at hpush
  split at hpush
  · next hlt =>
    cases hpush
    exact ⟨id, lists, c, rfl, hlt, hpart, hentries, hd.unfilled hempty, hempty, rfl⟩
  · cases hpush

/-- A repository is filled with the lists of its entries, which were compiled with it around
them. -/
theorem compileRepository_run {entries : List (String × RuleSource)} {stack : RepositoryChain}
    {b d : Builder} (h : Gives (compileRepository validate repositories path entries) b stack d)
    (hd : d.LeadsTo last) :
    ∃ id lists, stack = ⟨id :: repositories.ids⟩ ∧ repositories.ids.length < repositoryDepth ∧
      id.part = b.grammar.next .repository ∧
      d.grammar.part? id.part = some (.repository lists) ∧
      List.Forall₂ (fun e l => e.1 = l.1 ∧ EntryRun validate last stack e.2 l.2) entries lists := by
  obtain ⟨id, lists, c, hstack, hlt, hpart, hentries, hc, hempty, rfl⟩ :=
    compileRepository_steps h hd
  have hfilled := Grammar.part?_withRepository_self (Grammar.lt_count_of_part? hempty) lists
  exact ⟨id, lists, hstack, hlt, hpart, hfilled, compileEntries_run ⟨_, c, hentries, hc⟩⟩

theorem compileShape_run {r : RuleSource} {shape : RuleForm} {item : Option ListItem}
    (h : RunTo last (compileShape validate repositories path r shape) item) :
    ∃ stack, RunTo last (enterRule validate repositories path r) stack ∧
      (shape.refusal? validate = none →
        RunTo last (compileForm validate stack path r shape) item) := by
  rw [compileShape] at h
  cases hrefusal : shape.refusal? validate with
  | some refusal =>
    rw [hrefusal] at h
    obtain ⟨stack, hstack, _⟩ := h.bind
    exact ⟨stack, hstack, fun hnone => absurd hnone (Option.some_ne_none _)⟩
  | none =>
    rw [hrefusal] at h
    obtain ⟨stack, hstack, hform⟩ := h.bind
    exact ⟨stack, hstack, fun _ => hform⟩

/-- What became of a rule: nothing, an include, or what its form asks for. -/
theorem compileRule_run {r : RuleSource} {item : Option ListItem}
    (h : RunTo last (compileRule validate repositories path r) item) :
    (r.disabled = true ∧ item = none) ∨ r.disabled = false ∧
      ((∃ text target, r.includeText = some text ∧ item = some target ∧
        RunTo last (compileInclude repositories path text) target) ∨
      ∃ shape, r.includeText = none ∧ r.form = .ok shape ∧
        RunTo last (compileShape validate repositories path r shape) item) := by
  rw [compileRule_eq] at h
  cases hdisabled : r.disabled with
  | true =>
    rw [if_pos hdisabled] at h
    exact .inl ⟨rfl, runTo_pure h⟩
  | false =>
    rw [if_neg (by simp [hdisabled])] at h
    refine .inr ⟨rfl, ?_⟩
    cases htext : r.includeText with
    | some text =>
      rw [htext] at h
      obtain ⟨target, htarget, h⟩ := RunTo.bind h
      exact .inl ⟨text, target, rfl, runTo_pure h, htarget⟩
    | none =>
      rw [htext] at h
      cases hform : r.form with
      | error fault =>
        rw [hform] at h
        obtain ⟨b, c, hgives, _⟩ := h
        exact absurd hgives not_gives_refuse
      | ok shape =>
        rw [hform] at h
        exact .inr ⟨shape, rfl, rfl, h⟩

theorem RuleRun.shape {r : RuleSource} (h : RuleRun validate last repositories r)
    (hdisabled : r.disabled = false) (hinclude : r.includeText = none) :
    ∃ path shape item, r.form = .ok shape ∧
      RunTo last (compileShape validate repositories path r shape) item := by
  obtain ⟨path, item, hrun⟩ := h
  obtain ⟨hd, _⟩ | ⟨_, ⟨text, _, htext, _⟩ | ⟨shape, _, hform, hshape⟩⟩ := compileRule_run hrun
  · rw [hdisabled] at hd
    cases hd
  · rw [hinclude] at htext
    cases htext
  · exact ⟨path, shape, item, hform, hshape⟩

end Runs

/-! ## Repositories by number -/

theorem Grammar.entryIn?_of_part? {g : Grammar} {id : RepositoryId}
    {lists : List (String × ListId)} (h : g.part? id.part = some (.repository lists))
    (name : String) : g.entryIn? name id = lists.lookup name := by
  obtain ⟨_, hlists, heq⟩ := Option.map_eq_some_iff.1 h
  cases heq
  exact congrArg (Option.bind · (List.lookup name)) hlists

/-- The numbers are those of these repositories: each is filled with the lists that its entries were
compiled to. -/
inductive Builder.Shows (validate : Validator) (last : Builder) :
    List RepositoryId → SourceChain → Prop
  | nil : Shows validate last [] []
  | cons {id : RepositoryId} {ids : List RepositoryId} {entries : List (String × RuleSource)}
      {chain : SourceChain} {lists : List (String × ListId)} :
      last.grammar.part? id.part = some (.repository lists) →
      List.Forall₂ (fun e l => e.1 = l.1 ∧ EntryRun validate last ⟨id :: ids⟩ e.2 l.2) entries
        lists →
      Shows validate last ids chain → Shows validate last (id :: ids) (entries :: chain)

section Entries

variable {last : Builder} {repositories : RepositoryChain}
  {entries : List (String × RuleSource)} {lists : List (String × ListId)}

theorem rules_run (h : List.Forall₂ (fun e l => e.1 = l.1 ∧
      EntryRun validate last repositories e.2 l.2) entries lists) :
    ∀ e ∈ entries, RuleRun validate last repositories e.2 := by
  induction h with
  | nil => exact nofun
  | cons hhead _ ih => exact List.forall_mem_cons.2 ⟨hhead.2.rule, ih⟩

theorem lookup_entries_run (h : List.Forall₂ (fun e l => e.1 = l.1 ∧
      EntryRun validate last repositories e.2 l.2) entries lists) (name : String) :
    Option.Rel (EntryRun validate last repositories) (entries.lookup name) (lists.lookup name) := by
  induction h with
  | nil => exact .none
  | @cons e l _ _ hhead _ ih =>
    obtain ⟨key, r⟩ := e
    obtain ⟨_, list⟩ := l
    obtain ⟨rfl, hrun⟩ := hhead
    rw [List.lookup_cons, List.lookup_cons]
    cases name == key with
    | true => exact .some hrun
    | false => exact ih

end Entries

namespace Builder.Shows

variable {last : Builder} {ids : List RepositoryId} {chain : SourceChain}

theorem length_eq (h : Shows validate last ids chain) : ids.length = chain.length := by
  induction h with
  | nil => rfl
  | cons _ _ _ ih => exact congrArg (· + 1) ih

theorem findSome?_entryIn? (h : Shows validate last ids chain) (name : String) :
    Option.Rel (fun found l => ∃ ids', Shows validate last ids' found.2 ∧
        EntryRun validate last ⟨ids'⟩ found.1 l)
      (chain.resolve? name) (ids.findSome? (last.grammar.entryIn? name)) := by
  induction h with
  | nil => exact .none
  | @cons id ids entries chain lists hpart hentries houter ih =>
    rw [List.findSome?_cons, SourceChain.resolve?, Grammar.entryIn?_of_part? hpart]
    have hlookup := lookup_entries_run hentries name
    generalize lists.lookup name = found at hlookup ⊢
    generalize entries.lookup name = written at hlookup ⊢
    cases hlookup with
    | none => exact ih
    | some hrun => exact .some ⟨id :: ids, .cons hpart hentries houter, hrun⟩

/-- Looking up an entry by number finds what was compiled from the entry of the innermost repository
that has one of this name, with that repository and those outside of it around it. -/
theorem visibleEntry? {repositories : RepositoryChain}
    (h : Shows validate last repositories.ids chain) (name : String) :
    Option.Rel (fun found l => ∃ ids, Shows validate last ids found.2 ∧
        EntryRun validate last ⟨ids⟩ found.1 l)
      (chain.resolve? name) (last.grammar.visibleEntry? name repositories) :=
  h.findSome?_entryIn? name

theorem visibleEntry?_isSome {repositories : RepositoryChain}
    (h : Shows validate last repositories.ids chain) (name : String) :
    (last.grammar.visibleEntry? name repositories).isSome = (chain.resolve? name).isSome := by
  have hrel := h.visibleEntry? name
  generalize last.grammar.visibleEntry? name repositories = found at hrel ⊢
  generalize chain.resolve? name = written at hrel ⊢
  cases hrel <;> rfl

end Builder.Shows

section Enter

variable {last : Builder} {repositories stack : RepositoryChain} {path : String} {r : RuleSource}
  {chain : SourceChain}

/-- A repository that is not empty is the innermost one for its entries. -/
theorem compileRepository_shows {entries : List (String × RuleSource)}
    (hchain : Builder.Shows validate last repositories.ids chain) (hne : entries ≠ [])
    (h : RunTo last (compileRepository validate repositories path entries) stack) :
    Builder.Shows validate last stack.ids (entries :: chain) ∧
      repositories.ids.length < repositoryDepth ∧
      ∀ e ∈ entries, RuleRun validate last stack e.2 := by
  obtain ⟨b, d, hgives, hd⟩ := h
  obtain ⟨id, lists, rfl, hlt, _, hfilled, hentries⟩ := compileRepository_run hgives hd
  have hlists : lists ≠ [] := by
    rintro rfl
    exact hne (List.forall₂_nil_right_iff.1 hentries)
  exact ⟨.cons (hd.kept _ _ hfilled (by simpa using hlists)) hentries hchain, hlt,
    rules_run hentries⟩

theorem enterRule_shows (hchain : Builder.Shows validate last repositories.ids chain)
    (h : RunTo last (enterRule validate repositories path r) stack) :
    Builder.Shows validate last stack.ids (r.chainInside chain) ∧
      (r.repository ≠ [] → repositories.ids.length < repositoryDepth) ∧
      ∀ e ∈ r.repository, RuleRun validate last stack e.2 := by
  rw [enterRule] at h
  rw [RuleSource.chainInside]
  by_cases hempty : r.repository.isEmpty
  · rw [if_pos hempty] at h ⊢
    rw [List.isEmpty_iff] at hempty
    obtain rfl := runTo_pure h
    exact ⟨hchain, fun hne => absurd hempty hne, by simp [hempty]⟩
  · rw [if_neg hempty] at h ⊢
    obtain ⟨hshows, hlt, hrules⟩ := compileRepository_shows hchain (by simpa using hempty) h
    exact ⟨hshows, fun _ => hlt, hrules⟩

end Enter

/-! ## Whole sources -/

/-- All parts of the source were compiled, up to the check of its includes, which left this
builder. -/
def GrammarSource.CompiledTo (validate : Validator) (s : GrammarSource) (last : Builder) : Prop :=
  ∃ stack root c, Gives (compileParts validate s) (.first s) (stack, root) c ∧
    last = c.withRoot root

section Sources

variable {s : GrammarSource} {last : Builder}

theorem gives_compileSource_first :
    Gives (compileSource validate s) (.first s) () last ↔
      s.CompiledTo validate last ∧ last.grammar.danglingInclude? last.localIncludes = none := by
  rw [gives_compileSource]
  constructor
  · rintro ⟨stack, root, c, hparts, hlast, hnone⟩
    exact ⟨⟨stack, root, c, hparts, hlast⟩, hnone⟩
  · rintro ⟨⟨stack, root, c, hparts, hlast⟩, hnone⟩
    exact ⟨stack, root, c, hparts, hlast, hnone⟩

namespace GrammarSource

/-- The repository of the grammar is reserved and gets the first number, its entries are compiled,
it is filled, and the top-level rules are compiled. -/
theorem CompiledTo.steps (h : s.CompiledTo validate last) (hn : last.grammar.Numbered) :
    ∃ own lists c root e, own.part = ⟨.repository, 0⟩ ∧
      Gives (compileEntries validate ⟨[own]⟩ "repository" s.repository)
        (.add (.first s) (.repository [])) lists c ∧ c.LeadsTo last ∧
      c.grammar.part? own.part = some (.repository []) ∧
      last.grammar.part? own.part = some (.repository lists) ∧
      Gives (compileItems validate ⟨[own]⟩ "patterns" s.patterns)
        { c with grammar := c.grammar.withRepository own lists } root e ∧
      e.LeadsTo last ∧ last = e.withRoot root := by
  obtain ⟨stack, root, e, hparts, rfl⟩ := h
  obtain ⟨stack', d, hrepository, hrest⟩ := gives_bind.1 hparts
  obtain ⟨root', e', hitems, hpure⟩ := gives_bind.1 hrest
  obtain ⟨heq, rfl⟩ := gives_pure.1 hpure
  cases heq
  have hgrows : d.Grows e := Growing.grows hitems
  have he : e.LeadsTo (e.withRoot root) := .withRoot hn
  obtain ⟨own, lists, c, rfl, _, hown, hentries, hc, hfree, rfl⟩ :=
    compileRepository_steps hrepository (hgrows.leadsTo he)
  have hfilled := Grammar.part?_withRepository_self (Grammar.lt_count_of_part? hfree) lists
  exact ⟨own, lists, c, root, e, hown, hentries, hc, hfree, hgrows.kept hn _ _ hfilled, hitems, he,
    rfl⟩

/-- The top-level rules and the entries of the repository of the grammar were compiled with that
repository around them. -/
theorem CompiledTo.runs (h : s.CompiledTo validate last) (hn : last.grammar.Numbered) :
    ∃ own lists, own.part = ⟨.repository, 0⟩ ∧
      last.grammar.part? own.part = some (.repository lists) ∧
      List.Forall₂ (fun e l => e.1 = l.1 ∧ EntryRun validate last ⟨[own]⟩ e.2 l.2)
        s.repository lists ∧
      ∀ r ∈ s.patterns, RuleRun validate last ⟨[own]⟩ r := by
  obtain ⟨own, lists, c, root, e, hown, hentries, hc, _, hpart, hitems, he, _⟩ := h.steps hn
  exact ⟨own, lists, hown, hpart, compileEntries_run ⟨_, c, hentries, hc⟩,
    compileItems_run ⟨_, e, hitems, he⟩⟩

/-- Every rule that is looked at was compiled, under the numbers of the repositories around it. -/
theorem Visits.run (h : s.CompiledTo validate last) (hn : last.grammar.Numbered)
    {chain : SourceChain} {r : RuleSource} (hr : s.Visits validate chain r) :
    ∃ repositories : RepositoryChain, Builder.Shows validate last repositories.ids chain ∧
      RuleRun validate last repositories r := by
  obtain ⟨own, lists, _, hpart, hentries, hpatterns⟩ := h.runs hn
  have hown : Builder.Shows validate last [own] [s.repository] := .cons hpart hentries .nil
  induction hr with
  | ownEntry he => exact ⟨⟨[own]⟩, hown, rules_run hentries _ he⟩
  | pattern hr => exact ⟨⟨[own]⟩, hown, hpatterns _ hr⟩
  | @entry chain r e _ hdisabled hinclude he ih =>
    obtain ⟨repositories, hchain, hrun⟩ := ih
    obtain ⟨path, shape, item, _, hshape⟩ := hrun.shape hdisabled hinclude
    obtain ⟨stack, hstack, _⟩ := compileShape_run hshape
    obtain ⟨hshows, _, hrules⟩ := enterRule_shows hchain hstack
    rw [RuleSource.chainInside, if_neg (by simpa using List.ne_nil_of_mem he)] at hshows
    exact ⟨stack, hshows, hrules e he⟩
  | @inside chain r c shape _ htaken hc ih =>
    obtain ⟨repositories, hchain, hrun⟩ := ih
    obtain ⟨path, shape', item, hform, hshape⟩ := hrun.shape htaken.enabled htaken.noInclude
    obtain rfl : shape = shape' := Except.ok.inj (htaken.form.symm.trans hform)
    obtain ⟨stack, hstack, hform⟩ := compileShape_run hshape
    obtain ⟨hshows, _, _⟩ := enterRule_shows hchain hstack
    exact ⟨stack, hshows, (compileForm_run (hform htaken.accepted)).2 c hc⟩

end GrammarSource

end Sources

end ScopeGrammar
