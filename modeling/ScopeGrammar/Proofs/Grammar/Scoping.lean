import ScopeGrammar.Proofs.Grammar.Traversal

/-!
# ScopeGrammar.Proofs.Grammar.Scoping

What an include of an entry stands for: the entry of the innermost repository around it.

* `GrammarSource.Written` : an include of a compiled grammar is written in a rule that is looked at,
  and its numbers are those of the repositories around that rule.
* `Builder.AllWritten` : so it is for all includes so far, `Build.Traces` : a step keeps it so. All
  steps of compiling do (`traces_traversal`).
* `GrammarSource.Asks.finds` : an include of an entry leads to the list that the entry of the
  innermost repository around it was compiled to (`GrammarSource.Finds`).
* `Grammar.ofSource_scopes` : this holds of all includes of a compiled grammar. From another grammar
  only the entries of the repository of the grammar itself are seen.

All this is said of grammars whose numbers are in range. There are only 2 ^ 16 numbers for
repositories, and captures that stand for both ends of a span are compiled twice.
-/

namespace ScopeGrammar

open Build

variable {validate : Validator} {s : GrammarSource} {last : Builder}

/-! ## Where includes come from -/

/-- The include is written in a rule that is looked at, with these repositories around it. -/
def GrammarSource.Written (validate : Validator) (s : GrammarSource) (last : Builder)
    (i : Include) : Prop :=
  ∃ chain r text, s.Visits validate chain r ∧ r.disabled = false ∧ r.includeText = some text ∧
    i.target = .ofString text ∧ Builder.Shows validate last i.repositories.ids chain

/-- All includes so far are written ones, those that are still to be checked as well. -/
structure Builder.AllWritten (validate : Validator) (s : GrammarSource) (last b : Builder) :
    Prop where
  parts : ∀ n p, b.grammar.part? n = some p → ∀ i ∈ p.includes, s.Written validate last i
  noted : ∀ l ∈ b.localIncludes, s.Written validate last ⟨.entry l.name, l.repositories⟩

namespace Builder.AllWritten

variable {b : Builder}

theorem first : AllWritten validate s last (.first s) := by
  refine ⟨fun n p hp => ?_, nofun⟩
  have hlt := Grammar.lt_count_of_part? hp
  rw [Builder.count_first] at hlt
  exact absurd hlt (Nat.not_lt_zero _)

theorem add (h : AllWritten validate s last b) {p : Part}
    (hp : ∀ i ∈ p.includes, s.Written validate last i) :
    AllWritten validate s last (b.add p) := by
  refine ⟨fun n q hq => ?_, h.noted⟩
  rw [Builder.add, Grammar.part?_addPart] at hq
  split at hq
  · cases hq
    exact hp
  · exact h.parts n q hq

theorem fill (h : AllWritten validate s last b) {id : RepositoryId}
    (hid : b.grammar.part? id.part = some (.repository [])) (lists : List (String × ListId)) :
    AllWritten validate s last { b with grammar := b.grammar.withRepository id lists } := by
  refine ⟨fun n p hp => ?_, h.noted⟩
  by_cases hn : n = id.part
  · subst hn
    rw [Grammar.part?_withRepository_self (Grammar.lt_count_of_part? hid)] at hp
    cases hp
    exact nofun
  · exact h.parts n p ((Grammar.part?_withRepository_of_ne hn lists).symm.trans hp)

end Builder.AllWritten

namespace Build

variable {α β : Type}

/-- On the way to the last builder all includes remain written ones, and the answer is as wanted. -/
def Traces (validate : Validator) (s : GrammarSource) (last : Builder) (m : Build α)
    (Q : α → Prop) : Prop :=
  ∀ b a c, Gives m b a c → c.LeadsTo last → Builder.AllWritten validate s last b →
    Builder.AllWritten validate s last c ∧ Q a

theorem traces_pure {Q : α → Prop} {a : α} (h : Q a) : Traces validate s last (pure a) Q := by
  intro b a' c hgives _ hb
  obtain ⟨rfl, rfl⟩ := gives_pure.1 hgives
  exact ⟨hb, h⟩

theorem Traces.bind {m : Build α} {f : α → Build β} [∀ a, Growing (f a)] {Q : α → Prop}
    {R : β → Prop} (h : Traces validate s last m Q)
    (hf : ∀ a, Q a → Traces validate s last (f a) R) : Traces validate s last (m >>= f) R := by
  intro b y d hgives hd hb
  obtain ⟨a, c, hm, hrest⟩ := gives_bind.1 hgives
  have hgrows : c.Grows d := Growing.grows hrest
  obtain ⟨hc, hQ⟩ := h b a c hm (hgrows.leadsTo hd) hb
  exact hf a hQ c y d hrest hd hc

theorem Adds.traces {ι : Type} {part : ι → PartId} {m : Build ι} {p : Part} (h : Adds part m p)
    (hp : ∀ i ∈ p.includes, s.Written validate last i) :
    Traces validate s last m fun _ => True := by
  intro b id c hgives _ hb
  obtain ⟨rfl, _⟩ := h.of_gives hgives
  exact ⟨hb.add hp, trivial⟩

end Build

theorem compileInclude_traces {chain : SourceChain} {repositories : RepositoryChain}
    {r : RuleSource} {text : String} (hr : s.Visits validate chain r)
    (hdisabled : r.disabled = false) (htext : r.includeText = some text)
    (hchain : Builder.Shows validate last repositories.ids chain) (path : String) :
    Traces validate s last (compileInclude repositories path text) fun item =>
      ItemsKept (s.Written validate last) [item] := by
  have hwritten : s.Written validate last { target := .ofString text, repositories } :=
    ⟨chain, r, text, hr, hdisabled, htext, rfl, hchain⟩
  intro b item c hgives hc hb
  obtain ⟨rfl, _⟩ := compileInclude_run ⟨b, c, hgives, hc⟩
  refine ⟨?_, List.forall_mem_singleton.2 hwritten⟩
  unfold compileInclude at hgives
  cases htarget : IncludeTarget.ofString text with
  | entry name =>
    rw [htarget] at hgives hwritten
    obtain ⟨_, d, hnoted, hpure⟩ := gives_bind.1 hgives
    obtain ⟨_, rfl⟩ := gives_pure.1 hpure
    cases hnoted
    refine ⟨hb.parts, fun l hl => ?_⟩
    obtain hl | hl := List.mem_append.1 hl
    · exact hb.noted l hl
    · rw [List.mem_singleton.1 hl]
      exact hwritten
  | self =>
    rw [htarget] at hgives
    obtain ⟨_, rfl⟩ := gives_pure.1 hgives
    exact hb
  | base =>
    rw [htarget] at hgives
    obtain ⟨_, rfl⟩ := gives_pure.1 hgives
    exact hb
  | foreign scopeName entry =>
    rw [htarget] at hgives
    obtain ⟨_, rfl⟩ := gives_pure.1 hgives
    exact hb

/-- The single steps keep the includes written. An include of an entry is noted as well. -/
theorem Build.traces_traversal : Traversal validate s (Build.Traces validate s last)
    (fun chain repositories => Builder.Shows validate last repositories.ids chain)
    (s.Written validate last) where
  pure := traces_pure
  bind := Traces.bind
  adds hadds _ := hadds.traces
  skip path refusal := by
    intro b _ c hgives _ hb
    cases hgives
    exact ⟨⟨hb.parts, hb.noted⟩, trivial⟩
  linked path hr hdisabled htext hchain := compileInclude_traces hr hdisabled htext hchain path
  refuse path _ _ _ _ := fun _ _ _ hgives => absurd hgives not_gives_refuse
  space path _ _ _ := by
    intro b table c hgives _ hb
    obtain ⟨rfl, _⟩ := captureSpace_gives hgives
    exact ⟨hb, trivial⟩
  repository path _ _ _ hne hchain hentries := by
    intro b stack d hgives hd hb
    obtain ⟨hshows, _, _⟩ := compileRepository_shows hchain hne ⟨b, d, hgives, hd⟩
    obtain ⟨id, lists, c, _, _, _, hlists, hc, hfree, rfl⟩ := compileRepository_steps hgives hd
    have hadded : Builder.AllWritten validate s last (b.add (.repository [])) := hb.add nofun
    exact ⟨(hentries stack hshows _ lists c hlists hc hadded).1.fill hfree lists, hshows⟩

/-- All includes of a compiled source are written in rules that are looked at. -/
theorem GrammarSource.CompiledTo.written (h : s.CompiledTo validate last)
    (hn : last.grammar.Numbered) : Builder.AllWritten validate s last last := by
  obtain ⟨own, lists, c, root, e, _, hentries, hc, hfree, hpart, hitems, he, hlast⟩ := h.steps hn
  have hshows : Builder.Shows validate last [own] [s.repository] :=
    .cons hpart (compileEntries_run ⟨_, c, hentries, hc⟩) .nil
  have hadded : Builder.AllWritten validate s last (.add (.first s) (.repository [])) :=
    Builder.AllWritten.first.add nofun
  have hentriesTraces : Build.Traces validate s last
      (compileEntries validate ⟨[own]⟩ "repository" s.repository) fun _ => True :=
    traces_traversal.entries (fun e he path => traces_traversal.rule path (.ownEntry he) hshows) _
  have hitemsTraces : Build.Traces validate s last
      (compileItems validate ⟨[own]⟩ "patterns" s.patterns) fun _ => True :=
    traces_traversal.items (fun r hr path => traces_traversal.rule path (.pattern hr) hshows) _
  have hwritten : Builder.AllWritten validate s last c :=
    (hentriesTraces _ lists c hentries hc hadded).1
  obtain ⟨hparts, hnoted⟩ := (hitemsTraces _ root e hitems he (hwritten.fill hfree lists)).1
  rw [hlast] at hparts hnoted ⊢
  exact ⟨hparts, hnoted⟩

/-! ## What includes stand for -/

/-- A rule that is looked at is an include of an entry. -/
structure GrammarSource.Asks (validate : Validator) (s : GrammarSource) (chain : SourceChain)
    (r : RuleSource) (name : String) : Prop where
  visited : s.Visits validate chain r
  enabled : r.disabled = false
  target : r.includeText.map IncludeTarget.ofString = some (.entry name)

/-- With these numbers of repositories, the name leads to the list that the entry of the innermost
repository was compiled to. That repository and those outside of it are around its rules. -/
def GrammarSource.Finds (validate : Validator) (s : GrammarSource) (last : Builder)
    (chain : SourceChain) (repositories : RepositoryChain) (name : String) : Prop :=
  Builder.Shows validate last repositories.ids chain ∧
    ∃ e outer l ids, chain.resolve? name = some (e, outer) ∧ s.Visits validate outer e ∧
      last.grammar.visibleEntry? name repositories = some l ∧
      Builder.Shows validate last ids outer ∧ EntryRun validate last ⟨ids⟩ e l

theorem GrammarSource.Visits.finds {chain outer : SourceChain} {repositories : RepositoryChain}
    {name : String} {r e : RuleSource} (hr : s.Visits validate chain r)
    (h : Builder.Shows validate last repositories.ids chain)
    (hentry : chain.resolve? name = some (e, outer)) :
    s.Finds validate last chain repositories name := by
  refine ⟨h, e, outer, ?_⟩
  have hfound := h.visibleEntry? name
  rw [hentry] at hfound
  generalize last.grammar.visibleEntry? name repositories = found at hfound ⊢
  cases hfound with
  | @some _ l hl =>
    obtain ⟨ids, hshows, hrun⟩ := hl
    exact ⟨l, ids, hentry, hr.resolve? hentry, rfl, hshows, hrun⟩

/-- An include of an entry becomes an element of a list, which finds the entry. -/
theorem GrammarSource.Asks.finds (h : s.CompiledTo validate last)
    (hnone : last.grammar.danglingInclude? last.localIncludes = none)
    (hn : last.grammar.Numbered) {chain : SourceChain} {r : RuleSource} {name : String}
    (hr : s.Asks validate chain r name) :
    ∃ path repositories,
      RunTo last (compileRule validate repositories path r)
        (some (.linked { target := .entry name, repositories })) ∧
      s.Finds validate last chain repositories name := by
  obtain ⟨hvisited, henabled, htarget⟩ := hr
  obtain ⟨text, htext, htarget⟩ := Option.map_eq_some_iff.1 htarget
  obtain ⟨repositories, hshows, path, item, hrun⟩ := hvisited.run h hn
  obtain ⟨hdisabled, _⟩ | ⟨_, ⟨text', item', htext', rfl, hinclude⟩ | ⟨_, htext', _⟩⟩ :=
    compileRule_run hrun
  · rw [henabled] at hdisabled
    cases hdisabled
  · rw [htext] at htext'
    cases htext'
    obtain ⟨rfl, hnoted⟩ := compileInclude_run hinclude
    obtain ⟨l, hl, rfl, rfl⟩ := hnoted name htarget
    rw [htarget] at hrun
    refine ⟨path, l.repositories, hrun, ?_⟩
    -- the include was noted with these numbers, and the last builder had an entry for it
    have hfound : (last.grammar.visibleEntry? l.name l.repositories).isSome := by
      simpa [Option.isSome_iff_ne_none] using List.find?_eq_none.1 hnone l hl
    rw [hshows.visibleEntry?_isSome] at hfound
    obtain ⟨⟨e, outer⟩, hentry⟩ := Option.isSome_iff_exists.1 hfound
    exact hvisited.finds hshows hentry
  · rw [htext] at htext'
    cases htext'

/-- The repository of the grammar itself has the first number. -/
theorem GrammarSource.CompiledTo.own (h : s.CompiledTo validate last)
    (hn : last.grammar.Numbered) : Builder.Shows validate last [⟨0⟩] [s.repository] := by
  obtain ⟨own, lists, hown, hpart, hentries, _⟩ := h.runs hn
  have hindex : own.val.toNat = 0 := congrArg PartId.index hown
  obtain rfl : own = ⟨0⟩ := congrArg RepositoryId.mk (UInt16.toNat_inj.1 hindex)
  exact .cons hpart hentries .nil

theorem Registry.target_foreign {r : Registry} {other : GrammarId} {g : Grammar} {i : Include}
    {scopeName name : String} (htarget : i.target = .foreign scopeName (some name))
    (hid : r.id? scopeName = some other) (hg : r.grammar? other = some g) (base id : GrammarId)
    (grammar : Grammar) :
    (r.target base id grammar i).1 = (g.ownEntry? name).map fun list => (other, list) := by
  simp only [Registry.target, htarget, hid, hg]
  cases g.ownEntry? name <;> rfl

/-- In a grammar that is accepted, every include of an entry stands for the list that the entry of
the innermost repository around it was compiled to, and there are no other includes of entries than
those that were written. From another grammar just the entries of the repository of the grammar
itself can be seen. -/
theorem Grammar.ofSource_scopes {g : Grammar} (hg : (Grammar.ofSource validate s).1 = .ok g)
    (hn : g.Numbered) :
    ∃ last : Builder, Gives (compileSource validate s) (.first s) () last ∧ last.grammar = g ∧
      (∀ n p, g.part? n = some p → ∀ i ∈ p.includes, ∀ name, i.target = .entry name →
        ∃ chain r, s.Asks validate chain r name ∧
          s.Finds validate last chain i.repositories name) ∧
      (∀ chain r name, s.Asks validate chain r name → ∃ path repositories,
        RunTo last (compileRule validate repositories path r)
          (some (.linked { target := .entry name, repositories })) ∧
        s.Finds validate last chain repositories name) ∧
      Builder.Shows validate last [⟨0⟩] [s.repository] ∧
      ∀ (r : Registry) (base id other : GrammarId) (grammar : Grammar) (i : Include)
        (scopeName name : String), i.target = .foreign scopeName (some name) →
        r.id? scopeName = some other → r.grammar? other = some g →
        Option.Rel (fun e place => place.1 = other ∧ EntryRun validate last ⟨[⟨0⟩]⟩ e place.2)
          (s.repository.lookup name) (r.target base id grammar i).1 := by
  obtain ⟨_, last, hsource, rfl⟩ := ofSource_eq_ok.1 hg
  obtain ⟨hparts, hnone⟩ := gives_compileSource_first.1 hsource
  have hown := hparts.own hn
  refine ⟨last, hsource, rfl, ?_, fun chain r name hr => hr.finds hparts hnone hn, hown, ?_⟩
  · intro n p hp i hi name hname
    obtain ⟨chain, r, text, hvisited, henabled, htext, htarget, hshows⟩ :=
      (hparts.written hn).parts n p hp i hi
    have hasks : s.Asks validate chain r name :=
      ⟨hvisited, henabled, by rw [htext, Option.map_some, ← htarget, hname]⟩
    -- the numbers found here need not be those of the include, but the entry is the same
    obtain ⟨_, _, _, _, _, _, _, _, hentry, _⟩ := hasks.finds hparts hnone hn
    exact ⟨chain, r, hasks, hvisited.finds hshows hentry⟩
  · intro r base id other grammar i scopeName name htarget hid hgrammar
    rw [Registry.target_foreign htarget hid hgrammar]
    cases hown with
    | cons hpart hentries _ =>
      rw [Grammar.ownEntry?, Grammar.entryIn?_of_part? hpart]
      have hrel := lookup_entries_run hentries name
      generalize s.repository.lookup name = written at hrel ⊢
      generalize List.lookup name _ = found at hrel ⊢
      cases hrel with
      | none => exact .none
      | some hrun => exact .some ⟨rfl, hrun⟩

/-- An entry of the rule has the name of one of the grammar, and the rule includes it. -/
def innerEntryRule : RuleSource where
  patterns := [{ includeText := some "#x" }]
  repository := [("x", { matchText := some "b", name := some "inner" })]

def innerEntrySource : GrammarSource where
  scopeName := "source.inner"
  patterns := [innerEntryRule]
  repository := [("x", { matchText := some "a", name := some "own" })]

/-- The include leads to the entry of the rule. -/
theorem Grammar.ofSource_scopes_innerEntry :
    ∃ (g : Grammar) (last : Builder) (repositories : RepositoryChain) (l : ListId)
      (ids : List RepositoryId),
      (Grammar.ofSource Regex.engine.validator innerEntrySource).1 = .ok g ∧ g.Numbered ∧
      last.grammar = g ∧ g.visibleEntry? "x" repositories = some l ∧
      EntryRun Regex.engine.validator last ⟨ids⟩
        { matchText := some "b", name := some "inner" } l := by
  have haccepted : (Grammar.ofSource Regex.engine.validator innerEntrySource).1.toOption.any
      (fun g => decide g.Numbered) = true := by decide +kernel
  obtain ⟨g, hg, hn⟩ := exists_ok_of_any haccepted
  replace hn := of_decide_eq_true hn
  obtain ⟨last, _, rfl, _, hfinds, _⟩ := ofSource_scopes hg hn
  have hrule : innerEntrySource.Visits Regex.engine.validator [innerEntrySource.repository]
      innerEntryRule := .pattern (.head _)
  have htaken : innerEntryRule.TakenAs Regex.engine.validator .container := ⟨rfl, rfl, rfl, rfl⟩
  have hinside : ({ includeText := some "#x" } : RuleSource) ∈ innerEntryRule.inner .container :=
    .head _
  have hasks : innerEntrySource.Asks Regex.engine.validator
      (innerEntryRule.chainInside [innerEntrySource.repository]) { includeText := some "#x" } "x" :=
    ⟨.inside hrule htaken hinside, rfl, by decide +kernel⟩
  obtain ⟨_, repositories, _, _, e, outer, l, ids, hentry, _, hl, _, hrun⟩ := hfinds _ _ _ hasks
  have hinner : SourceChain.resolve? "x"
      (innerEntryRule.chainInside [innerEntrySource.repository]) =
        some ({ matchText := some "b", name := some "inner" },
          innerEntryRule.chainInside [innerEntrySource.repository]) := rfl
  cases hentry.symm.trans hinner
  exact ⟨last.grammar, last, repositories, l, ids, hg, hn, rfl, hl, hrun⟩

end ScopeGrammar
