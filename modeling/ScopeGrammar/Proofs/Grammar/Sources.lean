import ScopeGrammar.Proofs.Grammar.Entries

/-!
# ScopeGrammar.Proofs.Grammar.Sources

Matched sources of whole grammars.

* `Grammar.ofSource_matched` : if one of them is accepted and its numbers are in range, the other one
  is accepted too, and the grammars are paired.
-/

namespace ScopeGrammar

open Build

variable {validate : Validator} {drop : Bool}

structure GrammarSource.Matched (S : RuleSource → RuleSource → Prop) (s s' : GrammarSource) :
    Prop where
  scopeName : s.scopeName = s'.scopeName
  repository : RepositoryMatch S s.repository s'.repository
  patterns : List.Forall₂ S s.patterns s'.patterns

/-- All parts of a grammar: its repository and its top-level rules. -/
def compileParts (validate : Validator) (source : GrammarSource) :
    Build (RepositoryChain × ListId) := do
  let stack ← compileRepository validate .empty "repository" source.repository
  let root ← compileItems validate stack "patterns" source.patterns
  pure (stack, root)

instance growing_compileParts (source : GrammarSource) :
    Growing (compileParts validate source) := by
  rw [compileParts]
  infer_instance

def Builder.withRoot (b : Builder) (root : ListId) : Builder :=
  { b with grammar := { b.grammar with root } }

theorem Builder.part?_withRoot (b : Builder) (root : ListId) (n : PartId) :
    (b.withRoot root).grammar.part? n = b.grammar.part? n := rfl

/-- Checks the includes of a grammar whose parts are all there. -/
def checkIncludes : Build Unit := do
  let b ← get
  match b.grammar.danglingInclude? b.localIncludes with
  | some i => refuse i.path (.unknownEntry i.name)
  | none => pure ()

theorem checkIncludes_run (b : Builder) :
    checkIncludes.run b =
      ((match b.grammar.danglingInclude? b.localIncludes with
      | some i => refuse i.path (.unknownEntry i.name)
      | none => pure () : Build Unit)).run b := rfl

theorem gives_checkIncludes {b c : Builder} :
    Gives checkIncludes b () c ↔ c = b ∧ b.grammar.danglingInclude? b.localIncludes = none := by
  rw [Gives, checkIncludes_run]
  cases b.grammar.danglingInclude? b.localIncludes with
  | none =>
    constructor
    · intro h
      cases h
      exact ⟨rfl, rfl⟩
    · rintro ⟨rfl, _⟩
      rfl
  | some i =>
    constructor
    · intro h
      exact absurd h not_gives_refuse
    · rintro ⟨_, h⟩
      cases h

theorem compileSource_eq (source : GrammarSource) :
    compileSource validate source = (do
      let p ← compileParts validate source
      modify fun b => b.withRoot p.2
      checkIncludes) := by
  simp only [compileSource, compileParts, compileRepository, compileItems, bind_assoc, pure_bind]
  rfl

theorem gives_compileSource {source : GrammarSource} {b d : Builder} :
    Gives (compileSource validate source) b () d ↔
      ∃ stack root c, Gives (compileParts validate source) b (stack, root) c ∧
        d = c.withRoot root ∧ d.grammar.danglingInclude? d.localIncludes = none := by
  rw [compileSource_eq, gives_bind]
  constructor
  · rintro ⟨⟨stack, root⟩, c, hparts, h⟩
    obtain ⟨_, c', hmodify, h⟩ := gives_bind.1 h
    cases hmodify
    obtain ⟨rfl, hnone⟩ := gives_checkIncludes.1 h
    exact ⟨stack, root, c, hparts, rfl, hnone⟩
  · rintro ⟨stack, root, c, hparts, rfl, hnone⟩
    refine ⟨(stack, root), c, hparts, gives_bind.2 ⟨(), c.withRoot root, rfl, ?_⟩⟩
    exact gives_checkIncludes.2 ⟨rfl, hnone⟩

/-- The builder that a grammar is started with. -/
def Builder.first (source : GrammarSource) : Builder where
  grammar := Grammar.start source.name (Text.trim source.scopeName) source.fileTypes
  localIncludes := []
  notices := []

theorem Builder.count_first (source : GrammarSource) (k : PartKind) :
    (Builder.first source).grammar.count k = 0 := by
  cases k <;> rfl

theorem ofSource_eq_ok {source : GrammarSource} {g : Grammar} :
    (Grammar.ofSource validate source).1 = .ok g ↔
      (Text.trim source.scopeName).isEmpty = false ∧
        ∃ d, Gives (compileSource validate source) (.first source) () d ∧ d.grammar = g := by
  rw [Grammar.ofSource]
  cases (Text.trim source.scopeName).isEmpty with
  | true => simp
  | false =>
    rw [if_neg Bool.false_ne_true]
    dsimp only [Gives]
    rw [← Builder.first]
    rcases (compileSource validate source).run (Builder.first source) with ⟨e | u, d⟩
    · constructor
      · intro h
        cases h
      · rintro ⟨_, d, h, _⟩
        cases h
    · constructor
      · intro h
        cases h
        exact ⟨rfl, d, rfl, rfl⟩
      · rintro ⟨_, d, h, rfl⟩
        cases h
        rfl

/-- The builder in front of the rules of a grammar that has no repository. -/
def Builder.bare (source : GrammarSource) : Builder :=
  let opened := (Builder.first source).add (.repository [])
  { opened with grammar := opened.grammar.withRepository ⟨0⟩ [] }

/-- A grammar without a repository is accepted if its rules are compiled without an include of an
entry. -/
theorem Grammar.ofSource_bare (source : GrammarSource)
    (hname : (Text.trim source.scopeName).isEmpty = false) (hrepository : source.repository = [])
    {items : List ListItem} {c : Builder}
    (hrules : Gives (compileRules validate ⟨[⟨0⟩]⟩ "patterns" 0 source.patterns) (.bare source)
      items c) (hincludes : c.localIncludes = []) :
    ∃ root, (Grammar.ofSource validate source).1 =
      .ok ((c.add (.list items)).withRoot root).grammar := by
  have hempty : Gives (compileRepository validate .empty "repository" source.repository)
      (.first source) ⟨[⟨0⟩]⟩ (.bare source) := by
    rw [hrepository]
    exact compileRepository_gives.2 ⟨⟨0⟩, [], _, rfl, rfl, rfl, rfl⟩
  have hparts : Gives (compileParts validate source) (.first source)
      (⟨[⟨0⟩]⟩, ⟨c.grammar.lists.size.toUInt32⟩) (c.add (.list items)) :=
    gives_bind.2 ⟨_, _, hempty, gives_bind.2 ⟨_, _, gives_bind.2 ⟨items, c, hrules, rfl⟩, rfl⟩⟩
  refine ⟨_, ofSource_eq_ok.2 ⟨hname, _, gives_compileSource.2 ⟨_, _, _, hparts, rfl, ?_⟩, rfl⟩⟩
  show Grammar.danglingInclude? _ c.localIncludes = none
  rw [hincludes]
  rfl

theorem compileParts_follows {S : RuleSource → RuleSource → Prop}
    (hS : ∀ r r', S r r' → r.Matched validate drop S r') {s s' : GrammarSource}
    (h : s.Matched S s') {μ : Links} :
    Follows drop μ (compileParts validate s) (compileParts validate s')
      (fun μ p p' => p.1.Linked μ p'.1 ∧ μ p.2.part p'.2.part) := by
  have hpatterns : List.Forall₂ (RuleSource.Follows validate drop) s.patterns s'.patterns :=
    h.patterns.imp fun _ _ => compileRule_follows hS
  obtain ⟨ordered, hperm, horder, hmatch⟩ := h.repository
  have hrepository : RepositoryMatch (RuleSource.Follows validate drop) s.repository
      s'.repository :=
    ⟨ordered, hperm, horder, hmatch.imp_of_mem fun _ _ _ => compileRule_follows hS⟩
  refine (compileRepository_follows hrepository .nil).bind fun μ₁ σ σ' _ hσ => ?_
  refine (compileItems_follows _ hpatterns hσ).bind fun μ₂ l l' hμ₂ hl => ?_
  exact follows_pure ⟨hσ.mono hμ₂, hl⟩

/-- The repository of a grammar itself is the first one. -/
theorem compileParts_own {source : GrammarSource} {stack : RepositoryChain} {root : ListId}
    {c : Builder} (h : Gives (compileParts validate source) (.first source) (stack, root) c)
    (hc : c.grammar.Numbered) :
    ∃ id : RepositoryId, stack = ⟨[id]⟩ ∧ id.part = ⟨.repository, 0⟩ := by
  obtain ⟨σ, d, hrepository, h⟩ := gives_bind.1 h
  have hgrows : d.Grows c := Growing.grows h
  obtain ⟨l, e, _, h⟩ := gives_bind.1 h
  obtain ⟨heq, rfl⟩ := gives_pure.1 h
  cases heq
  obtain ⟨id, lists, c', hid, hpush, hentries, rfl⟩ := compileRepository_gives.1 hrepository
  have hbc : (Builder.add (.first source) (.repository [])).Grows c' := Growing.grows hentries
  have hc' : c'.grammar.Numbered := (hgrows.numbered hc).of_count_le fun k =>
    Nat.le_of_eq (Grammar.count_withRepository ..).symm
  refine ⟨id, ?_, (addRepository_adds.of_gives hid).2 (hbc.numbered hc')⟩
  cases hpush
  rfl

/-- If a source is accepted, and its numbers are in range, a matched one is accepted too, with the
same grammar but for numbers. -/
theorem Grammar.ofSource_matched {S : RuleSource → RuleSource → Prop}
    (hS : ∀ r r', S r r' → r.Matched validate drop S r') {s s' : GrammarSource}
    (h : s.Matched S s') {g : Grammar} (hg : (Grammar.ofSource validate s).1 = .ok g)
    (hn : g.Numbered) :
    ∃ μ g', (Grammar.ofSource validate s').1 = .ok g' ∧ g'.Numbered ∧ g.Paired μ g' ∧
      g'.skipped.Perm (if drop then [] else g.skipped) := by
  obtain ⟨hname, d, hsource, rfl⟩ := ofSource_eq_ok.1 hg
  obtain ⟨stack, root, c, hparts, rfl, hnone⟩ := gives_compileSource.1 hsource
  have hc : c.grammar.Numbered := hn
  have hfits : (Piece.between (.first s) c).Fits (.first s') := by
    intro k
    have hk := hc k
    simp only [Piece.between, Builder.count_first]
    omega
  obtain ⟨⟨stack', root'⟩, c', ν, hparts', htwin, hstack, hroot⟩ :=
    compileParts_follows (μ := ⊥) hS h hparts hc hfits
  rw [bot_sup_eq] at hstack hroot
  have hc' : c'.grammar.Numbered := by
    intro k
    have hk := htwin.growth k
    have hle := hc k
    simp only [Piece.between, Builder.count_first] at hk
    omega
  have hgrows : (Builder.first s).Grows c := Growing.grows hparts
  have hpaired : (c.withRoot root).grammar.Paired ν (c'.withRoot root').grammar := by
    refine ⟨htwin.unique, fun {n n'} hn => ?_, hroot, ?_, ?_, ?_⟩
    · obtain ⟨x, x', hx, hx', hlinked⟩ := htwin.parts n n' hn
      rw [bot_sup_eq] at hlinked
      have hfound : c.grammar.part? n = some x := hx
      rw [Builder.part?_withRoot, Builder.part?_withRoot, hx', hfound]
      exact .some hlinked
    · obtain ⟨id, rfl, hid⟩ := compileParts_own hparts hc
      obtain ⟨id', rfl, hid'⟩ := compileParts_own hparts' hc'
      cases hstack with
      | cons hown _ => rwa [hid, hid'] at hown
    · show c.grammar.scopeName = c'.grammar.scopeName
      rw [hgrows.scopeName, htwin.grows.scopeName]
      exact congrArg Text.trim h.scopeName
    · show c.grammar.scope = c'.grammar.scope
      rw [hgrows.scope, htwin.grows.scope]
      exact congrArg (fun name => Scope.ofString (Text.trim name)) h.scopeName
  have hnone' : (c'.withRoot root').grammar.danglingInclude? c'.localIncludes = none := by
    refine List.find?_eq_none.2 fun i' hi' => ?_
    obtain hi' | ⟨i, hi, hname, hrepositories⟩ := htwin.includes i' hi'
    · cases hi'
    · have hfound := List.find?_eq_none.1 hnone i hi
      rw [bot_sup_eq] at hrepositories
      have hentry := hpaired.visibleEntry? hrepositories i.name
      rw [← hname]
      generalize (c.withRoot root).grammar.visibleEntry? i.name i.repositories = entry at hfound hentry
      generalize (c'.withRoot root').grammar.visibleEntry? i.name i'.repositories = entry' at hentry ⊢
      cases hentry with
      | none => exact hfound
      | some _ => simp
  refine ⟨ν, (c'.withRoot root').grammar, ofSource_eq_ok.2 ⟨?_, _, ?_, rfl⟩, hc', hpaired, ?_⟩
  · rw [← h.scopeName]
    exact hname
  · exact gives_compileSource.2 ⟨stack', root', c', hparts', rfl, hnone'⟩
  · exact htwin.skipped

end ScopeGrammar
