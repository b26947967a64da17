import ScopeGrammar.Proofs.Grammar.Steps

/-!
# ScopeGrammar.Proofs.Grammar.Growing

What is there stays while rules are compiled.

* `Builder.Grows` : parts are added, and those there were stay as they are, as long as all numbers
  are in range.
* `Build.Growing` : a step does no more than that. Every step of compiling is such a step
  (`RuleSource.growing`).
-/

namespace ScopeGrammar

/-! ## What is there stays -/

/-- Parts were added, with includes to be checked and rules left out. -/
structure Builder.Grows (b c : Builder) : Prop where
  count_le : ∀ k, b.grammar.count k ≤ c.grammar.count k
  kept : c.grammar.Numbered → ∀ n p, b.grammar.part? n = some p → c.grammar.part? n = some p
  localIncludes : b.localIncludes <+: c.localIncludes
  skipped : b.grammar.skipped <+: c.grammar.skipped
  scopeName : c.grammar.scopeName = b.grammar.scopeName
  scope : c.grammar.scope = b.grammar.scope

namespace Builder.Grows

variable {b c d : Builder}

theorem refl (b : Builder) : b.Grows b :=
  ⟨fun _ => Nat.le_refl _, fun _ _ _ h => h, List.prefix_rfl, List.prefix_rfl, rfl, rfl⟩

theorem numbered (h : b.Grows c) (hn : c.grammar.Numbered) : b.grammar.Numbered :=
  hn.of_count_le h.count_le

theorem trans (h : b.Grows c) (h' : c.Grows d) : b.Grows d where
  count_le k := Nat.le_trans (h.count_le k) (h'.count_le k)
  kept hn n p hp := h'.kept hn n p (h.kept (h'.numbered hn) n p hp)
  localIncludes := h.localIncludes.trans h'.localIncludes
  skipped := h.skipped.trans h'.skipped
  scopeName := h'.scopeName.trans h.scopeName
  scope := h'.scope.trans h.scope

theorem add (b : Builder) (p : Part) : b.Grows (b.add p) where
  count_le k := by
    rw [Builder.add, Grammar.count_addPart]
    omega
  kept _ n q hq := by
    have hlt := Grammar.lt_count_of_part? hq
    rw [Builder.add, Grammar.part?_addPart, if_neg]
    · exact hq
    · rintro rfl
      exact Nat.lt_irrefl _ hlt
  localIncludes := List.prefix_rfl
  skipped := by cases p <;> exact List.prefix_rfl
  scopeName := by cases p <;> rfl
  scope := by cases p <;> rfl

end Builder.Grows

namespace Build

/-- Whatever the step answers, it adds at most. -/
class Growing {α : Type} (m : Build α) : Prop where
  grows : ∀ {b a c}, Gives m b a c → b.Grows c

variable {α β : Type}

instance growing_pure (a : α) : Growing (pure a) where
  grows h := by
    obtain ⟨_, rfl⟩ := gives_pure.1 h
    exact .refl _

instance growing_bind (m : Build α) (f : α → Build β) [Growing m] [∀ a, Growing (f a)] :
    Growing (m >>= f) where
  grows h := by
    obtain ⟨a, c, ha, hy⟩ := gives_bind.1 h
    exact (Growing.grows ha).trans (Growing.grows hy)

instance growing_ite (c : Prop) [Decidable c] (m m' : Build α) [Growing m] [Growing m'] :
    Growing (if c then m else m') := by
  split <;> infer_instance

instance growing_refuse (path : String) (fault : GrammarFault) :
    Growing (refuse path fault : Build α) where
  grows h := absurd h not_gives_refuse

theorem Adds.growing {ι : Type} {part : ι → PartId} {m : Build ι} {p : Part} (h : Adds part m p) :
    Growing m where
  grows hm := by
    obtain ⟨rfl, _⟩ := h.of_gives hm
    exact .add _ p

instance growing_addPattern (source : String) : Growing (addPattern source) :=
  (addPattern_adds source).growing

instance growing_addRule (rule : Rule) : Growing (addRule rule) := (addRule_adds rule).growing

instance growing_addList (items : List ListItem) : Growing (addList items) :=
  (addList_adds items).growing

instance growing_addCapture (capture : Capture) : Growing (addCapture capture) :=
  (addCapture_adds capture).growing

instance growing_skip (path : String) (refusal : Refusal) : Growing (skip path refusal) where
  grows h := by
    cases h
    exact ⟨fun _ => Nat.le_refl _, fun _ _ _ h => h, List.prefix_rfl, List.prefix_append ..,
      rfl, rfl⟩

instance growing_addLocalInclude (item : LocalInclude) : Growing (addLocalInclude item) where
  grows h := by
    cases h
    exact ⟨fun _ => Nat.le_refl _, fun _ _ _ h => h, List.prefix_append .., List.prefix_rfl,
      rfl, rfl⟩

end Build

open Build

variable {validate : Validator}

instance growing_compileInclude (repositories : RepositoryChain) (path text : String) :
    Growing (compileInclude repositories path text) := by
  unfold compileInclude
  cases IncludeTarget.ofString text <;> infer_instance

/-- A capture table is made of the keys alone. -/
theorem captureSpace_gives {path : String} {entries : List (String × RuleSource)}
    {table : CaptureTable} {b c : Builder} (h : Gives (captureSpace path entries) b table c) :
    c = b ∧ table.entries = [] ∧ ∀ b', Gives (captureSpace path entries) b' table b' := by
  rw [captureSpace] at h ⊢
  cases hkeys : captureKeys entries with
  | error key =>
    rw [hkeys] at h
    exact absurd h not_gives_refuse
  | ok numbers =>
    rw [hkeys] at h
    cases numbers with
    | nil =>
      obtain ⟨rfl, rfl⟩ := gives_pure.1 h
      exact ⟨rfl, rfl, fun b' => gives_pure.2 ⟨rfl, rfl⟩⟩
    | cons n rest =>
      dsimp only at h ⊢
      by_cases hlarge : maxCaptureTable < (n :: rest).foldl max 0 + 1
      · rw [if_pos hlarge] at h
        exact absurd h not_gives_throw
      · rw [if_neg hlarge] at h ⊢
        obtain ⟨rfl, rfl⟩ := gives_pure.1 h
        exact ⟨rfl, rfl, fun b' => gives_pure.2 ⟨rfl, rfl⟩⟩

instance growing_captureSpace (path : String) (entries : List (String × RuleSource)) :
    Growing (captureSpace path entries) where
  grows h := by
    obtain ⟨rfl, _⟩ := captureSpace_gives h
    exact .refl _

/-- The rule is compiled by a step that adds at most, wherever it stands. -/
def RuleSource.Growing (validate : Validator) (r : RuleSource) : Prop :=
  ∀ repositories path, Build.Growing (compileRule validate repositories path r)

theorem compileRules_growing {rules : List RuleSource} (h : ∀ r ∈ rules, r.Growing validate)
    (repositories : RepositoryChain) (path : String) (i : Nat) :
    Growing (compileRules validate repositories path i rules) := by
  induction rules generalizing i with
  | nil => exact growing_pure _
  | cons r rest ih =>
    obtain ⟨hr, hrest⟩ := List.forall_mem_cons.1 h
    have hhead := hr repositories
    have htail := ih hrest
    rw [compileRules]
    infer_instance

theorem compileItems_growing {rules : List RuleSource} (h : ∀ r ∈ rules, r.Growing validate)
    (repositories : RepositoryChain) (path : String) :
    Growing (compileItems validate repositories path rules) := by
  have hitems := compileRules_growing h repositories path 0
  exact growing_bind _ _

/-- The list that an entry of a repository stands for. -/
def entryList : Option ListItem → Build ListId
  | some (.list id) => pure id
  | item => addList item.toList

theorem compileEntry_eq (repositories : RepositoryChain) (path : String) (r : RuleSource) :
    compileEntry validate repositories path r =
      compileRule validate repositories path r >>= entryList := rfl

instance entryList_growing (item : Option ListItem) : Growing (entryList item) := by
  unfold entryList
  split <;> infer_instance

theorem compileEntry_growing {r : RuleSource} (h : r.Growing validate)
    (repositories : RepositoryChain) (path : String) :
    Growing (compileEntry validate repositories path r) := by
  have hr := h repositories path
  rw [compileEntry_eq]
  infer_instance

theorem compileEntries_growing {entries : List (String × RuleSource)}
    (h : ∀ e ∈ entries, e.2.Growing validate) (repositories : RepositoryChain) (path : String) :
    Growing (compileEntries validate repositories path entries) := by
  induction entries with
  | nil => exact growing_pure _
  | cons e rest ih =>
    obtain ⟨key, r⟩ := e
    obtain ⟨hr, hrest⟩ := List.forall_mem_cons.1 h
    have hhead := compileEntry_growing hr repositories
    have htail := ih hrest
    rw [compileEntries_cons]
    infer_instance

theorem captureItems_growing {rules : List RuleSource} (h : ∀ r ∈ rules, r.Growing validate)
    (repositories : RepositoryChain) (path : String) :
    Growing (captureItems validate repositories path rules) := by
  have hitems := compileItems_growing h repositories path
  rw [captureItems]
  infer_instance

instance growing_keepCapture (scopes : List Scope) (patterns : Option ListId) :
    Growing (keepCapture scopes patterns) := by
  rw [keepCapture]
  infer_instance

theorem compileCapture_growing {r : RuleSource} (h : ∀ c ∈ r.patterns, c.Growing validate)
    (repositories : RepositoryChain) (path : String) :
    Growing (compileCapture validate repositories path r) := by
  have hitems := captureItems_growing h repositories
  rw [compileCapture]
  infer_instance

theorem fillCaptures_growing {entries : List (String × RuleSource)}
    (h : ∀ e ∈ entries, ∀ c ∈ e.2.patterns, c.Growing validate) (repositories : RepositoryChain)
    (path : String) (table : CaptureTable) :
    Growing (fillCaptures validate repositories path table entries) := by
  induction entries generalizing table with
  | nil => exact growing_pure _
  | cons e rest ih =>
    obtain ⟨key, r⟩ := e
    obtain ⟨hr, hrest⟩ := List.forall_mem_cons.1 h
    have hhead := compileCapture_growing hr repositories
    have htail := ih hrest
    rw [fillCaptures_cons]
    infer_instance

theorem compileTable_growing {entries : List (String × RuleSource)}
    (h : ∀ e ∈ entries, ∀ c ∈ e.2.patterns, c.Growing validate) (repositories : RepositoryChain)
    (path : String) : Growing (compileTable validate repositories path entries) := by
  have hfill := fillCaptures_growing h repositories path
  rw [compileTable]
  infer_instance

/-- A repository gets its number before its entries do, and is filled when they are known. -/
theorem compileRepository_gives {repositories stack : RepositoryChain} {path : String}
    {entries : List (String × RuleSource)} {b d : Builder} :
    Gives (compileRepository validate repositories path entries) b stack d ↔
      ∃ id lists c, Gives addRepository b id (b.add (.repository [])) ∧
        repositories.push id = some stack ∧
        Gives (compileEntries validate stack path entries) (b.add (.repository [])) lists c ∧
        d = { c with grammar := c.grammar.withRepository id lists } := by
  rw [compileRepository, openRepository]
  constructor
  · intro h
    obtain ⟨⟨id, stack'⟩, c, hopen, h⟩ := gives_bind.1 h
    obtain ⟨id', c', hid, hopen⟩ := gives_bind.1 hopen
    obtain ⟨rfl, _⟩ := addRepository_adds.of_gives hid
    obtain ⟨lists, c', hentries, h⟩ := gives_bind.1 h
    obtain ⟨_, d', hset, h⟩ := gives_bind.1 h
    obtain ⟨rfl, rfl⟩ := gives_pure.1 h
    cases hset
    cases hpush : repositories.push id' with
    | none =>
      rw [hpush] at hopen
      exact absurd hopen not_gives_refuse
    | some stack' =>
      rw [hpush] at hopen
      obtain ⟨heq, rfl⟩ := gives_pure.1 hopen
      cases heq
      exact ⟨id, lists, c', hid, hpush, hentries, rfl⟩
  · rintro ⟨id, lists, c, hid, hpush, hentries, rfl⟩
    refine gives_bind.2 ⟨(id, stack), b.add (.repository []), gives_bind.2 ⟨id, _, hid, ?_⟩, ?_⟩
    · rw [hpush]
      exact gives_pure.2 ⟨rfl, rfl⟩
    · refine gives_bind.2 ⟨lists, _, hentries, ?_⟩
      exact gives_bind.2 ⟨(), _, rfl, gives_pure.2 ⟨rfl, rfl⟩⟩

theorem compileRepository_growing {entries : List (String × RuleSource)}
    (h : ∀ e ∈ entries, e.2.Growing validate) (repositories : RepositoryChain) (path : String) :
    Growing (compileRepository validate repositories path entries) := by
  refine ⟨fun {b stack d} hgives => ?_⟩
  obtain ⟨id, lists, c, hid, _, hentries, rfl⟩ := compileRepository_gives.1 hgives
  have hgrows := (compileEntries_growing h _ _).grows hentries
  have hall := (Builder.Grows.add b (.repository [])).trans hgrows
  refine ⟨fun k => ?_, fun hn n p hp => ?_, hall.localIncludes, hall.skipped, hall.scopeName,
    hall.scope⟩
  · rw [Grammar.count_withRepository]
    exact hall.count_le k
  · have hn' : c.grammar.Numbered := hn.of_count_le fun k =>
      Nat.le_of_eq (Grammar.count_withRepository ..).symm
    obtain ⟨_, hpart⟩ := addRepository_adds.of_gives hid
    rw [Grammar.part?_withRepository_of_ne]
    · exact hall.kept hn' n p hp
    · -- the number of the new repository is none that was there
      rw [hpart (hgrows.numbered hn')]
      rintro rfl
      exact Nat.lt_irrefl _ (Grammar.lt_count_of_part? hp)

theorem compileForm_growing {r : RuleSource} (h : ∀ c ∈ r.children, c.Growing validate)
    (repositories : RepositoryChain) (path : String) (shape : RuleForm) :
    Growing (compileForm validate repositories path r shape) := by
  have hitems := compileItems_growing (fun c hc => h c (RuleSource.mem_children_of_pattern hc))
    repositories
  have hcaptures : ∀ {entries : List (String × RuleSource)},
      entries ⊆ r.captures ++ r.beginCaptures ++ r.endCaptures ++ r.whileCaptures →
      ∀ path, Growing (compileTable validate repositories path entries) := fun hsub =>
    compileTable_growing (fun e he c hc => h c (RuleSource.mem_children_of_capture (hsub he) hc)) _
  cases shape with
  | single source =>
    have htable : ∀ path, Growing (compileTable validate repositories path r.captures) :=
      hcaptures (fun e he => by simp [he])
    rw [compileForm]
    infer_instance
  | span opening close isWhile =>
    have hopening := hcaptures r.openingCaptures_subset
    have hclose := hcaptures (r.closeCaptures_subset isWhile)
    rw [compileForm]
    infer_instance
  | container =>
    rw [compileForm]
    infer_instance

theorem enterRule_growing {r : RuleSource} (h : ∀ c ∈ r.children, c.Growing validate)
    (repositories : RepositoryChain) (path : String) :
    Growing (enterRule validate repositories path r) := by
  have hrepository := compileRepository_growing
    (fun e he => h _ (RuleSource.mem_children_of_entry he)) repositories
  rw [enterRule]
  infer_instance

theorem compileShape_growing {r : RuleSource} (h : ∀ c ∈ r.children, c.Growing validate)
    (repositories : RepositoryChain) (path : String) (shape : RuleForm) :
    Growing (compileShape validate repositories path r shape) := by
  have henter := enterRule_growing h repositories path
  have hform := compileForm_growing h
  rw [compileShape]
  cases shape.refusal? validate <;> infer_instance

theorem RuleSource.growing (r : RuleSource) : r.Growing validate := by
  induction r using RuleSource.children_induction with
  | step r ih =>
    intro repositories path
    have hshape := compileShape_growing ih repositories path
    rw [compileRule_eq]
    cases r.includeText with
    | some target => infer_instance
    | none => cases r.form <;> infer_instance

/-! Nothing more has to be known of the rules. -/

section

variable (repositories : RepositoryChain) (path : String)

instance growing_compileRule (r : RuleSource) :
    Growing (compileRule validate repositories path r) := r.growing _ _

instance growing_compileRules (i : Nat) (rules : List RuleSource) :
    Growing (compileRules validate repositories path i rules) :=
  compileRules_growing (fun r _ => r.growing) _ _ _

instance growing_compileItems (rules : List RuleSource) :
    Growing (compileItems validate repositories path rules) :=
  compileItems_growing (fun r _ => r.growing) _ _

instance growing_compileEntry (r : RuleSource) :
    Growing (compileEntry validate repositories path r) := compileEntry_growing r.growing _ _

instance growing_compileEntries (entries : List (String × RuleSource)) :
    Growing (compileEntries validate repositories path entries) :=
  compileEntries_growing (fun e _ => e.2.growing) _ _

instance growing_captureItems (rules : List RuleSource) :
    Growing (captureItems validate repositories path rules) :=
  captureItems_growing (fun r _ => r.growing) _ _

instance growing_compileCapture (r : RuleSource) :
    Growing (compileCapture validate repositories path r) :=
  compileCapture_growing (fun c _ => c.growing) _ _

instance growing_fillCaptures (table : CaptureTable) (entries : List (String × RuleSource)) :
    Growing (fillCaptures validate repositories path table entries) :=
  fillCaptures_growing (fun _ _ c _ => c.growing) _ _ _

instance growing_compileTable (entries : List (String × RuleSource)) :
    Growing (compileTable validate repositories path entries) :=
  compileTable_growing (fun _ _ c _ => c.growing) _ _

instance growing_compileRepository (entries : List (String × RuleSource)) :
    Growing (compileRepository validate repositories path entries) :=
  compileRepository_growing (fun e _ => e.2.growing) _ _

instance growing_enterRule (r : RuleSource) : Growing (enterRule validate repositories path r) :=
  enterRule_growing (fun c _ => c.growing) _ _

instance growing_compileForm (r : RuleSource) (shape : RuleForm) :
    Growing (compileForm validate repositories path r shape) :=
  compileForm_growing (fun c _ => c.growing) _ _ _

end

end ScopeGrammar
