import ScopeGrammar.Proofs.Grammar.Build

/-!
# ScopeGrammar.Proofs.Grammar.Steps

The steps in which a rule is compiled.

* `compileRule_eq` : a rule opens its repository, then its patterns are tried, then it is added.
* `compileEntries_cons`, `fillCaptures_cons` : so are entries of repositories and captures.
* `RuleSource.children_induction` : what holds of a rule if it holds of the rules in it that may be
  compiled with it holds of all rules.
-/

namespace ScopeGrammar

open Build

/-! ## A rule in steps -/

/-- Why a rule with these patterns is left out. -/
def Validator.refusal? (validate : Validator) (source : String) : Option Refusal :=
  match validate source with
  | .ok () => none
  | .error e => some ⟨source, e⟩

/-- The first pattern of a rule that is refused. A closing pattern that is to be filled in is not
tried. -/
def RuleForm.refusal? (validate : Validator) : RuleForm → Option Refusal
  | .single source => validate.refusal? source
  | .span opening close _ =>
    validate.refusal? opening <|>
      if Pattern.hasBackreferences close then none else validate.refusal? close
  | .container => none

namespace RuleSource

def form (r : RuleSource) : Except GrammarFault RuleForm :=
  RuleForm.of r.matchText r.beginText r.endText r.whileText

def openingCaptures (r : RuleSource) : List (String × RuleSource) :=
  if r.beginCaptures.isEmpty then r.captures else r.beginCaptures

def closeCaptures (r : RuleSource) (isWhile : Bool) : List (String × RuleSource) :=
  if isWhile && !r.whileCaptures.isEmpty then r.whileCaptures
  else if !isWhile && !r.endCaptures.isEmpty then r.endCaptures
  else r.captures

end RuleSource

variable (validate : Validator)

/-- Opens and fills the repository of a rule, if it has one. -/
def compileRepository (repositories : RepositoryChain) (path : String)
    (entries : List (String × RuleSource)) : Build RepositoryChain := do
  let (id, stack) ← openRepository repositories path
  let entries ← compileEntries validate stack path entries
  Build.setRepository id entries
  pure stack

def compileTable (repositories : RepositoryChain) (path : String)
    (captures : List (String × RuleSource)) : Build CaptureTable := do
  let table ← captureSpace path captures
  fillCaptures validate repositories path table captures

def compileItems (repositories : RepositoryChain) (path : String) (rules : List RuleSource) :
    Build ListId := do
  let items ← compileRules validate repositories path 0 rules
  Build.addList items

/-- Adds a rule whose patterns are accepted. -/
def compileForm (repositories : RepositoryChain) (path : String) (r : RuleSource) :
    RuleForm → Build (Option ListItem)
  | .single source => do
    let pattern ← Build.addPattern source
    let captures ← compileTable validate repositories (path ++ ".captures") r.captures
    let id ← Build.addRule (.single { scopes := scopesOf r.name, pattern, captures })
    return some (.rule id)
  | .span opening close isWhile => do
    let openingId ← Build.addPattern opening
    let closeId ← Build.addPattern close
    let openingCaptures ←
      compileTable validate repositories (path ++ ".beginCaptures") r.openingCaptures
    let closePath := path ++ (if isWhile then ".whileCaptures" else ".endCaptures")
    let closeCaptures ← compileTable validate repositories closePath (r.closeCaptures isWhile)
    let list ← compileItems validate repositories (path ++ ".patterns") r.patterns
    let id ← Build.addRule (.span
      { scopes := scopesOf r.name
        contentScopes := scopesOf r.contentName
        opening := openingId
        openingCaptures
        close :=
          if isWhile then .whileMatched closeId closeCaptures
          else .atEnd closeId closeCaptures r.applyEndPatternLast
        fillsEnding := Pattern.hasBackreferences close
        patterns := list })
    return some (.rule id)
  | .container => do
    if r.patterns.isEmpty then return none
    let list ← compileItems validate repositories (path ++ ".patterns") r.patterns
    return some (.list list)

/-- The repositories that the inside of a rule can see. -/
def enterRule (repositories : RepositoryChain) (path : String) (r : RuleSource) :
    Build RepositoryChain :=
  if r.repository.isEmpty then pure repositories
  else compileRepository validate repositories (path ++ ".repository") r.repository

/-- Adds a rule that is no include, or leaves it out if a pattern is refused. -/
def compileShape (repositories : RepositoryChain) (path : String) (r : RuleSource)
    (shape : RuleForm) : Build (Option ListItem) := do
  let repositories ← enterRule validate repositories path r
  match shape.refusal? validate with
  | some refusal => do
    Build.skip path refusal
    return none
  | none => compileForm validate repositories path r shape

/-- A rule goes on only with a pattern that is accepted. -/
theorem accepts_bind {α : Type} (path source : String) (rest : Build (Option α)) :
    (accepts validate path source >>= fun ok => if !ok then pure none else rest) =
      match validate.refusal? source with
      | none => rest
      | some refusal => Build.skip path refusal >>= fun _ => pure none := by
  rw [accepts, Validator.refusal?]
  cases validate source <;> rfl

theorem compileRule_eq (repositories : RepositoryChain) (path : String) (r : RuleSource) :
    compileRule validate repositories path r =
      if r.disabled then pure none
      else
        match r.includeText with
        | some target => do
          let item ← compileInclude repositories path target
          return some item
        | none =>
          match r.form with
          | .error fault => Build.refuse path fault
          | .ok shape => compileShape validate repositories path r shape := by
  obtain ⟨name, contentName, matchText, beginText, endText, whileText, captures, beginCaptures,
      endCaptures, whileCaptures, patterns, includeText, repository, applyEndPatternLast,
      disabled⟩ := r
  cases includeText with
  | some target => rw [compileRule]
  | none =>
    rw [compileRule, RuleSource.form]
    · cases disabled with
      | true => rfl
      | false =>
        rw [if_neg Bool.false_ne_true, if_neg Bool.false_ne_true]
        dsimp only
        cases RuleForm.of matchText beginText endText whileText with
        | error fault => rfl
        | ok shape =>
          dsimp only
          rw [compileShape, enterRule]
          cases repository.isEmpty
          all_goals
            simp only [compileRepository, bind_assoc, pure_bind, if_true, Bool.false_eq_true,
              if_false]
          case' false =>
            refine bind_congr fun opened => bind_congr fun entries => bind_congr fun _ => ?_
          all_goals
            cases shape with
            | single source =>
              simp only [accepts_bind, RuleForm.refusal?, compileForm, compileTable, bind_assoc]
              cases validate.refusal? source <;> rfl
            | span opening close isWhile =>
              simp only [accepts_bind, RuleForm.refusal?, compileForm, compileTable, compileItems,
                RuleSource.openingCaptures, RuleSource.closeCaptures, bind_assoc]
              cases validate.refusal? opening <;> cases validate.refusal? close <;>
                cases Pattern.hasBackreferences close <;> cases beginCaptures.isEmpty <;>
                cases isWhile <;> cases whileCaptures.isEmpty <;> cases endCaptures.isEmpty <;> rfl
            | container =>
              simp only [RuleForm.refusal?, compileForm, compileItems, bind_assoc]
    · intro target htarget
      cases htarget

/-- Compiles an entry of a repository. -/
def compileEntry (repositories : RepositoryChain) (path : String) (r : RuleSource) :
    Build ListId := do
  let item ← compileRule validate repositories path r
  match item with
  | some (.list id) => pure id
  | item => Build.addList item.toList

theorem compileEntries_cons (repositories : RepositoryChain) (path key : String) (r : RuleSource)
    (rest : List (String × RuleSource)) :
    compileEntries validate repositories path ((key, r) :: rest) = (do
      let list ← compileEntry validate repositories (path ++ "." ++ key) r
      let entries ← compileEntries validate repositories path rest
      pure ((key, list) :: entries)) := by
  rw [compileEntries, compileEntry, bind_assoc]
  refine bind_congr fun item => ?_
  rcases item with _ | item
  · rfl
  · cases item <;> rfl

/-- The rules of a capture, if it has any. -/
def captureItems (repositories : RepositoryChain) (path : String) (rules : List RuleSource) :
    Build (Option ListId) :=
  if rules.isEmpty then pure none
  else do
    let list ← compileItems validate repositories path rules
    pure (some list)

/-- Adds a capture, unless it has neither scopes nor rules. -/
def keepCapture (scopes : List Scope) (patterns : Option ListId) : Build (Option CaptureId) :=
  if scopes.isEmpty && patterns.isNone then pure none
  else do
    let id ← Build.addCapture { scopes, patterns }
    pure (some id)

def compileCapture (repositories : RepositoryChain) (path : String) (r : RuleSource) :
    Build (Option CaptureId) := do
  let list ← captureItems validate repositories (path ++ ".patterns") r.patterns
  keepCapture (scopesOf r.name) list

def CaptureTable.putKey (table : CaptureTable) (key : String) : Option CaptureId → CaptureTable
  | none => table
  | some id => table.put ((captureKey? key).getD 0) id

theorem fillCaptures_cons (repositories : RepositoryChain) (path : String) (table : CaptureTable)
    (key : String) (r : RuleSource) (rest : List (String × RuleSource)) :
    fillCaptures validate repositories path table ((key, r) :: rest) = (do
      let id ← compileCapture validate repositories (path ++ "." ++ key) r
      fillCaptures validate repositories path (table.putKey key id) rest) := by
  obtain ⟨name, contentName, matchText, beginText, endText, whileText, captures, beginCaptures,
      endCaptures, whileCaptures, patterns, includeText, repository, applyEndPatternLast,
      disabled⟩ := r
  rw [fillCaptures, compileCapture, captureItems]
  cases patterns.isEmpty <;> cases hscopes : (scopesOf name).isEmpty <;>
    simp [compileItems, keepCapture, hscopes, bind_assoc, CaptureTable.putKey]

/-! ## What is inside a rule -/

namespace RuleSource

/-- The rules inside a rule that may be compiled with it. -/
def children (r : RuleSource) : List RuleSource :=
  r.patterns ++ r.repository.map (·.2) ++
    (r.captures ++ r.beginCaptures ++ r.endCaptures ++ r.whileCaptures).flatMap (·.2.patterns)

theorem mem_children_of_pattern {r c : RuleSource} (h : c ∈ r.patterns) : c ∈ r.children := by
  simp [children, h]

theorem mem_children_of_entry {r : RuleSource} {e : String × RuleSource} (h : e ∈ r.repository) :
    e.2 ∈ r.children := by
  have hmem : e.2 ∈ r.repository.map (·.2) := List.mem_map_of_mem h
  simp only [children, List.mem_append]
  exact .inl (.inr hmem)

theorem mem_children_of_capture {r c : RuleSource} {e : String × RuleSource}
    (he : e ∈ r.captures ++ r.beginCaptures ++ r.endCaptures ++ r.whileCaptures)
    (hc : c ∈ e.2.patterns) : c ∈ r.children := by
  have hmem : c ∈ (r.captures ++ r.beginCaptures ++ r.endCaptures ++ r.whileCaptures).flatMap
      (·.2.patterns) := List.mem_flatMap.2 ⟨e, he, hc⟩
  rw [children]
  exact List.mem_append_right _ hmem

theorem openingCaptures_subset (r : RuleSource) :
    r.openingCaptures ⊆ r.captures ++ r.beginCaptures ++ r.endCaptures ++ r.whileCaptures := by
  intro e he
  rw [openingCaptures] at he
  split at he <;> simp [he]

theorem closeCaptures_subset (r : RuleSource) (isWhile : Bool) :
    r.closeCaptures isWhile ⊆
      r.captures ++ r.beginCaptures ++ r.endCaptures ++ r.whileCaptures := by
  intro e he
  rw [closeCaptures] at he
  split at he
  · simp [he]
  · split at he <;> simp [he]

theorem sizeOf_patterns_lt (r : RuleSource) : sizeOf r.patterns < sizeOf r := by
  cases r
  simp only [mk.sizeOf_spec]
  omega

theorem sizeOf_lt_of_mem_children {r c : RuleSource} (h : c ∈ r.children) :
    sizeOf c < sizeOf r := by
  have hentry : ∀ {l : List (String × RuleSource)} {e : String × RuleSource}, e ∈ l →
      sizeOf e.2 < sizeOf l := by
    intro l e he
    have hlt := List.sizeOf_lt_of_mem he
    obtain ⟨key, r⟩ := e
    simp only [Prod.mk.sizeOf_spec] at hlt
    dsimp only
    omega
  obtain ⟨name, contentName, matchText, beginText, endText, whileText, captures, beginCaptures,
      endCaptures, whileCaptures, patterns, includeText, repository, applyEndPatternLast,
      disabled⟩ := r
  simp only [children, List.mem_append, List.mem_map, List.mem_flatMap] at h
  simp only [mk.sizeOf_spec]
  obtain (hc | ⟨e, he, rfl⟩) | ⟨e, he, hc⟩ := h
  · have hlt := List.sizeOf_lt_of_mem hc
    omega
  · have hlt := hentry he
    omega
  · have hlt := Nat.lt_trans (List.sizeOf_lt_of_mem hc) (sizeOf_patterns_lt e.2)
    obtain ((he | he) | he) | he := he
    all_goals
      have hlt' := hentry he
      omega

theorem children_induction {motive : RuleSource → Prop}
    (step : ∀ r, (∀ c ∈ r.children, motive c) → motive r) (r : RuleSource) : motive r :=
  step r fun c hc =>
    have := sizeOf_lt_of_mem_children hc
    children_induction step c
termination_by sizeOf r

end RuleSource

end ScopeGrammar
