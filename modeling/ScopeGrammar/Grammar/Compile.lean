import ScopeGrammar.Grammar.Basic
import ScopeGrammar.Grammar.Source
import ScopeGrammar.Notice
import ScopeGrammar.Pattern.Backreference

/-!
# ScopeGrammar.Grammar.Compile

From a grammar as written to one that can be used. Rules get their numbers in the order in which
they are completed: what is inside a rule comes before the rule.

* `Builder` is the grammar under construction, `Build` a step of it, which may be refused.
* `compileRule` and its companions follow the structure of the source.
* `Grammar.ofSource` compiles a whole grammar.

A rule whose pattern is refused is left out and noted. A rule that is ill-formed makes the grammar
refused.
-/

namespace ScopeGrammar

/-- A `#name` include, to be checked when all repositories are known. -/
structure LocalInclude where
  path : String
  name : String
  repositories : RepositoryChain

structure Builder where
  grammar : Grammar
  localIncludes : List LocalInclude
  notices : List Notice

abbrev Build := ExceptT Error (StateM Builder)

namespace Build

def refuse {α : Type} (path : String) (fault : GrammarFault) : Build α :=
  throw (.grammar path fault)

def addPattern (source : String) : Build PatternId :=
  modifyGet fun b =>
    (⟨b.grammar.patterns.size.toUInt32⟩,
     { b with grammar := { b.grammar with patterns := b.grammar.patterns.push source } })

def addList (items : List ListItem) : Build ListId :=
  modifyGet fun b =>
    (⟨b.grammar.lists.size.toUInt32⟩,
     { b with grammar := { b.grammar with lists := b.grammar.lists.push items } })

def addRule (rule : Rule) : Build RuleId :=
  modifyGet fun b =>
    (⟨b.grammar.rules.size.toUInt32⟩,
     { b with grammar := { b.grammar with rules := b.grammar.rules.push rule } })

def addCapture (capture : Capture) : Build CaptureId :=
  modifyGet fun b =>
    (⟨b.grammar.captures.size.toUInt32⟩,
     { b with grammar := { b.grammar with captures := b.grammar.captures.push capture } })

/-- Reserves the number of a repository whose entries are not known yet. -/
def addRepository : Build RepositoryId :=
  modifyGet fun b =>
    (⟨b.grammar.repositories.size.toUInt16⟩,
     { b with grammar := { b.grammar with repositories := b.grammar.repositories.push [] } })

def setRepository (id : RepositoryId) (entries : List (String × ListId)) : Build Unit :=
  modify fun b =>
    { b with grammar := { b.grammar with
        repositories := b.grammar.repositories.setIfInBounds id.index entries } }

def addLocalInclude (item : LocalInclude) : Build Unit :=
  modify fun b => { b with localIncludes := b.localIncludes ++ [item] }

/-- Notes that the rule at a path is left out. -/
def skip (path : String) (refusal : Refusal) : Build Unit :=
  modify fun b =>
    { b with
      grammar := { b.grammar with
        skipped := b.grammar.skipped ++ [⟨path, refusal.pattern, refusal.error⟩] }
      notices := b.notices ++ [.skippedRule b.grammar.scopeName path refusal] }

end Build

/-- How a pattern is tried: it is accepted or refused. -/
abbrev Validator := String → Except PatternError Unit

/-- Whether a pattern is accepted; if not, the rule at the path is left out. -/
def accepts (validate : Validator) (path source : String) : Build Bool :=
  match validate source with
  | .ok () => pure true
  | .error e => do
    Build.skip path ⟨source, e⟩
    pure false

/-- What the keys of a rule make it. -/
inductive RuleForm where
  | single (pattern : String)
  | span (opening close : String) (isWhile : Bool)
  | container

def RuleForm.of (matchText beginText endText whileText : Option String) :
    Except GrammarFault RuleForm :=
  match matchText, beginText, endText, whileText with
  | some _, some _, _, _ => .error .matchAndBegin
  | _, some _, some _, some _ => .error .endAndWhile
  | _, none, some _, _ => .error .endWithoutBegin
  | _, none, _, some _ => .error .whileWithoutBegin
  | none, some _, none, none => .error .beginWithoutClose
  | some m, none, none, none => .ok (.single m)
  | none, some b, some e, none => .ok (.span b e false)
  | none, some b, none, some w => .ok (.span b w true)
  | none, none, none, none => .ok .container

/-- The group number of a capture key: decimal digits, perhaps behind a plus sign, that make a
number of 64 bits; blanks around them do not count. -/
def captureKey? (key : String) : Option Nat :=
  let cs := Text.trimChars key.toList
  let ds := match cs with
    | '+' :: rest => rest
    | _ => cs
  if ds.isEmpty || !ds.all Char.isDigit then none
  else
    let n := ds.foldl (fun n c => n * 10 + (c.toNat - '0'.toNat)) 0
    if n < Nat.pow 2 64 then some n else none

/-- The group numbers of the keys of a capture table, or the first key that is none. -/
def captureKeys : List (String × RuleSource) → Except String (List Nat)
  | [] => .ok []
  | (key, _) :: rest =>
    match captureKey? key with
    | none => .error key
    | some n => (captureKeys rest).map (n :: ·)

/-- The largest capture table that can be built. -/
def maxCaptureTable : Nat := Nat.pow 2 60 - 1

/-- A table with an unfilled place for every group number up to the greatest of the keys. All keys
are looked at before any rule is. -/
def captureSpace (path : String) (entries : List (String × RuleSource)) : Build CaptureTable :=
  match captureKeys entries with
  | .error key => Build.refuse (path ++ "." ++ key) .badCaptureKey
  | .ok [] => pure .empty
  | .ok numbers =>
    let size := numbers.foldl max 0 + 1
    if maxCaptureTable < size then throw (.captureTable path) else pure ⟨size, []⟩

def scopesOf (name : Option String) : List Scope := (name.map Scope.parseMany).getD []

/-- Opens a repository inside others. -/
def openRepository (repositories : RepositoryChain) (path : String) :
    Build (RepositoryId × RepositoryChain) := do
  let id ← Build.addRepository
  match repositories.push id with
  | some stack => pure (id, stack)
  | none => Build.refuse path .repositoriesTooDeep

/-- The element an include becomes. -/
def compileInclude (repositories : RepositoryChain) (path text : String) : Build ListItem := do
  let target := IncludeTarget.ofString text
  match target with
  | .entry name => Build.addLocalInclude { path, name, repositories }
  | _ => pure ()
  pure (.linked { target, repositories })

mutual

/-- Compiles a rule; `none` if it contributes nothing. -/
def compileRule (validate : Validator) (repositories : RepositoryChain) (path : String) :
    RuleSource → Build (Option ListItem)
  | ⟨name, contentName, matchText, beginText, endText, whileText, captures, beginCaptures,
      endCaptures, whileCaptures, patterns, includeText, repository, applyEndPatternLast,
      disabled⟩ => do
    if disabled then return none
    if let some target := includeText then
      let item ← compileInclude repositories path target
      return some item
    match RuleForm.of matchText beginText endText whileText with
    | .error fault => Build.refuse path fault
    | .ok shape =>
      let repositories ←
        if repository.isEmpty then pure repositories
        else do
          let (id, stack) ← openRepository repositories (path ++ ".repository")
          let entries ← compileEntries validate stack (path ++ ".repository") repository
          Build.setRepository id entries
          pure stack
      let scopes := scopesOf name
      match shape with
      | .single source =>
        if !(← accepts validate path source) then return none
        let pattern ← Build.addPattern source
        let table ← captureSpace (path ++ ".captures") captures
        let captures ← fillCaptures validate repositories (path ++ ".captures") table captures
        let id ← Build.addRule (.single { scopes, pattern, captures })
        return some (.rule id)
      | .span opening close isWhile =>
        let fillsEnding := Pattern.hasBackreferences close
        if !(← accepts validate path opening) then return none
        if !fillsEnding then
          if !(← accepts validate path close) then return none
        let openingId ← Build.addPattern opening
        let closeId ← Build.addPattern close
        let openingPath := path ++ ".beginCaptures"
        let openingCaptures ←
          if beginCaptures.isEmpty then do
            let table ← captureSpace openingPath captures
            fillCaptures validate repositories openingPath table captures
          else do
            let table ← captureSpace openingPath beginCaptures
            fillCaptures validate repositories openingPath table beginCaptures
        let closePath := path ++ (if isWhile then ".whileCaptures" else ".endCaptures")
        let closeCaptures ←
          if isWhile && !whileCaptures.isEmpty then do
            let table ← captureSpace closePath whileCaptures
            fillCaptures validate repositories closePath table whileCaptures
          else if !isWhile && !endCaptures.isEmpty then do
            let table ← captureSpace closePath endCaptures
            fillCaptures validate repositories closePath table endCaptures
          else do
            let table ← captureSpace closePath captures
            fillCaptures validate repositories closePath table captures
        let items ← compileRules validate repositories (path ++ ".patterns") 0 patterns
        let list ← Build.addList items
        let id ← Build.addRule (.span
          { scopes
            contentScopes := scopesOf contentName
            opening := openingId
            openingCaptures
            close :=
              if isWhile then .whileMatched closeId closeCaptures
              else .atEnd closeId closeCaptures applyEndPatternLast
            fillsEnding
            patterns := list })
        return some (.rule id)
      | .container =>
        if patterns.isEmpty then return none
        let items ← compileRules validate repositories (path ++ ".patterns") 0 patterns
        let list ← Build.addList items
        return some (.list list)

/-- Compiles the rules of a list, the first of which has number `i`. -/
def compileRules (validate : Validator) (repositories : RepositoryChain) (path : String)
    (i : Nat) : List RuleSource → Build (List ListItem)
  | [] => pure []
  | r :: rest => do
    let item ← compileRule validate repositories (path ++ "[" ++ toString i ++ "]") r
    let items ← compileRules validate repositories path (i + 1) rest
    pure (item.toList ++ items)

/-- Compiles the entries of a repository, each to a list. -/
def compileEntries (validate : Validator) (repositories : RepositoryChain) (path : String) :
    List (String × RuleSource) → Build (List (String × ListId))
  | [] => pure []
  | (key, r) :: rest => do
    let item ← compileRule validate repositories (path ++ "." ++ key) r
    let list ← match item with
      | some (.list id) => pure id
      | item => Build.addList item.toList
    let entries ← compileEntries validate repositories path rest
    pure ((key, list) :: entries)

/-- Puts captures at their places; one with neither scopes nor rules leaves its place as it is. -/
def fillCaptures (validate : Validator) (repositories : RepositoryChain) (path : String)
    (table : CaptureTable) : List (String × RuleSource) → Build CaptureTable
  | [] => pure table
  | (key, ⟨name, _, _, _, _, _, _, _, _, _, patterns, _, _, _, _⟩) :: rest => do
    let scopes := scopesOf name
    let list ←
      if patterns.isEmpty then pure none
      else do
        let items ← compileRules validate repositories
          (path ++ "." ++ key ++ ".patterns") 0 patterns
        let list ← Build.addList items
        pure (some list)
    let table ←
      if scopes.isEmpty && list.isNone then pure table
      else do
        let id ← Build.addCapture { scopes, patterns := list }
        pure (table.put ((captureKey? key).getD 0) id)
    fillCaptures validate repositories path table rest

end

/-- The first include that no repository around it has an entry for. -/
def Grammar.danglingInclude? (g : Grammar) (includes : List LocalInclude) : Option LocalInclude :=
  includes.find? fun i => (g.visibleEntry? i.name i.repositories).isNone

/-- Compiles the repository and the top-level rules of a grammar. -/
def compileSource (validate : Validator) (source : GrammarSource) : Build Unit := do
  let (id, stack) ← openRepository .empty "repository"
  let entries ← compileEntries validate stack "repository" source.repository
  Build.setRepository id entries
  let items ← compileRules validate stack "patterns" 0 source.patterns
  let root ← Build.addList items
  modify fun b => { b with grammar := { b.grammar with root } }
  let b ← get
  match b.grammar.danglingInclude? b.localIncludes with
  | some i => Build.refuse i.path (.unknownEntry i.name)
  | none => pure ()

namespace Grammar

/-- A grammar without any rules. -/
def start (name scopeName : String) (fileTypes : List String) : Grammar :=
  { name, scopeName, scope := .ofString scopeName, fileTypes
    patterns := #[], rules := #[], lists := #[], captures := #[], repositories := #[]
    root := ⟨0⟩, skipped := [] }

/-- Compiles a grammar, with what was noted on the way. -/
def ofSource (validate : Validator) (source : GrammarSource) :
    Except Error Grammar × List Notice :=
  let scopeName := Text.trim source.scopeName
  if scopeName.isEmpty then (.error (.grammar "scopeName" .noScopeName), [])
  else
    let first : Builder :=
      { grammar := start source.name scopeName source.fileTypes
        localIncludes := [], notices := [] }
    match (compileSource validate source).run first with
    | (.ok (), b) => (.ok b.grammar, b.notices)
    | (.error e, b) => (.error e, b.notices)

/-- Reads and compiles a grammar. -/
def ofText (validate : Validator) (json : String) : Except Error Grammar × List Notice :=
  match GrammarSource.ofText json with
  | .ok source => ofSource validate source
  | .error fault => (.error (.json fault), [])

/-- Reads and compiles the contents of a file, if it could be read. -/
def ofFile (validate : Validator) (contents : Option (List UInt8)) :
    Except Error Grammar × List Notice :=
  match contents with
  | none => (.error .io, [])
  | some bytes =>
    match GrammarSource.ofBytes bytes with
    | .ok source => ofSource validate source
    | .error fault => (.error (.json fault), [])

end Grammar

end ScopeGrammar
