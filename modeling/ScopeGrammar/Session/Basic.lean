import ScopeGrammar.OpenSpans
import ScopeGrammar.Registry.Resolve

/-!
# ScopeGrammar.Session.Basic

Tokenizing with one grammar of a registry.

* `Tokenizer` holds what was compiled for it so far: groups of patterns by context and anchors, and
  single patterns.
* `SessionM` are steps that use a registry and a tokenizer, and note what goes wrong.
* `resolveContext`, `searchContext` and `matchAlone` are such steps.

At most `keptLimit` groups and as many single patterns are kept; at the limit all of them are
dropped.
-/

namespace ScopeGrammar

structure SessionOptions where
  /-- The ends of all open spans are looked for, not only that of the innermost one. -/
  closeOuterSpans : Bool := true
  /-- Lines with more characters are not scanned. -/
  maxLineLength : Option Nat := none
  deriving DecidableEq, Repr

/-- The patterns of a context that are accepted, each with the number of its candidate. -/
structure ContextGroup (P : Type) where
  group : PatternGroup P
  candidates : List Nat

/-- The patterns that are accepted, each with its place from `i` on. -/
def acceptedFrom {P : Type} (engine : Engine P) (i : Nat) : List String → List (Nat × P)
  | [] => []
  | s :: rest =>
    match engine.compile {} s with
    | .ok p => (i, p) :: acceptedFrom engine (i + 1) rest
    | .error _ => acceptedFrom engine (i + 1) rest

namespace ContextGroup

variable {P : Type} (engine : Engine P)

/-- Compiles the patterns of a context for some anchors. A pattern can be refused only if it was
filled in with matched text; it is left out then. -/
def build (context : Context) (anchors : Anchoring) : ContextGroup P × List Notice :=
  let sources := context.sources.map anchors.rewrite
  match PatternGroup.compile engine {} sources with
  | .ok group => (⟨group, List.range sources.length⟩, [])
  | .error refusal =>
    let accepted := acceptedFrom engine 0 sources
    (⟨⟨accepted.map (·.2)⟩, accepted.map (·.1)⟩, [.deadPattern refusal])

/-- The match that comes first, with the number of its candidate. -/
def search (g : ContextGroup P) (t : Subject) (pos : Nat) : Option (Nat × Match) :=
  match g.group.search engine t pos with
  | none => none
  | some (i, m) => (g.candidates[i]?).map fun candidate => (candidate, m)

end ContextGroup

structure Tokenizer (P : Type) where
  /-- The grammar that `$base` means. -/
  base : GrammarId
  /-- The scope of the grammar, which everything outside of spans has. -/
  rootScopes : List Scope
  options : SessionOptions
  rootContext : Context
  groups : List ((ContextId × Anchoring) × ContextGroup P)
  singles : List (String × Option P)

def keptLimit : Nat := 256

namespace Tokenizer

variable {P : Type}

/-- A tokenizer that starts with a grammar. -/
def start (r : Registry) (base : GrammarId) (options : SessionOptions) :
    (Tokenizer P × List Notice) × Registry :=
  let ((rootContext, notices), registry) := r.resolve (.root base)
  let rootScopes := ((r.grammar? base).map (·.scope)).toList
  (({ base, rootScopes, options, rootContext, groups := [], singles := [] }, notices), registry)

/-- The context of the innermost frame. -/
def contextOf (t : Tokenizer P) (s : OpenSpans) : Context :=
  (s.top?.map (·.context)).getD t.rootContext

/-- The scopes of plain text. -/
def scopesOf (t : Tokenizer P) (s : OpenSpans) : List Scope := s.scopesOver t.rootScopes

def addGroup (t : Tokenizer P) (key : ContextId × Anchoring) (g : ContextGroup P) :
    Tokenizer P :=
  let kept := if t.groups.length < keptLimit then t.groups else []
  { t with groups := (key, g) :: kept }

def addSingle (t : Tokenizer P) (source : String) (p : Option P) : Tokenizer P :=
  let kept := if t.singles.length < keptLimit then t.singles else []
  { t with singles := (source, p) :: kept }

end Tokenizer

structure Session (P : Type) where
  registry : Registry
  tokenizer : Tokenizer P
  notices : List Notice

abbrev SessionM (P : Type) := StateM (Session P)

namespace SessionM

variable {P : Type}

def note (notices : List Notice) : SessionM P Unit :=
  modify fun s => { s with notices := s.notices ++ notices }

def registry : SessionM P Registry := do return (← get).registry

def tokenizer : SessionM P (Tokenizer P) := do return (← get).tokenizer

def resolveContext (situation : Situation) : SessionM P Context :=
  modifyGet fun s =>
    let ((context, notices), registry) := s.registry.resolve situation
    (context, { s with registry, notices := s.notices ++ notices })

variable (engine : Engine P)

/-- The group of a context, compiled if it is not kept. -/
def groupOf (context : Context) (anchors : Anchoring) : SessionM P (ContextGroup P) :=
  modifyGet fun s =>
    let key := (context.id, anchors)
    match s.tokenizer.groups.lookup key with
    | some g => (g, s)
    | none =>
      let (g, notices) := ContextGroup.build engine context anchors
      (g, { s with
        tokenizer := s.tokenizer.addGroup key g
        notices := s.notices ++ notices })

/-- The first match of a candidate of a context. Where no pattern has anchors, one group serves
for all of them. -/
def searchContext (context : Context) (anchors : Anchoring) (t : Subject) (pos : Nat) :
    SessionM P (Option (Nat × Match)) := do
  let g ← groupOf engine context (if context.usesAnchors then anchors else .all)
  return g.search engine t pos

/-- A pattern compiled by itself, `none` if it is refused. -/
def singleOf (source : String) : SessionM P (Option P) :=
  modifyGet fun s =>
    match s.tokenizer.singles.lookup source with
    | some p => (p, s)
    | none =>
      match engine.compile {} source with
      | .ok p => (some p, { s with tokenizer := s.tokenizer.addSingle source (some p) })
      | .error e =>
        (none, { s with
          tokenizer := s.tokenizer.addSingle source none
          notices := s.notices ++ [.deadPattern ⟨source, e⟩] })

/-- The match of a single pattern exactly at a position. -/
def matchAlone (source : String) (anchors : Anchoring) (t : Subject) (pos : Nat) :
    SessionM P (Option Match) := do
  let p ← singleOf engine (anchors.rewrite source)
  return p.bind fun p => engine.matchAt p t pos

end SessionM

end ScopeGrammar
