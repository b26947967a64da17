import ScopeGrammar.Error
import ScopeGrammar.Grammar.IncludeTarget
import ScopeGrammar.Scope

/-!
# ScopeGrammar.Grammar.Basic

A grammar as it is used: its rules, lists of rules, captures and patterns are numbered and refer to
each other by number.

* `Rule` is a match or a span, `ListItem` an element of a list of rules.
* `Grammar` holds them. Includes are only looked up when the rules of a context are listed.
* `RepositoryChain` are the repositories an include can see.
-/

namespace ScopeGrammar

/-- The number of a grammar in a registry. -/
structure GrammarId where
  val : UInt16
  deriving DecidableEq, Hashable, Repr, Inhabited

structure RuleId where
  val : UInt32
  deriving DecidableEq, Hashable, Repr, Inhabited

structure ListId where
  val : UInt32
  deriving DecidableEq, Hashable, Repr, Inhabited

structure CaptureId where
  val : UInt32
  deriving DecidableEq, Hashable, Repr, Inhabited

structure PatternId where
  val : UInt32
  deriving DecidableEq, Hashable, Repr, Inhabited

structure RepositoryId where
  val : UInt16
  deriving DecidableEq, Hashable, Repr, Inhabited

def GrammarId.index (i : GrammarId) : Nat := i.val.toNat
def RuleId.index (i : RuleId) : Nat := i.val.toNat
def ListId.index (i : ListId) : Nat := i.val.toNat
def CaptureId.index (i : CaptureId) : Nat := i.val.toNat
def PatternId.index (i : PatternId) : Nat := i.val.toNat
def RepositoryId.index (i : RepositoryId) : Nat := i.val.toNat

/-- A rule of one grammar of a registry. -/
structure RuleRef where
  grammar : GrammarId
  rule : RuleId
  deriving DecidableEq, Hashable, Repr, Inhabited

/-- So many repositories may be nested in each other, the one of the grammar counted. -/
def repositoryDepth : Nat := 8

/-- The repositories that can be seen from a rule, the innermost one first. -/
structure RepositoryChain where
  ids : List RepositoryId
  deriving DecidableEq, Repr, Inhabited

namespace RepositoryChain

def empty : RepositoryChain := ⟨[]⟩

def push (s : RepositoryChain) (id : RepositoryId) : Option RepositoryChain :=
  if s.ids.length < repositoryDepth then some ⟨id :: s.ids⟩ else none

end RepositoryChain

structure Include where
  target : IncludeTarget
  repositories : RepositoryChain
  deriving DecidableEq, Repr

inductive ListItem where
  | rule (id : RuleId)
  /-- A rule that only groups other rules. -/
  | list (id : ListId)
  | linked (target : Include)
  deriving DecidableEq, Repr

/-- The scopes of a capture group, and rules for its text. -/
structure Capture where
  scopes : List Scope
  patterns : Option ListId
  deriving DecidableEq

/-- The captures of a pattern by group number. There is a place for every number below `size`, of
which only the filled ones are stored, in ascending order. -/
structure CaptureTable where
  size : Nat
  entries : List (Nat × CaptureId)
  deriving DecidableEq

namespace CaptureTable

def empty : CaptureTable := ⟨0, []⟩

def isEmpty (t : CaptureTable) : Bool := t.size == 0

def get? (t : CaptureTable) (i : Nat) : Option CaptureId := t.entries.lookup i

/-- Fills a place among places in ascending order. -/
def putPlace (i : Nat) (id : CaptureId) : List (Nat × CaptureId) → List (Nat × CaptureId)
  | [] => [(i, id)]
  | (j, jd) :: rest =>
    if i = j then (i, id) :: rest
    else if i < j then (i, id) :: (j, jd) :: rest
    else (j, jd) :: putPlace i id rest

def put (t : CaptureTable) (i : Nat) (id : CaptureId) : CaptureTable :=
  { t with entries := putPlace i id t.entries }

end CaptureTable

structure MatchRule where
  scopes : List Scope
  pattern : PatternId
  captures : CaptureTable
  deriving DecidableEq

/-- How a span ends: at the first match of its end, or before the first line its `while` does not
match. -/
inductive SpanEnding where
  | atEnd (pattern : PatternId) (captures : CaptureTable) (applyLast : Bool)
  | whileMatched (pattern : PatternId) (captures : CaptureTable)
  deriving DecidableEq

structure SpanRule where
  /-- The scopes of the whole span. -/
  scopes : List Scope
  /-- Further scopes of what is between its ends. -/
  contentScopes : List Scope
  opening : PatternId
  openingCaptures : CaptureTable
  close : SpanEnding
  /-- The closing pattern refers to groups of the opening match. -/
  fillsEnding : Bool
  patterns : ListId
  deriving DecidableEq

namespace SpanRule

def closePattern (s : SpanRule) : PatternId :=
  match s.close with
  | .atEnd p _ _ => p
  | .whileMatched p _ => p

def closeCaptures (s : SpanRule) : CaptureTable :=
  match s.close with
  | .atEnd _ t _ => t
  | .whileMatched _ t => t

def isWhile (s : SpanRule) : Bool :=
  match s.close with
  | .atEnd _ _ _ => false
  | .whileMatched _ _ => true

def appliesEndLast (s : SpanRule) : Bool :=
  match s.close with
  | .atEnd _ _ last => last
  | .whileMatched _ _ => false

end SpanRule

inductive Rule where
  | single (r : MatchRule)
  | span (r : SpanRule)
  deriving DecidableEq

/-- A rule that was left out because one of its patterns is refused. -/
structure SkippedRule where
  path : String
  pattern : String
  error : PatternError
  deriving DecidableEq, Repr

structure Grammar where
  name : String
  scopeName : String
  scope : Scope
  fileTypes : List String
  patterns : Array String
  rules : Array Rule
  lists : Array (List ListItem)
  captures : Array Capture
  repositories : Array (List (String × ListId))
  root : ListId
  skipped : List SkippedRule
  deriving Inhabited

namespace Grammar

def rule? (g : Grammar) (id : RuleId) : Option Rule := g.rules[id.index]?

def span? (g : Grammar) (id : RuleId) : Option SpanRule :=
  match g.rule? id with
  | some (.span s) => some s
  | _ => none

/-- The elements of a list of rules, none for a number that is no list. -/
def list (g : Grammar) (id : ListId) : List ListItem := g.lists.getD id.index []

def pattern (g : Grammar) (id : PatternId) : String := g.patterns.getD id.index ""

def capture? (g : Grammar) (id : CaptureId) : Option Capture := g.captures[id.index]?

def entryIn? (g : Grammar) (name : String) (id : RepositoryId) : Option ListId :=
  (g.repositories[id.index]?).bind (·.lookup name)

/-- The entry of the innermost repository that has one of this name. -/
def visibleEntry? (g : Grammar) (name : String) (repositories : RepositoryChain) : Option ListId :=
  repositories.ids.findSome? (g.entryIn? name)

/-- The entry of the repository of the grammar itself. -/
def ownEntry? (g : Grammar) (name : String) : Option ListId :=
  g.entryIn? name ⟨0⟩

end Grammar

end ScopeGrammar
