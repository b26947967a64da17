import ScopeGrammar.Json.Decode
import ScopeGrammar.Json.Value

/-!
# ScopeGrammar.Grammar.Source

Grammars as they are written, in JSON.

* `RuleSource` and `GrammarSource` have a field for every key of the format.
* `GrammarSource.ofText` reads a grammar, `GrammarSource.toJson` writes one.

Repositories keep the order of the text, captures are sorted by key; of two entries with one key the
later one counts.
-/

namespace ScopeGrammar

open Json (Reader RecordField field)

/-- A rule as written. Which keys it has decides what it is: an `include`, a `match`, a span from
`begin` to `end` or for as long as `while` matches, or a container of `patterns`. -/
structure RuleSource where
  name : Option String := none
  contentName : Option String := none
  matchText : Option String := none
  beginText : Option String := none
  endText : Option String := none
  whileText : Option String := none
  captures : List (String × RuleSource) := []
  beginCaptures : List (String × RuleSource) := []
  endCaptures : List (String × RuleSource) := []
  whileCaptures : List (String × RuleSource) := []
  patterns : List RuleSource := []
  includeText : Option String := none
  repository : List (String × RuleSource) := []
  applyEndPatternLast : Bool := false
  disabled : Bool := false
  deriving Inhabited, BEq

structure GrammarSource where
  name : String := ""
  scopeName : String := ""
  fileTypes : List String := []
  patterns : List RuleSource := []
  repository : List (String × RuleSource) := []
  deriving Inhabited, BEq

/-- Adds an entry at the place of an older one with its key, or at the end. -/
def putEntry {α : Type} (key : String) (value : α) : List (String × α) → List (String × α)
  | [] => [(key, value)]
  | (k, v) :: rest =>
    if k == key then (key, value) :: rest else (k, v) :: putEntry key value rest

/-- Adds an entry to ones that ascend by key. -/
def putSorted {α : Type} (key : String) (value : α) : List (String × α) → List (String × α)
  | [] => [(key, value)]
  | (k, v) :: rest =>
    if k == key then (key, value) :: rest
    else if key < k then (key, value) :: (k, v) :: rest
    else (k, v) :: putSorted key value rest

namespace RuleSource

/-- The fields of a rule in order of declaration, with a reader for the rules inside it. -/
def fields (inner : Reader RuleSource) : List (RecordField RuleSource) :=
  let text := Json.optional Json.string
  let captures := Json.dict putSorted inner
  [field "name" text fun v r => { r with name := v },
   field "contentName" text fun v r => { r with contentName := v },
   field "match" text fun v r => { r with matchText := v },
   field "begin" text fun v r => { r with beginText := v },
   field "end" text fun v r => { r with endText := v },
   field "while" text fun v r => { r with whileText := v },
   field "captures" captures fun v r => { r with captures := v },
   field "beginCaptures" captures fun v r => { r with beginCaptures := v },
   field "endCaptures" captures fun v r => { r with endCaptures := v },
   field "whileCaptures" captures fun v r => { r with whileCaptures := v },
   field "patterns" (Json.list inner) fun v r => { r with patterns := v },
   field "include" text fun v r => { r with includeText := v },
   field "repository" (Json.dict putEntry inner) fun v r => { r with repository := v },
   field "applyEndPatternLast" Json.flag fun v r => { r with applyEndPatternLast := v },
   field "disabled" Json.flag fun v r => { r with disabled := v }]

/-- Reads rules that hold rules so many levels deep. -/
def readerTo : Nat → Reader RuleSource
  | 0 => fun _ _ => .error .malformed
  | levels + 1 => Json.record (fields (readerTo levels)) false false {}

/-- Every rule inside a rule opens an object, so the limit on those bounds the levels. -/
def reader : Reader RuleSource := readerTo Json.depthLimit

end RuleSource

namespace GrammarSource

def fields : List (RecordField GrammarSource) :=
  [field "name" Json.string fun v g => { g with name := v },
   field "scopeName" Json.string fun v g => { g with scopeName := v },
   field "fileTypes" (Json.list Json.string) fun v g => { g with fileTypes := v },
   field "patterns" (Json.list RuleSource.reader) fun v g => { g with patterns := v },
   field "repository" (Json.dict putEntry RuleSource.reader) fun v g => { g with repository := v }]

def ofDocument (doc : Document) : Except Json.Fault GrammarSource :=
  Json.readDocument (Json.record fields false false {}) doc

def ofText (json : String) : Except Json.Fault GrammarSource :=
  ofDocument (Document.ofString json)

/-- The contents of a file need not be text. -/
def ofBytes (bytes : List UInt8) : Except Json.Fault GrammarSource :=
  ofDocument (Document.ofText (Text.Decoded.decode bytes))

end GrammarSource

def textMember (key : String) : Option String → List (String × JsonValue)
  | some s => [(key, .text s)]
  | none => []

def flagMember (key : String) (b : Bool) : List (String × JsonValue) :=
  if b then [(key, .bool true)] else []

/-- A member that is left out when it is empty. -/
def listMember (key : String) (items : List JsonValue) : List (String × JsonValue) :=
  if items.isEmpty then [] else [(key, .array items)]

def dictMember (key : String) (members : List (String × JsonValue)) : List (String × JsonValue) :=
  if members.isEmpty then [] else [(key, .object members)]

mutual

/-- A rule as it is written: keys that have their default value are left out. -/
def RuleSource.toJson : RuleSource → JsonValue
  | ⟨name, contentName, matchText, beginText, endText, whileText, captures, beginCaptures,
      endCaptures, whileCaptures, patterns, includeText, repository, applyEndPatternLast,
      disabled⟩ =>
    .object <|
      textMember "name" name ++ textMember "contentName" contentName ++
      textMember "match" matchText ++ textMember "begin" beginText ++
      textMember "end" endText ++ textMember "while" whileText ++
      dictMember "captures" (entriesToJson captures) ++
      dictMember "beginCaptures" (entriesToJson beginCaptures) ++
      dictMember "endCaptures" (entriesToJson endCaptures) ++
      dictMember "whileCaptures" (entriesToJson whileCaptures) ++
      listMember "patterns" (rulesToJson patterns) ++ textMember "include" includeText ++
      dictMember "repository" (entriesToJson repository) ++
      flagMember "applyEndPatternLast" applyEndPatternLast ++ flagMember "disabled" disabled

def rulesToJson : List RuleSource → List JsonValue
  | [] => []
  | r :: rest => r.toJson :: rulesToJson rest

def entriesToJson : List (String × RuleSource) → List (String × JsonValue)
  | [] => []
  | (key, r) :: rest => (key, r.toJson) :: entriesToJson rest

end

/-- All keys of a grammar are written, also those that have their default value. -/
def GrammarSource.toJson (g : GrammarSource) : JsonValue :=
  .object
    [("name", .text g.name), ("scopeName", .text g.scopeName),
     ("fileTypes", .array (g.fileTypes.map .text)),
     ("patterns", .array (rulesToJson g.patterns)),
     ("repository", .object (entriesToJson g.repository))]

end ScopeGrammar
