import ScopeGrammar.Json.Document

/-!
# ScopeGrammar.Json.Decode

Readers of typed values from a JSON tree. A reader walks its value from left to right and reports
the first fault it meets. It is given how many arrays and objects may still be opened: at
most `depthLimit - 1` of them may be nested in what is kept.

* `string`, `natural`, `flag`, `optional`, `list`, `dict` read the usual kinds of values.
* `record` reads an object with named fields, or an array of these in order of declaration.
-/

namespace ScopeGrammar.Json

/-- Opening this many arrays and objects inside each other is one too many. -/
def depthLimit : Nat := 128

abbrev Reader (α : Type) := Nat → Json → Except Fault α

/-- The fault of a value of the wrong kind. A scalar is read to its end first. -/
def wrongKind : Json → Fault
  | .broken f => f
  | .number (.error f) => f
  | .text (.error f) => f
  | _ => .mismatch

/-- What is left to open behind a bracket, unless that is nothing. -/
def enter (depth : Nat) : Except Fault Nat :=
  if depth ≤ 1 then .error .malformed else .ok (depth - 1)

def ending : Option Fault → Except Fault Unit
  | none => .ok ()
  | some f => .error f

def string : Reader String
  | _, .text (.ok s) => .ok s
  | _, j => .error (wrongKind j)

def natural : Reader Nat
  | _, .number (.ok (.natural n)) => .ok n
  | _, j => .error (wrongKind j)

def optional {α : Type} (read : Reader α) : Reader (Option α)
  | _, .null => .ok none
  | depth, j => (read depth j).map some

def list {α : Type} (read : Reader α) : Reader (List α)
  | depth, .array items stop => do
    let depth ← enter depth
    let values ← items.mapM (read depth)
    ending stop
    .ok values
  | _, j => .error (wrongKind j)

/-- An object whose keys are free. `insert` adds an entry to those read before. -/
def dict {α : Type} (insert : String → α → List (String × α) → List (String × α))
    (read : Reader α) : Reader (List (String × α))
  | depth, .object members stop => do
    let depth ← enter depth
    let entries ← members.foldlM (fun entries (key, value) => do
      let k ← key
      let v ← read depth value
      .ok (insert k v entries)) []
    ending stop
    .ok entries
  | _, j => .error (wrongKind j)

/-- Reads a value to its end without looking at what it is. -/
def keepAny : Nat → Json → Except Fault Unit
  | depth + 2, .array items stop => do
    items.forM (keepAny (depth + 1))
    ending stop
  | depth + 2, .object members stop => do
    members.forM fun (key, value) => do
      let _ ← key
      keepAny (depth + 1) value
    ending stop
  | _, .array _ _ => .error .malformed
  | _, .object _ _ => .error .malformed
  | _, .broken f => .error f
  | _, .number (.error f) => .error f
  | _, .text (.error f) => .error f
  | _, _ => .ok ()

/-- A switch: a boolean, or a number of 64 bits with sign, where zero is off. -/
def flag : Reader Bool
  | _, .bool b => .ok b
  | _, .number (.ok (.natural n)) => if n < Nat.pow 2 63 then .ok (n != 0) else .error .mismatch
  | _, .number (.ok (.negative _)) => .ok true
  | depth, j => do
    keepAny depth j
    .error .mismatch

/-- How the value of a field is read into a record. -/
abbrev RecordField (α : Type) := String × (Nat → Json → α → Except Fault α)

def field {α β : Type} (name : String) (read : Reader β) (set : β → α → α) : RecordField α :=
  (name, fun depth j a => (read depth j).map (set · a))

/-- Reads members in order. An unknown key is passed over, a known one may come once; `strict`
refuses unknown keys. -/
def readFields {α : Type} (fields : List (RecordField α)) (strict : Bool) (depth : Nat) :
    List String → α → List (Except Fault String × Json) → Except Fault (List String × α)
  | seen, a, [] => .ok (seen, a)
  | seen, a, (key, value) :: rest => do
    let k ← key
    match fields.lookup k with
    | none => if strict then .error .mismatch else readFields fields strict depth seen a rest
    | some read =>
      if seen.contains k then .error .mismatch
      else
        let a ← read depth value a
        readFields fields strict depth (k :: seen) a rest

/-- Reads the elements of an array as the fields of a record. -/
def readPlaces {α : Type} (depth : Nat) (stop : Option Fault) :
    List (RecordField α) → α → List Json → Except Fault (Nat × α)
  | [], _, _ :: _ => .error .malformed
  | fields, a, [] => do
    ending stop
    .ok (fields.length, a)
  | (_, read) :: fields, a, item :: items => do
    let a ← read depth item a
    readPlaces depth stop fields a items

/-- Reads a record over the given defaults. With `complete` every field has to be there. -/
def record {α : Type} (fields : List (RecordField α)) (complete strict : Bool) (defaults : α) :
    Reader α
  | depth, .object members stop => do
    let depth ← enter depth
    let (seen, a) ← readFields fields strict depth [] defaults members
    ending stop
    if complete && seen.length < fields.length then .error .mismatch else .ok a
  | depth, .array items stop => do
    let depth ← enter depth
    let (missing, a) ← readPlaces depth stop fields defaults items
    if complete && 0 < missing then .error .mismatch else .ok a
  | _, j => .error (wrongKind j)

/-- Reads a whole text as one value. -/
def readDocument {α : Type} (read : Reader α) (doc : Document) : Except Fault α := do
  let a ← read depthLimit doc.root
  ending doc.ending
  .ok a

end ScopeGrammar.Json
