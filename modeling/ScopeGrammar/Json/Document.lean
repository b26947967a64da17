import ScopeGrammar.Json.Lexeme

/-!
# ScopeGrammar.Json.Document

A JSON text as a tree. Reading never fails: where the text is broken the tree ends, and the fault
is kept at that place. Whoever walks the tree from left to right meets the first problem of the
text first, be it a broken spot or a value of the wrong kind.

* `Json` is the tree, `Document.ofText` reads it.
* An `array` or `object` keeps the fault that stopped reading inside it, after its last element.
-/

namespace ScopeGrammar

open Text (Decoded)
open Json (Fault Number)

inductive Json where
  | null
  | bool (b : Bool)
  | number (kept : Except Fault Number)
  | text (kept : Except Fault String)
  | array (items : List Json) (stop : Option Fault)
  | object (members : List (Except Fault String × Json)) (stop : Option Fault)
  | broken (fault : Fault)

namespace Json

/-- What is left of the text behind a value, or the fault that stopped reading. -/
abbrev Rest := Except Fault (List Decoded)

def Rest.fault? : Rest → Option Fault
  | .ok _ => none
  | .error f => some f

/-- The letters of a word such as `null` after the first. -/
def word : List Char → List Decoded → Rest
  | [], cs => .ok cs
  | _ :: _, [] => .error .endOfText
  | c :: more, .char d :: rest => if c == d then word more rest else .error .malformed
  | _ :: _, .stray _ :: _ => .error .malformed

def named (value : Json) (letters : List Char) (cs : List Decoded) : Json × Rest :=
  match word letters cs with
  | .ok rest => (value, .ok rest)
  | .error f => (.broken f, .error f)

def keptText (cs : List Decoded) : Except Fault String :=
  (keepString cs).map fun (s, _) => String.ofList s

mutual

/-- Reads a value. Every step uses up a character or turns to the next kind of thing to read, so
twice the length of the text is fuel enough. -/
def readValue : Nat → List Decoded → Json × Rest
  | 0, _ => (.broken .malformed, .error .malformed)
  | fuel + 1, cs =>
    match skipSpaces cs with
    | [] => (.broken .endOfText, .error .endOfText)
    | .stray _ :: _ => (.broken .malformed, .error .malformed)
    | .char c :: rest =>
      if c == 'n' then named .null ['u', 'l', 'l'] rest
      else if c == 't' then named (.bool true) ['r', 'u', 'e'] rest
      else if c == 'f' then named (.bool false) ['a', 'l', 's', 'e'] rest
      else if c == '"' then (.text (keptText rest), skipString rest)
      else if c == '[' then
        let (items, after) := readItems fuel true rest
        (.array items (Rest.fault? after), after)
      else if c == '{' then
        let (members, after) := readMembers fuel true rest
        (.object members (Rest.fault? after), after)
      else if c == '-' || ('0' ≤ c && c ≤ '9') then
        (.number ((keepNumber (.char c :: rest)).map (·.1)), skipNumber (.char c :: rest))
      else (.broken .malformed, .error .malformed)

/-- Reads the elements of an array up to its end. A comma with nothing behind it counts as one more
element, a broken one. -/
def readItems : Nat → Bool → List Decoded → List Json × Rest
  | 0, _, _ => ([], .error .malformed)
  | fuel + 1, first, cs =>
    let element (cs : List Decoded) : List Json × Rest :=
      match readValue fuel cs with
      | (item, .error f) => ([item], .error f)
      | (item, .ok rest) =>
        let (items, after) := readItems fuel false rest
        (item :: items, after)
    match skipSpaces cs with
    | [] => ([], .error .endOfText)
    | .char ']' :: rest => ([], .ok rest)
    | .char ',' :: rest => if first then element cs else element rest
    | _ => if first then element cs else ([], .error .malformed)

/-- Reads the members of an object up to its end. -/
def readMembers : Nat → Bool → List Decoded → List (Except Fault String × Json) × Rest
  | 0, _, _ => ([], .error .malformed)
  | fuel + 1, first, cs =>
    let member (cs : List Decoded) : List (Except Fault String × Json) × Rest :=
      let key := keptText cs
      match skipString cs with
      | .error f => ([(key, .broken f)], .error f)
      | .ok rest =>
        match skipSpaces rest with
        | [] => ([(key, .broken .endOfText)], .error .endOfText)
        | .char ':' :: rest =>
          match readValue fuel rest with
          | (value, .error f) => ([(key, value)], .error f)
          | (value, .ok rest) =>
            let (members, after) := readMembers fuel false rest
            ((key, value) :: members, after)
        | _ => ([(key, .broken .malformed)], .error .malformed)
    match skipSpaces cs with
    | [] => ([], .error .endOfText)
    | .char '}' :: rest => ([], .ok rest)
    | .char '"' :: rest => if first then member rest else ([], .error .malformed)
    | .char ',' :: rest =>
      if first then ([], .error .malformed)
      else
        match skipSpaces rest with
        | [] => ([], .error .endOfText)
        | .char '"' :: rest => member rest
        | _ => ([], .error .malformed)
    | _ => ([], .error .malformed)

end

end Json

/-- A text that should hold one JSON value. -/
structure Document where
  root : Json
  /-- Nothing but blanks may follow the value. -/
  ending : Option Json.Fault

namespace Document

def ofText (cs : List Decoded) : Document :=
  match Json.readValue (2 * cs.length + 2) cs with
  | (root, .error f) => { root, ending := some f }
  | (root, .ok rest) =>
    { root, ending := if (Json.skipSpaces rest).isEmpty then none else some .malformed }

def ofString (s : String) : Document := ofText (Decoded.ofString s)

end Document

end ScopeGrammar
