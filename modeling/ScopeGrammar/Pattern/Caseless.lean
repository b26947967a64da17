import ScopeGrammar.Pattern.Node
import ScopeGrammar.Unicode.Expansion

/-!
# ScopeGrammar.Pattern.Caseless

What letters and classes match where case does not matter.

* `Node.caselessChar` is one letter, `Node.caselessText` are several in a row.
* `Node.caselessClass` is a class in brackets.
-/

namespace ScopeGrammar.Pattern

namespace Node

def row : List Node → Node
  | [] => .empty
  | [n] => n
  | n :: rest => .cat n (row rest)

/-- A character in any case. -/
def caseless (c : Char) : Node := .letter (Unicode.fold c)

/-- Letters in a row, each in any case. -/
def letters (cs : List Char) : Node := row (cs.map caseless)

/-- A character, or the letters it is the same as. -/
def caselessChar (c : Char) : Node :=
  match Unicode.expansion? c with
  | some cs => .alt (caseless c) (letters cs)
  | none => caseless c

/-- The parts of a text in order, without its first `skip` characters. Letters that some character
is the same as make one part, the longest such run first. -/
def caselessParts : Nat → List Char → List Node
  | _, [] => []
  | skip + 1, _ :: rest => caselessParts skip rest
  | 0, c :: rest =>
    match Unicode.ligature? (c :: rest) with
    | some e =>
      .alt (letters e.letters) (caseless e.char) :: caselessParts (e.letters.length - 1) rest
    | none => caselessChar c :: caselessParts 0 rest

def caselessText (cs : List Char) : List Node := caselessParts 0 cs

/-- A class is extended before it is negated. Where it is not, it also matches the letters that a
member is the same as. -/
def caselessClass : CharSet → Node
  | .complement s => .set (.complement (.caseless s))
  | s =>
    let members := Unicode.expansions.filter fun e => s.contains e.char
    let texts := (members.map (·.letters)).eraseDups
    texts.foldl (fun n cs => .alt n (letters cs)) (.set (.caseless s))

end Node

end ScopeGrammar.Pattern
