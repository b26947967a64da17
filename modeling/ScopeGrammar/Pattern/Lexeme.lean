import ScopeGrammar.Pattern.Error
import ScopeGrammar.Pattern.Node
import ScopeGrammar.Text.Utf8

/-!
# ScopeGrammar.Pattern.Lexeme

The parts of a pattern's text that stand for something by themselves: numbers, escaped characters,
group names, repeat counts and properties. Every reader takes the text that is left and returns
what it read with what is left then.

* `repeatLimit` bounds repeat counts.
* `GroupRef` is a group referred to by name or number; `groupName`, `callName` and `backrefName`
  read one.
* `escapedChar` reads the character an escape stands for.
-/

namespace ScopeGrammar.Pattern

open Unicode (hexValue?)

/-- The largest count of a repeat. -/
def repeatLimit : Nat := 100000

/-- The largest number that is read as one. -/
def numberLimit : Nat := Nat.pow 2 31 - 1

def octalValue? (c : Char) : Option Nat :=
  if '0' ≤ c ∧ c ≤ '7' then some (c.toNat - '0'.toNat) else none

def decimalValue? (c : Char) : Option Nat :=
  if '0' ≤ c ∧ c ≤ '9' then some (c.toNat - '0'.toNat) else none

/-- The digits at the front, at most so many, and what follows them. -/
def takeDigits (value? : Char → Option Nat) : Nat → List Char → List Nat × List Char
  | most + 1, c :: rest =>
    match value? c with
    | some d =>
      let (ds, after) := takeDigits value? most rest
      (d :: ds, after)
    | none => ([], c :: rest)
  | _, cs => ([], cs)

def ofDigits (base : Nat) (ds : List Nat) : Nat := ds.foldl (fun n d => n * base + d) 0

/-- A decimal number, if one stands here. -/
def number (cs : List Char) : Option Nat × List Char :=
  match takeDigits decimalValue? cs.length cs with
  | ([], rest) => (none, rest)
  | (ds, rest) => (some (ofDigits 10 ds), rest)

def codePoint (n : Nat) : Except PatternError Char :=
  if n < 0xd800 ∨ (0xdfff < n ∧ n < 0x110000) then .ok (Char.ofNat n) else .error .badCodePoint

/-- Up to the first of two characters, where that is followed by more text. -/
def nameUpTo (last : Char) (first : Char) (rest : List Char) : List Char :=
  let name := rest.takeWhile fun c => c != last && c != ')'
  if name.length + 1 < rest.length then first :: name else first :: rest

/-- A group referred to by name or by number; a relative number counts from here. -/
inductive GroupRef where
  | named (name : List Char)
  | absolute (n : Nat)
  | relative (n : Int)

def isWordChar (c : Char) : Bool := Kind.word.contains c

/-- The name of a group that is being defined. -/
def groupName (last : Char) : List Char → Except PatternError (List Char × List Char)
  | [] => .error .emptyGroupName
  | c :: rest =>
    if c == last then .error .emptyGroupName
    else if c.isDigit || c == '-' || c == '+' then .error (.badGroupName (nameUpTo last c rest))
    else if !isWordChar c then .error (.badGroupNameChar (nameUpTo last c rest))
    else
      let name := rest.takeWhile fun d => d != last && d != ')'
      if !name.all isWordChar then .error (.badGroupNameChar (nameUpTo last c rest))
      else match rest.drop name.length with
        | d :: after =>
          if d == last then .ok (c :: name, after) else .error (.badGroupName (c :: rest))
        | [] => .error (.badGroupName (c :: rest))

/-- The group of a call: a name, a number, or a number with a sign. -/
def callName (last : Char) : List Char → Except PatternError (GroupRef × List Char)
  | [] => .error .emptyGroupName
  | c :: rest =>
    if c == last then .error .emptyGroupName
    else
      let body := rest.takeWhile fun d => d != last && d != ')'
      let closed : Except PatternError (List Char) := match rest.drop body.length with
        | d :: after => if d == last then .ok after else .error (.badGroupName (c :: rest))
        | [] => .error (.badGroupName (c :: rest))
      let signed := c == '-' || c == '+'
      if c.isDigit || signed then
        match body.find? (!·.isDigit) with
        | some d =>
          if isWordChar d then .error (.badGroupName (nameUpTo last c rest))
          else .error (.badGroupNameChar (nameUpTo last c rest))
        | none => do
          let after ← closed
          let ds := if signed then body else c :: body
          let n := ofDigits 10 (ds.filterMap decimalValue?)
          if numberLimit < n then .error .numberTooBig
          else if signed then
            if n = 0 then .error (.badGroupName (c :: body))
            else .ok (.relative (if c == '-' then -(n : Int) else n), after)
          else .ok (.absolute n, after)
      else if !isWordChar c || !body.all isWordChar then
        .error (.badGroupNameChar (nameUpTo last c rest))
      else do
        let after ← closed
        .ok (.named (c :: body), after)

/-- What follows the sign of a recursion level up to the closing character. -/
def levelEnd (last : Char) (cs : List Char) : Option (List Char) :=
  match number cs with
  | (some _, d :: after) => if d == last then some after else none
  | _ => none

/-- The group of a back-reference. A recursion level may follow the name and is passed over. -/
def backrefName (last : Char) : List Char → Except PatternError (GroupRef × List Char)
  | [] => .error .emptyGroupName
  | c :: rest =>
    if c == last then .error .emptyGroupName
    else
      let body := rest.takeWhile fun d => d != last && d != ')' && d != '+' && d != '-'
      let after := rest.drop body.length
      let signed := c == '-' || c == '+'
      let numeric := c.isDigit || signed
      -- an unusable name is reported without the character reading stopped at
      let shown := if after.isEmpty then c :: body.dropLast else c :: body
      if !numeric && !isWordChar c then .error (.badGroupName shown)
      else if numeric && !body.all (·.isDigit) then .error (.badGroupName shown)
      else if signed && body.isEmpty && !after.isEmpty then .error (.badGroupName shown)
      else if !numeric && !body.all isWordChar then .error (.badGroupNameChar shown)
      else
        let close : Except PatternError (List Char) :=
          match after with
          | d :: more =>
            if d == last then .ok more
            else if d == '+' || d == '-' then
              if more.isEmpty then .error (.badGroupNameChar (c :: body))
              else match levelEnd last more with
                | some rest => .ok rest
                | none => .error (.badGroupName (c :: rest))
            else .error (.badGroupName (c :: rest))
          | [] => .error (.badGroupName (c :: rest))
        do
          let more ← close
          if numeric then
            let ds := if signed then body else c :: body
            let n := ofDigits 10 (ds.filterMap decimalValue?)
            if numberLimit < n then .error .numberTooBig
            else if signed then
              if n = 0 then .error (.badGroupName (c :: body))
              else .ok (.relative (if c == '-' then -(n : Int) else n), more)
            else .ok (.absolute n, more)
          else .ok (.named (c :: body), more)

/-- The set of a property, from behind its opening brace. -/
def property (neg : Bool) (cs : List Char) : Except PatternError (CharSet × List Char) :=
  let (neg, body) := match cs with
    | '^' :: rest => (!neg, rest)
    | _ => (neg, cs)
  let stop (c : Char) : Bool := c == '\x7d' || c == '(' || c == ')' || c == '\x7b' || c == '|'
  let name := body.takeWhile (!stop ·)
  match body.drop name.length with
  | '\x7d' :: rest =>
    match property? name with
    | some s => .ok (s.negateIf neg, rest)
    | none => .error (.badPropertyName name)
  | _ :: _ => .error (.badPropertyName name)
  | [] => .error (.badPropertyName name.dropLast)

/-- What a code point in braces is followed by. -/
def closeBrace (c : Char) : List Char → Except PatternError (Char × List Char)
  | '\x7d' :: rest => .ok (c, rest)
  | _ => .error .badCodePoint

/-- A code point in braces, from behind the opening one; `none` if no digit stands there. -/
def bracedCode (value? : Char → Option Nat) (base most : Nat) (cs : List Char) :
    Except PatternError (Option (Char × List Char)) :=
  match takeDigits value? most cs with
  | ([], _) => .ok none
  | (ds, rest) =>
    match rest with
    | c :: _ =>
      if (value? c).isSome then .error .codePointTooLong
      else do
        let code ← codePoint (ofDigits base ds)
        some <$> closeBrace code rest
    | [] => .error .badCodePoint

/-- The bytes of further two-digit escapes, each with the text behind it. -/
def moreBytes : Nat → List Char → List (UInt8 × List Char)
  | most + 1, '\\' :: 'x' :: cs =>
    match takeDigits hexValue? 2 cs with
    | ([], _) => []
    | (ds, rest) => (UInt8.ofNat (ofDigits 16 ds), rest) :: moreBytes most rest
  | _, _ => []

/-- A byte written as a number. A byte that starts a longer character needs the rest of it written
the same way. -/
def byteChar (byte : Nat) (rest : List Char) : Except PatternError (Char × List Char) :=
  if byte < 0x80 then .ok (Char.ofNat byte, rest)
  else
    let more := moreBytes 3 rest
    match Text.Decoded.first? (UInt8.ofNat byte :: more.map (·.1)) with
    | some (c, width) =>
      match more[width - 2]? with
      | some (_, after) => .ok (c, after)
      | none => .error .shortMultibyte
    | none => .error .shortMultibyte

/-- A letter that stands for a control character behind a backslash. -/
def controlLetter (c : Char) : Char :=
  match c with
  | 'n' => '\n'
  | 't' => '\t'
  | 'r' => '\r'
  | 'f' => '\x0c'
  | 'a' => '\x07'
  | 'b' => '\x08'
  | 'e' => '\x1b'
  | 'v' => '\x0b'
  | c => c

/-- An escape that stands for one character and has no meaning of its own elsewhere. Control and
meta escapes may be nested; `fuel` is the length of the text. -/
def escapedChar : Nat → List Char → Except PatternError (Char × List Char)
  | 0, _ => .error .endAtEscape
  | _, [] => .error .endAtEscape
  | fuel + 1, c :: rest =>
    let operand (short : PatternError) (cs : List Char) : Except PatternError (Char × List Char) :=
      match cs with
      | [] => .error short
      | '\\' :: more => escapedChar fuel more
      | d :: more => .ok (d, more)
    let control (cs : List Char) : Except PatternError (Char × List Char) :=
      match cs with
      | '?' :: more => .ok ('\x7f', more)
      | _ => do
        let (d, more) ← operand .endAtControl cs
        .ok (Char.ofNat (d.toNat &&& 0x9f), more)
    match c with
    | 'c' => control rest
    | 'C' =>
      match rest with
      | [] => .error .endAtControl
      | '-' :: more => control more
      | _ => .error .badControlCode
    | 'M' =>
      match rest with
      | [] => .error .endAtMeta
      | '-' :: more => do
        let (d, more) ← operand .endAtMeta more
        .ok (Char.ofNat ((d.toNat &&& 0xff) ||| 0x80), more)
      | _ => .error .badMetaCode
    | c => .ok (controlLetter c, rest)

/-- The escapes of characters by number, from behind the backslash: `none` if this is none. -/
def numericEscape (c : Char) (rest : List Char) :
    Except PatternError (Option (Char × List Char)) :=
  match c, rest with
  | 'x', '\x7b' :: more => do
    match ← bracedCode hexValue? 16 8 more with
    | some r => .ok (some r)
    | none => .ok (some ('x', rest))
  | 'x', [] => .ok (some ('x', []))
  | 'x', _ =>
    let (ds, more) := takeDigits hexValue? 2 rest
    some <$> byteChar (ofDigits 16 ds) more
  | 'o', '\x7b' :: more => do
    match ← bracedCode octalValue? 8 11 more with
    | some r => .ok (some r)
    | none => .ok (some ('o', rest))
  | 'u', [] => .ok (some ('u', []))
  | 'u', _ =>
    let (ds, more) := takeDigits hexValue? 4 rest
    if ds.length < 4 then .error .badCodePoint
    else do
      let code ← codePoint (ofDigits 16 ds)
      .ok (some (code, more))
  | _, _ => .ok none

/-- How a repeat goes on. -/
inductive Eagerness where
  | greedy | lazy | possessive
  deriving DecidableEq

structure Count where
  least : Nat
  most : Option Nat
  eagerness : Eagerness

/-- The eagerness a `?` or `+` behind a repeat sets. -/
def eagerness (mayBeLazy mayBePossessive : Bool) (cs : List Char) : Eagerness × List Char :=
  match cs with
  | '?' :: rest => if mayBeLazy then (.lazy, rest) else (.greedy, cs)
  | '+' :: rest => if mayBePossessive then (.possessive, rest) else (.greedy, cs)
  | _ => (.greedy, cs)

def boundedCount (n : Option Nat) : Except PatternError (Option Nat) :=
  match n with
  | some n => if repeatLimit < n then .error .repeatTooBig else .ok (some n)
  | none => .ok none

/-- A repeat count in braces, from behind the opening one; `none` if this is none. Bounds in the
wrong order are exchanged and make the repeat possessive. -/
def braceCount (cs : List Char) : Except PatternError (Option (Count × List Char)) := do
  let (low, rest) := number cs
  let low ← boundedCount low
  match rest with
  | ',' :: rest =>
    let (high, rest) := number rest
    let high ← boundedCount high
    match low, high, rest with
    | none, none, _ => .ok none
    | low, high, '\x7d' :: rest =>
      let least := low.getD 0
      match high with
      | some h =>
        if h < least then
          .ok (some ({ least := h, most := some least, eagerness := .possessive }, rest))
        else
          let (e, rest) := eagerness true false rest
          .ok (some ({ least, most := some h, eagerness := e }, rest))
      | none =>
        let (e, rest) := eagerness true false rest
        .ok (some ({ least, most := none, eagerness := e }, rest))
    | _, _, _ => .ok none
  | '\x7d' :: rest =>
    match low with
    | some n => .ok (some ({ least := n, most := some n, eagerness := .greedy }, rest))
    | none => .ok none
  | _ => .ok none

end ScopeGrammar.Pattern
