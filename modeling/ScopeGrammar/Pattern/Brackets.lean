import ScopeGrammar.Pattern.Lexeme

/-!
# ScopeGrammar.Pattern.Brackets

Character classes in brackets, such as `[a-z&&[^aeiou]]`.

* `ClassItem` is what a class is made of, `classItem` reads the next one.
* `readClass` reads a class from behind its opening bracket.
-/

namespace ScopeGrammar.Pattern

/-- Switches that hold for a part of a pattern. -/
structure Flags where
  ignoreCase : Bool := false
  /-- Inside a look-behind, where no letter stands for several. -/
  behind : Bool := false
  extended : Bool := false
  /-- A dot matches a newline too. -/
  multiline : Bool := false
  /-- Lines do not count: `^` and `$` stand for the ends of the text. -/
  singleline : Bool := false
  asciiWord : Bool := false
  asciiDigit : Bool := false
  asciiSpace : Bool := false
  asciiPosix : Bool := false

/-- The set an escape letter such as `w` names, negated for its capital. -/
def escapedKind? (flags : Flags) (c : Char) : Option CharSet :=
  let word := CharSet.asciiIf (flags.asciiWord || flags.asciiPosix) (.kind .word)
  let digit := CharSet.asciiIf (flags.asciiDigit || flags.asciiPosix) (.kind .digit)
  let space := CharSet.asciiIf (flags.asciiSpace || flags.asciiPosix) (.kind .space)
  match c with
  | 'w' => some word
  | 'W' => some (.complement word)
  | 'd' => some digit
  | 'D' => some (.complement digit)
  | 's' => some space
  | 'S' => some (.complement space)
  | 'h' => some (.kind .hexDigit)
  | 'H' => some (.complement (.kind .hexDigit))
  | _ => none

inductive ClassItem where
  | close
  | dash
  | both
  | nested
  | char (c : Char) (escaped : Bool)
  | set (s : CharSet)

/-- Whether `:]` comes before the next closing bracket. -/
def bracketNameEnds : List Char → Bool
  | [] => false
  | ':' :: ']' :: _ => true
  | '\\' :: _ :: rest => bracketNameEnds rest
  | c :: rest => if c == ']' then false else bracketNameEnds rest

/-- The name characters looked at before giving up on a bracket name. -/
def bracketNameLimit : Nat := 20

/-- A named set such as `[:alpha:]`, from behind `[:`; `none` if this is none. -/
def bracketName (flags : Flags) (cs : List Char) :
    Except PatternError (Option (CharSet × List Char)) :=
  let (neg, body) := match cs with
    | '^' :: rest => (true, rest)
    | _ => (false, cs)
  let names := ["alnum", "alpha", "blank", "cntrl", "digit", "graph", "lower", "print", "punct",
    "space", "upper", "xdigit", "ascii", "word"]
  let known := if body.length < 7 then none
    else names.find? fun name => name.toList.isPrefixOf body
  match known with
  | some name =>
    match body.drop name.length, Kind.ofName? name with
    | ':' :: ']' :: rest, some k =>
      .ok (some ((CharSet.asciiIf flags.asciiPosix (.kind k)).negateIf neg, rest))
    | _, _ => .error .badBracketName
  | none =>
    let name := body.takeWhile fun c => c != ':' && c != ']'
    if name.length ≤ bracketNameLimit then
      match body.drop name.length with
      | ':' :: ']' :: _ => .error .badBracketName
      | _ => .ok none
    else .ok none

/-- The next item of a class; `none` at the end of the pattern. -/
def classItem (flags : Flags) : List Char → Except PatternError (Option (ClassItem × List Char))
  | [] => .ok none
  | ']' :: rest => .ok (some (.close, rest))
  | '-' :: rest => .ok (some (.dash, rest))
  | '&' :: '&' :: rest => .ok (some (.both, rest))
  | '[' :: ':' :: rest =>
    if bracketNameEnds rest then do
      match ← bracketName flags rest with
      | some (s, after) => .ok (some (.set s, after))
      | none => .ok (some (.char '[' false, ':' :: rest))
    else .ok (some (.nested, ':' :: rest))
  | '[' :: rest => .ok (some (.nested, rest))
  | '\\' :: [] => .error .endAtEscape
  | '\\' :: c :: rest =>
    match escapedKind? flags c with
    | some s => .ok (some (.set s, rest))
    | none =>
      match c, rest with
      | 'p', '\x7b' :: more => do
        let (s, after) ← property false more
        .ok (some (.set s, after))
      | 'P', '\x7b' :: more => do
        let (s, after) ← property true more
        .ok (some (.set s, after))
      | _, _ => do
        match ← numericEscape c rest with
        | some (d, after) => .ok (some (.char d true, after))
        | none =>
          match takeDigits octalValue? 3 (c :: rest) with
          | ([], _) =>
            let (d, after) ← escapedChar (rest.length + 1) (c :: rest)
            .ok (some (.char d true, after))
          | (ds, after) =>
            if 255 < ofDigits 8 ds then .error .numberTooBig
            else
              let (d, after) ← byteChar (ofDigits 8 ds) after
              .ok (some (.char d true, after))
  | c :: rest => .ok (some (.char c false, rest))

/-- What reading a class is in the middle of. -/
inductive Place where
  | start
  /-- A character that may turn out to start a range. -/
  | value (c : Char)
  | afterSet
  /-- A range that lacks its end. -/
  | range (first : Char)
  | complete

structure Class where
  set : CharSet
  /-- What the class must be in besides, by `&&`. -/
  among : Option CharSet
  place : Place

namespace Class

def start : Class := { set := .nothing, among := none, place := .start }

def add (k : Class) (s : CharSet) : Class := { k with set := .union k.set s }

/-- A character that still waits becomes a member. -/
def flush (k : Class) : Class :=
  match k.place with
  | .value c => k.add (.single c)
  | _ => k

def putChar (k : Class) (c : Char) : Except PatternError Class :=
  match k.place with
  | .range first =>
    if c < first then .error .emptyRange
    else .ok { k.add (.range first.toNat c.toNat) with place := .complete }
  | _ => .ok { k.flush with place := .value c }

def putSet (k : Class) (s : CharSet) : Except PatternError Class :=
  match k.place with
  | .range _ => .error .setEndsRange
  | _ => .ok { k.flush.add s with place := .afterSet }

def putNested (k : Class) (s : CharSet) : Class :=
  { k.flush.add s with place := .complete }

/-- The set read so far, with what it must be in besides. -/
def whole (k : Class) : CharSet :=
  let k := k.flush
  match k.among with
  | some s => .inter s k.set
  | none => k.set

def both (k : Class) : Class := { set := .nothing, among := some k.whole, place := .start }

/-- A dash stands for itself unless a character is before it and the end of a range behind. -/
def putDash (k : Class) (rest : List Char) : Except PatternError Class :=
  match k.place, rest with
  | .value _, ']' :: _ => k.putChar '-'
  | .value _, '&' :: '&' :: _ => k.putChar '-'
  | .value c, _ => .ok { k with place := .range c }
  | _, _ => k.putChar '-'

end Class

mutual

/-- Reads a class from behind its opening bracket. A closing bracket that comes first is a member
if another one follows. Every call uses up a character, so the length of the text is fuel enough. -/
def readClass (flags : Flags) : Nat → List Char → Except PatternError (CharSet × List Char)
  | 0, _ => .error .openClass
  | fuel + 1, cs => do
    let (neg, cs) := match cs with
      | '^' :: rest => (true, rest)
      | _ => (false, cs)
    match cs with
    | ']' :: rest =>
      if rest.contains ']' then
        let k ← Class.start.putChar ']'
        readMembers flags fuel neg k rest
      else .error .emptyClass
    | _ => readMembers flags fuel neg Class.start cs

def readMembers (flags : Flags) :
    Nat → Bool → Class → List Char → Except PatternError (CharSet × List Char)
  | 0, _, _, _ => .error .openClass
  | fuel + 1, neg, k, cs => do
    match ← classItem flags cs with
    | none => .error .openClass
    | some (.close, rest) => .ok (k.whole.negateIf neg, rest)
    | some (.dash, rest) =>
      let k ← k.putDash rest
      readMembers flags fuel neg k rest
    | some (.both, rest) => readMembers flags fuel neg k.both rest
    | some (.nested, rest) =>
      let (s, rest) ← readClass flags fuel rest
      readMembers flags fuel neg (k.putNested s) rest
    | some (.char c _, rest) =>
      let k ← k.putChar c
      readMembers flags fuel neg k rest
    | some (.set s, rest) =>
      let k ← k.putSet s
      readMembers flags fuel neg k rest

end

end ScopeGrammar.Pattern
