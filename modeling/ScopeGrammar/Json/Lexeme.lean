import ScopeGrammar.Text.Utf8
import ScopeGrammar.Unicode.Ranges

/-!
# ScopeGrammar.Json.Lexeme

Strings and numbers of a JSON text. Each is read in two ways. A value that is *kept* has to be
usable: its escapes name characters, its bytes are text and its number is in range. A value that is
*skipped* only has to end where the grammar of JSON says.

* `Fault` tells the ways a text can be refused apart.
* `keepString`, `skipString` start behind the opening quote.
* `keepNumber`, `skipNumber` start at the first character of the number.
-/

namespace ScopeGrammar.Json

open Text (Decoded)

inductive Fault where
  /-- The text ends too early. -/
  | endOfText
  /-- The text is no JSON. -/
  | malformed
  /-- The value is not of the kind that is wanted. -/
  | mismatch
  deriving DecidableEq, Repr

def isSpace : Decoded → Bool
  | .char c => c == ' ' || c == '\n' || c == '\t' || c == '\r'
  | .stray _ => false

def skipSpaces (cs : List Decoded) : List Decoded := cs.dropWhile isSpace

def byteSize : Decoded → Nat
  | .char c => c.utf8Size
  | .stray _ => 1

def hexDigit? : Decoded → Option Nat
  | .char c => Unicode.hexValue? c
  | .stray _ => none

/-- The number of four hexadecimal digits. With fewer than four bytes left the text is too short,
whatever they are. -/
def hexQuad (cs : List Decoded) : Except Fault Nat :=
  let quad := cs.take 4
  match quad.mapM hexDigit? with
  | some [a, b, c, d] => .ok (((a * 16 + b) * 16 + c) * 16 + d)
  | _ => .error (if quad.foldl (fun n d => n + byteSize d) 0 < 4 then .endOfText else .malformed)

def isHighSurrogate (n : Nat) : Bool := 0xd800 ≤ n && n < 0xdc00

def isLowSurrogate (n : Nat) : Bool := 0xdc00 ≤ n && n < 0xe000

/-- The character of an escape made of a backslash and one more character. -/
def plainEscape? (c : Char) : Option Char :=
  match c with
  | '"' => some '"'
  | '\\' => some '\\'
  | '/' => some '/'
  | 'b' => some '\x08'
  | 'f' => some '\x0c'
  | 'n' => some '\n'
  | 'r' => some '\r'
  | 't' => some '\t'
  | _ => none

/-- The second half of a surrogate pair, which has to follow the first at once. -/
def lowHalf : List Decoded → Except Fault Nat
  | [] => .error .endOfText
  | .char '\\' :: [] => .error .endOfText
  | .char '\\' :: .char 'u' :: rest => do
    let low ← hexQuad rest
    if isLowSurrogate low then .ok low else .error .malformed
  | _ => .error .malformed

/-- The character of an escape and how many items it takes after the backslash. -/
def keepEscape : List Decoded → Except Fault (Char × Nat)
  | [] => .error .endOfText
  | .char 'u' :: rest => do
    let n ← hexQuad rest
    if isLowSurrogate n then .error .malformed
    else if isHighSurrogate n then
      let low ← lowHalf (rest.drop 4)
      .ok (Char.ofNat (0x10000 + (n - 0xd800) * 0x400 + (low - 0xdc00)), 11)
    else .ok (Char.ofNat n, 5)
  | .char c :: _ =>
    match plainEscape? c with
    | some e => .ok (e, 1)
    | none => .error .malformed
  | .stray _ :: _ => .error .malformed

/-- How many items an escape takes after the backslash; surrogates need no partner. -/
def skipEscape : List Decoded → Except Fault Nat
  | [] => .error .endOfText
  | .char 'u' :: rest => do
    let _ ← hexQuad rest
    .ok 5
  | .char c :: _ => if (plainEscape? c).isSome then .ok 1 else .error .malformed
  | .stray _ :: _ => .error .malformed

/-- The characters up to the closing quote and what follows it. `done` counts items an escape has
already used, `strays` tells of bytes that are no text, which are only found out at the end. -/
def keepStringFrom : Nat → Bool → List Decoded → Except Fault (List Char × List Decoded)
  | _, _, [] => .error .endOfText
  | done + 1, strays, _ :: rest => keepStringFrom done strays rest
  | 0, _, .stray _ :: rest => keepStringFrom 0 true rest
  | 0, strays, .char c :: rest =>
    if c == '"' then
      if strays then .error .malformed else .ok ([], rest)
    else if c == '\\' then do
      let (e, width) ← keepEscape rest
      let (cs, after) ← keepStringFrom width strays rest
      .ok (e :: cs, after)
    else if c < ' ' then .error .malformed
    else do
      let (cs, after) ← keepStringFrom 0 strays rest
      .ok (c :: cs, after)

def keepString (cs : List Decoded) : Except Fault (List Char × List Decoded) :=
  keepStringFrom 0 false cs

def skipStringFrom : Nat → List Decoded → Except Fault (List Decoded)
  | _, [] => .error .endOfText
  | done + 1, _ :: rest => skipStringFrom done rest
  | 0, .stray _ :: rest => skipStringFrom 0 rest
  | 0, .char c :: rest =>
    if c == '"' then .ok rest
    else if c == '\\' then do
      let width ← skipEscape rest
      skipStringFrom width rest
    else if c < ' ' then .error .malformed
    else skipStringFrom 0 rest

def skipString (cs : List Decoded) : Except Fault (List Decoded) := skipStringFrom 0 cs

/-- A number as far as this library tells them apart. -/
inductive Number where
  /-- A whole number below `2 ^ 64`. -/
  | natural (n : Nat)
  /-- The whole number `-n`, where `n` is from `1` to `2 ^ 63`. -/
  | negative (n : Nat)
  /-- Any other number. -/
  | real
  deriving DecidableEq, Repr

def digit? : Decoded → Option Nat
  | .char c => if '0' ≤ c ∧ c ≤ '9' then some (c.toNat - '0'.toNat) else none
  | .stray _ => none

/-- The digits at the front and what follows them. -/
def digits : List Decoded → List Nat × List Decoded
  | [] => ([], [])
  | c :: rest =>
    match digit? c with
    | some d =>
      let (ds, after) := digits rest
      (d :: ds, after)
    | none => ([], c :: rest)

def decimal (ds : List Nat) : Nat := ds.foldl (fun n d => n * 10 + d) 0

/-- The spelling of a number: `whole` and `fraction` hold its digits. -/
structure Numeral where
  minus : Bool
  whole : List Nat
  fraction : Option (List Nat)
  exponent : Option (Bool × List Nat)

/-- The digits before the point: a zero alone or a number that starts with none. `short` is the
fault of a text that ends where a digit is due. -/
def wholePart (short : Fault) (cs : List Decoded) : Except Fault (List Nat × List Decoded) :=
  match digits cs with
  | ([], []) => .error short
  | ([], _) => .error .malformed
  | (0 :: _ :: _, _) => .error .malformed
  | (ds, rest) => .ok (ds, rest)

def fractionPart (short : Fault) : List Decoded → Except Fault (Option (List Nat) × List Decoded)
  | .char '.' :: rest =>
    match digits rest with
    | ([], []) => .error short
    | ([], _) => .error .malformed
    | (ds, after) => .ok (some ds, after)
  | cs => .ok (none, cs)

def exponentPart (short : Fault) (cs : List Decoded) :
    Except Fault (Option (Bool × List Nat) × List Decoded) :=
  let body (minus : Bool) (rest : List Decoded) :=
    match digits rest with
    | ([], []) => .error short
    | ([], _) => .error .malformed
    | (ds, after) => .ok (some (minus, ds), after)
  let signed : List Decoded → Except Fault (Option (Bool × List Nat) × List Decoded)
    | .char '+' :: rest => body false rest
    | .char '-' :: rest => body true rest
    | rest => body false rest
  match cs with
  | .char 'e' :: rest => signed rest
  | .char 'E' :: rest => signed rest
  | _ => .ok (none, cs)

def numeral (short : Fault) (cs : List Decoded) : Except Fault (Numeral × List Decoded) := do
  let (minus, cs) := match cs with
    | .char '-' :: rest => (true, rest)
    | _ => (false, cs)
  let (whole, cs) ← wholePart short cs
  let (fraction, cs) ← fractionPart short cs
  let (exponent, cs) ← exponentPart short cs
  .ok ({ minus, whole, fraction, exponent }, cs)

/-- The least number that rounds to no finite number of double precision. -/
def realLimit : Nat := Nat.pow 2 1024 - Nat.pow 2 970

/-- Whether `m * 10 ^ e` stays below the limit of real numbers. The number of digits settles all
but the close cases, so no huge power is computed. -/
def inRange (m : Nat) (e : Int) : Bool :=
  let size : Int := (Nat.toDigits 10 m).length + e
  if m = 0 ∨ size ≤ 308 then true
  else if 310 ≤ size then false
  else match e with
    | .ofNat k => m * Nat.pow 10 k < realLimit
    | .negSucc k => m < realLimit * Nat.pow 10 (k + 1)

/-- The value of a numeral, unless it is out of range. -/
def Numeral.value (n : Numeral) : Except Fault Number :=
  match n.fraction, n.exponent with
  | none, none =>
    let m := decimal n.whole
    if n.minus then
      if 1 ≤ m ∧ m ≤ Nat.pow 2 63 then .ok (.negative m)
      else if inRange m 0 then .ok .real else .error .malformed
    else if m < Nat.pow 2 64 then .ok (.natural m)
    else if inRange m 0 then .ok .real else .error .malformed
  | fraction, exponent =>
    let ds := n.whole ++ fraction.getD []
    let scale : Int := match exponent with
      | none => 0
      | some (minus, ds) => if minus then -(decimal ds : Int) else decimal ds
    if inRange (decimal ds) (scale - (fraction.getD []).length) then .ok .real
    else .error .malformed

def keepNumber (cs : List Decoded) : Except Fault (Number × List Decoded) := do
  let (n, rest) ← numeral .endOfText cs
  let v ← n.value
  .ok (v, rest)

def skipNumber (cs : List Decoded) : Except Fault (List Decoded) := do
  let (_, rest) ← numeral .malformed cs
  .ok rest

end ScopeGrammar.Json
