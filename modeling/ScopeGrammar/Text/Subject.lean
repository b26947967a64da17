/-!
# ScopeGrammar.Text.Subject

Positions in a text count characters. `Subject` holds a text with its characters at hand and
translates positions to and from offsets into the UTF-8 form.

* `length`, `get?`, `slice` speak of characters; `slice` clamps both ends.
* `toByte` and `toChar` translate. A text of ASCII characters alone has no table: there characters
  and bytes are the same thing.
-/

namespace ScopeGrammar

/-- How many bytes the UTF-8 form of characters has. -/
def byteLength : List Char → Nat
  | [] => 0
  | c :: cs => c.utf8Size + byteLength cs

namespace Subject

def isAscii (c : Char) : Bool := c.toNat < 128

/-- The byte offset of each character when the first is at `start`, and of the end. -/
def offsetsFrom (start : Nat) : List Char → List Nat
  | [] => [start]
  | c :: rest => start :: offsetsFrom (start + c.utf8Size) rest

end Subject

structure Subject where
  chars : Array Char
  byteSize : Nat
  /-- The byte offset of each character and of the end; empty for a text of ASCII alone. -/
  boundaries : Array Nat
  byteSize_eq : byteSize = byteLength chars.toList
  boundaries_eq : boundaries = (Subject.offsetsFrom 0 chars.toList).toArray ∨
    boundaries = #[] ∧ chars.toList.all Subject.isAscii = true

namespace Subject

/-- A text with a table of its offsets, be it of ASCII alone or not. -/
def withTable (chars : Array Char) : Subject where
  chars
  byteSize := byteLength chars.toList
  boundaries := (offsetsFrom 0 chars.toList).toArray
  byteSize_eq := rfl
  boundaries_eq := .inl rfl

def ofChars (chars : Array Char) : Subject :=
  { withTable chars with
    boundaries := if chars.toList.all isAscii then #[] else (offsetsFrom 0 chars.toList).toArray
    boundaries_eq := by
      split
      · next hascii => exact .inr ⟨rfl, hascii⟩
      · exact .inl rfl }

@[simp] theorem chars_ofChars (chars : Array Char) : (ofChars chars).chars = chars := rfl

instance : Inhabited Subject := ⟨ofChars #[]⟩

def ofString (s : String) : Subject := ofChars s.toList.toArray

/-- A line as it is scanned: with a newline at its end. -/
def ofLine (line : String) : Subject := ofChars (line.toList.toArray.push '\n')

/-- How many characters there are. -/
def length (t : Subject) : Nat :=
  if t.boundaries.isEmpty then t.byteSize else t.boundaries.size - 1

def get? (t : Subject) (i : Nat) : Option Char := t.chars[i]?

/-- The byte offset of a character position, if it is not past the end. -/
def toByte (t : Subject) (i : Nat) : Option Nat :=
  if t.boundaries.isEmpty then if i ≤ t.byteSize then some i else none
  else t.boundaries[i]?

/-- Where a number is in an ascending table between two places, or where it would have to be put in,
by halving. -/
def placeIn (table : Array Nat) (b low high : Nat) (hhigh : high ≤ table.size) : Nat :=
  if hlow : low < high then
    let middle := (low + high) / 2
    have hmiddle : middle < table.size := by omega
    if table[middle] = b then middle
    else if table[middle] < b then placeIn table b (middle + 1) high hhigh
    else placeIn table b low middle (Nat.le_of_lt hmiddle)
  else low
termination_by high - low

/-- The character position of a byte offset; inside a character it is the next one's. -/
def toChar (t : Subject) (b : Nat) : Nat :=
  if t.boundaries.isEmpty then b else placeIn t.boundaries b 0 t.boundaries.size (Nat.le_refl _)

/-- The characters before a byte offset and those behind it. There are none if the offset is inside
a character or past the end. -/
def splitAtByte : Nat → List Char → Option (List Char × List Char)
  | 0, cs => some ([], cs)
  | _ + 1, [] => none
  | n + 1, c :: cs =>
    if c.utf8Size ≤ n + 1 then
      (splitAtByte (n + 1 - c.utf8Size) cs).map fun (before, behind) => (c :: before, behind)
    else none

/-- The characters from one byte offset to another. -/
def byteRange? (t : Subject) (start stop : Nat) : Option (List Char) :=
  if start ≤ stop then do
    let (_, behind) ← splitAtByte start t.chars.toList
    let (range, _) ← splitAtByte (stop - start) behind
    return range
  else none

/-- The characters from one position to another, both cut at the end of the text. -/
def sliceChars? (t : Subject) (start stop : Nat) : Option (List Char) :=
  let first := (t.toByte (min start t.length)).getD t.byteSize
  let last := (t.toByte (min stop t.length)).getD t.byteSize
  t.byteRange? first (max last first)

/-- There always are such characters, since no position is inside a character. -/
def sliceChars (t : Subject) (start stop : Nat) : List Char :=
  (t.sliceChars? start stop).getD []

def slice (t : Subject) (start stop : Nat) : String :=
  String.ofList (t.sliceChars start stop)

/-- The text up to a position, as a text of its own. -/
def take (t : Subject) (stop : Nat) : Subject := ofChars (t.sliceChars 0 stop).toArray

end Subject

end ScopeGrammar
