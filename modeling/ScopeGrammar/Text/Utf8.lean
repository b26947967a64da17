/-!
# ScopeGrammar.Text.Utf8

A file is a sequence of bytes that need not be text. `decode` reads the characters it can and keeps
every byte that belongs to none as a stray.
-/

namespace ScopeGrammar.Text

/-- One item of a decoded byte sequence. -/
inductive Decoded where
  | char (c : Char)
  | stray (byte : UInt8)
  deriving DecidableEq

namespace Decoded

def ofString (s : String) : List Decoded := s.toList.map .char

/-- The six low bits of a continuation byte. -/
def tail? (b : UInt8) : Option Nat :=
  if 0x80 ≤ b ∧ b ≤ 0xbf then some (b.toNat - 0x80) else none

/-- The character of a code point that needs at least `least`; none for surrogates and numbers
that are out of range or could be written shorter. -/
def charFrom? (least n : Nat) : Option Char :=
  if least ≤ n ∧ (n < 0xd800 ∨ (0xdfff < n ∧ n < 0x110000)) then some (Char.ofNat n) else none

/-- The first character of a byte sequence and how many bytes it takes. -/
def first? : List UInt8 → Option (Char × Nat)
  | [] => none
  | a :: rest =>
    let n := a.toNat
    if n < 0x80 then some (Char.ofNat n, 1)
    else if 0xc0 ≤ n ∧ n < 0xe0 then
      match rest with
      | b :: _ => do
        let x ← tail? b
        let c ← charFrom? 0x80 ((n - 0xc0) * 64 + x)
        pure (c, 2)
      | [] => none
    else if 0xe0 ≤ n ∧ n < 0xf0 then
      match rest with
      | b :: b' :: _ => do
        let x ← tail? b
        let y ← tail? b'
        let c ← charFrom? 0x800 (((n - 0xe0) * 64 + x) * 64 + y)
        pure (c, 3)
      | _ => none
    else if 0xf0 ≤ n ∧ n < 0xf8 then
      match rest with
      | b :: b' :: b'' :: _ => do
        let x ← tail? b
        let y ← tail? b'
        let z ← tail? b''
        let c ← charFrom? 0x10000 ((((n - 0xf0) * 64 + x) * 64 + y) * 64 + z)
        pure (c, 4)
      | _ => none
    else none

/-- Reads on behind a character, `skip` of whose bytes are still to be passed over. -/
def decodeFrom : Nat → List UInt8 → List Decoded
  | _, [] => []
  | skip + 1, _ :: rest => decodeFrom skip rest
  | 0, a :: rest =>
    match first? (a :: rest) with
    | some (c, width) => .char c :: decodeFrom (width - 1) rest
    | none => .stray a :: decodeFrom 0 rest

def decode (bytes : List UInt8) : List Decoded := decodeFrom 0 bytes

end Decoded

end ScopeGrammar.Text
