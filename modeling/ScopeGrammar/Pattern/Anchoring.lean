/-!
# ScopeGrammar.Pattern.Anchoring

`\A` is meant for the start of a document and `\G` for the place where the last span began, but a
line is searched by itself. Where one of them must not match it is replaced by a character that is
in no ordinary text.

* `Anchoring` tells which of the two may match.
* `Anchoring.rewrite` replaces the ones that may not.
-/

namespace ScopeGrammar

structure Anchoring where
  allowStart : Bool
  allowPlace : Bool
  deriving DecidableEq, Repr

namespace Anchoring

def all : Anchoring := ⟨true, true⟩

/-- The mode at a position: `\A` may match on the first line, `\G` where the anchor is. -/
def atPos (firstLine : Bool) (anchor : Option Nat) (pos : Nat) : Anchoring :=
  ⟨firstLine, anchor == some pos⟩

/-- The noncharacter U+FFFF. -/
def nowhere : Char := Char.ofNat 0xffff

/-- Whether the escape of this letter is to be replaced. -/
def blocks (mode : Anchoring) (c : Char) : Bool :=
  (c == 'A' && !mode.allowStart) || (c == 'G' && !mode.allowPlace)

/-- Rewrites what is behind the first `i` characters of a pattern. Nothing is written as long as
nothing is replaced; from the first anchor on that is, `out` is all that was read, rewritten. A
backslash and the character behind it belong together, so `\\A` is no anchor. -/
def rewriteFrom (mode : Anchoring) (source : List Char) (i : Nat) (out : Option String) :
    List Char → Option String
  | '\\' :: c :: rest =>
    if mode.blocks c then
      let written := out.getD (String.ofList (source.take i))
      mode.rewriteFrom source (i + 2) (some (written.push nowhere)) rest
    else mode.rewriteFrom source (i + 2) (out.map fun written => (written.push '\\').push c) rest
  | c :: rest => mode.rewriteFrom source (i + 1) (out.map fun written => written.push c) rest
  | [] => out

def rewrite (mode : Anchoring) (source : String) : String :=
  if mode.allowStart && mode.allowPlace then source
  else (mode.rewriteFrom source.toList 0 none source.toList).getD source

/-- Whether `\A` or `\G` is written anywhere, be it as an anchor or not. -/
def mentionsAnchor : List Char → Bool
  | '\\' :: c :: rest => c == 'A' || c == 'G' || mentionsAnchor (c :: rest)
  | _ :: rest => mentionsAnchor rest
  | [] => false

end Anchoring

end ScopeGrammar
