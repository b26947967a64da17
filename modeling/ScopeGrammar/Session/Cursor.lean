import ScopeGrammar.Pattern.Anchoring

/-!
# ScopeGrammar.Session.Cursor

How far a line is scanned, and where `\A` and `\G` may match.

* `Cursor.passSpan` moves behind the opening or the end of a span. Such a match may be empty once;
  an empty one right after an empty one moves on by a character all the same.
* `Cursor.passRule` moves behind the match of a rule, by a character at least.
* `Cursor.reanchor` goes back to the anchor from before a span was opened.
-/

namespace ScopeGrammar

structure Cursor where
  pos : Nat
  /-- Where `\G` matches. -/
  anchor : Option Nat
  /-- Nothing of the document lies before the cursor. -/
  firstLine : Bool
  /-- The last match was empty, so the next one has to move on. -/
  stuck : Bool
  /-- For each frame opened on this line its depth and the anchor from before, the innermost
  first. -/
  earlierAnchors : List (Nat × Option Nat)
  deriving DecidableEq, Repr, Inhabited

namespace Cursor

def startingAt (pos : Nat) (anchor : Option Nat) (firstLine : Bool) : Cursor :=
  { pos, anchor, firstLine, stuck := false, earlierAnchors := [] }

def anchors (c : Cursor) : Anchoring := .atPos c.firstLine c.anchor c.pos

/-- Goes to a later position. -/
def moveTo (c : Cursor) (pos : Nat) : Cursor :=
  { c with pos, stuck := false, firstLine := false }

def passSpan (c : Cursor) (stop : Nat) : Cursor :=
  if c.pos < stop then c.moveTo stop
  else if c.stuck then c.moveTo (c.pos + 1)
  else { c with stuck := true }

def passRule (c : Cursor) (stop : Nat) : Cursor :=
  if c.pos < stop then c.moveTo stop else c.moveTo (c.pos + 1)

/-- Moves behind the match that keeps a span open, which may be empty. -/
def passWhile (c : Cursor) (stop : Nat) : Cursor :=
  if c.pos < stop then { c with pos := stop, anchor := some stop, firstLine := false } else c

/-- A frame is opened at a depth; from now on `\G` matches where its opening ends. -/
def openFrame (c : Cursor) (depth stop : Nat) : Cursor :=
  { c with anchor := some stop, earlierAnchors := (depth, c.anchor) :: c.earlierAnchors }

/-- The frames from a depth on are closed. There is no anchor if the outermost of them was opened
on an earlier line. -/
def reanchor (c : Cursor) (depth : Nat) : Cursor :=
  let closed := c.earlierAnchors.takeWhile fun (d, _) => depth ≤ d
  { c with
    anchor := (closed.reverse.lookup depth).join
    earlierAnchors := c.earlierAnchors.dropWhile fun (d, _) => depth ≤ d }

end Cursor

end ScopeGrammar
