import ScopeGrammar.Pattern.CharSet

/-!
# ScopeGrammar.Pattern.Node

Patterns as trees.

* `Node` is the tree, `Anchor` its tests of a position.
* `Node.widths` bounds how many characters a node matches.
* `Node.weight` and `Node.nesting` bound how far a match of a node can go on without moving.
-/

namespace ScopeGrammar.Pattern

inductive Anchor where
  | beginLine
  | endLine
  | beginText
  | endText
  /-- At the end, or before a newline that ends the text. -/
  | endTextOrNewline
  /-- Where the search began. -/
  | searchStart
  | wordBoundary (ascii : Bool)
  | notWordBoundary (ascii : Bool)
  | segmentBoundary
  | notSegmentBoundary
  deriving DecidableEq, Repr

inductive Node where
  | empty
  | char (c : Char)
  /-- A character that folds to this code point. -/
  | letter (folded : Nat)
  | set (s : CharSet)
  | anchor (a : Anchor)
  /-- The match starts here. -/
  | keep
  | cat (first second : Node)
  | alt (first second : Node)
  | group (number : Nat) (body : Node)
  /-- Only the first way to match the body counts. -/
  | atomic (body : Node)
  | ahead (negative : Bool) (body : Node)
  /-- The body ends here, from `least` to `most` characters back. -/
  | behind (negative : Bool) (least : Nat) (most : Option Nat) (body : Node)
  | rounds (least : Nat) (most : Option Nat) (greedy : Bool) (body : Node)
  /-- The text of the first of these groups that has one. -/
  | backref (groups : List Nat) (caseless : Bool)
  /-- One of these groups took part. -/
  | matched (groups : List Nat)
  | branch (condition yes no : Node)
  /-- Text in which the body matches nowhere. -/
  | absent (body : Node)
  /-- The body of a group, wherever it stands; `0` is the whole pattern. -/
  | call (number : Nat)

instance : Inhabited Node := ⟨.empty⟩

namespace Node

def addMost : Option Nat → Option Nat → Option Nat
  | some a, some b => some (a + b)
  | _, _ => none

def maxMost : Option Nat → Option Nat → Option Nat
  | some a, some b => some (max a b)
  | _, _ => none

/-- How many characters a match has at least and, where that is bounded, at most. -/
def widths : Node → Nat × Option Nat
  | empty | anchor _ | keep | ahead _ _ | behind _ _ _ _ | matched _ => (0, some 0)
  | char _ | letter _ | set _ => (1, some 1)
  | cat a b =>
    let (la, ma) := a.widths
    let (lb, mb) := b.widths
    (la + lb, addMost ma mb)
  | alt a b =>
    let (la, ma) := a.widths
    let (lb, mb) := b.widths
    (min la lb, maxMost ma mb)
  | group _ body | atomic body => body.widths
  | rounds least most _ body =>
    let (lb, mb) := body.widths
    (least * lb, match mb, most with
      | some 0, _ => some 0
      | some w, some m => some (m * w)
      | _, _ => none)
  | branch condition yes no =>
    let (lc, mc) := condition.widths
    let (ly, my) := yes.widths
    let (ln, mn) := no.widths
    (min (lc + ly) ln, maxMost (addMost mc my) mn)
  | backref _ _ | absent _ | call _ => (0, none)

/-- More than the steps a match takes between two characters it moves over. -/
def weight : Node → Nat
  | empty | char _ | letter _ | set _ | anchor _ | keep | backref _ _ | matched _ => 1
  | cat a b | alt a b => a.weight + b.weight + 1
  | group _ body | atomic body | ahead _ body | behind _ _ _ body | absent body => body.weight + 2
  | rounds least _ _ body => (least + 3) * (body.weight + 2)
  | branch condition yes no => condition.weight + yes.weight + no.weight + 2
  | call _ => 2

/-- How deeply matches inside a match are nested. -/
def nesting : Node → Nat
  | cat a b | alt a b => max a.nesting b.nesting
  | group _ body | rounds _ _ _ body => body.nesting
  | atomic body | ahead _ body | behind _ _ _ body | absent body => body.nesting + 1
  | branch condition yes no => max (condition.nesting + 1) (max yes.nesting no.nesting)
  | _ => 0

/-- Whether a node calls a group. -/
def calls : Node → Bool
  | cat a b | alt a b => a.calls || b.calls
  | group _ body | rounds _ _ _ body | atomic body | ahead _ body | behind _ _ _ body
  | absent body => body.calls
  | branch condition yes no => condition.calls || yes.calls || no.calls
  | call _ => true
  | _ => false

/-- A node that moves over exactly one character. -/
def isSingle : Node → Bool
  | char _ | letter _ | set _ => true
  | _ => false

/-- The six repeats with a sign of their own. -/
inductive Sign where
  | quest | star | plus | lazyQuest | lazyStar | lazyPlus
  deriving DecidableEq

def Sign.of? (least : Nat) (most : Option Nat) (greedy : Bool) : Option Sign :=
  match least, most, greedy with
  | 0, some 1, true => some .quest
  | 0, none, true => some .star
  | 1, none, true => some .plus
  | 0, some 1, false => some .lazyQuest
  | 0, none, false => some .lazyStar
  | 1, none, false => some .lazyPlus
  | _, _, _ => none

def ofSign (s : Sign) (body : Node) : Node :=
  match s with
  | .quest => rounds 0 (some 1) true body
  | .star => rounds 0 none true body
  | .plus => rounds 1 none true body
  | .lazyQuest => rounds 0 (some 1) false body
  | .lazyStar => rounds 0 none false body
  | .lazyPlus => rounds 1 none false body

/-- A repeat of a repeat as a single one that matches the same texts in the same order, for the
pairs that have one. -/
def nestedSigns (inner outer : Sign) (body : Node) : Option Node :=
  match inner, outer with
  | .quest, .quest => some (ofSign .quest body)
  | .quest, .star | .quest, .plus => some (ofSign .star body)
  | .quest, .lazyQuest => some (ofSign .lazyQuest body)
  | .quest, .lazyStar => some (ofSign .lazyStar body)
  | .star, .lazyQuest | .star, .lazyStar => some (ofSign .lazyQuest (ofSign .plus body))
  | .star, _ => some (ofSign .star body)
  | .plus, .quest | .plus, .star => some (ofSign .star body)
  | .plus, .plus | .plus, .lazyPlus => some (ofSign .plus body)
  | .plus, .lazyStar => some (ofSign .lazyQuest (ofSign .plus body))
  | .lazyQuest, .quest | .lazyQuest, .lazyQuest => some (ofSign .lazyQuest body)
  | .lazyQuest, _ => some (ofSign .lazyStar body)
  | .lazyStar, _ => some (ofSign .lazyStar body)
  | .lazyPlus, .lazyQuest | .lazyPlus, .lazyStar => some (ofSign .lazyStar body)
  | .lazyPlus, .lazyPlus => some (ofSign .lazyPlus body)
  | _, _ => none

/-- The repeat of a node. Repeats of repeats are joined where that is possible. -/
def repeated (least : Nat) (most : Option Nat) (greedy : Bool) (body : Node) : Node :=
  match body with
  | rounds innerLeast innerMost innerGreedy inner =>
    match Sign.of? innerLeast innerMost innerGreedy, Sign.of? least most greedy with
    | some i, some o => (nestedSigns i o inner).getD (rounds least most greedy body)
    | none, none =>
      if most = some least ∧ innerMost = some innerLeast then
        rounds (least * innerLeast) (some (least * innerLeast)) greedy inner
      else rounds least most greedy body
    | some i, none =>
      match most with
      | some m =>
        if (i = .star ∨ i = .plus) ∧ 1 < m ∧ greedy then
          rounds least (some (if least = 0 then 1 else least)) greedy body
        else rounds least most greedy body
      | none => rounds least most greedy body
    | none, some _ => rounds least most greedy body
  | _ => rounds least most greedy body

end Node

end ScopeGrammar.Pattern
