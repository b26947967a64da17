import ScopeGrammar.Pattern.Check
import ScopeGrammar.Pattern.Match
import ScopeGrammar.Text.Subject

/-!
# ScopeGrammar.Pattern.Matcher

Backtracking over the tree of a pattern. What is left to match is a list of items; an item that can
be matched in several ways tries them in order, each with all that is left after it, and the first
way that gets to the end of the list wins.

* `Item` is what a match still has to do, `Progress` what it has found.
* `run` works off the items. Its fuel bounds how many items one way takes.
* `attempt` matches a whole program at one position.
-/

namespace ScopeGrammar.Pattern

/-- How far a match has come. -/
structure Progress where
  pos : Nat
  /-- The groups that have taken part, by number; the first place is not used. -/
  groups : Array (Option (Nat × Nat))
  /-- Where the match is said to start, if the pattern sets it. -/
  kept : Option Nat

inductive Item where
  | node (n : Node)
  /-- The end of a group that began at `start`. -/
  | close (number start : Nat)
  /-- The end of one round of a repeat that began at `start`. -/
  | again (least : Nat) (most : Option Nat) (greedy : Bool) (body : Node) (start : Nat)
  /-- The position has to be this one. -/
  | stopAt (pos : Nat)

/-- What a match looks at besides the items. -/
structure Setting where
  chars : Array Char
  /-- Where the search began. -/
  start : Nat
  /-- The bodies of the groups; the whole pattern has number `0`. -/
  bodies : Array Node

namespace Setting

def isWordAt (s : Setting) (ascii : Bool) (i : Nat) : Bool :=
  match s.chars[i]? with
  | some c => Kind.word.contains c && (!ascii || c.toNat < 128)
  | none => false

def wordBefore (s : Setting) (ascii : Bool) (pos : Nat) : Bool :=
  0 < pos && s.isWordAt ascii (pos - 1)

/-- Whether a position parts what belongs to one character. -/
def segmentAt (s : Setting) (pos : Nat) : Bool :=
  pos == 0 || pos == s.chars.size ||
  !((s.chars[pos - 1]? == some '\r' && s.chars[pos]? == some '\n') ||
    (s.chars[pos]?).any markSet.contains)

def holds (s : Setting) (a : Anchor) (pos : Nat) : Bool :=
  match a with
  | .beginLine =>
    pos == 0 || (s.chars[pos - 1]? == some '\n' && pos < s.chars.size)
  | .endLine => pos == s.chars.size || s.chars[pos]? == some '\n'
  | .beginText => pos == 0
  | .endText => pos == s.chars.size
  | .endTextOrNewline =>
    pos == s.chars.size || (pos + 1 == s.chars.size && s.chars[pos]? == some '\n')
  | .searchStart => pos == s.start
  | .wordBoundary ascii => s.wordBefore ascii pos != s.isWordAt ascii pos
  | .notWordBoundary ascii => s.wordBefore ascii pos == s.isWordAt ascii pos
  | .segmentBoundary => s.segmentAt pos
  | .notSegmentBoundary => !s.segmentAt pos

/-- Whether a node for one character matches at a position. -/
def singleAt (s : Setting) (n : Node) (pos : Nat) : Bool :=
  match s.chars[pos]? with
  | none => false
  | some c =>
    match n with
    | .char d => c == d
    | .letter folded => Unicode.fold c == folded
    | .set set => set.contains c
    | _ => false

/-- How many characters in a row a node for one character matches, at most so many. -/
def countSingles (s : Setting) (n : Node) : Nat → Nat → Nat
  | 0, _ => 0
  | room + 1, pos => if s.singleAt n pos then s.countSingles n room (pos + 1) + 1 else 0

/-- Whether the text at `pos` is the same as the one at `from`, for so many characters. -/
def sameText (s : Setting) (caseless : Bool) : Nat → Nat → Nat → Bool
  | 0, _, _ => true
  | width + 1, i, pos =>
    match s.chars[i]?, s.chars[pos]? with
    | some c, some d =>
      (if caseless then Unicode.sameLetter c d else c == d) &&
        s.sameText caseless width (i + 1) (pos + 1)
    | _, _ => false

/-- Where the text of the first of these groups that has one here ends. -/
def backrefEnd (s : Setting) (caseless : Bool) (p : Progress) : List Nat → Option Nat
  | [] => none
  | n :: rest =>
    match (p.groups[n]?).join with
    | none => s.backrefEnd caseless p rest
    | some (a, b) =>
      if s.sameText caseless (b - a) a p.pos then some (p.pos + (b - a))
      else s.backrefEnd caseless p rest

end Setting

/-- The first answer for one of `count` numbers from `low`, the greatest one first. -/
def firstDown {α : Type} (f : Nat → Option α) (low : Nat) : Nat → Option α
  | 0 => none
  | count + 1 =>
    match f (low + count) with
    | some a => some a
    | none => firstDown f low count

/-- The first answer for one of `count` numbers from `low`, the least one first. -/
def firstUp {α : Type} (f : Nat → Option α) (low : Nat) : Nat → Option α
  | 0 => none
  | count + 1 =>
    match f low with
    | some a => some a
    | none => firstUp f (low + 1) count

/-- Works off the items from where a match has come to. -/
def run (s : Setting) : Nat → List Item → Progress → Option Progress
  | _, [], p => some p
  | 0, _ :: _, _ => none
  | fuel + 1, item :: rest, p =>
    match item with
    | .stopAt pos => if p.pos == pos then run s fuel rest p else none
    | .close number start =>
      run s fuel rest { p with groups := p.groups.setIfInBounds number (some (start, p.pos)) }
    | .again least most greedy body start =>
      if p.pos == start then run s fuel rest p
      else run s fuel (.node (.rounds least most greedy body) :: rest) p
    | .node n =>
      match n with
      | .empty => run s fuel rest p
      | .char _ | .letter _ | .set _ =>
        if s.singleAt n p.pos then run s fuel rest { p with pos := p.pos + 1 } else none
      | .anchor a => if s.holds a p.pos then run s fuel rest p else none
      | .keep => run s fuel rest { p with kept := some p.pos }
      | .cat a b => run s fuel (.node a :: .node b :: rest) p
      | .alt a b =>
        match run s fuel (.node a :: rest) p with
        | some q => some q
        | none => run s fuel (.node b :: rest) p
      | .group number body => run s fuel (.node body :: .close number p.pos :: rest) p
      | .atomic body =>
        match run s fuel [.node body] p with
        | some q => run s fuel rest q
        | none => none
      | .ahead negative body =>
        match run s fuel [.node body] p with
        | some q => if negative then none else run s fuel rest { q with pos := p.pos }
        | none => if negative then run s fuel rest p else none
      | .behind negative least most body =>
        let from? (back : Nat) : Option Progress :=
          run s fuel [.node body, .stopAt p.pos] { p with pos := p.pos - back }
        let furthest := min p.pos (most.getD p.pos)
        let found := if furthest < least then none
          else firstUp from? least (furthest - least + 1)
        match found with
        | some q => if negative then none else run s fuel rest { q with pos := p.pos }
        | none => if negative then run s fuel rest p else none
      | .rounds least most greedy body =>
        if most == some 0 then run s fuel rest p
        else if body.isSingle then
          let room := s.chars.size - p.pos
          let most := min room (most.getD room)
          let after (k : Nat) : Option Progress := run s fuel rest { p with pos := p.pos + k }
          if greedy then
            let k := s.countSingles body most p.pos
            if k < least then none else firstDown after least (k - least + 1)
          else
            let k := s.countSingles body least p.pos
            if k < least then none
            else
              let more := s.countSingles body (most - least) (p.pos + least)
              firstUp after least (more + 1)
        else
          let round :=
            .node body :: .again (least - 1) (most.map (· - 1)) greedy body p.pos :: rest
          if 0 < least then run s fuel round p
          else if greedy then
            match run s fuel round p with
            | some q => some q
            | none => run s fuel rest p
          else
            match run s fuel rest p with
            | some q => some q
            | none => run s fuel round p
      | .backref ns caseless =>
        match s.backrefEnd caseless p ns with
        | some pos => run s fuel rest { p with pos }
        | none => none
      | .matched ns =>
        if ns.any fun n => ((p.groups[n]?).join).isSome then run s fuel rest p else none
      | .branch condition yes no =>
        match run s fuel [.node condition] p with
        | some q => run s fuel (.node yes :: rest) q
        | none => run s fuel (.node no :: rest) p
      | .absent body =>
        let hitEnding (stop : Nat) : Bool :=
          (firstUp (fun i => run s fuel [.node body, .stopAt stop] { p with pos := i })
            p.pos (stop - p.pos + 1)).isSome
        match firstUp (fun e => if hitEnding e then some e else none) p.pos
            (s.chars.size - p.pos + 1) with
        | some e =>
          if e ≤ p.pos then none
          else firstDown (fun k => run s fuel rest { p with pos := k }) p.pos (e - p.pos)
        | none =>
          firstDown (fun k => run s fuel rest { p with pos := k }) p.pos
            (s.chars.size - p.pos + 1)
      | .call number =>
        match s.bodies[number]? with
        | some body =>
          if number == 0 then run s fuel (.node body :: rest) p
          else run s fuel (.node (.group number body) :: rest) p
        | none => none

/-- A pattern made ready for matching. -/
structure Program where
  root : Node
  groupCount : Nat
  bodies : Array Node
  /-- Bounds of the fuel a match needs; see `Program.fuel`. -/
  weight : Nat
  nesting : Nat

namespace Program

def ofNode (root : Node) (groupCount : Nat) : Program :=
  let found := root.groupBodies
  let bodies := (List.range (groupCount + 1)).map fun n =>
    if n = 0 then root else (found.lookup n).getD .empty
  { root, groupCount, bodies := bodies.toArray
    weight := (root.weight + 2) * (if root.calls then groupCount + 2 else 1)
    nesting := root.nesting }

/-- Fuel enough for every way of matching a text of this length: between two characters a way takes
fewer steps than the weight of the pattern, and a match inside a match goes over the text again. -/
def fuel (p : Program) (length : Nat) : Nat := p.weight * Nat.pow (length + 2) (p.nesting + 1)

/-- Matches at one position of a text in which the search began at `start`. With `stop` the match
has to end there. -/
def attempt (p : Program) (t : Subject) (start pos : Nat) (stop : Option Nat) :
    Option Match :=
  let s : Setting := { chars := t.chars, start, bodies := p.bodies }
  let items : List Item := .node p.root :: (stop.map Item.stopAt).toList
  let first : Progress := { pos, groups := Array.replicate (p.groupCount + 1) none, kept := none }
  (run s (p.fuel t.length) items first).map fun q =>
    let start := min (q.kept.getD pos) q.pos
    { start, stop := q.pos, groups := some (start, q.pos) :: (q.groups.toList.drop 1) }

end Program

end ScopeGrammar.Pattern
