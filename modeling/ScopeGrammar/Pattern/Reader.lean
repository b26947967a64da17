import ScopeGrammar.Pattern.Brackets
import ScopeGrammar.Pattern.Caseless

/-!
# ScopeGrammar.Pattern.Reader

From the text of a pattern to its tree.

* `Token` is what stands at one place of a pattern, `token` reads the next one.
* `readAlternatives`, `readBranch` and `readGroup` are the grammar.
* `Outline.ofString` reads a whole pattern.
-/

namespace ScopeGrammar.Pattern

/-- What is known of the groups of a pattern while it is read. -/
structure Groups where
  /-- How many groups have begun. -/
  count : Nat
  /-- The groups of each name, in order. -/
  names : List (List Char × List Nat)
  /-- The groups called so far. Until all groups are known a call stands for its place here. -/
  calls : List GroupRef

namespace Groups

def numbers (g : Groups) (name : List Char) : List Nat := (g.names.lookup name).getD []

def addName (g : Groups) (name : List Char) (n : Nat) : Groups :=
  if (g.names.lookup name).isSome then
    { g with names := g.names.map fun (k, ns) => if k == name then (k, ns ++ [n]) else (k, ns) }
  else { g with names := g.names ++ [(name, [n])] }

/-- The number a relative one stands for. -/
def absolute (g : Groups) (n : Int) : Int :=
  if 0 < n then g.count + n else g.count + 1 + n

end Groups

/-- The node of a character that stands alone. -/
def Flags.charNode (flags : Flags) (c : Char) : Node :=
  if !flags.ignoreCase then .char c
  else if flags.behind then .caseless c
  else .caselessChar c

inductive Token where
  | ending
  | bar
  | opening
  | closing
  | openClass
  | count (c : Count)
  /-- A character written as itself. -/
  | char (c : Char)
  /-- A node that stands for itself, and whether it can be repeated. -/
  | node (n : Node) (repeatable : Bool)
  | call (ref : GroupRef)

abbrev TokenRead := Except PatternError (Token × List Char)

def setToken (s : CharSet) (rest : List Char) : TokenRead := .ok (.node (.set s) true, rest)

def anchorToken (a : Anchor) (rest : List Char) : TokenRead := .ok (.node (.anchor a) false, rest)

def charToken (c : Char) (rest : List Char) : TokenRead := .ok (.char c, rest)

/-- A character written as a code point. -/
def codeToken (flags : Flags) (c : Char) (rest : List Char) : TokenRead :=
  .ok (.node (flags.charNode c) true, rest)

def countToken (least : Nat) (most : Option Nat) (rest : List Char) : TokenRead :=
  let (e, rest) := eagerness true true rest
  .ok (.count { least, most, eagerness := e }, rest)

/-- A line end of any kind. -/
def generalNewline : Node :=
  .atomic (.alt (.cat (.char '\r') (.char '\n'))
    (.set (.union (.range 0x0a 0x0d) (.union (.single '\x85') (.range 0x2028 0x2029)))))

def markSet : CharSet := .table [Unicode.binary "Grapheme_Extend"]

/-- A character with the marks that belong to it. -/
def textSegment : Node :=
  .atomic (.alt (.cat (.char '\r') (.char '\n'))
    (.cat (.set .everything) (.rounds 0 none true (.set markSet))))

/-- The groups a back-reference may mean. -/
def backrefGroups (g : Groups) : GroupRef → Except PatternError (List Nat)
  | .absolute n => if n = 0 then .error .badBackreference else .ok [n]
  | .relative n =>
    let k := g.absolute n
    if k ≤ 0 then .error .badBackreference else .ok [k.toNat]
  | .named name =>
    match g.numbers name with
    | [] => .error (.undefinedName name)
    | ns => .ok ns.reverse

/-- A call by a relative number counts from where it stands. -/
def callGroup (g : Groups) : GroupRef → Except PatternError GroupRef
  | .relative n =>
    let k := g.absolute n
    if k ≤ 0 then .error (.undefinedGroup (toString n).toList) else .ok (.absolute k.toNat)
  | ref => .ok ref

/-- A number behind a backslash: a group if it is below ten or such a group has begun, otherwise a
character in octal. -/
def numberToken (flags : Flags) (g : Groups) (c : Char) (rest : List Char) : TokenRead :=
  let octal (most : Nat) (cs : List Char) : TokenRead := do
    let (ds, after) := takeDigits octalValue? most cs
    if 255 < ofDigits 8 ds then .error .numberTooBig
    else
      let (d, after) ← byteChar (ofDigits 8 ds) after
      .ok (.node (.char d) true, after)
  if c == '0' then octal 2 rest
  else
    match number (c :: rest) with
    | (some n, after) =>
      if n ≤ 1000 ∧ (n ≤ g.count ∨ n ≤ 9) then
        .ok (.node (.backref [n] flags.ignoreCase) true, after)
      else if c == '8' || c == '9' then charToken c rest
      else octal 3 (c :: rest)
    | (none, _) => charToken c rest

/-- The token of an escape, from behind the backslash. -/
def escapeToken (flags : Flags) (g : Groups) : List Char → TokenRead
  | [] => .error .endAtEscape
  | c :: rest =>
    match escapedKind? flags c with
    | some s => setToken s rest
    | none =>
      let ascii := flags.asciiWord || flags.asciiPosix
      match c, rest with
      | 'b', _ => anchorToken (.wordBoundary ascii) rest
      | 'B', _ => anchorToken (.notWordBoundary ascii) rest
      | 'A', _ => anchorToken .beginText rest
      | 'Z', _ => anchorToken .endTextOrNewline rest
      | 'z', _ => anchorToken .endText rest
      | 'G', _ => anchorToken .searchStart rest
      | 'y', _ => anchorToken .segmentBoundary rest
      | 'Y', _ => anchorToken .notSegmentBoundary rest
      | 'K', _ => .ok (.node .keep false, rest)
      | 'R', _ => .ok (.node generalNewline true, rest)
      | 'N', _ => setToken .notNewline rest
      | 'O', _ => setToken .everything rest
      | 'X', _ => .ok (.node textSegment true, rest)
      | 'p', '\x7b' :: more => do
        let (s, after) ← property false more
        setToken s after
      | 'P', '\x7b' :: more => do
        let (s, after) ← property true more
        setToken s after
      | 'k', '<' :: more => do
        let (ref, after) ← backrefName '>' more
        let ns ← backrefGroups g ref
        .ok (.node (.backref ns flags.ignoreCase) true, after)
      | 'k', '\'' :: more => do
        let (ref, after) ← backrefName '\'' more
        let ns ← backrefGroups g ref
        .ok (.node (.backref ns flags.ignoreCase) true, after)
      | 'g', '<' :: more => do
        let (ref, after) ← callName '>' more
        .ok (.call ref, after)
      | 'g', '\'' :: more => do
        let (ref, after) ← callName '\'' more
        .ok (.call ref, after)
      | _, _ =>
        if c.isDigit then numberToken flags g c rest
        else do
          match ← numericEscape c rest with
          | some (d, after) =>
            let byByte := c == 'x' && rest.head? != some '\x7b'
            codeToken { flags with ignoreCase := flags.ignoreCase && !byByte } d after
          | none =>
            let (d, after) ← escapedChar (rest.length + 1) (c :: rest)
            if d == c then charToken d after else codeToken flags d after

/-- The text behind a comment group. -/
def skipComment : List Char → Except PatternError (List Char)
  | [] => .error .endInGroup
  | '\\' :: _ :: rest => skipComment rest
  | c :: rest => if c == ')' then .ok rest else skipComment rest

def isLayout (c : Char) : Bool :=
  c == ' ' || c == '\t' || c == '\n' || c == '\r' || c == '\x0c'

/-- The text behind comments and, in the extended form, layout. -/
def skipIgnored (flags : Flags) : Nat → List Char → Except PatternError (List Char)
  | 0, cs => .ok cs
  | fuel + 1, cs =>
    match cs with
    | '(' :: '?' :: '#' :: rest => do
      let after ← skipComment rest
      skipIgnored flags fuel after
    | '#' :: rest =>
      if flags.extended then skipIgnored flags fuel ((rest.dropWhile (· != '\n')).drop 1)
      else .ok cs
    | c :: rest => if flags.extended && isLayout c then skipIgnored flags fuel rest else .ok cs
    | [] => .ok cs

/-- The next token. -/
def token (flags : Flags) (g : Groups) (cs : List Char) : TokenRead := do
  match ← skipIgnored flags cs.length cs with
  | [] => .ok (.ending, [])
  | c :: rest =>
    match c with
    | '\\' => escapeToken flags g rest
    | '.' => setToken (if flags.multiline then .everything else .notNewline) rest
    | '*' => countToken 0 none rest
    | '+' => countToken 1 none rest
    | '?' => countToken 0 (some 1) rest
    | '\x7b' =>
      match ← braceCount rest with
      | some (k, after) => .ok (.count k, after)
      | none => charToken c rest
    | '|' => .ok (.bar, rest)
    | '(' => .ok (.opening, rest)
    | ')' => .ok (.closing, rest)
    | '^' => anchorToken (if flags.singleline then .beginText else .beginLine) rest
    | '$' => anchorToken (if flags.singleline then .endTextOrNewline else .endLine) rest
    | '[' => .ok (.openClass, rest)
    | _ => charToken c rest

/-- A part of a pattern and whether it can be repeated. -/
structure Part where
  node : Node
  repeatable : Bool
  /-- The character, if the part is one written as itself that joins with its neighbours. -/
  joins : Option Char := none

/-- A part that can be repeated. -/
def Part.ofNode (node : Node) : Part := { node, repeatable := true }

def Part.nothing : Part := .ofNode .empty

def Part.ofChar (flags : Flags) (c : Char) : Part :=
  { node := flags.charNode c, repeatable := true
    joins := if flags.ignoreCase && !flags.behind then some c else none }

/-- The nodes of parts in a row. Characters that join make texts, `text` is the one before the
parts, its last character first. -/
def Part.joined (text : List Char) : List Part → List Node
  | [] => Node.caselessText text.reverse
  | p :: rest =>
    match p.joins with
    | some c => joined (c :: text) rest
    | none => Node.caselessText text.reverse ++ p.node :: joined [] rest

/-- The parts of one alternative in a row. -/
def Part.inRow : List Part → Part
  | [] => .nothing
  | [p] => p
  | p :: rest => .ofNode (.row (joined [] (p :: rest)))

/-- Alternatives can be repeated if each of them can. -/
def Part.anyOf : List Part → Part
  | [] => .nothing
  | [p] => p
  | p :: rest =>
    let q := Part.anyOf rest
    { node := .alt p.node q.node, repeatable := p.repeatable && q.repeatable }

/-- The part with a repeat count. -/
def Part.repeated (p : Part) (k : Count) : Except PatternError Part :=
  if !p.repeatable then .error .badRepeatTarget
  else if k.least = 1 ∧ k.most = some 1 then
    .ok p
  else
    let n := Node.repeated k.least k.most (k.eagerness != .lazy) p.node
    .ok (.ofNode (if k.eagerness = .possessive then .atomic n else n))

/-- What opens a group. -/
inductive Opening where
  | plain
  | capture (name : Option (List Char))
  | atomic
  | ahead (negative : Bool)
  | behind (negative : Bool)
  | absent
  | branch
  /-- Switches for the group, or for what is left of the group around it. -/
  | flags (flags : Flags) (ofGroup : Bool)

/-- The switches of a group, up to the colon or the closing parenthesis. -/
def readFlags : Bool → Flags → List Char → Except PatternError (Opening × List Char)
  | _, _, [] => .error .endInGroup
  | off, flags, c :: rest =>
    let on := !off
    match c with
    | ':' => .ok (.flags flags true, rest)
    | ')' => .ok (.flags flags false, rest)
    | '-' => readFlags true flags rest
    | 'x' => readFlags off { flags with extended := on } rest
    | 'i' => readFlags off { flags with ignoreCase := on } rest
    | 'm' => readFlags off { flags with multiline := on } rest
    | 'W' => readFlags off { flags with asciiWord := on } rest
    | 'D' => readFlags off { flags with asciiDigit := on } rest
    | 'S' => readFlags off { flags with asciiSpace := on } rest
    | 'P' => readFlags off { flags with asciiPosix := on } rest
    | _ => .error .badGroupOption

/-- What a group opens with, from behind its parenthesis. -/
def opening (flags : Flags) : List Char → Except PatternError (Opening × List Char)
  | [] => .error .unmatchedOpen
  | '?' :: rest =>
    match rest with
    | [] => .error .endInGroup
    | c :: more =>
      match c with
      | ':' => .ok (.plain, more)
      | '=' => .ok (.ahead false, more)
      | '!' => .ok (.ahead true, more)
      | '>' => .ok (.atomic, more)
      | '~' => .ok (.absent, more)
      | '(' => .ok (.branch, more)
      | '\'' => do
        let (name, after) ← groupName '\'' more
        .ok (.capture (some name), after)
      | '<' =>
        match more with
        | [] => .error .unmatchedOpen
        | '=' :: after => .ok (.behind false, after)
        | '!' :: after => .ok (.behind true, after)
        | _ => do
          let (name, after) ← groupName '>' more
          .ok (.capture (some name), after)
      | _ => readFlags false flags rest
  | '*' :: _ => .error .badCalloutName
  | cs => .ok (.capture none, cs)

/-- The condition of a conditional group, if it asks for a group: from behind its parenthesis. -/
def groupCondition (g : Groups) (cs : List Char) :
    Except PatternError (Option (List Nat × List Char)) :=
  let close (ns : List Nat) : List Char → Except PatternError (Option (List Nat × List Char))
    | ')' :: after => .ok (some (ns, after))
    | _ => .error .endInGroup
  match cs with
  | '<' :: more => do
    let (ref, after) ← backrefName '>' more
    let ns ← backrefGroups g ref
    close ns after
  | '\'' :: more => do
    let (ref, after) ← backrefName '\'' more
    let ns ← backrefGroups g ref
    close ns after
  | c :: _ =>
    if c.isDigit || c == '-' || c == '+' then
      match backrefName ')' cs with
      | .error _ => .ok none
      | .ok (ref, after) => do
        let ns ← backrefGroups g ref
        .ok (some (ns, after))
    else .ok none
  | [] => .error .endInGroup

/-- The two ways of a conditional group. -/
def Part.ways (p : Part) : Node × Node :=
  match p.node with
  | .alt yes no => (yes, no)
  | n => (n, .empty)

mutual

/-- Reads alternatives up to the closing parenthesis, or to the end where the pattern is not inside
a group. Each call uses up a token or turns to the next rule, so three times the length of the text
is fuel enough. -/
def readAlternatives : Nat → Flags → Bool → Groups → Token → List Char →
    Except PatternError (Part × Groups × List Char)
  | 0, _, _, _, _, _ => .error .unmatchedOpen
  | fuel + 1, flags, inside, g, tok, cs => do
    let (parts, g, last, cs) ← readBranch fuel flags inside g [] tok cs
    match last with
    | .bar =>
      let (tok, cs) ← token flags g cs
      let (more, g, cs) ← readAlternatives fuel flags inside g tok cs
      .ok (Part.anyOf [Part.inRow parts, more], g, cs)
    | .closing => .ok (Part.inRow parts, g, cs)
    | _ => if inside then .error .unmatchedOpen else .ok (Part.inRow parts, g, cs)

/-- Reads the parts of one alternative and the token that ends it. `before` holds the parts read so
far, the last one first. -/
def readBranch : Nat → Flags → Bool → Groups → List Part → Token → List Char →
    Except PatternError (List Part × Groups × Token × List Char)
  | 0, _, _, _, _, _, _ => .error .unmatchedOpen
  | fuel + 1, flags, inside, g, before, tok, cs => do
    match tok with
    | .ending => .ok (before.reverse, g, .ending, cs)
    | .bar => .ok (before.reverse, g, .bar, cs)
    | .closing =>
      if inside then .ok (before.reverse, g, .closing, cs) else .error .unmatchedClose
    | .count k =>
      match before with
      | [] => .error .nothingToRepeat
      | p :: earlier =>
        let p ← p.repeated k
        let (tok, cs) ← token flags g cs
        readBranch fuel flags inside g (p :: earlier) tok cs
    | .char c =>
      let (tok, cs) ← token flags g cs
      readBranch fuel flags inside g (.ofChar flags c :: before) tok cs
    | .node node repeatable =>
      let (tok, cs) ← token flags g cs
      readBranch fuel flags inside g ({ node, repeatable } :: before) tok cs
    | .call ref =>
      let ref ← callGroup g ref
      let g' := { g with calls := g.calls ++ [ref] }
      let (tok, cs) ← token flags g' cs
      readBranch fuel flags inside g' (.ofNode (.call g.calls.length) :: before) tok cs
    | .openClass =>
      let (s, cs) ← readClass flags (cs.length + 1) cs
      let node := if flags.ignoreCase then .caselessClass s else .set s
      let (tok, cs) ← token flags g cs
      readBranch fuel flags inside g (.ofNode node :: before) tok cs
    | .opening =>
      match ← opening flags cs with
      | (.flags inner false, cs) =>
        let (tok, cs) ← token inner g cs
        let (p, g, cs) ← readAlternatives fuel inner inside g tok cs
        .ok ((.ofNode p.node :: before).reverse, g, if inside then .closing else .ending, cs)
      | (.flags inner true, cs) =>
        let (tok, cs) ← token inner g cs
        let (p, g, cs) ← readAlternatives fuel inner true g tok cs
        let (tok, cs) ← token flags g cs
        readBranch fuel flags inside g (.ofNode p.node :: before) tok cs
      | (.branch, cs) =>
        let (p, g, cs) ← readConditional fuel flags g cs
        let (tok, cs) ← token flags g cs
        readBranch fuel flags inside g (p :: before) tok cs
      | (kind, cs) =>
        let number := g.count + 1
        let g := match kind with
          | .capture none => { g with count := number }
          | .capture (some name) => { g with count := number }.addName name number
          | _ => g
        let inner := match kind with
          | .behind _ => { flags with behind := true }
          | _ => flags
        let (tok, cs) ← token inner g cs
        let (p, g, cs) ← readAlternatives fuel inner true g tok cs
        let part : Part := match kind with
          | .capture _ => .ofNode (.group number p.node)
          | .atomic => .ofNode (.atomic p.node)
          | .ahead negative => { node := .ahead negative p.node, repeatable := false }
          | .behind negative =>
            let (least, most) := p.node.widths
            { node := .behind negative least most p.node, repeatable := false }
          | .absent => .ofNode (.absent p.node)
          | _ => { p with joins := none }
        let (tok, cs) ← token flags g cs
        readBranch fuel flags inside g (part :: before) tok cs

/-- Reads a conditional group from behind the parenthesis of its condition. -/
def readConditional : Nat → Flags → Groups → List Char →
    Except PatternError (Part × Groups × List Char)
  | 0, _, _, _ => .error .unmatchedOpen
  | fuel + 1, flags, g, cs => do
    let (condition, g, cs) ← match ← groupCondition g cs with
      | some (ns, cs) => .ok (Node.matched ns, g, cs)
      | none => do
        let (tok, cs) ← token flags g cs
        let (p, g, cs) ← readAlternatives fuel flags true g tok cs
        .ok (p.node, g, cs)
    match cs with
    | [] => .error .endInGroup
    | ')' :: rest => .ok (.ofNode condition, g, rest)
    | '|' :: rest =>
      let (tok, cs) ← token flags g rest
      let (p, g, cs) ← readAlternatives fuel flags true g tok cs
      .ok (.ofNode (.branch condition .empty p.node), g, cs)
    | _ =>
      let (tok, cs) ← token flags g cs
      let (p, g, cs) ← readAlternatives fuel flags true g tok cs
      let (yes, no) := p.ways
      .ok (.ofNode (.branch condition yes no), g, cs)

end

/-- A pattern as it was read, with the groups it has. -/
structure Outline where
  root : Node
  groups : Groups

def Outline.ofString (flags : Flags) (source : String) : Except PatternError Outline := do
  let cs := source.toList
  let g : Groups := { count := 0, names := [], calls := [] }
  let (tok, rest) ← token flags g cs
  let (p, g, _) ← readAlternatives (3 * cs.length + 3) flags false g tok rest
  .ok { root := p.node, groups := g }

end ScopeGrammar.Pattern
