import ScopeGrammar.Pattern.Reader

/-!
# ScopeGrammar.Pattern.Check

What can only be judged when all groups of a pattern are known.

* `Node.resolveCalls` replaces the place of a call by the group called.
* `Node.check` refuses back-references to groups that do not exist and look-behinds that hold what
  they must not.
-/

namespace ScopeGrammar.Pattern

/-- The number of the group a call means. -/
def calledGroup (g : Groups) : GroupRef → Except PatternError Nat
  | .absolute n =>
    if n ≤ g.count then .ok n else .error (.undefinedGroup (toString n).toList)
  | .relative n => .error (.undefinedGroup (toString n).toList)
  | .named name =>
    match g.numbers name with
    | [] => .error (.undefinedName name)
    | [n] => .ok n
    | _ => .error (.ambiguousCall name)

namespace Node

def resolveCalls (numbers : List Nat) : Node → Node
  | cat a b => cat (a.resolveCalls numbers) (b.resolveCalls numbers)
  | alt a b => alt (a.resolveCalls numbers) (b.resolveCalls numbers)
  | group n body => group n (body.resolveCalls numbers)
  | atomic body => atomic (body.resolveCalls numbers)
  | ahead neg body => ahead neg (body.resolveCalls numbers)
  | behind neg least most body => behind neg least most (body.resolveCalls numbers)
  | rounds least most greedy body => rounds least most greedy (body.resolveCalls numbers)
  | branch c y n =>
    branch (c.resolveCalls numbers) (y.resolveCalls numbers) (n.resolveCalls numbers)
  | absent body => absent (body.resolveCalls numbers)
  | call place => call (numbers.getD place 0)
  | n => n

/-- What a look-behind may hold: no look-ahead and no end of the text, and no group that captures
if it is negative. -/
def fitsBehind (negative : Bool) : Node → Bool
  | cat a b | alt a b => a.fitsBehind negative && b.fitsBehind negative
  | group _ body => !negative && body.fitsBehind negative
  | atomic body | behind _ _ _ body | rounds _ _ _ body | absent body => body.fitsBehind negative
  | branch c y n => c.fitsBehind negative && y.fitsBehind negative && n.fitsBehind negative
  | ahead _ _ | anchor .endText | anchor .endTextOrNewline => false
  | _ => true

/-- The first problem of a tree, from left to right; `count` is the number of groups. -/
def check (count : Nat) : Node → Except PatternError Unit
  | cat a b | alt a b => do
    a.check count
    b.check count
  | group _ body | atomic body | ahead _ body | rounds _ _ _ body | absent body => body.check count
  | behind negative _ _ body =>
    if body.fitsBehind negative then body.check count else .error .badLookBehind
  | branch c y n => do
    c.check count
    y.check count
    n.check count
  | backref ns _ | matched ns =>
    if ns.all (· ≤ count) then .ok () else .error .badBackreference
  | _ => .ok ()

/-- The groups of a tree with their bodies. -/
def groupBodies : Node → List (Nat × Node)
  | cat a b | alt a b => a.groupBodies ++ b.groupBodies
  | group n body => (n, body) :: body.groupBodies
  | atomic body | ahead _ body | behind _ _ _ body | rounds _ _ _ body | absent body =>
    body.groupBodies
  | branch c y n => c.groupBodies ++ y.groupBodies ++ n.groupBodies
  | _ => []

end Node

end ScopeGrammar.Pattern
