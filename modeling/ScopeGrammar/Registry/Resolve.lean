import ScopeGrammar.Registry.Gathering

/-!
# ScopeGrammar.Registry.Resolve

From a situation to its context.

* `Registry.buildContext` lists the candidates of a situation.
* `Registry.resolve` does so only where the context is not known yet, and keeps it if the situation
  can come up again.
-/

namespace ScopeGrammar

namespace Registry

/-- The list that holds the rules of a situation. -/
def originList (r : Registry) : RuleOrigin → Option (GrammarId × ListId)
  | .root g => (r.grammar? g).map fun grammar => (g, grammar.root)
  | .span rule => (r.span? rule).map fun s => (rule.grammar, s.patterns)
  | .capture g id =>
    (((r.grammar? g).bind (·.capture? id)).bind (·.patterns)).map fun list => (g, list)

/-- The pattern that a rule begins with. -/
def openingSource (r : Registry) (rule : RuleRef) : Option String :=
  (r.grammar? rule.grammar).bind fun g =>
    (g.rule? rule.rule).map fun
      | .single m => g.pattern m.pattern
      | .span s => g.pattern s.opening

def ruleEntry (r : Registry) (rule : RuleRef) : Option (Candidate × String) :=
  (r.openingSource rule).map fun source => (.rule rule, source)

/-- The rules of a situation as candidates, with what was noted on the way. -/
def ruleEntries (r : Registry) (s : Situation) : List (Candidate × String) × List Notice :=
  match r.originList s.origin with
  | none => ([], [])
  | some place =>
    let (rules, notices) := r.gather s.base place
    (rules.filterMap r.ruleEntry, notices)

/-- All candidates: the own end, the rules, the own end if that is to come last, and the ends
around it. -/
def allEntries (s : Situation) (rules : List (Candidate × String)) : List (Candidate × String) :=
  let own := s.ownEnd.toList.map EndMark.candidate
  let outer := s.outerEnds.map EndMark.candidate
  if s.endLast then rules ++ own ++ outer else own ++ rules ++ outer

def buildContext (r : Registry) (s : Situation) (id : ContextId) : Context × List Notice :=
  let (rules, notices) := r.ruleEntries s
  (.ofEntries id (allEntries s rules), notices)

/-- The context under a new number. -/
def freshContext (r : Registry) (s : Situation) : (Context × List Notice) × Registry :=
  let (id, contexts) := r.contexts.takeId
  (r.buildContext s id, { r with contexts })

def resolve (r : Registry) (s : Situation) : (Context × List Notice) × Registry :=
  if s.isReusable then
    match r.contexts.get? s with
    | some context => ((context, []), r)
    | none =>
      let ((context, notices), r) := r.freshContext s
      ((context, notices), { r with contexts := r.contexts.insert s context })
  else r.freshContext s

end Registry

end ScopeGrammar
