import ScopeGrammar.Context
import ScopeGrammar.Grammar.Compile
import ScopeGrammar.Text.Quoted

/-!
# ScopeGrammar.Registry.Basic

A registry holds grammars by their scope name.

* `Registry.add` adds a grammar, or puts it in the place of the one with its scope name.
* `Registry.addText` and `Registry.addFile` read it first. One that is refused changes nothing.
* `Registry.id?` and `Registry.grammar?` find it again.
-/

namespace ScopeGrammar

structure Registry where
  grammars : Array Grammar
  ids : List (String × GrammarId)
  contexts : ContextStore
  deriving Inhabited

/-- Patterns of grammars are tried without options. -/
def Engine.validator {P : Type} (engine : Engine P) : Validator :=
  fun source => (engine.compile {} source).map fun _ => ()

namespace Registry

def empty : Registry := { grammars := #[], ids := [], contexts := .empty }

def id? (r : Registry) (scopeName : String) : Option GrammarId := r.ids.lookup scopeName

def grammar? (r : Registry) (id : GrammarId) : Option Grammar := r.grammars[id.index]?

/-- The rule of a span, if there is one of this number. -/
def span? (r : Registry) (rule : RuleRef) : Option SpanRule :=
  (r.grammar? rule.grammar).bind (·.span? rule.rule)

def contains (r : Registry) (scopeName : String) : Bool := (r.id? scopeName).isSome

/-- Adds a grammar. One with a scope name already known keeps the number of the grammar it
replaces. The contexts may hold rules of that one and are forgotten. -/
def add (r : Registry) (g : Grammar) : GrammarId × Registry :=
  match r.id? g.scopeName with
  | some id =>
    (id, { r with
      grammars := r.grammars.setIfInBounds id.index g
      contexts := r.contexts.clear })
  | none =>
    let id : GrammarId := ⟨r.grammars.size.toUInt16⟩
    (id,
     { grammars := r.grammars.push g
       ids := r.ids ++ [(g.scopeName, id)]
       contexts := r.contexts.clear })

/-- Adds a grammar unless it was refused. -/
def addResult (r : Registry) : Except Error Grammar → Except Error GrammarId × Registry
  | .ok g =>
    let (id, r) := r.add g
    (.ok id, r)
  | .error e => (.error e, r)

variable {P : Type} (engine : Engine P)

/-- Reads, compiles and adds a grammar; also tells what was noted. -/
def addText (r : Registry) (json : String) :
    (Except Error GrammarId × List Notice) × Registry :=
  let (result, notices) := Grammar.ofText engine.validator json
  let (answer, r) := r.addResult result
  ((answer, notices), r)

/-- Adds the grammar of a file with these contents, if there is one. -/
def addFile (r : Registry) (contents : Option (List UInt8)) :
    (Except Error GrammarId × List Notice) × Registry :=
  let (result, notices) := Grammar.ofFile engine.validator contents
  let (answer, r) := r.addResult result
  ((answer, notices), r)

/-- How many contexts are kept. -/
def contextCount (r : Registry) : Nat := r.contexts.size

def inspect (r : Registry) : String :=
  let names := ", ".intercalate (r.grammars.toList.map fun g => Text.quote g.scopeName)
  "Registry \x7b grammars: [" ++ names ++ "], contexts: " ++ r.contexts.inspect ++ " \x7d"

end Registry

end ScopeGrammar
