import ScopeGrammar.Registry.Basic

/-!
# ScopeGrammar.Registry.Gathering

The rules of a list, with every include replaced by the rules it stands for.

* `Registry.target` finds the list an include points to.
* `Registry.gather` collects rules depth first and from left to right. Each rule counts where it is
  met first, and a list is entered once, so includes that lead back to where they are written do
  no harm.

The rules inside a span are no part of its list.
-/

namespace ScopeGrammar

/-- What was met so far. -/
structure Gathering where
  visited : List (GrammarId × ListId)
  rules : List RuleRef
  notices : List Notice

namespace Gathering

def empty : Gathering := ⟨[], [], []⟩

def enter (g : Gathering) (place : GrammarId × ListId) : Gathering :=
  { g with visited := place :: g.visited }

def addRule (g : Gathering) (rule : RuleRef) : Gathering :=
  if g.rules.contains rule then g else { g with rules := g.rules ++ [rule] }

def note (g : Gathering) (notices : List Notice) : Gathering :=
  { g with notices := g.notices ++ notices }

end Gathering

namespace Registry

/-- The list an include in a grammar points to. An include that leads nowhere is noted if it names
another grammar. -/
def target (r : Registry) (base id : GrammarId) (grammar : Grammar) (i : Include) :
    Option (GrammarId × ListId) × List Notice :=
  match i.target with
  | .self => (some (id, grammar.root), [])
  | .base => ((r.grammar? base).map fun g => (base, g.root), [])
  | .entry name => ((grammar.visibleEntry? name i.repositories).map fun list => (id, list), [])
  | .foreign scopeName entry =>
    match r.id? scopeName with
    | none => (none, [.missingGrammar grammar.scopeName scopeName])
    | some other =>
      match r.grammar? other, entry with
      | none, _ => (none, [])
      | some g, none => (some (other, g.root), [])
      | some g, some name =>
        match g.ownEntry? name with
        | some list => (some (other, list), [])
        | none => (none, [.missingEntry grammar.scopeName scopeName name])

/-- Adds the rules of a list. Lists are entered at most so many levels deep, which is no limit when
there are no more lists than that. -/
def gatherList (r : Registry) (base : GrammarId) :
    Nat → GrammarId × ListId → Gathering → Gathering
  | 0, _, g => g
  | levels + 1, place, g =>
    if g.visited.contains place then g
    else
      match r.grammar? place.1 with
      | none => g.enter place
      | some grammar =>
        (grammar.list place.2).foldl
          (fun g item =>
            match item with
            | .rule id => g.addRule ⟨place.1, id⟩
            | .list inner => gatherList r base levels (place.1, inner) g
            | .linked i =>
              let (found, notices) := r.target base place.1 grammar i
              match found with
              | some other => gatherList r base levels other (g.note notices)
              | none => g.note notices)
          (g.enter place)

/-- How many lists there are in all grammars. -/
def listCount (r : Registry) : Nat := r.grammars.foldl (fun n g => n + g.lists.size) 0

/-- The rules of a list, with what was noted on the way. -/
def gather (r : Registry) (base : GrammarId) (place : GrammarId × ListId) :
    List RuleRef × List Notice :=
  let g := r.gatherList base (r.listCount + 1) place .empty
  (g.rules, g.notices)

end Registry

end ScopeGrammar
