import ScopeGrammar.Text.Blank
import ScopeGrammar.Text.Split

/-!
# ScopeGrammar.Grammar.IncludeTarget

What an `include` points to.

* `$self` is the grammar the include is written in, `$base` the one tokenizing started with.
* `#name` is an entry of a repository around the include.
* `scope` and `scope#name` are another grammar and an entry of its own repository.
-/

namespace ScopeGrammar

inductive IncludeTarget where
  | self
  | base
  | entry (name : String)
  | foreign (scopeName : String) (entry : Option String)
  deriving DecidableEq, Repr

def IncludeTarget.ofString (s : String) : IncludeTarget :=
  let cs := Text.trimChars s.toList
  if cs == "$self".toList then .self
  else if cs == "$base".toList then .base
  else
    match Text.splitFirst '#' cs with
    | some ([], name) => .entry (String.ofList name)
    | some (scope, name) => .foreign (String.ofList scope) (some (String.ofList name))
    | none => .foreign (String.ofList cs) none

end ScopeGrammar
