import ScopeGrammar.Pattern.Engine

/-!
# ScopeGrammar.Notice

What the library reports on the side: problems that change its output and are no errors.

* `Notice` tells what happened, `Notice.message` says it, `Notice.level` how grave it is.
-/

namespace ScopeGrammar

inductive Notice where
  /-- A rule was left out of a grammar. -/
  | skippedRule (scopeName path : String) (refusal : Refusal)
  /-- A pattern that was only complete at run time is refused. -/
  | deadPattern (refusal : Refusal)
  /-- A state does not fit the registry it is used with. -/
  | inconsistentState (pos : Nat)
  | missingGrammar (scopeName target : String)
  | missingEntry (scopeName target entry : String)
  deriving DecidableEq, Repr

inductive NoticeLevel where
  | warning
  | detail
  deriving DecidableEq, Repr

namespace Notice

def level : Notice → NoticeLevel
  | skippedRule _ _ _ | deadPattern _ | inconsistentState _ => .warning
  | missingGrammar _ _ | missingEntry _ _ _ => .detail

def message : Notice → String
  | skippedRule scope path r => "[" ++ scope ++ "] skipping rule at " ++ path ++ ": " ++ r.message
  | deadPattern r => r.message ++ ", the pattern will never match"
  | inconsistentState pos =>
    "inconsistent tokenizer state at " ++ toString pos ++ ", the rest of the line is left unscoped"
  | missingGrammar scope target =>
    "[" ++ scope ++ "] grammar '" ++ target ++ "' is not in the registry, include ignored"
  | missingEntry scope target entry =>
    "[" ++ scope ++ "] '" ++ target ++ "#" ++ entry ++ "' does not exist, include ignored"

end Notice

end ScopeGrammar
