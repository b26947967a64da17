import ScopeGrammar.Json.Lexeme
import ScopeGrammar.Pattern.Engine

/-!
# ScopeGrammar.Error

What can go wrong with a grammar before it is used. Tokenizing never fails.

* `GrammarFault` are the ways a grammar can be ill-formed.
* `Error` are all errors, `Error.message` their wording.
-/

namespace ScopeGrammar

inductive GrammarFault where
  | noScopeName
  | repositoriesTooDeep
  | matchAndBegin
  | endAndWhile
  | endWithoutBegin
  | whileWithoutBegin
  | beginWithoutClose
  | badCaptureKey
  | unknownEntry (name : String)
  deriving DecidableEq, Repr

def GrammarFault.text : GrammarFault → String
  | noScopeName => "a grammar needs a scope name"
  | repositoriesTooDeep => "repositories are nested too deeply"
  | matchAndBegin => "a rule cannot have both `match` and `begin`"
  | endAndWhile => "a rule cannot have both `end` and `while`"
  | endWithoutBegin => "`end` without `begin`"
  | whileWithoutBegin => "`while` without `begin`"
  | beginWithoutClose => "`begin` without `end` or `while`"
  | badCaptureKey => "capture keys must be group numbers"
  | unknownEntry name => "include '#" ++ name ++ "' does not match any repository entry"

inductive Error where
  /-- The file cannot be read. -/
  | io
  | json (fault : Json.Fault)
  | pattern (refusal : Refusal)
  | grammar (path : String) (fault : GrammarFault)
  | grammarNotFound (scopeName : String)
  /-- A table with a place for every group number would be too large to be built. -/
  | captureTable (path : String)
  deriving DecidableEq, Repr

def Error.message : Error → String
  | io => "I/O error"
  | json .endOfText => "JSON parsing error: the text ends too early"
  | json .malformed => "JSON parsing error: the text is malformed"
  | json .mismatch => "JSON parsing error: a value is not of the kind expected"
  | pattern r => r.message
  | grammar path fault => "invalid grammar at '" ++ path ++ "': " ++ fault.text
  | grammarNotFound name => "grammar '" ++ name ++ "' not found"
  | captureTable path => "the capture table at '" ++ path ++ "' is too large"

end ScopeGrammar
