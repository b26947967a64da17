import ScopeGrammar.Text.Split

/-!
# ScopeGrammar.Text.Lines

A text is cut into lines at every `\n`, `\r\n` and lone `\r`. There is one line more than there
are terminators, and the empty text has none.
-/

namespace ScopeGrammar.Text

/-- Turns every `\r\n` into `\n`. -/
def joinPairs : List Char → List Char
  | [] => []
  | '\r' :: '\n' :: rest => '\n' :: joinPairs rest
  | c :: rest => c :: joinPairs rest

/-- Turns every `\r\n` and then every `\r` that is left into `\n`. -/
def normalizeChars (cs : List Char) : List Char :=
  (joinPairs cs).map fun c => if c == '\r' then '\n' else c

def lines (text : String) : List String :=
  if text.isEmpty then []
  else (splitChars (· == '\n') (normalizeChars text.toList)).map String.ofList

end ScopeGrammar.Text
