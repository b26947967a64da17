/-!
# ScopeGrammar.Text.Split

Cutting a list of characters at the ones that satisfy a test.
-/

namespace ScopeGrammar.Text

/-- The pieces between the characters that satisfy `p`: one more than there are of these. -/
def splitChars (p : Char → Bool) : List Char → List (List Char)
  | [] => [[]]
  | c :: rest =>
    match splitChars p rest with
    | [] => [[c]]
    | piece :: more => if p c then [] :: piece :: more else (c :: piece) :: more

/-- What is before and after the first `sep`, if there is one. -/
def splitFirst (sep : Char) : List Char → Option (List Char × List Char)
  | [] => none
  | c :: rest =>
    if c == sep then some ([], rest)
    else (splitFirst sep rest).map fun (before, after) => (c :: before, after)

end ScopeGrammar.Text
