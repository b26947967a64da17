import ScopeGrammar.Unicode.Binary
import ScopeGrammar.Unicode.Category

/-!
# ScopeGrammar.Text.Quoted

Text in double quotes for inspection: characters that would not show are written as escapes.
-/

namespace ScopeGrammar.Text

/-- Letters, marks, numbers, punctuation and symbols show. Controls, formats, separators, private and
unassigned code points do not. -/
def shownCategories : List Unicode.Ranges :=
  ["Lu", "Ll", "Lt", "Lm", "Lo", "Mn", "Mc", "Me", "Nd", "Nl", "No", "Pc", "Pd", "Ps", "Pe", "Pi",
   "Pf", "Po", "Sm", "Sc", "Sk", "So"].map Unicode.category

def graphemeExtend : Unicode.Ranges := Unicode.binary "Grapheme_Extend"

/-- Marks that join the character before them are escaped too. -/
def isShown (c : Char) : Bool :=
  if c.toNat < 127 then 32 ≤ c.toNat
  else !graphemeExtend.contains c.toNat && shownCategories.any (·.contains c.toNat)

def hexText (n : Nat) : List Char := Nat.toDigits 16 n

def quoteChar (c : Char) : List Char :=
  if c == '"' then ['\\', '"']
  else if c == '\\' then ['\\', '\\']
  else if c == '\n' then ['\\', 'n']
  else if c == '\r' then ['\\', 'r']
  else if c == '\t' then ['\\', 't']
  else if c.toNat == 0 then ['\\', '0']
  else if isShown c then [c]
  else ['\\', 'u', '\x7b'] ++ hexText c.toNat ++ ['\x7d']

def quote (s : String) : String :=
  String.ofList ('"' :: (s.toList.flatMap quoteChar ++ ['"']))

end ScopeGrammar.Text
