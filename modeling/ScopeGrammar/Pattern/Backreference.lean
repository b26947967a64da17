import ScopeGrammar.Text.Blank

/-!
# ScopeGrammar.Pattern.Backreference

The closing pattern of a span may refer to groups of its opening match by `\1` to `\9`. Before it is
used these are replaced by the text of the groups, spelled so that it matches literally.

A pattern is read one escape pair at a time: a backslash and the character behind it belong
together.

* `hasBackreferences` finds out whether there is anything to replace.
* `fillBackreferences` replaces.
-/

namespace ScopeGrammar.Pattern

/-- The group number of a digit from `1` to `9`. -/
def groupDigit? (c : Char) : Option Nat :=
  if '1' ≤ c ∧ c ≤ '9' then some (c.toNat - '0'.toNat) else none

def hasBackreferencesIn : List Char → Bool
  | '\\' :: c :: rest => (groupDigit? c).isSome || hasBackreferencesIn rest
  | _ :: rest => hasBackreferencesIn rest
  | [] => false

def hasBackreferences (source : String) : Bool := hasBackreferencesIn source.toList

/-- The characters that mean something in a pattern. -/
def metacharacters : List Char :=
  ['-', '\\', '\x7b', '\x7d', '*', '+', '?', '|', '^', '$', '.', ',', '[', ']', '(', ')', '#']

def needsEscape (c : Char) : Bool := metacharacters.contains c || Text.isBlank c

/-- The spelling of a text that matches it literally. -/
def escapeText (cs : List Char) : List Char :=
  cs.flatMap fun c => if needsEscape c then ['\\', c] else [c]

/-- The text of a group, the empty one for a group without any. -/
def groupText (groups : List (Option (List Char))) (n : Nat) : List Char :=
  ((groups[n]?).join).getD []

def fillBackreferencesIn (groups : List (Option (List Char))) : List Char → List Char
  | '\\' :: c :: rest =>
    match groupDigit? c with
    | some n => escapeText (groupText groups n) ++ fillBackreferencesIn groups rest
    | none => '\\' :: c :: fillBackreferencesIn groups rest
  | c :: rest => c :: fillBackreferencesIn groups rest
  | [] => []

def fillBackreferences (groups : List (Option (List Char))) (source : String) : String :=
  String.ofList (fillBackreferencesIn groups source.toList)

end ScopeGrammar.Pattern
