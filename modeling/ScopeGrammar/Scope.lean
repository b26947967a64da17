import ScopeGrammar.Text.Blank
import ScopeGrammar.Text.Split

/-!
# ScopeGrammar.Scope

Scopes such as `string.quoted.double.json`: dotted, hierarchical labels of a piece of text.

* `Scope.ofString` trims, `Scope.parseMany` reads the scopes of a blank-separated list.
* `Scope.atoms` are the parts between dots, `Scope.isPrefixOf` compares along them.
* Scopes are ordered as plain strings.
-/

namespace ScopeGrammar

structure Scope where
  name : String
  deriving DecidableEq, Hashable, Inhabited

namespace Scope

/-- Surrounding blanks are no part of a scope. -/
def ofString (s : String) : Scope := ⟨Text.trim s⟩

/-- A rule's `name` may hold several scopes with blanks between them. -/
def parseMany (s : String) : List Scope := (Text.words s).map ofString

/-- The parts between dots, the empty ones left out. -/
def atoms (s : Scope) : List String :=
  ((Text.splitChars (· == '.') s.name.toList).filter (!·.isEmpty)).map String.ofList

/-- How many atoms a scope has. -/
def length (s : Scope) : Nat := s.atoms.length

def isEmpty (s : Scope) : Bool := s.name.isEmpty

/-- Takes the next of `theirs` for each of the other atoms, until one is different. -/
def takesAtoms : List String → List String → Bool
  | [], _ => true
  | atom :: more, theirs => theirs.head? == some atom && takesAtoms more theirs.tail

/-- Every atom of `s` is the atom of `t` at the same place. -/
def isPrefixOf (s t : Scope) : Bool := takesAtoms s.atoms t.atoms

/-- Strings compare by code point, which is also the order of their UTF-8 forms. -/
def le (s t : Scope) : Bool := !(t.name < s.name)

/-- The scopes in ascending order. -/
def sort (scopes : List Scope) : List Scope := scopes.mergeSort le

instance : ToString Scope := ⟨name⟩

/-- The text shown for inspection; the name is not escaped. -/
def inspect (s : Scope) : String := "Scope(\"" ++ s.name ++ "\")"

end Scope

end ScopeGrammar
