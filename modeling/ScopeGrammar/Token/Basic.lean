import ScopeGrammar.Json.Decode
import ScopeGrammar.Json.Value
import ScopeGrammar.Scope

/-!
# ScopeGrammar.Token.Basic

A token is a piece of a line with its scopes, the outermost one first.

* `Token.toJson` writes a token, `Token.ofText` reads one.
-/

namespace ScopeGrammar

open Json (Reader RecordField field)

structure Token where
  start : Nat
  stop : Nat
  scopes : List Scope
  deriving DecidableEq, Inhabited

namespace Token

def toJson (t : Token) : JsonValue :=
  .object
    [("span", .object [("start", .natural t.start), ("end", .natural t.stop)]),
     ("scopes", .array (t.scopes.map fun s => .text s.name))]

def spanFields : List (RecordField (Nat × Nat)) :=
  [field "start" Json.natural fun v s => (v, s.2),
   field "end" Json.natural fun v s => (s.1, v)]

def scopeReader : Reader Scope := fun depth j => (Json.string depth j).map Scope.ofString

def fields : List (RecordField Token) :=
  [field "span" (Json.record spanFields true true (0, 0))
     fun v t => { t with start := v.1, stop := v.2 },
   field "scopes" (Json.list scopeReader) fun v t => { t with scopes := v }]

/-- Reads a token. All its fields have to be there, and its span has no others. -/
def ofText (json : String) : Except Json.Fault Token :=
  Json.readDocument (Json.record fields true false ⟨0, 0, []⟩) (Document.ofString json)

end Token

end ScopeGrammar
