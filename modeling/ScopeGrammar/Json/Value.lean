/-!
# ScopeGrammar.Json.Value

JSON values to be written.

* `JsonValue` is a value, `JsonValue.render` its text without blanks.
-/

namespace ScopeGrammar

inductive JsonValue where
  | bool (b : Bool)
  | natural (n : Nat)
  | text (s : String)
  | array (items : List JsonValue)
  | object (members : List (String × JsonValue))

namespace JsonValue

def hexDigit (n : Nat) : Char :=
  if n < 10 then Char.ofNat ('0'.toNat + n) else Char.ofNat ('a'.toNat + (n - 10))

/-- Quotes, backslashes and control characters are escaped, all else stands for itself. -/
def escapeChar (c : Char) : List Char :=
  if c == '"' then ['\\', '"']
  else if c == '\\' then ['\\', '\\']
  else if c == '\n' then ['\\', 'n']
  else if c == '\r' then ['\\', 'r']
  else if c == '\t' then ['\\', 't']
  else if c == '\x08' then ['\\', 'b']
  else if c == '\x0c' then ['\\', 'f']
  else if c < ' ' then
    ['\\', 'u', '0', '0', hexDigit (c.toNat / 16), hexDigit (c.toNat % 16)]
  else [c]

def renderText (s : String) : List Char :=
  '"' :: (s.toList.flatMap escapeChar ++ ['"'])

mutual

def renderChars : JsonValue → List Char
  | bool true => ['t', 'r', 'u', 'e']
  | bool false => ['f', 'a', 'l', 's', 'e']
  | natural n => Nat.toDigits 10 n
  | text s => renderText s
  | array items => '[' :: (renderItems true items ++ [']'])
  | object members => '\x7b' :: (renderMembers true members ++ ['\x7d'])

/-- The elements of an array; all but the first have a comma before them. -/
def renderItems : Bool → List JsonValue → List Char
  | _, [] => []
  | first, v :: rest =>
    (if first then [] else [',']) ++ renderChars v ++ renderItems false rest

def renderMembers : Bool → List (String × JsonValue) → List Char
  | _, [] => []
  | first, (key, v) :: rest =>
    (if first then [] else [',']) ++ renderText key ++ ':' :: renderChars v ++
      renderMembers false rest

end

def render (v : JsonValue) : String := String.ofList v.renderChars

end JsonValue

end ScopeGrammar
