/-!
# ScopeGrammar.Pattern.Error

Why a pattern is refused. `PatternError.message` is the only place with their wording.
-/

namespace ScopeGrammar

inductive PatternError where
  | endAtEscape
  | endAtControl
  | endAtMeta
  | endInGroup
  | unmatchedOpen
  | unmatchedClose
  | openClass
  | emptyClass
  | emptyRange
  | setEndsRange
  | badBracketName
  | badPropertyName (name : List Char)
  | nothingToRepeat
  | badRepeatTarget
  | repeatTooBig
  | emptyGroupName
  | badGroupName (name : List Char)
  | badGroupNameChar (name : List Char)
  | undefinedName (name : List Char)
  | undefinedGroup (name : List Char)
  | ambiguousCall (name : List Char)
  | badGroupOption
  | badBackreference
  | badLookBehind
  | badControlCode
  | badMetaCode
  | badCodePoint
  | codePointTooLong
  | numberTooBig
  | shortMultibyte
  | badCalloutName
  /-- The option is not available here. -/
  | badArgument
  deriving DecidableEq, Repr

namespace PatternError

/-- A name longer than this many bytes is cut off in a message. -/
def nameLimit : Nat := 30

/-- The characters of a name that fit in so many bytes. -/
def fitting : Nat → List Char → List Char
  | _, [] => []
  | room, c :: rest => if c.utf8Size ≤ room then c :: fitting (room - c.utf8Size) rest else []

def named (before : String) (name : List Char) (after : String) : String :=
  let shown :=
    if name.foldl (fun n c => n + c.utf8Size) 0 ≤ nameLimit then name
    else fitting nameLimit name ++ ['.', '.', '.']
  before ++ String.ofList shown ++ after

def text : PatternError → String
  | endAtEscape => "end pattern at escape"
  | endAtControl => "end pattern at control"
  | endAtMeta => "end pattern at meta"
  | endInGroup => "end pattern in group"
  | unmatchedOpen => "end pattern with unmatched parenthesis"
  | unmatchedClose => "unmatched close parenthesis"
  | openClass => "premature end of char-class"
  | emptyClass => "empty char-class"
  | emptyRange => "empty range in char class"
  | setEndsRange => "char-class value at end of range"
  | badBracketName => "invalid POSIX bracket type"
  | badPropertyName name => named "invalid character property name \x7b" name "\x7d"
  | nothingToRepeat => "target of repeat operator is not specified"
  | badRepeatTarget => "target of repeat operator is invalid"
  | repeatTooBig => "too big number for repeat range"
  | emptyGroupName => "group name is empty"
  | badGroupName name => named "invalid group name <" name ">"
  | badGroupNameChar name => named "invalid char in group name <" name ">"
  | undefinedName name => named "undefined name <" name "> reference"
  | undefinedGroup name => named "undefined group <" name "> reference"
  | ambiguousCall name => named "multiplex definition name <" name "> call"
  | badGroupOption => "undefined group option"
  | badBackreference => "invalid backref number/name"
  | badLookBehind => "invalid pattern in look-behind"
  | badControlCode => "invalid control-code syntax"
  | badMetaCode => "invalid meta-code syntax"
  | badCodePoint => "invalid code point value"
  | codePointTooLong => "too long wide-char value"
  | numberTooBig => "too big number"
  | shortMultibyte => "too short multibyte string"
  | badCalloutName => "invalid callout name"
  | badArgument => "invalid argument"

def message (e : PatternError) : String := "Oniguruma error: " ++ e.text

end PatternError

end ScopeGrammar
