import ScopeGrammar.Text.Blank
import ScopeGrammar.Unicode.Binary
import ScopeGrammar.Unicode.Category
import ScopeGrammar.Unicode.Fold
import ScopeGrammar.Unicode.Script

/-!
# ScopeGrammar.Pattern.CharSet

Sets of characters as a pattern writes them.

* `Kind` are the sets with a name: `\w`, `[:alpha:]` and the like.
* `CharSet` combines kinds, ranges and Unicode tables; `CharSet.contains` is membership.
* `property?` finds the set of a `\p{...}` name.
-/

namespace ScopeGrammar.Pattern

open Unicode (Ranges)

inductive Kind where
  | alnum | alpha | ascii | blank | control | digit | graph | hexDigit | lower | print | punct
  | space | upper | word
  deriving DecidableEq, Repr

def markTables : List Ranges := ["Mn", "Mc", "Me"].map Unicode.category
def punctTables : List Ranges :=
  ["Pc", "Pd", "Ps", "Pe", "Pi", "Pf", "Po"].map Unicode.category
def alphabeticTable : Ranges := Unicode.binary "Alphabetic"
def upperTable : Ranges := Unicode.binary "Uppercase"
def lowerTable : Ranges := Unicode.binary "Lowercase"
def digitTable : Ranges := Unicode.category "Nd"
def connectorTable : Ranges := Unicode.category "Pc"
def spaceSeparatorTable : Ranges := Unicode.category "Zs"

/-- The categories of all assigned characters but controls. -/
def assignedTables : List Ranges :=
  ["Lu", "Ll", "Lt", "Lm", "Lo", "Mn", "Mc", "Me", "Nd", "Nl", "No", "Pc", "Pd", "Ps", "Pe", "Pi",
   "Pf", "Po", "Sm", "Sc", "Sk", "So", "Zs", "Zl", "Zp", "Cf", "Co"].map Unicode.category

def inAny (tables : List Ranges) (c : Char) : Bool := tables.any (·.contains c.toNat)

namespace Kind

def isAsciiHex (c : Char) : Bool :=
  ('0' ≤ c && c ≤ '9') || ('a' ≤ c && c ≤ 'f') || ('A' ≤ c && c ≤ 'F')

/-- Membership for characters of ASCII. -/
def containsAscii (k : Kind) (c : Char) : Bool :=
  match k with
  | alnum => c.isAlphanum
  | alpha => c.isAlpha
  | ascii => true
  | blank => c == ' ' || c == '\t'
  | control => c.toNat < 32 || c.toNat == 127
  | digit => c.isDigit
  | graph => 32 < c.toNat && c.toNat < 127
  | hexDigit => isAsciiHex c
  | lower => c.isLower
  | print => 32 ≤ c.toNat && c.toNat < 127
  | punct => 32 < c.toNat && c.toNat < 127 && !c.isAlphanum
  | space => Text.isBlank c
  | upper => c.isUpper
  | word => c.isAlphanum || c == '_'

/-- Membership for the other characters. -/
def containsWide (k : Kind) (c : Char) : Bool :=
  match k with
  | alnum => alphabeticTable.contains c.toNat || digitTable.contains c.toNat
  | alpha => alphabeticTable.contains c.toNat
  | ascii => false
  | blank => spaceSeparatorTable.contains c.toNat
  | control => c.toNat < 0xa0
  | digit => digitTable.contains c.toNat
  | graph => !Text.isBlank c && inAny assignedTables c
  | hexDigit => false
  | lower => lowerTable.contains c.toNat
  | print => spaceSeparatorTable.contains c.toNat || (!Text.isBlank c && inAny assignedTables c)
  | punct => inAny punctTables c
  | space => Text.isBlank c
  | upper => upperTable.contains c.toNat
  | word =>
    alphabeticTable.contains c.toNat || digitTable.contains c.toNat || inAny markTables c ||
    connectorTable.contains c.toNat

def contains (k : Kind) (c : Char) : Bool :=
  if c.toNat < 128 then k.containsAscii c else k.containsWide c

/-- The kind of a bracket name such as `alpha` in `[:alpha:]`. -/
def ofName? (name : String) : Option Kind :=
  [("alnum", alnum), ("alpha", alpha), ("blank", blank), ("cntrl", control), ("digit", digit),
   ("graph", graph), ("lower", lower), ("print", print), ("punct", punct), ("space", space),
   ("upper", upper), ("xdigit", hexDigit), ("ascii", ascii), ("word", word)].lookup name

end Kind

inductive CharSet where
  | nothing
  | range (first last : Nat)
  | kind (k : Kind)
  | table (tables : List Ranges)
  | complement (s : CharSet)
  | union (s t : CharSet)
  | inter (s t : CharSet)
  /-- The characters that are the same letter as one of the set. -/
  | caseless (s : CharSet)

namespace CharSet

def contains : CharSet → Char → Bool
  | nothing, _ => false
  | range first last, c => first ≤ c.toNat && c.toNat ≤ last
  | kind k, c => k.contains c
  | table tables, c => inAny tables c
  | complement s, c => !s.contains c
  | union s t, c => s.contains c || t.contains c
  | inter s t, c => s.contains c && t.contains c
  | caseless s, c => s.contains c || (Unicode.variants c).any s.contains

def single (c : Char) : CharSet := range c.toNat c.toNat

/-- Every character. -/
def everything : CharSet := complement nothing

/-- Every character but a newline. -/
def notNewline : CharSet := complement (single '\n')

/-- The set, or what is not in it. -/
def negateIf (neg : Bool) (s : CharSet) : CharSet := if neg then complement s else s

/-- The ASCII part of a set. -/
def asciiIf (narrow : Bool) (s : CharSet) : CharSet := if narrow then inter (kind .ascii) s else s

end CharSet

/-- The long names of the general categories. -/
def categoryNames : List (String × List String) :=
  [("letter", ["Lu", "Ll", "Lt", "Lm", "Lo"]), ("l", ["Lu", "Ll", "Lt", "Lm", "Lo"]),
   ("casedletter", ["Lu", "Ll", "Lt"]), ("lc", ["Lu", "Ll", "Lt"]),
   ("uppercaseletter", ["Lu"]), ("lowercaseletter", ["Ll"]), ("titlecaseletter", ["Lt"]),
   ("modifierletter", ["Lm"]), ("otherletter", ["Lo"]),
   ("mark", ["Mn", "Mc", "Me"]), ("combiningmark", ["Mn", "Mc", "Me"]), ("m", ["Mn", "Mc", "Me"]),
   ("nonspacingmark", ["Mn"]), ("spacingmark", ["Mc"]), ("enclosingmark", ["Me"]),
   ("number", ["Nd", "Nl", "No"]), ("n", ["Nd", "Nl", "No"]),
   ("decimalnumber", ["Nd"]), ("letternumber", ["Nl"]), ("othernumber", ["No"]),
   ("punctuation", ["Pc", "Pd", "Ps", "Pe", "Pi", "Pf", "Po"]),
   ("p", ["Pc", "Pd", "Ps", "Pe", "Pi", "Pf", "Po"]),
   ("connectorpunctuation", ["Pc"]), ("dashpunctuation", ["Pd"]), ("openpunctuation", ["Ps"]),
   ("closepunctuation", ["Pe"]), ("initialpunctuation", ["Pi"]), ("finalpunctuation", ["Pf"]),
   ("otherpunctuation", ["Po"]),
   ("symbol", ["Sm", "Sc", "Sk", "So"]), ("s", ["Sm", "Sc", "Sk", "So"]),
   ("mathsymbol", ["Sm"]), ("currencysymbol", ["Sc"]), ("modifiersymbol", ["Sk"]),
   ("othersymbol", ["So"]),
   ("separator", ["Zs", "Zl", "Zp"]), ("z", ["Zs", "Zl", "Zp"]),
   ("spaceseparator", ["Zs"]), ("lineseparator", ["Zl"]), ("paragraphseparator", ["Zp"]),
   ("cc", ["Cc"]), ("format", ["Cf"]), ("privateuse", ["Co"])]

/-- Short names of scripts that are written often. -/
def scriptAliases : List (String × String) :=
  [("arab", "Arabic"), ("armn", "Armenian"), ("beng", "Bengali"), ("cyrl", "Cyrillic"),
   ("deva", "Devanagari"), ("ethi", "Ethiopic"), ("geor", "Georgian"), ("grek", "Greek"),
   ("hang", "Hangul"), ("hani", "Han"), ("hebr", "Hebrew"), ("hira", "Hiragana"),
   ("kana", "Katakana"), ("khmr", "Khmer"), ("laoo", "Lao"), ("latn", "Latin"),
   ("mong", "Mongolian"), ("mymr", "Myanmar"), ("taml", "Tamil"), ("telu", "Telugu"),
   ("thai", "Thai"), ("tibt", "Tibetan"), ("zyyy", "Common"), ("zinh", "Inherited")]

/-- Spaces, hyphens and underscores do not count in a property name, nor does case. -/
def plainName (name : List Char) : List Char :=
  (name.filter fun c => c != ' ' && c != '-' && c != '_').map Char.toLower

def findByName {α : Type} (name : String) (entries : List (String × α)) : Option α :=
  (entries.find? fun (key, _) => String.ofList (plainName key.toList) == name).map (·.2)

/-- The set of a property name, as the name stands between the braces. -/
def property? (name : List Char) : Option CharSet :=
  if name.any (128 ≤ ·.toNat) then none
  else
    let key := String.ofList (plainName name)
    let ofTables (r : Ranges) : CharSet := .table [r]
    ((Kind.ofName? key).map .kind)
    <|> ([("any", CharSet.everything),
          ("assigned", .union (.table assignedTables) (.kind .control)),
          ("unassigned", .complement (.union (.table assignedTables) (.kind .control))),
          ("cn", .complement (.union (.table assignedTables) (.kind .control))),
          ("control", .kind .control),
          ("other", .complement (.table (assignedTables.take 25))),
          ("c", .complement (.table (assignedTables.take 25)))]
          : List (String × CharSet)).lookup key
    <|> ((categoryNames.lookup key).map fun cs => .table (cs.map Unicode.category))
    <|> ((findByName key Unicode.categories).map ofTables)
    <|> ((findByName key Unicode.binaries).map ofTables)
    <|> ((findByName key Unicode.scripts).map ofTables)
    <|> ((scriptAliases.lookup key).bind fun s => (Unicode.scripts.lookup s).map ofTables)

end ScopeGrammar.Pattern
