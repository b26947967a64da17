import Mathlib.Data.List.Basic
import ScopeGrammar.Proofs.Grammar.References
import ScopeGrammar.Session.Step

/-!
# ScopeGrammar.Proofs.Pattern.Filling

Text that is filled into a pattern stands for itself.

* `pieces` : a pattern one escape pair at a time.
* `Spells` : a spelling of a text in which every character means itself; `unescape` reads the text
  back.
* `Filled` : a pattern in which the references to groups are replaced by spellings of their texts,
  and nothing else is changed.
* `fillBackreferences_literal` : so is a pattern that was filled in, and there is nothing more to
  fill in then. The ending of a span is such a pattern (`closingSource_eq`).
-/

namespace ScopeGrammar.Pattern

/-! ## Escape pairs -/

inductive Piece where
  /-- A backslash with the character behind it. -/
  | pair (c : Char)
  /-- Any other character; a backslash only if nothing is behind it. -/
  | single (c : Char)
  deriving DecidableEq

namespace Piece

def char : Piece → Char
  | pair c | single c => c

def text : Piece → List Char
  | pair c => ['\\', c]
  | single c => [c]

/-- The group that a piece refers to. -/
def group? : Piece → Option Nat
  | pair c => if '1' ≤ c ∧ c ≤ '9' then some (c.toNat - '0'.toNat) else none
  | single _ => none

end Piece

def pieces : List Char → List Piece
  | '\\' :: c :: rest => .pair c :: pieces rest
  | c :: rest => .single c :: pieces rest
  | [] => []

/-- What is left without the backslashes of the pairs. -/
def unescape (cs : List Char) : List Char := (pieces cs).map Piece.char

theorem pieces_cons_of_ne {c : Char} (h : c ≠ '\\') (rest : List Char) :
    pieces (c :: rest) = .single c :: pieces rest := by
  rw [pieces]
  rintro d rest' rfl
  exact absurd rfl h

theorem flatMap_text_pieces (cs : List Char) : (pieces cs).flatMap Piece.text = cs := by
  fun_induction pieces cs with
  | case1 c rest ih => exact congrArg (['\\', c] ++ ·) ih
  | case2 c rest _ ih => exact congrArg (c :: ·) ih
  | case3 => rfl

theorem hasBackreferencesIn_eq (cs : List Char) :
    hasBackreferencesIn cs = (pieces cs).any fun p => p.group?.isSome := by
  fun_induction pieces cs with
  | case1 c rest ih =>
    rw [hasBackreferencesIn, ih]
    rfl
  | case2 c rest hne ih =>
    rw [hasBackreferencesIn, ih]
    · rfl
    · exact hne
  | case3 => rfl

variable {groups : List (Option (List Char))}

/-- What a piece becomes. -/
def Piece.fill (groups : List (Option (List Char))) (p : Piece) : List Char :=
  match p.group? with
  | some n => escapeText (groupText groups n)
  | none => p.text

theorem fillBackreferencesIn_eq (cs : List Char) :
    fillBackreferencesIn groups cs = (pieces cs).flatMap (Piece.fill groups) := by
  fun_induction pieces cs with
  | case1 c rest ih =>
    rw [fillBackreferencesIn, ih, List.flatMap_cons, Piece.fill]
    change (match (Piece.pair c).group? with | some n => _ | none => _) = _
    cases (Piece.pair c).group? <;> rfl
  | case2 c rest hne ih =>
    rw [fillBackreferencesIn, ih]
    · rfl
    · exact hne
  | case3 => rfl

/-- A pattern that refers to no group stays as it is. -/
theorem fillBackreferencesIn_eq_self {cs : List Char} (h : hasBackreferencesIn cs = false) :
    fillBackreferencesIn groups cs = cs := by
  rw [hasBackreferencesIn_eq, List.any_eq_false] at h
  calc fillBackreferencesIn groups cs
      = (pieces cs).flatMap (Piece.fill groups) := fillBackreferencesIn_eq cs
    _ = (pieces cs).flatMap Piece.text := by
        refine List.flatMap_congr fun p hp => ?_
        rw [Piece.fill, Option.not_isSome_iff_eq_none.1 (h p hp)]
    _ = cs := flatMap_text_pieces cs

/-! ## Letters and digits -/

theorem isAlphanum_iff (c : Char) :
    c.isAlphanum = true ↔ (65 ≤ c.toNat ∧ c.toNat ≤ 90 ∨ 97 ≤ c.toNat ∧ c.toNat ≤ 122) ∨
      48 ≤ c.toNat ∧ c.toNat ≤ 57 := by
  show ((decide (65 ≤ c.val ∧ c.val ≤ 90) || (decide (97 ≤ c.val) && decide (c.val ≤ 122))) ||
    (decide (48 ≤ c.val) && decide (c.val ≤ 57))) = true ↔ _
  simp only [Bool.or_eq_true, Bool.and_eq_true, decide_eq_true_eq, UInt32.le_iff_toNat_le]
  rfl

/-- The character means itself in a pattern, wherever it stands: it is none of those that patterns
are made with, no hyphen, comma or hash, and it is not blank. -/
structure MeansItself (c : Char) : Prop where
  not_meta : c ∉ ['\\', '\x7b', '\x7d', '*', '+', '?', '|', '^', '$', '.', '[', ']', '(', ')',
    '-', ',', '#']
  not_blank : Text.isBlank c = false

theorem needsEscape_eq_false_iff {c : Char} : needsEscape c = false ↔ MeansItself c := by
  have hperm : metacharacters.Perm ['\\', '\x7b', '\x7d', '*', '+', '?', '|', '^', '$', '.', '[',
      ']', '(', ')', '-', ',', '#'] := by decide
  rw [needsEscape, Bool.or_eq_false_iff, ← Bool.not_eq_true, List.contains_iff_mem, hperm.mem_iff]
  exact ⟨fun h => ⟨h.1, h.2⟩, fun h => ⟨h.1, h.2⟩⟩

theorem not_isAlphanum_of_needsEscape {c : Char} (h : needsEscape c = true) :
    c.isAlphanum = false := by
  rw [needsEscape, Bool.or_eq_true, List.contains_iff_mem] at h
  obtain hmeta | hblank := h
  · have hall : metacharacters.all (!·.isAlphanum) = true := by decide
    simpa using List.all_eq_true.1 hall c hmeta
  · rw [Bool.eq_false_iff, ne_eq, isAlphanum_iff]
    simp only [Text.isBlank, Bool.or_eq_true, Bool.and_eq_true, decide_eq_true_eq,
      beq_iff_eq] at hblank
    omega

theorem groupDigit?_of_not_isAlphanum {c : Char} (h : c.isAlphanum = false) :
    groupDigit? c = none := by
  refine if_neg fun ⟨hlow, hhigh⟩ => ?_
  rw [Bool.eq_false_iff, ne_eq, isAlphanum_iff] at h
  have hlow : 49 ≤ c.toNat := hlow
  have hhigh : c.toNat ≤ 57 := hhigh
  omega

/-! ## Spellings -/

/-- The second text is the first one with a backslash before every character that would mean
something else without it. No letter or digit has one, since that would mean something else
with it. -/
inductive Spells : List Char → List Char → Prop
  | nil : Spells [] []
  | plain {c : Char} {text spelling : List Char} : MeansItself c → Spells text spelling →
      Spells (c :: text) (c :: spelling)
  | escaped {c : Char} {text spelling : List Char} : ¬ MeansItself c → c.isAlphanum = false →
      Spells text spelling → Spells (c :: text) ('\\' :: c :: spelling)

theorem escapeText_cons (c : Char) (text : List Char) :
    escapeText (c :: text) =
      if needsEscape c then '\\' :: c :: escapeText text else c :: escapeText text := by
  rw [escapeText, List.flatMap_cons, ← escapeText]
  split <;> rfl

theorem escapeText_spells (text : List Char) : Spells text (escapeText text) := by
  induction text with
  | nil => exact .nil
  | cons c text ih =>
    rw [escapeText_cons]
    split
    · next hescape =>
      refine .escaped ?_ (not_isAlphanum_of_needsEscape hescape) ih
      rw [← needsEscape_eq_false_iff, hescape]
      exact Bool.noConfusion
    · next hescape => exact .plain (needsEscape_eq_false_iff.1 (eq_false_of_ne_true hescape)) ih

namespace Spells

variable {text spelling : List Char}

theorem ne_backslash {c : Char} (h : MeansItself c) : c ≠ '\\' := by
  rintro rfl
  exact h.not_meta (.head _)

theorem unescape_eq (h : Spells text spelling) : unescape spelling = text := by
  induction h with
  | nil => rfl
  | plain hc _ ih =>
    rw [unescape, pieces_cons_of_ne (ne_backslash hc)]
    exact congrArg _ ih
  | escaped _ _ _ ih => exact congrArg _ ih

/-- A spelling refers to no group and does not change how what follows it is read. -/
theorem hasBackreferencesIn_append (h : Spells text spelling) (rest : List Char) :
    hasBackreferencesIn (spelling ++ rest) = hasBackreferencesIn rest := by
  induction h with
  | nil => rfl
  | plain hc _ ih =>
    rw [List.cons_append, hasBackreferencesIn, ih]
    rintro d rest' rfl
    exact absurd rfl (ne_backslash hc)
  | escaped _ halnum _ ih =>
    rw [List.cons_append, List.cons_append, hasBackreferencesIn,
      groupDigit?_of_not_isAlphanum halnum, ih]
    rfl

end Spells

/-- Nothing is left to be filled in. -/
theorem hasBackreferencesIn_fillBackreferencesIn (cs : List Char) :
    hasBackreferencesIn (fillBackreferencesIn groups cs) = false := by
  fun_induction fillBackreferencesIn groups cs with
  | case1 c rest n _ ih => rw [(escapeText_spells _).hasBackreferencesIn_append, ih]
  | case2 c rest hnone ih =>
    rw [hasBackreferencesIn, hnone, ih]
    rfl
  | case3 c rest hne ih =>
    by_cases hc : c = '\\'
    · -- a backslash that makes no pair is the last character, so nothing was read behind it
      subst hc
      cases rest with
      | nil => rfl
      | cons d rest => exact absurd rfl (hne d rest rfl)
    · rw [hasBackreferencesIn, ih]
      rintro d rest' rfl
      exact absurd rfl hc
  | case4 => rfl

/-! ## Filled patterns -/

/-- The pieces of a pattern with the texts of groups filled in. -/
inductive Filled (groups : List (Option (List Char))) : List Piece → List Char → Prop
  | nil : Filled groups [] []
  | text {p : Piece} {n : Nat} {text spelling : List Char} {rest : List Piece} {out : List Char} :
      p.group? = some n → groups[n]? = some (some text) → Spells text spelling →
      Filled groups rest out → Filled groups (p :: rest) (spelling ++ out)
  /-- There is no such group, or it took no part in the match. -/
  | missing {p : Piece} {n : Nat} {rest : List Piece} {out : List Char} :
      p.group? = some n → (groups[n]?).join = none → Filled groups rest out →
      Filled groups (p :: rest) out
  | other {p : Piece} {rest : List Piece} {out : List Char} : p.group? = none →
      Filled groups rest out → Filled groups (p :: rest) (p.text ++ out)

theorem filled_flatMap_fill (ps : List Piece) :
    Filled groups ps (ps.flatMap (Piece.fill groups)) := by
  induction ps with
  | nil => exact .nil
  | cons p rest ih =>
    rw [List.flatMap_cons, Piece.fill]
    cases hgroup : p.group? with
    | none => exact .other hgroup ih
    | some n =>
      dsimp only
      rw [groupText]
      cases htext : groups[n]? with
      | none => exact .missing hgroup (by rw [htext]; rfl) ih
      | some taken =>
        cases taken with
        | none => exact .missing hgroup (by rw [htext]; rfl) ih
        | some text => exact .text hgroup htext (escapeText_spells text) ih

theorem fillBackreferences_eq_self {source : String} (h : hasBackreferences source = false)
    (groups : List (Option (List Char))) : fillBackreferences groups source = source := by
  rw [fillBackreferences, fillBackreferencesIn_eq_self h, String.ofList_toList]

/-- The ending of a compiled span is filled in with the texts of the groups; where it is used as it
is written, that makes no difference. -/
theorem closingSource_eq {validate : Validator} {grammar : Grammar} {span : SpanRule}
    (h : (Rule.span span).Compiles validate grammar) (text : Subject) (m : Match) :
    closingSource grammar span text m =
      fillBackreferences
        (m.groups.map fun g => g.map fun (start, stop) => text.sliceChars start stop)
        (grammar.pattern span.closePattern) := by
  rw [closingSource]
  split
  · rfl
  · next hfills =>
    have hnone : hasBackreferences (grammar.pattern span.closePattern) = false := by
      rw [h.2.1, ← hasBackreferencesIn_iff, Bool.not_eq_true] at hfills
      exact hfills
    exact (fillBackreferences_eq_self hnone _).symm

/-- Filling in replaces the references to groups by literal spellings of their texts and nothing
else. Nothing is left to be filled in then, and where there is nothing to begin with the pattern
stays as it is. So the ending of a span is what filling it in gives, also where that is not done. -/
theorem fillBackreferences_literal (groups : List (Option (List Char))) (source : String) :
    Filled groups (pieces source.toList) (fillBackreferences groups source).toList ∧
      (∀ text spelling, Spells text spelling → unescape spelling = text) ∧
      hasBackreferences (fillBackreferences groups source) = false ∧
      (∀ groups', fillBackreferences groups' (fillBackreferences groups source) =
        fillBackreferences groups source) ∧
      (hasBackreferences source = false → fillBackreferences groups source = source) ∧
      ∀ (validate : Validator) grammar span text (m : Match),
        (Rule.span span).Compiles validate grammar → grammar.pattern span.closePattern = source →
        closingSource grammar span text m =
          fillBackreferences
            (m.groups.map fun g => g.map fun (start, stop) => text.sliceChars start stop)
            source := by
  have htoList : (fillBackreferences groups source).toList =
      fillBackreferencesIn groups source.toList := String.toList_ofList
  have hdone : hasBackreferences (fillBackreferences groups source) = false := by
    rw [hasBackreferences, htoList]
    exact hasBackreferencesIn_fillBackreferencesIn source.toList
  refine ⟨?_, fun _ _ h => h.unescape_eq, hdone, fillBackreferences_eq_self hdone,
    fun h => fillBackreferences_eq_self h groups, ?_⟩
  · rw [htoList, fillBackreferencesIn_eq]
    exact filled_flatMap_fill _
  · rintro validate grammar span text m hcompiles rfl
    exact closingSource_eq hcompiles text m

end ScopeGrammar.Pattern
