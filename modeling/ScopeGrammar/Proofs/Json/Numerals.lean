import Mathlib.Algebra.Group.Nat.Defs
import Mathlib.Data.List.Forall2
import ScopeGrammar.Proofs.Json.Strings

/-!
# ScopeGrammar.Proofs.Json.Numerals

The numbers of JSON, against how they are read.

* `Numeral.Spells` : a numeral is written like this.
* `numeral_of_spells` : it is read from any text that goes on with what may follow a value
  (`Stops`).
* `spells_of_numeral` : what is read is spelled at the front of the text.
* `Numeral.integer` : the numeral of a whole number, which stands for it (`Numeral.value_natural`,
  `Numeral.value_negative`).
-/

namespace ScopeGrammar.Json

open Text (Decoded)
open Text.Decoded (ofChars ofChars_eq_cons ofChars_nil ofChars_cons ofChars_append)

/-! ## Digits -/

/-- The text is made of these digits. -/
def DigitsOf (ds : List Nat) (cs : List Char) : Prop :=
  List.Forall₂ (fun d c => digit? (.char c) = some d) ds cs

/-- The text does not start with a digit. -/
def NoDigit (cs : List Char) : Prop := ∀ c ∈ cs.head?, digit? (.char c) = none

theorem digits_of_digitsOf {ds : List Nat} {cs rest : List Char} (h : DigitsOf ds cs)
    (hrest : NoDigit rest) : digits (ofChars (cs ++ rest)) = (ds, ofChars rest) := by
  induction h with
  | nil =>
    cases rest with
    | nil => rfl
    | cons c rest =>
      have hc := hrest c rfl
      simp [digits, hc]
  | cons hc _ ih => simp only [List.cons_append, ofChars_cons, digits, hc, ih]

theorem digitsOf_of_digits {ds : List Nat} {cs : List Char} {after : List Decoded}
    (h : digits (ofChars cs) = (ds, after)) :
    ∃ text rest, cs = text ++ rest ∧ after = ofChars rest ∧ DigitsOf ds text := by
  induction cs generalizing ds with
  | nil =>
    cases h
    exact ⟨[], [], rfl, rfl, .nil⟩
  | cons c cs ih =>
    rw [ofChars_cons, digits] at h
    split at h
    · next d hd =>
      cases h
      obtain ⟨text, rest, rfl, hafter, htext⟩ := ih rfl
      exact ⟨c :: text, rest, rfl, hafter, .cons hd htext⟩
    · cases h
      exact ⟨[], c :: cs, rfl, rfl, .nil⟩

/-! ## The spelling of a numeral -/

/-- The digits before the point: a zero alone, or digits that start with none. -/
structure WholeOf (ds : List Nat) (cs : List Char) : Prop where
  digits : DigitsOf ds cs
  nonempty : ds ≠ []
  zero : ds.head? = some 0 → ds = [0]

inductive FractionOf : Option (List Nat) → List Char → Prop
  | none : FractionOf none []
  | some {ds : List Nat} {cs : List Char} : DigitsOf ds cs → ds ≠ [] →
    FractionOf (some ds) ('.' :: cs)

inductive SignOf : Bool → List Char → Prop
  | none : SignOf false []
  | plus : SignOf false ['+']
  | minus : SignOf true ['-']

inductive ExponentOf : Option (Bool × List Nat) → List Char → Prop
  | none : ExponentOf none []
  | some {minus : Bool} {ds : List Nat} {letter : Char} {sign cs : List Char} :
    letter = 'e' ∨ letter = 'E' → SignOf minus sign → DigitsOf ds cs → ds ≠ [] →
    ExponentOf (some (minus, ds)) (letter :: sign ++ cs)

/-- The numeral is written like this. -/
inductive Numeral.Spells (n : Numeral) : List Char → Prop
  | intro {whole fraction exponent : List Char} :
    WholeOf n.whole whole → FractionOf n.fraction fraction → ExponentOf n.exponent exponent →
    Spells n ((if n.minus then ['-'] else []) ++ whole ++ fraction ++ exponent)

/-- What may follow a value: nothing, or a blank, a comma or a closing bracket. -/
def Stops (cs : List Char) : Prop :=
  ∀ c ∈ cs.head?, isSpace (.char c) = true ∨ c = ',' ∨ c = ']' ∨ c = '}'

/-! ## Numerals are read as they are spelled -/

theorem wholePart_of_wholeOf {ds : List Nat} {cs rest : List Char} (h : WholeOf ds cs)
    (hrest : NoDigit rest) (short : Fault) :
    wholePart short (ofChars (cs ++ rest)) = .ok (ds, ofChars rest) := by
  obtain ⟨hdigits, hne, hzero⟩ := h
  rw [wholePart, digits_of_digitsOf hdigits hrest]
  match ds, hne, hzero with
  | [0], _, _ => rfl
  | [k + 1], _, _ => rfl
  | 0 :: d :: ds, _, hzero => simp at hzero
  | (k + 1) :: d :: ds, _, _ => rfl

theorem fractionPart_of_fractionOf {fraction : Option (List Nat)} {cs rest : List Char}
    (h : FractionOf fraction cs) (hrest : NoDigit rest) (hpoint : '.' ∉ rest.head?)
    (short : Fault) :
    fractionPart short (ofChars (cs ++ rest)) = .ok (fraction, ofChars rest) := by
  cases h with
  | none =>
    rw [List.nil_append, fractionPart]
    rintro after hcs
    obtain ⟨c, cs, rfl, ⟨⟩, _⟩ := ofChars_eq_cons.1 hcs
    exact hpoint rfl
  | @some ds cs hdigits hne =>
    rw [List.cons_append, ofChars_cons, fractionPart, digits_of_digitsOf hdigits hrest]
    match ds, hne with
    | d :: ds, _ => rfl

theorem digit?_ne {c c' : Char} {d : Nat} (h : digit? (.char c) = some d)
    (h' : digit? (.char c') = none) : c ≠ c' := by
  rintro rfl
  rw [h] at h'
  cases h'

theorem exponentPart_of_exponentOf {exponent : Option (Bool × List Nat)} {cs rest : List Char}
    (h : ExponentOf exponent cs) (hrest : NoDigit rest)
    (hletter : 'e' ∉ rest.head? ∧ 'E' ∉ rest.head?) (short : Fault) :
    exponentPart short (ofChars (cs ++ rest)) = .ok (exponent, ofChars rest) := by
  cases h with
  | none =>
    obtain ⟨he, hE⟩ := hletter
    cases rest with
    | nil => rfl
    | cons c rest =>
      have hc : c ≠ 'e' := by rintro rfl; exact he rfl
      have hC : c ≠ 'E' := by rintro rfl; exact hE rfl
      simp [exponentPart, hc, hC]
  | @some minus ds letter sign cs hletter hsign hdigits hne =>
    have hread := digits_of_digitsOf hdigits hrest
    cases hdigits with
    | nil => exact absurd rfl hne
    | @cons d c ds cs hd hds =>
      have hplus : c ≠ '+' := digit?_ne hd rfl
      have hminus : c ≠ '-' := digit?_ne hd rfl
      simp only [List.cons_append, ofChars_cons, ofChars_append] at hread
      cases hsign <;> obtain rfl | rfl := hletter <;>
        simp [exponentPart, hread, hplus, hminus]

/-- No part of a number starts with what may follow a value. -/
theorem Stops.not_mem {rest : List Char} (h : Stops rest) {p : Char → Prop} [DecidablePred p]
    (hp : [' ', '\n', '\t', '\r', ',', ']', '\x7d'].all (p ·) = true) : ∀ c ∈ rest.head?, p c := by
  intro c hc
  have hstop := h c hc
  simp only [isSpace, Bool.or_eq_true, beq_iff_eq] at hstop
  refine of_decide_eq_true (List.all_eq_true.1 hp c ?_)
  simp only [List.mem_cons, List.not_mem_nil, or_false]
  tauto

theorem Stops.noDigit {rest : List Char} (h : Stops rest) : NoDigit rest :=
  h.not_mem (by decide)

theorem noDigit_exponent {exponent : Option (Bool × List Nat)} {cs rest : List Char}
    (h : ExponentOf exponent cs) (hrest : Stops rest) : NoDigit (cs ++ rest) := by
  cases h with
  | none => exact hrest.noDigit
  | some hletter _ _ _ =>
    rintro _ ⟨⟩
    obtain rfl | rfl := hletter <;> rfl

theorem point_not_mem_exponent {exponent : Option (Bool × List Nat)} {cs rest : List Char}
    (h : ExponentOf exponent cs) (hrest : Stops rest) : '.' ∉ (cs ++ rest).head? := by
  cases h with
  | none => exact fun hc => hrest.not_mem (p := (· ≠ '.')) (by decide) _ hc rfl
  | some hletter _ _ _ => obtain rfl | rfl := hletter <;> rintro ⟨⟩

theorem noDigit_fraction {fraction : Option (List Nat)} {cs rest : List Char}
    (h : FractionOf fraction cs) (hrest : NoDigit rest) : NoDigit (cs ++ rest) := by
  cases h with
  | none => exact hrest
  | some _ _ =>
    rintro _ ⟨⟩
    rfl

theorem numeral_of_spells {n : Numeral} {text rest : List Char} (h : n.Spells text)
    (hrest : Stops rest) (short : Fault) :
    numeral short (ofChars (text ++ rest)) = .ok (n, ofChars rest) := by
  obtain @⟨w, f, e, hwhole, hfraction, hexponent⟩ := h
  have hafter := noDigit_exponent hexponent hrest
  have hw := wholePart_of_wholeOf hwhole (noDigit_fraction hfraction hafter) short
  have hf := fractionPart_of_fractionOf hfraction hafter (point_not_mem_exponent hexponent hrest)
    short
  have he := exponentPart_of_exponentOf hexponent hrest.noDigit
    ⟨fun hc => hrest.not_mem (p := (· ≠ 'e')) (by decide) _ hc rfl,
      fun hc => hrest.not_mem (p := (· ≠ 'E')) (by decide) _ hc rfl⟩ short
  obtain ⟨minus, whole, fraction, exponent⟩ := n
  dsimp only at hw hf he hwhole
  simp only [List.append_assoc]
  cases minus with
  | true =>
    simp only [if_true, List.singleton_append, ofChars_cons]
    simp [numeral, hw, hf, he, -ofChars_append]
  | false =>
    -- the first character is a digit, so there is no sign
    obtain ⟨hdigits, hne, _⟩ := hwhole
    cases hdigits with
    | nil => exact absurd rfl hne
    | @cons d c ds cs hd hds =>
      have hminus : c ≠ '-' := digit?_ne hd rfl
      simp only [Bool.false_eq_true, if_false, List.nil_append, List.cons_append,
        ofChars_cons] at hw ⊢
      simp [numeral, hminus, hw, hf, he, -ofChars_append]

/-! ## What is read is spelled -/

theorem wholeOf_of_wholePart {short : Fault} {ds : List Nat} {cs : List Char}
    {after : List Decoded} (h : wholePart short (ofChars cs) = .ok (ds, after)) :
    ∃ text rest, cs = text ++ rest ∧ after = ofChars rest ∧ WholeOf ds text := by
  rw [wholePart] at h
  split at h
  · cases h
  · cases h
  · cases h
  · next hne hzero hread =>
    cases h
    obtain ⟨text, rest, rfl, hafter, htext⟩ := digitsOf_of_digits hread
    refine ⟨text, rest, rfl, hafter, htext, hne, fun hhead => ?_⟩
    match ds, hhead, hzero with
    | [0], _, _ => rfl
    | 0 :: d :: ds, _, hzero => exact absurd rfl (hzero d ds)

theorem fractionOf_of_fractionPart {short : Fault} {fraction : Option (List Nat)} {cs : List Char}
    {after : List Decoded} (h : fractionPart short (ofChars cs) = .ok (fraction, after)) :
    ∃ text rest, cs = text ++ rest ∧ after = ofChars rest ∧ FractionOf fraction text := by
  unfold fractionPart at h
  split at h
  · next hcs =>
    obtain ⟨_, cs, rfl, ⟨⟩, rfl⟩ := ofChars_eq_cons.1 hcs
    split at h
    · cases h
    · cases h
    · next hne hread =>
      cases h
      obtain ⟨text, rest, rfl, hafter, htext⟩ := digitsOf_of_digits hread
      exact ⟨'.' :: text, rest, rfl, hafter, .some htext hne⟩
  · cases h
    exact ⟨[], cs, rfl, rfl, .none⟩

/-- The digits of an exponent whose sign is known. -/
def exponentDigits (short : Fault) (minus : Bool) (cs : List Decoded) :
    Except Fault (Option (Bool × List Nat) × List Decoded) :=
  match digits cs with
  | ([], []) => .error short
  | ([], _) => .error .malformed
  | (ds, after) => .ok (some (minus, ds), after)

/-- An exponent behind its letter. -/
def signedExponent (short : Fault) :
    List Decoded → Except Fault (Option (Bool × List Nat) × List Decoded)
  | .char '+' :: rest => exponentDigits short false rest
  | .char '-' :: rest => exponentDigits short true rest
  | rest => exponentDigits short false rest

theorem exponentPart_eq (short : Fault) (cs : List Decoded) :
    exponentPart short cs =
      match cs with
      | .char 'e' :: rest => signedExponent short rest
      | .char 'E' :: rest => signedExponent short rest
      | _ => .ok (none, cs) := rfl

theorem exponentDigits_eq_ok {short : Fault} {minus : Bool} {exponent : Option (Bool × List Nat)}
    {cs : List Char} {after : List Decoded}
    (h : exponentDigits short minus (ofChars cs) = .ok (exponent, after)) :
    ∃ ds text rest, cs = text ++ rest ∧ after = ofChars rest ∧ exponent = some (minus, ds) ∧
      DigitsOf ds text ∧ ds ≠ [] := by
  rw [exponentDigits] at h
  split at h
  · cases h
  · cases h
  · next hne hread =>
    cases h
    obtain ⟨text, rest, rfl, hafter, htext⟩ := digitsOf_of_digits hread
    exact ⟨_, text, rest, rfl, hafter, rfl, htext, hne⟩

theorem exponentOf_of_signedExponent {short : Fault} {exponent : Option (Bool × List Nat)}
    {cs : List Char} {after : List Decoded} {letter : Char} (hletter : letter = 'e' ∨ letter = 'E')
    (h : signedExponent short (ofChars cs) = .ok (exponent, after)) :
    ∃ text rest, letter :: cs = text ++ rest ∧ after = ofChars rest ∧
      ExponentOf exponent text := by
  unfold signedExponent at h
  split at h
  · next hcs =>
    obtain ⟨_, cs, rfl, ⟨⟩, rfl⟩ := ofChars_eq_cons.1 hcs
    obtain ⟨ds, text, rest, rfl, hafter, rfl, htext, hne⟩ := exponentDigits_eq_ok h
    exact ⟨letter :: ['+'] ++ text, rest, rfl, hafter, .some hletter .plus htext hne⟩
  · next hcs =>
    obtain ⟨_, cs, rfl, ⟨⟩, rfl⟩ := ofChars_eq_cons.1 hcs
    obtain ⟨ds, text, rest, rfl, hafter, rfl, htext, hne⟩ := exponentDigits_eq_ok h
    exact ⟨letter :: ['-'] ++ text, rest, rfl, hafter, .some hletter .minus htext hne⟩
  · obtain ⟨ds, text, rest, rfl, hafter, rfl, htext, hne⟩ := exponentDigits_eq_ok h
    exact ⟨letter :: [] ++ text, rest, rfl, hafter, .some hletter .none htext hne⟩

theorem exponentOf_of_exponentPart {short : Fault} {exponent : Option (Bool × List Nat)}
    {cs : List Char} {after : List Decoded}
    (h : exponentPart short (ofChars cs) = .ok (exponent, after)) :
    ∃ text rest, cs = text ++ rest ∧ after = ofChars rest ∧ ExponentOf exponent text := by
  rw [exponentPart_eq] at h
  split at h
  · next hcs =>
    obtain ⟨_, cs, rfl, ⟨⟩, rfl⟩ := ofChars_eq_cons.1 hcs
    exact exponentOf_of_signedExponent (.inl rfl) h
  · next hcs =>
    obtain ⟨_, cs, rfl, ⟨⟩, rfl⟩ := ofChars_eq_cons.1 hcs
    exact exponentOf_of_signedExponent (.inr rfl) h
  · cases h
    exact ⟨[], cs, rfl, rfl, .none⟩

/-- The parts of a numeral behind its sign. -/
def unsignedNumeral (short : Fault) (minus : Bool) (cs : List Decoded) :
    Except Fault (Numeral × List Decoded) := do
  let (whole, cs) ← wholePart short cs
  let (fraction, cs) ← fractionPart short cs
  let (exponent, cs) ← exponentPart short cs
  .ok ({ minus, whole, fraction, exponent }, cs)

theorem numeral_eq (short : Fault) (cs : List Decoded) :
    numeral short cs =
      match cs with
      | .char '-' :: rest => unsignedNumeral short true rest
      | _ => unsignedNumeral short false cs := by
  rcases cs with _ | ⟨c | _, rest⟩
  · rfl
  · by_cases hc : c = '-'
    · subst hc
      rfl
    · simp [numeral, unsignedNumeral, hc]
  · rfl

theorem unsignedNumeral_eq_ok {short : Fault} {minus : Bool} {n : Numeral} {cs : List Char}
    {after : List Decoded} (h : unsignedNumeral short minus (ofChars cs) = .ok (n, after)) :
    ∃ text rest, cs = text ++ rest ∧ after = ofChars rest ∧ n.minus = minus ∧
      n.Spells ((if minus then ['-'] else []) ++ text) := by
  obtain ⟨⟨whole, after⟩, hwhole, h⟩ := bind_eq_ok.1 h
  obtain ⟨w, cs, rfl, rfl, hw⟩ := wholeOf_of_wholePart hwhole
  obtain ⟨⟨fraction, after⟩, hfraction, h⟩ := bind_eq_ok.1 h
  obtain ⟨f, cs, rfl, rfl, hf⟩ := fractionOf_of_fractionPart hfraction
  obtain ⟨⟨exponent, after⟩, hexponent, h⟩ := bind_eq_ok.1 h
  obtain ⟨e, cs, rfl, rfl, he⟩ := exponentOf_of_exponentPart hexponent
  cases h
  refine ⟨w ++ f ++ e, cs, by simp, rfl, rfl, ?_⟩
  have hspells := Numeral.Spells.intro (n := ⟨minus, whole, fraction, exponent⟩) hw hf he
  simpa using hspells

theorem spells_of_numeral {short : Fault} {n : Numeral} {cs : List Char} {after : List Decoded}
    (h : numeral short (ofChars cs) = .ok (n, after)) :
    ∃ text rest, cs = text ++ rest ∧ after = ofChars rest ∧ n.Spells text := by
  rw [numeral_eq] at h
  split at h
  · next hcs =>
    obtain ⟨_, cs, rfl, ⟨⟩, rfl⟩ := ofChars_eq_cons.1 hcs
    obtain ⟨text, rest, rfl, hafter, _, htext⟩ := unsignedNumeral_eq_ok h
    exact ⟨'-' :: text, rest, rfl, hafter, htext⟩
  · obtain ⟨text, rest, hcs, hafter, _, htext⟩ := unsignedNumeral_eq_ok h
    exact ⟨text, rest, hcs, hafter, htext⟩

section

variable {short : Fault} {cs after : List Decoded}

theorem wholePart_short {ds : List Nat} (h : wholePart short cs = .ok (ds, after))
    (short' : Fault) : wholePart short' cs = .ok (ds, after) := by
  unfold wholePart at h ⊢
  split at h <;> simp_all

theorem fractionPart_short {fraction : Option (List Nat)}
    (h : fractionPart short cs = .ok (fraction, after)) (short' : Fault) :
    fractionPart short' cs = .ok (fraction, after) := by
  unfold fractionPart at h ⊢
  split at h
  · split at h <;> simp_all
  · simp_all

theorem exponentDigits_short {minus : Bool} {exponent : Option (Bool × List Nat)}
    (h : exponentDigits short minus cs = .ok (exponent, after)) (short' : Fault) :
    exponentDigits short' minus cs = .ok (exponent, after) := by
  unfold exponentDigits at h ⊢
  split at h <;> simp_all

theorem signedExponent_short {exponent : Option (Bool × List Nat)}
    (h : signedExponent short cs = .ok (exponent, after)) (short' : Fault) :
    signedExponent short' cs = .ok (exponent, after) := by
  unfold signedExponent at h ⊢
  split at h <;> exact exponentDigits_short h short'

theorem exponentPart_short {exponent : Option (Bool × List Nat)}
    (h : exponentPart short cs = .ok (exponent, after)) (short' : Fault) :
    exponentPart short' cs = .ok (exponent, after) := by
  rw [exponentPart_eq] at h ⊢
  split at h
  · exact signedExponent_short h short'
  · exact signedExponent_short h short'
  · exact h

theorem unsignedNumeral_short {minus : Bool} {n : Numeral}
    (h : unsignedNumeral short minus cs = .ok (n, after)) (short' : Fault) :
    unsignedNumeral short' minus cs = .ok (n, after) := by
  obtain ⟨⟨whole, after⟩, hwhole, h⟩ := bind_eq_ok.1 h
  obtain ⟨⟨fraction, after⟩, hfraction, h⟩ := bind_eq_ok.1 h
  obtain ⟨⟨exponent, after⟩, hexponent, h⟩ := bind_eq_ok.1 h
  rw [unsignedNumeral, wholePart_short hwhole]
  simp only [ok_bind]
  rw [fractionPart_short hfraction]
  simp only [ok_bind]
  rw [exponentPart_short hexponent]
  exact h

/-- What is read does not depend on how a text that is too short is reported. -/
theorem numeral_short {n : Numeral} (h : numeral short cs = .ok (n, after)) (short' : Fault) :
    numeral short' cs = .ok (n, after) := by
  rw [numeral_eq] at h ⊢
  split at h
  · exact unsignedNumeral_short h short'
  · exact unsignedNumeral_short h short'

end

/-! ## Whole numbers -/

def digitValue (c : Char) : Nat := c.toNat - '0'.toNat

/-- The numeral of a whole number of this size. -/
def Numeral.integer (minus : Bool) (n : Nat) : Numeral where
  minus
  whole := (Nat.toDigits 10 n).map digitValue
  fraction := none
  exponent := none

theorem digit?_of_isDigit {c : Char} (h : c.isDigit = true) :
    digit? (.char c) = some (digitValue c) := by
  rw [Char.isDigit] at h
  simp only [Bool.and_eq_true, decide_eq_true_eq] at h
  exact if_pos h

theorem digitsOf_toDigits (n : Nat) :
    DigitsOf ((Nat.toDigits 10 n).map digitValue) (Nat.toDigits 10 n) := by
  rw [DigitsOf, List.forall₂_map_left_iff, List.forall₂_same]
  exact fun c hc => digit?_of_isDigit (Nat.isDigit_of_mem_toDigits (by decide) (by decide) hc)

theorem digitValue_digitChar : ∀ n < 10, digitValue n.digitChar = n := by decide

/-- The digits of a number start with a zero only where that is all. -/
theorem head?_toDigits {n : Nat} (h : 0 < n) :
    ((Nat.toDigits 10 n).map digitValue).head? ≠ some 0 := by
  induction n using Nat.strongRecOn with
  | ind n ih =>
  by_cases hn : n < 10
  · rw [Nat.toDigits_of_lt_base hn, List.map_singleton, digitValue_digitChar n hn]
    simpa using Nat.ne_of_gt h
  · rw [Nat.toDigits_of_base_le (by decide) (by omega), List.map_append,
      List.head?_append_of_ne_nil _ (by simp)]
    exact ih (n / 10) (by omega) (by omega)

theorem decimal_toDigits (n : Nat) : decimal ((Nat.toDigits 10 n).map digitValue) = n := by
  rw [decimal, List.foldl_map]
  have h := Nat.ofDigitChars_toDigits (b := 10) (n := n) (by decide) (by decide)
  simpa [Nat.ofDigitChars, digitValue, Nat.mul_comm] using h

theorem Numeral.spells_integer (minus : Bool) (n : Nat) :
    (integer minus n).Spells ((if minus then ['-'] else []) ++ Nat.toDigits 10 n) := by
  have hwhole : WholeOf (integer minus n).whole (Nat.toDigits 10 n) := by
    refine ⟨digitsOf_toDigits n, by simp [integer], fun hhead => ?_⟩
    obtain rfl | hn := Nat.eq_zero_or_pos n
    · rfl
    · exact absurd hhead (head?_toDigits hn)
  have hspells := Numeral.Spells.intro hwhole .none .none
  rwa [List.append_nil, List.append_nil] at hspells

theorem Numeral.value_natural {n : Nat} (h : n < 2 ^ 64) :
    (integer false n).value = .ok (.natural n) := by
  have hn : n < Nat.pow 2 64 := h
  simp [value, integer, decimal_toDigits, hn]

theorem Numeral.value_negative {n : Nat} (hpos : 0 < n) (h : n ≤ 2 ^ 63) :
    (integer true n).value = .ok (.negative n) := by
  have hn : 1 ≤ n ∧ n ≤ Nat.pow 2 63 := ⟨hpos, h⟩
  simp [value, integer, decimal_toDigits, hn]

theorem Numeral.lt_of_value {n : Numeral} {m : Nat} (h : n.value = .ok (.natural m)) :
    m < 2 ^ 64 := by
  rw [value] at h
  dsimp only at h
  split at h
  · split at h
    · split at h
      · cases h
      · split at h <;> cases h
    · split at h
      · next hm =>
        cases h
        exact hm
      · split at h <;> cases h
  · rw [ite_eq_iff] at h
    obtain ⟨_, ⟨⟩⟩ | ⟨_, ⟨⟩⟩ := h

end ScopeGrammar.Json
