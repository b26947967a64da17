import ScopeGrammar.Proofs.Json.Numerals

/-!
# ScopeGrammar.Proofs.Json.Documents

The texts of JSON, against how they are read.

* `Json.Spells` : the grammar of JSON. It relates values, and what stands between brackets, to their
  texts.
* `Document.Spells` : so for a whole text, with blanks around the value.
* `Document.ofString_eq_iff` : a text without fault is read as the tree that it spells.
-/

namespace ScopeGrammar

open Text (Decoded)
open Text.Decoded (ofChars ofChars_eq_cons ofChars_nil ofChars_cons ofChars_append ofChars_inj
  length_ofChars)

namespace Json

/-! ## The grammar of JSON -/

/-- A piece of a text: a value, or the elements of an array or the members of an object up to the
closing bracket. With `first` nothing stands before them in the brackets. -/
inductive Piece where
  | value (j : Json)
  | items (first : Bool) (items : List Json)
  | members (first : Bool) (members : List (Except Fault String × Json))

def Blanks (cs : List Char) : Prop := ∀ c ∈ cs, isSpace (.char c) = true

theorem blanks_nil : Blanks [] := nofun

/-- What stands before an element or a member. -/
def separator (first : Bool) : List Char := if first then [] else [',']

inductive Spells : Piece → List Char → Prop
  | null : Spells (.value .null) ['n', 'u', 'l', 'l']
  | boolTrue : Spells (.value (.bool true)) ['t', 'r', 'u', 'e']
  | boolFalse : Spells (.value (.bool false)) ['f', 'a', 'l', 's', 'e']
  | number {n : Numeral} {cs : List Char} : n.Spells cs → Spells (.value (.number n.value)) cs
  | text {kept : Except Fault String} {body : List Char} : StringOf kept body →
    Spells (.value (.text kept)) ('"' :: body ++ ['"'])
  | array {items : List Json} {cs : List Char} : Spells (.items true items) cs →
    Spells (.value (.array items none)) ('[' :: cs)
  | object {members : List (Except Fault String × Json)} {cs : List Char} :
    Spells (.members true members) cs → Spells (.value (.object members none)) ('\x7b' :: cs)
  | itemsEnd {first : Bool} {blanks : List Char} : Blanks blanks →
    Spells (.items first []) (blanks ++ [']'])
  | item {first : Bool} {j : Json} {items : List Json} {before after value rest : List Char} :
    Blanks before → Blanks after → Spells (.value j) value → Spells (.items false items) rest →
    Spells (.items first (j :: items)) (before ++ separator first ++ after ++ value ++ rest)
  | membersEnd {first : Bool} {blanks : List Char} : Blanks blanks →
    Spells (.members first []) (blanks ++ ['\x7d'])
  | member {first : Bool} {key : Except Fault String} {j : Json}
    {members : List (Except Fault String × Json)}
    {before after name before' after' value rest : List Char} :
    Blanks before → Blanks after → StringOf key name → Blanks before' → Blanks after' →
    Spells (.value j) value → Spells (.members false members) rest →
    Spells (.members first ((key, j) :: members))
      (before ++ separator first ++ after ++ '"' :: name ++ '"' :: before' ++ ':' :: after' ++
        value ++ rest)

/-! ## Blanks -/

theorem skipSpaces_blanks {blanks : List Char} (h : Blanks blanks) (rest : List Char) :
    skipSpaces (ofChars (blanks ++ rest)) = skipSpaces (ofChars rest) := by
  rw [skipSpaces, ofChars_append, List.dropWhile_append_of_pos (by simpa [ofChars, Blanks] using h),
    skipSpaces]

theorem skipSpaces_cons {c : Char} (h : isSpace (.char c) = false) (rest : List Char) :
    skipSpaces (ofChars (c :: rest)) = .char c :: ofChars rest := by
  simp [skipSpaces, h]

/-- Blanks are passed over up to the next character. -/
theorem skipSpaces_eq {blanks : List Char} (h : Blanks blanks) {c : Char}
    (hc : isSpace (.char c) = false) (rest : List Char) :
    skipSpaces (ofChars (blanks ++ c :: rest)) = .char c :: ofChars rest := by
  rw [skipSpaces_blanks h, skipSpaces_cons hc]

theorem exists_blanks (cs : List Char) :
    ∃ blanks rest, cs = blanks ++ rest ∧ Blanks blanks ∧
      skipSpaces (ofChars cs) = ofChars rest := by
  induction cs with
  | nil => exact ⟨[], [], rfl, blanks_nil, rfl⟩
  | cons c cs ih =>
    cases hc : isSpace (.char c) with
    | true =>
      obtain ⟨blanks, rest, rfl, hblanks, hskip⟩ := ih
      refine ⟨c :: blanks, rest, rfl, List.forall_mem_cons.2 ⟨hc, hblanks⟩, ?_⟩
      rw [← hskip, ← List.singleton_append, skipSpaces_blanks (by simpa [Blanks] using hc)]
    | false => exact ⟨[], c :: cs, rfl, blanks_nil, skipSpaces_cons hc cs⟩

/-! ## What is spelled is read -/

/-- The piece is read from the text, whatever stands behind it and with fuel enough. -/
def Reads : Piece → List Char → Prop
  | .value j, cs => ∀ fuel rest blanks, 2 * cs.length ≤ fuel → Stops rest → Blanks blanks →
    readValue fuel (ofChars (blanks ++ (cs ++ rest))) = (j, .ok (ofChars rest))
  | .items first items, cs => ∀ fuel rest, 2 * cs.length ≤ fuel →
    readItems fuel first (ofChars (cs ++ rest)) = (items, .ok (ofChars rest))
  | .members first members, cs => ∀ fuel rest, 2 * cs.length ≤ fuel →
    readMembers fuel first (ofChars (cs ++ rest)) = (members, .ok (ofChars rest))

theorem Numeral.Spells.exists_cons {n : Numeral} {cs : List Char} (h : n.Spells cs) :
    ∃ c rest, cs = c :: rest ∧ (c = '-' ∨ '0' ≤ c ∧ c ≤ '9') := by
  obtain ⟨⟨hdigits, hne, _⟩, _, _⟩ := h
  obtain ⟨minus, whole, fraction, exponent⟩ := n
  dsimp only at hdigits hne ⊢
  split
  · exact ⟨'-', _, rfl, .inl rfl⟩
  · cases hdigits with
    | nil => exact absurd rfl hne
    | cons hd _ =>
      refine ⟨_, _, rfl, .inr ?_⟩
      rw [digit?] at hd
      split at hd
      · assumption
      · cases hd

theorem Spells.length_pos {p : Piece} {cs : List Char} (h : Spells p cs) : 0 < cs.length := by
  induction h with
  | number hn =>
    obtain ⟨c, rest, rfl, _⟩ := hn.exists_cons
    exact Nat.succ_pos _
  | item _ _ _ _ ih _ =>
    simp only [List.length_append]
    omega
  | member _ _ _ _ _ _ _ ih _ =>
    simp only [List.length_append]
    omega
  | _ => simp

/-- Behind blanks there is a character that may follow a value. -/
theorem stops_blanks {blanks : List Char} (h : Blanks blanks) {c : Char}
    (hc : c = ',' ∨ c = ']' ∨ c = '\x7d') (rest : List Char) : Stops (blanks ++ c :: rest) := by
  cases blanks with
  | nil =>
    rintro _ ⟨⟩
    exact .inr hc
  | cons d blanks =>
    rintro _ ⟨⟩
    exact .inl (List.forall_mem_cons.1 h).1

theorem Spells.stops_items {items : List Json} {cs : List Char}
    (h : Spells (.items false items) cs) (rest : List Char) : Stops (cs ++ rest) := by
  cases h with
  | itemsEnd hblanks =>
    rw [List.append_assoc]
    exact stops_blanks hblanks (.inr (.inl rfl)) rest
  | item hbefore _ _ _ =>
    simp only [List.append_assoc]
    exact stops_blanks hbefore (.inl rfl) _

theorem Spells.stops_members {members : List (Except Fault String × Json)} {cs : List Char}
    (h : Spells (.members false members) cs) (rest : List Char) : Stops (cs ++ rest) := by
  cases h with
  | membersEnd hblanks =>
    rw [List.append_assoc]
    exact stops_blanks hblanks (.inr (.inr rfl)) rest
  | member hbefore _ _ _ _ _ _ =>
    simp only [List.append_assoc]
    exact stops_blanks hbefore (.inl rfl) _

theorem readValue_number {c : Char} (h : c = '-' ∨ '0' ≤ c ∧ c ≤ '9') (fuel : Nat)
    {blanks : List Char} (hblanks : Blanks blanks) (rest : List Char) :
    readValue (fuel + 1) (ofChars (blanks ++ c :: rest)) =
      (.number ((keepNumber (ofChars (c :: rest))).map (·.1)), skipNumber (ofChars (c :: rest))) := by
  have hno : ∀ d ∈ ['n', 't', 'f', '"', '[', '\x7b', ' ', '\n', '\t', '\r'],
      ¬ (d = '-' ∨ '0' ≤ d ∧ d ≤ '9') := by simp
  have hother : ∀ d ∈ ['n', 't', 'f', '"', '[', '\x7b', ' ', '\n', '\t', '\r'], c ≠ d :=
    fun d hd hcd => hno d hd (hcd ▸ h)
  simp only [List.forall_mem_cons] at hother
  have hspace : isSpace (.char c) = false := by simp [isSpace, hother]
  rw [readValue, skipSpaces_eq hblanks hspace]
  simp [hother, h]

theorem reads_number {n : Numeral} {cs : List Char} (h : n.Spells cs) :
    Reads (.value (.number n.value)) cs := by
  rw [Reads]
  intro fuel rest blanks hfuel hrest hblanks
  obtain ⟨c, cs', hcs, hc⟩ := h.exists_cons
  have hkeep : keepNumber (ofChars (cs ++ rest)) =
      n.value.map fun v => (v, ofChars rest) := by
    rw [keepNumber, numeral_of_spells h hrest, ok_bind]
    dsimp only
    cases n.value <;> rfl
  have hskip : skipNumber (ofChars (cs ++ rest)) = .ok (ofChars rest) := by
    rw [skipNumber, numeral_of_spells h hrest]
    rfl
  subst hcs
  match fuel with
  | fuel + 1 =>
    rw [List.cons_append, readValue_number hc fuel hblanks, ← List.cons_append, hkeep, hskip]
    cases n.value <;> rfl

theorem reads_text {kept : Except Fault String} {body : List Char} (h : StringOf kept body) :
    Reads (.value (.text kept)) ('"' :: body ++ ['"']) := by
  rw [Reads]
  intro fuel rest blanks hfuel _ hblanks
  match fuel with
  | fuel + 1 =>
    have hkept := keptText_of_stringOf h rest
    have hskip := skipString_of_stringOf h rest
    rw [readValue, List.cons_append, List.cons_append, List.append_assoc, List.singleton_append,
      skipSpaces_eq hblanks rfl]
    simp [hkept, hskip, -ofChars_append]

theorem reads_array {items : List Json} {cs : List Char} (h : Reads (.items true items) cs) :
    Reads (.value (.array items none)) ('[' :: cs) := by
  unfold Reads at h ⊢
  intro fuel rest blanks hfuel _ hblanks
  rw [List.length_cons] at hfuel
  match fuel with
  | fuel + 1 =>
    rw [readValue, List.cons_append, skipSpaces_eq hblanks rfl]
    simp [h fuel rest (by omega), Rest.fault?, -ofChars_append]

theorem reads_object {members : List (Except Fault String × Json)} {cs : List Char}
    (h : Reads (.members true members) cs) :
    Reads (.value (.object members none)) ('\x7b' :: cs) := by
  unfold Reads at h ⊢
  intro fuel rest blanks hfuel _ hblanks
  rw [List.length_cons] at hfuel
  match fuel with
  | fuel + 1 =>
    rw [readValue, List.cons_append, skipSpaces_eq hblanks rfl]
    simp [h fuel rest (by omega), Rest.fault?, -ofChars_append]

theorem reads_itemsEnd {first : Bool} {blanks : List Char} (h : Blanks blanks) :
    Reads (.items first []) (blanks ++ [']']) := by
  rw [Reads]
  intro fuel rest hfuel
  rw [List.length_append, List.length_singleton] at hfuel
  match fuel with
  | fuel + 1 =>
    rw [readItems, List.append_assoc, List.singleton_append, skipSpaces_eq h rfl]
    rfl

theorem reads_membersEnd {first : Bool} {blanks : List Char} (h : Blanks blanks) :
    Reads (.members first []) (blanks ++ ['\x7d']) := by
  rw [Reads]
  intro fuel rest hfuel
  rw [List.length_append, List.length_singleton] at hfuel
  match fuel with
  | fuel + 1 =>
    rw [readMembers, List.append_assoc, List.singleton_append, skipSpaces_eq h rfl]
    rfl

/-- An element and those behind it. -/
def readItem (fuel : Nat) (cs : List Decoded) : List Json × Rest :=
  match readValue fuel cs with
  | (item, .error f) => ([item], .error f)
  | (item, .ok rest) =>
    let (items, after) := readItems fuel false rest
    (item :: items, after)

theorem readItems_succ (fuel : Nat) (first : Bool) (cs : List Decoded) :
    readItems (fuel + 1) first cs =
      match skipSpaces cs with
      | [] => ([], .error .endOfText)
      | .char ']' :: rest => ([], .ok rest)
      | .char ',' :: rest => if first then readItem fuel cs else readItem fuel rest
      | _ => if first then readItem fuel cs else ([], .error .malformed) := by
  rw [readItems]
  rfl

/-- A member behind its first quote, and those behind it. -/
def readMember (fuel : Nat) (cs : List Decoded) : List (Except Fault String × Json) × Rest :=
  match skipString cs with
  | .error f => ([(keptText cs, .broken f)], .error f)
  | .ok rest =>
    match skipSpaces rest with
    | [] => ([(keptText cs, .broken .endOfText)], .error .endOfText)
    | .char ':' :: rest =>
      match readValue fuel rest with
      | (value, .error f) => ([(keptText cs, value)], .error f)
      | (value, .ok rest) =>
        let (members, after) := readMembers fuel false rest
        ((keptText cs, value) :: members, after)
    | _ => ([(keptText cs, .broken .malformed)], .error .malformed)

theorem readMembers_succ (fuel : Nat) (first : Bool) (cs : List Decoded) :
    readMembers (fuel + 1) first cs =
      match skipSpaces cs with
      | [] => ([], .error .endOfText)
      | .char '\x7d' :: rest => ([], .ok rest)
      | .char '"' :: rest => if first then readMember fuel rest else ([], .error .malformed)
      | .char ',' :: rest =>
        if first then ([], .error .malformed)
        else
          match skipSpaces rest with
          | [] => ([], .error .endOfText)
          | .char '"' :: rest => readMember fuel rest
          | _ => ([], .error .malformed)
      | _ => ([], .error .malformed) := by
  rw [readMembers]
  rfl

theorem readItem_eq (fuel : Nat) (more : List Char) {j : Json} {items : List Json}
    {value rest blanks : List Char} (hvalue : Reads (.value j) value)
    (hrest : Reads (.items false items) rest)
    (hstops : Stops (rest ++ more)) (hblanks : Blanks blanks) (hfuel : 2 * value.length ≤ fuel)
    (hfuel' : 2 * rest.length ≤ fuel) :
    readItem fuel (ofChars (blanks ++ (value ++ (rest ++ more)))) =
      (j :: items, .ok (ofChars more)) := by
  rw [readItem, hvalue fuel (rest ++ more) blanks hfuel hstops hblanks]
  dsimp only
  rw [hrest fuel more hfuel']

/-- A value starts with a character that neither ends an array nor is blank. -/
theorem Spells.exists_cons {j : Json} {cs : List Char} (h : Spells (.value j) cs) :
    ∃ c rest, cs = c :: rest ∧ isSpace (.char c) = false ∧ c ≠ ']' := by
  cases h with
  | number hn =>
    obtain ⟨c, rest, rfl, hc⟩ := hn.exists_cons
    have hno : ∀ d ∈ [']', ' ', '\n', '\t', '\r'], ¬ (d = '-' ∨ '0' ≤ d ∧ d ≤ '9') := by simp
    have hother : ∀ d ∈ [']', ' ', '\n', '\t', '\r'], c ≠ d := fun d hd hcd => hno d hd (hcd ▸ hc)
    simp only [List.forall_mem_cons] at hother
    exact ⟨c, rest, rfl, by simp [isSpace, hother], hother.1⟩
  | _ => exact ⟨_, _, rfl, by decide, by decide⟩

theorem reads_item {first : Bool} {j : Json} {items : List Json}
    {before after value rest : List Char} (hbefore : Blanks before) (hafter : Blanks after)
    (hvalue : Spells (.value j) value) (hrest : Spells (.items false items) rest)
    (ih : Reads (.value j) value) (ih' : Reads (.items false items) rest) :
    Reads (.items first (j :: items)) (before ++ separator first ++ after ++ value ++ rest) := by
  unfold Reads
  intro fuel more hfuel
  simp only [List.length_append] at hfuel
  have hpos := hvalue.length_pos
  have hpos' := hrest.length_pos
  obtain ⟨fuel, rfl⟩ : ∃ n, fuel = n + 1 := ⟨fuel - 1, by omega⟩
  have hitem := fun {blanks} (hblanks : Blanks blanks) =>
    readItem_eq fuel more ih ih' (hrest.stops_items more) hblanks (by omega) (by omega)
  cases first with
  | false =>
    simp only [separator, Bool.false_eq_true, if_false, List.append_assoc, List.cons_append,
      List.nil_append]
    rw [readItems_succ, skipSpaces_eq hbefore rfl]
    exact hitem hafter
  | true =>
    obtain ⟨c, value', rfl, hspace, hc⟩ := hvalue.exists_cons
    have hblanks : Blanks (before ++ after) := List.forall_mem_append.2 ⟨hbefore, hafter⟩
    have hread := hitem hblanks
    simp only [separator, if_true, List.append_nil, List.append_assoc, List.cons_append] at hread ⊢
    rw [readItems_succ, hread, ← List.append_assoc before after, skipSpaces_eq hblanks hspace]
    split <;> simp_all

theorem readMember_eq (fuel : Nat) (more : List Char) {key : Except Fault String} {j : Json}
    {members : List (Except Fault String × Json)}
    {name before after value rest : List Char} (hname : StringOf key name)
    (hbefore : Blanks before) (hafter : Blanks after) (hvalue : Reads (.value j) value)
    (hrest : Reads (.members false members) rest) (hstops : Stops (rest ++ more))
    (hfuel : 2 * value.length ≤ fuel) (hfuel' : 2 * rest.length ≤ fuel) :
    readMember fuel
        (ofChars (name ++ '"' :: (before ++ ':' :: (after ++ (value ++ (rest ++ more)))))) =
      ((key, j) :: members, .ok (ofChars more)) := by
  have hvalue' := hvalue fuel (rest ++ more) after hfuel hstops hafter
  have hrest' := hrest fuel more hfuel'
  have hcolon := skipSpaces_eq hbefore (c := ':') rfl (after ++ (value ++ (rest ++ more)))
  rw [readMember, skipString_of_stringOf hname, keptText_of_stringOf hname]
  simp [hcolon, hvalue', hrest', -ofChars_append]

theorem reads_member {first : Bool} {key : Except Fault String} {j : Json}
    {members : List (Except Fault String × Json)}
    {before after name before' after' value rest : List Char} (hbefore : Blanks before)
    (hafter : Blanks after) (hname : StringOf key name) (hbefore' : Blanks before')
    (hafter' : Blanks after') (hrest : Spells (.members false members) rest)
    (ih : Reads (.value j) value) (ih' : Reads (.members false members) rest) :
    Reads (.members first ((key, j) :: members))
      (before ++ separator first ++ after ++ '"' :: name ++ '"' :: before' ++ ':' :: after' ++
        value ++ rest) := by
  unfold Reads
  intro fuel more hfuel
  simp only [List.length_append, List.length_cons] at hfuel
  obtain ⟨fuel, rfl⟩ : ∃ n, fuel = n + 1 := ⟨fuel - 1, by omega⟩
  have hmember := readMember_eq fuel more hname hbefore' hafter' ih ih'
    (hrest.stops_members more) (by omega) (by omega)
  cases first with
  | false =>
    simp only [separator, Bool.false_eq_true, if_false, List.append_assoc, List.cons_append,
      List.nil_append]
    have hquote := skipSpaces_eq hafter (c := '"') rfl
      (name ++ '"' :: (before' ++ ':' :: (after' ++ (value ++ (rest ++ more)))))
    rw [readMembers_succ, skipSpaces_eq hbefore rfl]
    simp [hquote, hmember, -ofChars_append]
  | true =>
    have hblanks : Blanks (before ++ after) := List.forall_mem_append.2 ⟨hbefore, hafter⟩
    simp only [separator, if_true, List.append_nil, List.append_assoc, List.cons_append]
    rw [readMembers_succ, ← List.append_assoc before after, skipSpaces_eq hblanks rfl]
    exact hmember

theorem reads_of_spells {p : Piece} {cs : List Char} (h : Spells p cs) : Reads p cs := by
  induction h with
  | null =>
    intro fuel rest blanks hfuel _ hblanks
    match fuel with
    | fuel + 1 => rw [readValue, List.cons_append, skipSpaces_eq hblanks rfl]; rfl
  | boolTrue =>
    intro fuel rest blanks hfuel _ hblanks
    match fuel with
    | fuel + 1 => rw [readValue, List.cons_append, skipSpaces_eq hblanks rfl]; rfl
  | boolFalse =>
    intro fuel rest blanks hfuel _ hblanks
    match fuel with
    | fuel + 1 => rw [readValue, List.cons_append, skipSpaces_eq hblanks rfl]; rfl
  | number hn => exact reads_number hn
  | text hbody => exact reads_text hbody
  | array _ ih => exact reads_array ih
  | object _ ih => exact reads_object ih
  | itemsEnd hblanks => exact reads_itemsEnd hblanks
  | item hbefore hafter hvalue hrest ih ih' =>
    exact reads_item hbefore hafter hvalue hrest ih ih'
  | membersEnd hblanks => exact reads_membersEnd hblanks
  | member hbefore hafter hname hbefore' hafter' _ hrest ih ih' =>
    exact reads_member hbefore hafter hname hbefore' hafter' hrest ih ih'

/-! ## What is read is spelled -/

/-- With so much fuel, only what is spelled at the front of a text is read from it. -/
structure ReadsSpelled (fuel : Nat) : Prop where
  value : ∀ {cs j after}, readValue fuel (ofChars cs) = (j, .ok after) →
    ∃ blanks text rest, cs = blanks ++ (text ++ rest) ∧ after = ofChars rest ∧ Blanks blanks ∧
      Spells (.value j) text
  items : ∀ {first cs items after}, readItems fuel first (ofChars cs) = (items, .ok after) →
    ∃ text rest, cs = text ++ rest ∧ after = ofChars rest ∧ Spells (.items first items) text
  members : ∀ {first cs members after},
    readMembers fuel first (ofChars cs) = (members, .ok after) →
    ∃ text rest, cs = text ++ rest ∧ after = ofChars rest ∧ Spells (.members first members) text

theorem word_eq_ok {letters cs : List Char} {after : List Decoded}
    (h : word letters (ofChars cs) = .ok after) :
    ∃ rest, cs = letters ++ rest ∧ after = ofChars rest := by
  induction letters generalizing cs with
  | nil =>
    cases h
    exact ⟨cs, rfl, rfl⟩
  | cons c letters ih =>
    cases cs with
    | nil => cases h
    | cons d cs =>
      rw [ofChars_cons, word] at h
      split at h
      · next hcd =>
        obtain ⟨rest, rfl, hafter⟩ := ih h
        exact ⟨rest, by rw [eq_of_beq hcd]; rfl, hafter⟩
      · cases h

theorem named_eq_ok {value j : Json} {letters cs : List Char} {after : List Decoded}
    (h : named value letters (ofChars cs) = (j, .ok after)) :
    ∃ rest, cs = letters ++ rest ∧ after = ofChars rest ∧ j = value := by
  rw [named] at h
  split at h
  · next hword =>
    cases h
    obtain ⟨rest, hcs, hafter⟩ := word_eq_ok hword
    exact ⟨rest, hcs, hafter, rfl⟩
  · cases h

theorem number_eq_ok {cs : List Char} {after : List Decoded}
    (h : skipNumber (ofChars cs) = .ok after) :
    ∃ (n : Numeral) (text rest : List Char), cs = text ++ rest ∧ after = ofChars rest ∧
      n.Spells text ∧ (keepNumber (ofChars cs)).map (·.1) = n.value := by
  obtain ⟨⟨n, after'⟩, hnumeral, hrest⟩ := bind_eq_ok.1 h
  cases hrest
  obtain ⟨text, rest, rfl, hafter, htext⟩ := spells_of_numeral hnumeral
  refine ⟨n, text, rest, rfl, hafter, htext, ?_⟩
  rw [keepNumber, numeral_short hnumeral, ok_bind]
  dsimp only
  cases n.value <;> rfl

theorem ReadsSpelled.value_succ {fuel : Nat} (h : ReadsSpelled fuel) {cs : List Char} {j : Json}
    {after : List Decoded} (hread : readValue (fuel + 1) (ofChars cs) = (j, .ok after)) :
    ∃ blanks text rest, cs = blanks ++ (text ++ rest) ∧ after = ofChars rest ∧ Blanks blanks ∧
      Spells (.value j) text := by
  obtain ⟨blanks, cs, rfl, hblanks, hskip⟩ := exists_blanks cs
  refine ⟨blanks, ?_⟩
  simp only [List.append_cancel_left_eq]
  rw [readValue, hskip] at hread
  cases cs with
  | nil => cases hread
  | cons c cs =>
  rw [ofChars_cons] at hread
  dsimp only at hread
  split at hread
  · next hc =>
    obtain ⟨rest, rfl, hafter, rfl⟩ := named_eq_ok hread
    exact ⟨_, rest, by rw [eq_of_beq hc]; rfl, hafter, hblanks, .null⟩
  split at hread
  · next hc =>
    obtain ⟨rest, rfl, hafter, rfl⟩ := named_eq_ok hread
    exact ⟨_, rest, by rw [eq_of_beq hc]; rfl, hafter, hblanks, .boolTrue⟩
  split at hread
  · next hc =>
    obtain ⟨rest, rfl, hafter, rfl⟩ := named_eq_ok hread
    exact ⟨_, rest, by rw [eq_of_beq hc]; rfl, hafter, hblanks, .boolFalse⟩
  split at hread
  · next hc =>
    obtain ⟨rfl, hstring⟩ := Prod.mk.inj hread
    obtain ⟨body, rest, rfl, hafter, hbody⟩ := stringOf_of_skipString hstring
    exact ⟨_, rest, by rw [eq_of_beq hc]; simp, hafter, hblanks, .text hbody⟩
  split at hread
  · next hc =>
    obtain ⟨rfl, hitems⟩ := Prod.mk.inj hread
    obtain ⟨text, rest, rfl, hafter, htext⟩ := h.items (Prod.ext rfl hitems)
    rw [hitems]
    exact ⟨'[' :: text, rest, by rw [eq_of_beq hc]; rfl, hafter, hblanks, .array htext⟩
  split at hread
  · next hc =>
    obtain ⟨rfl, hmembers⟩ := Prod.mk.inj hread
    obtain ⟨text, rest, rfl, hafter, htext⟩ := h.members (Prod.ext rfl hmembers)
    rw [hmembers]
    exact ⟨'\x7b' :: text, rest, by rw [eq_of_beq hc]; rfl, hafter, hblanks, .object htext⟩
  split at hread
  · obtain ⟨rfl, hnumber⟩ := Prod.mk.inj hread
    rw [← ofChars_cons] at hnumber ⊢
    obtain ⟨n, text, rest, hcs, hafter, htext, hvalue⟩ := number_eq_ok hnumber
    rw [hvalue]
    exact ⟨text, rest, hcs, hafter, hblanks, .number htext⟩
  · cases hread

theorem ReadsSpelled.item {fuel : Nat} (h : ReadsSpelled fuel) {cs : List Char} {items : List Json}
    {after : List Decoded} (hread : readItem fuel (ofChars cs) = (items, .ok after)) :
    ∃ j items' blanks value text rest, items = j :: items' ∧
      cs = blanks ++ (value ++ (text ++ rest)) ∧ after = ofChars rest ∧ Blanks blanks ∧
      Spells (.value j) value ∧ Spells (.items false items') text := by
  rw [readItem] at hread
  split at hread
  · cases hread
  · next j after' hvalue =>
    obtain ⟨blanks, value, rest, rfl, rfl, hblanks, hj⟩ := h.value hvalue
    obtain ⟨rfl, hitems⟩ := Prod.mk.inj hread
    obtain ⟨text, rest, rfl, hafter, htext⟩ := h.items (Prod.ext rfl hitems)
    exact ⟨j, _, blanks, value, text, rest, rfl, rfl, hafter, hblanks, hj, htext⟩

theorem ReadsSpelled.firstItem {fuel : Nat} (h : ReadsSpelled fuel) {cs : List Char}
    {items : List Json} {after : List Decoded}
    (hread : readItem fuel (ofChars cs) = (items, .ok after)) :
    ∃ text rest, cs = text ++ rest ∧ after = ofChars rest ∧ Spells (.items true items) text := by
  obtain ⟨j, items, blanks, value, text, rest, rfl, rfl, rfl, hblanks, hj, htext⟩ := h.item hread
  exact ⟨_, rest, by simp [separator], rfl, .item hblanks blanks_nil hj htext⟩

theorem ReadsSpelled.items_succ {fuel : Nat} (h : ReadsSpelled fuel) {first : Bool}
    {cs : List Char} {items : List Json} {after : List Decoded}
    (hread : readItems (fuel + 1) first (ofChars cs) = (items, .ok after)) :
    ∃ text rest, cs = text ++ rest ∧ after = ofChars rest ∧ Spells (.items first items) text := by
  obtain ⟨before, cs, rfl, hbefore, hskip⟩ := exists_blanks cs
  rw [readItems_succ, hskip] at hread
  split at hread
  · cases hread
  · next hcs =>
    obtain ⟨_, rest, rfl, ⟨⟩, rfl⟩ := ofChars_eq_cons.1 hcs
    cases hread
    exact ⟨before ++ [']'], rest, by simp, rfl, .itemsEnd hbefore⟩
  · next hcs =>
    obtain ⟨_, cs, rfl, ⟨⟩, rfl⟩ := ofChars_eq_cons.1 hcs
    split at hread
    · next hfirst =>
      obtain rfl := hfirst
      exact h.firstItem hread
    · next hfirst =>
      obtain ⟨j, items, after', value, text, rest, rfl, rfl, rfl, hafter', hj, htext⟩ :=
        h.item hread
      obtain rfl := Bool.eq_false_iff.2 hfirst
      exact ⟨_, rest, by simp [separator], rfl, .item hbefore hafter' hj htext⟩
  · split at hread
    · next hfirst =>
      obtain rfl := hfirst
      exact h.firstItem hread
    · cases hread

theorem ReadsSpelled.member {fuel : Nat} (h : ReadsSpelled fuel) {cs : List Char}
    {members : List (Except Fault String × Json)} {after : List Decoded}
    (hread : readMember fuel (ofChars cs) = (members, .ok after)) :
    ∃ key j members' name before after' value text rest, members = (key, j) :: members' ∧
      cs = name ++ '"' :: (before ++ ':' :: (after' ++ (value ++ (text ++ rest)))) ∧
      after = ofChars rest ∧ StringOf key name ∧ Blanks before ∧ Blanks after' ∧
      Spells (.value j) value ∧ Spells (.members false members') text := by
  rw [readMember] at hread
  split at hread
  · cases hread
  next hname =>
  obtain ⟨name, cs, rfl, rfl, hkey⟩ := stringOf_of_skipString hname
  obtain ⟨before, cs, rfl, hbefore, hskip⟩ := exists_blanks cs
  rw [hskip] at hread
  split at hread
  · cases hread
  · next hcs =>
    obtain ⟨_, cs, rfl, ⟨⟩, rfl⟩ := ofChars_eq_cons.1 hcs
    split at hread
    · cases hread
    · next j _ hvalue =>
      obtain ⟨after', value, cs, rfl, rfl, hafter', hj⟩ := h.value hvalue
      obtain ⟨rfl, hmembers⟩ := Prod.mk.inj hread
      obtain ⟨text, rest, rfl, rfl, htext⟩ := h.members (Prod.ext rfl hmembers)
      exact ⟨_, j, _, name, before, after', value, text, rest, rfl, rfl, rfl, hkey, hbefore,
        hafter', hj, htext⟩
  · cases hread

theorem ReadsSpelled.members_succ {fuel : Nat} (h : ReadsSpelled fuel) {first : Bool}
    {cs : List Char} {members : List (Except Fault String × Json)} {after : List Decoded}
    (hread : readMembers (fuel + 1) first (ofChars cs) = (members, .ok after)) :
    ∃ text rest, cs = text ++ rest ∧ after = ofChars rest ∧
      Spells (.members first members) text := by
  obtain ⟨before, cs, rfl, hbefore, hskip⟩ := exists_blanks cs
  rw [readMembers_succ, hskip] at hread
  split at hread
  · cases hread
  · next hcs =>
    obtain ⟨_, rest, rfl, ⟨⟩, rfl⟩ := ofChars_eq_cons.1 hcs
    cases hread
    exact ⟨before ++ ['\x7d'], rest, by simp, rfl, .membersEnd hbefore⟩
  · next hcs =>
    obtain ⟨_, cs, rfl, ⟨⟩, rfl⟩ := ofChars_eq_cons.1 hcs
    split at hread
    · next hfirst =>
      obtain rfl := hfirst
      obtain ⟨key, j, members, name, before', after', value, text, rest, rfl, rfl, rfl, hkey,
        hbefore', hafter', hj, htext⟩ := h.member hread
      exact ⟨_, rest, by simp [separator], rfl,
        .member hbefore blanks_nil hkey hbefore' hafter' hj htext⟩
    · cases hread
  · next hcs =>
    obtain ⟨_, cs, rfl, ⟨⟩, rfl⟩ := ofChars_eq_cons.1 hcs
    split at hread
    · cases hread
    next hfirst =>
    obtain rfl := Bool.eq_false_iff.2 hfirst
    obtain ⟨between, cs, rfl, hbetween, hskip'⟩ := exists_blanks cs
    rw [hskip'] at hread
    split at hread
    · cases hread
    · next hcs' =>
      obtain ⟨_, cs, rfl, ⟨⟩, rfl⟩ := ofChars_eq_cons.1 hcs'
      obtain ⟨key, j, members, name, before', after', value, text, rest, rfl, rfl, rfl, hkey,
        hbefore', hafter', hj, htext⟩ := h.member hread
      exact ⟨_, rest, by simp [separator], rfl,
        .member hbefore hbetween hkey hbefore' hafter' hj htext⟩
    · cases hread
  · cases hread

theorem readsSpelled (fuel : Nat) : ReadsSpelled fuel := by
  induction fuel with
  | zero =>
    refine ⟨fun h => ?_, fun h => ?_, fun h => ?_⟩
    · rw [readValue] at h
      cases h
    · rw [readItems] at h
      cases h
    · rw [readMembers] at h
      cases h
  | succ fuel ih => exact ⟨ih.value_succ, ih.items_succ, ih.members_succ⟩

/-! ## The parts of what is spelled -/

theorem Spells.of_mem_items {first : Bool} {items : List Json} {cs : List Char}
    (h : Spells (.items first items) cs) : ∀ j ∈ items, ∃ cs, Spells (.value j) cs := by
  generalize hp : Piece.items first items = p at h
  induction h generalizing first items with
  | itemsEnd _ =>
    cases hp
    exact nofun
  | item _ _ hvalue _ _ ih =>
    cases hp
    exact List.forall_mem_cons.2 ⟨⟨_, hvalue⟩, ih rfl⟩
  | _ => cases hp

theorem Spells.of_mem_members {first : Bool} {members : List (Except Fault String × Json)}
    {cs : List Char} (h : Spells (.members first members) cs) :
    ∀ m ∈ members, ∃ cs, Spells (.value m.2) cs := by
  generalize hp : Piece.members first members = p at h
  induction h generalizing first members with
  | membersEnd _ =>
    cases hp
    exact nofun
  | member _ _ _ _ _ hvalue _ _ ih =>
    cases hp
    exact List.forall_mem_cons.2 ⟨⟨_, hvalue⟩, ih rfl⟩
  | _ => cases hp

theorem Spells.of_array {items : List Json} {stop : Option Fault} {cs : List Char}
    (h : Spells (.value (.array items stop)) cs) :
    stop = none ∧ ∀ j ∈ items, ∃ cs, Spells (.value j) cs := by
  cases h with
  | array hitems => exact ⟨rfl, hitems.of_mem_items⟩

theorem Spells.of_object {members : List (Except Fault String × Json)} {stop : Option Fault}
    {cs : List Char} (h : Spells (.value (.object members stop)) cs) :
    stop = none ∧ ∀ m ∈ members, ∃ cs, Spells (.value m.2) cs := by
  cases h with
  | object hmembers => exact ⟨rfl, hmembers.of_mem_members⟩

theorem Spells.natural_lt {n : Nat} {cs : List Char}
    (h : Spells (.value (.number (.ok (.natural n)))) cs) : n < 2 ^ 64 := by
  generalize hj : Json.number (.ok (.natural n)) = j at h
  cases h with
  | number _ => exact Numeral.lt_of_value (Json.number.inj hj).symm
  | _ => cases hj

end Json

/-! ## Whole texts -/

/-- The text is a value with blanks around it. -/
def Document.Spells (j : Json) (cs : List Char) : Prop :=
  ∃ before text after, Json.Blanks before ∧ Json.Spells (.value j) text ∧ Json.Blanks after ∧
    cs = before ++ (text ++ after)

namespace Document

open Json

theorem stops_of_blanks {blanks : List Char} (h : Blanks blanks) : Stops blanks :=
  fun c hc => .inl (h c (List.mem_of_mem_head? hc))

theorem skipSpaces_eq_nil {blanks : List Char} (h : Blanks blanks) :
    skipSpaces (ofChars blanks) = [] := by
  have hskip := skipSpaces_blanks h []
  rwa [List.append_nil] at hskip

theorem blanks_of_skipSpaces {cs : List Char} (h : skipSpaces (ofChars cs) = []) : Blanks cs := by
  obtain ⟨blanks, rest, rfl, hblanks, hskip⟩ := exists_blanks cs
  rw [hskip, ← ofChars_nil, ofChars_inj] at h
  rwa [h, List.append_nil]

/-- A text is read without fault as the tree that it spells, and only as that. -/
theorem ofString_eq_iff {s : String} {j : Json} :
    ofString s = ⟨j, none⟩ ↔ Document.Spells j s.toList := by
  have hofString : Decoded.ofString s = ofChars s.toList := rfl
  rw [ofString, hofString, ofText]
  generalize s.toList = cs
  constructor
  · intro h
    split at h
    · cases h
    · next root rest hread =>
      obtain ⟨before, text, rest, rfl, rfl, hbefore, htext⟩ := (readsSpelled _).value hread
      obtain ⟨rfl, hending⟩ := Document.mk.inj h
      refine ⟨before, text, rest, hbefore, htext, blanks_of_skipSpaces ?_, rfl⟩
      split at hending
      · next hempty => exact List.isEmpty_iff.1 hempty
      · cases hending
  · rintro ⟨before, text, after, hbefore, htext, hafter, rfl⟩
    have hfuel : 2 * text.length ≤ 2 * (ofChars (before ++ (text ++ after))).length + 2 := by
      simp only [length_ofChars, List.length_append]
      omega
    rw [reads_of_spells htext _ after before hfuel (stops_of_blanks hafter) hbefore]
    simp [skipSpaces_eq_nil hafter]

end Document

end ScopeGrammar
