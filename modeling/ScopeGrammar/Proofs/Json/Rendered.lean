import ScopeGrammar.Json.Value
import ScopeGrammar.Proofs.Json.Documents

/-!
# ScopeGrammar.Proofs.Json.Rendered

The texts that are written.

* `JsonValue.tree` : a value to be written as a tree that is read.
* `JsonValue.ofString_render` : the text of a value is read as its tree.
* `JsonValue.nesting` : how many arrays and objects are inside each other in a value.
-/

namespace ScopeGrammar

open Json (TextOf EscapeOf Quad IsPlain Spells blanks_nil Numeral separator)

namespace JsonValue

/-! ## Trees -/

mutual

def tree : JsonValue → Json
  | bool b => .bool b
  | natural n => .number (Numeral.integer false n).value
  | text s => .text (.ok s)
  | array items => .array (trees items) none
  | object members => .object (memberTrees members) none

def trees : List JsonValue → List Json
  | [] => []
  | v :: rest => tree v :: trees rest

def memberTrees : List (String × JsonValue) → List (Except Json.Fault String × Json)
  | [] => []
  | (key, v) :: rest => (.ok key, tree v) :: memberTrees rest

end

theorem trees_eq (items : List JsonValue) : trees items = items.map tree := by
  induction items with
  | nil => rfl
  | cons v rest ih => rw [trees, ih, List.map_cons]

theorem memberTrees_eq (members : List (String × JsonValue)) :
    memberTrees members = members.map fun m => (.ok m.1, m.2.tree) := by
  induction members with
  | nil => rfl
  | cons m rest ih => rw [memberTrees, ih, List.map_cons]

/-! ## Nesting -/

mutual

/-- How many arrays and objects are open at most at one place of the text of a value. -/
def nesting : JsonValue → Nat
  | bool _ => 0
  | natural _ => 0
  | text _ => 0
  | array items => nestingOfItems items + 1
  | object members => nestingOfMembers members + 1

def nestingOfItems : List JsonValue → Nat
  | [] => 0
  | v :: rest => max (nesting v) (nestingOfItems rest)

def nestingOfMembers : List (String × JsonValue) → Nat
  | [] => 0
  | (_, v) :: rest => max (nesting v) (nestingOfMembers rest)

end

theorem nesting_lt_array {items : List JsonValue} {v : JsonValue} (h : v ∈ items) :
    v.nesting < (array items).nesting := by
  rw [nesting, Nat.lt_succ_iff]
  induction h with
  | head => exact Nat.le_max_left _ _
  | tail _ _ ih => exact Nat.le_trans ih (Nat.le_max_right _ _)

theorem nesting_lt_object {members : List (String × JsonValue)} {m : String × JsonValue}
    (h : m ∈ members) : m.2.nesting < (object members).nesting := by
  rw [nesting, Nat.lt_succ_iff]
  induction h with
  | head => exact Nat.le_max_left _ _
  | tail _ _ ih => exact Nat.le_trans ih (Nat.le_max_right _ _)

/-! ## Strings -/

theorem hexValue?_hexDigit : ∀ n < 16, Unicode.hexValue? (hexDigit n) = some n := by decide

/-- A control character is escaped by its number. -/
theorem escapeOf_control {c : Char} (h : c < ' ') :
    EscapeOf c ['u', '0', '0', hexDigit (c.toNat / 16), hexDigit (c.toNat % 16)] := by
  have hc : c.toNat < 32 := h
  have hquad : Quad ['0', '0', hexDigit (c.toNat / 16), hexDigit (c.toNat % 16)] c.toNat := by
    have hquad := Quad.intro (a := '0') (b := '0') (i := 0) (j := 0) rfl rfl
      (hexValue?_hexDigit (c.toNat / 16) (by omega)) (hexValue?_hexDigit (c.toNat % 16) (by omega))
    have hvalue : ((0 * 16 + 0) * 16 + c.toNat / 16) * 16 + c.toNat % 16 = c.toNat := by omega
    rwa [hvalue] at hquad
  have hlow : Json.isLowSurrogate c.toNat = false := by
    simp only [Json.isLowSurrogate, Bool.and_eq_false_iff, decide_eq_false_iff_not]
    omega
  have hhigh : Json.isHighSurrogate c.toNat = false := by
    simp only [Json.isHighSurrogate, Bool.and_eq_false_iff, decide_eq_false_iff_not]
    omega
  have hescape := EscapeOf.quad hquad hlow hhigh
  rwa [Char.ofNat_toNat] at hescape

theorem textOf_escapeChar (c : Char) {cs body : List Char} (h : TextOf cs body) :
    TextOf (c :: cs) (escapeChar c ++ body) := by
  rw [escapeChar]
  split
  · next hc => obtain rfl := beq_iff_eq.1 hc; exact .escape (.plain rfl) h
  split
  · next hc => obtain rfl := beq_iff_eq.1 hc; exact .escape (.plain rfl) h
  split
  · next hc => obtain rfl := beq_iff_eq.1 hc; exact .escape (.plain rfl) h
  split
  · next hc => obtain rfl := beq_iff_eq.1 hc; exact .escape (.plain rfl) h
  split
  · next hc => obtain rfl := beq_iff_eq.1 hc; exact .escape (.plain rfl) h
  split
  · next hc => obtain rfl := beq_iff_eq.1 hc; exact .escape (.plain rfl) h
  split
  · next hc => obtain rfl := beq_iff_eq.1 hc; exact .escape (.plain rfl) h
  split
  · next hc => exact .escape (escapeOf_control hc) h
  · next hquote hbackslash _ _ _ _ _ hprinted =>
    exact .plain ⟨by simpa using hquote, by simpa using hbackslash, hprinted⟩ h

theorem textOf_escape (cs : List Char) : TextOf cs (cs.flatMap escapeChar) := by
  induction cs with
  | nil => exact .nil
  | cons c cs ih => exact textOf_escapeChar c ih

theorem stringOf_escape (s : String) :
    Json.StringOf (.ok s) (s.toList.flatMap escapeChar) := by
  have h := Json.StringOf.kept (textOf_escape s.toList)
  rwa [String.ofList_toList] at h

/-! ## Values -/

mutual

theorem spells_tree : (v : JsonValue) → Spells (.value v.tree) v.renderChars
  | bool true => .boolTrue
  | bool false => .boolFalse
  | natural n => by
    have h := Spells.number (Numeral.spells_integer false n)
    exact h
  | text s => .text (stringOf_escape s)
  | array items => .array (spells_trees true items)
  | object members => .object (spells_memberTrees true members)

theorem spells_trees (first : Bool) :
    (items : List JsonValue) →
      Spells (.items first (trees items)) (renderItems first items ++ [']'])
  | [] => .itemsEnd blanks_nil
  | v :: rest => by
    have h : Spells (.items first (v.tree :: trees rest)) _ :=
      .item blanks_nil blanks_nil (spells_tree v) (spells_trees false rest)
    rw [renderItems]
    simpa [separator, trees] using h

theorem spells_memberTrees (first : Bool) :
    (members : List (String × JsonValue)) →
      Spells (.members first (memberTrees members)) (renderMembers first members ++ ['\x7d'])
  | [] => .membersEnd blanks_nil
  | (key, v) :: rest => by
    have h : Spells (.members first ((.ok key, v.tree) :: memberTrees rest)) _ :=
      .member blanks_nil blanks_nil (stringOf_escape key) blanks_nil blanks_nil (spells_tree v)
        (spells_memberTrees false rest)
    rw [renderMembers]
    simpa [separator, memberTrees, renderText] using h

end

/-- What is written is read as it was meant. -/
theorem ofString_render (v : JsonValue) : Document.ofString v.render = ⟨v.tree, none⟩ := by
  rw [Document.ofString_eq_iff, render, String.toList_ofList]
  exact ⟨[], v.renderChars, [], blanks_nil, v.spells_tree, blanks_nil, by simp⟩

end JsonValue

end ScopeGrammar
