import ScopeGrammar.Text.Subject

/-!
# ScopeGrammar.Proofs.Text.Offsets

Positions of characters and offsets into the UTF-8 form of a text.

* `Subject.toByte_eq` : the offset of a position is the number of bytes of the characters before it,
  with a table of offsets and without one.
* `Subject.toChar_of_toByte` : translating an offset back gives the position.
* `Subject.toByte_lt_iff` : positions and their offsets are in the same order.
* `Subject.lt_iff_lt_toChar` : an offset is translated to the first position that is not before it.
-/

namespace ScopeGrammar

@[simp] theorem byteLength_nil : byteLength [] = 0 := rfl

@[simp] theorem byteLength_cons (c : Char) (cs : List Char) :
    byteLength (c :: cs) = c.utf8Size + byteLength cs := rfl

theorem byteLength_eq_length {cs : List Char} (h : cs.all Subject.isAscii = true) :
    byteLength cs = cs.length := by
  induction cs with
  | nil => rfl
  | cons c cs ih =>
    rw [List.all_cons, Bool.and_eq_true] at h
    have hlt : c.toNat < 128 := by simpa [Subject.isAscii] using h.1
    have hle : c.val ≤ 0x7f := UInt32.le_iff_toNat_le.2 (Nat.lt_succ_iff.1 hlt)
    have hone : c.utf8Size = 1 := if_pos hle
    rw [byteLength_cons, ih h.2, List.length_cons, hone, Nat.add_comm]

theorem byteLength_append (cs ds : List Char) :
    byteLength (cs ++ ds) = byteLength cs + byteLength ds := by
  induction cs with
  | nil => exact (Nat.zero_add _).symm
  | cons c cs ih => rw [List.cons_append, byteLength_cons, byteLength_cons, ih, Nat.add_assoc]

theorem byteLength_take_lt {cs : List Char} {i j : Nat} (hij : i < j) (hj : j ≤ cs.length) :
    byteLength (cs.take i) < byteLength (cs.take j) := by
  have hnext : cs.take (i + 1) = cs.take i ++ [cs[i]] := List.take_succ_eq_append_getElem (by omega)
  have hrest : cs.take j = cs.take (i + 1) ++ (cs.drop (i + 1)).take (j - (i + 1)) := by
    rw [← List.take_add]
    congr
    omega
  have hsize : 0 < cs[i].utf8Size := Char.utf8Size_pos _
  rw [hrest, hnext, byteLength_append, byteLength_append, byteLength_cons]
  omega

namespace Subject

theorem length_offsetsFrom (start : Nat) (cs : List Char) :
    (offsetsFrom start cs).length = cs.length + 1 := by
  induction cs generalizing start with
  | nil => rfl
  | cons c cs ih => rw [offsetsFrom, List.length_cons, ih, List.length_cons]

theorem getElem?_offsetsFrom (start : Nat) (cs : List Char) (i : Nat) :
    (offsetsFrom start cs)[i]? =
      if i ≤ cs.length then some (start + byteLength (cs.take i)) else none := by
  induction cs generalizing start i with
  | nil => cases i <;> simp [offsetsFrom]
  | cons c cs ih =>
    cases i with
    | zero => simp [offsetsFrom]
    | succ i =>
      rw [offsetsFrom, List.getElem?_cons_succ, ih]
      simp [Nat.add_assoc]

theorem isEmpty_offsetsFrom (start : Nat) (cs : List Char) :
    (offsetsFrom start cs).toArray.isEmpty = false := by
  cases cs <;> rfl

variable {t : Subject} {i j b c : Nat}

/-- A text has a table of offsets, or it is of ASCII alone. -/
theorem table_or_ascii (t : Subject) :
    t.boundaries.isEmpty = false ∧ t.boundaries = (offsetsFrom 0 t.chars.toList).toArray ∨
      t.boundaries.isEmpty = true ∧ t.chars.toList.all isAscii = true := by
  obtain htable | ⟨hnone, hascii⟩ := t.boundaries_eq
  · exact .inl ⟨htable ▸ isEmpty_offsetsFrom 0 _, htable⟩
  · exact .inr ⟨hnone ▸ rfl, hascii⟩

theorem byteSize_of_ascii (h : t.chars.toList.all isAscii = true) : t.byteSize = t.chars.size := by
  rw [t.byteSize_eq, byteLength_eq_length h, Array.length_toList]

theorem length_eq (t : Subject) : t.length = t.chars.size := by
  obtain ⟨htable, hoffsets⟩ | ⟨hnone, hascii⟩ := t.table_or_ascii
  · rw [length, if_neg (by simp [htable]), hoffsets, List.size_toArray, length_offsetsFrom,
      Array.length_toList, Nat.add_sub_cancel]
  · rw [length, if_pos hnone, byteSize_of_ascii hascii]

theorem length_ofString (s : String) : (ofString s).length = s.length := by
  rw [length_eq, ← String.length_toList]
  rfl

theorem byteLength_take_of_ascii (h : t.chars.toList.all isAscii = true) (hi : i ≤ t.length) :
    byteLength (t.chars.toList.take i) = i := by
  rw [List.all_eq_true] at h
  rw [byteLength_eq_length (List.all_eq_true.2 fun c hc => h c (List.mem_of_mem_take hc)),
    List.length_take, Array.length_toList, Nat.min_eq_left (t.length_eq ▸ hi)]

/-- A position is translated to the number of bytes before it, if it is not past the end. -/
theorem toByte_eq (t : Subject) (i : Nat) :
    t.toByte i = if i ≤ t.length then some (byteLength (t.chars.toList.take i)) else none := by
  obtain ⟨htable, hoffsets⟩ | ⟨hnone, hascii⟩ := t.table_or_ascii
  · rw [toByte, if_neg (by simp [htable]), hoffsets, List.getElem?_toArray, getElem?_offsetsFrom,
      Nat.zero_add, Array.length_toList, length_eq]
  · rw [toByte, if_pos hnone, byteSize_of_ascii hascii, ← length_eq]
    by_cases hi : i ≤ t.length
    · simp [hi, byteLength_take_of_ascii hascii hi]
    · simp [hi]

theorem exists_toByte (h : i ≤ t.length) : ∃ b, t.toByte i = some b :=
  ⟨_, by rw [toByte_eq, if_pos h]⟩

theorem le_length_of_toByte (h : t.toByte i = some b) : i ≤ t.length := by
  rw [toByte_eq] at h
  split at h
  · assumption
  · cases h

theorem toByte_length (t : Subject) : t.toByte t.length = some t.byteSize := by
  rw [toByte_eq, if_pos (Nat.le_refl _), t.byteSize_eq, List.take_of_length_le (by simp [length_eq])]

theorem toByte_lt (hij : i < j) (hi : t.toByte i = some b) (hj : t.toByte j = some c) : b < c := by
  have hle := le_length_of_toByte hj
  rw [toByte_eq, if_pos (by omega)] at hi
  rw [toByte_eq, if_pos hle] at hj
  cases hi
  cases hj
  exact byteLength_take_lt hij (by simpa [length_eq] using hle)

/-- Offsets are in the order of their positions. -/
theorem toByte_lt_iff (hi : t.toByte i = some b) (hj : t.toByte j = some c) : b < c ↔ i < j := by
  refine ⟨fun h => ?_, fun h => toByte_lt h hi hj⟩
  obtain hlt | rfl | hgt := Nat.lt_trichotomy i j
  · exact hlt
  · cases hi.symm.trans hj
    omega
  · have := toByte_lt hgt hj hi
    omega

theorem toByte_le_iff (hi : t.toByte i = some b) (hj : t.toByte j = some c) : b ≤ c ↔ i ≤ j := by
  rw [← Nat.not_lt, ← Nat.not_lt, toByte_lt_iff hj hi]

/-! ## Looking up an offset -/

/-- Halving keeps what is before the range below the number looked for and what is behind it not, so
in the end the place that is found parts the table. -/
theorem lt_iff_lt_placeIn {table : Array Nat} {low high : Nat} {hsize : high ≤ table.size}
    (hascending : ∀ i j x y : Nat, i < j → table[i]? = some x → table[j]? = some y → x < y)
    (hle : low ≤ high) (hlow : ∀ i x : Nat, i < low → table[i]? = some x → x < b)
    (hhigh : ∀ i x : Nat, high ≤ i → table[i]? = some x → b ≤ x)
    {x : Nat} (hx : table[i]? = some x) : x < b ↔ i < placeIn table b low high hsize := by
  fun_induction placeIn table b low high hsize with
  | case1 low high _ _ middle hmiddle hfound =>
    have hget := Array.getElem?_eq_getElem hmiddle
    obtain hlt | rfl | hgt := Nat.lt_trichotomy i middle
    · exact iff_of_true (hfound ▸ hascending _ _ _ _ hlt hx hget) hlt
    · cases hx.symm.trans hget
      omega
    · have := hascending _ _ _ _ hgt hget hx
      omega
  | case2 low high _ _ middle hmiddle _ hbelow ih =>
    have hget := Array.getElem?_eq_getElem hmiddle
    refine ih (by omega) (fun j y hj hy => ?_) hhigh
    obtain hlt | rfl := Nat.lt_succ_iff_lt_or_eq.1 hj
    · exact Nat.lt_trans (hascending _ _ _ _ hlt hy hget) hbelow
    · cases hy.symm.trans hget
      exact hbelow
  | case3 low high _ _ middle hmiddle _ _ ih =>
    have hget := Array.getElem?_eq_getElem hmiddle
    refine ih (by omega) hlow fun j y hj hy => ?_
    obtain rfl | hlt := Nat.eq_or_lt_of_le hj
    · cases hy.symm.trans hget
      omega
    · have := hascending _ _ _ _ hlt hget hy
      omega
  | case4 low high =>
    by_cases hi : i < low
    · exact iff_of_true (hlow i x hi hx) hi
    · have := hhigh i x (by omega) hx
      omega

/-- The positions before the one that an offset is translated to are those of smaller offsets. -/
theorem lt_iff_lt_toChar (hi : t.toByte i = some c) : c < b ↔ i < t.toChar b := by
  obtain ⟨htable, -⟩ | ⟨hnone, -⟩ := t.table_or_ascii
  · have htoByte : ∀ j, t.toByte j = t.boundaries[j]? := fun j => by
      rw [toByte, if_neg (by simp [htable])]
    rw [toChar, if_neg (by simp [htable])]
    refine lt_iff_lt_placeIn (fun j k x y hjk hj hk => ?_) (Nat.zero_le _)
      (fun _ _ h => absurd h (Nat.not_lt_zero _)) (fun j x hj hx => ?_) (htoByte i ▸ hi)
    · exact toByte_lt hjk ((htoByte j).trans hj) ((htoByte k).trans hk)
    · rw [Array.getElem?_eq_none hj] at hx
      cases hx
  · rw [toByte, if_pos hnone] at hi
    rw [toChar, if_pos hnone]
    split at hi <;> cases hi
    rfl

theorem toChar_le_length (h : b ≤ t.byteSize) : t.toChar b ≤ t.length := by
  rw [← Nat.not_lt, ← lt_iff_lt_toChar t.toByte_length]
  exact Nat.not_lt.2 h

theorem toChar_of_toByte (h : t.toByte i = some b) : t.toChar b = i := by
  have hle : t.toChar b ≤ i := Nat.not_lt.1 fun hlt =>
    absurd ((lt_iff_lt_toChar h).2 hlt) (Nat.lt_irrefl b)
  obtain ⟨c, hc⟩ := exists_toByte (Nat.le_trans hle (le_length_of_toByte h))
  refine Nat.le_antisymm hle (Nat.not_lt.1 fun hlt => ?_)
  exact Nat.lt_irrefl _ ((lt_iff_lt_toChar hc).1 (toByte_lt hlt hc h))

end Subject

end ScopeGrammar
