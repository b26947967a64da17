import Mathlib.Order.Bounds.Basic
import ScopeGrammar.Proofs.Text.Offsets

/-!
# ScopeGrammar.Proofs.Text.Slices

The characters between two positions of a text.

* `Subject.sliceChars?_eq` : positions are at the edges of characters, so a slice of the UTF-8 form
  between two of them never cuts one.
* `Subject.Agrees` : two forms of a text in which all positions and offsets mean the same.
* `Subject.translates` : what positions, offsets and slices mean.
-/

namespace ScopeGrammar

namespace Subject

theorem splitAtByte_append (before behind : List Char) :
    splitAtByte (byteLength before) (before ++ behind) = some (before, behind) := by
  induction before with
  | nil => rw [byteLength_nil, splitAtByte, List.nil_append]
  | cons c before ih =>
    obtain ⟨n, hn⟩ : ∃ n, c.utf8Size = n + 1 := 
      Nat.exists_eq_succ_of_ne_zero (Nat.ne_of_gt c.utf8Size_pos)
    rw [byteLength_cons, hn, Nat.add_right_comm, List.cons_append, splitAtByte, if_pos (by omega), hn,
      Nat.add_sub_add_right, Nat.add_sub_cancel_left, ih]
    rfl

variable {t : Subject} {i j b c : Nat}

theorem byteRange?_of_eq_append {before range behind : List Char}
    (h : t.chars.toList = before ++ (range ++ behind)) :
    t.byteRange? (byteLength before) (byteLength before + byteLength range) = some range := by
  rw [byteRange?, if_pos (Nat.le_add_right ..), h, splitAtByte_append, Nat.add_sub_cancel_left]
  simp only [Option.bind_eq_bind, Option.bind_some, splitAtByte_append]
  rfl

theorem byteRange?_eq (hij : i ≤ j) (hi : t.toByte i = some b) (hj : t.toByte j = some c) :
    t.byteRange? b c = some ((t.chars.toList.take j).drop i) := by
  have hlength := le_length_of_toByte hj
  rw [toByte_eq, if_pos (by omega)] at hi
  rw [toByte_eq, if_pos hlength] at hj
  cases hi
  cases hj
  have hrange : t.chars.toList.take i ++ (t.chars.toList.take j).drop i = t.chars.toList.take j := by
    have hparts := List.take_append_drop i (t.chars.toList.take j)
    rwa [List.take_take, Nat.min_eq_left hij] at hparts
  have htext : t.chars.toList =
      t.chars.toList.take i ++ ((t.chars.toList.take j).drop i ++ t.chars.toList.drop j) := by
    rw [← List.append_assoc, hrange, List.take_append_drop]
  rw [← byteRange?_of_eq_append htext, ← byteLength_append, hrange]

/-- The slice of the text has whole characters, which are those from one position to the other. -/
theorem sliceChars?_eq (t : Subject) (start stop : Nat) :
    t.sliceChars? start stop =
      some ((t.chars.toList.take (min stop t.length)).drop (min start t.length)) := by
  obtain ⟨first, hfirst⟩ := t.exists_toByte (Nat.min_le_right start t.length)
  obtain ⟨last, hlast⟩ := t.exists_toByte (Nat.min_le_right stop t.length)
  rw [sliceChars?, hfirst, hlast, Option.getD_some, Option.getD_some]
  obtain hle | hge := Nat.le_total (min start t.length) (min stop t.length)
  · rw [Nat.max_eq_left ((toByte_le_iff hfirst hlast).2 hle), byteRange?_eq hle hfirst hlast]
  · rw [Nat.max_eq_right ((toByte_le_iff hlast hfirst).2 hge),
      byteRange?_eq (Nat.le_refl _) hfirst hfirst,
      List.drop_eq_nil_of_le (List.length_take_le ..),
      List.drop_eq_nil_of_le (Nat.le_trans (List.length_take_le ..) hge)]

theorem sliceChars_eq (t : Subject) (start stop : Nat) :
    t.sliceChars start stop =
      (t.chars.toList.take (min stop t.length)).drop (min start t.length) := by
  rw [sliceChars, sliceChars?_eq, Option.getD_some]

theorem take_eq_ofChars (t : Subject) (stop : Nat) :
    t.take stop = ofChars (t.chars.toList.take (min stop t.length)).toArray := by
  rw [take, sliceChars_eq, Nat.zero_min, List.drop_zero]

/-! ## Both representations -/

/-- Positions and offsets mean the same for the same text, with a table and without one. -/
structure Agrees (t u : Subject) : Prop where
  length_eq : t.length = u.length
  toByte_eq : ∀ i, t.toByte i = u.toByte i
  toChar_eq : ∀ b ≤ t.byteSize, t.toChar b = u.toChar b
  slice_eq : ∀ start stop, t.slice start stop = u.slice start stop

theorem isLeast_toChar (h : b ≤ t.byteSize) :
    IsLeast {i | ∃ x, t.toByte i = some x ∧ b ≤ x} (t.toChar b) := by
  constructor
  · obtain ⟨x, hx⟩ := exists_toByte (toChar_le_length h)
    refine ⟨x, hx, Nat.not_lt.1 fun hlt => ?_⟩
    exact Nat.lt_irrefl _ ((lt_iff_lt_toChar hx).1 hlt)
  · rintro i ⟨x, hx, hle⟩
    exact Nat.not_lt.1 fun hlt => Nat.not_lt.2 hle ((lt_iff_lt_toChar hx).2 hlt)

theorem Agrees.of_chars_eq {u : Subject} (h : t.chars = u.chars) : t.Agrees u := by
  have hlength : t.length = u.length := by rw [t.length_eq, u.length_eq, h]
  have htoByte : ∀ i, t.toByte i = u.toByte i := fun i => by
    rw [t.toByte_eq, u.toByte_eq, hlength, h]
  refine ⟨hlength, htoByte, fun b hb => ?_, fun start stop => ?_⟩
  · have hbu : b ≤ u.byteSize := by rwa [u.byteSize_eq, ← h, ← t.byteSize_eq]
    have hleast := isLeast_toChar hb
    simp only [htoByte] at hleast
    exact hleast.unique (isLeast_toChar hbu)
  · rw [slice, slice, t.sliceChars_eq, u.sliceChars_eq, hlength, h]

theorem byteLength_eq_utf8ByteSize (cs : List Char) :
    byteLength cs = (String.ofList cs).utf8ByteSize := by
  induction cs with
  | nil => rfl
  | cons c cs ih =>
    rw [byteLength_cons, ih, String.ofList_cons, String.utf8ByteSize_append,
      String.utf8ByteSize_singleton]

theorem byteSize_ofString (text : String) : (ofString text).byteSize = text.utf8ByteSize := by
  rw [byteSize_eq, byteLength_eq_utf8ByteSize]
  exact congrArg String.utf8ByteSize String.ofList_toList

/-- Positions count the characters of a text and offsets the bytes of its UTF-8 form: a position
is translated to the size of what stands before it, an offset to the first position that is not
before it. A slice holds the characters between two positions, cut at the end of the text. All of it
is the same with a table of offsets. -/
theorem translates (text : String) :
    let t := ofString text
    t.length = text.length ∧
      (∀ i, t.toByte i = if i ≤ text.length
        then some (String.ofList (text.toList.take i)).utf8ByteSize else none) ∧
      (∀ i j b c, i < j → t.toByte i = some b → t.toByte j = some c → b < c) ∧
      (∀ i b, t.toByte i = some b → t.toChar b = i) ∧
      (∀ b ≤ text.utf8ByteSize, IsLeast {i | ∃ x, t.toByte i = some x ∧ b ≤ x} (t.toChar b)) ∧
      (∀ start stop,
        let cs := (text.toList.take (min stop text.length)).drop (min start text.length)
        t.sliceChars? start stop = some cs ∧ t.slice start stop = String.ofList cs ∧
          (stop ≤ start → cs = [])) ∧
      t.Agrees (withTable text.toList.toArray) := by
  intro t
  have hlength : t.length = text.length := length_ofString text
  have hslice : ∀ start stop, t.sliceChars? start stop =
      some ((text.toList.take (min stop text.length)).drop (min start text.length)) :=
    fun start stop => hlength ▸ t.sliceChars?_eq start stop
  refine ⟨hlength, fun i => ?_, fun i j b c => toByte_lt, fun i b => toChar_of_toByte,
    fun b hb => isLeast_toChar (byteSize_ofString text ▸ hb), fun start stop => ⟨hslice start stop,
      ?_, fun hle => ?_⟩, .of_chars_eq rfl⟩
  · rw [toByte_eq, hlength, byteLength_eq_utf8ByteSize]
    rfl
  · rw [slice, sliceChars, hslice, Option.getD_some]
  · refine List.drop_eq_nil_of_le (Nat.le_trans (List.length_take_le ..) ?_)
    omega

/-- Characters of one to four bytes; the offset 4 is inside the third one. -/
theorem translates_mixed :
    let t := ofString "aé€😀"
    t.toByte 2 = some 3 ∧ t.toByte 3 = some 6 ∧ 3 < 6 ∧ t.toChar 6 = 3 ∧
      IsLeast {i | ∃ x, t.toByte i = some x ∧ 4 ≤ x} (t.toChar 4) ∧
      t.slice 2 9 = "€😀" ∧ t.slice 3 1 = "" := by
  obtain ⟨-, htoByte, hlt, htoChar, hleast, hslice, -⟩ := translates "aé€😀"
  have htwo := htoByte 2
  have hthree := htoByte 3
  refine ⟨htwo, hthree, hlt 2 3 3 6 (by decide) htwo hthree, htoChar 3 6 hthree,
    hleast 4 (by decide), (hslice 2 9).2.1, ?_⟩
  rw [(hslice 3 1).2.1, (hslice 3 1).2.2 (by decide)]

end Subject

end ScopeGrammar
