import ScopeGrammar.Proofs.Pattern.Leftmost
import ScopeGrammar.Proofs.Text.Offsets

/-!
# ScopeGrammar.Proofs.Pattern.Encoded

Searching the UTF-8 form of a text.

* `ByteEngine` : a library that looks for patterns and counts bytes. `ByteEngine.search`, `matchAt`
  and `searchGroup` translate positions for it, and its answers back.
* `ByteEngine.Tries` : it goes from left to right, and a group of patterns is looked for as each of
  them is. `ByteEngine.Reports` : what it answers are ranges of the text, and a match starts where
  it was tried.
* `ByteEngine.decoded` : such a library as an engine that counts characters. It finds the same
  (`ByteEngine.search_eq`, `matchAt_eq`, `searchGroup_eq`).
* `Engine.encoded` : an engine as such a library. It finds the same too (`Engine.searches_encoded`).
-/

namespace ScopeGrammar

/-- Ranges of bytes: that of the whole match, then those of the groups. -/
abbrev ByteRanges := List (Option (Nat × Nat))

def Match.ofBytes (t : Subject) (ranges : ByteRanges) : Option Match :=
  let groups := ranges.map fun range => range.map fun (a, b) => (t.toChar a, t.toChar b)
  (groups.head?.join).map fun (start, stop) => { start, stop, groups }

/-- The text as it is given to a library. -/
def Subject.text (t : Subject) : String := String.ofList t.chars.toList

/-- A library that looks for patterns in the UTF-8 form of a text. -/
structure ByteEngine (P : Type) where
  compile : MatchOptions → String → Except PatternError P
  /-- The match that is found from an offset on. -/
  find : P → String → Nat → Option ByteRanges
  /-- The match right at an offset. -/
  matchHere : P → String → Nat → Option ByteRanges
  /-- The match of one of several patterns that is found from an offset on, with the place of that
  pattern. -/
  findAny : List P → String → Nat → Option (Nat × ByteRanges)

namespace ByteEngine

variable {P : Type} (engine : ByteEngine P)

/-- The leftmost match that starts at or after a position. -/
def search (p : P) (t : Subject) (start : Nat) : Option Match :=
  if t.length ≤ start then none
  else (t.toByte start).bind fun first => (engine.find p t.text first).bind (Match.ofBytes t)

/-- The match that starts exactly at a position. -/
def matchAt (p : P) (t : Subject) (pos : Nat) : Option Match :=
  if t.length ≤ pos then none
  else (t.toByte pos).bind fun first => (engine.matchHere p t.text first).bind (Match.ofBytes t)

/-- The leftmost match of any of the patterns of a group, that of the first one there. -/
def searchGroup (g : PatternGroup P) (t : Subject) (start : Nat) : Option (Nat × Match) :=
  if g.isEmpty then none
  else if t.length ≤ start then none
  else (t.toByte start).bind fun first =>
    (engine.findAny g.patterns t.text first).bind fun (i, ranges) =>
      (Match.ofBytes t ranges).map fun m => (i, m)

end ByteEngine

/-! ## What is known of a library -/

/-- `attempt p s start offset` is what a pattern gives at one offset, in a search that began at
`start`. -/
abbrev ByteAttempt (P : Type) := P → String → Nat → Nat → Option ByteRanges

/-- The answer for the first offset, from one to the end of the text, that has one. -/
def firstOffset {α : Type} (s : String) (start : Nat) (f : Nat → Option α) : Option α :=
  firstFrom f (byteLength s.toList - start + 1) start

/-- Offsets are tried from left to right. Where several patterns are looked for, they are tried at
each of them in order, in the same way as one by itself. -/
structure ByteEngine.Tries {P : Type} (engine : ByteEngine P) (attempt : ByteAttempt P) :
    Prop where
  find : ∀ p s start, engine.find p s start = firstOffset s start (attempt p s start)
  matchHere : ∀ p s offset, engine.matchHere p s offset = attempt p s offset offset
  findAny : ∀ ps s start, engine.findAny ps s start =
    firstOffset s start fun offset => ps.zipIdx.findSome? fun x =>
      (attempt x.1 s start offset).map fun ranges => (x.2, ranges)

/-- An offset that is not inside a character. -/
def IsBoundary (s : String) (b : Nat) : Prop :=
  ∃ before, before <+: s.toList ∧ byteLength before = b

/-- A match of the pattern starts where it was tried, and it has ranges of the text that begin and
end between characters. -/
structure ByteAttempt.Reports {P : Type} (attempt : ByteAttempt P) (p : P) : Prop where
  starts : ∀ {s start offset ranges}, attempt p s start offset = some ranges →
    ∃ stop, ranges.head? = some (some (offset, stop))
  within : ∀ {s start offset ranges a b}, attempt p s start offset = some ranges →
    some (a, b) ∈ ranges → a ≤ b ∧ IsBoundary s a ∧ IsBoundary s b

/-! ## Offsets in the order of positions -/

namespace Subject

variable {α : Type} {t : Subject}

theorem isBoundary_iff {b : Nat} : IsBoundary t.text b ↔ ∃ i, t.toByte i = some b := by
  rw [IsBoundary, text, String.toList_ofList]
  constructor
  · rintro ⟨before, hprefix, rfl⟩
    have hle : before.length ≤ t.length := by
      rw [length_eq, ← Array.length_toList]
      exact hprefix.length_le
    exact ⟨before.length, by rw [toByte_eq, if_pos hle, ← List.prefix_iff_eq_take.1 hprefix]⟩
  · rintro ⟨i, hi⟩
    rw [toByte_eq] at hi
    split at hi
    · cases hi
      exact ⟨_, List.take_prefix i _, rfl⟩
    · cases hi

/-- Offsets inside characters have no answer, so the first offset with one belongs to the first
position with one. -/
theorem firstOffset_eq {f g : Nat → Option α} {start first : Nat}
    (hpos : ∀ {i b}, t.toByte i = some b → f b = g i)
    (hbetween : ∀ {b a}, f b = some a → IsBoundary t.text b)
    (hfirst : t.toByte start = some first) :
    firstOffset t.text first f = firstFrom g (t.length - start + 1) start := by
  have hle : start ≤ t.length := le_length_of_toByte hfirst
  have hsize : byteLength t.text.toList = t.byteSize := by
    rw [text, String.toList_ofList, t.byteSize_eq]
  ext a
  rw [firstOffset, hsize, firstFrom_eq_some_iff, firstFrom_eq_some_iff]
  constructor
  · rintro ⟨b, hlow, -, hb, hbefore⟩
    obtain ⟨i, hi⟩ := isBoundary_iff.1 (hbetween hb)
    have hend := le_length_of_toByte hi
    refine ⟨i, (toByte_le_iff hfirst hi).1 hlow, by omega, hpos hi ▸ hb, fun j hj hji => ?_⟩
    obtain ⟨c, hc⟩ := exists_toByte (t := t) (i := j) (by omega)
    exact (hpos hc).symm.trans (hbefore c ((toByte_le_iff hfirst hc).2 hj) (toByte_lt hji hc hi))
  · rintro ⟨i, hlow, hhigh, hi, hbefore⟩
    obtain ⟨b, hb⟩ := exists_toByte (t := t) (i := i) (by omega)
    have hfb : first ≤ b := (toByte_le_iff hfirst hb).2 hlow
    have hend : b ≤ t.byteSize := (toByte_le_iff hb t.toByte_length).2 (by omega)
    refine ⟨b, hfb, by omega, (hpos hb).trans hi, fun c hc hcb => ?_⟩
    refine Option.eq_none_iff_forall_ne_some.2 fun a ha => ?_
    obtain ⟨j, hj⟩ := isBoundary_iff.1 (hbetween ha)
    have hnone := hbefore j ((toByte_le_iff hfirst hj).1 hc) ((toByte_lt_iff hj hb).1 hcb)
    cases ha.symm.trans ((hpos hj).trans hnone)

end Subject

/-! ## A library as an engine -/

section

variable {P : Type} {engine : ByteEngine P} {attempt : ByteAttempt P} {t : Subject}
  {start first : Nat} {p : P} {ps : List P}

/-- The engine that translates the positions of each attempt. -/
def ByteEngine.decoded (engine : ByteEngine P) (attempt : ByteAttempt P) : Engine P where
  compile := engine.compile
  attempt p t start pos :=
    (t.toByte start).bind fun first => (t.toByte pos).bind fun offset =>
      (attempt p t.text first offset).bind (Match.ofBytes t)

theorem ByteAttempt.Reports.isSome_ofBytes (hp : attempt.Reports p) {offset : Nat}
    {ranges : ByteRanges} (h : attempt p t.text first offset = some ranges) :
    (Match.ofBytes t ranges).isSome := by
  obtain ⟨stop, hhead⟩ := hp.starts h
  simp [Match.ofBytes, hhead]

theorem ByteAttempt.Reports.isBoundary (hp : attempt.Reports p) {s : String} {offset : Nat}
    {ranges : ByteRanges} (h : attempt p s first offset = some ranges) : IsBoundary s offset := by
  obtain ⟨stop, hhead⟩ := hp.starts h
  exact (hp.within h (List.mem_of_mem_head? hhead)).2.1

namespace ByteEngine

theorem decoded_attempt (hfirst : t.toByte start = some first) {pos offset : Nat}
    (hpos : t.toByte pos = some offset) :
    (engine.decoded attempt).attempt p t start pos =
      (attempt p t.text first offset).bind (Match.ofBytes t) := by
  simp only [decoded, hfirst, hpos, Option.bind_some]

/-- Its matches are placed where they were tried. -/
theorem places_decoded (hp : attempt.Reports p) : (engine.decoded attempt).Places p := by
  intro t start pos m _ hm
  obtain ⟨first, hfirst, hm⟩ := Option.bind_eq_some_iff.1 hm
  obtain ⟨offset, hpos, hm⟩ := Option.bind_eq_some_iff.1 hm
  obtain ⟨ranges, hranges, hm⟩ := Option.bind_eq_some_iff.1 hm
  obtain ⟨stop, hhead⟩ := hp.starts hranges
  have hwhole : Match.ofBytes t ranges = some ⟨pos, t.toChar stop, ranges.map fun range =>
      range.map fun (a, b) => (t.toChar a, t.toChar b)⟩ := by
    simp [Match.ofBytes, hhead, Subject.toChar_of_toByte hpos]
  cases hm.symm.trans hwhole
  refine ⟨rfl, ?_, ?_⟩
  · rw [List.head?_eq_getElem?] at hhead
    simp [Match.group?, hhead, Subject.toChar_of_toByte hpos]
  · intro i range hgroup
    rw [Match.group?, List.getElem?_map, Option.join_eq_some_iff] at hgroup
    obtain ⟨found, hfound, hrange⟩ := Option.map_eq_some_iff.1 hgroup
    obtain ⟨⟨a, b⟩, rfl, rfl⟩ := Option.map_eq_some_iff.1 hrange
    obtain ⟨hle, ha, hb⟩ := hp.within hranges (List.mem_of_getElem? hfound)
    obtain ⟨i, hi⟩ := Subject.isBoundary_iff.1 ha
    obtain ⟨j, hj⟩ := Subject.isBoundary_iff.1 hb
    dsimp only
    rw [Subject.toChar_of_toByte hi, Subject.toChar_of_toByte hj]
    exact ⟨(Subject.toByte_le_iff hi hj).1 hle, Subject.le_length_of_toByte hj⟩

variable (htries : engine.Tries attempt)

include htries

theorem search_eq (hp : attempt.Reports p) (t : Subject) (start : Nat) :
    engine.search p t start = (engine.decoded attempt).search p t start := by
  rw [search, Engine.search]
  split
  · rfl
  · next hstart =>
    obtain ⟨first, hfirst⟩ := Subject.exists_toByte (Nat.le_of_not_le hstart)
    rw [hfirst, Option.bind_some, htries.find, firstOffset,
      ← firstFrom_bind fun _ _ => hp.isSome_ofBytes]
    refine Subject.firstOffset_eq (fun hi => (decoded_attempt hfirst hi).symm) ?_ hfirst
    intro b m hm
    obtain ⟨ranges, hranges, _⟩ := Option.bind_eq_some_iff.1 hm
    exact hp.isBoundary hranges

theorem matchAt_eq (p : P) (t : Subject) (pos : Nat) :
    engine.matchAt p t pos = (engine.decoded attempt).matchAt p t pos := by
  rw [matchAt, Engine.matchAt]
  split
  · rfl
  · next hpos =>
    obtain ⟨first, hfirst⟩ := Subject.exists_toByte (Nat.le_of_not_le hpos)
    rw [hfirst, Option.bind_some, htries.matchHere, decoded_attempt hfirst hfirst]

theorem searchGroup_eq (hps : ∀ p ∈ ps, attempt.Reports p) (t : Subject) (start : Nat) :
    engine.searchGroup ⟨ps⟩ t start =
      (PatternGroup.mk ps).search (engine.decoded attempt) t start := by
  cases hempty : (PatternGroup.mk ps).isEmpty with
  | true =>
    rw [searchGroup, PatternGroup.search, hempty]
    rfl
  | false =>
    rw [searchGroup, hempty, if_neg Bool.false_ne_true, PatternGroup.search_eq]
    split
    · rfl
    · next hstart =>
      obtain ⟨first, hfirst⟩ := Subject.exists_toByte (Nat.le_of_not_le hstart)
      -- each answer is one of a pattern of the group, and is a match
      have hreports : ∀ {b} {x : P × Nat} {y : Nat × ByteRanges}, x ∈ ps.zipIdx →
          (attempt x.1 t.text first b).map (fun ranges => (x.2, ranges)) = some y →
          IsBoundary t.text b ∧ ((Match.ofBytes t y.2).map fun m => (y.1, m)).isSome := by
        intro b x y hx hy
        have hp := hps _ (List.fst_mem_of_mem_zipIdx hx)
        obtain ⟨ranges, hranges, rfl⟩ := Option.map_eq_some_iff.1 hy
        exact ⟨hp.isBoundary hranges, by simpa using hp.isSome_ofBytes hranges⟩
      have hanswer : ∀ {b} {y : Nat × ByteRanges}, (ps.zipIdx.findSome? fun x =>
          (attempt x.1 t.text first b).map fun ranges => (x.2, ranges)) = some y →
          IsBoundary t.text b ∧ ((Match.ofBytes t y.2).map fun m => (y.1, m)).isSome := by
        intro b y hy
        obtain ⟨x, hx, hy⟩ := List.exists_of_findSome?_eq_some hy
        exact hreports hx hy
      rw [hfirst, Option.bind_some, htries.findAny, firstOffset,
        ← firstFrom_bind fun _ _ hy => (hanswer hy).2]
      refine Subject.firstOffset_eq (fun {i b} hi => ?_) (fun {b y} hy => ?_) hfirst
      · rw [PatternGroup.firstMatch_eq, ← findSome?_bind fun x hx y hy => (hreports hx hy).2]
        congr
        funext x
        rw [decoded_attempt hfirst hi]
        cases attempt x.1 t.text first b <;> rfl
      · obtain ⟨y', hy', _⟩ := Option.bind_eq_some_iff.1 hy
        exact (hanswer hy').1

end ByteEngine

end

/-! ## An engine as a library -/

def Match.toBytes (t : Subject) (m : Match) : ByteRanges :=
  m.groups.map fun range => range.bind fun (a, b) =>
    (t.toByte a).bind fun x => (t.toByte b).map fun y => (x, y)

namespace Engine

variable {P : Type}

/-- What an engine gives at an offset. Nothing is tried inside a character. -/
def byteAttempt (engine : Engine P) : ByteAttempt P := fun p s start offset =>
  let t := Subject.ofString s
  if t.toByte (t.toChar offset) = some offset then
    (engine.attempt p t (t.toChar start) (t.toChar offset)).map (Match.toBytes t)
  else none

/-- The engine on the UTF-8 form of texts. -/
def encoded (engine : Engine P) : ByteEngine P where
  compile := engine.compile
  find p s start := firstOffset s start (engine.byteAttempt p s start)
  matchHere p s offset := engine.byteAttempt p s offset offset
  findAny ps s start := firstOffset s start fun offset => ps.zipIdx.findSome? fun x =>
    (engine.byteAttempt x.1 s start offset).map fun ranges => (x.2, ranges)

theorem encoded_tries (engine : Engine P) : engine.encoded.Tries engine.byteAttempt :=
  ⟨fun _ _ _ => rfl, fun _ _ _ => rfl, fun _ _ _ => rfl⟩

end Engine

theorem Subject.text_ofString (s : String) : (ofString s).text = s := String.ofList_toList

section

variable {P : Type} {engine : Engine P} {p : P} {ps : List P} {t : Subject} {m : Match} {pos : Nat}

theorem Match.PlacedAt.exists_toByte (h : m.PlacedAt pos t.length) {range : Nat × Nat}
    (hrange : some range ∈ m.groups) :
    ∃ x y, t.toByte range.1 = some x ∧ t.toByte range.2 = some y ∧ x ≤ y := by
  obtain ⟨i, hi⟩ := List.mem_iff_getElem?.1 hrange
  have hle := h.range_le (i := i) (by rw [group?, hi]; rfl)
  obtain ⟨x, hx⟩ := Subject.exists_toByte (Nat.le_trans hle.1 hle.2)
  obtain ⟨y, hy⟩ := Subject.exists_toByte hle.2
  exact ⟨x, y, hx, hy, (Subject.toByte_le_iff hx hy).2 hle.1⟩

/-- A match whose groups are ranges of the text comes back from its form in bytes. -/
theorem Match.ofBytes_toBytes (h : m.PlacedAt pos t.length) : ofBytes t (m.toBytes t) = some m := by
  have hrange : ∀ range ∈ m.groups, Option.map (fun (a, b) => (t.toChar a, t.toChar b))
      (range.bind fun (a, b) => (t.toByte a).bind fun x => (t.toByte b).map fun y => (x, y)) =
        range := by
    rintro (_ | range) hmem
    · rfl
    · obtain ⟨x, y, hx, hy, _⟩ := h.exists_toByte hmem
      simp [hx, hy, Subject.toChar_of_toByte hx, Subject.toChar_of_toByte hy]
  have hgroups : (m.toBytes t).map (fun range => range.map fun (a, b) =>
      (t.toChar a, t.toChar b)) = m.groups := by
    rw [toBytes, List.map_map]
    exact (List.map_congr_left hrange).trans (List.map_id' _)
  have hwhole := h.whole
  rw [group?, ← List.head?_eq_getElem?] at hwhole
  rw [ofBytes, hgroups, hwhole]
  rfl

namespace Engine

theorem reports_byteAttempt (hp : engine.Places p) : engine.byteAttempt.Reports p := by
  have hplaced : ∀ {s start offset ranges}, engine.byteAttempt p s start offset = some ranges →
      ∃ (m : Match) (pos : Nat), (Subject.ofString s).toByte pos = some offset ∧
        m.PlacedAt pos (Subject.ofString s).length ∧ ranges = m.toBytes (.ofString s) := by
    intro s start offset ranges h
    rw [byteAttempt] at h
    split at h
    · next hoffset =>
      obtain ⟨m, hm, rfl⟩ := Option.map_eq_some_iff.1 h
      exact ⟨m, _, hoffset, hp (Subject.le_length_of_toByte hoffset) hm, rfl⟩
    · cases h
  constructor
  · intro s start offset ranges h
    obtain ⟨m, pos, hpos, hm, rfl⟩ := hplaced h
    have hhead := hm.whole
    rw [Match.group?, ← List.head?_eq_getElem?, Option.join_eq_some_iff] at hhead
    obtain ⟨x, y, hx, hy, _⟩ := hm.exists_toByte (List.mem_of_mem_head? hhead)
    rw [hm.start_eq, hpos] at hx
    cases hx
    exact ⟨y, by simp [Match.toBytes, hhead, hm.start_eq, hpos, hy]⟩
  · intro s start offset ranges a b h hmem
    obtain ⟨m, pos, -, hm, rfl⟩ := hplaced h
    obtain ⟨_ | range, hgroup, hrange⟩ := List.mem_map.1 hmem
    · cases hrange
    · obtain ⟨x, y, hx, hy, hle⟩ := hm.exists_toByte hgroup
      simp only [Option.bind_some, hx, hy, Option.map_some, Option.some.injEq] at hrange
      cases hrange
      rw [← Subject.text_ofString s]
      exact ⟨hle, Subject.isBoundary_iff.2 ⟨_, hx⟩, Subject.isBoundary_iff.2 ⟨_, hy⟩⟩

theorem decoded_encoded_attempt (hp : engine.Places p) {s : String} {start : Nat}
    (hstart : start ≤ (Subject.ofString s).length) (hpos : pos ≤ (Subject.ofString s).length) :
    (engine.encoded.decoded engine.byteAttempt).attempt p (.ofString s) start pos =
      engine.attempt p (.ofString s) start pos := by
  obtain ⟨first, hfirst⟩ := Subject.exists_toByte hstart
  obtain ⟨offset, hoffset⟩ := Subject.exists_toByte hpos
  rw [ByteEngine.decoded_attempt hfirst hoffset, Subject.text_ofString, byteAttempt]
  rw [Subject.toChar_of_toByte hoffset, Subject.toChar_of_toByte hfirst, if_pos hoffset]
  cases hm : engine.attempt p (.ofString s) start pos with
  | none => rfl
  | some m => exact Match.ofBytes_toBytes (hp hpos hm)

/-- On the UTF-8 form of a text an engine finds what it finds by itself. -/
theorem searches_encoded (hps : ∀ p ∈ ps, engine.Places p) (s : String) (start : Nat) :
    engine.encoded.searchGroup ⟨ps⟩ (.ofString s) start =
        (PatternGroup.mk ps).search engine (.ofString s) start ∧
      ∀ p ∈ ps, engine.encoded.search p (.ofString s) start = engine.search p (.ofString s) start ∧
        engine.encoded.matchAt p (.ofString s) start = engine.matchAt p (.ofString s) start := by
  have hreports : ∀ p ∈ ps, engine.byteAttempt.Reports p := fun p hp =>
    reports_byteAttempt (hps p hp)
  refine ⟨?_, fun p hp => ⟨?_, ?_⟩⟩
  · rw [ByteEngine.searchGroup_eq engine.encoded_tries hreports, PatternGroup.search_eq,
      PatternGroup.search_eq]
    split
    · rfl
    · refine firstFrom_congr fun pos hlow hhigh => PatternGroup.firstMatch_congr fun p hp => ?_
      exact decoded_encoded_attempt (hps p hp) (by omega) (by omega)
  · rw [ByteEngine.search_eq engine.encoded_tries (hreports p hp), search, search]
    split
    · rfl
    · refine firstFrom_congr fun pos hlow hhigh => ?_
      exact decoded_encoded_attempt (hps p hp) (by omega) (by omega)
  · rw [ByteEngine.matchAt_eq engine.encoded_tries, matchAt, matchAt]
    split
    · rfl
    · exact decoded_encoded_attempt (hps p hp) (by omega) (by omega)

end Engine

end

end ScopeGrammar
