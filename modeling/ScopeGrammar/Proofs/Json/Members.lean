import Mathlib.Algebra.Group.Int.Defs
import Mathlib.Data.List.Nodup
import ScopeGrammar.Proofs.Json.Numerals
import ScopeGrammar.Proofs.Json.Records

/-!
# ScopeGrammar.Proofs.Json.Members

Objects that write a record, and what is read from them.

* `Json.ofInt` : a whole number, `Json.spells_ofInt` : its text.
* `Json.FieldForm` : the ways to write a field, `Json.WritesRecord` : those to write a record.
  Members may stand in any order, with unknown ones between them.
* `Json.record_members` : a record is read when each of its fields is.
* `Json.list_of_items`, `Json.dict_of_entries` : the same for the elements of a list and the entries
  of a dictionary.
-/

namespace ScopeGrammar.Json

variable {α β γ : Type}

/-- An object of these members. -/
def ofMembers (ms : List (String × Json)) : Json := .object (ms.map fun m => (.ok m.1, m.2)) none

/-- A whole number. -/
def ofInt : Int → Json
  | .ofNat n => .number (.ok (.natural n))
  | .negSucc n => .number (.ok (.negative (n + 1)))

/-- It is the value of its decimal digits. -/
theorem spells_ofInt {i : Int} (hlow : -2 ^ 63 ≤ i) (hhigh : i < 2 ^ 64) :
    Spells (.value (ofInt i))
      ((if i < 0 then ['-'] else []) ++ Nat.toDigits 10 i.natAbs) := by
  cases i with
  | ofNat n =>
    have h := Spells.number (Numeral.spells_integer false n)
    have hn : (n : Int) < 2 ^ 64 := hhigh
    rw [Numeral.value_natural (by omega)] at h
    rwa [if_neg (Int.not_lt.2 (Int.natCast_nonneg n) : ¬Int.ofNat n < 0)]
  | negSucc n =>
    have h := Spells.number (Numeral.spells_integer true (n + 1))
    rw [Numeral.value_negative (Nat.succ_pos n) (by omega)] at h
    simpa [ofInt, Int.negSucc_lt_zero] using h

/-! ## Forms -/

/-- How a field is written: the values that stand for it, and whether it may be left out. -/
structure FieldForm where
  key : String
  Omittable : Prop
  Shows : Json → Prop

namespace FieldForm

def text (key s : String) : FieldForm where
  key
  Omittable := s = ""
  Shows v := v = .text (.ok s)

def optional (key : String) (s : Option String) : FieldForm where
  key
  Omittable := s = none
  Shows v := v = s.elim .null fun s => .text (.ok s)

def flag (key : String) (b : Bool) : FieldForm where
  key
  Omittable := b = false
  Shows v := v = .bool b ∨ ∃ i : Int, -2 ^ 63 ≤ i ∧ i < 2 ^ 63 ∧ v = ofInt i ∧ b = (i != 0)

/-- An empty list is left out. -/
def items (key : String) (S : β → Json → Prop) (l : List β) : FieldForm where
  key
  Omittable := l = []
  Shows v := l ≠ [] ∧ ∃ vs, v = .array vs none ∧ List.Forall₂ S l vs

/-- The entries stand in any order; with no entries the field is left out. -/
def entries (key : String) (S : β → Json → Prop) (l : List (String × β)) : FieldForm where
  key
  Omittable := l = []
  Shows v := l ≠ [] ∧ ∃ ordered ms, l.Perm ordered ∧ v = ofMembers ms ∧
    List.Forall₂ (fun e m => e.1 = m.1 ∧ S e.2 m.2) ordered ms

end FieldForm

/-- The members write a record: each field comes once or is left out. Other members do not count. -/
structure WritesRecord (forms : List FieldForm) (ms : List (String × Json)) : Prop where
  once : ((ms.map (·.1)).filter (· ∈ forms.map (·.key))).Nodup
  fields : ∀ f ∈ forms,
    (∃ v, (f.key, v) ∈ ms ∧ f.Shows v) ∨ f.Omittable ∧ f.key ∉ ms.map (·.1)

/-- What the members have for a field: every value under its key is read as `b`, which is the
default if there is none. -/
structure Fits (ms : List (String × Json)) (depth : Nat) (key : String) (read : Reader β)
    (default b : β) : Prop where
  shown : ∀ v, (key, v) ∈ ms → read depth v = .ok b
  absent : key ∉ ms.map (·.1) → b = default

theorem WritesRecord.unique {forms : List FieldForm} {ms : List (String × Json)}
    (h : WritesRecord forms ms) {f : FieldForm} (hf : f ∈ forms) {v w : Json}
    (hv : (f.key, v) ∈ ms) (hw : (f.key, w) ∈ ms) : v = w := by
  have honce := h.once
  rw [List.filter_map] at honce
  have hkept : ∀ {u : Json}, (f.key, u) ∈ ms → (f.key, u) ∈
      ms.filter ((fun key => decide (key ∈ forms.map (·.key))) ∘ (·.1)) :=
    fun hu => List.mem_filter.2 ⟨hu, decide_eq_true (List.mem_map_of_mem hf)⟩
  have heq := List.inj_on_of_nodup_map honce (hkept hv) (hkept hw) rfl
  exact congrArg Prod.snd heq

section

variable {forms : List FieldForm} {ms : List (String × Json)} {depth : Nat} {f : FieldForm}
  {read : Reader β} {default : β}

theorem WritesRecord.exists_fits (h : WritesRecord forms ms) (hf : f ∈ forms) {Q : β → Prop}
    (hshown : ∀ v, f.Shows v → ∃ b, read depth v = .ok b ∧ Q b)
    (hdefault : f.Omittable → Q default) : ∃ b, Fits ms depth f.key read default b ∧ Q b := by
  obtain ⟨v, hv, hshows⟩ | ⟨homitted, hkey⟩ := h.fields f hf
  · obtain ⟨b, hb, hQ⟩ := hshown v hshows
    refine ⟨b, ⟨fun w hw => h.unique hf hv hw ▸ hb, fun hkey => ?_⟩, hQ⟩
    exact absurd (List.mem_map_of_mem hv) hkey
  · refine ⟨default, ⟨fun w hw => ?_, fun _ => rfl⟩, hdefault homitted⟩
    exact absurd (List.mem_map_of_mem hw) hkey

theorem WritesRecord.fits (h : WritesRecord forms ms) (hf : f ∈ forms) {b : β}
    (hshown : ∀ v, f.Shows v → read depth v = .ok b) (hdefault : f.Omittable → b = default) :
    Fits ms depth f.key read default b := by
  obtain ⟨_, hfits, rfl⟩ := h.exists_fits hf (Q := (· = b)) (fun v hv => ⟨b, hshown v hv, rfl⟩)
    fun homitted => (hdefault homitted).symm
  exact hfits

end

section

variable {forms : List FieldForm} {ms : List (String × Json)} {depth : Nat} {key : String}

theorem WritesRecord.fits_text (h : WritesRecord forms ms) {s : String}
    (hf : FieldForm.text key s ∈ forms) : Fits ms depth key string "" s := by
  refine h.fits hf ?_ id
  rintro v rfl
  rfl

theorem WritesRecord.fits_optional (h : WritesRecord forms ms) {s : Option String}
    (hf : FieldForm.optional key s ∈ forms) : Fits ms depth key (optional string) none s := by
  refine h.fits hf ?_ id
  rintro v rfl
  cases s <;> rfl

theorem flag_ofInt {i : Int} (h : i < 2 ^ 63) : flag depth (ofInt i) = .ok (i != 0) := by
  cases i with
  | ofNat n =>
    have hn : (n : Int) < 2 ^ 63 := h
    have hn : n < 2 ^ 63 := by omega
    rw [ofInt, flag, if_pos (show n < Nat.pow 2 63 from hn)]
    cases n <;> rfl
  | negSucc n => rfl

theorem WritesRecord.fits_flag (h : WritesRecord forms ms) {b : Bool}
    (hf : FieldForm.flag key b ∈ forms) : Fits ms depth key flag false b := by
  refine h.fits hf ?_ id
  rintro v (rfl | ⟨i, _, hi, rfl, rfl⟩)
  · rfl
  · exact flag_ofInt hi

end

/-- The members of one field: none, or one with a value that stands for it. -/
def FieldForm.Writes (f : FieldForm) (ms : List (String × Json)) : Prop :=
  (∃ v, ms = [(f.key, v)] ∧ f.Shows v) ∨ ms = [] ∧ f.Omittable

theorem sublist_keys {forms : List FieldForm} {parts : List (List (String × Json))}
    (h : List.Forall₂ FieldForm.Writes forms parts) :
    (parts.flatten.map (·.1)).Sublist (forms.map (·.key)) := by
  induction h with
  | nil => exact .slnil
  | @cons f part forms parts hf _ ih =>
    rw [List.flatten_cons, List.map_append]
    obtain ⟨v, rfl, _⟩ | ⟨rfl, _⟩ := hf
    · exact ih.cons_cons f.key
    · exact ih.cons f.key

/-- Fields that are written one after the other. -/
theorem WritesRecord.of_parts {forms : List FieldForm} {parts : List (List (String × Json))}
    (h : List.Forall₂ FieldForm.Writes forms parts) (hnodup : (forms.map (·.key)).Nodup) :
    WritesRecord forms parts.flatten := by
  refine ⟨((sublist_keys h).nodup hnodup).filter _, ?_⟩
  induction h with
  | nil => exact List.forall_mem_nil _
  | @cons f part forms parts hf hparts ih =>
    obtain ⟨hfirst, hnodup⟩ := List.nodup_cons.1 hnodup
    have hlater : f.key ∉ parts.flatten.map (·.1) :=
      fun h => hfirst ((sublist_keys hparts).subset h)
    have hother : ∀ g ∈ forms, g.key ∉ part.map (·.1) := by
      intro g hg hmem
      have hkey : g.key = f.key := by
        obtain ⟨v, rfl, _⟩ | ⟨rfl, _⟩ := hf
        · simpa using hmem
        · simp at hmem
      exact hfirst (List.mem_map.2 ⟨g, hg, hkey⟩)
    simp only [List.flatten_cons, List.map_append, List.mem_append, not_or]
    refine List.forall_mem_cons.2 ⟨?_, fun g hg => ?_⟩
    · obtain ⟨v, rfl, hv⟩ | ⟨rfl, homitted⟩ := hf
      · exact .inl ⟨v, .inl List.mem_cons_self, hv⟩
      · exact .inr ⟨homitted, List.not_mem_nil, hlater⟩
    · obtain ⟨v, hv, hshows⟩ | ⟨homitted, hkey⟩ := ih hnodup g hg
      · exact .inl ⟨v, .inr hv, hshows⟩
      · exact .inr ⟨homitted, hother g hg, hkey⟩

/-- Members may be put in another order, and ones with unknown keys may be added. -/
theorem WritesRecord.add {forms : List FieldForm} {ms ms' others : List (String × Json)}
    (h : WritesRecord forms ms) (hothers : ∀ m ∈ others, m.1 ∉ forms.map (·.key))
    (hperm : ms'.Perm (ms ++ others)) : WritesRecord forms ms' := by
  have hunknown : (others.map (·.1)).filter (· ∈ forms.map (·.key)) = [] := by
    refine List.filter_eq_nil_iff.2 fun key hkey => ?_
    obtain ⟨m, hm, rfl⟩ := List.mem_map.1 hkey
    simpa using hothers m hm
  refine ⟨?_, fun f hf => ?_⟩
  · rw [((hperm.map _).filter _).nodup_iff, List.map_append, List.filter_append, hunknown,
      List.append_nil]
    exact h.once
  · obtain ⟨v, hv, hshows⟩ | ⟨homitted, hkey⟩ := h.fields f hf
    · exact .inl ⟨v, hperm.mem_iff.2 (List.mem_append_left _ hv), hshows⟩
    · refine .inr ⟨homitted, fun hmem => ?_⟩
      rw [(hperm.map _).mem_iff, List.map_append, List.mem_append] at hmem
      obtain hmem | hmem := hmem
      · exact hkey hmem
      · obtain ⟨m, hm, heq⟩ := List.mem_map.1 hmem
        exact hothers m hm (heq ▸ List.mem_map.2 ⟨f, hf, rfl⟩)

/-! ## Reading a record -/

section

variable {fields : List (RecordField α)} {ms : List (String × Json)} {depth : Nat}
  {only : List String → α}

/-- The members give a field its value: `only seen` is the record with no fields but those in
`seen`. -/
structure Fills (ms : List (String × Json)) (depth : Nat) (only : List String → α)
    (f : RecordField α) : Prop where
  shown : ∀ v seen, (f.1, v) ∈ ms → f.2 depth v (only seen) = .ok (only (f.1 :: seen))
  absent : f.1 ∉ ms.map (·.1) → ∀ seen, only (f.1 :: seen) = only seen

theorem Fits.fills {key : String} {read : Reader β} {default b : β} {set : β → α → α}
    (h : Fits ms depth key read default b) (hset : ∀ seen, set b (only seen) = only (key :: seen))
    (hdefault : b = default → ∀ seen, only (key :: seen) = only seen) :
    Fills ms depth only (field key read set) where
  shown v seen hv := map_eq_ok.2 ⟨b, h.shown v hv, hset seen⟩
  absent hkey := hdefault (h.absent hkey)

theorem lookup_isSome {key : String} (h : key ∈ fields.map (·.1)) :
    ∃ read, fields.lookup key = some read := by
  cases hlookup : fields.lookup key with
  | some read => exact ⟨read, rfl⟩
  | none =>
    obtain ⟨f, hf, rfl⟩ := List.mem_map.1 h
    exact absurd (List.lookup_eq_none_iff.1 hlookup f hf) (by simp)

theorem lookup_eq_none {key : String} (h : key ∉ fields.map (·.1)) : fields.lookup key = none := by
  refine List.lookup_eq_none_iff.2 fun f hf => bne_iff_ne.2 fun heq => h ?_
  exact List.mem_map.2 ⟨f, hf, heq.symm⟩

/-- Every member gives its field the value, or is passed over. -/
theorem readFields_members (hfills : ∀ f ∈ fields, Fills ms depth only f)
    {rest : List (String × Json)} {seen : List String} (hrest : rest ⊆ ms)
    (honce : ((rest.map (·.1)).filter (· ∈ fields.map (·.1))).Nodup)
    (hnew : ∀ key ∈ seen, key ∉ rest.map (·.1)) :
    ∃ seen', readFields fields false depth seen (only seen) (rest.map fun m => (.ok m.1, m.2)) =
      .ok (seen', only seen') ∧
      ∀ f ∈ fields, f.1 ∈ seen ∨ f.1 ∈ rest.map (·.1) → f.1 ∈ seen' := by
  -- The record that is read so far is always the one with the fields seen so far.
  induction rest generalizing seen with
  | nil => exact ⟨seen, rfl, fun f _ h => h.resolve_right List.not_mem_nil⟩
  | cons m rest ih =>
    obtain ⟨key, v⟩ := m
    obtain ⟨hm, hrest⟩ := List.cons_subset.1 hrest
    have hlater : ∀ k ∈ seen, k ∉ rest.map (·.1) :=
      fun k hk hmem => hnew k hk (List.mem_cons_of_mem _ hmem)
    rw [List.map_cons, List.filter_cons] at honce
    by_cases hknown : key ∈ fields.map (·.1)
    · rw [if_pos (by simpa using hknown)] at honce
      obtain ⟨hfirst, honce⟩ := List.nodup_cons.1 honce
      obtain ⟨read, hlookup⟩ := lookup_isSome hknown
      have hread := (hfills _ (mem_of_lookup hlookup)).shown v seen hm
      have hunseen : key ∉ seen := fun hmem => hnew key hmem List.mem_cons_self
      rw [List.map_cons, readFields_known hlookup hunseen hread]
      obtain ⟨seen', heq, hall⟩ := ih hrest honce <|
        List.forall_mem_cons.2
          ⟨fun hmem => hfirst (List.mem_filter.2 ⟨hmem, decide_eq_true hknown⟩), hlater⟩
      refine ⟨seen', heq, fun f hf h => hall f hf ?_⟩
      obtain h | h := h
      · exact .inl (List.mem_cons_of_mem _ h)
      · obtain h | h := List.mem_cons.1 h
        · exact .inl (h ▸ List.mem_cons_self)
        · exact .inr h
    · rw [if_neg (by simpa using hknown)] at honce
      rw [List.map_cons, readFields_unknown (lookup_eq_none hknown)]
      obtain ⟨seen', heq, hall⟩ := ih hrest honce hlater
      refine ⟨seen', heq, fun f hf h => hall f hf (h.imp_right fun h => ?_)⟩
      exact (List.mem_cons.1 h).resolve_left fun heq => hknown (List.mem_map.2 ⟨f, hf, heq⟩)

/-- Fields that are left out have their default anyway. -/
theorem only_absent (hfills : ∀ f ∈ fields, Fills ms depth only f) (fs : List (RecordField α))
    (hfs : fs ⊆ fields) (habsent : ∀ f ∈ fs, f.1 ∉ ms.map (·.1)) (seen : List String) :
    only (fs.map (·.1) ++ seen) = only seen := by
  induction fs with
  | nil => rfl
  | cons f fs ih =>
    obtain ⟨hf, hfs⟩ := List.cons_subset.1 hfs
    obtain ⟨hfirst, habsent⟩ := List.forall_mem_cons.1 habsent
    rw [List.map_cons, List.cons_append, (hfills f hf).absent hfirst, ih hfs habsent]

theorem record_members (hfills : ∀ f ∈ fields, Fills ms depth only f)
    (honce : ((ms.map (·.1)).filter (· ∈ fields.map (·.1))).Nodup) {a : α}
    (hall : ∀ seen, (∀ f ∈ fields, f.1 ∈ seen) → only seen = a) (hdepth : 0 < depth) :
    record fields false false (only []) (depth + 1) (ofMembers ms) = .ok a := by
  obtain ⟨seen, hread, hseen⟩ :=
    readFields_members hfills (List.Subset.refl ms) honce (List.forall_mem_nil _)
  -- The fields that were not seen have their defaults, so they may be counted as seen.
  have hvalue : only seen = a := by
    have hmissing := only_absent hfills (fields.filter fun f => f.1 ∉ ms.map (·.1))
      (List.filter_subset_self _) (fun f hf => by simpa using (List.mem_filter.1 hf).2) seen
    rw [← hmissing]
    refine hall _ fun f hf => List.mem_append.2 ?_
    by_cases hkey : f.1 ∈ ms.map (·.1)
    · exact .inr (hseen f hf (.inr hkey))
    · exact .inl (List.mem_map_of_mem (List.mem_filter.2 ⟨hf, decide_eq_true hkey⟩))
  rw [← hvalue]
  exact record_object false hdepth hread nofun

end

/-! ## Reading lists and dictionaries -/

/-- What is written for each element is read as something. -/
theorem forall₂_exists {l : List α} {ms : List β} {R : α → β → Prop} {P : β → γ → Prop}
    {Q : α → γ → Prop} (h : List.Forall₂ R l ms)
    (hstep : ∀ a ∈ l, ∀ b, R a b → ∃ c, P b c ∧ Q a c) :
    ∃ cs, List.Forall₂ P ms cs ∧ List.Forall₂ Q l cs := by
  induction h with
  | nil => exact ⟨[], .nil, .nil⟩
  | cons hR _ ih =>
    obtain ⟨hfirst, hlater⟩ := List.forall_mem_cons.1 hstep
    obtain ⟨c, hP, hQ⟩ := hfirst _ hR
    obtain ⟨cs, hPs, hQs⟩ := ih hlater
    exact ⟨c :: cs, .cons hP hPs, .cons hQ hQs⟩

section

variable {depth : Nat} {key : String} {S : β → Json → Prop} {T : β → γ → Prop} {read : Reader γ}
  {v : Json}

theorem list_of_items {l : List β} (hv : (FieldForm.items key S l).Shows v) (hdepth : 0 < depth)
    (hread : ∀ b ∈ l, ∀ j, S b j → ∃ c, read depth j = .ok c ∧ T b c) :
    ∃ l', list read (depth + 1) v = .ok l' ∧ List.Forall₂ T l l' := by
  obtain ⟨_, vs, rfl, hvs⟩ := hv
  obtain ⟨l', hl', hT⟩ := forall₂_exists hvs hread
  exact ⟨l', list_eq_ok_iff.2 ⟨depth, vs, rfl, hdepth, rfl, hl'⟩, hT⟩

/-- Adding an entry with a new key adds it and changes nothing else. -/
def AddsEntries (insert : String → γ → List (String × γ) → List (String × γ)) : Prop :=
  ∀ key c l, key ∉ l.map (·.1) → (insert key c l).Perm ((key, c) :: l)

theorem AddsEntries.foldlM {insert : String → γ → List (String × γ) → List (String × γ)}
    (hinsert : AddsEntries insert) {ms : List (String × Json)} {es : List (String × γ)}
    (acc : List (String × γ))
    (hread : List.Forall₂ (fun m e => m.1 = e.1 ∧ read depth m.2 = .ok e.2) ms es)
    (hnodup : (es.map (·.1)).Nodup) (hnew : ∀ e ∈ es, e.1 ∉ acc.map (·.1)) :
    ∃ l, (ms.map fun m => ((.ok m.1, m.2) : Except Fault String × Json)).foldlM
        (fun l (key, value) => do
          let k ← key
          let c ← read depth value
          .ok (insert k c l)) acc = .ok l ∧ l.Perm (es ++ acc) := by
  induction hread generalizing acc with
  | nil => exact ⟨acc, rfl, .refl _⟩
  | @cons m e ms es hm _ ih =>
    obtain ⟨hkey, hvalue⟩ := hm
    obtain ⟨hfirst, hnodup⟩ := List.nodup_cons.1 hnodup
    obtain ⟨hnewFirst, hnew⟩ := List.forall_mem_cons.1 hnew
    have hadded := hinsert e.1 e.2 acc hnewFirst
    have hnew' : ∀ e' ∈ es, e'.1 ∉ (insert e.1 e.2 acc).map (·.1) := by
      intro e' he' hmem
      rw [(hadded.map _).mem_iff, List.map_cons, List.mem_cons] at hmem
      obtain heq | hmem := hmem
      · exact hfirst (List.mem_map.2 ⟨e', he', heq⟩)
      · exact hnew e' he' hmem
    obtain ⟨l, hl, hperm⟩ := ih _ hnodup hnew'
    refine ⟨l, ?_, (hperm.trans (hadded.append_left es)).trans List.perm_middle⟩
    rw [List.map_cons, List.foldlM_cons, hkey]
    dsimp only
    rw [ok_bind, hvalue, ok_bind, ok_bind]
    exact hl

/-- A dictionary without repeated keys is read entry by entry; the result has them in some order. -/
theorem dict_of_entries {insert : String → γ → List (String × γ) → List (String × γ)}
    (hinsert : AddsEntries insert) {l : List (String × β)} (hnodup : (l.map (·.1)).Nodup)
    (hv : (FieldForm.entries key S l).Shows v) (hdepth : 0 < depth)
    (hread : ∀ e ∈ l, ∀ j, S e.2 j → ∃ c, read depth j = .ok c ∧ T e.2 c) :
    ∃ ordered es l', dict insert read (depth + 1) v = .ok l' ∧ l.Perm ordered ∧ l'.Perm es ∧
      List.Forall₂ (fun e e' => e.1 = e'.1 ∧ T e.2 e'.2) ordered es := by
  obtain ⟨_, ordered, ms, hperm, rfl, hms⟩ := hv
  have hstep : ∀ e ∈ ordered, ∀ m : String × Json, e.1 = m.1 ∧ S e.2 m.2 →
      ∃ e' : String × γ, (m.1 = e'.1 ∧ read depth m.2 = .ok e'.2) ∧ e.1 = e'.1 ∧ T e.2 e'.2 := by
    rintro e he m ⟨hkey, hS⟩
    obtain ⟨c, hc, hT⟩ := hread e (hperm.mem_iff.2 he) m.2 hS
    exact ⟨(m.1, c), ⟨rfl, hc⟩, hkey, hT⟩
  obtain ⟨es, hes, hT⟩ := forall₂_exists hms hstep
  have hkeys : (es.map (·.1)).Nodup := by
    have heq : ordered.map (·.1) = es.map (·.1) := by
      rw [← List.forall₂_eq_eq_eq, List.forall₂_map_left_iff, List.forall₂_map_right_iff]
      exact hT.imp fun _ _ h => h.1
    rw [← heq]
    exact (hperm.map _).nodup_iff.1 hnodup
  obtain ⟨l', hl', hperm'⟩ := hinsert.foldlM [] hes hkeys fun _ _ => List.not_mem_nil
  rw [List.append_nil] at hperm'
  refine ⟨ordered, es, l', ?_, hperm, hperm', hT⟩
  rw [ofMembers, dict, enter_eq_ok.2 ⟨rfl, hdepth⟩, ok_bind]
  exact bind_eq_ok.2 ⟨l', hl', rfl⟩

end

end ScopeGrammar.Json
