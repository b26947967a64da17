import Mathlib.Data.List.Perm.Subperm
import ScopeGrammar.Json.Decode
import ScopeGrammar.Proofs.Json.Documents

/-!
# ScopeGrammar.Proofs.Json.Records

What reading a record does, whatever the record is.

* `Json.FieldAt` : where the value of a field stands.
* `Json.record_induct` : what holds of the defaults and is kept by every field holds of a record that
  is read; a record that has to be complete has all fields.
* `Json.readFields_known`, `Json.readFields_unknown` : what is done with one member of an object.
-/

namespace ScopeGrammar.Json

variable {α : Type} {fields : List (RecordField α)}

/-- The value of a field: it stands under its name or at its place. -/
inductive FieldAt (fields : List (RecordField α)) : Json → String → Json → Prop
  | member {members : List (Except Fault String × Json)} {stop : Option Fault} {key : String}
    {v : Json} : (.ok key, v) ∈ members → FieldAt fields (.object members stop) key v
  | place {items : List Json} {stop : Option Fault} {i : Nat} {field : RecordField α} {v : Json} :
    fields[i]? = some field → items[i]? = some v → FieldAt fields (.array items stop) field.1 v

theorem FieldAt.spells {j v : Json} {key : String} {cs : List Char} (h : FieldAt fields j key v)
    (hj : Spells (.value j) cs) : ∃ cs, Spells (.value v) cs := by
  cases h with
  | member hm => exact hj.of_object.2 _ hm
  | place _ hv => exact hj.of_array.2 _ (List.mem_of_getElem? hv)

theorem mem_of_lookup {key : String} {read : Nat → Json → α → Except Fault α}
    (h : fields.lookup key = some read) : (key, read) ∈ fields := by
  obtain ⟨before, after, hfields, _⟩ := List.lookup_eq_some_iff.1 h
  simp [hfields]

/-! ## Lists -/

theorem mapM_eq_ok_iff {β : Type} {f : β → Except Fault α} {items : List β} {values : List α} :
    items.mapM f = .ok values ↔ List.Forall₂ (fun j v => f j = .ok v) items values := by
  induction items generalizing values with
  | nil =>
    rw [List.mapM_nil, List.forall₂_nil_left_iff]
    constructor
    · rintro ⟨⟩
      rfl
    · rintro rfl
      rfl
  | cons j items ih =>
    rw [List.mapM_cons, bind_eq_ok, List.forall₂_cons_left_iff]
    constructor
    · rintro ⟨v, hv, h⟩
      obtain ⟨values, hvalues, heq⟩ := bind_eq_ok.1 h
      cases heq
      exact ⟨v, values, hv, ih.1 hvalues, rfl⟩
    · rintro ⟨v, values, hv, hvalues, rfl⟩
      exact ⟨v, hv, bind_eq_ok.2 ⟨values, ih.2 hvalues, rfl⟩⟩

theorem enter_eq_ok {depth inner : Nat} : enter depth = .ok inner ↔ depth = inner + 1 ∧ 0 < inner := by
  rw [enter]
  split
  · simp
    omega
  · simp
    omega

theorem ending_eq_ok {stop : Option Fault} {u : Unit} : ending stop = .ok u ↔ stop = none := by
  cases stop <;> simp [ending]

/-- A list is read from an array, each element at one level less. -/
theorem list_eq_ok_iff {read : Reader α} {depth : Nat} {j : Json} {values : List α} :
    list read depth j = .ok values ↔
      ∃ inner items, depth = inner + 1 ∧ 0 < inner ∧ j = .array items none ∧
        List.Forall₂ (fun j v => read inner j = .ok v) items values := by
  constructor
  · intro h
    unfold list at h
    split at h
    · next items stop =>
      obtain ⟨inner, henter, h⟩ := bind_eq_ok.1 h
      obtain ⟨values', hvalues, h⟩ := bind_eq_ok.1 h
      obtain ⟨⟨⟩, hstop, heq⟩ := bind_eq_ok.1 h
      cases heq
      rw [ending_eq_ok.1 hstop]
      obtain ⟨hdepth, hinner⟩ := enter_eq_ok.1 henter
      exact ⟨inner, items, hdepth, hinner, rfl, mapM_eq_ok_iff.1 hvalues⟩
    · cases h
  · rintro ⟨inner, items, rfl, hinner, rfl, hvalues⟩
    rw [list, enter_eq_ok.2 ⟨rfl, hinner⟩, ok_bind, mapM_eq_ok_iff.2 hvalues]
    rfl

/-- A text is read as what its tree is read as. -/
theorem readDocument_eq_ok_iff {read : Reader α} {s : String} {a : α} :
    readDocument read (Document.ofString s) = .ok a ↔
      ∃ j, Document.Spells j s.toList ∧ read depthLimit j = .ok a := by
  constructor
  · intro h
    obtain ⟨a', hread, hend⟩ := bind_eq_ok.1 h
    obtain ⟨_, hending, heq⟩ := bind_eq_ok.1 hend
    cases heq
    exact ⟨_, Document.ofString_eq_iff.1 (congrArg (Document.mk _) (ending_eq_ok.1 hending)), hread⟩
  · rintro ⟨j, hj, hread⟩
    rw [readDocument, Document.ofString_eq_iff.2 hj, hread]
    rfl

/-! ## What every field keeps -/

section

variable {P : List String → α → Prop} {strict : Bool} {depth : Nat}

theorem readFields_induct {members ms : List (Except Fault String × Json)} {seen seen' : List String}
    {a b : α}
    (hstep : ∀ seen key read v a b, (key, read) ∈ fields → (.ok key, v) ∈ members →
      read depth v a = .ok b → P seen a → P (key :: seen) b)
    (hread : readFields fields strict depth seen a ms = .ok (seen', b)) (hms : ms ⊆ members)
    (hseen : seen.Nodup ∧ seen ⊆ fields.map (·.1)) (ha : P seen a) :
    P seen' b ∧ seen'.Nodup ∧ seen' ⊆ fields.map (·.1) := by
  induction ms generalizing seen a with
  | nil =>
    cases hread
    exact ⟨ha, hseen⟩
  | cons m ms ih =>
    obtain ⟨key, v⟩ := m
    obtain ⟨hm, hrest⟩ := List.cons_subset.1 hms
    rw [readFields] at hread
    obtain ⟨k, rfl, hmatch⟩ := bind_eq_ok.1 hread
    split at hmatch
    · split at hmatch
      · cases hmatch
      · exact ih hmatch hrest hseen ha
    · next read hlookup =>
      split at hmatch
      · cases hmatch
      · next hnew =>
        obtain ⟨b, hb, hread'⟩ := bind_eq_ok.1 hmatch
        have hfield := mem_of_lookup hlookup
        refine ih hread' hrest ⟨?_, ?_⟩ (hstep seen k read v a b hfield hm hb ha)
        · exact List.nodup_cons.2 ⟨by simpa using hnew, hseen.1⟩
        · exact List.cons_subset.2 ⟨List.mem_map_of_mem hfield, hseen.2⟩

/-- Some elements were read into the first fields, and the others are read into the rest. -/
theorem readPlaces_induct (done rest : List (RecordField α)) (items' items : List Json)
    {stop : Option Fault} {missing : Nat} {a b : α}
    (hstep : ∀ (i : Nat) (field : RecordField α) seen v a b, (done ++ rest)[i]? = some field →
      (items' ++ items)[i]? = some v → field.2 depth v a = .ok b → P seen a → P (field.1 :: seen) b)
    (hread : readPlaces depth stop rest a items = .ok (missing, b))
    (hlength : done.length = items'.length) (ha : P (done.map (·.1)).reverse a) :
    ∃ seen, P seen b ∧ (missing = 0 → ∀ f ∈ done ++ rest, f.1 ∈ seen) := by
  induction rest generalizing done items items' a with
  | nil =>
    cases items with
    | nil =>
      obtain ⟨⟨⟩, _, heq⟩ := bind_eq_ok.1 hread
      cases heq
      refine ⟨_, ha, fun _ f hf => ?_⟩
      rw [List.append_nil] at hf
      exact List.mem_reverse.2 (List.mem_map_of_mem hf)
    | cons v items => cases hread
  | cons field rest ih =>
    cases items with
    | nil =>
      obtain ⟨⟨⟩, _, heq⟩ := bind_eq_ok.1 hread
      cases heq
      exact ⟨_, ha, fun hmissing => by simp at hmissing⟩
    | cons v items =>
      obtain ⟨b, hb, hread'⟩ := bind_eq_ok.1 hread
      have hP := hstep done.length field _ v a b (by simp) (by simp [hlength]) hb ha
      have h := ih (done ++ [field]) (items' ++ [v]) items (by simpa using hstep) hread'
        (by simp [hlength]) (by simpa using hP)
      simpa using h

/-- What holds of the defaults and is kept by reading any field holds of a record that is read. -/
theorem record_induct {complete : Bool} {defaults a : α} {j : Json}
    (hread : record fields complete strict defaults depth j = .ok a)
    (hstep : ∀ seen (depth : Nat) (field : RecordField α) v a b, field ∈ fields →
      FieldAt fields j field.1 v → field.2 depth v a = .ok b → P seen a → P (field.1 :: seen) b)
    (hdefaults : P [] defaults) :
    ∃ seen, P seen a ∧ (complete = true → ∀ f ∈ fields, f.1 ∈ seen) := by
  unfold record at hread
  split at hread
  · next members stop =>
    obtain ⟨depth, _, hfields⟩ := bind_eq_ok.1 hread
    obtain ⟨⟨seen, b⟩, hfields, hending⟩ := bind_eq_ok.1 hfields
    obtain ⟨⟨⟩, _, hcomplete⟩ := bind_eq_ok.1 hending
    obtain ⟨hP, hnodup, hsubset⟩ := readFields_induct
      (fun seen key read v a b hfield hm => hstep seen depth (key, read) v a b hfield (.member hm))
      hfields (List.Subset.refl _) ⟨List.nodup_nil, List.nil_subset _⟩ hdefaults
    split at hcomplete
    · cases hcomplete
    · next hlength =>
      cases hcomplete
      refine ⟨seen, hP, fun hcomplete f hf => ?_⟩
      have hle : (fields.map (·.1)).length ≤ seen.length := by simpa [hcomplete] using hlength
      exact ((hnodup.subperm hsubset).perm_of_length_le hle).mem_iff.2 (List.mem_map_of_mem hf)
  · next items stop =>
    obtain ⟨depth, _, hread⟩ := bind_eq_ok.1 hread
    obtain ⟨⟨missing, b⟩, hplaces, hcomplete⟩ := bind_eq_ok.1 hread
    obtain ⟨seen, hP, hall⟩ := readPlaces_induct [] fields [] items
      (fun i field seen v a b hfield hv => hstep seen depth field v a b
        (List.mem_of_getElem? hfield) (.place hfield hv))
      hplaces rfl hdefaults
    dsimp only at hcomplete
    split at hcomplete
    · cases hcomplete
    · next hmissing =>
      cases hcomplete
      exact ⟨seen, hP, fun hcomplete => hall (by simpa [hcomplete] using hmissing)⟩
  · cases hread

end

/-! ## Members -/

section

variable {strict : Bool} {depth : Nat} {seen : List String} {a b : α} {key : String} {v : Json}
  {members : List (Except Fault String × Json)}

theorem readFields_known {read : Nat → Json → α → Except Fault α}
    (hlookup : fields.lookup key = some read) (hnew : key ∉ seen)
    (hread : read depth v a = .ok b) :
    readFields fields strict depth seen a ((.ok key, v) :: members) =
      readFields fields strict depth (key :: seen) b members := by
  rw [readFields, ok_bind, hlookup]
  simp [hnew, hread]

theorem readFields_unknown (hlookup : fields.lookup key = none) :
    readFields fields false depth seen a ((.ok key, v) :: members) =
      readFields fields false depth seen a members := by
  rw [readFields, ok_bind, hlookup]
  rfl

theorem record_object (complete : Bool) {defaults : α} (hdepth : 0 < depth)
    (hread : readFields fields strict depth [] defaults members = .ok (seen, a))
    (hcomplete : complete = true → fields.length ≤ seen.length) :
    record fields complete strict defaults (depth + 1) (.object members none) = .ok a := by
  rw [record, enter_eq_ok.2 ⟨rfl, hdepth⟩, ok_bind, hread]
  cases complete with
  | false => rfl
  | true => simp [ending, hcomplete rfl]

end

end ScopeGrammar.Json
