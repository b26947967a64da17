import Mathlib.Data.List.DropRight
import ScopeGrammar.Proofs.Json.Records
import ScopeGrammar.Proofs.Json.Rendered
import ScopeGrammar.Token.Basic

/-!
# ScopeGrammar.Proofs.Token.RoundTrip

Tokens that are written and read again.

* `Token.Writable` : the numbers of a token have 64 bits, and its scopes are trimmed.
* `Token.ofText_render` : such a token is read as it was written.
* `Token.writable_of_ofText` : all tokens that are read are such, whatever the text is.
* `Token.round_trip` puts these together.
-/

namespace ScopeGrammar

open Json (RecordField FieldAt record_induct bind_eq_ok map_eq_ok list_eq_ok_iff
  readDocument_eq_ok_iff Spells)

/-! ## Trimmed text -/

theorem Text.trimChars_eq (cs : List Char) :
    trimChars cs = List.rdropWhile isBlank (cs.dropWhile isBlank) := rfl

/-- What is left of a text has no blanks at its ends. -/
theorem Text.trimChars_trimChars (cs : List Char) : trimChars (trimChars cs) = trimChars cs := by
  have hfront : (trimChars cs).dropWhile isBlank = trimChars cs := by
    rw [List.dropWhile_eq_self_iff]
    intro hpos
    obtain ⟨rest, hprefix⟩ := List.rdropWhile_prefix isBlank (cs.dropWhile isBlank)
    rw [← trimChars_eq] at hprefix
    have hidem := List.dropWhile_idempotent isBlank cs
    rw [List.dropWhile_eq_self_iff] at hidem
    have hhead := hidem (by rw [← hprefix, List.length_append]; omega)
    simpa [← hprefix, List.getElem_append_left hpos] using hhead
  rw [trimChars_eq (trimChars cs), hfront, trimChars_eq, List.rdropWhile_idempotent]

theorem Text.trim_trim (s : String) : trim (trim s) = trim s := by
  rw [trim, trim, String.toList_ofList, trimChars_trimChars]

/-- No blanks are around the name of a scope. -/
def Scope.Trimmed (s : Scope) : Prop := Scope.ofString s.name = s

theorem Scope.trimmed_ofString (name : String) : (ofString name).Trimmed :=
  congrArg Scope.mk (Text.trim_trim name)

namespace Token

/-- The numbers have 64 bits, and the scopes are trimmed. -/
structure Writable (t : Token) : Prop where
  start : t.start < 2 ^ 64
  stop : t.stop < 2 ^ 64
  scopes : ∀ s ∈ t.scopes, s.Trimmed

/-! ## Reading what was written -/

theorem record_span (a b : Nat) :
    Json.record spanFields true true (0, 0) 127
        (.object [(.ok "start", .number (.ok (.natural a))), (.ok "end", .number (.ok (.natural b)))]
          none) = .ok (a, b) := rfl

theorem list_scopeReader {scopes : List Scope} (h : ∀ s ∈ scopes, s.Trimmed) :
    Json.list scopeReader 127 (.array (scopes.map fun s => .text (.ok s.name)) none) =
      .ok scopes := by
  refine list_eq_ok_iff.2 ⟨126, _, rfl, by decide, rfl, ?_⟩
  rw [List.forall₂_map_left_iff, List.forall₂_same]
  exact fun s hs => congrArg Except.ok (h s hs)

theorem ofText_render {t : Token} (h : t.Writable) : ofText t.toJson.render = .ok t := by
  have hscopes := list_scopeReader h.scopes
  have hfields : Json.readFields fields false 127 [] ⟨0, 0, []⟩
      [(.ok "span", .object [(.ok "start", .number (.ok (.natural t.start))),
          (.ok "end", .number (.ok (.natural t.stop)))] none),
        (.ok "scopes", .array (t.scopes.map fun s => .text (.ok s.name)) none)] =
      .ok (["scopes", "span"], t) := by
    rw [Json.readFields_known rfl (by decide) (map_eq_ok.2 ⟨_, record_span t.start t.stop, rfl⟩),
      Json.readFields_known rfl (by decide) (map_eq_ok.2 ⟨_, hscopes, rfl⟩)]
    rfl
  have hrecord := Json.record_object true (by decide) hfields fun _ => Nat.le_refl _
  rw [ofText, JsonValue.ofString_render]
  simp only [toJson, JsonValue.tree, JsonValue.memberTrees, JsonValue.trees_eq, List.map_map,
    Json.Numeral.value_natural h.start, Json.Numeral.value_natural h.stop]
  exact bind_eq_ok.2 ⟨t, hrecord, rfl⟩

/-! ## Writing what was read -/

/-- A number that is read is one of the text, which has 64 bits. -/
theorem natural_lt {depth n : Nat} {j : Json} {cs : List Char}
    (hread : Json.natural depth j = .ok n) (hj : Spells (.value j) cs) : n < 2 ^ 64 := by
  unfold Json.natural at hread
  split at hread
  · cases hread
    exact hj.natural_lt
  · cases hread

theorem span_of_record {depth : Nat} {j : Json} {cs : List Char} {span : Nat × Nat}
    (hread : Json.record spanFields true true (0, 0) depth j = .ok span)
    (hj : Spells (.value j) cs) : span.1 < 2 ^ 64 ∧ span.2 < 2 ^ 64 := by
  have hstep : ∀ (depth : Nat) (f : RecordField (Nat × Nat)) v a b, f ∈ spanFields →
      FieldAt spanFields j f.1 v → f.2 depth v a = .ok b → a.1 < 2 ^ 64 ∧ a.2 < 2 ^ 64 →
      b.1 < 2 ^ 64 ∧ b.2 < 2 ^ 64 := by
    intro depth f v a b hf hv hb ha
    obtain ⟨cs, hspells⟩ := hv.spells hj
    simp only [spanFields, List.mem_cons, List.not_mem_nil, or_false] at hf
    obtain rfl | rfl := hf
    · obtain ⟨n, hn, rfl⟩ := map_eq_ok.1 hb
      exact ⟨natural_lt hn hspells, ha.2⟩
    · obtain ⟨n, hn, rfl⟩ := map_eq_ok.1 hb
      exact ⟨ha.1, natural_lt hn hspells⟩
  obtain ⟨_, hspan, _⟩ := record_induct (P := fun _ s => s.1 < 2 ^ 64 ∧ s.2 < 2 ^ 64) hread
    (fun _ => hstep) ⟨by decide, by decide⟩
  exact hspan

/-- The strings that a text has for the scopes of a token. -/
def Names (j : Json) (names : List String) : Prop :=
  FieldAt fields j "scopes" (.array (names.map fun name => .text (.ok name)) none)

theorem names_of_list {depth : Nat} {v : Json} {scopes : List Scope}
    (h : Json.list scopeReader depth v = .ok scopes) :
    ∃ names : List String, v = .array (names.map fun name => .text (.ok name)) none ∧
      scopes = names.map Scope.ofString := by
  obtain ⟨inner, items, _, _, rfl, hitems⟩ := list_eq_ok_iff.1 h
  clear h
  induction hitems with
  | nil => exact ⟨[], rfl, rfl⟩
  | cons hscope _ ih =>
    obtain ⟨names, heq, rfl⟩ := ih
    obtain ⟨name, hname, rfl⟩ := map_eq_ok.1 hscope
    obtain ⟨rfl, _⟩ := Json.array.inj heq
    unfold Json.string at hname
    split at hname
    · cases hname
      exact ⟨name :: names, rfl, rfl⟩
    · cases hname

/-- So much is known of a token when these fields of it were read from a tree. -/
structure ReadFrom (j : Json) (seen : List String) (t : Token) : Prop where
  start : t.start < 2 ^ 64
  stop : t.stop < 2 ^ 64
  scopes : "scopes" ∈ seen → ∃ names, Names j names ∧ t.scopes = names.map Scope.ofString

theorem ReadFrom.field {j v : Json} {cs : List Char} (hj : Spells (.value j) cs)
    {seen : List String} {depth : Nat} {f : RecordField Token} {a b : Token} (hf : f ∈ fields)
    (hv : FieldAt fields j f.1 v) (hb : f.2 depth v a = .ok b) (ha : ReadFrom j seen a) :
    ReadFrom j (f.1 :: seen) b := by
  simp only [fields, List.mem_cons, List.not_mem_nil, or_false] at hf
  obtain rfl | rfl := hf
  · obtain ⟨span, hspan, rfl⟩ := map_eq_ok.1 hb
    obtain ⟨cs, hv⟩ := hv.spells hj
    obtain ⟨hstart, hstop⟩ := span_of_record hspan hv
    refine ⟨hstart, hstop, fun hmem => ha.scopes ?_⟩
    exact (List.mem_cons.1 hmem).resolve_left (by decide)
  · obtain ⟨scopes, hscopes, rfl⟩ := map_eq_ok.1 hb
    obtain ⟨names, rfl, rfl⟩ := names_of_list hscopes
    exact ⟨ha.start, ha.stop, fun _ => ⟨names, hv, rfl⟩⟩

theorem writable_of_ofText {json : String} {t : Token} (h : ofText json = .ok t) :
    t.Writable ∧ ∃ j names, Document.Spells j json.toList ∧ Names j names ∧
      t.scopes = names.map Scope.ofString := by
  obtain ⟨j, hj, hread⟩ := readDocument_eq_ok_iff.1 h
  obtain ⟨_, _, _, _, hspells, _, _⟩ := id hj
  have hdefaults : ReadFrom j [] ⟨0, 0, []⟩ := ⟨by decide, by decide, nofun⟩
  obtain ⟨seen, hfrom, hall⟩ := record_induct (P := ReadFrom j) hread
    (fun _ _ _ _ _ _ hf hv hb ha => ReadFrom.field hspells hf hv hb ha) hdefaults
  obtain ⟨names, hnames, hscopes⟩ := hfrom.scopes (hall rfl _ (.tail _ (.head _)))
  refine ⟨⟨hfrom.start, hfrom.stop, ?_⟩, j, names, hj, hnames, hscopes⟩
  rw [hscopes]
  exact List.forall_mem_map.2 fun name _ => Scope.trimmed_ofString name

/-- A token with any span of 64 bits and any trimmed scopes is read as it was written; and whatever
text is read as a token, it has the trimmed strings of the text for its scopes and is read again as
it was written. -/
theorem round_trip :
    (∀ (start stop : Nat) (names : List String), start < 2 ^ 64 → stop < 2 ^ 64 →
      let t : Token := ⟨start, stop, names.map Scope.ofString⟩
      ofText t.toJson.render = .ok t) ∧
    ∀ (json : String) (t : Token), ofText json = .ok t →
      ofText t.toJson.render = .ok t ∧
      ∃ j names, Document.Spells j json.toList ∧ Names j names ∧
        t.scopes = names.map Scope.ofString := by
  refine ⟨fun start stop names hstart hstop => ?_, fun json t h => ?_⟩
  · exact ofText_render ⟨hstart, hstop,
      List.forall_mem_map.2 fun name _ => Scope.trimmed_ofString name⟩
  · obtain ⟨hwritable, hnames⟩ := writable_of_ofText h
    exact ⟨ofText_render hwritable, hnames⟩

/-- A token with the span at its place, a member that is passed over, and blanks around a scope. -/
def spacedText : String :=
  "\x7b\"note\": [1e999, \"\\ud800\"], \"scopes\": [\" a.b \", \"c\"], \"span\": [7, 2]\x7d"

theorem round_trip_spaced :
    5 < 2 ^ 64 ∧ 3 < 2 ^ 64 ∧
      ofText (toJson ⟨5, 3, ["\u00a0a\n", "\"\t\\"].map Scope.ofString⟩).render =
        .ok ⟨5, 3, ["\u00a0a\n", "\"\t\\"].map Scope.ofString⟩ ∧
      ofText spacedText = .ok ⟨7, 2, [⟨"a.b"⟩, ⟨"c"⟩]⟩ ∧
      ofText (toJson ⟨7, 2, [⟨"a.b"⟩, ⟨"c"⟩]⟩).render = .ok ⟨7, 2, [⟨"a.b"⟩, ⟨"c"⟩]⟩ := by
  have hread : ofText spacedText = .ok ⟨7, 2, [⟨"a.b"⟩, ⟨"c"⟩]⟩ := by decide +kernel
  refine ⟨by decide, by decide, ?_, hread, (round_trip.2 spacedText _ hread).1⟩
  exact round_trip.1 5 3 _ (by decide) (by decide)

end Token

end ScopeGrammar
