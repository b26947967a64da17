import ScopeGrammar.Grammar.Source
import ScopeGrammar.Proofs.Grammar.Reordered
import ScopeGrammar.Proofs.Json.Members
import ScopeGrammar.Proofs.Json.Rendered

/-!
# ScopeGrammar.Proofs.Grammar.Written

Grammars that are written and read again.

* `RuleSource.WritesTo`, `GrammarSource.WrittenAs` : the ways to write a rule and a grammar; members
  may stand in any order, and ones with unknown keys may be among them.
* `RuleSource.Alike`, `GrammarSource.Alike` : equal, where captures and repositories are maps.
* `RuleSource.exists_read` : however a rule is written, a like one is read.
* `GrammarSource.reads_written` : so it is for grammars.
-/

namespace ScopeGrammar

open Json (Reader FieldForm WritesRecord ofMembers Fits)

namespace RuleSource

/-! ## Ways to write a rule -/

/-- How the fields of a rule are written, given how the rules inside it are. -/
def forms (S : RuleSource → Json → Prop) (r : RuleSource) : List FieldForm :=
  [.optional "name" r.name, .optional "contentName" r.contentName, .optional "match" r.matchText,
   .optional "begin" r.beginText, .optional "end" r.endText, .optional "while" r.whileText,
   .entries "captures" S r.captures, .entries "beginCaptures" S r.beginCaptures,
   .entries "endCaptures" S r.endCaptures, .entries "whileCaptures" S r.whileCaptures,
   .items "patterns" S r.patterns, .optional "include" r.includeText,
   .entries "repository" S r.repository, .flag "applyEndPatternLast" r.applyEndPatternLast,
   .flag "disabled" r.disabled]

/-- A rule that holds rules fewer than so many levels deep is written as a tree. -/
def WritesTo : Nat → RuleSource → Json → Prop
  | 0, _, _ => False
  | levels + 1, r, j => ∃ ms, j = ofMembers ms ∧ WritesRecord (r.forms (WritesTo levels)) ms

/-! ## Equal rules -/

/-- The captures and the repository of a rule. -/
def maps (r : RuleSource) : List (List (String × RuleSource)) :=
  [r.captures, r.beginCaptures, r.endCaptures, r.whileCaptures, r.repository]

/-- No key is twice in a map of the rule or of the rules inside it. -/
inductive Keyed : RuleSource → Prop
  | intro {r : RuleSource} : (∀ t ∈ r.maps, (t.map (·.1)).Nodup) →
    (∀ t ∈ r.maps, ∀ e ∈ t, Keyed e.2) → (∀ p ∈ r.patterns, Keyed p) → Keyed r

/-- The entries of both maps match, in perhaps another order. -/
inductive MapsMatch (S : RuleSource → RuleSource → Prop) :
    List (String × RuleSource) → List (String × RuleSource) → Prop
  | inOrder {entries entries' : List (String × RuleSource)} :
    EntriesMatch S entries entries' → MapsMatch S entries entries'
  | perm {entries ordered entries' : List (String × RuleSource)} :
    entries.Perm ordered → MapsMatch S ordered entries' → MapsMatch S entries entries'

/-- The same rule, where captures and repositories are maps: the order of their entries does not
count. -/
inductive Alike : RuleSource → RuleSource → Prop
  | intro {r r' : RuleSource} : r.SameKeys r' → MapsMatch Alike r.captures r'.captures →
    MapsMatch Alike r.beginCaptures r'.beginCaptures →
    MapsMatch Alike r.endCaptures r'.endCaptures →
    MapsMatch Alike r.whileCaptures r'.whileCaptures →
    List.Forall₂ Alike r.patterns r'.patterns →
    MapsMatch Alike r.repository r'.repository → Alike r r'

end RuleSource

namespace GrammarSource

def forms (S : RuleSource → Json → Prop) (g : GrammarSource) : List FieldForm :=
  [.text "name" g.name, .text "scopeName" g.scopeName,
   .items "fileTypes" (fun s v => v = .text (.ok s)) g.fileTypes, .items "patterns" S g.patterns,
   .entries "repository" S g.repository]

/-- The text of an object that writes the grammar. -/
def WrittenAs (g : GrammarSource) (text : String) : Prop :=
  ∃ ms levels, Document.Spells (ofMembers ms) text.toList ∧
    WritesRecord (g.forms (RuleSource.WritesTo levels)) ms

structure Keyed (g : GrammarSource) : Prop where
  repository : (g.repository.map (·.1)).Nodup
  entries : ∀ e ∈ g.repository, e.2.Keyed
  patterns : ∀ p ∈ g.patterns, p.Keyed

structure Alike (g g' : GrammarSource) : Prop where
  name : g.name = g'.name
  scopeName : g.scopeName = g'.scopeName
  fileTypes : g.fileTypes = g'.fileTypes
  patterns : List.Forall₂ RuleSource.Alike g.patterns g'.patterns
  repository : RuleSource.MapsMatch RuleSource.Alike g.repository g'.repository

/-- The members of a grammar when fields with their default value are left out. -/
def parts (g : GrammarSource) : List (List (String × JsonValue)) :=
  [textMember "name" (if g.name = "" then none else some g.name),
   textMember "scopeName" (if g.scopeName = "" then none else some g.scopeName),
   listMember "fileTypes" (g.fileTypes.map .text), listMember "patterns" (rulesToJson g.patterns),
   dictMember "repository" (entriesToJson g.repository)]

def written (g : GrammarSource) : JsonValue := .object g.parts.flatten

end GrammarSource

/-! ## Nesting -/

theorem rulesToJson_eq (rules : List RuleSource) :
    rulesToJson rules = rules.map RuleSource.toJson := by
  induction rules with
  | nil => rfl
  | cons r rest ih => rw [rulesToJson, ih, List.map_cons]

theorem entriesToJson_eq (entries : List (String × RuleSource)) :
    entriesToJson entries = entries.map fun e => (e.1, e.2.toJson) := by
  induction entries with
  | nil => rfl
  | cons e rest ih => rw [entriesToJson, ih, List.map_cons]

/-- What is in a list among the members of an object is two levels inside the object. -/
theorem nesting_listMember {members : List (String × JsonValue)} {key : String}
    {rules : List RuleSource} (hsub : listMember key (rulesToJson rules) ⊆ members)
    {r : RuleSource} (hr : r ∈ rules) :
    r.toJson.nesting + 2 ≤ (JsonValue.object members).nesting := by
  have hitem : r.toJson ∈ rulesToJson rules := by
    rw [rulesToJson_eq]
    exact List.mem_map_of_mem hr
  rw [listMember, if_neg (by simpa using List.ne_nil_of_mem hitem)] at hsub
  have hinner := JsonValue.nesting_lt_array hitem
  have houter := JsonValue.nesting_lt_object (hsub List.mem_cons_self)
  exact Nat.succ_le_of_lt (Nat.lt_of_le_of_lt hinner houter)

theorem nesting_dictMember {members : List (String × JsonValue)} {key : String}
    {entries : List (String × RuleSource)} (hsub : dictMember key (entriesToJson entries) ⊆ members)
    {e : String × RuleSource} (he : e ∈ entries) :
    e.2.toJson.nesting + 2 ≤ (JsonValue.object members).nesting := by
  have hentry : (e.1, e.2.toJson) ∈ entriesToJson entries := by
    rw [entriesToJson_eq]
    exact List.mem_map_of_mem he
  rw [dictMember, if_neg (by simpa using List.ne_nil_of_mem hentry)] at hsub
  have hinner := JsonValue.nesting_lt_object hentry
  have houter := JsonValue.nesting_lt_object (hsub List.mem_cons_self)
  exact Nat.succ_le_of_lt (Nat.lt_of_le_of_lt hinner houter)

namespace RuleSource

/-- The members of a rule as it is written. -/
def parts (r : RuleSource) : List (List (String × JsonValue)) :=
  [textMember "name" r.name, textMember "contentName" r.contentName,
   textMember "match" r.matchText, textMember "begin" r.beginText, textMember "end" r.endText,
   textMember "while" r.whileText, dictMember "captures" (entriesToJson r.captures),
   dictMember "beginCaptures" (entriesToJson r.beginCaptures),
   dictMember "endCaptures" (entriesToJson r.endCaptures),
   dictMember "whileCaptures" (entriesToJson r.whileCaptures),
   listMember "patterns" (rulesToJson r.patterns), textMember "include" r.includeText,
   dictMember "repository" (entriesToJson r.repository),
   flagMember "applyEndPatternLast" r.applyEndPatternLast, flagMember "disabled" r.disabled]

theorem toJson_eq (r : RuleSource) : r.toJson = .object r.parts.flatten := by
  cases r
  simp [toJson, parts]

theorem nesting_pattern {r p : RuleSource} (hp : p ∈ r.patterns) :
    p.toJson.nesting + 2 ≤ r.toJson.nesting := by
  have hpart : listMember "patterns" (rulesToJson r.patterns) ∈ r.parts :=
    List.mem_of_getElem? (i := 10) rfl
  rw [toJson_eq r]
  exact nesting_listMember (fun m hm => List.mem_flatten.2 ⟨_, hpart, hm⟩) hp

theorem nesting_entry {r : RuleSource} {t : List (String × RuleSource)} (ht : t ∈ r.maps)
    {e : String × RuleSource} (he : e ∈ t) : e.2.toJson.nesting + 2 ≤ r.toJson.nesting := by
  have hpart : ∃ key, dictMember key (entriesToJson t) ∈ r.parts := by
    simp only [maps, List.mem_cons, List.not_mem_nil, or_false] at ht
    obtain rfl | rfl | rfl | rfl | rfl := ht
    · exact ⟨"captures", List.mem_of_getElem? (i := 6) rfl⟩
    · exact ⟨"beginCaptures", List.mem_of_getElem? (i := 7) rfl⟩
    · exact ⟨"endCaptures", List.mem_of_getElem? (i := 8) rfl⟩
    · exact ⟨"whileCaptures", List.mem_of_getElem? (i := 9) rfl⟩
    · exact ⟨"repository", List.mem_of_getElem? (i := 12) rfl⟩
  obtain ⟨key, hpart⟩ := hpart
  rw [toJson_eq r]
  exact nesting_dictMember (fun m hm => List.mem_flatten.2 ⟨_, hpart, hm⟩) he

/-! ## Rules are read as they were written -/

/-- The fields of a rule with these keys alone. -/
def only (r : RuleSource) (seen : List String) : RuleSource where
  name := if "name" ∈ seen then r.name else none
  contentName := if "contentName" ∈ seen then r.contentName else none
  matchText := if "match" ∈ seen then r.matchText else none
  beginText := if "begin" ∈ seen then r.beginText else none
  endText := if "end" ∈ seen then r.endText else none
  whileText := if "while" ∈ seen then r.whileText else none
  captures := if "captures" ∈ seen then r.captures else []
  beginCaptures := if "beginCaptures" ∈ seen then r.beginCaptures else []
  endCaptures := if "endCaptures" ∈ seen then r.endCaptures else []
  whileCaptures := if "whileCaptures" ∈ seen then r.whileCaptures else []
  patterns := if "patterns" ∈ seen then r.patterns else []
  includeText := if "include" ∈ seen then r.includeText else none
  repository := if "repository" ∈ seen then r.repository else []
  applyEndPatternLast := if "applyEndPatternLast" ∈ seen then r.applyEndPatternLast else false
  disabled := if "disabled" ∈ seen then r.disabled else false

/-- The members have a value for every field. -/
structure FitsFields (inner : Reader RuleSource) (ms : List (String × Json)) (depth : Nat)
    (r : RuleSource) : Prop where
  name : Fits ms depth "name" (Json.optional Json.string) none r.name
  contentName : Fits ms depth "contentName" (Json.optional Json.string) none r.contentName
  matchText : Fits ms depth "match" (Json.optional Json.string) none r.matchText
  beginText : Fits ms depth "begin" (Json.optional Json.string) none r.beginText
  endText : Fits ms depth "end" (Json.optional Json.string) none r.endText
  whileText : Fits ms depth "while" (Json.optional Json.string) none r.whileText
  captures : Fits ms depth "captures" (Json.dict putSorted inner) [] r.captures
  beginCaptures : Fits ms depth "beginCaptures" (Json.dict putSorted inner) [] r.beginCaptures
  endCaptures : Fits ms depth "endCaptures" (Json.dict putSorted inner) [] r.endCaptures
  whileCaptures : Fits ms depth "whileCaptures" (Json.dict putSorted inner) [] r.whileCaptures
  patterns : Fits ms depth "patterns" (Json.list inner) [] r.patterns
  includeText : Fits ms depth "include" (Json.optional Json.string) none r.includeText
  repository : Fits ms depth "repository" (Json.dict putEntry inner) [] r.repository
  applyEndPatternLast : Fits ms depth "applyEndPatternLast" Json.flag false r.applyEndPatternLast
  disabled : Fits ms depth "disabled" Json.flag false r.disabled

theorem FitsFields.fills {inner : Reader RuleSource} {ms : List (String × Json)} {depth : Nat}
    {r : RuleSource} (h : r.FitsFields inner ms depth) :
    ∀ f ∈ fields inner, Json.Fills ms depth r.only f := by
  simp only [fields, List.forall_mem_cons]
  refine ⟨h.name.fills ?_ ?_, h.contentName.fills ?_ ?_, h.matchText.fills ?_ ?_,
    h.beginText.fills ?_ ?_, h.endText.fills ?_ ?_, h.whileText.fills ?_ ?_,
    h.captures.fills ?_ ?_, h.beginCaptures.fills ?_ ?_, h.endCaptures.fills ?_ ?_,
    h.whileCaptures.fills ?_ ?_, h.patterns.fills ?_ ?_, h.includeText.fills ?_ ?_,
    h.repository.fills ?_ ?_, h.applyEndPatternLast.fills ?_ ?_, h.disabled.fills ?_ ?_,
    List.forall_mem_nil _⟩
  all_goals simp +contextual [only]

theorem FitsFields.record_eq {inner : Reader RuleSource} {ms : List (String × Json)} {depth : Nat}
    {r : RuleSource} (h : r.FitsFields inner ms depth)
    (honce : ((ms.map (·.1)).filter (· ∈ (fields inner).map (·.1))).Nodup) (hdepth : 0 < depth) :
    Json.record (fields inner) false false {} (depth + 1) (ofMembers ms) = .ok r := by
  refine Json.record_members h.fills honce (fun seen hseen => ?_) hdepth
  simp only [fields, Json.field, List.forall_mem_cons] at hseen
  cases r
  simp [only, hseen]

theorem MapsMatch.nil {S : RuleSource → RuleSource → Prop} : MapsMatch S [] [] :=
  .inOrder .nil

theorem addsEntries_putEntry {α : Type} : Json.AddsEntries (putEntry (α := α)) := by
  intro key c l hnew
  induction l with
  | nil => exact .refl _
  | cons e l ih =>
    obtain ⟨hfirst, hnew⟩ := not_or.1 (mt List.mem_cons.2 hnew)
    rw [putEntry, if_neg (by simpa using Ne.symm hfirst)]
    exact ((ih hnew).cons e).trans (.swap _ _ l)

theorem addsEntries_putSorted {α : Type} : Json.AddsEntries (putSorted (α := α)) := by
  intro key c l hnew
  induction l with
  | nil => exact .refl _
  | cons e l ih =>
    obtain ⟨hfirst, hnew⟩ := not_or.1 (mt List.mem_cons.2 hnew)
    rw [putSorted, if_neg (by simpa using Ne.symm hfirst)]
    split
    · exact .refl _
    · exact ((ih hnew).cons e).trans (.swap _ _ l)

section

variable {forms : List FieldForm} {ms : List (String × Json)} {depth : Nat} {key : String}
  {S : RuleSource → Json → Prop} {inner : Reader RuleSource}

/-- A map to rules is read when the rules in it are. -/
theorem exists_map (h : WritesRecord forms ms)
    {insert : String → RuleSource → List (String × RuleSource) → List (String × RuleSource)}
    (hinsert : Json.AddsEntries insert) {t : List (String × RuleSource)}
    (hf : FieldForm.entries key S t ∈ forms) (hnodup : (t.map (·.1)).Nodup)
    (hread : ∀ e ∈ t, 0 < depth ∧ ∀ j, S e.2 j → ∃ r, inner depth j = .ok r ∧ e.2.Alike r) :
    ∃ t', Fits ms (depth + 1) key (Json.dict insert inner) [] t' ∧ MapsMatch Alike t t' := by
  refine h.exists_fits hf (fun v hv => ?_) ?_
  · obtain ⟨e, he⟩ := List.exists_mem_of_ne_nil t hv.1
    obtain ⟨ordered, es, t', ht', hperm, hperm', hmatch⟩ := Json.dict_of_entries hinsert hnodup hv
      (hread e he).1 fun e he => (hread e he).2
    obtain ⟨ordered', hordered, hmatch⟩ := (EntriesMatch.of_forall₂ hmatch).perm hperm'.symm
    exact ⟨t', ht', .perm hperm (.perm hordered (.inOrder hmatch))⟩
  · rintro rfl
    exact .nil

theorem exists_rules (h : WritesRecord forms ms) {rules : List RuleSource}
    (hf : FieldForm.items key S rules ∈ forms)
    (hread : ∀ r ∈ rules, 0 < depth ∧ ∀ j, S r j → ∃ r', inner depth j = .ok r' ∧ r.Alike r') :
    ∃ rules', Fits ms (depth + 1) key (Json.list inner) [] rules' ∧
      List.Forall₂ Alike rules rules' := by
  refine h.exists_fits hf (fun v hv => ?_) ?_
  · obtain ⟨r, hr⟩ := List.exists_mem_of_ne_nil rules hv.1
    exact Json.list_of_items hv (hread r hr).1 fun r hr => (hread r hr).2
  · rintro rfl
    exact .nil

/-- A rule whose fields are written is read when the rules inside it are. -/
theorem exists_fitsFields {r : RuleSource} (h : WritesRecord (r.forms S) ms) (hkeyed : r.Keyed)
    (hread : ∀ c : RuleSource, c.Keyed → c.toJson.nesting + 2 ≤ r.toJson.nesting →
      0 < depth ∧ ∀ j, S c j → ∃ c', inner depth j = .ok c' ∧ c.Alike c') :
    ∃ r', r'.FitsFields inner ms (depth + 1) ∧ r.Alike r' := by
  cases hkeyed with
  | intro hkeys hentries hrules =>
  have hmap : ∀ {insert} {key : String} {t : List (String × RuleSource)},
      Json.AddsEntries insert → FieldForm.entries key S t ∈ r.forms S → t ∈ r.maps →
      ∃ t', Fits ms (depth + 1) key (Json.dict insert inner) [] t' ∧ MapsMatch Alike t t' :=
    fun hinsert hf ht => exists_map h hinsert hf (hkeys _ ht) fun e he =>
      hread e.2 (hentries _ ht e he) (nesting_entry ht he)
  obtain ⟨captures, hfitsCaptures, halikeCaptures⟩ :=
    hmap addsEntries_putSorted (List.mem_of_getElem? (i := 6) rfl) (by simp [maps])
  obtain ⟨beginCaptures, hfitsBegin, halikeBegin⟩ :=
    hmap addsEntries_putSorted (List.mem_of_getElem? (i := 7) rfl) (by simp [maps])
  obtain ⟨endCaptures, hfitsEnd, halikeEnd⟩ :=
    hmap addsEntries_putSorted (List.mem_of_getElem? (i := 8) rfl) (by simp [maps])
  obtain ⟨whileCaptures, hfitsWhile, halikeWhile⟩ :=
    hmap addsEntries_putSorted (List.mem_of_getElem? (i := 9) rfl) (by simp [maps])
  obtain ⟨repository, hfitsRepository, halikeRepository⟩ :=
    hmap addsEntries_putEntry (List.mem_of_getElem? (i := 12) rfl) (by simp [maps])
  obtain ⟨patterns, hfitsPatterns, halikePatterns⟩ :=
    exists_rules h (List.mem_of_getElem? (i := 10) rfl) fun p hp =>
      hread p (hrules p hp) (nesting_pattern hp)
  refine ⟨{ r with captures, beginCaptures, endCaptures, whileCaptures, patterns, repository },
    ?_, .intro ⟨rfl, rfl, rfl, rfl, rfl, rfl, rfl, rfl, rfl⟩ halikeCaptures halikeBegin halikeEnd
      halikeWhile halikePatterns halikeRepository⟩
  exact
    { name := h.fits_optional (List.mem_of_getElem? (i := 0) rfl)
      contentName := h.fits_optional (List.mem_of_getElem? (i := 1) rfl)
      matchText := h.fits_optional (List.mem_of_getElem? (i := 2) rfl)
      beginText := h.fits_optional (List.mem_of_getElem? (i := 3) rfl)
      endText := h.fits_optional (List.mem_of_getElem? (i := 4) rfl)
      whileText := h.fits_optional (List.mem_of_getElem? (i := 5) rfl)
      captures := hfitsCaptures
      beginCaptures := hfitsBegin
      endCaptures := hfitsEnd
      whileCaptures := hfitsWhile
      patterns := hfitsPatterns
      includeText := h.fits_optional (List.mem_of_getElem? (i := 11) rfl)
      repository := hfitsRepository
      applyEndPatternLast := h.fits_flag (List.mem_of_getElem? (i := 13) rfl)
      disabled := h.fits_flag (List.mem_of_getElem? (i := 14) rfl) }

end

/-- However a rule is written, a like one is read. -/
theorem exists_read {n levels depth : Nat} {r : RuleSource} {j : Json} (h : WritesTo n r j)
    (hkeyed : r.Keyed) (hnesting : r.toJson.nesting < depth) (hlevels : depth ≤ levels) :
    ∃ r', readerTo levels depth j = .ok r' ∧ r.Alike r' := by
  -- On the levels of the text. A rule inside is read two brackets and one level further in, and its
  -- text nests at least two less, so both bounds are kept.
  induction n generalizing levels depth r j with
  | zero => exact h.elim
  | succ n ih =>
    obtain ⟨ms, rfl, h⟩ := h
    have hpos : 0 < r.toJson.nesting := by
      rw [toJson_eq, JsonValue.nesting]
      exact Nat.succ_pos _
    obtain ⟨depth, rfl⟩ : ∃ d, depth = d + 2 := ⟨depth - 2, by omega⟩
    obtain ⟨levels, rfl⟩ : ∃ l, levels = l + 1 := ⟨levels - 1, by omega⟩
    have hinner : ∀ c : RuleSource, c.Keyed → c.toJson.nesting + 2 ≤ r.toJson.nesting →
        0 < depth ∧ ∀ j, WritesTo n c j → ∃ c', readerTo levels depth j = .ok c' ∧ c.Alike c' :=
      fun c hc hle => ⟨by omega, fun j hj => ih hj hc (by omega) (by omega)⟩
    obtain ⟨r', hfits, halike⟩ := exists_fitsFields h hkeyed hinner
    exact ⟨r', hfits.record_eq h.once (Nat.succ_pos _), halike⟩

end RuleSource

/-! ## What is written is one way to write it -/

namespace JsonValue

def memberTree (m : String × JsonValue) : String × Json := (m.1, m.2.tree)

theorem tree_object (members : List (String × JsonValue)) :
    (object members).tree = ofMembers (members.map memberTree) := by
  rw [tree, memberTrees_eq, ofMembers, List.map_map]
  rfl

variable {β : Type} {key : String} {S : β → Json → Prop} {toValue : β → JsonValue}

theorem writes_optional (key : String) (s : Option String) :
    (FieldForm.optional key s).Writes ((textMember key s).map memberTree) := by
  cases s with
  | none => exact .inr ⟨rfl, rfl⟩
  | some s => exact .inl ⟨_, rfl, rfl⟩

theorem writes_text (key s : String) :
    (FieldForm.text key s).Writes
      ((textMember key (if s = "" then none else some s)).map memberTree) := by
  split
  · next hs => exact .inr ⟨rfl, hs⟩
  · exact .inl ⟨_, rfl, rfl⟩

theorem writes_flag (key : String) (b : Bool) :
    (FieldForm.flag key b).Writes ((flagMember key b).map memberTree) := by
  cases b with
  | false => exact .inr ⟨rfl, rfl⟩
  | true => exact .inl ⟨_, rfl, .inl rfl⟩

theorem writes_items {l : List β} (h : ∀ b ∈ l, S b (toValue b).tree) :
    (FieldForm.items key S l).Writes ((listMember key (l.map toValue)).map memberTree) := by
  cases l with
  | nil => exact .inr ⟨rfl, rfl⟩
  | cons b l =>
    refine .inl ⟨_, rfl, List.cons_ne_nil b l, trees ((b :: l).map toValue), rfl, ?_⟩
    rw [trees_eq, List.map_map, List.forall₂_map_right_iff, List.forall₂_same]
    exact h

theorem writes_entries {l : List (String × β)} (h : ∀ e ∈ l, S e.2 (toValue e.2).tree) :
    (FieldForm.entries key S l).Writes
      ((dictMember key (l.map fun e => (e.1, toValue e.2))).map memberTree) := by
  cases l with
  | nil => exact .inr ⟨rfl, rfl⟩
  | cons e l =>
    refine .inl ⟨_, rfl, List.cons_ne_nil e l, e :: l, _, .refl _, tree_object _, ?_⟩
    rw [List.map_map, List.forall₂_map_right_iff, List.forall₂_same]
    exact fun e he => ⟨rfl, h e he⟩

end JsonValue

open JsonValue (memberTree tree_object writes_optional writes_text writes_flag writes_items
  writes_entries)

namespace RuleSource

theorem writes_parts {S : RuleSource → Json → Prop} {r : RuleSource}
    (hmaps : ∀ t ∈ r.maps, ∀ e ∈ t, S e.2 e.2.toJson.tree)
    (hpatterns : ∀ p ∈ r.patterns, S p p.toJson.tree) :
    List.Forall₂ FieldForm.Writes (r.forms S) (r.parts.map (List.map memberTree)) := by
  simp only [maps, List.forall_mem_cons] at hmaps
  obtain ⟨hcaptures, hbegin, hend, hwhile, hrepository, _⟩ := hmaps
  simp only [forms, parts, entriesToJson_eq, rulesToJson_eq, List.map_cons, List.map_nil,
    List.forall₂_cons]
  exact ⟨writes_optional _ _, writes_optional _ _, writes_optional _ _, writes_optional _ _,
    writes_optional _ _, writes_optional _ _, writes_entries hcaptures, writes_entries hbegin,
    writes_entries hend, writes_entries hwhile, writes_items hpatterns, writes_optional _ _,
    writes_entries hrepository, writes_flag _ _, writes_flag _ _, .nil⟩

theorem writesTo_tree {n : Nat} {r : RuleSource} (h : r.toJson.nesting ≤ n) :
    WritesTo n r r.toJson.tree := by
  -- Not on the rule: its nesting bounds the levels at once for all rules inside it.
  induction n generalizing r with
  | zero =>
    rw [toJson_eq, JsonValue.nesting] at h
    exact absurd h (Nat.not_succ_le_zero _)
  | succ n ih =>
    have hparts : List.Forall₂ FieldForm.Writes (r.forms (WritesTo n))
        (r.parts.map (List.map memberTree)) := by
      refine writes_parts (fun t ht e he => ih ?_) fun p hp => ih ?_
      · have hle := nesting_entry ht he
        omega
      · have hle := nesting_pattern hp
        omega
    refine ⟨_, ?_, .of_parts hparts (by simp [forms, FieldForm.optional, FieldForm.entries,
      FieldForm.items, FieldForm.flag])⟩
    rw [toJson_eq, tree_object, List.map_flatten]

end RuleSource

/-! ## Grammars -/

namespace GrammarSource

def only (g : GrammarSource) (seen : List String) : GrammarSource where
  name := if "name" ∈ seen then g.name else ""
  scopeName := if "scopeName" ∈ seen then g.scopeName else ""
  fileTypes := if "fileTypes" ∈ seen then g.fileTypes else []
  patterns := if "patterns" ∈ seen then g.patterns else []
  repository := if "repository" ∈ seen then g.repository else []

theorem nesting_pattern {g : GrammarSource} {p : RuleSource} (hp : p ∈ g.patterns) :
    p.toJson.nesting + 2 ≤ g.written.nesting := by
  have hpart : listMember "patterns" (rulesToJson g.patterns) ∈ g.parts :=
    List.mem_of_getElem? (i := 3) rfl
  rw [written]
  exact nesting_listMember (fun m hm => List.mem_flatten.2 ⟨_, hpart, hm⟩) hp

theorem nesting_entry {g : GrammarSource} {e : String × RuleSource} (he : e ∈ g.repository) :
    e.2.toJson.nesting + 2 ≤ g.written.nesting := by
  have hpart : dictMember "repository" (entriesToJson g.repository) ∈ g.parts :=
    List.mem_of_getElem? (i := 4) rfl
  rw [written]
  exact nesting_dictMember (fun m hm => List.mem_flatten.2 ⟨_, hpart, hm⟩) he

theorem writtenAs_written (g : GrammarSource) : g.WrittenAs g.written.render := by
  have hparts : List.Forall₂ FieldForm.Writes (g.forms (RuleSource.WritesTo g.written.nesting))
      (g.parts.map (List.map memberTree)) := by
    simp only [forms, parts, entriesToJson_eq, rulesToJson_eq, List.map_cons, List.map_nil,
      List.forall₂_cons]
    refine ⟨writes_text _ _, writes_text _ _, writes_items fun _ _ => rfl,
      writes_items fun p hp => RuleSource.writesTo_tree ?_,
      writes_entries fun e he => RuleSource.writesTo_tree ?_, .nil⟩
    · exact Nat.le_trans (Nat.le_add_right _ _) (nesting_pattern hp)
    · exact Nat.le_trans (Nat.le_add_right _ _) (nesting_entry he)
  refine ⟨_, _, ?_, .of_parts hparts (by simp [forms, FieldForm.text, FieldForm.entries,
    FieldForm.items])⟩
  rw [← List.map_flatten, ← tree_object, ← written]
  exact Document.ofString_eq_iff.1 g.written.ofString_render

/-- However a grammar is written, a like one is read. -/
theorem exists_read {g : GrammarSource} {text : String} (h : g.WrittenAs text) (hkeyed : g.Keyed)
    (hnesting : g.written.nesting ≤ 127) :
    ∃ g', ofText text = .ok g' ∧ g.Alike g' := by
  obtain ⟨ms, levels, hspells, h⟩ := h
  have hread : ∀ r : RuleSource, r.Keyed → r.toJson.nesting + 2 ≤ g.written.nesting →
      0 < 126 ∧ ∀ j, RuleSource.WritesTo levels r j →
        ∃ r', RuleSource.reader 126 j = .ok r' ∧ r.Alike r' :=
    fun r hr hle => ⟨by decide, fun j hj => RuleSource.exists_read hj hr (by omega) (by decide)⟩
  have hname : Fits ms 127 "name" Json.string "" g.name :=
    h.fits_text (List.mem_of_getElem? (i := 0) rfl)
  have hscopeName : Fits ms 127 "scopeName" Json.string "" g.scopeName :=
    h.fits_text (List.mem_of_getElem? (i := 1) rfl)
  have hfileTypes : Fits ms 127 "fileTypes" (Json.list Json.string) [] g.fileTypes := by
    have hstring : ∀ s ∈ g.fileTypes, ∀ j : Json, j = .text (.ok s) →
        ∃ s', Json.string 126 j = .ok s' ∧ s = s' := by
      rintro s _ j rfl
      exact ⟨s, rfl, rfl⟩
    refine h.fits (List.mem_of_getElem? (i := 2) rfl) (fun v hv => ?_) id
    obtain ⟨texts, htexts, heq⟩ := Json.list_of_items hv (by decide) hstring
    rw [List.forall₂_eq_eq_eq] at heq
    exact heq ▸ htexts
  obtain ⟨patterns, hpatterns, hrules⟩ := RuleSource.exists_rules h
    (List.mem_of_getElem? (i := 3) rfl)
    fun p hp => hread p (hkeyed.patterns p hp) (nesting_pattern hp)
  obtain ⟨repository, hrepository, hmap⟩ := RuleSource.exists_map h
    RuleSource.addsEntries_putEntry (List.mem_of_getElem? (i := 4) rfl) hkeyed.repository
    fun e he => hread e.2 (hkeyed.entries e he) (nesting_entry he)
  refine ⟨{ g with patterns, repository }, ?_, rfl, rfl, rfl, hrules, hmap⟩
  have hfills : ∀ f ∈ fields, Json.Fills ms 127 (only { g with patterns, repository }) f := by
    simp only [fields, List.forall_mem_cons]
    refine ⟨hname.fills ?_ ?_, hscopeName.fills ?_ ?_, hfileTypes.fills ?_ ?_,
      hpatterns.fills ?_ ?_, hrepository.fills ?_ ?_, List.forall_mem_nil _⟩
    all_goals simp +contextual [only]
  refine Json.readDocument_eq_ok_iff.2 ⟨_, hspells, ?_⟩
  refine Json.record_members hfills h.once (fun seen hseen => ?_) (by decide)
  simp only [fields, Json.field, List.forall_mem_cons] at hseen
  simp [only, hseen]

/-- A grammar that nests at most 127 arrays and objects when its default values are left out is read
from that text, and from any other that has the same members in any order and perhaps more of them.
What is read is the same grammar, with captures and repositories compared as maps.

Such texts come from another when members are put in another order, or ones with unknown keys are
added, to the object of the grammar or to that of a rule in it, and when a flag is written as the
digits of a number. -/
theorem reads_written {g : GrammarSource} (hkeyed : g.Keyed) (hnesting : g.written.nesting ≤ 127) :
    g.WrittenAs g.written.render ∧
      (∀ text, g.WrittenAs text → ∃ g', ofText text = .ok g' ∧ g.Alike g') ∧
      (∀ levels ms ms' others text, WritesRecord (g.forms (RuleSource.WritesTo levels)) ms →
        (∀ m ∈ others, m.1 ∉ (g.forms (RuleSource.WritesTo levels)).map (·.key)) →
        ms'.Perm (ms ++ others) → Document.Spells (ofMembers ms') text.toList →
        g.WrittenAs text) ∧
      (∀ levels (r : RuleSource) ms ms' others,
        WritesRecord (r.forms (RuleSource.WritesTo levels)) ms →
        (∀ m ∈ others, m.1 ∉ (r.forms (RuleSource.WritesTo levels)).map (·.key)) →
        ms'.Perm (ms ++ others) → r.WritesTo (levels + 1) (ofMembers ms')) ∧
      ∀ (key : String) (i : Int), -2 ^ 63 ≤ i → i < 2 ^ 63 →
        (FieldForm.flag key (i != 0)).Shows (Json.ofInt i) ∧
          Json.Spells (.value (Json.ofInt i))
            ((if i < 0 then ['-'] else []) ++ Nat.toDigits 10 i.natAbs) := by
  refine ⟨g.writtenAs_written, fun _ h => exists_read h hkeyed hnesting, ?_, ?_, ?_⟩
  · intro levels ms ms' others text h hothers hperm hspells
    exact ⟨ms', levels, hspells, h.add hothers hperm⟩
  · intro levels r ms ms' others h hothers hperm
    exact ⟨ms', rfl, h.add hothers hperm⟩
  · intro key i hlow hhigh
    exact ⟨.inr ⟨i, hlow, hhigh, rfl, rfl⟩, Json.spells_ofInt hlow (by omega)⟩

/-- A grammar with a rule that is switched off, and a repository. -/
def switchedSource : GrammarSource where
  scopeName := "s"
  patterns := [{ matchText := some "a", disabled := true }]
  repository := [("x", { name := some "n" }), ("y", {})]

/-- The same with its members in another order, an unknown one among them and a number for the
switch. -/
def switchedValue : JsonValue :=
  .object
    [("repository", .object [("y", .object []), ("x", .object [("name", .text "n")])]),
     ("note", .array [.bool false]),
     ("patterns", .array [.object [("disabled", .natural 1), ("match", .text "a")]]),
     ("scopeName", .text "s")]

def switchedText : String :=
  "\x7b\"repository\":\x7b\"y\":\x7b\x7d,\"x\":\x7b\"name\":\"n\"\x7d\x7d,\"note\":[false]," ++
    "\"patterns\":[\x7b\"disabled\":1,\"match\":\"a\"\x7d],\"scopeName\":\"s\"\x7d"

theorem render_switchedValue : switchedValue.render = switchedText := by decide +kernel

theorem writtenAs_switchedText : switchedSource.WrittenAs switchedText := by
  have hempty : RuleSource.WritesTo 1 {} (JsonValue.object []).tree := by
    refine ⟨_, tree_object _, by decide, ?_⟩
    simp [RuleSource.forms, FieldForm.optional, FieldForm.flag, FieldForm.items, FieldForm.entries]
  have hnamed : RuleSource.WritesTo 1 { name := some "n" }
      (JsonValue.object [("name", .text "n")]).tree := by
    refine ⟨_, tree_object _, by decide, ?_⟩
    simp [RuleSource.forms, FieldForm.optional, FieldForm.flag, FieldForm.items, FieldForm.entries,
      memberTree, JsonValue.tree]
  have hdisabled : RuleSource.WritesTo 1 { matchText := some "a", disabled := true }
      (JsonValue.object [("disabled", .natural 1), ("match", .text "a")]).tree := by
    have hone : ∃ i : Int, -2 ^ 63 ≤ i ∧ i < 2 ^ 63 ∧
        Json.number (Json.Numeral.integer false 1).value = Json.ofInt i ∧ true = (i != 0) :=
      ⟨1, by decide, by decide, rfl, by decide⟩
    refine ⟨_, tree_object _, by decide, ?_⟩
    simpa [RuleSource.forms, FieldForm.optional, FieldForm.flag, FieldForm.items, FieldForm.entries,
      memberTree, JsonValue.tree] using hone
  have hspells := Document.ofString_eq_iff.1 switchedValue.ofString_render
  rw [switchedValue, tree_object, ← switchedValue, render_switchedValue] at hspells
  refine ⟨_, 1, hspells, by decide, ?_⟩
  simp only [forms, List.forall_mem_cons]
  refine ⟨.inr ⟨rfl, by decide⟩, .inl ⟨_, List.mem_of_getElem? (i := 3) rfl, rfl⟩,
    .inr ⟨rfl, by decide⟩, .inl ⟨_, List.mem_of_getElem? (i := 2) rfl, List.cons_ne_nil _ _, ?_⟩,
    .inl ⟨_, List.mem_of_getElem? (i := 0) rfl, List.cons_ne_nil _ _, ?_⟩, List.forall_mem_nil _⟩
  · exact ⟨_, rfl, .cons hdisabled .nil⟩
  · exact ⟨_, _, .swap _ _ _, tree_object _, .cons ⟨rfl, hempty⟩ (.cons ⟨rfl, hnamed⟩ .nil)⟩

theorem reads_written_switched :
    switchedSource.Keyed ∧ switchedSource.written.nesting ≤ 127 ∧
      switchedSource.WrittenAs switchedText ∧
      ∃ g', ofText switchedText = .ok g' ∧ switchedSource.Alike g' := by
  have hleaf : ∀ r : RuleSource, r.maps = [[], [], [], [], []] → r.patterns = [] → r.Keyed := by
    intro r hmaps hpatterns
    refine .intro ?_ ?_ ?_
    · simp [hmaps]
    · simp [hmaps]
    · simp [hpatterns]
  have hkeyed : switchedSource.Keyed := by
    refine ⟨by decide, ?_, ?_⟩
    · exact List.forall_mem_cons.2 ⟨hleaf _ rfl rfl, List.forall_mem_singleton.2 (hleaf _ rfl rfl)⟩
    · exact List.forall_mem_singleton.2 (hleaf _ rfl rfl)
  have hnesting : switchedSource.written.nesting ≤ 127 := by decide
  exact ⟨hkeyed, hnesting, writtenAs_switchedText,
    (reads_written hkeyed hnesting).2.1 _ writtenAs_switchedText⟩

end GrammarSource

end ScopeGrammar
