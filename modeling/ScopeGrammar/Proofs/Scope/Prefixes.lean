import Mathlib.Data.String.Basic
import ScopeGrammar.Scope

/-!
# ScopeGrammar.Proofs.Scope.Prefixes

Scopes that are prefixes of other ones.

* `Text.splitOn_prefix_iff` : the parts of a text are the first ones of another text just in case that
  goes on behind it with a separator, or ends there.
* `Scope.isPrefixOf_iff` : a scope is a prefix of another one if its atoms are.
* `Scope.Proper` : a scope without empty parts. Among these, prefixes can be seen from the names.
-/

namespace ScopeGrammar

namespace Text

theorem splitChars_eq_splitOnP (p : Char → Bool) (cs : List Char) :
    splitChars p cs = cs.splitOnP p := by
  induction cs with
  | nil => exact List.splitOnP_nil.symm
  | cons c rest ih =>
    obtain ⟨part, more, hparts⟩ := List.exists_cons_of_ne_nil (List.splitOnP_ne_nil p rest)
    rw [splitChars, ih, hparts, List.splitOnP_cons_eq_if_modifyHead, hparts]
    rfl

variable {sep : Char} {cs ds : List Char}

theorem intercalate_append {parts more : List (List Char)} (hparts : parts ≠ []) (hmore : more ≠ []) :
    [sep].intercalate (parts ++ more) = [sep].intercalate parts ++ sep :: [sep].intercalate more := by
  induction parts with
  | nil => exact absurd rfl hparts
  | cons part rest ih =>
    cases rest with
    | nil =>
      obtain ⟨first, more, rfl⟩ := List.exists_cons_of_ne_nil hmore
      rw [List.singleton_append, List.intercalate_cons_cons, List.intercalate_singleton]
      simp
    | cons next rest =>
      rw [List.cons_append, List.cons_append, List.intercalate_cons_cons,
        List.intercalate_cons_cons, ← List.cons_append, ih (List.cons_ne_nil _ _)]
      simp

theorem splitOn_append (cs ds : List Char) :
    (cs ++ sep :: ds).splitOn sep = cs.splitOn sep ++ ds.splitOn sep :=
  List.splitOnP_append_cons cs ds (beq_self_eq_true sep)

/-- The parts of a text are the first ones of another just in case that goes on with a separator
behind the text, or ends there. -/
theorem splitOn_prefix_iff :
    cs.splitOn sep <+: ds.splitOn sep ↔ ds = cs ∨ ∃ rest, ds = cs ++ sep :: rest := by
  constructor
  · rintro ⟨more, hmore⟩
    have hds : [sep].intercalate (cs.splitOn sep ++ more) = ds := by
      rw [hmore, List.intercalate_splitOn]
    cases more with
    | nil => exact .inl (by rw [← hds, List.append_nil, List.intercalate_splitOn])
    | cons part more =>
      have hcs : cs.splitOn sep ≠ [] := List.splitOnP_ne_nil _ cs
      rw [intercalate_append hcs (List.cons_ne_nil part more), List.intercalate_splitOn] at hds
      exact .inr ⟨_, hds.symm⟩
  · rintro (rfl | ⟨rest, rfl⟩)
    · exact List.prefix_rfl
    · rw [splitOn_append]
      exact List.prefix_append ..

/-- There is an empty part where a separator is at an end or beside another one. -/
theorem nil_mem_splitOn_iff :
    [] ∈ cs.splitOn sep ↔
      cs = [] ∨ cs.head? = some sep ∨ cs.getLast? = some sep ∨ [sep, sep] <:+: cs := by
  have hnil : ([] : List Char).splitOn sep = [[]] := List.splitOnP_nil
  constructor
  · intro hmem
    obtain ⟨front, back, hparts⟩ := List.append_of_mem hmem
    have hcs : [sep].intercalate (front ++ [] :: back) = cs := by
      rw [← hparts, List.intercalate_splitOn]
    have hback : ∀ next more, [sep].intercalate ([] :: next :: more) =
        sep :: [sep].intercalate (next :: more) := fun next more => by
      rw [List.intercalate_cons_cons, List.nil_append, List.singleton_append]
    cases front with
    | nil =>
      cases back with
      | nil => exact .inl (by rw [← hcs, List.nil_append, List.intercalate_singleton])
      | cons next more =>
        rw [List.nil_append, hback] at hcs
        exact .inr (.inl (by rw [← hcs, List.head?_cons]))
    | cons first front =>
      rw [intercalate_append (List.cons_ne_nil _ _) (List.cons_ne_nil _ _)] at hcs
      cases back with
      | nil =>
        rw [List.intercalate_singleton] at hcs
        exact .inr (.inr (.inl (by rw [← hcs, List.getLast?_concat])))
      | cons next more =>
        rw [hback] at hcs
        exact .inr (.inr (.inr ⟨_, _, by rw [← hcs, List.append_assoc]; rfl⟩))
  · rintro (rfl | hhead | hlast | ⟨front, back, rfl⟩)
    · rw [hnil]
      exact List.mem_singleton_self _
    · obtain ⟨rest, rfl⟩ := List.head?_eq_some_iff.1 hhead
      rw [← List.nil_append (sep :: rest), splitOn_append, hnil]
      exact List.mem_cons_self
    · obtain ⟨front, rfl⟩ := List.getLast?_eq_some_iff.1 hlast
      rw [splitOn_append, hnil]
      exact List.mem_concat_self
    · rw [List.append_assoc, List.cons_append, splitOn_append, ← List.nil_append ([sep] ++ back),
        List.singleton_append, splitOn_append, hnil]
      exact List.mem_append_right _ List.mem_cons_self

end Text

namespace Scope

theorem takesAtoms_iff (ours theirs : List String) :
    takesAtoms ours theirs = true ↔ ours <+: theirs := by
  induction ours generalizing theirs with
  | nil => exact iff_of_true rfl List.nil_prefix
  | cons atom more ih =>
    cases theirs with
    | nil => simp [takesAtoms]
    | cons next rest =>
      rw [takesAtoms, List.head?_cons, List.tail_cons, Bool.and_eq_true, beq_iff_eq,
        Option.some_inj, eq_comm, ih, List.cons_prefix_cons]

variable {s t u : Scope}

theorem isPrefixOf_iff : s.isPrefixOf t = true ↔ s.atoms <+: t.atoms := takesAtoms_iff ..

/-- The texts between the dots, also where there is none. -/
def parts (s : Scope) : List (List Char) := s.name.toList.splitOn '.'

/-- There is some text, and no dot is at an end of it or beside another dot. -/
structure Proper (s : Scope) : Prop where
  ne_nil : s.name.toList ≠ []
  head_ne : s.name.toList.head? ≠ some '.'
  last_ne : s.name.toList.getLast? ≠ some '.'
  apart : ¬ ['.', '.'] <:+: s.name.toList

theorem proper_iff : s.Proper ↔ [] ∉ s.parts := by
  rw [parts, Text.nil_mem_splitOn_iff, not_or, not_or, not_or]
  exact ⟨fun h => ⟨h.1, h.2, h.3, h.4⟩, fun h => ⟨h.1, h.2.1, h.2.2.1, h.2.2.2⟩⟩

theorem atoms_eq (s : Scope) : s.atoms = (s.parts.filter (· ≠ [])).map String.ofList := by
  rw [atoms, Text.splitChars_eq_splitOnP, parts]
  congr
  funext part
  cases part <;> rfl

theorem Proper.atoms_eq (h : s.Proper) : s.atoms = s.parts.map String.ofList := by
  rw [Scope.atoms_eq, List.filter_eq_self.2]
  intro part hpart
  exact decide_eq_true fun hnil => proper_iff.1 h (hnil ▸ hpart)

theorem map_ofList_prefix_iff {parts more : List (List Char)} :
    parts.map String.ofList <+: more.map String.ofList ↔ parts <+: more := by
  refine ⟨fun h => ?_, fun h => h.map _⟩
  simpa [Function.comp_def] using h.map String.toList

theorem Proper.isPrefixOf_iff (hs : s.Proper) (ht : t.Proper) :
    s.isPrefixOf t = true ↔ t.name = s.name ∨ ∃ rest, t.name = s.name ++ "." ++ rest := by
  rw [Scope.isPrefixOf_iff, hs.atoms_eq, ht.atoms_eq, map_ofList_prefix_iff, parts, parts,
    Text.splitOn_prefix_iff, String.toList_inj]
  refine or_congr_right ⟨fun ⟨rest, hrest⟩ => ⟨String.ofList rest, ?_⟩, fun ⟨rest, hrest⟩ =>
    ⟨rest.toList, ?_⟩⟩
  · rw [← String.toList_inj, hrest]
    simp
  · rw [hrest]
    simp

theorem Proper.eq_of_isPrefixOf (hs : s.Proper) (ht : t.Proper) (hst : s.isPrefixOf t = true)
    (hts : t.isPrefixOf s = true) : s = t := by
  obtain hname | ⟨rest, hrest⟩ := (hs.isPrefixOf_iff ht).1 hst
  · exact congrArg Scope.mk hname.symm
  · obtain hname | ⟨rest', hrest'⟩ := (ht.isPrefixOf_iff hs).1 hts
    · exact congrArg Scope.mk hname
    · have hlength := congrArg String.length hrest
      have hlength' := congrArg String.length hrest'
      have hdot : ".".length = 1 := rfl
      rw [String.length_append, String.length_append, hdot] at hlength hlength'
      omega

/-- A name comes before those that it starts, by code points and by the bytes of its UTF-8 form. -/
theorem le_of_eq_append {rest : String} (h : t.name = s.name ++ rest) :
    s.le t = true ∧ s.name.toUTF8.data.toList ≤ t.name.toUTF8.data.toList := by
  constructor
  · rw [le, Bool.not_eq_true', decide_eq_false_iff_not, String.lt_iff_toList_lt, List.not_lt, h,
      String.toList_append]
    exact (List.prefix_append ..).le
  · rw [h, String.toUTF8, String.toUTF8, String.toByteArray_append, ByteArray.data_append,
      Array.toList_append]
    exact (List.prefix_append ..).le

theorem Proper.le_of_isPrefixOf (hs : s.Proper) (ht : t.Proper) (h : s.isPrefixOf t = true) :
    s.le t = true ∧ s.name.toUTF8.data.toList ≤ t.name.toUTF8.data.toList := by
  obtain hname | ⟨rest, hrest⟩ := (hs.isPrefixOf_iff ht).1 h
  · exact le_of_eq_append (hname.trans String.append_empty.symm)
  · exact le_of_eq_append (hrest.trans String.append_assoc)

/-- A scope is a prefix of another one if its atoms are. That is a preorder. Where neither name has
an empty part, it can be seen from the names: the one is the other or goes on behind it with a dot.
There the prefix order is antisymmetric, and a prefix comes first when scopes are sorted, be it by
code points or by bytes. -/
theorem prefix_order :
    (∀ s : Scope, s.atoms = ((s.name.toList.splitOn '.').filter (· ≠ [])).map String.ofList) ∧
    (∀ s t : Scope, s.isPrefixOf t = true ↔ s.atoms <+: t.atoms) ∧
    (∀ s : Scope, s.isPrefixOf s = true) ∧
    (∀ s t u : Scope, s.isPrefixOf t = true → t.isPrefixOf u = true → s.isPrefixOf u = true) ∧
    (∀ s : Scope, s.Proper ↔ [] ∉ s.name.toList.splitOn '.') ∧
    ∀ s t : Scope, s.Proper → t.Proper →
      (s.isPrefixOf t = true ↔ t.name = s.name ∨ ∃ rest, t.name = s.name ++ "." ++ rest) ∧
      (s.isPrefixOf t = true → t.isPrefixOf s = true → s = t) ∧
      (s.isPrefixOf t = true →
        s.le t = true ∧ s.name.toUTF8.data.toList ≤ t.name.toUTF8.data.toList) := by
  refine ⟨atoms_eq, fun _ _ => isPrefixOf_iff, fun _ => isPrefixOf_iff.2 List.prefix_rfl,
    fun s t u hst htu => ?_, fun _ => proper_iff, fun s t hs ht =>
      ⟨hs.isPrefixOf_iff ht, hs.eq_of_isPrefixOf ht, hs.le_of_isPrefixOf ht⟩⟩
  rw [isPrefixOf_iff] at hst htu ⊢
  exact hst.trans htu

/-- Three scopes, each a prefix of the next one, and the last of them written with blanks around it.
None is a prefix of a name that goes on behind it without a dot. -/
theorem prefix_order_quoted :
    let s : Scope := ⟨"string"⟩
    let t : Scope := ⟨"string.quoted"⟩
    let u : Scope := ⟨"string.quoted.double"⟩
    let v : Scope := .ofString " string.quoted.double\t"
    s.isPrefixOf t = true ∧ t.isPrefixOf u = true ∧ s.isPrefixOf u = true ∧ t.Proper ∧ u.Proper ∧
      (∃ rest, u.name = t.name ++ "." ++ rest) ∧ t.le u = true ∧ u.isPrefixOf v = true ∧
      v.isPrefixOf u = true ∧ u = v ∧ t.isPrefixOf ⟨"string.quotedness"⟩ = false := by
  intro s t u v
  obtain ⟨-, -, -, htrans, -, hproper⟩ := prefix_order
  have ht : t.Proper := ⟨by decide +kernel, by decide +kernel, by decide +kernel, by decide +kernel⟩
  have hu : u.Proper := ⟨by decide +kernel, by decide +kernel, by decide +kernel, by decide +kernel⟩
  have hv : v.Proper := ⟨by decide +kernel, by decide +kernel, by decide +kernel, by decide +kernel⟩
  have hst : s.isPrefixOf t = true := by decide +kernel
  have htu : t.isPrefixOf u = true := by decide +kernel
  have huv : u.isPrefixOf v = true := by decide +kernel
  have hvu : v.isPrefixOf u = true := by decide +kernel
  obtain ⟨hnames, -, hle⟩ := hproper t u ht hu
  exact ⟨hst, htu, htrans s t u hst htu, ht, hu, (hnames.1 htu).resolve_left (by decide +kernel),
    (hle htu).1, huv, hvu, (hproper u v hu hv).2.1 huv hvu, by decide +kernel⟩

end Scope

end ScopeGrammar
