import Mathlib.Data.List.Infix
import ScopeGrammar.Proofs.Context.Winner
import ScopeGrammar.Proofs.Pattern.Filling

/-!
# ScopeGrammar.Proofs.Pattern.Anchored

Patterns whose anchors are replaced where they may not match.

* `Anchoring.written` : what an escape pair or a character of a pattern becomes.
* `Anchoring.toList_rewrite` : a pattern is rewritten piece by piece, though nothing is written before
  the first anchor that is replaced.
* `Anchoring.rewrite_rewrite` : rewriting twice leaves the anchors that are allowed both times.
* `Anchoring.mentionsAnchor_iff` : no anchor is missed where none is written.
-/

namespace ScopeGrammar

open Pattern

namespace Anchoring

/-- A piece of a pattern as it is searched: an anchor that may not match is replaced. -/
def written (mode : Anchoring) : Pattern.Piece → List Char
  | .pair 'A' => if mode.allowStart then ['\\', 'A'] else ['\uffff']
  | .pair 'G' => if mode.allowPlace then ['\\', 'G'] else ['\uffff']
  | p => p.text

/-- Allows what both allow. -/
def both (m n : Anchoring) : Anchoring :=
  ⟨m.allowStart && n.allowStart, m.allowPlace && n.allowPlace⟩

variable (mode m n : Anchoring)

theorem written_pair (c : Char) :
    mode.written (.pair c) = if mode.blocks c then [nowhere] else ['\\', c] := by
  obtain ⟨start, place⟩ := mode
  by_cases hA : c = 'A'
  · subst hA
    cases start <;> rfl
  by_cases hG : c = 'G'
  · subst hG
    cases place <;> rfl
  have hblocks : blocks ⟨start, place⟩ c = false := by simp [blocks, hA, hG]
  rw [hblocks, written]
  · rfl
  · rintro h
    exact hA (Piece.pair.inj h)
  · rintro h
    exact hG (Piece.pair.inj h)

theorem written_single (c : Char) : mode.written (.single c) = [c] := rfl

theorem blocks_both (c : Char) : (both m n).blocks c = (m.blocks c || n.blocks c) := by
  simp only [blocks, both, Bool.not_and, Bool.and_or_distrib_left]
  ac_rfl

/-! ## Piece by piece -/

/-- What was written, or else what was read and left as it is, goes on with the pieces that are still
to be read. -/
theorem toList_rewriteFrom {source before cs : List Char} {i : Nat} (out : Option String)
    (hsource : source = before ++ cs) (hi : before.length = i) :
    ((mode.rewriteFrom source i out cs).getD (String.ofList source)).toList =
      (out.getD (String.ofList before)).toList ++ (pieces cs).flatMap mode.written := by
  fun_induction pieces cs generalizing before i out with
  | case1 c rest ih =>
    have hnext : source = (before ++ ['\\', c]) ++ rest := by simp [hsource]
    have hlength : (before ++ ['\\', c]).length = i + 2 := by simp [hi]
    rw [rewriteFrom, List.flatMap_cons, written_pair]
    split
    · have htake : source.take i = before := by rw [hsource, ← hi, List.take_left]
      rw [ih _ hnext hlength, htake, Option.getD_some, String.toList_push, List.append_assoc]
    · rw [ih _ hnext hlength]
      cases out <;> simp
  | case2 c rest hne ih =>
    have hnext : source = (before ++ [c]) ++ rest := by simp [hsource]
    have hlength : (before ++ [c]).length = i + 1 := by simp [hi]
    rw [rewriteFrom, List.flatMap_cons, written_single, ih _ hnext hlength]
    · cases out <;> simp
    · exact hne
  | case3 =>
    subst hsource
    cases out <;> simp [rewriteFrom]

/-- A pattern is rewritten piece by piece. -/
theorem toList_rewrite (source : String) :
    (mode.rewrite source).toList = (pieces source.toList).flatMap mode.written := by
  rw [rewrite]
  split
  · next hall =>
    rw [Bool.and_eq_true] at hall
    have hkeeps : ∀ p, mode.written p = p.text := by
      rintro (c | c)
      · have hblocks : mode.blocks c = false := by simp [blocks, hall]
        rw [written_pair, hblocks]
        rfl
      · rfl
    rw [funext hkeeps, flatMap_text_pieces]
  · have hfrom := mode.toList_rewriteFrom none (List.nil_append source.toList).symm rfl
    rwa [String.ofList_toList] at hfrom

/-! ## Rewriting twice -/

/-- What is put in place of an anchor is no backslash, so behind it a pattern is read as before. -/
theorem flatMap_written_pieces (cs : List Char) :
    (pieces ((pieces cs).flatMap m.written)).flatMap n.written =
      (pieces cs).flatMap (both m n).written := by
  fun_induction pieces cs with
  | case1 c rest ih =>
    rw [List.flatMap_cons, List.flatMap_cons, written_pair, written_pair, blocks_both, ← ih]
    cases hm : m.blocks c with
    | true =>
      have hnowhere : nowhere ≠ '\\' := by decide
      rw [if_pos rfl, List.singleton_append, pieces_cons_of_ne hnowhere]
      rfl
    | false =>
      rw [if_neg Bool.false_ne_true, Bool.false_or, ← written_pair]
      rfl
  | case2 c rest hne ih =>
    rw [List.flatMap_cons, List.flatMap_cons, written_single, written_single, ← ih]
    by_cases hc : c = '\\'
    · -- a backslash that makes no pair is the last character
      subst hc
      cases rest with
      | nil => rfl
      | cons d rest => exact absurd rfl (hne d rest rfl)
    · rw [List.singleton_append, pieces_cons_of_ne hc]
      rfl
  | case3 => rfl

theorem rewrite_rewrite (source : String) :
    n.rewrite (m.rewrite source) = (both m n).rewrite source := by
  rw [← String.toList_inj, toList_rewrite, toList_rewrite, toList_rewrite, flatMap_written_pieces]

theorem both_comm : both m n = both n m := by
  rw [both, both, Bool.and_comm, Bool.and_comm m.allowPlace]

/-! ## Patterns without anchors -/

/-- Every place is looked at, be it the start of an escape pair or not. -/
theorem mentionsAnchor_iff (cs : List Char) :
    mentionsAnchor cs = true ↔ ['\\', 'A'] <:+: cs ∨ ['\\', 'G'] <:+: cs := by
  fun_induction mentionsAnchor cs with
  | case1 c rest ih =>
    have hwritten : ∀ x, ['\\', x] <:+: '\\' :: c :: rest ↔ c = x ∨ ['\\', x] <:+: c :: rest := by
      intro x
      rw [List.infix_cons_iff, List.cons_prefix_cons, List.cons_prefix_cons]
      simp [eq_comm]
    rw [Bool.or_eq_true, Bool.or_eq_true, beq_iff_eq, beq_iff_eq, ih, hwritten, hwritten]
    tauto
  | case2 c rest hne ih =>
    have hwritten : ∀ x, ['\\', x] <:+: c :: rest ↔ ['\\', x] <:+: rest := by
      intro x
      rw [List.infix_cons_iff, or_iff_right]
      rintro ⟨more, hmore⟩
      obtain ⟨hc, hrest⟩ := List.cons.inj hmore
      exact hne x more hc.symm hrest.symm
    rw [ih, hwritten, hwritten]
  | case3 => simp

end Anchoring

theorem Context.usesAnchors_eq_false_iff (context : Context) :
    context.usesAnchors = false ↔ ∀ source ∈ context.sources,
      ¬ ['\\', 'A'] <:+: source.toList ∧ ¬ ['\\', 'G'] <:+: source.toList := by
  simp only [context.usesAnchors_eq, mentionAnchors, List.any_eq_false, Anchoring.mentionsAnchor_iff,
    not_or, sources, List.forall_mem_map]

/-- A pattern is read in escape pairs; those that stand for an anchor that may not match are replaced
and all else stays as it is. Rewriting for one mode and then for another, in either order, leaves the
anchors that both allow. Where neither anchor is written in the patterns of a context, these stay as
they are whatever the mode. -/
theorem Anchoring.rewrite_piecewise :
    (∀ (mode : Anchoring) (source : String),
      (mode.rewrite source).toList = (pieces source.toList).flatMap mode.written) ∧
    (∀ (m n : Anchoring) (source : String),
      n.rewrite (m.rewrite source) = (both m n).rewrite source ∧
        m.rewrite (n.rewrite source) = (both m n).rewrite source) ∧
    ∀ context : Context,
      (context.usesAnchors = false ↔ ∀ source ∈ context.sources,
        ¬ ['\\', 'A'] <:+: source.toList ∧ ¬ ['\\', 'G'] <:+: source.toList) ∧
      (context.usesAnchors = false → ∀ mode : Anchoring, ∀ source ∈ context.sources,
        mode.rewrite source = source) := by
  refine ⟨toList_rewrite, fun m n source => ⟨rewrite_rewrite m n source, ?_⟩, fun context =>
    ⟨context.usesAnchors_eq_false_iff, fun hnone mode source => context.rewrite_source hnone mode⟩⟩
  rw [rewrite_rewrite, both_comm]

/-- Both letters and escaped backslashes, but no anchor; and a pattern of an anchor that is replaced, a
letter behind an escaped backslash and an anchor that is allowed. -/
theorem Anchoring.rewrite_piecewise_letters :
    let context := Context.ofEntries ⟨0⟩ [(.closing 0, "A\\dG\\\\"), (.closing 1, "[AG]\\")]
    context.usesAnchors = false ∧
      (∀ mode : Anchoring, ∀ source ∈ context.sources, mode.rewrite source = source) ∧
      ((⟨false, true⟩ : Anchoring).rewrite "\\A|\\\\A\\G").toList = "\uffff|\\\\A\\G".toList := by
  obtain ⟨hpieces, -, hcontext⟩ := rewrite_piecewise
  have hnone : (Context.ofEntries ⟨0⟩
      [(.closing 0, "A\\dG\\\\"), (.closing 1, "[AG]\\")]).usesAnchors = false := by decide
  exact ⟨hnone, (hcontext _).2 hnone, hpieces _ _⟩

end ScopeGrammar
