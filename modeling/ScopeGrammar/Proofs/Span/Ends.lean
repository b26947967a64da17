import ScopeGrammar.Proofs.Context.Resolve
import ScopeGrammar.Proofs.Context.Winner
import ScopeGrammar.Session.Step

/-!
# ScopeGrammar.Proofs.Span.Ends

The ends of a frame, against the frames around it.

* `openEnds` reads the ends off a whole stack: those of all begin/end frames down to the innermost
  frame of a capture.
* `Stacked` frames are opened one inside the other.
* `Stacked.ends_eq` : in such a stack the ends of a frame, each handed on by the frame around it,
  are the ones read off the stack, without those whose pattern comes twice.
-/

namespace ScopeGrammar

/-! ## Ends read off a stack -/

/-- The ends as they are seen from one frame further inside. -/
def fartherOut (ends : List (Nat × String)) : List (Nat × String) :=
  ends.map fun (distance, source) => (distance + 1, source)

/-- The ends of all begin/end frames down to the innermost frame of a capture, each with the number
of frames inside the one it closes. -/
def openEnds : List Frame → List (Nat × String)
  | [] => []
  | f :: outer =>
    match f.hold with
    | .untilEnd _ source => (0, source) :: fartherOut (openEnds outer)
    | .whileMatched _ _ => fartherOut (openEnds outer)
    | .capture => []

/-- Some frames further out is a begin/end frame with this end, and no capture before it. -/
def IsOpenEnd (frames : List Frame) (distance : Nat) (source : String) : Prop :=
  ∃ f rule, frames[distance]? = some f ∧ f.hold = .untilEnd rule source ∧
    ∀ g ∈ frames.take distance, g.hold ≠ .capture

theorem mem_fartherOut {ends : List (Nat × String)} {distance : Nat} {source : String} :
    (distance, source) ∈ fartherOut ends ↔ ∃ d, distance = d + 1 ∧ (d, source) ∈ ends := by
  simp only [fartherOut, List.mem_map, Prod.exists, Prod.mk.injEq]
  constructor
  · rintro ⟨d, s, hmem, rfl, rfl⟩; exact ⟨d, rfl, hmem⟩
  · rintro ⟨d, rfl, hmem⟩; exact ⟨d, source, hmem, rfl, rfl⟩

theorem isOpenEnd_succ {f : Frame} {outer : List Frame} {distance : Nat} {source : String}
    (hf : f.hold ≠ .capture) :
    IsOpenEnd (f :: outer) (distance + 1) source ↔ IsOpenEnd outer distance source := by
  simp [IsOpenEnd, hf]

theorem mem_openEnds {frames : List Frame} {distance : Nat} {source : String} :
    (distance, source) ∈ openEnds frames ↔ IsOpenEnd frames distance source := by
  induction frames generalizing distance with
  | nil => simp [openEnds, IsOpenEnd]
  | cons f outer ih =>
    rw [openEnds]
    cases hhold : f.hold with
    | untilEnd rule source' =>
      cases distance with
      | zero => simp [IsOpenEnd, hhold, mem_fartherOut, eq_comm]
      | succ d => simp [mem_fartherOut, ih, isOpenEnd_succ, hhold]
    | whileMatched rule source' =>
      cases distance with
      | zero => simp [IsOpenEnd, hhold, mem_fartherOut]
      | succ d => simp [mem_fartherOut, ih, isOpenEnd_succ, hhold]
    | capture =>
      cases distance with
      | zero => simp [IsOpenEnd, hhold]
      | succ d => simp [IsOpenEnd, hhold]

theorem pairwise_openEnds (frames : List Frame) :
    (openEnds frames).Pairwise fun x y => x.1 < y.1 := by
  induction frames with
  | nil => exact .nil
  | cons f outer ih =>
    have hfarther : (fartherOut (openEnds outer)).Pairwise fun x y => x.1 < y.1 := by
      rw [fartherOut, List.pairwise_map]
      exact ih.imp fun h => Nat.succ_lt_succ h
    rw [openEnds]
    split
    · refine .cons (fun ⟨d, source⟩ hmem => ?_) hfarther
      obtain ⟨d', rfl, _⟩ := mem_fartherOut.1 hmem
      exact Nat.succ_pos d'
    · exact hfarther
    · exact .nil

/-! ## Ends handed on -/

def EndMark.place (e : EndMark) : Nat × String := (e.distance, e.source)

theorem any_source_iff {ends : List EndMark} {source : String} :
    (ends.any (·.source == source)) = true ↔ source ∈ ends.map EndMark.source := by
  rw [List.any_eq_true, List.mem_map]
  simp only [beq_iff_eq]

/-- The ends outside are handed on in order, without patterns that were there before. -/
theorem outerEnds_place (own : Option EndMark) (ends : List EndMark) :
    (outerEnds own ends).map EndMark.place =
      fartherOut (dropRepeats (own.toList.map EndMark.source) (ends.map EndMark.place)) := by
  suffices h : ∀ acc : List EndMark,
      (ends.foldl
        (fun outer e =>
          if (own.toList ++ outer).any (·.source == e.source) then outer
          else outer ++ [{ e with distance := e.distance + 1 }]) acc).map EndMark.place =
        acc.map EndMark.place ++ fartherOut
          (dropRepeats ((own.toList ++ acc).map EndMark.source) (ends.map EndMark.place)) by
    simpa [outerEnds] using h []
  induction ends with
  | nil => intro acc; simp [dropRepeats, fartherOut]
  | cons e rest ih =>
    intro acc
    rw [List.foldl_cons, ih, List.map_cons, EndMark.place, dropRepeats]
    by_cases hseen : e.source ∈ (own.toList ++ acc).map EndMark.source
    · rw [if_pos (any_source_iff.2 hseen), if_pos hseen]
    · rw [if_neg (fun h => hseen (any_source_iff.1 h)), if_neg hseen]
      have hcongr : dropRepeats
          ((own.toList ++ (acc ++ [{ e with distance := e.distance + 1 }])).map EndMark.source)
          (rest.map EndMark.place) =
          dropRepeats (e.source :: (own.toList ++ acc).map EndMark.source)
            (rest.map EndMark.place) :=
        dropRepeats_congr fun s => by grind
      rw [hcongr]
      simp [EndMark.place, fartherOut]

theorem dropRepeats_fartherOut (seen : List String) (ends : List (Nat × String)) :
    dropRepeats seen (fartherOut ends) = fartherOut (dropRepeats seen ends) :=
  dropRepeats_map (· + 1)

/-- The ends handed on are those of the stack if the ones of the frame around are. -/
theorem spanFrame_ends_place {options : SessionOptions} (spans : OpenSpans) (base : GrammarId)
    (depth : Nat) (rule : RuleRef) (span : SpanRule) (source : String) (scopes : List Scope)
    (atEnd : Bool) (context : Context) (hon : options.closeOuterSpans = true)
    (hends : ((spans.top?.map (·.ends)).getD []).map EndMark.place =
      dropRepeats [] (openEnds spans.frames)) :
    (spanSituation options base rule span source spans).ends.map EndMark.place =
      dropRepeats [] (openEnds (spanFrame depth rule span source scopes atEnd context
        (spanSituation options base rule span source spans).ends :: spans.frames)) := by
  rw [Situation.ends, List.map_append, openEnds]
  simp only [spanSituation, spanFrame, holdOf, hon, if_true, outerEnds_place, hends]
  cases span.isWhile with
  | true =>
    simp only [if_true, Option.toList_none, List.map_nil, List.nil_append]
    rw [dropRepeats_fartherOut, dropRepeats_dropRepeats fun _ h => h]
  | false =>
    simp only [Bool.false_eq_true, if_false, Option.toList_some, List.map_cons, List.map_nil]
    rw [dropRepeats, if_neg (List.not_mem_nil), dropRepeats_fartherOut,
      dropRepeats_dropRepeats fun _ h => (List.not_mem_nil h).elim]
    rfl

/-- The ends name the begin/end frames of a stack, for every pattern the innermost one, in the order
in which they are met from the inside out. -/
structure ListsOpenEnds (frames : List Frame) (ends : List EndMark) : Prop where
  ascending : ends.Pairwise fun x y => x.distance < y.distance
  distinct : ends.Pairwise fun x y => x.source ≠ y.source
  named : ∀ e ∈ ends, IsOpenEnd frames e.distance e.source
  innermost : ∀ distance source, IsOpenEnd frames distance source →
    ∃ e ∈ ends, e.source = source ∧ e.distance ≤ distance

theorem listsOpenEnds_of_eq {frames : List Frame} {ends : List EndMark}
    (h : ends.map EndMark.place = dropRepeats [] (openEnds frames)) :
    ListsOpenEnds frames ends := by
  have hascending : (dropRepeats [] (openEnds frames)).Pairwise fun x y => x.1 < y.1 :=
    (pairwise_openEnds frames).sublist dropRepeats_sublist
  have hdistinct : (dropRepeats [] (openEnds frames)).Pairwise fun x y => x.2 ≠ y.2 :=
    pairwise_dropRepeats
  rw [← h, List.pairwise_map] at hascending hdistinct
  refine ⟨hascending, hdistinct, fun e he => ?_, fun distance source hopen => ?_⟩
  · have hmem : e.place ∈ dropRepeats [] (openEnds frames) := h ▸ List.mem_map_of_mem he
    exact mem_openEnds.1 (dropRepeats_sublist.subset hmem)
  · have hle := (pairwise_openEnds frames).imp fun h => Nat.le_of_lt h
    obtain ⟨d, hmem, hd⟩ := exists_mem_dropRepeats Nat.le_refl hle (mem_openEnds.2 hopen)
      List.not_mem_nil
    rw [← h, List.mem_map] at hmem
    obtain ⟨e, he, heq⟩ := hmem
    cases heq
    exact ⟨e, he, rfl, hd⟩

/-! ## Stacks of frames opened one inside the other -/

/-- Every frame has the context and the ends it is opened with inside the frames around it. -/
inductive Stacked (r : Registry) (base : GrammarId) (options : SessionOptions) :
    List Frame → Prop
  | nil : Stacked r base options []
  | span {outer : List Frame} {started : Bool} {depth : Nat} {rule : RuleRef} {span : SpanRule}
      {source : String} {context : Context} (scopes : List Scope) (atEnd : Bool) :
      Stacked r base options outer →
      r.span? rule = some span →
      context.entries =
        r.entriesFor (spanSituation options base rule span source ⟨outer, started⟩) →
      Stacked r base options (spanFrame depth rule span source scopes atEnd context
        (spanSituation options base rule span source ⟨outer, started⟩).ends :: outer)
  | capture {outer : List Frame} {depth : Nat} {grammarId : GrammarId} {id : CaptureId}
      {context : Context} (scopes : List Scope) : Stacked r base options outer →
      context.entries = r.entriesFor (.capture base grammarId id) →
      Stacked r base options (captureFrame depth scopes context :: outer)

namespace Stacked

variable {r r' : Registry} {base : GrammarId} {options : SessionOptions} {f : Frame}
  {outer : List Frame}

theorem tail (h : Stacked r base options (f :: outer)) : Stacked r base options outer := by
  cases h with
  | span _ _ h => exact h
  | capture _ h => exact h

theorem drop {frames : List Frame} (h : Stacked r base options frames) (n : Nat) :
    Stacked r base options (frames.drop n) := by
  induction n generalizing frames with
  | zero => exact h
  | succ n ih =>
    cases frames with
    | nil => exact .nil
    | cons f outer => exact ih h.tail

theorem congr {frames : List Frame} (h : Stacked r base options frames) (hr : r.SameGrammars r') :
    Stacked r' base options frames := by
  induction h with
  | nil => exact .nil
  | span scopes atEnd _ hspan hentries ih =>
    exact .span scopes atEnd ih (by rw [hr.span?_eq, hspan]) (by rw [hr.entriesFor_eq, hentries])
  | capture scopes _ hentries ih => exact .capture scopes ih (by rw [hr.entriesFor_eq, hentries])

/-- Where all ends are looked for, the ends of a frame are those read off the stack. -/
theorem ends_eq (spans : OpenSpans) (h : Stacked r base options spans.frames)
    (hon : options.closeOuterSpans = true) :
    ((spans.top?.map (·.ends)).getD []).map EndMark.place =
      dropRepeats [] (openEnds spans.frames) := by
  obtain ⟨frames, started⟩ := spans
  have hframes : Stacked r base options frames := h
  clear h
  induction hframes with
  | nil => rfl
  | @span outer started' depth rule span source context scopes atEnd _ hspan hentries ih =>
    exact spanFrame_ends_place ⟨outer, started'⟩ base _ rule span source scopes atEnd context hon ih
  | capture scopes _ hentries ih => rfl

/-- Otherwise a frame has its own end alone. -/
theorem ends_eq_own (h : Stacked r base options (f :: outer))
    (hoff : options.closeOuterSpans = false) :
    f.ends.map EndMark.place =
      match f.hold with
      | .untilEnd _ source => [(0, source)]
      | _ => [] := by
  cases h with
  | @span _ started depth rule span source context scopes atEnd _ hspan hentries =>
    simp only [Situation.ends, spanSituation, spanFrame, holdOf, hoff, Bool.false_eq_true, if_false]
    cases span.isWhile <;> rfl
  | capture scopes _ hentries => rfl

/-- Every end of a frame is one of the stack. -/
theorem isOpenEnd_of_mem (h : Stacked r base options (f :: outer)) {distance : Nat}
    {source : String} (hmem : (distance, source) ∈ f.ends.map EndMark.place) :
    IsOpenEnd (f :: outer) distance source := by
  cases hon : options.closeOuterSpans with
  | true =>
    have hends : f.ends.map EndMark.place = dropRepeats [] (openEnds (f :: outer)) :=
      ends_eq ⟨f :: outer, false⟩ h hon
    rw [hends] at hmem
    exact mem_openEnds.1 (dropRepeats_sublist.subset hmem)
  | false =>
    rw [h.ends_eq_own hon] at hmem
    split at hmem
    · next rule source' hhold =>
      rw [List.mem_singleton] at hmem
      cases hmem
      exact ⟨f, rule, rfl, hhold, fun g hg => (List.not_mem_nil hg).elim⟩
    · cases hmem

/-- The rule of a begin/end frame is a span. -/
theorem span?_of_untilEnd (h : Stacked r base options (f :: outer)) {rule : RuleRef}
    {source : String} (hhold : f.hold = .untilEnd rule source) :
    ∃ span, r.span? rule = some span := by
  cases h with
  | @span _ started depth rule' span source' context scopes atEnd _ hspan hentries =>
    simp only [spanFrame, holdOf] at hhold
    split at hhold
    · cases hhold
    · cases hhold; exact ⟨_, hspan⟩
  | capture scopes _ hentries => cases hhold

end Stacked

/-- The ends of a frame name the begin/end frames around it, or its own end alone where only that
is looked for. -/
def Frame.HasEnds (outerSpans : Bool) (f : Frame) (outer : List Frame) : Prop :=
  if outerSpans then ListsOpenEnds (f :: outer) f.ends
  else
    f.ends.map EndMark.place =
      match f.hold with
      | .untilEnd _ source => [(0, source)]
      | _ => []

theorem Stacked.hasEnds {r : Registry} {base : GrammarId} {options : SessionOptions} {f : Frame}
    {outer : List Frame} (h : Stacked r base options (f :: outer)) :
    f.HasEnds options.closeOuterSpans outer := by
  rw [Frame.HasEnds]
  split
  · next hon => exact listsOpenEnds_of_eq (ends_eq ⟨f :: outer, false⟩ h hon)
  · next hoff => exact h.ends_eq_own (by simpa using hoff)

end ScopeGrammar
