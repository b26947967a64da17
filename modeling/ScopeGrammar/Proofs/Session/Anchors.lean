import ScopeGrammar.Proofs.Session.Isolation
import ScopeGrammar.Proofs.Session.LineEnd
import ScopeGrammar.Proofs.World.Depths

/-!
# ScopeGrammar.Proofs.Session.Anchors

Where `\A` and `\G` match within a line.

* `OpenSince` : frames that a scan has opened and not yet closed, with the anchor from before.
* `Cursor.Tracks` : the anchors that a cursor remembers are those of these frames, by depth. Every
  candidate keeps it so (`Applies.tracks`), whatever it opens or closes (`Applies.openSince_iff`).
* `Cursor.reanchor` finds the anchor of the outermost frame that is closed among them.
* `OpenSpans.AfterLines` : a state that so many lines lead to.
* `World.Reachable.anchors_within_line` puts this together for all scans of a line.
-/

namespace ScopeGrammar

variable {P : Type} {engine : Engine P}

/-! ## Remembered anchors -/

section Earlier

variable {earlier : List (Nat × Option Nat)} {depth : Nat} {anchor : Option Nat}

theorem mem_dropWhile_depth (h : earlier.Pairwise fun x y => y.1 < x.1) (x : Nat × Option Nat) :
    x ∈ earlier.dropWhile (fun (d, _) => depth ≤ d) ↔ x ∈ earlier ∧ x.1 < depth := by
  induction earlier with
  | nil => simp
  | cons y rest ih =>
    rw [List.pairwise_cons] at h
    by_cases hy : depth ≤ y.1
    · rw [List.dropWhile_cons_of_pos (by simpa using hy), ih h.2, List.mem_cons]
      constructor
      · exact fun hx => ⟨.inr hx.1, hx.2⟩
      · rintro ⟨rfl | hx, hlt⟩
        · omega
        · exact ⟨hx, hlt⟩
    · rw [List.dropWhile_cons_of_neg (by simpa using hy)]
      refine ⟨fun hx => ⟨hx, ?_⟩, And.left⟩
      obtain rfl | hx := List.mem_cons.1 hx
      · omega
      · have := h.1 x hx
        omega

theorem lookup_takeWhile_depth (h : earlier.Pairwise fun x y => y.1 < x.1) :
    (earlier.takeWhile fun (d, _) => depth ≤ d).reverse.lookup depth = earlier.lookup depth := by
  induction earlier with
  | nil => rfl
  | cons y rest ih =>
    obtain ⟨d, a⟩ := y
    rw [List.pairwise_cons] at h
    have hrest : d ≤ depth → rest.lookup depth = none := by
      intro hd
      rw [List.lookup_eq_none_iff]
      intro x hx
      have := h.1 x hx
      simp only [bne_iff_ne]
      omega
    obtain hd | rfl | hd := Nat.lt_trichotomy depth d
    · have hne : (depth == d) = false := by simp; omega
      rw [List.takeWhile_cons_of_pos (by simp; omega), List.reverse_cons, List.lookup_append,
        ih h.2]
      simp [List.lookup_cons, hne]
    · rw [List.takeWhile_cons_of_pos (by simp), List.reverse_cons, List.lookup_append, ih h.2,
        hrest (Nat.le_refl _)]
      simp
    · have hne : (depth == d) = false := by simp; omega
      rw [List.takeWhile_cons_of_neg (by simp; omega)]
      simp [List.lookup_cons, hne, hrest (by omega)]

theorem lookup_depth_of_mem (h : earlier.Pairwise fun x y => y.1 < x.1)
    (hmem : (depth, anchor) ∈ earlier) : earlier.lookup depth = some anchor := by
  obtain ⟨deeper, rest, rfl⟩ := List.append_of_mem hmem
  refine List.lookup_eq_some_iff.2 ⟨deeper, rest, rfl, fun x hx => ?_⟩
  have hlt : depth < x.1 := (List.pairwise_append.1 h).2.2 x hx _ (.head _)
  simp only [bne_iff_ne]
  omega

end Earlier

namespace Cursor

/-- The depths of the frames that are remembered get smaller. -/
def Ordered (c : Cursor) : Prop := c.earlierAnchors.Pairwise fun x y => y.1 < x.1

variable {c : Cursor} {depth : Nat}

theorem Ordered.reanchor (h : c.Ordered) (depth : Nat) : (c.reanchor depth).Ordered :=
  List.Pairwise.sublist (List.dropWhile_sublist _) h

theorem Ordered.mem_reanchor (h : c.Ordered) (x : Nat × Option Nat) :
    x ∈ (c.reanchor depth).earlierAnchors ↔ x ∈ c.earlierAnchors ∧ x.1 < depth :=
  mem_dropWhile_depth h x

theorem Ordered.reanchor_of_mem (h : c.Ordered) {anchor : Option Nat}
    (hmem : (depth, anchor) ∈ c.earlierAnchors) : (c.reanchor depth).anchor = anchor := by
  show (((c.earlierAnchors.takeWhile fun (d, _) => depth ≤ d).reverse).lookup depth).join = anchor
  rw [lookup_takeWhile_depth h, lookup_depth_of_mem h hmem]
  rfl

theorem Ordered.reanchor_of_not_mem (h : c.Ordered)
    (hmem : ∀ anchor, (depth, anchor) ∉ c.earlierAnchors) : (c.reanchor depth).anchor = none := by
  show (((c.earlierAnchors.takeWhile fun (d, _) => depth ≤ d).reverse).lookup depth).join = none
  have hnone : c.earlierAnchors.lookup depth = none := by
    rw [List.lookup_eq_none_iff]
    rintro ⟨d, anchor⟩ hx
    simp only [bne_iff_ne]
    rintro rfl
    exact hmem anchor hx
  rw [lookup_takeWhile_depth h, hnone]
  rfl

end Cursor

/-! ## Frames opened by a scan -/

theorem suffix_eq_of_length {α : Type} {a b l : List α} (ha : a <:+ l) (hb : b <:+ l)
    (h : a.length = b.length) : a = b :=
  (List.suffix_of_suffix_length_le ha hb (Nat.le_of_eq h)).eq_of_length h

/-- At the `k`-th point of the scan these frames are open. The innermost of them was opened by the
scan, with this anchor in force just before. -/
inductive OpenSince (engine : Engine P) (p : ScanPoint P) (frames : List Frame)
    (anchor : Option Nat) : Nat → ScanPoint P → Prop
  | opened {k : Nat} {o q : ScanPoint P} {m : Match} {rule : RuleRef} {grammar : Grammar}
      {span : SpanRule} : Chain engine p k o →
      o.effect? engine = some (m, .opening rule grammar span) → Applies engine o q →
      q.line.spans.frames = frames → o.line.cursor.anchor = anchor →
      OpenSince engine p frames anchor (k + 1) q
  | stays {k : Nat} {q r : ScanPoint P} : OpenSince engine p frames anchor k q →
      Applies engine q r → frames <:+ r.line.spans.frames →
      OpenSince engine p frames anchor (k + 1) r

theorem Chain.unique {p q q' : ScanPoint P} {k : Nat} (h : Chain engine p k q)
    (h' : Chain engine p k q') : q = q' := by
  induction h generalizing q' with
  | refl => cases h'; rfl
  | step _ happly ih =>
    cases h' with
    | step hchain' happly' =>
      cases ih hchain'
      exact happly.unique happly'

section OpenSince

variable {p q r : ScanPoint P} {frames : List Frame} {anchor : Option Nat} {k : Nat}

theorem OpenSince.chain (h : OpenSince engine p frames anchor k q) : Chain engine p k q := by
  induction h with
  | opened hchain _ happly _ _ => exact .step hchain happly
  | stays _ happly _ ih => exact .step ih happly

theorem OpenSince.suffix (h : OpenSince engine p frames anchor k q) :
    frames <:+ q.line.spans.frames := by
  cases h with
  | opened _ _ _ hframes _ => exact hframes ▸ List.suffix_rfl
  | stays _ _ hsuffix => exact hsuffix

/-- What a candidate leaves open: frames that were open before, and those it opens. -/
theorem Applies.openSince_iff (h : Applies engine q r) (hchain : Chain engine p k q) :
    OpenSince engine p frames anchor (k + 1) r ↔
      (OpenSince engine p frames anchor k q ∧ frames <:+ r.line.spans.frames) ∨
      (∃ m rule grammar span, q.effect? engine = some (m, .opening rule grammar span)) ∧
        r.line.spans.frames = frames ∧ q.line.cursor.anchor = anchor := by
  constructor
  · intro hopen
    cases hopen with
    | opened hchain' heffect _ hframes hanchor =>
      obtain rfl := hchain.unique hchain'
      exact .inr ⟨⟨_, _, _, _, heffect⟩, hframes, hanchor⟩
    | stays hopen _ hsuffix =>
      obtain rfl := hchain.unique hopen.chain
      exact .inl ⟨hopen, hsuffix⟩
  · rintro (⟨hopen, hsuffix⟩ | ⟨⟨m, rule, grammar, span, heffect⟩, hframes, hanchor⟩)
    · exact .stays hopen h hsuffix
    · exact .opened hchain heffect h hframes hanchor

/-- All frames that were not there when the scan began were opened by it. -/
theorem Chain.openSince (h : Chain engine p k q) {f : Frame} {outer : List Frame}
    (hf : f :: outer <:+ q.line.spans.frames) (hnew : ¬ f :: outer <:+ p.line.spans.frames) :
    ∃ anchor, OpenSince engine p (f :: outer) anchor k q := by
  induction h with
  | refl => exact absurd hf hnew
  | step hchain happly ih =>
    obtain hsuffix | ⟨m, rule, grammar, span, heffect⟩ := happly.suffix_or_opens
    · obtain ⟨anchor, hopen⟩ := ih (hf.trans hsuffix)
      exact ⟨anchor, .stays hopen happly hf⟩
    · obtain ⟨g, hopened, _⟩ := happly.opens heffect
      obtain heq | hsuffix := List.suffix_cons_iff.1 (hopened ▸ hf)
      · exact ⟨_, .opened hchain heffect happly (hopened.trans heq.symm) rfl⟩
      · obtain ⟨anchor, hopen⟩ := ih hsuffix
        exact ⟨anchor, .stays hopen happly hf⟩

end OpenSince

/-! ## What the cursor remembers -/

/-- The remembered anchors are those of the frames that the scan has opened, by their depth. -/
structure Cursor.Tracks (engine : Engine P) (p : ScanPoint P) (k : Nat) (q : ScanPoint P) :
    Prop where
  ordered : q.line.cursor.Ordered
  mem_iff : ∀ depth anchor, (depth, anchor) ∈ q.line.cursor.earlierAnchors ↔
    ∃ frames, frames.length = depth ∧ OpenSince engine p frames anchor k q

/-- The cursor after a candidate, for each of the effects. -/
theorem Applies.cursor {p q : ScanPoint P} (h : Applies engine p q) {m : Match} {e : Effect}
    (heffect : p.effect? engine = some (m, e)) :
    q.line.cursor = match e with
      | .closing target _ _ _ => (p.line.cursor.reanchor target.depth).passSpan m.stop
      | .single _ _ => p.line.cursor.passRule m.stop
      | .opening _ _ _ =>
        (p.line.cursor.openFrame (p.line.spans.depth + 1) m.stop).passSpan m.stop := by
  obtain ⟨m', e', s, heffect', hline⟩ := h.effect
  rw [heffect] at heffect'
  cases heffect'
  rw [hline]
  cases e <;> rfl

theorem Applies.closes {p q : ScanPoint P} (h : Applies engine p q) {m : Match} {target : Frame}
    {outer : List Frame} {rule : RuleRef} {span : SpanRule}
    (heffect : p.effect? engine = some (m, .closing target outer rule span)) :
    target :: outer <:+ p.line.spans.frames ∧ q.line.spans.frames = outer := by
  obtain ⟨m', e', s, heffect', hline⟩ := h.effect
  rw [heffect] at heffect'
  cases heffect'
  obtain ⟨i, s', _, hfound⟩ := ScanPoint.effect?_eq_some heffect
  obtain ⟨c, _, hhas⟩ := Registry.hasEffect_of_effect? hfound
  cases hhas with
  | closing hdrop _ _ => exact ⟨hdrop ▸ List.drop_suffix .., by rw [hline]; rfl⟩

theorem Cursor.passRule_earlierAnchors (c : Cursor) (stop : Nat) :
    (c.passRule stop).earlierAnchors = c.earlierAnchors := by
  unfold passRule moveTo
  split <;> rfl

section Tracks

variable {p q r : ScanPoint P} {k : Nat}

theorem Cursor.Tracks.of_fresh (h : p.line.cursor.earlierAnchors = []) :
    Cursor.Tracks engine p 0 p := by
  refine ⟨by rw [Ordered, h]; exact .nil, fun depth anchor => ?_⟩
  rw [h]
  constructor
  · intro hmem
    cases hmem
  · rintro ⟨frames, _, hopen⟩
    cases hopen

theorem Applies.tracks (h : Applies engine q r) (hchain : Chain engine p k q)
    (hq : Counted q.line.spans.frames) (ht : Cursor.Tracks engine p k q) :
    Cursor.Tracks engine p (k + 1) r := by
  obtain ⟨m, e, _, heffect, _⟩ := h.effect
  have hcursor := h.cursor heffect
  cases e with
  | closing target outer rule span =>
    obtain ⟨hsuffix, hframes⟩ := h.closes heffect
    have hearlier : r.line.cursor.earlierAnchors =
        (q.line.cursor.reanchor target.depth).earlierAnchors := by
      rw [hcursor, Cursor.passSpan_earlierAnchors]
    have hdepth := hq.depth_eq hsuffix
    refine ⟨by rw [Cursor.Ordered, hearlier]; exact ht.ordered.reanchor _, fun depth anchor => ?_⟩
    rw [hearlier, ht.ordered.mem_reanchor, ht.mem_iff]
    constructor
    · rintro ⟨⟨frames, hlength, hopen⟩, hlt⟩
      have houter : outer <:+ q.line.spans.frames := (List.suffix_cons ..).trans hsuffix
      have hkept : frames <:+ outer :=
        List.suffix_of_suffix_length_le hopen.suffix houter (by omega)
      exact ⟨frames, hlength, .stays hopen h (hframes ▸ hkept)⟩
    · rintro ⟨frames, hlength, hopen⟩
      have hle := hopen.suffix.length_le
      rw [hframes] at hle
      obtain ⟨hopen, _⟩ | ⟨⟨_, _, _, _, hopens⟩, _⟩ := (h.openSince_iff hchain).1 hopen
      · exact ⟨⟨frames, hlength, hopen⟩, by omega⟩
      · rw [heffect] at hopens
        cases hopens
  | single rule single =>
    have hframes : r.line.spans.frames = q.line.spans.frames := by
      obtain ⟨_, _, _, heffect', hline⟩ := h.effect
      rw [heffect] at heffect'
      cases heffect'
      rw [hline]
      rfl
    have hearlier : r.line.cursor.earlierAnchors = q.line.cursor.earlierAnchors := by
      rw [hcursor, Cursor.passRule_earlierAnchors]
    refine ⟨by rw [Cursor.Ordered, hearlier]; exact ht.ordered, fun depth anchor => ?_⟩
    rw [hearlier, ht.mem_iff]
    refine exists_congr fun frames => and_congr_right fun _ => ?_
    rw [h.openSince_iff hchain, hframes]
    constructor
    · exact fun hopen => .inl ⟨hopen, hopen.suffix⟩
    · rintro (⟨hopen, _⟩ | ⟨⟨_, _, _, _, hopens⟩, _⟩)
      · exact hopen
      · rw [heffect] at hopens
        cases hopens
  | opening rule grammar span =>
    obtain ⟨f, hframes, _⟩ := h.opens heffect
    have hearlier : r.line.cursor.earlierAnchors =
        (q.line.spans.frames.length + 1, q.line.cursor.anchor) ::
          q.line.cursor.earlierAnchors := by
      rw [hcursor, Cursor.passSpan_earlierAnchors, ← hq.depth_spans]
      rfl
    constructor
    · rw [Cursor.Ordered, hearlier, List.pairwise_cons]
      refine ⟨fun x hx => ?_, ht.ordered⟩
      obtain ⟨frames, hlength, hopen⟩ := (ht.mem_iff x.1 x.2).1 hx
      have hle := hopen.suffix.length_le
      show x.1 < q.line.spans.frames.length + 1
      omega
    · intro depth anchor
      rw [hearlier, List.mem_cons, ht.mem_iff]
      constructor
      · rintro (heq | ⟨frames, hlength, hopen⟩)
        · cases heq
          exact ⟨_, by rw [hframes]; rfl, .opened hchain heffect h rfl rfl⟩
        · exact ⟨frames, hlength,
            .stays hopen h (hframes ▸ hopen.suffix.trans (List.suffix_cons ..))⟩
      · rintro ⟨frames, hlength, hopen⟩
        obtain ⟨hopen, _⟩ | ⟨_, heq, hanchor⟩ := (h.openSince_iff hchain).1 hopen
        · exact .inr ⟨frames, hlength, hopen⟩
        · rw [← heq, hframes, List.length_cons] at hlength
          rw [← hlength, ← hanchor]
          exact .inl rfl

theorem Chain.tracks (h : Chain engine p k q) (hp : p.line.cursor.earlierAnchors = [])
    (hcounted : Counted p.line.spans.frames) : Cursor.Tracks engine p k q := by
  induction h with
  | refl => exact .of_fresh hp
  | step hchain happly ih => exact happly.tracks hchain (hchain.leads.counted hcounted) ih

/-- Closing goes back to the anchor from before the outermost frame that is closed was opened. -/
theorem Cursor.Tracks.reanchor (h : Cursor.Tracks engine p k q) {target : Frame}
    {outer : List Frame} (hdepth : target.depth = outer.length + 1) {anchor : Option Nat}
    (hopen : OpenSince engine p (target :: outer) anchor k q) :
    (q.line.cursor.reanchor target.depth).anchor = anchor :=
  h.ordered.reanchor_of_mem ((h.mem_iff _ _).2 ⟨target :: outer, hdepth.symm, hopen⟩)

theorem Cursor.Tracks.reanchor_none (h : Cursor.Tracks engine p k q) {target : Frame}
    {outer : List Frame} (hdepth : target.depth = outer.length + 1)
    (hsuffix : target :: outer <:+ q.line.spans.frames)
    (hopen : ∀ anchor, ¬ OpenSince engine p (target :: outer) anchor k q) :
    (q.line.cursor.reanchor target.depth).anchor = none := by
  refine h.ordered.reanchor_of_not_mem fun anchor hmem => ?_
  obtain ⟨frames, hlength, hopen'⟩ := (h.mem_iff _ _).1 hmem
  obtain rfl : frames = target :: outer :=
    suffix_eq_of_length hopen'.suffix hsuffix (hlength.trans hdepth)
  exact hopen anchor hopen'

end Tracks

/-! ## The start of the document -/

/-- A state that so many lines lead to from the fresh one, each tokenized in any session. -/
inductive OpenSpans.AfterLines (engine : Engine P) : Nat → OpenSpans → Prop
  | fresh : AfterLines engine 0 .fresh
  | line {n : Nat} {state : OpenSpans} (line : String) (s : Session P) :
      AfterLines engine n state →
      AfterLines engine (n + 1) ((SessionM.tokenizeLine engine line state).run s).1.state

theorem OpenSpans.AfterLines.counted {n : Nat} {state : OpenSpans}
    (h : state.AfterLines engine n) : Counted state.frames := by
  induction h with
  | fresh => exact .nil
  | line line s _ ih => exact (SessionM.tokenizeLine_leads line _ s).counted ih

theorem OpenSpans.AfterLines.started_iff {n : Nat} {state : OpenSpans}
    (h : state.AfterLines engine n) : state.started = true ↔ n ≠ 0 := by
  cases h with
  | fresh => simp [OpenSpans.fresh]
  | line line s _ =>
    rw [SessionM.run_tokenizeLine]
    split <;> simp [start]

/-- Nothing of the document lies before the cursor of a line, where `started` tells whether a line
was tokenized before. -/
def Cursor.Fresh (started : Bool) (c : Cursor) : Prop :=
  c.firstLine = true ↔ started = false ∧ c.pos = 0

namespace Cursor.Fresh

variable {started : Bool} {c : Cursor}

theorem moveTo {pos : Nat} (hpos : c.pos < pos) : (c.moveTo pos).Fresh started := by
  have : pos ≠ 0 := by omega
  simp [Fresh, Cursor.moveTo, this]

theorem passSpan (h : c.Fresh started) (stop : Nat) : (c.passSpan stop).Fresh started := by
  unfold Cursor.passSpan
  split
  · next hlt => exact moveTo hlt
  · split
    · exact moveTo (Nat.lt_succ_self _)
    · exact h

theorem passRule (stop : Nat) : (c.passRule stop).Fresh started := by
  unfold Cursor.passRule
  split
  · next hlt => exact moveTo hlt
  · exact moveTo (Nat.lt_succ_self _)

theorem passWhile (h : c.Fresh started) (stop : Nat) : (c.passWhile stop).Fresh started := by
  unfold Cursor.passWhile
  split
  · next hlt =>
    have : stop ≠ 0 := by omega
    simp [Fresh, this]
  · exact h

end Cursor.Fresh

theorem SessionM.holdFrames_fresh {started : Bool} (scan : Option (Scanner P)) (text : Subject)
    {inner outer : List Frame} {line : LineState} {s : Session P}
    (h : line.cursor.Fresh started) :
    ((holdFrames engine scan text inner outer line).run s).1.cursor.Fresh started := by
  induction inner generalizing outer line s with
  | nil => exact h
  | cons frame inner ih =>
    rw [run_holdFrames_cons]
    split
    · dsimp only
      split
      · exact h
      · exact ih (h.passWhile _)
    · exact ih h

theorem Applies.fresh {started : Bool} {p q : ScanPoint P} (h : Applies engine p q)
    (hp : p.line.cursor.Fresh started) : q.line.cursor.Fresh started := by
  obtain ⟨m, e, _, heffect, _⟩ := h.effect
  rw [h.cursor heffect]
  cases e with
  | closing target outer rule span => exact Cursor.Fresh.passSpan (by exact hp) m.stop
  | single rule single => exact Cursor.Fresh.passRule m.stop
  | opening rule grammar span => exact Cursor.Fresh.passSpan (by exact hp) m.stop

theorem Chain.fresh {started : Bool} {p q : ScanPoint P} {k : Nat} (h : Chain engine p k q)
    (hp : p.line.cursor.Fresh started) : q.line.cursor.Fresh started := by
  induction h with
  | refl => exact hp
  | step _ happly ih => exact happly.fresh ih

/-! ## Scans of a line -/

section Begins

variable {text : Subject} {line : LineState} {s : Session P} {depth k : Nat} {p q : ScanPoint P}

theorem Begins.earlierAnchors (h : Begins engine text line s depth p)
    (hline : line.cursor.earlierAnchors = []) : p.line.cursor.earlierAnchors = [] := by
  have hcapture : ∀ levels, p.OfCapture levels → p.line.cursor.earlierAnchors = [] := by
    rintro levels ⟨inner, _, c, id, scopes, start, stop, s, rfl⟩
    rfl
  cases h with
  | held h => exact hcapture _ (heldScans_ofCapture h)
  | line h =>
    rw [← h]
    exact (SessionM.holdFrames_cursor _ _ _ _ _ _).2.trans hline
  | nested _ _ h => exact hcapture _ (ScanPoint.nested_ofCapture h)

theorem Begins.fresh_of_line {started : Bool} (h : Begins engine text line s depth p)
    (hline : line.cursor.Fresh started) (hp : p.capture = none) :
    p.line.cursor.Fresh started := by
  have hcapture : ∀ levels, ¬ p.OfCapture levels := by
    rintro levels ⟨inner, _, c, id, scopes, start, stop, s, rfl⟩
    cases hp
  cases h with
  | held h => exact absurd (heldScans_ofCapture h) (hcapture _)
  | line h =>
    rw [← h]
    exact SessionM.holdFrames_fresh _ _ hline
  | nested _ _ h => exact absurd (ScanPoint.nested_ofCapture h) (hcapture _)

/-- The scan of a capture begins with the frame of the capture, which no end of the capture
closes. -/
theorem Begins.raised {rootScopes : List Scope} (h : Begins engine text line s depth p)
    (hs : s.Stands rootScopes) (hp : p.capture ≠ none) :
    ∃ root bottom base, p.line.spans.frames = bottom :: base ∧
      p.line.spans.RaisedOn root bottom base := by
  have hbegun : ∀ s' a, s'.Stands rootScopes → p.BegunFrom engine s' a →
      ∃ root bottom base, p.line.spans.frames = bottom :: base ∧
        p.line.spans.RaisedOn root bottom base := by
    rintro s' a hs' ⟨hleads, _, _⟩
    exact ⟨_, _, _, rfl, 1, .bottom rfl (.captureFrame (hs'.after hleads) List.prefix_rfl _ _ _ _ 1)⟩
  cases h with
  | held h => exact hbegun s line.spans hs (heldScans_begun (by simp) h)
  | line h => exact absurd rfl hp
  | nested hbegins hchain h =>
    exact hbegun _ _ (hs.after (hbegins.leads.trans hchain.leads)) (ScanPoint.nested_begun h)

end Begins

/-- What is closed in a capture is above the frame of the capture. -/
theorem OpenSpans.RaisedOn.suffix_of_closing {root : List Scope} {bottom : Frame}
    {base : List Frame} {q : ScanPoint P} (h : q.line.spans.RaisedOn root bottom base) {m : Match}
    {target : Frame} {outer : List Frame} {rule : RuleRef} {span : SpanRule}
    (heffect : q.effect? engine = some (m, .closing target outer rule span)) :
    bottom :: base <:+ outer := by
  obtain ⟨i, s, _, hfound⟩ := ScanPoint.effect?_eq_some heffect
  have hroot : root <+: root := List.prefix_rfl
  obtain ⟨_, houter⟩ := (h.effect hfound hroot).2.2 _ _ _ _ rfl
  exact houter.suffix

/-- In every scan of a line and at every point of it: the cursor remembers an anchor for the frames
that the scan has opened and not closed, the deepest first, each with the anchor that was in force
just before. So an end, whatever other frames it closes, goes back to the anchor from before its
frame was opened; there is none if the scan has not opened that frame, which is then one of an
earlier line. In the scan of the line itself `\A` may match at its very start and nowhere else, and
only if no line was tokenized before. -/
theorem World.Reachable.anchors_within_line {w : World P} (h : w.Reachable engine)
    (t : Tokenizer P) {n : Nat} {state : OpenSpans} (hstate : state.AfterLines engine n)
    {line : String} {depth k : Nat} {p q : ScanPoint P}
    (hbegins : Begins engine (.ofLine line) (SessionM.startLine state) (w.session t) depth p)
    (hchain : Chain engine p k q) :
    (q.line.cursor.earlierAnchors.Pairwise fun x y => y.1 < x.1) ∧
    (∀ d anchor, (d, anchor) ∈ q.line.cursor.earlierAnchors ↔ ∃ frames,
      frames <:+ q.line.spans.frames ∧ frames.length = d ∧
        OpenSince engine p frames anchor k q) ∧
    (∀ m target outer rule span r,
      q.effect? engine = some (m, .closing target outer rule span) → Applies engine q r →
      target :: outer <:+ q.line.spans.frames ∧ r.line.spans.frames = outer ∧
      (∀ anchor, OpenSince engine p (target :: outer) anchor k q →
        r.line.cursor.anchor = anchor) ∧
      ((∀ anchor, ¬ OpenSince engine p (target :: outer) anchor k q) →
        p.capture = none ∧ r.line.cursor.anchor = none)) ∧
    (p.capture = none →
      (q.line.cursor.anchors.allowStart = true ↔ n = 0 ∧ q.line.cursor.pos = 0)) := by
  have hcounted : Counted p.line.spans.frames := hbegins.leads.counted hstate.counted
  have ht : Cursor.Tracks engine p k q := hchain.tracks (hbegins.earlierAnchors rfl) hcounted
  have hs : (w.session t).Stands t.rootScopes := ⟨h.current, rfl⟩
  refine ⟨ht.ordered, fun d anchor => ?_, fun m target outer rule span r heffect happly => ?_, ?_⟩
  · rw [ht.mem_iff]
    exact exists_congr fun frames =>
      ⟨fun hopen => ⟨hopen.2.suffix, hopen⟩, fun hopen => hopen.2⟩
  · obtain ⟨hsuffix, hframes⟩ := happly.closes heffect
    have hanchor : r.line.cursor.anchor =
        (q.line.cursor.reanchor target.depth).anchor := by
      rw [happly.cursor heffect, Cursor.passSpan_anchor]
    have hdepth := (hchain.leads.counted hcounted).depth_eq hsuffix
    refine ⟨hsuffix, hframes, fun anchor hopen => hanchor.trans (ht.reanchor hdepth hopen),
      fun hopen => ⟨?_, hanchor.trans (ht.reanchor_none hdepth hsuffix hopen)⟩⟩
    by_contra hcapture
    obtain ⟨root, bottom, base, hbase, hraised⟩ := hbegins.raised hs hcapture
    have hq := (hchain.raised (hs.after hbegins.leads) hraised).2
    have houter := (hq.suffix_of_closing heffect).length_le
    have hnew : ¬ target :: outer <:+ p.line.spans.frames := by
      intro hold
      have := hold.length_le
      rw [hbase] at this
      simp only [List.length_cons] at this houter
      omega
    obtain ⟨anchor, hopened⟩ := hchain.openSince hsuffix hnew
    exact hopen anchor hopened
  · intro hcapture
    have hstart : (SessionM.startLine state).cursor.Fresh state.started := by
      simp [Cursor.Fresh, SessionM.startLine, LineState.startingAt, Cursor.startingAt]
    have hfresh := hchain.fresh (hbegins.fresh_of_line hstart hcapture)
    have hstarted : state.started = false ↔ n = 0 := by
      rw [← Bool.not_eq_true, hstate.started_iff, not_not]
    exact hfresh.trans (and_congr_left fun _ => hstarted)

/-! ### Spans of one line and of an earlier one -/

/-- The points of the scan of a line, as far as it moves on. -/
def PastLine.point (engine : Engine P) (l : PastLine P) : Nat → ScanPoint P
  | 0 => l.scan engine
  | k + 1 => (l.point engine k).next engine

theorem PastLine.applies_point {l : PastLine P} {k : Nat}
    (h : (l.point engine (k + 1)).line.cursor.pos ≠ (l.point engine k).line.cursor.pos) :
    Applies engine (l.point engine k) (l.point engine (k + 1)) :=
  ScanPoint.applies_next h

theorem PastLine.chain_point {l : PastLine P} {k : Nat}
    (h : ∀ j < k, (l.point engine (j + 1)).line.cursor.pos ≠ (l.point engine j).line.cursor.pos) :
    Chain engine (l.scan engine) k (l.point engine k) := by
  induction k with
  | zero => exact .refl
  | succ k ih =>
    exact .step (ih fun j hj => h j (by omega)) (applies_point (h k (Nat.lt_succ_self k)))

/-- The frame of the span from `a` on a line before. -/
def nestedSpansOpened : OpenSpans :=
  ((SessionM.tokenizeLine oneCharacter "a" .fresh).run
    (nestedSpansWorld.session nestedSpansTokenizer)).1.state

def nestedSpansInside : PastLine Char :=
  ⟨"aacb", nestedSpansOpened, nestedSpansWorld.session nestedSpansTokenizer⟩

/-- Behind `aac` the anchors of three frames are remembered. The `b` closes the two inner ones, and
the anchor is again where the outer `a` ends. -/
theorem anchors_within_line_aacb :
    nestedSpansWorld.Reachable oneCharacter ∧ nestedSpansOpened.AfterLines oneCharacter 1 ∧
      let p := nestedSpansInside.scan oneCharacter
      let q := nestedSpansInside.point oneCharacter 3
      let r := nestedSpansInside.point oneCharacter 4
      Begins oneCharacter (.ofLine "aacb") (SessionM.startLine nestedSpansOpened)
        (nestedSpansWorld.session nestedSpansTokenizer) 0 p ∧
      Chain oneCharacter p 3 q ∧ Applies oneCharacter q r ∧
      q.line.cursor.earlierAnchors = [(4, some 2), (3, some 1), (2, none)] ∧
      (∃ frames, frames.length = 3 ∧ OpenSince oneCharacter p frames (some 1) 3 q) ∧
      r.line.cursor.anchor = some 1 ∧ q.line.cursor.anchors.allowStart = false := by
  have hafter : nestedSpansOpened.AfterLines oneCharacter 1 := .line "a" _ .fresh
  have hmoves : ∀ j < 4, (nestedSpansInside.point oneCharacter (j + 1)).line.cursor.pos ≠
      (nestedSpansInside.point oneCharacter j).line.cursor.pos := by decide +kernel
  have hchain : Chain oneCharacter (nestedSpansInside.scan oneCharacter) 3
      (nestedSpansInside.point oneCharacter 3) :=
    PastLine.chain_point fun j hj => hmoves j (by omega)
  have happly : Applies oneCharacter (nestedSpansInside.point oneCharacter 3)
      (nestedSpansInside.point oneCharacter 4) := PastLine.applies_point (hmoves 3 (by decide))
  have hbegins : Begins oneCharacter (.ofLine "aacb") (SessionM.startLine nestedSpansOpened)
      (nestedSpansWorld.session nestedSpansTokenizer) 0 (nestedSpansInside.scan oneCharacter) :=
    .line rfl
  have hearlier : (nestedSpansInside.point oneCharacter 3).line.cursor.earlierAnchors =
      [(4, some 2), (3, some 1), (2, none)] := by decide +kernel
  have hcloses : ((nestedSpansInside.point oneCharacter 3).effect? oneCharacter).map
      (fun p => (p.2.spans .fresh).frames.length) = some 3 := by decide +kernel
  obtain ⟨_, hmem, hclosing, hstart⟩ :=
    nestedSpansWorld_reachable.anchors_within_line nestedSpansTokenizer hafter hbegins hchain
  obtain ⟨frames, hsuffix, hlength, hopen⟩ := (hmem 3 (some 1)).1 (by rw [hearlier]; simp)
  refine ⟨nestedSpansWorld_reachable, hafter, hbegins, hchain, happly, hearlier,
    ⟨frames, hlength, hopen⟩, ?_, ?_⟩
  · obtain ⟨⟨m, e⟩, heffect, hframes⟩ := Option.map_eq_some_iff.1 hcloses
    cases e with
    | closing target outer rule span =>
      have hthree : (target :: outer).length = 3 := hframes
      obtain ⟨htarget, _, hanchor, _⟩ := hclosing _ _ _ _ _ _ heffect happly
      obtain rfl : frames = target :: outer :=
        suffix_eq_of_length hsuffix htarget (by rw [hlength, hthree])
      exact hanchor _ hopen
    | single rule r => cases hframes
    | opening rule grammar span => cases hframes
  · rw [← Bool.not_eq_true, hstart rfl]
    exact fun hfirst => absurd hfirst.1 (by decide)

end ScopeGrammar
