import ScopeGrammar.Proofs.Session.Run
import ScopeGrammar.Proofs.Text.Offsets
import ScopeGrammar.Proofs.Token.Tiling

/-!
# ScopeGrammar.Proofs.Session.Coverage

The tokens of a line cover it.

Nothing is assumed of the engine, of the scanner for captures, of the state or of what the session
has kept: every step only extends the cover of the line (`applyEffect_extends`), and a scan ends by
extending it to the end of the text (`applyAll_covers`), also where it gives up.
`tokenizeLine_tiles` is the result for a line.
-/

namespace ScopeGrammar

variable {P : Type} (engine : Engine P)

theorem Captured.scopeEntries_extends (scan : Option (Scanner P)) (c : Captured)
    (entries : List (Nat × CaptureId)) (groups : OpenGroups) (cover : Cover) (s : Session P) :
    cover.Extends ((c.scopeEntries scan entries groups cover).run s).1 := by
  induction entries generalizing groups cover s with
  | nil => exact groups.closeAll_extends cover
  | cons entry rest ih =>
    obtain ⟨i, id⟩ := entry
    rw [run_scopeEntries_cons]
    cases c.place? i id with
    | none => exact ih ..
    | some place =>
      obtain ⟨capture, start, stop⟩ := place
      have hopen := (groups.closeUpTo_extends start cover).trans (Cover.extends_extend _ start
        ((groups.closeUpTo start cover).1.scopes c.scopes))
      dsimp only
      split
      · exact hopen.trans ((Cover.extends_extendAll ..).trans (ih ..))
      · exact hopen.trans (ih ..)

namespace SessionM

variable (scan : Option (Scanner P)) (text : Subject)

theorem scopeGroups_extends (spans : OpenSpans) (scopes : List Scope) (grammarId : GrammarId)
    (table : CaptureTable) (found : Match) (firstLine : Bool) (cover : Cover) (s : Session P) :
    cover.Extends
      ((scopeGroups scan text spans scopes grammarId table found firstLine cover).run s).1 := by
  rw [run_scopeGroups]
  split
  · exact .refl cover
  · exact Captured.scopeEntries_extends ..

theorem scopeMatch_extends (m : Match) (line : LineState) (e : Effect) (s : Session P) :
    line.cover.Extends ((scopeMatch scan text m line e).run s).1 := by
  rw [run_scopeMatch]
  have hstart := line.cover.extends_extend m.start (s.plain line.spans)
  exact (hstart.trans (scopeGroups_extends ..)).trans (Cover.extends_extend ..)

theorem applyEffect_extends (m : Match) (line : LineState) (e : Effect) (s : Session P) :
    line.cover.Extends ((applyEffect scan text m line e).run s).1.cover := by
  have h := scopeMatch_extends scan text m line e s
  rw [run_applyEffect]
  cases e <;> exact h

theorem applyCandidate_extends {m : Match} {line line' : LineState}
    {candidate : Option Candidate} {s s' : Session P}
    (h : (applyCandidate scan text m line candidate).run s = (some line', s')) :
    line.cover.Extends line'.cover := by
  rw [run_applyCandidate] at h
  split at h
  · cases h
  · cases h
    exact applyEffect_extends ..

/-- A scan extends the cover to the end of the text, by induction on the steps it may take. -/
theorem applyAll_covers (steps : Nat) (line : LineState) (s : Session P) :
    let scanned := ((applyAll engine scan text steps line).run s).1
    line.cover.Extends scanned.cover ∧ text.length ≤ scanned.cover.reached := by
  induction steps generalizing line s with
  | zero => exact ⟨Cover.extends_extend .., Cover.le_reached_extend ..⟩
  | succ steps ih =>
    rw [run_applyAll_succ]
    dsimp only
    split
    · exact ⟨Cover.extends_extend .., Cover.le_reached_extend ..⟩
    · split
      · next line' happlied =>
        have hext : line.cover.Extends line'.cover :=
          applyCandidate_extends scan text (Prod.ext happlied rfl)
        exact ⟨hext.trans (ih ..).1, (ih ..).2⟩
      · exact ⟨Cover.extends_extend .., Cover.le_reached_extend ..⟩

theorem scanLine_covers (line : LineState) (s : Session P) :
    let scanned := ((scanLine engine scan text line).run s).1
    line.cover.Extends scanned.cover ∧ text.length ≤ scanned.cover.reached :=
  applyAll_covers ..

theorem heldGroups_extends (frame : Frame) (outer : List Frame) (rule : RuleRef) (m : Match)
    (line : LineState) (s : Session P) :
    line.cover.Extends (heldGroups scan text frame outer rule m line s).1 := by
  have hstart := line.cover.extends_extend m.start frame.contentScopes
  rw [heldGroups]
  split
  · exact hstart
  · exact hstart.trans (scopeGroups_extends ..)

theorem holdFrames_extends (inner outer : List Frame) (line : LineState) (s : Session P) :
    line.cover.Extends ((holdFrames engine scan text inner outer line).run s).1.cover := by
  induction inner generalizing outer line s with
  | nil => exact .refl _
  | cons frame inner ih =>
    rw [run_holdFrames_cons]
    split
    · dsimp only
      split
      · exact .refl _
      · next m _ =>
        exact (heldGroups_extends ..).trans ((Cover.extends_extend ..).trans (ih ..))
    · exact ih ..

theorem length_ofLine (line : String) : (Subject.ofLine line).length = line.length + 1 := by
  rw [Subject.length_eq]
  simp [Subject.ofLine, String.length_toList]

/-- The tokens of a line are not empty and lie one behind the other from 0 to the end of the line,
whatever the state and the session it is tokenized with. An empty line has none. -/
theorem tokenizeLine_tiles (s : Session P) (line : String) (state : OpenSpans) :
    let tokens := ((tokenizeLine engine line state).run s).1.tokens
    Tiles 0 line.length tokens ∧ (tokens = [] ↔ line = "") := by
  have htiles : Tiles 0 line.length ((tokenizeLine engine line state).run s).1.tokens := by
    rw [run_tokenizeLine]
    split
    · next hlong =>
      have hpos : 0 < line.length := by
        unfold isTooLong at hlong
        split at hlong <;> simp at hlong
        omega
      exact ⟨rfl, hpos, rfl⟩
    · dsimp only
      generalize hchecked : (holdSpans engine (captureScanner engine captureDepth) (.ofLine line)
        (startLine state)).run s = checked
      have hheld : (Cover.startingAt 0).Extends checked.1.cover := by
        rw [← hchecked]; exact holdFrames_extends ..
      obtain ⟨hext, hend⟩ := scanLine_covers engine (captureScanner engine captureDepth)
        (.ofLine line) checked.1 checked.2
      have hline : line.length ≤ (Subject.ofLine line).length := by
        rw [length_ofLine]; exact Nat.le_succ _
      exact Cover.clip_tiles (hheld.trans hext) (Nat.le_trans hline hend)
  refine ⟨htiles, htiles.eq_nil_iff.trans ?_⟩
  constructor
  · intro h; exact String.length_eq_zero_iff.1 h.symm
  · intro h; rw [h]; rfl

end SessionM

end ScopeGrammar
