import ScopeGrammar.Proofs.Session.Scan

/-!
# ScopeGrammar.Proofs.Session.Progress

Every scan moves forward and ends.

A candidate moves the cursor on (`Cursor.Moves`), or leaves it stuck where it was not stuck before.
What is left to do is twice the length of the rest of the text, and one less when the cursor is
stuck; each candidate makes it smaller (`Applies.moves`). So the steps that a scan is given lead it
to its end (`ScanPoint.result_ends`). Captures are scanned with one level less than the scan they
are met in, which bounds how deep they are nested (`Begins.depth_add_levels`).

`scan_progress` puts this together for every scan of a line.
-/

namespace ScopeGrammar

variable {P : Type} {engine : Engine P}

/-! ## Steps of the cursor -/

/-- One step of a cursor: it moves on, or it gets stuck in its place. -/
inductive Cursor.Moves (c d : Cursor) : Prop
  | on : c.pos < d.pos → d.stuck = false → Moves c d
  | stall : d.pos = c.pos → c.stuck = false → d.stuck = true → Moves c d

namespace Cursor

theorem moves_passSpan (c : Cursor) (stop : Nat) : c.Moves (c.passSpan stop) := by
  unfold passSpan
  split
  · next h => exact .on h rfl
  · split
    · exact .on (Nat.lt_succ_self _) rfl
    · next h => exact .stall rfl (by simpa using h) rfl

theorem moves_passRule (c : Cursor) (stop : Nat) : c.Moves (c.passRule stop) := by
  unfold passRule
  split
  · next h => exact .on h rfl
  · exact .on (Nat.lt_succ_self _) rfl

namespace Moves

variable {c d e : Cursor}

theorem le (h : c.Moves d) : c.pos ≤ d.pos := by
  cases h with
  | on hlt _ => exact Nat.le_of_lt hlt
  | stall heq _ _ => exact Nat.le_of_eq heq.symm

theorem of_eq (h : c.Moves d) (hpos : e.pos = c.pos) (hstuck : e.stuck = c.stuck) : e.Moves d := by
  cases h with
  | on hlt hfree => exact .on (hpos ▸ hlt) hfree
  | stall heq hfree hd => exact .stall (heq.trans hpos.symm) (hstuck.trans hfree) hd

/-- Of two steps in a row one at least moves on. -/
theorem lt_or_lt (h₁ : c.Moves d) (h₂ : d.Moves e) : c.pos < d.pos ∨ d.pos < e.pos := by
  cases h₁ with
  | on hlt _ => exact .inl hlt
  | stall _ _ hstuck =>
    cases h₂ with
    | on hlt _ => exact .inr hlt
    | stall _ hfree _ => rw [hstuck] at hfree; cases hfree

end Moves

/-- An upper bound of the steps from here to the end of a text. -/
def left (length : Nat) (c : Cursor) : Nat := 2 * (length - c.pos) - (if c.stuck then 1 else 0)

theorem Moves.left_lt {c d : Cursor} {length : Nat} (h : c.Moves d) (hin : c.pos < length) :
    d.left length < c.left length := by
  unfold left
  cases h with
  | on hlt hfree =>
    simp only [hfree, Bool.false_eq_true, if_false]
    split <;> omega
  | stall heq hfree hstuck =>
    rw [heq, hfree, hstuck]
    simp only [if_true, Bool.false_eq_true, if_false]
    omega

end Cursor

/-! ## Steps of a scan -/

/-- Nothing is found at or behind the end of a text. -/
theorem ContextGroup.lt_of_search {g : ContextGroup P} {t : Subject} {pos : Nat}
    {found : Nat × Match} (h : g.search engine t pos = some found) : pos < t.length := by
  unfold search PatternGroup.search at h
  by_cases hin : pos < t.length
  · exact hin
  · simp [Nat.not_lt.1 hin] at h

theorem ScanPoint.pos_lt_of_search {p : ScanPoint P} {i : Nat} {m : Match} {s : Session P}
    (h : p.search engine = (some (i, m), s)) : p.pos < p.text.length := by
  rw [search, SessionM.run_searchContext] at h
  exact ContextGroup.lt_of_search (congrArg Prod.fst h)

theorem SessionM.applyEffect_moves (scan : Option (Scanner P)) (text : Subject) (m : Match)
    (line : LineState) (e : Effect) (s : Session P) :
    line.cursor.Moves ((applyEffect scan text m line e).run s).1.cursor := by
  rw [run_applyEffect]
  cases e with
  | closing target outer rule span =>
    -- closing only puts the anchor back before it moves
    exact (Cursor.moves_passSpan (line.cursor.reanchor target.depth) m.stop).of_eq rfl rfl
  | single rule single => exact Cursor.moves_passRule line.cursor m.stop
  | opening rule grammar span =>
    exact (Cursor.moves_passSpan (line.cursor.openFrame (line.spans.depth + 1) m.stop)
      m.stop).of_eq rfl rfl

namespace ScanPoint

def left (p : ScanPoint P) : Nat := p.line.cursor.left p.text.length

theorem left_pos {p : ScanPoint P} (h : p.pos < p.text.length) : 0 < p.left := by
  have hpos : p.line.cursor.pos < p.text.length := h
  unfold left Cursor.left
  split <;> omega

theorem left_of_free {p : ScanPoint P} (h : p.line.cursor.stuck = false) :
    p.left = 2 * (p.text.length - p.pos) := by
  simp [left, Cursor.left, pos, h]

end ScanPoint

namespace Applies

variable {p q r : ScanPoint P}

theorem text_eq (h : Applies engine p q) : q.text = p.text := by
  cases h; rfl

theorem moves (h : Applies engine p q) : p.line.cursor.Moves q.line.cursor := by
  cases h with
  | mk _ happly =>
    rw [ScanPoint.applied, SessionM.run_applyCandidate] at happly
    split at happly
    · cases happly
    · cases happly
      exact SessionM.applyEffect_moves ..

theorem left_lt (h : Applies engine p q) : q.left < p.left := by
  rw [ScanPoint.left, h.text_eq]
  refine h.moves.left_lt ?_
  cases h with
  | mk hsearch _ => exact ScanPoint.pos_lt_of_search hsearch

end Applies

namespace Chain

variable {p q : ScanPoint P} {k : Nat}

theorem pos_le (h : Chain engine p k q) : p.pos ≤ q.pos := by
  induction h with
  | refl => exact Nat.le_refl _
  | step _ happly ih => exact Nat.le_trans ih happly.moves.le

theorem add_left_le (h : Chain engine p k q) : k + q.left ≤ p.left := by
  induction h with
  | refl => exact Nat.le_of_eq (Nat.zero_add _)
  | step _ happly ih =>
    have := happly.left_lt
    omega

end Chain

/-! ## The end of a scan -/

/-- With more steps than there are candidates left to apply, the loop comes to the end of the
scan. -/
theorem ScanPoint.applyAll_ends (steps : Nat) (p : ScanPoint P) (h : p.left < steps) :
    ∃ k q, Chain engine p k q ∧ q.Ends engine
      ((SessionM.applyAll engine (SessionM.captureScanner engine p.levels) p.text steps p.line).run
        p.session) := by
  induction steps generalizing p with
  | zero => omega
  | succ steps ih =>
    rw [SessionM.run_applyAll_succ]
    dsimp only
    cases hsearch : p.search engine with
    | mk found s₁ =>
      have hrun : (SessionM.searchContext engine (p.session.tokenizer.contextOf p.line.spans)
        p.line.cursor.anchors p.text p.line.cursor.pos).run p.session = (found, s₁) := hsearch
      rw [hrun]
      cases found with
      | none => exact ⟨0, p, .refl, .exhausted hsearch⟩
      | some winner =>
        obtain ⟨i, m⟩ := winner
        cases happly : p.applied engine i m s₁ with
        | mk line s₂ =>
          have hrun : (SessionM.applyCandidate (SessionM.captureScanner engine p.levels) p.text m
            p.line ((p.session.tokenizer.contextOf p.line.spans).candidate? i)).run s₁ =
              (line, s₂) := happly
          dsimp only
          rw [hrun]
          cases line with
          | none => exact ⟨0, p, .refl, .inconsistent hsearch happly⟩
          | some line =>
            have hstep : Applies engine p { p with line, session := s₂ } := .mk hsearch happly
            have hless := hstep.left_lt
            obtain ⟨k, q, hchain, hends⟩ := ih { p with line, session := s₂ } (by omega)
            exact ⟨k + 1, q, hchain.head hstep, hends⟩

/-- A scan never runs out of steps. -/
theorem ScanPoint.result_ends (engine : Engine P) (p : ScanPoint P) :
    ∃ k q, Chain engine p k q ∧ q.Ends engine (p.result engine) := by
  refine p.applyAll_ends _ ?_
  unfold left Cursor.left
  omega

/-! ## All scans of a line -/

theorem SessionM.holdFrames_stuck (scan : Option (Scanner P)) (text : Subject)
    (inner outer : List Frame) (line : LineState) (s : Session P) :
    ((holdFrames engine scan text inner outer line).run s).1.cursor.stuck = line.cursor.stuck := by
  induction inner generalizing outer line s with
  | nil => rfl
  | cons frame inner ih =>
    rw [run_holdFrames_cons]
    split
    · dsimp only
      split
      · rfl
      · next m _ =>
        rw [ih]
        change (line.cursor.passWhile m.stop).stuck = line.cursor.stuck
        unfold Cursor.passWhile
        split <;> rfl
    · exact ih ..

namespace ScanPoint.OfCapture

variable {levels : Nat} {q : ScanPoint P}

theorem levels_eq (h : q.OfCapture levels) : q.levels + 1 = levels := by
  obtain ⟨inner, hlevels, c, id, scopes, start, stop, s, rfl⟩ := h
  exact hlevels.symm

theorem free (h : q.OfCapture levels) : q.line.cursor.stuck = false := by
  obtain ⟨inner, hlevels, c, id, scopes, start, stop, s, rfl⟩ := h
  rfl

end ScanPoint.OfCapture

theorem Chain.levels_eq {p q : ScanPoint P} {k : Nat} (h : Chain engine p k q) :
    q.levels = p.levels := by
  induction h with
  | refl => rfl
  | step _ happly ih => cases happly; exact ih

namespace Begins

variable {text : Subject} {line : LineState} {s : Session P} {depth : Nat} {p : ScanPoint P}

theorem depth_add_levels (h : Begins engine text line s depth p) :
    depth + p.levels = captureDepth := by
  induction h with
  | held h =>
    have := (heldScans_ofCapture h).levels_eq
    omega
  | line _ => exact Nat.zero_add _
  | nested _ hchain h ih =>
    have := (ScanPoint.nested_ofCapture h).levels_eq
    have := hchain.levels_eq
    omega

theorem free (h : Begins engine text line s depth p) (hline : line.cursor.stuck = false) :
    p.line.cursor.stuck = false := by
  cases h with
  | held h => exact (heldScans_ofCapture h).free
  | line h =>
    subst h
    exact (SessionM.holdFrames_stuck ..).trans hline
  | nested _ _ h => exact (ScanPoint.nested_ofCapture h).free

end Begins

/-- Of every scan that a text begins, be it the text itself or a capture in it: at most 32 captures
are around it, it comes to an end, and from `p` on a text of `n` characters it applies at most
`2 * (n - p)` candidates. It never goes back, and of two candidates in a row one at least moves it
on. -/
theorem scan_progress {text : Subject} {spans : OpenSpans} {start : Nat} {anchor : Option Nat}
    {firstLine : Bool} {s : Session P} {depth : Nat} {p : ScanPoint P}
    (h : Begins engine text (.startingAt spans start anchor firstLine) s depth p) :
    depth ≤ 32 ∧
    (∃ k q, Chain engine p k q ∧ q.Ends engine (p.result engine)) ∧
    ∀ k q, Chain engine p k q →
      k ≤ 2 * (p.text.length - p.pos) ∧
      ((q.search engine).1.isSome → k < 2 * (p.text.length - p.pos)) ∧
      p.pos ≤ q.pos ∧
      ∀ r, Applies engine q r → q.pos ≤ r.pos ∧
        ∀ t, Applies engine r t → q.pos < r.pos ∨ r.pos < t.pos := by
  have hdepth : depth + p.levels = 32 := h.depth_add_levels
  have hleft := ScanPoint.left_of_free (h.free rfl)
  refine ⟨by omega, p.result_ends engine, fun k q hchain => ?_⟩
  have hbound := hchain.add_left_le
  refine ⟨by omega, fun hfound => ?_, hchain.pos_le, fun r hr => ⟨hr.moves.le, fun t ht => ?_⟩⟩
  · obtain ⟨⟨i, m⟩, hsome⟩ := Option.isSome_iff_exists.1 hfound
    have hin := ScanPoint.pos_lt_of_search (Prod.ext hsome rfl)
    have := ScanPoint.left_pos hin
    omega
  · exact hr.moves.lt_or_lt ht.moves

/-! ### A capture in itself, as deep as captures go -/

/-- Any pattern matches any single character. -/
def anyCharacter : Engine Unit where
  compile _ _ := .ok ()
  attempt _ t _ pos := if pos < t.length then some ⟨pos, pos + 1, [some (pos, pos + 1)]⟩ else none

/-- A grammar of one rule, whose match is a capture with that same rule in it. -/
def selfNesting : Grammar :=
  { name := "", scopeName := "s", scope := ⟨"s"⟩, fileTypes := [], patterns := #["."]
    rules := #[.single ⟨[], ⟨0⟩, ⟨1, [(0, ⟨0⟩)]⟩⟩], lists := #[[.rule ⟨0⟩]]
    captures := #[⟨[], some ⟨0⟩⟩], repositories := #[], root := ⟨0⟩, skipped := [] }

def selfNestingSession : Session Unit :=
  let ((tokenizer, notices), registry) := Tokenizer.start (Registry.empty.add selfNesting).2 ⟨0⟩ {}
  { registry, tokenizer, notices }

/-- The scan of the capture in the capture and so on, so many times, of a line of one character. -/
def nestedScan : Nat → ScanPoint Unit
  | 0 => ⟨captureDepth, .ofLine "a", none, .startingAt .fresh 0 none true, selfNestingSession⟩
  | n + 1 => ((nestedScan n).nested anyCharacter).headD (nestedScan n)

theorem begins_nestedScan {n : Nat} (h : n ≤ 32) :
    Begins anyCharacter (.ofLine "a") (.startingAt .fresh 0 none true) selfNestingSession n
      (nestedScan n) := by
  have hne : ∀ i < 32, (nestedScan i).nested anyCharacter ≠ [] := by
    have hlength : ∀ i < 32, ((nestedScan i).nested anyCharacter).length = 1 := by decide +kernel
    intro i hi hnil
    have := hlength i hi
    simp [hnil] at this
  induction n with
  | zero => exact .line rfl
  | succ n ih =>
    refine .nested (ih (by omega)) .refl ?_
    change ((nestedScan n).nested anyCharacter).headD _ ∈ _
    cases hnested : (nestedScan n).nested anyCharacter with
    | nil => exact absurd hnested (hne n (by omega))
    | cons q rest => exact .head _

theorem scan_progress_nested_32 :
    Begins anyCharacter (.ofLine "a") (.startingAt .fresh 0 none true) selfNestingSession 32
        (nestedScan 32) ∧
      ∀ k q, Chain anyCharacter (nestedScan 32) k q → k ≤ 2 := by
  have h := begins_nestedScan (Nat.le_refl 32)
  have hlength : (nestedScan 32).text.length - (nestedScan 32).pos = 1 := by decide +kernel
  refine ⟨h, fun k q hchain => ?_⟩
  have := ((scan_progress h).2.2 k q hchain).1
  omega
end ScopeGrammar
