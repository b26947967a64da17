import ScopeGrammar.Proofs.Session.Confinement
import ScopeGrammar.Proofs.Session.LineEnd
import ScopeGrammar.Proofs.World.Kept

/-!
# ScopeGrammar.Proofs.Session.Holding

Which spans the `while` patterns keep open at the start of a line.

* `OpenSpans.conditions` are the frames with such a pattern, the outermost first.
* `HeldBy` : the matches of their patterns, each tried where the ones before end, up to the first
  pattern that does not match.
* `World.Reachable.tokenizeLine_held` : the line is scanned from behind these matches. What is open
  is what was around the frame that failed. In a line that is too long no pattern is tried, so there
  a frame stays open whose pattern does not match (`tokenizeLine_capped`).
* `SessionM.holdSpans_allowPlace` : `\G` matches behind them just if one of them was not empty, or
  if it matched at the start of the line before (`emptyHold_allowPlace`).
-/

namespace ScopeGrammar

variable {P : Type} {engine : Engine P}

/-! ## Conditions -/

def Hold.isWhile : Hold → Bool
  | .whileMatched .. => true
  | _ => false

/-- The frames with a `while` pattern, outermost first, each with the frames around it. -/
def whileFrames : List Frame → List Frame → List (Frame × List Frame)
  | [], _ => []
  | f :: inner, outer =>
    if f.hold.isWhile then (f, outer) :: whileFrames inner (f :: outer)
    else whileFrames inner (f :: outer)

def OpenSpans.conditions (s : OpenSpans) : List (Frame × List Frame) :=
  whileFrames s.frames.reverse []

/-- A condition splits the frames, and the conditions before it are those of the frames around. -/
theorem whileFrames_split {inner outer around : List Frame} {f : Frame} {j : Nat}
    (h : (whileFrames inner outer)[j]? = some (f, around)) :
    ∃ before behind, inner = before ++ f :: behind ∧ around = before.reverse ++ outer ∧
      (whileFrames inner outer).take j = whileFrames before outer := by
  induction inner generalizing outer j with
  | nil => cases h
  | cons g inner ih =>
    rw [whileFrames] at h ⊢
    split at h
    · next hwhile =>
      rw [if_pos hwhile]
      cases j with
      | zero =>
        cases h
        exact ⟨[], inner, rfl, rfl, rfl⟩
      | succ j =>
        obtain ⟨before, behind, hinner, haround, htake⟩ := ih h
        refine ⟨g :: before, behind, by rw [hinner]; rfl, by simp [haround], ?_⟩
        rw [List.take_succ_cons, htake, whileFrames, if_pos hwhile]
    · next hwhile =>
      rw [if_neg hwhile]
      obtain ⟨before, behind, hinner, haround, htake⟩ := ih h
      refine ⟨g :: before, behind, by rw [hinner]; rfl, by simp [haround], ?_⟩
      rw [htake, whileFrames, if_neg hwhile]

theorem OpenSpans.conditions_split {s : OpenSpans} {f : Frame} {outer : List Frame} {j : Nat}
    (h : s.conditions[j]? = some (f, outer)) :
    (∃ inner, s.frames = inner ++ f :: outer) ∧
      (s.withFrames outer).conditions = s.conditions.take j := by
  obtain ⟨before, behind, hframes, houter, htake⟩ := whileFrames_split h
  rw [List.append_nil] at houter
  subst houter
  refine ⟨⟨behind.reverse, ?_⟩, ?_⟩
  · rw [← List.reverse_inj, hframes]
    simp
  · rw [conditions, conditions, htake]
    simp [withFrames]

/-! ## The matches that hold frames open -/

namespace Cursor

theorem passWhile_zero (c : Cursor) : c.passWhile 0 = c := if_neg (Nat.not_lt_zero _)

theorem passWhile_passWhile (c : Cursor) (a b : Nat) :
    (c.passWhile a).passWhile b = c.passWhile (max a b) := by
  by_cases ha : c.pos < a
  · have hfirst : c.passWhile a = { c with pos := a, anchor := some a, firstLine := false } :=
      if_pos ha
    rw [hfirst]
    by_cases hb : a < b
    · rw [Nat.max_eq_right (Nat.le_of_lt hb), passWhile, passWhile, if_pos hb,
        if_pos (Nat.lt_trans ha hb)]
    · rw [Nat.max_eq_left (Nat.not_lt.1 hb), passWhile, if_neg hb, hfirst]
  · have hfirst : c.passWhile a = c := if_neg ha
    rw [hfirst]
    by_cases hb : a ≤ b
    · rw [Nat.max_eq_right hb]
    · rw [Nat.max_eq_left (by omega), hfirst, passWhile, if_neg (by omega)]

theorem passWhile_allowPlace (c : Cursor) (stop : Nat) :
    (c.passWhile stop).anchors.allowPlace = true ↔
      c.pos < stop ∨ c.anchors.allowPlace = true := by
  unfold passWhile
  split
  · next h => simp [anchors, Anchoring.atPos, h]
  · next h => simp [h]

end Cursor

/-- How far these matches go. -/
def heldUpTo (ms : List Match) : Nat := ms.foldl (fun pos m => max pos m.stop) 0

theorem heldUpTo_cons (m : Match) (ms : List Match) :
    heldUpTo (m :: ms) = max m.stop (heldUpTo ms) := by
  have hfrom : ∀ pos, ms.foldl (fun pos m => max pos m.stop) pos = max pos (heldUpTo ms) := by
    intro pos
    induction ms generalizing pos with
    | nil => exact (Nat.max_zero pos).symm
    | cons n ms ih =>
      rw [heldUpTo, List.foldl_cons, List.foldl_cons, ih, ih]
      omega
  rw [heldUpTo, List.foldl_cons, hfrom, Nat.zero_max]

/-- The match of the `while` pattern of a frame right at the cursor. -/
def Frame.held? (engine : Engine P) (text : Subject) (cursor : Cursor) (f : Frame) :
    Option Match :=
  match f.hold with
  | .whileMatched _ source =>
    (engine.compile {} (cursor.anchors.rewrite source)).toOption.bind fun p =>
      engine.matchAt p text cursor.pos
  | _ => none

/-- The matches of the patterns of these frames, each one tried where the ones before end. They end
where a pattern does not match. -/
structure HeldBy (engine : Engine P) (text : Subject) (start : Cursor) (frames : List Frame)
    (ms : List Match) : Prop where
  matched : ∀ j m, ms[j]? = some m → ∃ f, frames[j]? = some f ∧
    Frame.held? engine text (start.passWhile (heldUpTo (ms.take j))) f = some m
  failed : ∀ f, frames[ms.length]? = some f →
    Frame.held? engine text (start.passWhile (heldUpTo ms)) f = none

namespace HeldBy

variable {text : Subject} {start : Cursor} {f : Frame} {frames : List Frame}

theorem nil : HeldBy engine text start [] [] := ⟨nofun, nofun⟩

theorem fail (h : f.held? engine text start = none) : HeldBy engine text start (f :: frames) [] := by
  refine ⟨nofun, ?_⟩
  rintro _ ⟨⟩
  rwa [heldUpTo, List.foldl_nil, Cursor.passWhile_zero]

theorem cons {m : Match} {ms : List Match} (hm : f.held? engine text start = some m)
    (h : HeldBy engine text (start.passWhile m.stop) frames ms) :
    HeldBy engine text start (f :: frames) (m :: ms) := by
  constructor
  · intro j m' hj
    cases j with
    | zero =>
      cases hj
      refine ⟨f, rfl, ?_⟩
      rwa [List.take_zero, heldUpTo, List.foldl_nil, Cursor.passWhile_zero]
    | succ j =>
      obtain ⟨f', hf', hmatch⟩ := h.matched j m' hj
      refine ⟨f', hf', ?_⟩
      rwa [List.take_succ_cons, heldUpTo_cons, ← Cursor.passWhile_passWhile]
  · intro f' hf'
    rw [heldUpTo_cons, ← Cursor.passWhile_passWhile]
    exact h.failed f' hf'

end HeldBy

/-- All conditions hold, or what was around the first one that does not is still open. -/
def LeavesOpen (spans : OpenSpans) (conditions : List (Frame × List Frame)) (held : Nat)
    (left : OpenSpans) : Prop :=
  (held = conditions.length ∧ left = spans) ∨
    ∃ f outer, conditions[held]? = some (f, outer) ∧ left = spans.withFrames outer

namespace SessionM

/-- By induction on the frames: each step is a match that holds the outermost of them, or the end. -/
theorem holdFrames_held (levels : Nat) (text : Subject) {inner outer : List Frame}
    {line : LineState} {s : Session P} (hs : s.tokenizer.KeepsCompiled engine)
    (hframes : line.spans.frames = inner.reverse ++ outer) :
    let held := ((holdFrames engine (captureScanner engine levels) text inner outer line).run s).1
    ∃ ms, HeldBy engine text line.cursor ((whileFrames inner outer).map (·.1)) ms ∧
      held.cursor = line.cursor.passWhile (heldUpTo ms) ∧
      LeavesOpen line.spans (whileFrames inner outer) ms.length held.spans := by
  induction inner generalizing outer line s with
  | nil => exact ⟨[], .nil, line.cursor.passWhile_zero.symm, .inl ⟨rfl, rfl⟩⟩
  | cons f inner ih =>
    have hframes' : line.spans.frames = inner.reverse ++ f :: outer := by simp [hframes]
    rw [run_holdFrames_cons]
    cases hhold : f.hold with
    | untilEnd rule source =>
      rw [whileFrames, if_neg (by simp [hhold, Hold.isWhile])]
      exact ih hs hframes'
    | capture =>
      rw [whileFrames, if_neg (by simp [hhold, Hold.isWhile])]
      exact ih hs hframes'
    | whileMatched rule source =>
      rw [whileFrames, if_pos (by simp [hhold, Hold.isWhile])]
      have hmatch := Leads.matchAlone engine s line.spans source line.cursor.anchors text
        line.cursor.pos
      have hheld : f.held? engine text line.cursor =
          ((matchAlone engine source line.cursor.anchors text line.cursor.pos).run s).1 := by
        rw [matchAlone_kept hs, Frame.held?, hhold]
      dsimp only
      generalize (matchAlone engine source line.cursor.anchors text line.cursor.pos).run s =
        matched at hmatch hheld
      obtain ⟨_ | m, s₁⟩ := matched
      · exact ⟨[], .fail hheld, line.cursor.passWhile_zero.symm, .inr ⟨f, outer, rfl, rfl⟩⟩
      · have hscan : ∀ scan ∈ captureScanner engine levels, scan.Returns engine :=
          captureScanner_returns levels
        have hgroups := heldGroups_leads hscan text f outer rule m line s₁ ⟨_, hframes'.symm⟩
        let next : LineState := { line with
          cursor := line.cursor.passWhile m.stop
          cover := (heldGroups (captureScanner engine levels) text f outer rule m line
            s₁).1.extend m.stop f.contentScopes }
        have hnext : next.spans.frames = inner.reverse ++ f :: outer := hframes'
        obtain ⟨ms, hms, hcursor, hopen⟩ :=
          ih (hgroups.keepsCompiled (hmatch.keepsCompiled hs)) hnext
        refine ⟨m :: ms, .cons hheld hms, ?_, ?_⟩
        · rw [heldUpTo_cons, ← Cursor.passWhile_passWhile]
          exact hcursor
        · obtain ⟨hlength, hleft⟩ | ⟨f', outer', hfailed, hleft⟩ := hopen
          · exact .inl ⟨congrArg (· + 1) hlength, hleft⟩
          · exact .inr ⟨f', outer', hfailed, hleft⟩

theorem holdSpans_held (levels : Nat) (text : Subject) (state : OpenSpans) {s : Session P}
    (hs : s.tokenizer.KeepsCompiled engine) :
    let start := (startLine state).cursor
    let checked := (holdSpans engine (captureScanner engine levels) text (startLine state)).run s
    ∃ ms, HeldBy engine text start (state.conditions.map (·.1)) ms ∧
      checked.1.cursor = start.passWhile (heldUpTo ms) ∧
      LeavesOpen state state.conditions ms.length checked.1.spans := by
  have hframes : (startLine state).spans.frames = state.frames.reverse.reverse ++ [] := by
    rw [List.reverse_reverse, List.append_nil]
    rfl
  exact holdFrames_held levels text hs hframes

theorem tokenizeLine_tooLong {line : String} {s : Session P}
    (h : isTooLong s.tokenizer.options line.length = true) (state : OpenSpans) :
    (tokenizeLine engine line state).run s =
      ({ tokens := [⟨0, line.length, s.plain state⟩], state := state.start }, s) := by
  rw [run_tokenizeLine, if_pos h]

end SessionM

open SessionM in
/-- The `while` patterns of the open frames are tried one after the other, the outermost first, each
where the matches before it end. The first one that does not match closes its frame and all inside
it, and from behind the matches the line is scanned. If it is too long to be scanned, no pattern is
tried and all frames stay open. -/
theorem World.Reachable.tokenizeLine_held {w : World P} (h : w.Reachable engine)
    {t : Tokenizer P} (ht : t ∈ w.tokenizers) (line : String) (state : OpenSpans) :
    let scan := captureScanner engine captureDepth
    let start := (startLine state).cursor
    let checked := (holdSpans engine scan (.ofLine line) (startLine state)).run (w.session t)
    let after := (tokenizeLine engine line state).run (w.session t)
    start.pos = 0 ∧
    (∃ ms, HeldBy engine (.ofLine line) start (state.conditions.map (·.1)) ms ∧
      checked.1.cursor = start.passWhile (heldUpTo ms) ∧ checked.1.cursor.pos = heldUpTo ms ∧
      checked.1.spans.conditions = state.conditions.take ms.length ∧
      ((ms.length = state.conditions.length ∧ checked.1.spans = state) ∨
        ∃ f inner outer, state.conditions[ms.length]? = some (f, outer) ∧
          f.held? engine (.ofLine line) checked.1.cursor = none ∧
          state.frames = inner ++ f :: outer ∧ checked.1.spans = state.withFrames outer)) ∧
    (isTooLong t.options line.length = false →
      let scanned := (scanLine engine scan (.ofLine line) checked.1).run checked.2
      after = ({ tokens := scanned.1.cover.clip line.length, state := scanned.1.spans.start },
        scanned.2)) ∧
    (isTooLong t.options line.length = true →
      after.2 = w.session t ∧ after.1.tokens = [⟨0, line.length, t.scopesOf state⟩] ∧
        after.1.state.frames = state.frames) := by
  intro scan start checked after
  have hs : (w.session t).tokenizer.KeepsCompiled engine := h.keepsCompiled t ht
  refine ⟨rfl, ?_, fun hshort => ?_, fun hlong => ?_⟩
  · obtain ⟨ms, hheld, hcursor, hopen⟩ := holdSpans_held captureDepth (.ofLine line) state hs
    refine ⟨ms, hheld, hcursor, ?_, ?_⟩
    · rw [hcursor, Cursor.pos_passWhile]
      exact Nat.zero_max _
    · obtain ⟨hlength, hleft⟩ | ⟨f, outer, hfailed, hleft⟩ := hopen
      · refine ⟨?_, .inl ⟨hlength, hleft⟩⟩
        rw [hleft, hlength, List.take_length]
      · obtain ⟨⟨inner, hframes⟩, hconditions⟩ := OpenSpans.conditions_split hfailed
        refine ⟨?_, .inr ⟨f, inner, outer, hfailed, ?_, hframes, hleft⟩⟩
        · rw [hleft, hconditions]
        · rw [hcursor]
          exact hheld.failed f (by rw [List.getElem?_map, hfailed]; rfl)
  · have hshort' : isTooLong (w.session t).tokenizer.options line.length = false := hshort
    show (tokenizeLine engine line state).run (w.session t) = _
    rw [run_tokenizeLine, if_neg (by simp [hshort'])]
  · have hafter : after = _ := tokenizeLine_tooLong (s := w.session t) hlong state
    rw [hafter]
    exact ⟨rfl, rfl, rfl⟩

/-! ### Quoted lines -/

/-- A grammar of two spans, both with both of them in it: lines that start with `>`, and text in
parentheses. -/
def quotedLines : Grammar :=
  let span (opening : UInt32) (close : SpanEnding) : Rule := .span
    { scopes := [], contentScopes := [], opening := ⟨opening⟩, openingCaptures := .empty
      close, fillsEnding := false, patterns := ⟨0⟩ }
  { name := "", scopeName := "s", scope := ⟨"s"⟩, fileTypes := [], patterns := #[">", "(", ")"]
    rules := #[span 0 (.whileMatched ⟨0⟩ .empty), span 1 (.atEnd ⟨2⟩ .empty false)]
    lists := #[[.rule ⟨0⟩, .rule ⟨1⟩]], captures := #[], repositories := #[], root := ⟨0⟩
    skipped := [] }

def quotedTokenizer : Tokenizer Char :=
  (Tokenizer.start (Registry.empty.add quotedLines).2 ⟨0⟩ {}).1.1

def quotedWorld : World Char := (World.initial.add quotedLines).started ⟨0⟩ {}

/-- The line `>(>` with what follows it. -/
def quotedFirst : TokenizedLine × Session Char :=
  (SessionM.tokenizeLine oneCharacter ">(>" .fresh).run (quotedWorld.session quotedTokenizer)

/-- What there is behind that line. -/
def quotedAfter : World Char := quotedWorld.after quotedFirst

theorem quotedAfter_reachable : quotedAfter.Reachable oneCharacter := by
  have hid : (World.initial.add quotedLines : World Char).registry.id? "s" = some ⟨0⟩ := rfl
  have hstart : quotedWorld.Reachable oneCharacter :=
    .use (.add quotedLines .initial) (.start {} hid)
  exact hstart.use (.line ">(>" (World.mem_started ..) hstart.fresh_mem)

theorem quotedFirst_keepsCompiled :
    Tokenizer.KeepsCompiled oneCharacter quotedFirst.2.tokenizer :=
  quotedAfter_reachable.keepsCompiled _ (.head _)

/-- The start of the line `>x` behind what has been tokenized. -/
def quotedStart (before : TokenizedLine × Session Char) : LineState :=
  ((SessionM.holdSpans oneCharacter (SessionM.captureScanner oneCharacter captureDepth)
    (.ofLine ">x") (SessionM.startLine before.1.state)).run before.2).1

/-- The start of the second line, which has one `>` only, so the quotation inside the parentheses is
closed. -/
def quotedSecond : LineState :=
  quotedStart (quotedFirst.1, quotedAfter.session quotedFirst.2.tokenizer)

theorem tokenizeLine_held_quoted :
    quotedFirst.1.state.frames.length = 3 ∧ quotedFirst.1.state.conditions.length = 2 ∧
    ∃ m f outer, HeldBy oneCharacter (.ofLine ">x") (SessionM.startLine quotedFirst.1.state).cursor
        (quotedFirst.1.state.conditions.map (·.1)) [m] ∧ m.stop = 1 ∧
      quotedFirst.1.state.frames = f :: outer ∧
      quotedSecond.spans = quotedFirst.1.state.withFrames outer := by
  have hframes₁ : quotedFirst.1.state.frames.length = 3 := by decide +kernel
  have hlength : quotedFirst.1.state.conditions.length = 2 := by decide +kernel
  have hpos : quotedSecond.cursor.pos = 1 := by decide +kernel
  have hleft : quotedSecond.spans.frames.length = 2 := by decide +kernel
  have hkept : quotedSecond.spans.conditions.length = 1 := by decide +kernel
  have hreach := quotedAfter_reachable
  have ht : quotedFirst.2.tokenizer ∈ quotedAfter.tokenizers := .head _
  rw [quotedSecond, quotedStart] at *
  -- from here on the session is not to be computed
  generalize quotedFirst = first at *
  generalize quotedAfter = w at *
  obtain ⟨_, ⟨ms, hheld, _, hupTo, hconditions, hopen⟩, _⟩ :=
    hreach.tokenizeLine_held ht ">x" first.1.state
  have hone : ms.length = 1 := by
    rw [hconditions, List.length_take, hlength] at hkept
    omega
  obtain ⟨m, rfl⟩ := List.length_eq_one_iff.1 hone
  have hstop : m.stop = 1 := by
    have hmax : max m.stop 0 = 1 := (heldUpTo_cons m []).symm.trans (hupTo.symm.trans hpos)
    omega
  obtain ⟨hall, _⟩ | ⟨f, inner, outer, _, _, hframes, hspans⟩ := hopen
  · omega
  · have houter : outer.length = 2 := by
      rw [hspans] at hleft
      exact hleft
    have hinner : inner = [] := by
      rw [hframes, List.length_append, List.length_cons] at hframes₁
      exact List.length_eq_zero_iff.1 (by omega)
    rw [hinner] at hframes
    exact ⟨hframes₁, hlength, m, f, outer, hheld, hstop, hframes, hspans⟩

/-! ### A line that is too long -/

def cappedTokenizer : Tokenizer Char :=
  (Tokenizer.start (Registry.empty.add quotedLines).2 ⟨0⟩ { maxLineLength := some 2 }).1.1

/-- The line `>`, tokenized where no line of more than two characters is scanned. -/
def cappedFirst : TokenizedLine × Session Char :=
  (SessionM.tokenizeLine oneCharacter ">" .fresh).run
    (((World.initial.add quotedLines).started ⟨0⟩ { maxLineLength := some 2 }).session
      cappedTokenizer)

/-- The line `xxx` does not start with the `>` that the span goes on with. The span stays open. -/
theorem tokenizeLine_capped :
    ∃ f, cappedFirst.1.state.conditions = [(f, [])] ∧
      f.held? oneCharacter (.ofLine "xxx") (SessionM.startLine cappedFirst.1.state).cursor = none ∧
      ((SessionM.tokenizeLine oneCharacter "xxx" cappedFirst.1.state).run
        cappedFirst.2).1.state.frames = [f] := by
  have hlong : SessionM.isTooLong cappedFirst.2.tokenizer.options "xxx".length = true := by
    decide +kernel
  have hlength : cappedFirst.1.state.frames.length = 1 := by decide +kernel
  have hfailed : (cappedFirst.1.state.conditions.map fun (f, _) =>
      (f.held? oneCharacter (.ofLine "xxx")
        (SessionM.startLine cappedFirst.1.state).cursor).isNone) = [true] := by decide +kernel
  rw [SessionM.tokenizeLine_tooLong hlong]
  generalize cappedFirst.1.state = state at *
  obtain ⟨⟨f, outer⟩, hone⟩ : ∃ c, state.conditions = [c] := by
    rw [← List.length_eq_one_iff]
    simpa using congrArg List.length hfailed
  obtain ⟨⟨inner, hframes⟩, _⟩ := OpenSpans.conditions_split (j := 0) (by rw [hone]; rfl)
  obtain ⟨rfl, rfl⟩ : inner = [] ∧ outer = [] := by
    rw [hframes, List.length_append, List.length_cons] at hlength
    exact ⟨List.length_eq_zero_iff.1 (by omega), List.length_eq_zero_iff.1 (by omega)⟩
  rw [hone] at hfailed
  exact ⟨f, hone, by simpa using hfailed, hframes⟩

namespace SessionM

/-- Behind the matches that hold frames open, and wherever one more is tried, `\G` matches just if
one of them was not empty, or if it matched at the start of the line before any was tried. -/
theorem holdSpans_allowPlace (text : Subject) (levels : Nat) (state : OpenSpans) (s : Session P)
    (hs : s.tokenizer.KeepsCompiled engine) :
    let start := (startLine state).cursor
    let checked := (holdSpans engine (captureScanner engine levels) text (startLine state)).run s
    ∃ ms, HeldBy engine text start (state.conditions.map (·.1)) ms ∧
      checked.1.cursor = start.passWhile (heldUpTo ms) ∧
      ∀ j, (start.passWhile (heldUpTo (ms.take j))).anchors.allowPlace = true ↔
        0 < heldUpTo (ms.take j) ∨
          ∃ f outer, state.frames = f :: outer ∧ f.capturedLineEnd = true := by
  obtain ⟨ms, hheld, hcursor, _⟩ := holdSpans_held levels text state hs
  refine ⟨ms, hheld, hcursor, fun j => ?_⟩
  rw [Cursor.passWhile_allowPlace, startLine_allowPlace]
  rfl

end SessionM

/-- Behind the `>` of the second line. -/
theorem holdSpans_allowPlace_quoted :
    (quotedStart quotedFirst).cursor.pos = 1 ∧
      (quotedStart quotedFirst).cursor.anchors.allowPlace = true := by
  have hpos : (quotedStart quotedFirst).cursor.pos = 1 := by decide +kernel
  have hs := quotedFirst_keepsCompiled
  generalize quotedFirst = first at *
  obtain ⟨ms, _, hcursor, hallow⟩ := SessionM.holdSpans_allowPlace (.ofLine ">x") captureDepth
    first.1.state first.2 hs
  have hcursor' : (quotedStart first).cursor =
      (SessionM.startLine first.1.state).cursor.passWhile (heldUpTo ms) := hcursor
  refine ⟨hpos, ?_⟩
  rw [hcursor', Cursor.pos_passWhile] at hpos
  have hmoved : 0 < heldUpTo ms := by
    have hstart : (SessionM.startLine first.1.state).cursor.pos = 0 := rfl
    omega
  have hall := hallow ms.length
  rw [List.take_length] at hall
  rw [hcursor']
  exact hall.2 (.inl hmoved)

/-! ### An empty match -/

/-- A grammar of one span, from `a` on as long as a line starts with a `b`. That `b` is for the rule
in it if `\G` matches there. -/
def emptyHold : Grammar :=
  { name := "", scopeName := "x", scope := ⟨"x"⟩, fileTypes := []
    patterns := #["a", "(?=b)", "\\Gb"]
    rules := #[.span
      { scopes := [⟨"s"⟩], contentScopes := [], opening := ⟨0⟩, openingCaptures := .empty
        close := .whileMatched ⟨1⟩ .empty, fillsEnding := false, patterns := ⟨1⟩ },
      .single ⟨[⟨"g"⟩], ⟨2⟩, .empty⟩]
    lists := #[[.rule ⟨0⟩], [.rule ⟨1⟩]], captures := #[], repositories := #[], root := ⟨0⟩
    skipped := [] }

def emptyHoldSession : Session Regex :=
  let ((tokenizer, notices), registry) := Tokenizer.start (Registry.empty.add emptyHold).2 ⟨0⟩ {}
  { registry, tokenizer, notices }

/-- The line `a`, which opens the span. -/
def emptyHoldFirst : TokenizedLine × Session Regex :=
  (SessionM.tokenizeLine Regex.engine "a" .fresh).run emptyHoldSession

/-- The start of the line `b` behind it. -/
def emptyHoldSecond : LineState × Session Regex :=
  (SessionM.holdSpans Regex.engine (SessionM.captureScanner Regex.engine captureDepth)
    (.ofLine "b") (SessionM.startLine emptyHoldFirst.1.state)).run emptyHoldFirst.2

/-- An empty match of a `while` pattern is no place for `\G`. -/
theorem emptyHold_allowPlace :
    (∃ m, HeldBy Regex.engine (.ofLine "b") (SessionM.startLine emptyHoldFirst.1.state).cursor
      (emptyHoldFirst.1.state.conditions.map (·.1)) [m] ∧ m.start = 0 ∧ m.stop = 0) ∧
    emptyHoldSecond.1.spans.depth = 1 ∧ emptyHoldSecond.1.cursor.pos = 0 ∧
    emptyHoldSecond.1.cursor.anchors.allowPlace = false ∧
    ((SessionM.tokenizeLine Regex.engine "b" emptyHoldFirst.1.state).run
      emptyHoldFirst.2).1.tokens = [⟨0, 1, [⟨"x"⟩, ⟨"s"⟩]⟩] := by
  have hfound : (emptyHoldFirst.1.state.conditions.map fun (f, _) =>
      (f.held? Regex.engine (.ofLine "b") (SessionM.startLine emptyHoldFirst.1.state).cursor).map
        fun m => (m.start, m.stop)) = [some (0, 0)] := by decide +kernel
  refine ⟨?_, by decide +kernel, by decide +kernel, by decide +kernel, by decide +kernel⟩
  generalize emptyHoldFirst.1.state = state at *
  obtain ⟨⟨f, outer⟩, hone⟩ : ∃ c, state.conditions = [c] := by
    rw [← List.length_eq_one_iff]
    simpa using congrArg List.length hfound
  rw [hone] at hfound ⊢
  obtain ⟨m, hm, hrange⟩ := Option.map_eq_some_iff.1 (List.singleton_inj.1 hfound)
  obtain ⟨hstart, hstop⟩ := Prod.mk.inj hrange
  exact ⟨m, .cons hm .nil, hstart, hstop⟩

end ScopeGrammar
