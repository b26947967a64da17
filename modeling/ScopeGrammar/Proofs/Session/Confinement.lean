import ScopeGrammar.Proofs.Pattern.Inside
import ScopeGrammar.Proofs.Session.Closing
import ScopeGrammar.Proofs.Span.Run
import ScopeGrammar.Proofs.Text.Slices

/-!
# ScopeGrammar.Proofs.Session.Confinement

How far the tokens of a match reach.

A group in a look-ahead can end behind the match it is a group of. `Registry.captureStops` are the
ends of the groups that get scopes; the tokens made for a match reach to the furthest of them, or to
the end of the match (`Applies.reached_le_iff`). The scan goes on from the end of the match in any
case.

* `ScanPoint.Confined` : the groups that get scopes end inside the match.
* `Begins.captures_confined` : the tokens made for a match end with it just if it is so. If it was
  so for all matches before, no token reaches beyond the position of the scan.
* `captures_beyond_match` : where it is not so, what follows the match gets its scopes.
-/

namespace ScopeGrammar

variable {P : Type} {engine : Engine P}

/-! ## Groups -/

namespace OpenGroups

theorem closeUpTo_reached_le_iff (pos limit : Nat) (groups : OpenGroups) (cover : Cover) :
    ((groups.closeUpTo pos cover).2.reached ≤ limit ∧
        ∀ g ∈ (groups.closeUpTo pos cover).1, g.2 ≤ limit) ↔
      cover.reached ≤ limit ∧ ∀ g ∈ groups, g.2 ≤ limit := by
  induction groups generalizing cover with
  | nil => rfl
  | cons g rest ih =>
    obtain ⟨scopes, stop⟩ := g
    rw [closeUpTo]
    split
    · rw [ih, Cover.reached_extend, Nat.max_le, List.forall_mem_cons, and_assoc]
    · rfl

theorem closeAll_reached_le_iff (limit : Nat) (groups : OpenGroups) (cover : Cover) :
    (groups.closeAll cover).reached ≤ limit ↔
      cover.reached ≤ limit ∧ ∀ g ∈ groups, g.2 ≤ limit := by
  induction groups generalizing cover with
  | nil => simp [closeAll]
  | cons g rest ih =>
    have hfirst : closeAll (g :: rest) cover = closeAll rest (cover.extend g.2 g.1) := rfl
    rw [hfirst, ih, Cover.reached_extend, Nat.max_le, List.forall_mem_cons, and_assoc]

variable {start stop : Nat} {groups : OpenGroups} {cover : Cover}

/-- A group that is opened ends behind its start. -/
theorem push_reached_le_iff (hlt : start < stop) (limit : Nat) (outer scopes : List Scope) :
    ((cover.extend start outer).reached ≤ limit ∧ ∀ g ∈ (scopes, stop) :: groups, g.2 ≤ limit) ↔
      (cover.reached ≤ limit ∧ ∀ g ∈ groups, g.2 ≤ limit) ∧ stop ≤ limit := by
  rw [Cover.reached_extend, List.forall_mem_cons, Nat.max_le]
  constructor
  · rintro ⟨⟨hreached, _⟩, hstop, hgroups⟩
    exact ⟨⟨hreached, hgroups⟩, hstop⟩
  · rintro ⟨⟨hreached, hgroups⟩, hstop⟩
    exact ⟨⟨hreached, by omega⟩, hstop, hgroups⟩

/-- Tokens for all of a group end where it ends. -/
theorem extendAll_reached_le_iff {tokens : List Token} (htiles : Tiles start stop tokens)
    (hlt : start < stop) (limit : Nat) (outer : List Scope) :
    (((cover.extend start outer).extendAll tokens).reached ≤ limit ∧ ∀ g ∈ groups, g.2 ≤ limit) ↔
      (cover.reached ≤ limit ∧ ∀ g ∈ groups, g.2 ≤ limit) ∧ stop ≤ limit := by
  rw [Cover.reached_extendAll htiles hlt, Cover.reached_extend, Nat.max_le, Nat.max_le]
  constructor
  · rintro ⟨⟨⟨hreached, _⟩, hstop⟩, hgroups⟩
    exact ⟨⟨hreached, hgroups⟩, hstop⟩
  · rintro ⟨⟨hreached, hgroups⟩, hstop⟩
    exact ⟨⟨⟨hreached, by omega⟩, hstop⟩, hgroups⟩

end OpenGroups

/-- The scanner gives tokens for all of a text from where it starts. -/
def Scanner.Covers (scan : Scanner P) : Prop :=
  ∀ (text : Subject) (spans : OpenSpans) (start : Nat) (firstLine : Bool) (s : Session P),
    start ≤ text.length → Tiles start text.length ((scan text spans start firstLine).run s).1

theorem Subject.length_take (t : Subject) (stop : Nat) :
    (t.take stop).length = min stop t.length := by
  rw [length_eq, take_eq_ofChars]
  simp [length_eq]

/-- The tokens of a group with rules of its own reach from its start to its end. -/
theorem Scanner.Covers.scanCapture {scan : Scanner P} (h : scan.Covers) (c : Captured)
    (id : CaptureId) (scopes : List Scope) {start stop : Nat} (hle : start ≤ stop)
    (hstop : stop ≤ c.text.length) (s : Session P) :
    Tiles start stop ((c.scanCapture scan id scopes start stop).run s).1 := by
  have hlength : (c.text.take stop).length = stop := by
    rw [Subject.length_take]
    omega
  have hcovers := h (c.text.take stop)
  rw [hlength] at hcovers
  rw [Captured.run_scanCapture]
  exact hcovers _ _ _ _ hle

namespace Captured

variable {c : Captured}

theorem place?_eq_some {i start stop : Nat} {id : CaptureId} {capture : Capture} :
    c.place? i id = some (capture, start, stop) ↔
      c.found.group? i = some (start, stop) ∧ c.grammar.capture? id = some capture ∧
        start < stop := by
  rw [place?]
  cases c.found.group? i with
  | none => simp
  | some range =>
    obtain ⟨a, b⟩ := range
    cases c.grammar.capture? id with
    | none => simp
    | some k =>
      dsimp only
      by_cases h : b ≤ a
      · simp [h]
        omega
      · rw [if_neg h]
        constructor
        · rintro ⟨⟩
          exact ⟨rfl, rfl, Nat.not_le.1 h⟩
        · rintro ⟨⟨⟩, ⟨⟩, _⟩
          rfl

/-- The entries of a capture table make the tokens reach to the furthest end of their groups. -/
theorem scopeEntries_reached_le_iff {scan : Option (Scanner P)}
    (hscan : ∀ scan' ∈ scan, scan'.Covers) (hinside : c.found.Inside c.text.length) (limit : Nat)
    (entries : List (Nat × CaptureId)) (groups : OpenGroups) (cover : Cover) (s : Session P) :
    ((c.scopeEntries scan entries groups cover).run s).1.reached ≤ limit ↔
      (cover.reached ≤ limit ∧ ∀ g ∈ groups, g.2 ≤ limit) ∧
        ∀ e ∈ entries, ∀ capture start stop, c.place? e.1 e.2 = some (capture, start, stop) →
          stop ≤ limit := by
  -- a group that is still open counts with its end, so nothing changes when it is closed
  induction entries generalizing groups cover s with
  | nil =>
    have hdone : ((c.scopeEntries scan [] groups cover).run s).1 = groups.closeAll cover := rfl
    rw [hdone, OpenGroups.closeAll_reached_le_iff]
    simp
  | cons entry rest ih =>
    obtain ⟨i, id⟩ := entry
    rw [run_scopeEntries_cons, List.forall_mem_cons]
    cases hplace : c.place? i id with
    | none =>
      dsimp only
      rw [ih]
      simp
    | some place =>
      obtain ⟨capture, start, stop⟩ := place
      obtain ⟨hgroup, _, hlt⟩ := place?_eq_some.1 hplace
      have hstop : stop ≤ c.text.length := hinside.group_le hgroup
      have hentry : (∀ capture' start' stop',
          some (capture, start, stop) = some (capture', start', stop') → stop' ≤ limit) ↔
          stop ≤ limit := by
        constructor
        · intro h
          exact h _ _ _ rfl
        · rintro h _ _ _ ⟨⟩
          exact h
      have hclosed := groups.closeUpTo_reached_le_iff start limit cover
      dsimp only
      generalize groups.closeUpTo start cover = closed at hclosed
      rw [← hclosed, hentry, ← and_assoc]
      split
      · next scan' hpatterns =>
        have htiles := (hscan scan' rfl).scanCapture c id (closed.1.scopes c.scopes ++ capture.scopes)
          (Nat.le_of_lt hlt) hstop s
        rw [ih, OpenGroups.extendAll_reached_le_iff htiles hlt]
      · rw [ih, OpenGroups.push_reached_le_iff hlt]

end Captured

/-! ## Matches -/

/-- The ends of the groups of a match that get scopes. Groups that took no part or are empty do not
count. -/
def Registry.captureStops (r : Registry) (id : GrammarId) (table : CaptureTable) (m : Match) :
    List Nat :=
  match r.grammar? id with
  | none => []
  | some grammar =>
    table.entries.filterMap fun (i, captureId) =>
      match m.group? i, grammar.capture? captureId with
      | some (start, stop), some _ => if stop ≤ start then none else some stop
      | _, _ => none

theorem Registry.mem_captureStops {r : Registry} {id : GrammarId} {table : CaptureTable} {m : Match}
    {stop : Nat} :
    stop ∈ r.captureStops id table m ↔ ∃ grammar, r.grammar? id = some grammar ∧
      ∃ e ∈ table.entries, ∃ capture start, m.group? e.1 = some (start, stop) ∧
        grammar.capture? e.2 = some capture ∧ start < stop := by
  rw [captureStops]
  cases r.grammar? id with
  | none => simp
  | some grammar =>
    simp only [Option.some.injEq, exists_eq_left', List.mem_filterMap]
    refine exists_congr fun e => and_congr_right fun _ => ?_
    cases m.group? e.1 with
    | none => simp
    | some range =>
      obtain ⟨a, b⟩ := range
      cases grammar.capture? e.2 with
      | none => simp
      | some k =>
        dsimp only
        by_cases h : b ≤ a
        · simp [h]
          omega
        · rw [if_neg h]
          constructor
          · rintro ⟨⟩
            exact ⟨k, a, rfl, rfl, Nat.not_le.1 h⟩
          · rintro ⟨_, _, ⟨⟩, _, _⟩
            rfl

theorem captureStops_le {m : Match} {length : Nat} (hinside : m.Inside length) {r : Registry}
    {id : GrammarId} {table : CaptureTable} :
    ∀ stop ∈ r.captureStops id table m, stop ≤ length := by
  intro stop hstop
  obtain ⟨_, _, _, _, _, _, hgroup, _⟩ := Registry.mem_captureStops.1 hstop
  exact hinside.group_le hgroup

theorem ContextGroup.inside_of_search (hengine : engine.Inside) {g : ContextGroup P} {t : Subject}
    {pos i : Nat} {m : Match} (h : g.search engine t pos = some (i, m)) : m.Inside t.length := by
  rw [search] at h
  split at h
  · cases h
  · next hfound =>
    obtain ⟨_, _, heq⟩ := Option.map_eq_some_iff.1 h
    cases heq
    exact PatternGroup.inside_of_search hengine hfound

namespace SessionM

variable {scan : Option (Scanner P)} {text : Subject}

theorem scopeGroups_reached_le_iff (hscan : ∀ scan' ∈ scan, scan'.Covers) {found : Match}
    (hinside : found.Inside text.length) (limit : Nat) (spans : OpenSpans) (scopes : List Scope)
    (grammarId : GrammarId) (table : CaptureTable) (firstLine : Bool) (cover : Cover)
    (s : Session P) :
    ((scopeGroups scan text spans scopes grammarId table found firstLine cover).run s).1.reached ≤
        limit ↔
      cover.reached ≤ limit ∧
        ∀ stop ∈ s.registry.captureStops grammarId table found, stop ≤ limit := by
  rw [run_scopeGroups]
  cases hgrammar : s.registry.grammar? grammarId with
  | none => simp [Registry.captureStops, hgrammar]
  | some grammar =>
    let c : Captured := { grammarId, grammar, found, text, spans, scopes, firstLine }
    have hentries := Captured.scopeEntries_reached_le_iff (c := c) hscan hinside limit
      table.entries [] cover s
    refine hentries.trans (and_congr (by simp) ?_)
    constructor
    · intro h stop hstop
      obtain ⟨g, hg, e, he, capture, start, hplace⟩ := Registry.mem_captureStops.1 hstop
      cases hgrammar.symm.trans hg
      exact h e he capture start stop (Captured.place?_eq_some.2 hplace)
    · intro h e he capture start stop hplace
      exact h stop (Registry.mem_captureStops.2
        ⟨grammar, hgrammar, e, he, capture, start, Captured.place?_eq_some.1 hplace⟩)

/-- The tokens made for a match reach to its end, or to the furthest end of its groups. -/
theorem applyEffect_reached_le_iff (hscan : ∀ scan' ∈ scan, scan'.Covers) {m : Match}
    (hinside : m.Inside text.length) (limit : Nat) (line : LineState) (e : Effect)
    (s : Session P) :
    ((applyEffect scan text m line e).run s).1.cover.reached ≤ limit ↔
      line.cover.reached ≤ limit ∧ m.stop ≤ limit ∧
        ∀ stop ∈ s.registry.captureStops e.grammarId e.captures m, stop ≤ limit := by
  have hcover : ((applyEffect scan text m line e).run s).1.cover =
      ((scopeMatch scan text m line e).run s).1 := by
    rw [run_applyEffect]
    cases e <;> rfl
  have hstart := hinside.start_le
  rw [hcover, run_scopeMatch]
  simp only [Cover.reached_extend, Nat.max_le, scopeGroups_reached_le_iff hscan hinside]
  constructor
  · rintro ⟨⟨⟨hreached, _⟩, hgroups⟩, hstop⟩
    exact ⟨hreached, hstop, hgroups⟩
  · rintro ⟨hreached, hstop, hgroups⟩
    exact ⟨⟨⟨hreached, by omega⟩, hgroups⟩, hstop⟩

theorem applyAll_reached (hengine : engine.Inside) (hscan : ∀ scan' ∈ scan, scan'.Covers)
    (steps : Nat) (line : LineState) (h : line.cover.reached ≤ text.length) (s : Session P) :
    ((applyAll engine scan text steps line).run s).1.cover.reached = text.length := by
  induction steps generalizing line s with
  | zero =>
    rw [run_applyAll_zero, Cover.reached_extend]
    omega
  | succ steps ih =>
    rw [run_applyAll_succ]
    dsimp only
    split
    · rw [Cover.reached_extend]
      omega
    · next i m hfound =>
      rw [run_searchContext] at hfound
      have hinside : m.Inside text.length := ContextGroup.inside_of_search hengine hfound
      split
      · next line' happlied =>
        refine ih line' ?_ _
        rw [run_applyCandidate] at happlied
        split at happlied
        · cases happlied
        · cases happlied
          exact (applyEffect_reached_le_iff hscan hinside _ _ _ _).2
            ⟨h, hinside.stop_le, captureStops_le hinside⟩
      · rw [Cover.reached_extend]
        omega

/-- A scan gives tokens up to the end of the text and no further. -/
theorem scanLine_reached (hengine : engine.Inside) (hscan : ∀ scan' ∈ scan, scan'.Covers)
    (line : LineState) (h : line.cover.reached ≤ text.length) (s : Session P) :
    ((scanLine engine scan text line).run s).1.cover.reached = text.length :=
  applyAll_reached hengine hscan _ line h s

theorem captureScanner_covers (hengine : engine.Inside) (levels : Nat) :
    ∀ scan ∈ captureScanner engine levels, scan.Covers := by
  induction levels with
  | zero => nofun
  | succ levels ih =>
    intro scan hscan text spans start firstLine s hstart
    rw [run_captureScanner engine text levels hscan]
    let line : LineState := .startingAt spans start none firstLine
    have htiles := (scanLine_covers engine (captureScanner engine levels) text line s).1.tiles
    rw [scanLine_reached hengine ih line hstart s] at htiles
    exact htiles

end SessionM

/-! ## Steps of a scan -/

theorem Cursor.le_passSpan (c : Cursor) (stop : Nat) : stop ≤ (c.passSpan stop).pos := by
  unfold passSpan
  split
  · exact Nat.le_refl _
  · split
    · show stop ≤ c.pos + 1
      omega
    · show stop ≤ c.pos
      omega

theorem Cursor.le_passRule (c : Cursor) (stop : Nat) : stop ≤ (c.passRule stop).pos := by
  unfold passRule
  split
  · exact Nat.le_refl _
  · show stop ≤ c.pos + 1
    omega

theorem Cursor.pos_passWhile (c : Cursor) (stop : Nat) :
    (c.passWhile stop).pos = max c.pos stop := by
  unfold passWhile
  split
  · show stop = max c.pos stop
    omega
  · omega

theorem SessionM.applyEffect_passes (scan : Option (Scanner P)) (text : Subject) (m : Match)
    (line : LineState) (e : Effect) (s : Session P) :
    m.stop ≤ ((applyEffect scan text m line e).run s).1.cursor.pos := by
  rw [run_applyEffect]
  cases e with
  | closing target outer rule span => exact Cursor.le_passSpan ..
  | single rule single => exact Cursor.le_passRule ..
  | opening rule grammar span => exact Cursor.le_passSpan ..

namespace ScanPoint

/-- The ends of the groups that get scopes when a match has some effect here. -/
def captureStops (engine : Engine P) (p : ScanPoint P) (m : Match) (e : Effect) : List Nat :=
  (p.search engine).2.registry.captureStops e.grammarId e.captures m

/-- The groups that get scopes end inside the match. -/
def Confined (engine : Engine P) (p : ScanPoint P) : Prop :=
  ∀ m e, p.effect? engine = some (m, e) → ∀ stop ∈ p.captureStops engine m e, stop ≤ m.stop

end ScanPoint

section

variable {p q : ScanPoint P} {k : Nat}

/-- The tokens made at one point of a scan reach to the end of the match, or to the furthest end of
its groups. The scan goes on behind the match. -/
theorem Applies.reached_le_iff (hengine : engine.Inside) (h : Applies engine p q) :
    ∃ m e, p.effect? engine = some (m, e) ∧ m.stop ≤ q.pos ∧ ∀ limit,
      q.line.cover.reached ≤ limit ↔
        p.line.cover.reached ≤ limit ∧ m.stop ≤ limit ∧
          ∀ stop ∈ p.captureStops engine m e, stop ≤ limit := by
  cases h with
  | @mk i m line s₁ s₂ hsearch happly =>
    have hinside : m.Inside p.text.length := by
      rw [ScanPoint.search, SessionM.run_searchContext] at hsearch
      exact ContextGroup.inside_of_search hengine (congrArg Prod.fst hsearch)
    rw [ScanPoint.applied, SessionM.run_applyCandidate] at happly
    cases heffect : s₁.registry.effect? p.line.spans.frames (p.context.candidate? i) with
    | none =>
      rw [heffect] at happly
      cases happly
    | some e =>
      rw [heffect] at happly
      cases happly
      refine ⟨m, e, ?_, SessionM.applyEffect_passes .., fun limit => ?_⟩
      · simp only [ScanPoint.effect?, hsearch, heffect, Option.map_some]
      · rw [ScanPoint.captureStops, hsearch]
        exact SessionM.applyEffect_reached_le_iff (SessionM.captureScanner_covers hengine p.levels)
          hinside limit p.line e s₁

theorem Applies.behind (hengine : engine.Inside) (h : Applies engine p q)
    (hconfined : p.Confined engine) (hreached : p.line.cover.reached ≤ p.pos) :
    q.line.cover.reached ≤ q.pos := by
  obtain ⟨m, e, heffect, hpos, hlimit⟩ := h.reached_le_iff hengine
  have hmoves : p.pos ≤ q.pos := h.moves.le
  refine (hlimit q.pos).2 ⟨by omega, hpos, fun stop hstop => ?_⟩
  have := hconfined m e heffect stop hstop
  omega

/-- If the groups that got scopes ended inside their matches so far, no token reaches beyond the
position of the scan. -/
theorem Chain.behind (hengine : engine.Inside) (h : Chain engine p k q)
    (hconfined : ∀ j o, j < k → Chain engine p j o → o.Confined engine)
    (hreached : p.line.cover.reached ≤ p.pos) : q.line.cover.reached ≤ q.pos := by
  induction h with
  | refl => exact hreached
  | @step k q r hchain happly ih =>
    have hbefore := ih fun j o hj ho => hconfined j o (by omega) ho
    exact happly.behind hengine (hconfined k q (by omega) hchain) hbefore

end

/-! ## The start of a scan -/

/-- For each `while` pattern that keeps a span open, the groups that get scopes end inside its
match. -/
def HeldConfined (engine : Engine P) (levels : Nat) (text : Subject) :
    List Frame → List Frame → LineState → Session P → Prop
  | [], _, _, _ => True
  | frame :: inner, outer, line, s =>
    match frame.hold with
    | .whileMatched rule source =>
      let matched :=
        (SessionM.matchAlone engine source line.cursor.anchors text line.cursor.pos).run s
      match matched.1 with
      | none => True
      | some m =>
        let held := SessionM.heldGroups (SessionM.captureScanner engine levels) text frame outer
          rule m line matched.2
        (∀ span ∈ matched.2.registry.span? rule,
          ∀ stop ∈ matched.2.registry.captureStops rule.grammar span.closeCaptures m,
            stop ≤ m.stop) ∧
        HeldConfined engine levels text inner (frame :: outer)
          { line with
            cursor := line.cursor.passWhile m.stop
            cover := held.1.extend m.stop frame.contentScopes } held.2
    | _ => HeldConfined engine levels text inner (frame :: outer) line s

theorem SessionM.inside_of_matchAlone (hengine : engine.Inside) {source : String}
    {anchors : Anchoring} {text : Subject} {pos : Nat} {s : Session P} {m : Match}
    (h : ((matchAlone engine source anchors text pos).run s).1 = some m) :
    m.Inside text.length := by
  rw [run_matchAlone] at h
  obtain ⟨p, _, hmatch⟩ := Option.bind_eq_some_iff.1 h
  exact Engine.inside_of_matchAt hengine hmatch

theorem SessionM.heldGroups_reached_le {scan : Option (Scanner P)} {text : Subject}
    (hscan : ∀ scan' ∈ scan, scan'.Covers) {m : Match} (hinside : m.Inside text.length)
    (frame : Frame) (outer : List Frame) {rule : RuleRef} {line : LineState} {s : Session P}
    {limit : Nat} (hreached : line.cover.reached ≤ limit) (hstop : m.stop ≤ limit)
    (hstops : ∀ span ∈ s.registry.span? rule,
      ∀ stop ∈ s.registry.captureStops rule.grammar span.closeCaptures m, stop ≤ limit) :
    (heldGroups scan text frame outer rule m line s).1.reached ≤ limit := by
  have hstart : (line.cover.extend m.start frame.contentScopes).reached ≤ limit := by
    have := hinside.start_le
    rw [Cover.reached_extend]
    omega
  rw [heldGroups]
  cases hspan : s.registry.span? rule with
  | none => exact hstart
  | some span => exact (scopeGroups_reached_le_iff hscan hinside ..).2 ⟨hstart, hstops span hspan⟩

theorem SessionM.holdFrames_behind (hengine : engine.Inside) {levels : Nat} {text : Subject}
    {inner outer : List Frame} {line : LineState} {s : Session P}
    (h : HeldConfined engine levels text inner outer line s)
    (hreached : line.cover.reached ≤ line.cursor.pos) :
    let checked := (holdFrames engine (captureScanner engine levels) text inner outer line).run s
    checked.1.cover.reached ≤ checked.1.cursor.pos := by
  induction inner generalizing outer line s with
  | nil => exact hreached
  | cons frame inner ih =>
    rw [HeldConfined] at h
    rw [run_holdFrames_cons]
    cases hhold : frame.hold with
    | untilEnd rule source =>
      rw [hhold] at h
      exact ih h hreached
    | capture =>
      rw [hhold] at h
      exact ih h hreached
    | whileMatched rule source =>
      rw [hhold] at h
      dsimp only at h ⊢
      generalize hmatched :
        (matchAlone engine source line.cursor.anchors text line.cursor.pos).run s = matched at h ⊢
      obtain ⟨_ | m, s₁⟩ := matched
      · exact hreached
      · obtain ⟨hstops, hrest⟩ := h
        refine ih hrest ?_
        have hinside : m.Inside text.length :=
          inside_of_matchAlone hengine (congrArg Prod.fst hmatched)
        have hheld : (heldGroups (captureScanner engine levels) text frame outer rule m line
            s₁).1.reached ≤ max line.cursor.pos m.stop := by
          refine heldGroups_reached_le (captureScanner_covers hengine levels) hinside frame outer
            (by omega) (by omega) fun span hspan stop hstop => ?_
          have := hstops span hspan stop hstop
          omega
        show ((heldGroups (captureScanner engine levels) text frame outer rule m line s₁).1.extend
          m.stop frame.contentScopes).reached ≤ (line.cursor.passWhile m.stop).pos
        rw [Cover.reached_extend, Cursor.pos_passWhile]
        omega

theorem ScanPoint.OfCapture.cover_eq {levels : Nat} {q : ScanPoint P} (h : q.OfCapture levels) :
    q.line.cover = .startingAt q.pos := by
  obtain ⟨_, _, _, _, _, _, _, _, rfl⟩ := h
  rfl

/-- A scan starts with tokens one behind the other, none of them beyond its position. -/
theorem Begins.starts (hengine : engine.Inside) {text : Subject} {spans : OpenSpans} {start : Nat}
    {anchor : Option Nat} {firstLine : Bool} {s : Session P} {depth : Nat} {p : ScanPoint P}
    (h : Begins engine text (.startingAt spans start anchor firstLine) s depth p)
    (hheld : depth = 0 → HeldConfined engine captureDepth text spans.frames.reverse []
      (.startingAt spans start anchor firstLine) s) :
    (∃ n, (Cover.startingAt n).Extends p.line.cover) ∧ p.line.cover.reached ≤ p.pos := by
  have hcapture {levels : Nat} {q : ScanPoint P} (hq : q.OfCapture levels) :
      (∃ n, (Cover.startingAt n).Extends q.line.cover) ∧ q.line.cover.reached ≤ q.pos := by
    rw [hq.cover_eq]
    exact ⟨⟨_, .refl _⟩, Nat.le_refl _⟩
  cases h with
  | held hp => exact hcapture (heldScans_ofCapture hp)
  | line hchecked =>
    subst hchecked
    exact ⟨⟨start, SessionM.holdFrames_extends ..⟩,
      SessionM.holdFrames_behind hengine (hheld rfl) (Nat.le_refl start)⟩
  | nested _ _ hr => exact hcapture (ScanPoint.nested_ofCapture hr)

/-- The tokens made for a match end with it, as far as the position reached before allows, just if
the groups that get scopes do. If they did for all matches before, no token reaches beyond the
position of the scan: what follows a match is left to the rules that match later. -/
theorem Begins.captures_confined (hengine : engine.Inside) {text : Subject} {spans : OpenSpans}
    {start : Nat} {anchor : Option Nat} {firstLine : Bool} {s : Session P} {depth k : Nat}
    {p q : ScanPoint P}
    (h : Begins engine text (.startingAt spans start anchor firstLine) s depth p)
    (hchain : Chain engine p k q) :
    (∀ r, Applies engine q r → ∃ m e made, q.effect? engine = some (m, e) ∧
      r.line.cover.tokens.toList = q.line.cover.tokens.toList ++ made ∧
      ((∀ t ∈ made, t.stop ≤ max q.line.cover.reached m.stop) ↔
        ∀ stop ∈ q.captureStops engine m e, stop ≤ max q.line.cover.reached m.stop)) ∧
    ((depth = 0 → HeldConfined engine captureDepth text spans.frames.reverse []
        (.startingAt spans start anchor firstLine) s) →
      (∀ j o, j < k → Chain engine p j o → o.Confined engine) →
      q.line.cover.reached ≤ q.pos ∧ ∀ t ∈ q.line.cover.tokens.toList, t.stop ≤ q.pos) := by
  constructor
  · intro r happly
    obtain ⟨m, e, heffect, _, hlimit⟩ := happly.reached_le_iff hengine
    obtain ⟨made, htokens, htiles⟩ := happly.cover_extends
    refine ⟨m, e, made, heffect, htokens, ?_⟩
    rw [htiles.forall_stop_le_iff (Nat.le_max_left ..), hlimit]
    constructor
    · exact fun h => h.2.2
    · exact fun hstops => ⟨Nat.le_max_left .., Nat.le_max_right .., hstops⟩
  · intro hheld hconfined
    obtain ⟨⟨n, hstart⟩, hbefore⟩ := h.starts hengine hheld
    have hreached := hchain.behind hengine hconfined hbefore
    have htiles := (hstart.trans hchain.cover_extends).tiles
    have hle := htiles.le
    exact ⟨hreached, (htiles.forall_stop_le_iff (by omega)).2 hreached⟩

/-! ### A group in a look-ahead -/

/-- A grammar of two rules. The first one finds an `a` before a `b`; its first group is the `a`, its
second one, in the look-ahead, is the `b`. One of them gets the scope `c`. -/
def lookAhead (group : Nat) : Grammar :=
  { name := "", scopeName := "s", scope := ⟨"s"⟩, fileTypes := [], patterns := #["(a)(?=(b))", "b"]
    rules := #[.single ⟨[⟨"m"⟩], ⟨0⟩, ⟨group + 1, [(group, ⟨0⟩)]⟩⟩, .single ⟨[⟨"b"⟩], ⟨1⟩, .empty⟩]
    lists := #[[.rule ⟨0⟩, .rule ⟨1⟩]], captures := #[⟨[⟨"c"⟩], none⟩], repositories := #[]
    root := ⟨0⟩, skipped := [] }

def lookAheadSession (group : Nat) : Session Regex :=
  let ((tokenizer, notices), registry) :=
    Tokenizer.start (Registry.empty.add (lookAhead group)).2 ⟨0⟩ {}
  { registry, tokenizer, notices }

/-- The points of the scan of the line `ab`. -/
def lookAheadPoint (group : Nat) : Nat → ScanPoint Regex
  | 0 =>
    { levels := captureDepth, text := .ofLine "ab", capture := none
      line := SessionM.startLine .fresh, session := lookAheadSession group }
  | n + 1 => (lookAheadPoint group n).next Regex.engine

theorem applies_lookAhead {group n : Nat}
    (h : (lookAheadPoint group (n + 1)).pos ≠ (lookAheadPoint group n).pos) :
    Applies Regex.engine (lookAheadPoint group n) (lookAheadPoint group (n + 1)) :=
  ScanPoint.applies_next h

theorem begins_lookAhead (group : Nat) :
    Begins Regex.engine (.ofLine "ab") (.startingAt .fresh 0 none true) (lookAheadSession group) 0
      (lookAheadPoint group 0) := by
  have hheld : (SessionM.holdSpans Regex.engine (SessionM.captureScanner Regex.engine captureDepth)
      (.ofLine "ab") (.startingAt .fresh 0 none true)).run (lookAheadSession group) =
      (.startingAt .fresh 0 none true, lookAheadSession group) := rfl
  exact .line hheld

/-- The first group ends inside the match. -/
theorem captures_confined_firstGroup :
    (∃ m e, (lookAheadPoint 1 0).effect? Regex.engine = some (m, e) ∧ m.stop = 1 ∧
      (lookAheadPoint 1 0).captureStops Regex.engine m e = [1]) ∧
    (lookAheadPoint 1 1).line.cover.reached ≤ (lookAheadPoint 1 1).pos ∧
    ∀ t ∈ (lookAheadPoint 1 1).line.cover.tokens.toList, t.stop ≤ (lookAheadPoint 1 1).pos := by
  have hstops : ((lookAheadPoint 1 0).effect? Regex.engine).map
      (fun (m, e) => (m.stop, (lookAheadPoint 1 0).captureStops Regex.engine m e)) =
      some (1, [1]) := by decide +kernel
  obtain ⟨⟨m, e⟩, heffect, hme⟩ := Option.map_eq_some_iff.1 hstops
  obtain ⟨hstop, hcaptures⟩ := Prod.mk.inj hme
  have hconfined : (lookAheadPoint 1 0).Confined Regex.engine := by
    intro m' e' heffect' stop hmem
    cases heffect.symm.trans heffect'
    rw [hcaptures, List.mem_singleton] at hmem
    omega
  have hpos : (lookAheadPoint 1 1).pos ≠ (lookAheadPoint 1 0).pos := by decide +kernel
  have hchain : Chain Regex.engine (lookAheadPoint 1 0) 1 (lookAheadPoint 1 1) :=
    .step .refl (applies_lookAhead hpos)
  have h := ((begins_lookAhead 1).captures_confined Regex.engine_inside hchain).2
  refine ⟨⟨m, e, heffect, hstop, hcaptures⟩, h (fun _ => trivial) fun j o hj ho => ?_⟩
  obtain rfl : j = 0 := by omega
  cases ho
  exact hconfined

/-- The second group does not: the `b` behind the match gets its scopes and not those of the rule
for `b`. -/
theorem captures_beyond_match :
    Begins Regex.engine (.ofLine "ab") (.startingAt .fresh 0 none true) (lookAheadSession 2) 0
      (lookAheadPoint 2 0) ∧
    Applies Regex.engine (lookAheadPoint 2 0) (lookAheadPoint 2 1) ∧
    (∃ m e, (lookAheadPoint 2 0).effect? Regex.engine = some (m, e) ∧
      max (lookAheadPoint 2 0).line.cover.reached m.stop <
        (lookAheadPoint 2 1).line.cover.reached) ∧
    (lookAheadPoint 2 1).pos < (lookAheadPoint 2 1).line.cover.reached ∧
    (⟨1, 2, [⟨"s"⟩, ⟨"m"⟩, ⟨"c"⟩]⟩ : Token) ∈ ((SessionM.tokenizeLine Regex.engine "ab" .fresh).run
      (lookAheadSession 2)).1.tokens := by
  have hpos : (lookAheadPoint 2 1).pos ≠ (lookAheadPoint 2 0).pos := by decide +kernel
  have hfound : ((lookAheadPoint 2 0).effect? Regex.engine).map (fun (m, _) => m.stop) =
      some 1 := by decide +kernel
  obtain ⟨⟨m, e⟩, heffect, hstop⟩ := Option.map_eq_some_iff.1 hfound
  have hbeyond : max (lookAheadPoint 2 0).line.cover.reached 1 <
      (lookAheadPoint 2 1).line.cover.reached := by decide +kernel
  have hbehind : (lookAheadPoint 2 1).pos < (lookAheadPoint 2 1).line.cover.reached := by
    decide +kernel
  exact ⟨begins_lookAhead 2, applies_lookAhead hpos, ⟨m, e, heffect, hstop ▸ hbeyond⟩, hbehind,
    by decide +kernel⟩

end ScopeGrammar
