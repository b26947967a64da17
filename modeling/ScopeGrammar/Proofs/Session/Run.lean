import ScopeGrammar.Session.Line

/-!
# ScopeGrammar.Proofs.Session.Run

What the steps of a session give when they are run, one equation for each of them. The state of a
session is passed on explicitly, so that nothing that follows has to look into `StateM`.
-/

namespace ScopeGrammar

variable {P : Type} (engine : Engine P)

namespace Session

def contextFor (s : Session P) (situation : Situation) : Context :=
  (s.registry.resolve situation).1.1

def resolved (s : Session P) (situation : Situation) : Session P :=
  ((SessionM.resolveContext situation).run s).2

def plain (s : Session P) (spans : OpenSpans) : List Scope := s.tokenizer.scopesOf spans

theorem resolved_registry (s : Session P) (situation : Situation) :
    (s.resolved situation).registry = (s.registry.resolve situation).2 := rfl

end Session

section Monad

variable {α β : Type}

theorem SessionM.run_bind (m : SessionM P α) (f : α → SessionM P β) (s : Session P) :
    (m >>= f).run s = (f (m.run s).1).run (m.run s).2 := rfl

theorem SessionM.run_registry (s : Session P) : SessionM.registry.run s = (s.registry, s) := rfl

theorem SessionM.run_tokenizer (s : Session P) : SessionM.tokenizer.run s = (s.tokenizer, s) := rfl

end Monad

namespace Captured

variable (scan : Option (Scanner P)) (c : Captured)

theorem run_scanCapture (scan : Scanner P) (id : CaptureId) (scopes : List Scope)
    (start stop : Nat) (s : Session P) :
    (c.scanCapture scan id scopes start stop).run s =
      (scan (c.text.take stop)
        (c.spans.push (captureFrame (c.spans.depth + 1) scopes
          (s.contextFor (.capture s.tokenizer.base c.grammarId id))))
        start (c.firstLine && start == 0)).run
        (s.resolved (.capture s.tokenizer.base c.grammarId id)) := rfl

theorem run_scopeEntries_cons (i : Nat) (id : CaptureId) (rest : List (Nat × CaptureId))
    (groups : OpenGroups) (cover : Cover) (s : Session P) :
    (c.scopeEntries scan ((i, id) :: rest) groups cover).run s =
      match c.place? i id with
      | none => (c.scopeEntries scan rest groups cover).run s
      | some (capture, start, stop) =>
        let closed := groups.closeUpTo start cover
        let outer := closed.1.scopes c.scopes
        let cover := closed.2.extend start outer
        match capture.patterns, scan with
        | some _, some scan =>
          let r := (c.scanCapture scan id (outer ++ capture.scopes) start stop).run s
          (c.scopeEntries (some scan) rest closed.1 (cover.extendAll r.1)).run r.2
        | _, scan =>
          (c.scopeEntries scan rest ((outer ++ capture.scopes, stop) :: closed.1) cover).run s := by
  rw [scopeEntries]
  cases c.place? i id with
  | none => rfl
  | some place =>
    obtain ⟨capture, start, stop⟩ := place
    dsimp only
    cases capture.patterns <;> cases scan <;> rfl

end Captured

namespace SessionM

variable (scan : Option (Scanner P)) (text : Subject)

theorem run_scopeGroups (spans : OpenSpans) (scopes : List Scope) (grammarId : GrammarId)
    (table : CaptureTable) (found : Match) (firstLine : Bool) (cover : Cover) (s : Session P) :
    (scopeGroups scan text spans scopes grammarId table found firstLine cover).run s =
      match s.registry.grammar? grammarId with
      | none => (cover, s)
      | some grammar =>
        (({ grammarId, grammar, found, text, spans, scopes, firstLine } : Captured).scopeEntries
          scan table.entries [] cover).run s := by
  rw [scopeGroups, run_bind, run_registry]
  dsimp only
  cases s.registry.grammar? grammarId <;> rfl

theorem scopeGroups_empty_session (spans : OpenSpans) (scopes : List Scope)
    (grammarId : GrammarId) (found : Match) (firstLine : Bool) (cover : Cover) (s : Session P) :
    ((scopeGroups scan text spans scopes grammarId .empty found firstLine cover).run s).2 = s := by
  rw [run_scopeGroups]
  cases s.registry.grammar? grammarId <;> rfl

theorem run_scopeMatch (m : Match) (line : LineState) (e : Effect) (s : Session P) :
    (scopeMatch scan text m line e).run s =
      let r := (scopeGroups scan text (e.spans line.spans) (e.scopes (s.plain line.spans))
        e.grammarId e.captures m line.cursor.firstLine
        (line.cover.extend m.start (s.plain line.spans))).run s
      (r.1.extend m.stop (e.scopes (s.plain line.spans)), r.2) := rfl

theorem run_openSpan (rule : RuleRef) (grammar : Grammar) (span : SpanRule) (m : Match)
    (line : LineState) (s : Session P) :
    (openSpan text rule grammar span m line).run s =
      let source := closingSource grammar span text m
      let situation :=
        spanSituation s.tokenizer.options s.tokenizer.base rule span source line.spans
      ({ line with
          spans := line.spans.push (spanFrame (line.spans.depth + 1) rule span source
            (s.plain line.spans) (m.stop == text.length) (s.contextFor situation) situation.ends)
          cursor := (line.cursor.openFrame (line.spans.depth + 1) m.stop).passSpan m.stop },
        s.resolved situation) := rfl

theorem run_applyEffect (m : Match) (line : LineState) (e : Effect) (s : Session P) :
    (applyEffect scan text m line e).run s =
      let r := (scopeMatch scan text m line e).run s
      match e with
      | .closing target outer _ _ => (closeSpan target outer m { line with cover := r.1 }, r.2)
      | .single _ _ => (applyMatch m { line with cover := r.1 }, r.2)
      | .opening rule grammar span =>
        (openSpan text rule grammar span m { line with cover := r.1 }).run r.2 := by
  cases e <;> rfl

theorem run_applyCandidate (m : Match) (line : LineState) (candidate : Option Candidate)
    (s : Session P) :
    (applyCandidate scan text m line candidate).run s =
      match s.registry.effect? line.spans.frames candidate with
      | none => (none, s)
      | some e =>
        let r := (applyEffect scan text m line e).run s
        (some r.1, r.2) := by
  rw [applyCandidate, run_bind, run_registry]
  dsimp only
  cases s.registry.effect? line.spans.frames candidate <;> rfl

theorem run_applyAll_zero (line : LineState) (s : Session P) :
    (applyAll engine scan text 0 line).run s =
      ({ line with cover := line.cover.extend text.length (s.plain line.spans) }, s) := rfl

theorem run_applyAll_succ (steps : Nat) (line : LineState) (s : Session P) :
    (applyAll engine scan text (steps + 1) line).run s =
      let context := s.tokenizer.contextOf line.spans
      let found := (searchContext engine context line.cursor.anchors text line.cursor.pos).run s
      match found.1 with
      | none => ({ line with cover := line.cover.extend text.length (s.plain line.spans) }, found.2)
      | some (i, m) =>
        let applied :=
          (applyCandidate scan text m line (context.candidate? i)).run found.2
        match applied.1 with
        | some line => (applyAll engine scan text steps line).run applied.2
        | none =>
          ({ line with cover := line.cover.extend text.length s.tokenizer.rootScopes },
            { applied.2 with
              notices := applied.2.notices ++ [.inconsistentState line.cursor.pos] }) := by
  rw [applyAll, run_bind, run_tokenizer, run_bind]
  dsimp only
  generalize (searchContext engine (s.tokenizer.contextOf line.spans) line.cursor.anchors text
    line.cursor.pos).run s = found
  obtain ⟨_ | ⟨i, m⟩, s₁⟩ := found
  · rfl
  · dsimp only
    rw [run_bind]
    generalize (applyCandidate scan text m line
      ((s.tokenizer.contextOf line.spans).candidate? i)).run s₁ = applied
    obtain ⟨_ | line', s₂⟩ := applied <;> rfl

theorem run_captureScanner (levels : Nat) {scan : Scanner P}
    (h : captureScanner engine (levels + 1) = some scan) (spans : OpenSpans) (start : Nat)
    (firstLine : Bool) (s : Session P) :
    (scan text spans start firstLine).run s =
      let r := (scanLine engine (captureScanner engine levels) text
        (.startingAt spans start none firstLine)).run s
      (r.1.cover.tokens.toList, r.2) := by
  cases h; rfl

/-- The scopes of the match of a `while` pattern up to its last group. -/
def heldGroups (frame : Frame) (outer : List Frame) (rule : RuleRef) (m : Match)
    (line : LineState) (s : Session P) : Cover × Session P :=
  let cover := line.cover.extend m.start frame.contentScopes
  match s.registry.span? rule with
  | none => (cover, s)
  | some span =>
    (scopeGroups scan text (line.spans.withFrames (frame :: outer)) frame.contentScopes
      rule.grammar span.closeCaptures m line.cursor.firstLine cover).run s

theorem run_holdFrames_cons (frame : Frame) (inner outer : List Frame) (line : LineState)
    (s : Session P) :
    (holdFrames engine scan text (frame :: inner) outer line).run s =
      match frame.hold with
      | .whileMatched rule source =>
        let matched := (matchAlone engine source line.cursor.anchors text line.cursor.pos).run s
        match matched.1 with
        | none => ({ line with spans := line.spans.withFrames outer }, matched.2)
        | some m =>
          let held := heldGroups scan text frame outer rule m line matched.2
          (holdFrames engine scan text inner (frame :: outer)
            { line with
              cursor := line.cursor.passWhile m.stop
              cover := held.1.extend m.stop frame.contentScopes }).run held.2
      | _ => (holdFrames engine scan text inner (frame :: outer) line).run s := by
  rw [holdFrames]
  cases frame.hold with
  | untilEnd rule source => rfl
  | capture => rfl
  | whileMatched rule source =>
    dsimp only
    rw [run_bind]
    generalize (matchAlone engine source line.cursor.anchors text line.cursor.pos).run s = matched
    obtain ⟨_ | m, s₁⟩ := matched
    · rfl
    · dsimp only
      rw [run_bind, run_registry, heldGroups]
      dsimp only
      cases s₁.registry.span? rule <;> rfl

/-- Frames without a `while` pattern stay open. -/
theorem run_holdFrames_of_not_while (inner outer : List Frame) (line : LineState) (s : Session P)
    (h : ∀ f ∈ inner, ∀ rule source, f.hold ≠ .whileMatched rule source) :
    (holdFrames engine scan text inner outer line).run s = (line, s) := by
  induction inner generalizing outer with
  | nil => rfl
  | cons f inner ih =>
    rw [List.forall_mem_cons] at h
    rw [run_holdFrames_cons]
    split
    · next rule source hhold => exact absurd hhold (h.1 rule source)
    · exact ih (f :: outer) h.2

theorem run_tokenizeLine (line : String) (state : OpenSpans) (s : Session P) :
    (tokenizeLine engine line state).run s =
      if isTooLong s.tokenizer.options line.length then
        ({ tokens := [⟨0, line.length, s.plain state⟩], state := state.start }, s)
      else
        let scan := captureScanner engine captureDepth
        let checked := (holdSpans engine scan (.ofLine line) (startLine state)).run s
        let scanned := (scanLine engine scan (.ofLine line) checked.1).run checked.2
        ({ tokens := scanned.1.cover.clip line.length, state := scanned.1.spans.start },
          scanned.2) := by
  rw [tokenizeLine, run_bind, run_tokenizer]
  dsimp only
  split <;> rfl

theorem run_tokenizeLines_cons (line : String) (rest : List String) (state : OpenSpans)
    (s : Session P) :
    (tokenizeLines engine (line :: rest) state).run s =
      let l := (tokenizeLine engine line state).run s
      let more := (tokenizeLines engine rest l.1.state).run l.2
      (l.1 :: more.1, more.2) := rfl

theorem run_groupOf (context : Context) (anchors : Anchoring) (s : Session P) :
    (groupOf engine context anchors).run s =
      match s.tokenizer.groups.lookup (context.id, anchors) with
      | some g => (g, s)
      | none =>
        let built := ContextGroup.build engine context anchors
        (built.1, { s with
          tokenizer := s.tokenizer.addGroup (context.id, anchors) built.1
          notices := s.notices ++ built.2 }) := by
  rw [groupOf]
  change (match s.tokenizer.groups.lookup (context.id, anchors) with
    | some g => (g, s)
    | none => _) = _
  cases s.tokenizer.groups.lookup (context.id, anchors) <;> rfl

theorem run_singleOf (source : String) (s : Session P) :
    (singleOf engine source).run s =
      match s.tokenizer.singles.lookup source with
      | some p => (p, s)
      | none =>
        let p := (engine.compile {} source).toOption
        let notices :=
          match engine.compile {} source with
          | .ok _ => []
          | .error e => [.deadPattern ⟨source, e⟩]
        (p, { s with
          tokenizer := s.tokenizer.addSingle source p
          notices := s.notices ++ notices }) := by
  rw [singleOf]
  change (match s.tokenizer.singles.lookup source with
    | some p => (p, s)
    | none => _) = _
  cases s.tokenizer.singles.lookup source with
  | some p => rfl
  | none => cases engine.compile {} source <;> simp [Except.toOption]

theorem run_searchContext (context : Context) (anchors : Anchoring) (pos : Nat) (s : Session P) :
    (searchContext engine context anchors text pos).run s =
      let g := (groupOf engine context (if context.usesAnchors then anchors else .all)).run s
      (g.1.search engine text pos, g.2) := rfl

theorem run_matchAlone (source : String) (anchors : Anchoring) (pos : Nat) (s : Session P) :
    (matchAlone engine source anchors text pos).run s =
      let p := (singleOf engine (anchors.rewrite source)).run s
      (p.1.bind fun p => engine.matchAt p text pos, p.2) := rfl

end SessionM

end ScopeGrammar
