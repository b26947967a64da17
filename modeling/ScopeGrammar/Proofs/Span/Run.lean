import ScopeGrammar.Proofs.Registry.Coherence
import ScopeGrammar.Proofs.Session.Progress
import ScopeGrammar.Proofs.Span.Rebuilt

/-!
# ScopeGrammar.Proofs.Span.Run

Runs of lines from the fresh state on.

* `World.Run` is a run of lines by tokenizers with one base grammar, all looking for the ends of all
  open spans or all for the innermost one. Other uses of the registry may come between the lines.
* `World.Run.search_rebuilt` : at every point of every scan of a further line the candidate that
  wins is the winner of the list rebuilt from the whole stack, and the frame it closes the one that
  list names.
* `World.Run.search_rebuilt_not` : so it is not where a grammar is added in between, or where the
  numbers of contexts have come round.

The stack is `Inside` the capture that the scan is of: what is closed is an end of the stack, which
has no frame of a capture before it (`Applies.inside`).
-/

namespace ScopeGrammar

variable {P : Type} {engine : Engine P} {r : Registry} {base : GrammarId}
  {options : SessionOptions}

/-! ## Points of a scan -/

theorem SessionM.applyEffect_spans (scan : Option (Scanner P)) (text : Subject) (m : Match)
    (line : LineState) (e : Effect) (s : Session P) :
    match e with
    | .closing _ outer _ _ =>
      ((applyEffect scan text m line e).run s).1.spans = line.spans.withFrames outer
    | .single _ _ => ((applyEffect scan text m line e).run s).1.spans = line.spans
    | .opening _ _ _ => ∃ f : Frame, f.hold ≠ .capture ∧
      ((applyEffect scan text m line e).run s).1.spans = line.spans.push f := by
  cases e with
  | closing target outer rule span => rfl
  | single rule single => rfl
  | opening rule grammar span => exact ⟨_, hold_spanFrame _ _ _ _ _ _ _ _, rfl⟩

/-- Applying a candidate closes the frame of an end in the context and those inside it, leaves all
frames open, or opens the frame of a span. -/
theorem Applies.frames_cases {p q : ScanPoint P} (h : Applies engine p q) :
    (∃ distance source, (.closing distance, source) ∈ p.context.entries ∧
      q.line.spans.frames = p.line.spans.frames.drop (distance + 1)) ∨
    q.line.spans.frames = p.line.spans.frames ∨
    ∃ f : Frame, f.hold ≠ .capture ∧ q.line.spans.frames = f :: p.line.spans.frames := by
  cases h with
  | @mk i m line s₁ s₂ hsearch happlied =>
    rw [ScanPoint.applied, SessionM.run_applyCandidate] at happlied
    split at happlied
    · cases happlied
    · next e heffect =>
      cases happlied
      obtain ⟨c, hcandidate, hhas⟩ := Registry.hasEffect_of_effect? heffect
      have hspans := SessionM.applyEffect_spans (SessionM.captureScanner engine p.levels) p.text m
        p.line e s₁
      dsimp only
      cases hhas with
      | @closing distance target outer rule source span hdrop hhold hspan =>
        obtain ⟨entry, hentry, hc⟩ := Option.map_eq_some_iff.1 hcandidate
        refine .inl ⟨distance, entry.2, hc ▸ List.mem_of_getElem? hentry, ?_⟩
        rw [hspans, ← List.tail_drop, hdrop]
        rfl
      | single hgrammar hrule => exact .inr (.inl (by rw [hspans]))
      | opening hgrammar hspan =>
        obtain ⟨f, hhold, hpush⟩ := hspans
        exact .inr (.inr ⟨f, hhold, by rw [hpush]; rfl⟩)

/-- What an end of the stack closes is inside all frames of captures. -/
theorem IsOpenEnd.hold_ne_capture {frames : List Frame} {distance : Nat} {source : String}
    (h : IsOpenEnd frames distance source) :
    ∀ g ∈ frames.take (distance + 1), g.hold ≠ .capture := by
  obtain ⟨f, rule, hget, hhold, hopen⟩ := h
  intro g hg
  rw [List.take_add_one, hget, Option.toList_some, List.mem_append, List.mem_singleton] at hg
  obtain hg | rfl := hg
  · exact hopen g hg
  · rw [hhold]
    simp

theorem Applies.inside {p q : ScanPoint P} (h : Applies engine p q)
    (hp : p.session.Uniform engine r base options p.line.spans)
    (hinside : Inside r base p.capture p.line.spans.frames) :
    Inside r base q.capture q.line.spans.frames := by
  have hcapture : q.capture = p.capture := by cases h; rfl
  rw [hcapture]
  obtain ⟨distance, source, hmem, hframes⟩ | hframes | ⟨f, hhold, hframes⟩ := h.frames_cases
  · rw [hframes]
    exact hinside.drop (distance + 1) (hp.isOpenEnd_of_closing hmem).hold_ne_capture
  · rw [hframes]
    exact hinside
  · rw [hframes]
    exact .span hhold hinside

theorem Chain.inside {p q : ScanPoint P} {k : Nat} (h : Chain engine p k q)
    (hp : p.session.Uniform engine r base options p.line.spans)
    (hinside : Inside r base p.capture p.line.spans.frames) :
    Inside r base q.capture q.line.spans.frames := by
  induction h with
  | refl => exact hinside
  | step hchain happly ih => exact happly.inside (hp.after hchain.leads) ih

theorem ScanPoint.BegunFrom.inside {s : Session P} {a : OpenSpans} {q : ScanPoint P}
    (h : q.BegunFrom engine s a) (hs : s.Uniform engine r base options a) :
    Inside r base q.capture q.line.spans.frames := by
  cases h with
  | mk hleads hgrammar hcapture =>
    exact .capture _ _ ((hs.after hleads).contextFor_capture _ _)

section Begins

variable {text : Subject} {line : LineState} {s : Session P}

theorem Begins.inside {depth : Nat} {p : ScanPoint P} (h : Begins engine text line s depth p)
    (hs : s.Uniform engine r base options line.spans)
    (hinside : Inside r base none line.spans.frames) :
    Inside r base p.capture p.line.spans.frames := by
  induction h with
  | held h => exact (heldScans_begun (by simp) h).inside hs
  | line h =>
    subst h
    refine Inside.none_iff.2 fun f hf => Inside.none_iff.1 hinside f ?_
    exact (SessionM.holdFrames_suffix _ _ _ line s (by simp)).subset hf
  | nested hbegins hchain h ih =>
    have hq := hs.after (hbegins.leads.trans hchain.leads)
    exact (ScanPoint.nested_begun h).inside hq

theorem Visits.inside {q : ScanPoint P} (h : Visits engine text line s q)
    (hs : s.Uniform engine r base options line.spans)
    (hinside : Inside r base none line.spans.frames) :
    Inside r base q.capture q.line.spans.frames := by
  obtain ⟨depth, p, k, hbegins, hchain⟩ := h
  exact hchain.inside (hs.after hbegins.leads) (hbegins.inside hs hinside)

end Begins

theorem Chain.capture_eq {p q : ScanPoint P} {k : Nat} (h : Chain engine p k q) :
    q.capture = p.capture := by
  induction h with
  | refl => rfl
  | step _ happly ih => cases happly; exact ih

theorem ScanPoint.Ends.spans_eq {p : ScanPoint P} {result : LineState × Session P}
    (h : p.Ends engine result) : result.1.spans = p.line.spans := by
  cases h with
  | exhausted hsearch => rfl
  | inconsistent hsearch happlied => rfl

/-- The frames that a line leaves open are those at the last point of its scan. -/
theorem SessionM.tokenizeLine_state (engine : Engine P) (line : String) (state : OpenSpans)
    (s : Session P) :
    ((tokenizeLine engine line state).run s).1.state = state.start ∨
      ∃ q, Visits engine (.ofLine line) (startLine state) s q ∧ q.capture = none ∧
        ((tokenizeLine engine line state).run s).1.state = q.line.spans.start := by
  rw [run_tokenizeLine]
  split
  · exact .inl rfl
  · generalize hchecked : (holdSpans engine (captureScanner engine captureDepth) (.ofLine line)
      (startLine state)).run s = checked
    let p : ScanPoint P :=
      { levels := captureDepth, text := .ofLine line, capture := none, line := checked.1
        session := checked.2 }
    obtain ⟨k, q, hchain, hends⟩ := p.result_ends engine
    refine .inr ⟨q, ⟨0, p, k, .line hchecked, hchain⟩, hchain.capture_eq, ?_⟩
    dsimp only
    rw [hchecked]
    exact congrArg OpenSpans.start hends.spans_eq

/-! ## Runs -/

/-- A run of lines from the fresh state on, by tokenizers with one base grammar that close spans in
one way. -/
inductive World.Run (engine : Engine P) (base : GrammarId) (outerSpans : Bool) :
    World P → OpenSpans → Prop
  | fresh {w : World P} : w.Reachable engine → Run engine base outerSpans w .fresh
  | line {w : World P} {state : OpenSpans} {t : Tokenizer P} (line : String) :
      Run engine base outerSpans w state → t ∈ w.tokenizers → t.base = base →
      t.options.closeOuterSpans = outerSpans →
      Run engine base outerSpans
        (w.after ((SessionM.tokenizeLine engine line state).run (w.session t)))
        ((SessionM.tokenizeLine engine line state).run (w.session t)).1.state
  | use {w w' : World P} {state : OpenSpans} : Run engine base outerSpans w state →
      World.Use engine w w' → Run engine base outerSpans w' state

namespace World.Run

variable {outerSpans : Bool} {w : World P} {state : OpenSpans}

theorem own (h : w.Run engine base outerSpans state) : w.Own engine state := by
  induction h with
  | fresh h => exact .fresh h
  | line line _ ht hbase houter ih => exact .line line ih ht
  | use _ huse ih => exact .use ih huse

/-- A session for the next line of a run whose state is stacked is in a uniform world. -/
theorem uniform (h : w.Run engine base outerSpans state)
    (hstacked : Stacked w.registry base { closeOuterSpans := outerSpans } state.frames)
    {t : Tokenizer P} (ht : t ∈ w.tokenizers) (hbase : t.base = base)
    (houter : t.options.closeOuterSpans = outerSpans) :
    (w.session t).Uniform engine w.registry base { closeOuterSpans := outerSpans } state := by
  refine ⟨Leads.alone (w.session t) state, ⟨h.own.sound_alone ht, .refl _, ?_, ?_⟩,
    Leads.alone_at ..⟩
  · intro t' ht'
    rw [Leads.alone, List.mem_singleton] at ht'
    subst ht'
    exact ⟨hbase, houter⟩
  · intro spans hspans
    rw [Leads.alone, List.mem_singleton] at hspans
    subst hspans
    exact hstacked

theorem stacked (h : w.Run engine base outerSpans state) :
    Stacked w.registry base { closeOuterSpans := outerSpans } state.frames := by
  induction h with
  | fresh h => exact .nil
  | line line hrun ht hbase houter ih =>
    have hafter := (hrun.uniform ih ht hbase houter).after (SessionM.tokenizeLine_leads line _ _)
    exact hafter.stacked.congr hafter.sameGrammars
  | use _ huse ih => exact ih.congr huse.extends.grammars

/-- No scan of a capture is left open between lines. -/
theorem inside (h : w.Run engine base outerSpans state) (r : Registry) :
    Inside r base none state.frames := by
  induction h generalizing r with
  | fresh h => exact .line
  | @line w state t line hrun ht hbase houter ih =>
    obtain hstate | ⟨q, hvisits, hcapture, hstate⟩ :=
      SessionM.tokenizeLine_state engine line state (w.session t)
    · rw [hstate]; exact ih r
    · have hq := hvisits.inside (hrun.uniform hrun.stacked ht hbase houter) (ih w.registry)
      rw [hcapture, Inside.none_iff] at hq
      rw [hstate]
      exact Inside.none_iff.2 hq
  | use _ huse ih => exact ih r

/-- At every point of every scan of a further line: each frame has the ends of the frames around
it, a group built for the context that is searched finds the winner of the candidates rebuilt from
the whole stack, and so does the group that is kept as long as the numbers of contexts have not come
round. Where that winner closes a frame, it is the one it names. -/
theorem search_rebuilt {outerSpans : Bool} {w : World P} {state : OpenSpans}
    (h : w.Run engine base outerSpans state) {t : Tokenizer P} (ht : t ∈ w.tokenizers)
    (hbase : t.base = base) (houter : t.options.closeOuterSpans = outerSpans) {line : String}
    {q : ScanPoint P}
    (hq : Visits engine (.ofLine line) (SessionM.startLine state) (w.session t) q) :
    let frames := q.line.spans.frames
    let anchors := q.line.cursor.anchors
    let reference := (engine.winner anchors q.text q.pos
      (w.registry.rebuilt base q.capture outerSpans frames)).map fun (c, m) => (some c, m)
    (∀ f outer, f :: outer <:+ frames → f.HasEnds outerSpans outer) ∧
    q.context.answer
      ((ContextGroup.build engine q.context anchors).1.search engine q.text q.pos) = reference ∧
    (q.session.Numbered → q.context.answer (q.search engine).1 = reference) ∧
    ∀ distance m, reference = some (some (.closing distance), m) → ∃ f rule source span,
      frames[distance]? = some f ∧ f.hold = .untilEnd rule source ∧
      q.session.registry.effect? frames (some (.closing distance)) =
        some (.closing f (frames.drop (distance + 1)) rule span) := by
  have hs := (h.uniform h.stacked ht hbase houter).after hq.leads
  have hinside := hq.inside (h.uniform h.stacked ht hbase houter) (h.inside w.registry)
  have hbuilt := hs.search_build hinside q.line.cursor.anchors q.text q.pos
  refine ⟨fun f outer hsuffix => ?_, hbuilt, fun hnumbered => ?_, fun distance m hwinner => ?_⟩
  · obtain ⟨inner, hinner⟩ := hsuffix
    have hdrop := hs.stacked.drop inner.length
    rw [← hinner, List.drop_left] at hdrop
    exact hdrop.hasEnds
  · rw [← hbuilt, ← hs.searchContext hnumbered]
    rfl
  · obtain ⟨⟨c, m'⟩, hfound, heq⟩ := Option.map_eq_some_iff.1 hwinner
    cases heq
    obtain ⟨source, hmem⟩ := engine.mem_of_winner hfound
    obtain ⟨f, rule, hget, hhold, _⟩ := isOpenEnd_of_rebuilt hmem
    have hdrop : q.line.spans.frames.drop distance =
        f :: q.line.spans.frames.drop (distance + 1) := by
      obtain ⟨hlt, rfl⟩ := List.getElem?_eq_some_iff.1 hget
      exact List.drop_eq_getElem_cons hlt
    have hstacked := hs.stacked.drop distance
    rw [hdrop] at hstacked
    obtain ⟨span, hspan⟩ := hstacked.span?_of_untilEnd hhold
    refine ⟨f, rule, source, span, hget, hhold, ?_⟩
    rw [hs.sameGrammars.effect?_eq]
    simp [Registry.effect?, hdrop, hhold, hspan]

end World.Run

/-! ### A run -/

/-- The point after the next candidate, or the same one at the end of the scan. -/
def ScanPoint.next (engine : Engine P) (p : ScanPoint P) : ScanPoint P :=
  match p.search engine with
  | (none, _) => p
  | (some (i, m), s) =>
    match p.applied engine i m s with
    | (none, _) => p
    | (some line, session) => { p with line, session }

theorem ScanPoint.applies_next {p : ScanPoint P}
    (h : (p.next engine).line.cursor.pos ≠ p.line.cursor.pos) :
    Applies engine p (p.next engine) := by
  unfold next at h ⊢
  cases hsearch : p.search engine with
  | mk found s =>
    rw [hsearch] at h
    cases found with
    | none => exact absurd rfl h
    | some winner =>
      obtain ⟨i, m⟩ := winner
      dsimp only at h ⊢
      cases happlied : p.applied engine i m s with
      | mk line session =>
        rw [happlied] at h
        cases line with
        | none => exact absurd rfl h
        | some line => exact .mk hsearch happlied

def nestedSpansPoint : Nat → ScanPoint Char
  | 0 =>
    { levels := captureDepth, text := .ofLine "aacb", capture := none
      line := SessionM.startLine .fresh, session := nestedSpansWorld.session nestedSpansTokenizer }
  | n + 1 => (nestedSpansPoint n).next oneCharacter

/-- Inside `aac` the end of the inner one of the two spans from `a` is found, past that of the span
from `c`. -/
theorem search_rebuilt_aacb :
    nestedSpansWorld.Run oneCharacter ⟨0⟩ true .fresh ∧
      Visits oneCharacter (.ofLine "aacb") (SessionM.startLine .fresh)
        (nestedSpansWorld.session nestedSpansTokenizer) (nestedSpansPoint 3) ∧
      (nestedSpansPoint 3).context.answer ((nestedSpansPoint 3).search oneCharacter).1 =
        some (some (.closing 1), ⟨3, 4, [some (3, 4)]⟩) := by
  have hrun : nestedSpansWorld.Run oneCharacter ⟨0⟩ true .fresh := .fresh nestedSpansWorld_reachable
  have hmem : nestedSpansTokenizer ∈ nestedSpansWorld.tokenizers := .head _
  have happlies : ∀ n < 3,
      Applies oneCharacter (nestedSpansPoint n) (nestedSpansPoint (n + 1)) := by
    have hpos : ∀ n < 3, (nestedSpansPoint (n + 1)).line.cursor.pos ≠
        (nestedSpansPoint n).line.cursor.pos := by decide +kernel
    exact fun n hn => ScanPoint.applies_next (hpos n hn)
  have hvisits : Visits oneCharacter (.ofLine "aacb") (SessionM.startLine .fresh)
      (nestedSpansWorld.session nestedSpansTokenizer) (nestedSpansPoint 3) :=
    ⟨0, nestedSpansPoint 0, 3, .line rfl, ((Chain.refl.step (happlies 0 (by decide))).step
      (happlies 1 (by decide))).step (happlies 2 (by decide))⟩
  have hnumbered : (nestedSpansPoint 3).session.Numbered := by
    have hmade : (nestedSpansPoint 3).session.registry.contexts.made ≤ 2 ^ 32 := by decide +kernel
    exact hmade
  refine ⟨hrun, hvisits, ?_⟩
  rw [(hrun.search_rebuilt hmem rfl rfl hvisits).2.2.1 hnumbered]
  decide +kernel

/-! ### Where the rebuilt list is not followed -/

/-- A grammar of one span, from `a` to `b`, with the rules of the grammar `t` in it. -/
def includingSpan : Grammar :=
  { name := "", scopeName := "s", scope := ⟨"s"⟩, fileTypes := [], patterns := #["a", "b"]
    rules := #[.span
      { scopes := [], contentScopes := [], opening := ⟨0⟩, openingCaptures := .empty
        close := .atEnd ⟨1⟩ .empty false, fillsEnding := false, patterns := ⟨1⟩ }]
    lists := #[[.rule ⟨0⟩], [.linked { target := .foreign "t" none, repositories := .empty }]]
    captures := #[], repositories := #[], root := ⟨0⟩, skipped := [] }

/-- A grammar with a rule for a `c`. -/
def includedRule : Grammar :=
  { name := "", scopeName := "t", scope := ⟨"t"⟩, fileTypes := [], patterns := #["c"]
    rules := #[.single ⟨[], ⟨0⟩, .empty⟩], lists := #[[.rule ⟨0⟩]], captures := #[]
    repositories := #[], root := ⟨0⟩, skipped := [] }

def includingWorld : World Char := (World.initial.add includingSpan).started ⟨0⟩ {}

/-- The line `a`, which opens the span while there is no grammar `t`. -/
def includingFirst : TokenizedLine × Session Char :=
  (SessionM.tokenizeLine oneCharacter "a" .fresh).run
    (includingWorld.session (Tokenizer.start (Registry.empty.add includingSpan).2 ⟨0⟩ {}).1.1)

/-- What there is behind that line, once the grammar `t` is added and tokenizing started again. -/
def includedWorld : World Char :=
  ((includingWorld.after includingFirst).add includedRule).started ⟨0⟩ {}

def includedTokenizer : Tokenizer Char :=
  (Tokenizer.start ((includingWorld.after includingFirst).add includedRule).registry ⟨0⟩ {}).1.1

/-- The start of the line `c` inside the span. -/
def includedPoint : ScanPoint Char :=
  let scan := SessionM.captureScanner oneCharacter captureDepth
  let checked := (SessionM.holdSpans oneCharacter scan (.ofLine "c")
    (SessionM.startLine includingFirst.1.state)).run (includedWorld.session includedTokenizer)
  { levels := captureDepth, text := .ofLine "c", capture := none
    line := checked.1, session := checked.2 }

namespace World

/-- The world with so many more contexts made, none of which is kept. -/
def worn (w : World P) (n : Nat) : World P :=
  { w with registry := { w.registry with
      contexts := { w.registry.contexts with made := w.registry.contexts.made + n } } }

theorem uses_worn (engine : Engine P) (w : World P) (n : Nat) : Uses engine w (w.worn n) := by
  induction n with
  | zero => exact .refl
  | succ n ih =>
    -- contexts of filled ends are made anew each time
    have huse : Use engine (w.worn n) _ := .resolve Registry.Log.filledSituation
    exact ih.tail huse

end World

/-- The world of `nestedSpans` with one context of each number but the first made in addition. -/
def wornWorld : World Char := nestedSpansWorld.worn (2 ^ 32 - 1)

/-- The start of the line `cd` there, and the point behind the `c`. -/
def wornPoint : Nat → ScanPoint Char
  | 0 =>
    { levels := captureDepth, text := .ofLine "cd", capture := none
      line := SessionM.startLine .fresh, session := wornWorld.session nestedSpansTokenizer }
  | n + 1 => (wornPoint n).next oneCharacter

/-- A span that stays open while grammars are added keeps its context, so in the next line a rule is
not found that is in the rebuilt list. And when the numbers of contexts have come round, the group
of another context is searched, so the end of a span is not found. -/
theorem World.Run.search_rebuilt_not :
    (includedWorld.Reachable oneCharacter ∧ includingFirst.1.state ∈ includedWorld.states ∧
      includedTokenizer ∈ includedWorld.tokenizers ∧
      Visits oneCharacter (.ofLine "c") (SessionM.startLine includingFirst.1.state)
        (includedWorld.session includedTokenizer) includedPoint ∧
      includedPoint.context.answer (includedPoint.search oneCharacter).1 = none ∧
      oneCharacter.winner includedPoint.line.cursor.anchors includedPoint.text includedPoint.pos
          (includedWorld.registry.rebuilt ⟨0⟩ none true includedPoint.line.spans.frames) =
        some (.rule ⟨⟨1⟩, ⟨0⟩⟩, ⟨0, 1, [some (0, 1)]⟩)) ∧
    wornWorld.Run oneCharacter ⟨0⟩ true .fresh ∧ nestedSpansTokenizer ∈ wornWorld.tokenizers ∧
      Visits oneCharacter (.ofLine "cd") (SessionM.startLine .fresh)
        (wornWorld.session nestedSpansTokenizer) (wornPoint 1) ∧
      (wornPoint 1).context.answer ((wornPoint 1).search oneCharacter).1 = none ∧
      oneCharacter.winner (wornPoint 1).line.cursor.anchors (wornPoint 1).text (wornPoint 1).pos
          (wornWorld.registry.rebuilt ⟨0⟩ none true (wornPoint 1).line.spans.frames) =
        some (.closing 0, ⟨1, 2, [some (1, 2)]⟩) := by
  constructor
  · have hid : (World.initial.add includingSpan : World Char).registry.id? "s" = some ⟨0⟩ := rfl
    have hstart : includingWorld.Reachable oneCharacter :=
      .use (.add includingSpan .initial) (.start {} hid)
    have hline := hstart.use (.line "a" (World.mem_started ..) hstart.fresh_mem)
    have hid' : ((includingWorld.after includingFirst).add includedRule).registry.id? "s" =
        some ⟨0⟩ := by decide +kernel
    refine ⟨.use (.add includedRule hline) (.start {} hid'), .head _, .head _,
      ⟨0, includedPoint, 0, .line rfl, .refl⟩, ?_, ?_⟩
    · decide +kernel
    · decide +kernel
  · have hreach := nestedSpansWorld_reachable.uses (World.uses_worn oneCharacter _ (2 ^ 32 - 1))
    have hpos : (wornPoint 1).line.cursor.pos ≠ (wornPoint 0).line.cursor.pos := by decide +kernel
    refine ⟨.fresh hreach, .head _, ⟨0, wornPoint 0, 1, .line rfl,
      .step .refl (ScanPoint.applies_next hpos)⟩, ?_, ?_⟩
    · decide +kernel
    · decide +kernel

end ScopeGrammar
