import ScopeGrammar.Pattern.Regex
import ScopeGrammar.Proofs.Registry.Situations
import ScopeGrammar.Proofs.World.Catalog
import ScopeGrammar.Proofs.World.Kept

/-!
# ScopeGrammar.Proofs.Registry.Growth

Contexts without number from one grammar.

Of two spans that contain each other, one is opened and then the other inside it, again and again.
The end of the first moves away with every frame, so each frame has a situation of its own
(`innerSituation`), though all of them have the same patterns. `InnerWorld.next` is one more line,
`contextCount_unbounded` what comes of it.
-/

namespace ScopeGrammar

/-! ## Inside `c` -/

def nestedSpansRegistry : Registry := (Registry.empty.add nestedSpans).2

def innerRule : RuleRef := ⟨⟨0⟩, ⟨1⟩⟩

/-- The span from `c` to `d`. -/
def innerSpan : SpanRule :=
  { scopes := [], contentScopes := [], opening := ⟨2⟩, openingCaptures := .empty
    close := .atEnd ⟨3⟩ .empty false, fillsEnding := false, patterns := ⟨0⟩ }

/-- The situation inside a `c`, with so many of them between it and the `a` that they are in. -/
def innerSituation (between : Nat) : Situation :=
  { base := ⟨0⟩, origin := .span innerRule, ownEnd := some ⟨0, "d", false⟩, endLast := false
    outerEnds := [⟨between + 1, "b", false⟩] }

def innerEntries (between : Nat) : List (Candidate × String) :=
  [(.closing 0, "d"), (.rule ⟨⟨0⟩, ⟨0⟩⟩, "a"), (.rule innerRule, "c"),
    (.closing (between + 1), "b")]

theorem entriesFor_inner (between : Nat) :
    nestedSpansRegistry.entriesFor (innerSituation between) = innerEntries between := rfl

def innerGroup : ContextGroup Regex :=
  (ContextGroup.build Regex.engine (.ofEntries ⟨0⟩ (innerEntries 0)) .all).1

theorem innerGroup_search :
    innerGroup.search Regex.engine (.ofLine "c") 0 = some (2, ⟨0, 1, [some (0, 1)]⟩) ∧
      innerGroup.search Regex.engine (.ofLine "c") 1 = none := by
  decide +kernel

/-- The contexts have the same patterns, so one group serves for all of them. -/
theorem build_inner {c : Context} {between : Nat} (h : c.entries = innerEntries between) :
    (ContextGroup.build Regex.engine c .all).1 = innerGroup := by
  have hsources : c.sources = (Context.ofEntries ⟨0⟩ (innerEntries 0)).sources := by
    rw [Context.sources, h]; rfl
  rw [ContextGroup.build_eq, hsources, innerGroup, ContextGroup.build_eq]

theorem usesAnchors_inner {c : Context} {between : Nat} (h : c.entries = innerEntries between) :
    c.usesAnchors = false := by
  rw [c.usesAnchors_eq, h]; rfl

structure InnerFrames (between : Nat) (frames : List Frame) : Prop where
  top : ∃ f outer, frames = f :: outer ∧ f.ends = (innerSituation between).ends ∧
    f.context.entries = innerEntries between
  held : ∀ f ∈ frames, ∀ rule source, f.hold ≠ .whileMatched rule source

namespace InnerFrames

variable {between : Nat} {spans : OpenSpans}

theorem contextOf (h : InnerFrames between spans.frames) (t : Tokenizer Regex) :
    (t.contextOf spans).entries = innerEntries between := by
  obtain ⟨f, outer, hframes, _, hentries⟩ := h.top
  rw [Tokenizer.contextOf, OpenSpans.top?, hframes]
  exact hentries

/-- One frame further inside, the end of the `a` is one frame further away. -/
theorem spanSituation (h : InnerFrames between spans.frames) :
    spanSituation {} ⟨0⟩ innerRule innerSpan "d" spans = innerSituation (between + 1) := by
  obtain ⟨f, outer, hframes, hends, _⟩ := h.top
  have htop : spans.top? = some f := by rw [OpenSpans.top?, hframes]; rfl
  rw [ScopeGrammar.spanSituation, htop]
  simp only [Option.map_some, Option.getD_some, hends]
  rfl

theorem push (h : InnerFrames between spans.frames) {context : Context}
    (hcontext : context.entries = innerEntries (between + 1)) (depth : Nat) (scopes : List Scope)
    (atEnd : Bool) :
    InnerFrames (between + 1) (spans.push (spanFrame depth innerRule innerSpan "d" scopes atEnd
      context (innerSituation (between + 1)).ends)).frames := by
  refine ⟨⟨_, _, rfl, rfl, hcontext⟩, List.forall_mem_cons.2 ⟨?_, h.held⟩⟩
  intro rule source hhold
  cases hhold

end InnerFrames

/-! ## The line `c` -/

/-- A session in which nothing was searched but such contexts. -/
structure InnerSession (s : Session Regex) : Prop where
  grammars : nestedSpansRegistry.SameGrammars s.registry
  base : s.tokenizer.base = ⟨0⟩
  options : s.tokenizer.options = {}
  groups : ∀ key g, s.tokenizer.groups.lookup key = some g → g = innerGroup

namespace InnerSession

open SessionM

variable {s : Session Regex} {between : Nat}

theorem resolved (h : InnerSession s) (situation : Situation) :
    InnerSession (s.resolved situation) :=
  ⟨h.grammars.trans (s.registry.resolve_sameGrammars situation), h.base, h.options, h.groups⟩

-- The numbers of contexts may have come round: a group kept under the number of this context may
-- have been built for another one. It is the same group all the same.
theorem searchContext (h : InnerSession s) {c : Context} (hc : c.entries = innerEntries between)
    (anchors : Anchoring) (text : Subject) (pos : Nat) :
    ∃ s', (searchContext Regex.engine c anchors text pos).run s =
        (innerGroup.search Regex.engine text pos, s') ∧
      InnerSession s' ∧ s'.registry = s.registry := by
  rw [run_searchContext, usesAnchors_inner hc, run_groupOf]
  simp only [Bool.false_eq_true, if_false]
  cases hlookup : s.tokenizer.groups.lookup (c.id, .all) with
  | some g =>
    rw [h.groups _ _ hlookup]
    exact ⟨s, rfl, h, rfl⟩
  | none =>
    rw [build_inner hc]
    refine ⟨_, rfl, ⟨h.grammars, h.base, h.options, fun key g hkey => ?_⟩, rfl⟩
    dsimp only at hkey
    rw [Tokenizer.addGroup, List.lookup_cons] at hkey
    split at hkey
    · cases hkey; rfl
    · split at hkey
      · exact h.groups key g hkey
      · cases hkey

theorem applyCandidate (h : InnerSession s) {line : LineState}
    (hframes : InnerFrames between line.spans.frames)
    (hentries : (s.contextFor (innerSituation (between + 1))).entries = innerEntries (between + 1))
    (scan : Option (Scanner Regex)) (text : Subject) (m : Match) :
    ∃ line', (applyCandidate scan text m line (some (.rule innerRule))).run s =
        (some line', s.resolved (innerSituation (between + 1))) ∧
      line'.cursor = (line.cursor.openFrame (line.spans.depth + 1) m.stop).passSpan m.stop ∧
      InnerFrames (between + 1) line'.spans.frames := by
  have heffect : s.registry.effect? line.spans.frames (some (.rule innerRule)) =
      some (.opening innerRule nestedSpans innerSpan) := by
    rw [h.grammars.effect?_eq]; rfl
  have hsession : ((scopeMatch scan text m line (.opening innerRule nestedSpans innerSpan)).run
      s).2 = s := scopeGroups_empty_session ..
  have hclosing : closingSource nestedSpans innerSpan text m = "d" := rfl
  rw [run_applyCandidate, heffect]
  dsimp only
  rw [run_applyEffect]
  dsimp only
  rw [run_openSpan, hsession, hclosing]
  dsimp only
  rw [h.base, h.options, hframes.spanSituation]
  exact ⟨_, rfl, rfl, hframes.push hentries _ _ _⟩

/-- At the start of the line a span is opened. -/
theorem applyAll_opens (h : InnerSession s) {line : LineState} (hpos : line.cursor.pos = 0)
    (hframes : InnerFrames between line.spans.frames)
    (hentries : (s.contextFor (innerSituation (between + 1))).entries = innerEntries (between + 1))
    (scan : Option (Scanner Regex)) (steps : Nat) :
    ∃ line' s', (applyAll Regex.engine scan (.ofLine "c") (steps + 1) line).run s =
        (applyAll Regex.engine scan (.ofLine "c") steps line').run s' ∧
      InnerSession s' ∧ s'.registry = (s.registry.resolve (innerSituation (between + 1))).2 ∧
      line'.cursor.pos = 1 ∧ InnerFrames (between + 1) line'.spans.frames := by
  have hcontext := hframes.contextOf s.tokenizer
  have hcandidate : (s.tokenizer.contextOf line.spans).candidate? 2 = some (.rule innerRule) := by
    rw [Context.candidate?, hcontext]; rfl
  obtain ⟨s₁, hfound, hs₁, hregistry⟩ :=
    h.searchContext hcontext line.cursor.anchors (.ofLine "c") 0
  rw [innerGroup_search.1] at hfound
  have hcontextFor : s₁.contextFor (innerSituation (between + 1)) =
      s.contextFor (innerSituation (between + 1)) := by
    rw [Session.contextFor, hregistry, Session.contextFor]
  obtain ⟨line', happlied, hcursor, hframes'⟩ := hs₁.applyCandidate hframes
    (hcontextFor ▸ hentries) scan (.ofLine "c") ⟨0, 1, [some (0, 1)]⟩
  rw [run_applyAll_succ]
  dsimp only
  rw [hpos, hfound]
  dsimp only
  rw [hcandidate, happlied]
  dsimp only
  refine ⟨line', _, rfl, hs₁.resolved _, ?_, ?_, hframes'⟩
  · rw [Session.resolved_registry, hregistry]
  · rw [hcursor, Cursor.passSpan, Cursor.openFrame, hpos]
    rfl

/-- Behind it there is nothing. -/
theorem applyAll_ends (h : InnerSession s) {line : LineState} (hpos : line.cursor.pos = 1)
    (hframes : InnerFrames between line.spans.frames) (scan : Option (Scanner Regex))
    (steps : Nat) :
    ∃ line' s', (applyAll Regex.engine scan (.ofLine "c") (steps + 1) line).run s = (line', s') ∧
      s'.registry = s.registry ∧ line'.spans = line.spans := by
  obtain ⟨s', hnone, _, hregistry⟩ := h.searchContext (hframes.contextOf s.tokenizer)
    line.cursor.anchors (.ofLine "c") 1
  rw [innerGroup_search.2] at hnone
  rw [run_applyAll_succ]
  dsimp only
  rw [hpos, hnone]
  exact ⟨_, _, rfl, hregistry, rfl⟩

theorem tokenizeLine (h : InnerSession s) {state : OpenSpans}
    (hframes : InnerFrames between state.frames)
    (hentries : (s.contextFor (innerSituation (between + 1))).entries =
      innerEntries (between + 1)) :
    ((tokenizeLine Regex.engine "c" state).run s).2.registry =
        (s.registry.resolve (innerSituation (between + 1))).2 ∧
      InnerFrames (between + 1) ((tokenizeLine Regex.engine "c" state).run s).1.state.frames := by
  have hheld : (holdSpans Regex.engine (captureScanner Regex.engine captureDepth) (.ofLine "c")
      (startLine state)).run s = (startLine state, s) :=
    run_holdFrames_of_not_while _ _ _ _ _ _ _ fun f hf => hframes.held f (List.mem_reverse.1 hf)
  have hsteps : scanLine Regex.engine (captureScanner Regex.engine captureDepth) (.ofLine "c")
      (startLine state) = applyAll Regex.engine (captureScanner Regex.engine captureDepth)
        (.ofLine "c") 5 (startLine state) := rfl
  have hstart : InnerFrames between (startLine state).spans.frames := hframes
  obtain ⟨line₁, s₁, hopens, hs₁, hregistry₁, hpos, hframes₁⟩ :=
    h.applyAll_opens rfl hstart hentries (captureScanner Regex.engine captureDepth) 4
  obtain ⟨line₂, s₂, hends, hregistry₂, hspans⟩ :=
    hs₁.applyAll_ends hpos hframes₁ (captureScanner Regex.engine captureDepth) 3
  rw [run_tokenizeLine, h.options, if_neg (by decide)]
  dsimp only
  rw [hheld]
  dsimp only
  rw [hsteps, hopens, hends]
  refine ⟨hregistry₂.trans hregistry₁, ?_⟩
  change InnerFrames (between + 1) line₂.spans.frames
  rw [hspans]
  exact hframes₁

end InnerSession

/-! ## Worlds with more and more of them -/

structure InnerWorld (between : Nat) (w : World Regex) (state : OpenSpans) : Prop where
  tokenized : w.Tokenized Regex.engine nestedSpansRegistry
  mem : state ∈ w.states
  frames : InnerFrames between state.frames
  kept : ∀ n ≤ between, ∃ c, w.registry.contexts.get? (innerSituation n) = some c

namespace InnerWorld

variable {between : Nat} {w : World Regex} {state : OpenSpans}

/-- The line `ac` opens the first one. -/
theorem first : ∃ w state, InnerWorld 0 w state := by
  let w : World Regex := (World.new nestedSpansRegistry).started ⟨0⟩ {}
  let t : Tokenizer Regex := (Tokenizer.start nestedSpansRegistry ⟨0⟩ {}).1.1
  let r := (SessionM.tokenizeLine Regex.engine "ac" .fresh).run (w.session t)
  have hid : (World.new nestedSpansRegistry : World Regex).registry.id? "s" = some ⟨0⟩ := rfl
  have hstart : World.Tokenizes Regex.engine (.new nestedSpansRegistry) w := .start {} hid
  have hline : World.Tokenizes Regex.engine w (w.after r) := .line "ac" (.head _) (.head _)
  have htop : (r.1.state.top?.map fun f => (f.ends, f.context.entries)) =
      some ((innerSituation 0).ends, innerEntries 0) := by decide +kernel
  have hheld : r.1.state.frames.map (·.hold) =
      [.untilEnd innerRule "d", .untilEnd ⟨⟨0⟩, ⟨0⟩⟩ "b"] := by decide +kernel
  have hkept : ((w.after r).registry.contexts.get? (innerSituation 0)).isSome = true := by
    decide +kernel
  obtain ⟨f, hf, hpair⟩ := Option.map_eq_some_iff.1 htop
  obtain ⟨outer, hframes⟩ := List.head?_eq_some_iff.1 hf
  obtain ⟨hends, hentries⟩ := Prod.mk.inj hpair
  refine ⟨w.after r, r.1.state, .tail (.single hstart) hline, .head _, ⟨?_, ?_⟩, ?_⟩
  · exact ⟨f, outer, hframes, hends, hentries⟩
  · intro g hg rule source hhold
    have hmem : g.hold ∈ r.1.state.frames.map (·.hold) := List.mem_map_of_mem hg
    rw [hheld, hhold] at hmem
    simp at hmem
  · intro n hn
    rw [Nat.le_zero.1 hn]
    exact Option.isSome_iff_exists.1 hkept

/-- A new tokenizer and the line `c` make one more. -/
theorem next (h : InnerWorld between w state) :
    ∃ w' state', InnerWorld (between + 1) w' state' := by
  have hid : w.registry.id? "s" = some ⟨0⟩ := by
    rw [Registry.id?, h.tokenized.uses.extends.grammars.ids]; rfl
  let w₁ := w.started ⟨0⟩ {}
  let t : Tokenizer Regex := (Tokenizer.start w.registry ⟨0⟩ {}).1.1
  have hstart : World.Tokenizes Regex.engine w w₁ := .start {} hid
  have htokenized : w₁.Tokenized Regex.engine nestedSpansRegistry := h.tokenized.tail hstart
  have hsession : InnerSession (w₁.session t) :=
    ⟨htokenized.uses.extends.grammars, rfl, rfl, fun key g hkey => by cases hkey⟩
  have hentries : ((w₁.session t).contextFor (innerSituation (between + 1))).entries =
      innerEntries (between + 1) := by
    have hresolved : ((w₁.session t).contextFor (innerSituation (between + 1))).entries =
        (w₁.session t).registry.entriesFor (innerSituation (between + 1)) :=
      htokenized.reachable.resolve_entries _
    rw [hresolved, hsession.grammars.entriesFor_eq, entriesFor_inner]
  obtain ⟨hregistry, hframes⟩ := hsession.tokenizeLine h.frames hentries
  have hline : World.Tokenizes Regex.engine w₁ _ := .line "c" (w.mem_started ⟨0⟩ {}) h.mem
  refine ⟨_, _, htokenized.tail hline, .head _, hframes, fun n hn => ?_⟩
  obtain hn | rfl := Nat.le_or_eq_of_le_succ hn
  · obtain ⟨c, hc⟩ := h.kept n hn
    exact ⟨c, hline.use.keeps.get? (hstart.use.keeps.get? hc)⟩
  · rw [World.after, hregistry]
    exact ⟨_, Registry.get?_resolve rfl⟩

/-- Each of the situations has a context of its own. -/
theorem lt_contextCount (h : InnerWorld between w state) : between < w.registry.contextCount := by
  have hinjective : Function.Injective innerSituation := by
    intro m n heq
    simpa [innerSituation] using heq
  have hnodup : ((List.range (between + 1)).map innerSituation).Nodup :=
    List.nodup_range.map hinjective
  have hsubset : (List.range (between + 1)).map innerSituation ⊆
      w.registry.contexts.entries.map (·.1) := by
    intro s hs
    obtain ⟨n, hn, rfl⟩ := List.mem_map.1 hs
    obtain ⟨c, hc⟩ := h.kept n (Nat.le_of_lt_succ (List.mem_range.1 hn))
    exact List.mem_map_of_mem (ContextStore.mem_of_get? hc)
  have hlength := (hnodup.subperm hsubset).length_le
  rw [List.length_map, List.length_map, List.length_range] at hlength
  exact hlength

theorem exists_of_between (between : Nat) : ∃ w state, InnerWorld between w state := by
  induction between with
  | zero => exact first
  | succ between ih =>
    obtain ⟨w, state, hinner⟩ := ih
    exact hinner.next

end InnerWorld

/-- What a registry keeps is not bounded by its grammars. -/
theorem contextCount_unbounded :
    ¬ ∃ bound, ∀ w : World Regex,
      w.Tokenized Regex.engine (Registry.empty.add nestedSpans).2 →
        w.registry.contextCount ≤ bound := by
  rintro ⟨bound, hbound⟩
  obtain ⟨w, state, hinner⟩ := InnerWorld.exists_of_between bound
  exact Nat.not_le_of_lt hinner.lt_contextCount (hbound w hinner.tokenized)

end ScopeGrammar
