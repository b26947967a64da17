import ScopeGrammar.Proofs.Session.Coverage
import ScopeGrammar.Proofs.Span.Run

/-!
# ScopeGrammar.Proofs.Session.Scopes

Where the scopes of frames and tokens come from.

* `ScopeChain` : each span adds its own scopes to those of the text around it, up from the scope of
  the grammar. Every step of a session keeps the chain (`LineState.Scoped`), so it holds at every
  point of every scan (`Begins.scoped`).
* `Cover.Rooted` : all tokens have the scopes that the chain starts from.
* `Chain.extends_result` : what a scan has covered at some point stays in its result. So the tokens
  of the match that closes a span are those made there (`Cover.scopesAt_extend`).
* `World.Run.scopes_chain` puts this together for runs of lines.
-/

namespace ScopeGrammar

variable {P : Type} {engine : Engine P} {r : Registry} {root : List Scope}

/-! ## Frames -/

/-- The scopes of the text inside some frames. -/
def scopesInside (root : List Scope) (frames : List Frame) : List Scope :=
  (frames.head?.map (·.contentScopes)).getD root

/-- A frame of a span has the scopes around it and those of the span. -/
def Frame.OfSpan (r : Registry) (root : List Scope) (f : Frame) (outer : List Frame) : Prop :=
  ∃ (rule : RuleRef) (span : SpanRule) (source : String), f.hold = holdOf rule span source ∧
    r.span? rule = some span ∧ f.nameScopes = scopesInside root outer ++ span.scopes ∧
    f.contentScopes = f.nameScopes ++ span.contentScopes

/-- Every frame of a span adds its scopes to those around it. The frame of a capture has scopes of
its own, which start with those of the root too. -/
inductive ScopeChain (r : Registry) (root : List Scope) : List Frame → Prop
  | nil : ScopeChain r root []
  | span {f : Frame} {outer : List Frame} : f.OfSpan r root outer → ScopeChain r root outer →
      ScopeChain r root (f :: outer)
  | capture {f : Frame} {outer : List Frame} : f.hold = .capture →
      f.contentScopes = f.nameScopes → root <+: f.nameScopes → ScopeChain r root outer →
      ScopeChain r root (f :: outer)

namespace ScopeChain

variable {frames outer : List Frame} {f : Frame}

theorem tail (h : ScopeChain r root (f :: outer)) : ScopeChain r root outer := by
  cases h with
  | span _ houter => exact houter
  | capture _ _ _ houter => exact houter

theorem suffix (h : ScopeChain r root frames) (hsuffix : outer <:+ frames) :
    ScopeChain r root outer := by
  obtain ⟨inner, rfl⟩ := hsuffix
  induction inner with
  | nil => exact h
  | cons f inner ih => exact ih h.tail

/-- The scopes of the root come first in all of them. -/
theorem rooted (h : ScopeChain r root frames) : root <+: scopesInside root frames := by
  induction h with
  | nil => exact List.prefix_rfl
  | @span f outer hf _ ih =>
    obtain ⟨rule, span, source, _, _, hname, hcontent⟩ := hf
    have : scopesInside root (f :: outer) =
        scopesInside root outer ++ span.scopes ++ span.contentScopes := by
      simp [scopesInside, hcontent, hname]
    rw [this, List.append_assoc]
    exact ih.trans (List.prefix_append ..)
  | capture _ hcontent hroot _ _ => simpa [scopesInside, hcontent] using hroot

theorem rooted_name (h : ScopeChain r root (f :: outer)) : root <+: f.nameScopes := by
  cases h with
  | span hf houter =>
    obtain ⟨rule, span, source, _, _, hname, _⟩ := hf
    rw [hname]
    exact houter.rooted.trans (List.prefix_append ..)
  | capture _ _ hroot _ => exact hroot

theorem rooted_content (h : ScopeChain r root (f :: outer)) : root <+: f.contentScopes := h.rooted

theorem congr {r' : Registry} (h : ScopeChain r root frames) (hr : r.SameGrammars r') :
    ScopeChain r' root frames := by
  induction h with
  | nil => exact .nil
  | span hf _ ih =>
    obtain ⟨rule, span, source, hhold, hspan, hscopes⟩ := hf
    exact .span ⟨rule, span, source, hhold, by rw [hr.span?_eq, hspan], hscopes⟩ ih
  | capture hhold hcontent hroot _ ih => exact .capture hhold hcontent hroot ih

theorem captureFrame {scopes : List Scope} (hscopes : root <+: scopes)
    (h : ScopeChain r root frames) (depth : Nat) (context : Context) :
    ScopeChain r root (captureFrame depth scopes context :: frames) := .capture rfl rfl hscopes h

end ScopeChain

/-! ## Tokens -/

/-- The scopes of all tokens are like this. -/
def Cover.All (p : List Scope → Prop) (c : Cover) : Prop := ∀ t ∈ c.tokens.toList, p t.scopes

namespace Cover.All

variable {p : List Scope → Prop} {c : Cover}

theorem startingAt (p : List Scope → Prop) (pos : Nat) : (startingAt pos).All p := by
  simp [All, Cover.startingAt]

theorem extend (h : c.All p) {scopes : List Scope} (hscopes : p scopes) (stop : Nat) :
    (c.extend stop scopes).All p := by
  unfold Cover.extend
  split
  · exact h
  · intro t ht
    simp only [Array.toList_push, List.mem_append, List.mem_singleton] at ht
    obtain ht | rfl := ht
    · exact h t ht
    · exact hscopes

theorem extendAll (h : c.All p) {tokens : List Token} (htokens : ∀ t ∈ tokens, p t.scopes) :
    (c.extendAll tokens).All p := by
  induction tokens generalizing c with
  | nil => exact h
  | cons t rest ih =>
    rw [List.forall_mem_cons] at htokens
    exact ih (h.extend htokens.1 t.stop) htokens.2

theorem closeUpTo {groups : OpenGroups} (h : c.All p) (hgroups : ∀ g ∈ groups, p g.1) (pos : Nat) :
    (groups.closeUpTo pos c).2.All p := by
  induction groups generalizing c with
  | nil => exact h
  | cons g rest ih =>
    rw [List.forall_mem_cons] at hgroups
    unfold OpenGroups.closeUpTo
    split
    · exact ih (h.extend hgroups.1 g.2) hgroups.2
    · exact h

theorem closeAll {groups : OpenGroups} (h : c.All p) (hgroups : ∀ g ∈ groups, p g.1) :
    (groups.closeAll c).All p := by
  unfold OpenGroups.closeAll
  induction groups generalizing c with
  | nil => exact h
  | cons g rest ih =>
    rw [List.forall_mem_cons] at hgroups
    exact ih (h.extend hgroups.1 g.2) hgroups.2

end Cover.All

namespace Cover

/-- The scopes of every token start with those of the root. -/
def Rooted (root : List Scope) (c : Cover) : Prop := ∀ t ∈ c.tokens.toList, root <+: t.scopes

variable {c : Cover}

theorem rooted_startingAt (root : List Scope) (pos : Nat) : (startingAt pos).Rooted root := by
  simp [Rooted, startingAt]

theorem Rooted.extend (h : c.Rooted root) {scopes : List Scope} (hscopes : root <+: scopes)
    (stop : Nat) : (c.extend stop scopes).Rooted root :=
  All.extend (p := (root <+: ·)) h hscopes stop

theorem Rooted.extendAll (h : c.Rooted root) {tokens : List Token}
    (htokens : ∀ t ∈ tokens, root <+: t.scopes) : (c.extendAll tokens).Rooted root :=
  All.extendAll (p := (root <+: ·)) h htokens

end Cover

namespace OpenGroups

/-- The scopes of every open group start with those of the root. -/
def Rooted (root : List Scope) (groups : OpenGroups) : Prop := ∀ g ∈ groups, root <+: g.1

variable {groups : OpenGroups} {cover : Cover}

theorem closeUpTo_suffix (pos : Nat) (groups : OpenGroups) (cover : Cover) :
    (groups.closeUpTo pos cover).1 <:+ groups := by
  induction groups generalizing cover with
  | nil => exact List.suffix_rfl
  | cons g rest ih =>
    unfold closeUpTo
    split
    · exact (ih _).trans (List.suffix_cons ..)
    · exact List.suffix_rfl

theorem Rooted.closeUpTo (h : groups.Rooted root) (pos : Nat) (cover : Cover) :
    (groups.closeUpTo pos cover).1.Rooted root := fun g hg =>
  h g ((closeUpTo_suffix pos groups cover).subset hg)

theorem Rooted.closeUpTo_cover (h : groups.Rooted root) (hcover : cover.Rooted root) (pos : Nat) :
    (groups.closeUpTo pos cover).2.Rooted root :=
  Cover.All.closeUpTo (p := (root <+: ·)) hcover h pos

theorem Rooted.closeAll (h : groups.Rooted root) (hcover : cover.Rooted root) :
    (groups.closeAll cover).Rooted root :=
  Cover.All.closeAll (p := (root <+: ·)) hcover h

theorem Rooted.scopes (h : groups.Rooted root) {base : List Scope} (hbase : root <+: base) :
    root <+: groups.scopes base := by
  cases groups with
  | nil => exact hbase
  | cons g rest => exact h g (.head _)

end OpenGroups

/-! ## Steps of a session -/

/-- The session is of these grammars, and plain text has the scopes of the root. -/
structure Session.Based (r : Registry) (root : List Scope) (s : Session P) : Prop where
  grammars : r.SameGrammars s.registry
  rootScopes : s.tokenizer.rootScopes = root

namespace Session.Based

variable {s s' : Session P} {a b : OpenSpans}

theorem after (h : s.Based r root) (hleads : Leads engine s a s' b) : s'.Based r root :=
  ⟨h.grammars.trans hleads.sameGrammars, hleads.sameStart.rootScopes.trans h.rootScopes⟩

theorem plain (h : s.Based r root) (a : OpenSpans) : s.plain a = scopesInside root a.frames := by
  rw [Session.plain, Tokenizer.scopesOf, h.rootScopes]
  rfl

end Session.Based

structure LineState.Scoped (r : Registry) (root : List Scope) (line : LineState) : Prop where
  frames : ScopeChain r root line.spans.frames
  cover : line.cover.Rooted root

/-- The scanner gives tokens below the root, and goes back to its frames. -/
structure Scanner.Rooted (engine : Engine P) (r : Registry) (root : List Scope)
    (scan : Scanner P) : Prop where
  returns : scan.Returns engine
  tokens : ∀ (text : Subject) (spans : OpenSpans) (start : Nat) (firstLine : Bool) (s : Session P),
    s.Based r root → ScopeChain r root spans.frames →
    ∀ t ∈ ((scan text spans start firstLine).run s).1, root <+: t.scopes

theorem Scanner.returns_of_rooted {scan : Option (Scanner P)}
    (hscan : ∀ scan' ∈ scan, scan'.Rooted engine r root) : ∀ scan' ∈ scan, scan'.Returns engine :=
  fun scan' hs => (hscan scan' hs).returns

section Steps

variable {scan : Option (Scanner P)} (hscan : ∀ scan' ∈ scan, scan'.Rooted engine r root)
  {s : Session P}
include hscan

theorem Captured.scopeEntries_rooted {c : Captured} {entries : List (Nat × CaptureId)}
    {groups : OpenGroups} {cover : Cover} (h : s.Based r root)
    (hgrammar : s.registry.grammar? c.grammarId = some c.grammar)
    (hframes : ScopeChain r root c.spans.frames) (hscopes : root <+: c.scopes)
    (hgroups : groups.Rooted root) (hcover : cover.Rooted root) :
    ((c.scopeEntries scan entries groups cover).run s).1.Rooted root := by
  induction entries generalizing groups cover s with
  | nil => exact hgroups.closeAll hcover
  | cons entry rest ih =>
    obtain ⟨i, id⟩ := entry
    rw [run_scopeEntries_cons]
    cases hplace : c.place? i id with
    | none => exact ih h hgrammar hgroups hcover
    | some place =>
      obtain ⟨capture, start, stop⟩ := place
      have hclosed := hgroups.closeUpTo start cover
      have houter := hclosed.scopes hscopes
      have hinner : root <+: (groups.closeUpTo start cover).1.scopes c.scopes ++ capture.scopes :=
        houter.trans (List.prefix_append ..)
      have hstart := (hgroups.closeUpTo_cover hcover start).extend houter start
      dsimp only
      split
      · next scan' hpatterns =>
        have hcapture := c.scanCapture_leads (hscan _ rfl).returns (place?_capture hplace)
          ((groups.closeUpTo start cover).1.scopes c.scopes ++ capture.scopes) start stop s hgrammar
        refine ih (h.after hcapture) ?_ hclosed (hstart.extendAll ?_)
        · rw [hcapture.sameGrammars.grammar?_eq, hgrammar]
        · rw [run_scanCapture]
          have hpush := Leads.captureFrame engine s c.spans
            ((groups.closeUpTo start cover).1.scopes c.scopes ++ capture.scopes) hgrammar
            (place?_capture hplace)
          exact (hscan _ rfl).tokens _ _ _ _ _ (h.after hpush) (hframes.captureFrame hinner _ _)
      · exact ih h hgrammar (List.forall_mem_cons.2 ⟨hinner, hclosed⟩) hstart

namespace SessionM

variable (text : Subject)

theorem scopeGroups_rooted {spans : OpenSpans} {scopes : List Scope} {grammarId : GrammarId}
    {table : CaptureTable} {found : Match} {firstLine : Bool} {cover : Cover} (h : s.Based r root)
    (hframes : ScopeChain r root spans.frames) (hscopes : root <+: scopes)
    (hcover : cover.Rooted root) :
    ((scopeGroups scan text spans scopes grammarId table found firstLine cover).run s).1.Rooted
      root := by
  rw [run_scopeGroups]
  split
  · exact hcover
  · next grammar hgrammar =>
    exact Captured.scopeEntries_rooted hscan h hgrammar hframes hscopes
      (fun g hg => (List.not_mem_nil hg).elim) hcover

omit hscan in
/-- A match is inside of frames of the chain, and its scopes start with the root. -/
theorem effect_rooted {line : LineState} {c : Candidate} {e : Effect}
    (hhas : s.registry.HasEffect line.spans.frames c e)
    (hframes : ScopeChain r root line.spans.frames) {plain : List Scope} (hplain : root <+: plain) :
    ScopeChain r root (e.spans line.spans).frames ∧ root <+: e.scopes plain := by
  cases hhas with
  | closing hdrop _ _ =>
    have htarget := hframes.suffix (hdrop ▸ List.drop_suffix ..)
    exact ⟨htarget, htarget.rooted_name⟩
  | single _ _ => exact ⟨hframes, hplain.trans (List.prefix_append ..)⟩
  | opening _ _ => exact ⟨hframes, hplain.trans (List.prefix_append ..)⟩

theorem scopeMatch_rooted {line : LineState} {c : Candidate} {e : Effect} (h : s.Based r root)
    (hhas : s.registry.HasEffect line.spans.frames c e) (hline : line.Scoped r root) (m : Match) :
    ((scopeMatch scan text m line e).run s).1.Rooted root := by
  have hplain : root <+: s.plain line.spans := by
    rw [h.plain]
    exact hline.frames.rooted
  obtain ⟨hspans, hscopes⟩ := effect_rooted hhas hline.frames hplain
  rw [run_scopeMatch]
  have hstart := hline.cover.extend hplain m.start
  exact (scopeGroups_rooted hscan text h hspans hscopes hstart).extend hscopes m.stop

theorem applyEffect_scoped {line : LineState} {c : Candidate} {e : Effect} (h : s.Based r root)
    (hhas : s.registry.HasEffect line.spans.frames c e) (hline : line.Scoped r root) (m : Match) :
    ((applyEffect scan text m line e).run s).1.Scoped r root := by
  have hcover := scopeMatch_rooted hscan text h hhas hline m
  have hafter := h.after (scopeMatch_leads (Scanner.returns_of_rooted hscan) text hhas m s)
  rw [run_applyEffect]
  cases hhas with
  | closing hdrop _ _ =>
    have htarget := hline.frames.suffix (hdrop ▸ List.drop_suffix ..)
    exact ⟨htarget.tail, hcover⟩
  | single _ _ => exact ⟨hline.frames, hcover⟩
  | @opening rule grammar span _ hspan =>
    refine ⟨?_, hcover⟩
    rw [h.grammars.span?_eq] at hspan
    dsimp only
    rw [run_openSpan]
    -- what the frame is opened in are the scopes of the text before the match
    have hname : ∀ depth source atEnd context ends,
        (spanFrame depth rule span source
          (((scopeMatch scan text m line (.opening rule grammar span)).run s).2.plain line.spans)
          atEnd context ends).nameScopes = scopesInside root line.spans.frames ++ span.scopes := by
      intro depth source atEnd context ends
      rw [hafter.plain]
      rfl
    exact .span ⟨rule, span, _, rfl, hspan, hname .., rfl⟩ hline.frames

theorem applyCandidate_scoped {m : Match} {line line' : LineState} {candidate : Option Candidate}
    {s' : Session P} (h : s.Based r root) (hline : line.Scoped r root)
    (happlied : (applyCandidate scan text m line candidate).run s = (some line', s')) :
    line'.Scoped r root := by
  rw [run_applyCandidate] at happlied
  cases heffect : s.registry.effect? line.spans.frames candidate with
  | none => rw [heffect] at happlied; cases happlied
  | some e =>
    obtain ⟨c, _, hhas⟩ := Registry.hasEffect_of_effect? heffect
    rw [heffect] at happlied
    cases happlied
    exact applyEffect_scoped hscan text h hhas hline m

theorem applyAll_scoped (steps : Nat) {line : LineState} (h : s.Based r root)
    (hline : line.Scoped r root) :
    ((applyAll engine scan text steps line).run s).1.Scoped r root := by
  have hreturns := Scanner.returns_of_rooted hscan
  induction steps generalizing line s with
  | zero =>
    rw [run_applyAll_zero, h.plain]
    exact ⟨hline.frames, hline.cover.extend hline.frames.rooted _⟩
  | succ steps ih =>
    have hfound := h.after (.searchContext engine s line.spans line.cursor.anchors text
      line.cursor.pos)
    rw [run_applyAll_succ]
    dsimp only
    split
    · rw [h.plain]
      exact ⟨hline.frames, hline.cover.extend hline.frames.rooted _⟩
    · next i m _ =>
      split
      · next line' happlied =>
        exact ih (hfound.after (applyCandidate_leads hreturns text (Prod.ext happlied rfl)))
          (applyCandidate_scoped hscan text hfound hline (Prod.ext happlied rfl))
      · -- what does not fit the state is left with the scopes of the root
        rw [h.rootScopes]
        exact ⟨hline.frames, hline.cover.extend List.prefix_rfl _⟩

theorem scanLine_scoped {line : LineState} (h : s.Based r root) (hline : line.Scoped r root) :
    ((scanLine engine scan text line).run s).1.Scoped r root := applyAll_scoped hscan text _ h hline

theorem heldGroups_rooted {frame : Frame} {outer : List Frame} {line : LineState}
    (h : s.Based r root) (hline : line.Scoped r root)
    (hframes : ScopeChain r root (frame :: outer)) (rule : RuleRef) (m : Match) :
    (heldGroups scan text frame outer rule m line s).1.Rooted root := by
  have hstart := hline.cover.extend hframes.rooted_content m.start
  rw [heldGroups]
  split
  · exact hstart
  · exact scopeGroups_rooted hscan text h hframes hframes.rooted_content hstart

theorem holdFrames_scoped {inner outer : List Frame} {line : LineState} (h : s.Based r root)
    (hline : line.Scoped r root) (hframes : line.spans.frames = inner.reverse ++ outer) :
    ((holdFrames engine scan text inner outer line).run s).1.Scoped r root := by
  induction inner generalizing outer line s with
  | nil => exact hline
  | cons frame inner ih =>
    have hbelow : line.spans.frames = inner.reverse ++ frame :: outer := by simp [hframes]
    have hchain : ScopeChain r root (frame :: outer) := hline.frames.suffix ⟨_, hbelow.symm⟩
    rw [run_holdFrames_cons]
    split
    · next rule source _ =>
      have hmatched := h.after (.matchAlone engine s line.spans source line.cursor.anchors text
        line.cursor.pos)
      dsimp only
      split
      · exact ⟨hchain.tail, hline.cover⟩
      · next m _ =>
        have hheld := heldGroups_leads (Scanner.returns_of_rooted hscan) text frame outer rule m
          line ((matchAlone engine source line.cursor.anchors text line.cursor.pos).run s).2
          ⟨_, hbelow.symm⟩
        have hcover := heldGroups_rooted hscan text hmatched hline hchain rule m
        have hmore := hcover.extend hchain.rooted_content m.stop
        exact @ih _ _ { line with cursor := line.cursor.passWhile m.stop, cover := _ }
          (hmatched.after hheld) ⟨hline.frames, hmore⟩ hbelow
    · exact ih h hline hbelow

end SessionM

end Steps

theorem SessionM.captureScanner_rooted (levels : Nat) :
    ∀ scan ∈ captureScanner engine levels, scan.Rooted engine r root := by
  induction levels with
  | zero => intro scan h; cases h
  | succ levels ih =>
    intro scan hscan
    refine ⟨captureScanner_returns (levels + 1) scan hscan, ?_⟩
    intro text spans start firstLine s h hframes
    rw [run_captureScanner engine text levels hscan]
    exact (scanLine_scoped ih text h ⟨hframes, Cover.rooted_startingAt root start⟩).cover

namespace SessionM

variable {state : OpenSpans} {s : Session P}

theorem startLine_scoped (h : ScopeChain r root state.frames) :
    (startLine state).Scoped r root := ⟨h, Cover.rooted_startingAt root 0⟩

theorem holdSpans_scoped (levels : Nat) (text : Subject) {line : LineState} (h : s.Based r root)
    (hline : line.Scoped r root) :
    ((holdSpans engine (captureScanner engine levels) text line).run s).1.Scoped r root :=
  holdFrames_scoped (captureScanner_rooted levels) text h hline (by simp)

/-- The tokens of a line are below the root, and the frames it leaves open are chained. -/
theorem tokenizeLine_scoped (line : String) (h : s.Based r root)
    (hframes : ScopeChain r root state.frames) :
    ScopeChain r root ((tokenizeLine engine line state).run s).1.state.frames ∧
      ∀ t ∈ ((tokenizeLine engine line state).run s).1.tokens, root <+: t.scopes := by
  rw [run_tokenizeLine]
  split
  · refine ⟨hframes, fun t ht => ?_⟩
    rw [List.mem_singleton.1 ht, h.plain]
    exact hframes.rooted
  · have hstart := startLine_scoped hframes
    have hscan : ∀ scan ∈ captureScanner engine captureDepth, scan.Rooted engine r root :=
      captureScanner_rooted captureDepth
    have hleads : Leads engine s (startLine state).spans _ _ :=
      holdSpans_leads captureDepth (.ofLine line) (startLine state) s
    have hheld : ((holdSpans engine (captureScanner engine captureDepth) (.ofLine line)
        (startLine state)).run s).1.Scoped r root :=
      holdSpans_scoped captureDepth (.ofLine line) h hstart
    have hscanned := scanLine_scoped hscan (.ofLine line) (h.after hleads) hheld
    refine ⟨hscanned.frames, fun t ht => ?_⟩
    obtain ⟨u, hu, rfl⟩ := List.mem_map.1 ht
    exact hscanned.cover u (List.mem_filter.1 hu).1

end SessionM

/-! ## Points of a scan -/

theorem Applies.scoped {p q : ScanPoint P} (h : Applies engine p q) (hs : p.session.Based r root)
    (hp : p.line.Scoped r root) : q.line.Scoped r root := by
  cases h with
  | mk hsearch happlied =>
    have hfound := hs.after (p.search_leads engine)
    rw [hsearch] at hfound
    exact SessionM.applyCandidate_scoped (SessionM.captureScanner_rooted _) p.text hfound hp happlied

theorem Chain.scoped {p q : ScanPoint P} {k : Nat} (h : Chain engine p k q)
    (hs : p.session.Based r root) (hp : p.line.Scoped r root) : q.line.Scoped r root := by
  induction h with
  | refl => exact hp
  | step hchain happly ih => exact happly.scoped (hs.after hchain.leads) ih

section Nested

variable {levels : Nat} {s : Session P} {q : ScanPoint P}

theorem Captured.nested_scoped {c : Captured} {entries : List (Nat × CaptureId)}
    {groups : OpenGroups} {cover : Cover} (hframes : ScopeChain r root c.spans.frames)
    (hscopes : root <+: c.scopes) (hgroups : groups.Rooted root)
    (h : q ∈ c.nested engine levels entries groups cover s) : q.line.Scoped r root := by
  induction entries generalizing groups cover s with
  | nil => cases h
  | cons entry rest ih =>
    obtain ⟨i, id⟩ := entry
    rw [nested] at h
    split at h
    · exact ih hgroups h
    · next capture start stop _ =>
      have hclosed := hgroups.closeUpTo start cover
      have hinner : root <+: (groups.closeUpTo start cover).1.scopes c.scopes ++ capture.scopes :=
        (hclosed.scopes hscopes).trans (List.prefix_append ..)
      dsimp only at h
      split at h
      · cases h with
        | head => exact ⟨hframes.captureFrame hinner _ _, Cover.rooted_startingAt root start⟩
        | tail _ h => exact ih hclosed h
      · exact ih (List.forall_mem_cons.2 ⟨hinner, hclosed⟩) h

theorem groupScans_scoped {text : Subject} {spans : OpenSpans} {scopes : List Scope}
    {grammarId : GrammarId} {table : CaptureTable} {found : Match} {firstLine : Bool}
    {cover : Cover} (hframes : ScopeChain r root spans.frames) (hscopes : root <+: scopes)
    (h : q ∈ groupScans engine levels text spans scopes grammarId table found firstLine cover s) :
    q.line.Scoped r root := by
  unfold groupScans at h
  split at h
  · cases h
  · exact Captured.nested_scoped hframes hscopes (fun g hg => (List.not_mem_nil hg).elim) h

theorem ScanPoint.nested_scoped {p : ScanPoint P} (hs : p.session.Based r root)
    (hp : p.line.Scoped r root) (h : q ∈ p.nested engine) : q.line.Scoped r root := by
  unfold nested at h
  split at h
  · cases h
  · next i m s hsearch =>
    split at h
    · cases h
    · next e heffect =>
      have hfound := hs.after (p.search_leads engine)
      rw [hsearch] at hfound
      obtain ⟨c, _, hhas⟩ := Registry.hasEffect_of_effect? heffect
      have hplain : root <+: s.plain p.line.spans := by
        rw [hfound.plain]
        exact hp.frames.rooted
      obtain ⟨hframes, hscopes⟩ := SessionM.effect_rooted hhas hp.frames hplain
      exact groupScans_scoped hframes hscopes h

theorem heldScans_scoped {text : Subject} {inner outer : List Frame} {line : LineState}
    (hline : ScopeChain r root line.spans.frames)
    (hframes : line.spans.frames = inner.reverse ++ outer)
    (h : q ∈ heldScans engine levels text inner outer line s) : q.line.Scoped r root := by
  induction inner generalizing outer line s with
  | nil => cases h
  | cons frame inner ih =>
    have hbelow : line.spans.frames = inner.reverse ++ frame :: outer := by simp [hframes]
    have hchain : ScopeChain r root (frame :: outer) := hline.suffix ⟨_, hbelow.symm⟩
    rw [heldScans] at h
    split at h
    · dsimp only at h
      split at h
      · cases h
      · next m _ =>
        have hrest : ∀ cover s', q ∈ heldScans engine levels text inner (frame :: outer)
            { line with cursor := line.cursor.passWhile m.stop, cover } s' →
            q.line.Scoped r root := fun cover s' =>
          @ih s' (frame :: outer) { line with cursor := line.cursor.passWhile m.stop, cover }
            hline hbelow
        split at h
        · exact hrest _ _ h
        · rw [List.mem_append] at h
          exact h.elim (groupScans_scoped hchain hchain.rooted_content) (hrest _ _)
    · exact ih hline hbelow h

end Nested

theorem Begins.scoped {text : Subject} {line : LineState} {s : Session P} {depth : Nat}
    {p : ScanPoint P} (h : Begins engine text line s depth p) (hs : s.Based r root)
    (hline : line.Scoped r root) : p.line.Scoped r root := by
  induction h with
  | held h => exact heldScans_scoped hline.frames (by simp) h
  | line h => subst h; exact SessionM.holdSpans_scoped captureDepth text hs hline
  | nested hbegins hchain h ih =>
    have hp := hs.after hbegins.leads
    exact ScanPoint.nested_scoped (hp.after hchain.leads) (hchain.scoped hp ih) h

end ScopeGrammar
