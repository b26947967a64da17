import ScopeGrammar.Proofs.Registry.Situations
import ScopeGrammar.Proofs.Session.Agreement
import ScopeGrammar.Proofs.Session.Confinement

/-!
# ScopeGrammar.Proofs.Session.Isolation

The scan of a capture stays within its capture, whatever the frames around it are.

* `RaisedOn` : frames on top of that of a capture. Their scopes start with those of the capture, and
  no end of theirs is of a frame below (`RaisedOn.effect`, `RaisedOn.push`).
* `Session.Degrades` : in between a state was noted not to fit. Only then a token is left with the
  scopes of the grammar alone (`SessionM.captureScanner_isolates`).
* `SessionM.applyEffect_alike` : captures are without effect on the frames and the cursor of a line.
* `Captured.scanCapture_isolated` puts this together.
-/

namespace ScopeGrammar

variable {P : Type} {engine : Engine P}

/-! ## Contexts that are kept -/

/-- The contexts that a registry keeps have the candidates of their situations. -/
structure Registry.Current (r : Registry) : Prop where
  entries : ∀ {situation context}, (situation, context) ∈ r.contexts.entries →
    context.entries = r.entriesFor situation

theorem Registry.Current.resolve {r : Registry} (h : r.Current) (situation : Situation) :
    (r.resolve situation).2.Current ∧
      (r.resolve situation).1.1.entries = r.entriesFor situation := by
  obtain ⟨hkept, hr⟩ | ⟨hcontext, kept, hr, hentries⟩ := r.resolve_cases situation
  · exact ⟨hr.symm ▸ h, h.entries hkept⟩
  · have hfresh : (r.resolve situation).1.1.entries = r.entriesFor situation := by
      rw [hcontext, buildContext_entries]
    refine ⟨⟨fun {situation' context} hmem => ?_⟩, hfresh⟩
    rw [(r.resolve_sameGrammars situation).entriesFor_eq]
    rw [hr] at hmem
    obtain rfl | ⟨_, rfl⟩ := hentries
    · exact h.entries hmem
    · obtain heq | hmem := List.mem_cons.1 hmem
      · cases heq
        exact hfresh
      · exact h.entries hmem

theorem World.Moves.current {w w' : World P} (h : Moves engine w w') (hw : w.registry.Current) :
    w'.registry.Current := by
  refine Moves.preserves (fun u => u.registry.Current) h ?_ hw
  intro u v hmove hu
  cases hmove with
  | group anchors ht hspans => exact hu
  | single source ht => exact hu
  | close n hspans => exact hu
  | start hspans => exact hu
  | span atEnd ht hspans hopens => exact (hu.resolve _).1
  | capture scopes ht hspans hgrammar hcapture => exact (hu.resolve _).1

/-- So it is for every registry there can be. -/
theorem World.Reachable.current {w : World P} (h : w.Reachable engine) : w.registry.Current := by
  obtain ⟨K, hsound⟩ := h.sound
  exact ⟨hsound.registry.current⟩

/-- The registry keeps nothing wrong, and these are the scopes of the grammar. -/
structure Session.Stands (rootScopes : List Scope) (s : Session P) : Prop where
  current : s.registry.Current
  rootScopes : s.tokenizer.rootScopes = rootScopes

namespace Session.Stands

variable {rootScopes : List Scope} {s s' : Session P} {a b : OpenSpans}

theorem after (h : s.Stands rootScopes) (hleads : Leads engine s a s' b) : s'.Stands rootScopes := by
  obtain ⟨w', hmoves, hat⟩ := hleads.moves _ (Leads.alone_at s a)
  refine ⟨?_, hleads.sameStart.rootScopes.trans h.rootScopes⟩
  rw [hat.registry]
  exact World.Moves.current hmoves h.current

theorem resolved (h : s.Stands rootScopes) (situation : Situation) :
    (s.resolved situation).Stands rootScopes := ⟨(h.current.resolve situation).1, h.rootScopes⟩

/-- The closings of a context that is resolved are those of the ends of its situation. -/
theorem closing_mem (h : s.Stands rootScopes) {situation : Situation} {distance : Nat}
    {source : String}
    (hmem : (.closing distance, source) ∈ (s.contextFor situation).entries) :
    ∃ e ∈ situation.ends, e.distance = distance := by
  rw [Session.contextFor, (h.current.resolve situation).2] at hmem
  obtain ⟨e, he, heq⟩ := List.mem_map.1 (Registry.mem_ends_of_closing hmem)
  exact ⟨e, he, congrArg Prod.fst heq⟩

end Session.Stands

/-! ## Notices -/

namespace Session

/-- Notices are only added. -/
def NotesMore (s s' : Session P) : Prop := s.notices <+: s'.notices

/-- In between a state was noted not to fit. -/
def Degrades (s s' : Session P) : Prop :=
  ∃ pos, .inconsistentState pos ∈ s'.notices.drop s.notices.length

variable {s s' s'' : Session P}

namespace NotesMore

theorem refl (s : Session P) : s.NotesMore s := List.prefix_rfl

theorem trans (h : s.NotesMore s') (h' : s'.NotesMore s'') : s.NotesMore s'' :=
  List.IsPrefix.trans h h'

theorem resolved (s : Session P) (situation : Situation) : s.NotesMore (s.resolved situation) :=
  List.prefix_append ..

theorem searchContext (engine : Engine P) (s : Session P) (context : Context)
    (anchors : Anchoring) (text : Subject) (pos : Nat) :
    s.NotesMore ((SessionM.searchContext engine context anchors text pos).run s).2 := by
  rw [SessionM.run_searchContext, SessionM.run_groupOf]
  dsimp only
  split
  · exact refl s
  · exact List.prefix_append ..

end NotesMore

theorem Degrades.before (h : s.Degrades s') (hmore : s'.NotesMore s'') : s.Degrades s'' := by
  obtain ⟨pos, hmem⟩ := h
  obtain ⟨more, hnotices⟩ := hmore
  refine ⟨pos, ?_⟩
  rw [← hnotices, List.drop_append]
  exact List.mem_append_left _ hmem

theorem Degrades.behind (h : s'.Degrades s'') (hmore : s.NotesMore s') : s.Degrades s'' := by
  obtain ⟨pos, hmem⟩ := h
  exact ⟨pos, (List.drop_subset_drop_left _ hmore.length_le) hmem⟩

theorem Degrades.note (hmore : s.NotesMore s') (pos : Nat) :
    s.Degrades { s' with notices := s'.notices ++ [.inconsistentState pos] } := by
  refine ⟨pos, ?_⟩
  show _ ∈ (s'.notices ++ [Notice.inconsistentState pos]).drop s.notices.length
  rw [List.drop_append_of_le_length hmore.length_le]
  exact List.mem_append_right _ (List.mem_singleton.2 rfl)

end Session

/-! ## Frames on top of that of a capture -/

/-- The scopes of the frame start with those of the root, and the frames that its ends are of are
among so many, with itself. -/
structure Frame.Above (root : List Scope) (height : Nat) (f : Frame) : Prop where
  name : root <+: f.nameScopes
  content : root <+: f.contentScopes
  ends : ∀ e ∈ f.ends, e.distance < height
  closings : ∀ distance source, (.closing distance, source) ∈ f.context.entries → distance < height

namespace Frame.Above

variable {root rootScopes : List Scope} {s : Session P}

theorem captureFrame (hs : s.Stands rootScopes) {scopes : List Scope} (hscopes : root <+: scopes)
    (depth : Nat) (base grammar : GrammarId) (id : CaptureId) (height : Nat) :
    (captureFrame depth scopes (s.contextFor (.capture base grammar id))).Above root height := by
  refine ⟨hscopes, hscopes, fun e he => (List.not_mem_nil he).elim, ?_⟩
  intro distance source hmem
  obtain ⟨e, he, _⟩ := hs.closing_mem hmem
  cases he

theorem spanFrame (hs : s.Stands rootScopes) {f : Frame} {height : Nat} (hf : f.Above root height)
    {outer : List Scope} (houter : root <+: outer) {spans : OpenSpans} (htop : spans.top? = some f)
    (options : SessionOptions) (base : GrammarId) (depth : Nat) (rule : RuleRef) (span : SpanRule)
    (source : String) (atEnd : Bool) :
    let situation := spanSituation options base rule span source spans
    (spanFrame depth rule span source outer atEnd (s.contextFor situation) situation.ends).Above
      root (height + 1) := by
  intro situation
  have hends : ∀ e ∈ situation.ends, e.distance < height + 1 := by
    intro e he
    obtain hown | houter := List.mem_append.1 he
    · have hzero : e.distance = 0 := by
        have hown' : e ∈ (if span.isWhile then none
          else some ({ distance := 0, source, filled := span.fillsEnding } : EndMark)).toList := hown
        split at hown'
        · cases hown'
        · rw [Option.toList_some, List.mem_singleton] at hown'
          rw [hown']
      omega
    · obtain ⟨e', he', rfl⟩ := mem_of_mem_outerEnds houter
      split at he'
      · rw [htop] at he'
        exact Nat.succ_lt_succ (hf.ends e' he')
      · cases he'
  have hname : root <+: outer ++ span.scopes := houter.trans (List.prefix_append ..)
  refine ⟨hname, hname.trans (List.prefix_append ..), hends, ?_⟩
  intro distance source' hmem
  obtain ⟨e, he, rfl⟩ := hs.closing_mem hmem
  exact hends e he

end Frame.Above

/-- So many frames on top of the base, the lowest of them that of a capture. -/
inductive RaisedOn (root : List Scope) (bottom : Frame) (base : List Frame) :
    Nat → List Frame → Prop
  | bottom : bottom.hold = .capture → bottom.Above root 1 →
      RaisedOn root bottom base 1 (bottom :: base)
  | push {f : Frame} {height : Nat} {frames : List Frame} : f.Above root (height + 1) →
      RaisedOn root bottom base height frames →
      RaisedOn root bottom base (height + 1) (f :: frames)

namespace RaisedOn

variable {root rootScopes : List Scope} {bottom target : Frame} {base frames outer : List Frame}
  {height distance : Nat}

theorem suffix (h : RaisedOn root bottom base height frames) : bottom :: base <:+ frames := by
  induction h with
  | bottom => exact List.suffix_rfl
  | push _ _ ih => exact ih.trans (List.suffix_cons ..)

theorem head (h : RaisedOn root bottom base height (target :: outer)) :
    target.Above root height := by
  cases h with
  | bottom _ hbottom => exact hbottom
  | push htarget _ => exact htarget

theorem exists_top (h : RaisedOn root bottom base height frames) :
    ∃ f rest, frames = f :: rest ∧ f.Above root height := by
  cases h with
  | bottom _ hbottom => exact ⟨_, _, rfl, hbottom⟩
  | push hf _ => exact ⟨_, _, rfl, hf⟩

theorem drop (h : RaisedOn root bottom base height frames) (hlt : distance < height)
    (hdrop : frames.drop distance = target :: outer) :
    ∃ height', RaisedOn root bottom base height' (target :: outer) := by
  induction h generalizing distance with
  | bottom hhold hbottom =>
    obtain rfl : distance = 0 := by omega
    rw [List.drop_zero] at hdrop
    exact ⟨1, hdrop ▸ .bottom hhold hbottom⟩
  | @push f height frames hf hframes ih =>
    cases distance with
    | zero =>
      rw [List.drop_zero] at hdrop
      exact ⟨height + 1, hdrop ▸ .push hf hframes⟩
    | succ distance => exact ih (by omega) hdrop

/-- The frame of the capture is closed by no end. -/
theorem tail (h : RaisedOn root bottom base height (target :: outer))
    (htarget : target.hold ≠ .capture) : ∃ height', RaisedOn root bottom base height' outer := by
  cases h with
  | bottom hhold _ => exact absurd hhold htarget
  | push _ houter => exact ⟨_, houter⟩

end RaisedOn

/-- The open frames are on top of the base, the lowest of them that of a capture. -/
def OpenSpans.RaisedOn (root : List Scope) (bottom : Frame) (base : List Frame)
    (spans : OpenSpans) : Prop := ∃ height, ScopeGrammar.RaisedOn root bottom base height spans.frames

namespace OpenSpans.RaisedOn

variable {root rootScopes : List Scope} {bottom : Frame} {base : List Frame} {spans : OpenSpans}
  {s : Session P}

theorem push (h : spans.RaisedOn root bottom base) {f : Frame}
    (hf : ∀ height g, spans.top? = some g → g.Above root height → f.Above root (height + 1)) :
    (spans.push f).RaisedOn root bottom base := by
  obtain ⟨height, hframes⟩ := h
  obtain ⟨g, rest, hcons, hg⟩ := hframes.exists_top
  exact ⟨height + 1, .push (hf height g (by rw [top?, hcons]; rfl) hg) hframes⟩

theorem plain (h : spans.RaisedOn root bottom base) (s : Session P) : root <+: s.plain spans := by
  obtain ⟨_, hframes⟩ := h
  obtain ⟨f, rest, hcons, hf⟩ := hframes.exists_top
  rw [Session.plain, Tokenizer.scopesOf, scopesOver, top?, hcons]
  exact hf.content

/-- What is found closes nothing but frames on top of the base, and stays on top of it. -/
theorem effect (h : spans.RaisedOn root bottom base) {r : Registry} {t : Tokenizer P} {i : Nat}
    {e : Effect} (heffect : r.effect? spans.frames ((t.contextOf spans).candidate? i) = some e)
    {plain : List Scope} (hplain : root <+: plain) :
    (e.spans spans).RaisedOn root bottom base ∧ root <+: e.scopes plain ∧
      ∀ target outer rule span, e = .closing target outer rule span →
        (spans.withFrames outer).RaisedOn root bottom base := by
  obtain ⟨c, hcandidate, hhas⟩ := Registry.hasEffect_of_effect? heffect
  cases hhas with
  | @closing distance target outer rule source span hdrop hhold hspan =>
    obtain ⟨height, hframes⟩ := h
    obtain ⟨f, rest, hcons, hf⟩ := hframes.exists_top
    have hcontext : t.contextOf spans = f.context := by
      rw [Tokenizer.contextOf, top?, hcons]
      rfl
    obtain ⟨⟨_, source'⟩, hentry, rfl⟩ := Option.map_eq_some_iff.1 hcandidate
    rw [hcontext] at hentry
    have hlt : distance < height := hf.closings distance source' (List.mem_of_getElem? hentry)
    obtain ⟨height', htarget⟩ := hframes.drop hlt hdrop
    refine ⟨⟨height', htarget⟩, htarget.head.name, ?_⟩
    rintro _ _ _ _ ⟨⟩
    exact htarget.tail fun hcapture => by cases hhold.symm.trans hcapture
  | single _ _ =>
    refine ⟨h, hplain.trans (List.prefix_append ..), ?_⟩
    rintro _ _ _ _ ⟨⟩
  | opening _ _ =>
    refine ⟨h, hplain.trans (List.prefix_append ..), ?_⟩
    rintro _ _ _ _ ⟨⟩

end OpenSpans.RaisedOn

/-! ## Steps of a session -/

/-- The scopes start with those of the root, unless a state did not fit and they are those of the
grammar. -/
def Kept (root rootScopes : List Scope) (degraded : Prop) (scopes : List Scope) : Prop :=
  root <+: scopes ∨ (scopes = rootScopes ∧ degraded)

/-- Whatever the frames below that of a capture are, the tokens are below the capture. -/
structure Scanner.Isolates (engine : Engine P) (scan : Scanner P) : Prop where
  returns : scan.Returns engine
  notes : ∀ (text : Subject) (spans : OpenSpans) (start : Nat) (firstLine : Bool) (s : Session P),
    s.NotesMore ((scan text spans start firstLine).run s).2
  tokens : ∀ {root rootScopes : List Scope} {bottom : Frame} {base : List Frame} {degraded : Prop}
    {text : Subject} {spans : OpenSpans} {start : Nat} {firstLine : Bool} {s : Session P},
    s.Stands rootScopes → spans.RaisedOn root bottom base →
    (s.Degrades ((scan text spans start firstLine).run s).2 → degraded) →
    ∀ t ∈ ((scan text spans start firstLine).run s).1, Kept root rootScopes degraded t.scopes

section Capture

variable {scan : Scanner P} (hscan : scan.Isolates engine) (c : Captured) (id : CaptureId)
  (start stop : Nat) {s : Session P}
include hscan

theorem Scanner.Isolates.scanCapture_notes (scopes : List Scope) (s : Session P) :
    s.NotesMore ((c.scanCapture scan id scopes start stop).run s).2 := by
  rw [Captured.run_scanCapture]
  exact (Session.NotesMore.resolved s _).trans (hscan.notes ..)

/-- The frame of the capture is on top of those that the capture is inside of. -/
theorem Scanner.Isolates.scanCapture_kept {root rootScopes scopes : List Scope} {bottom : Frame}
    {base : List Frame} {degraded : Prop} (hs : s.Stands rootScopes)
    (hframes : (c.spans.push (captureFrame (c.spans.depth + 1) scopes
      (s.contextFor (.capture s.tokenizer.base c.grammarId id)))).RaisedOn root bottom base)
    (hdegraded : s.Degrades ((c.scanCapture scan id scopes start stop).run s).2 → degraded) :
    ∀ t ∈ ((c.scanCapture scan id scopes start stop).run s).1,
      Kept root rootScopes degraded t.scopes := by
  rw [Captured.run_scanCapture] at hdegraded ⊢
  refine hscan.tokens (hs.resolved _) hframes fun hnoted => ?_
  exact hdegraded (hnoted.behind (Session.NotesMore.resolved s _))

end Capture

section Steps

variable {scan : Option (Scanner P)} (hscan : ∀ scan' ∈ scan, scan'.Isolates engine)
include hscan

theorem Scanner.returns_of_isolates : ∀ scan' ∈ scan, scan'.Returns engine :=
  fun scan' hs => (hscan scan' hs).returns

theorem Captured.scopeEntries_notes (c : Captured) (entries : List (Nat × CaptureId))
    (groups : OpenGroups) (cover : Cover) (s : Session P) :
    s.NotesMore ((c.scopeEntries scan entries groups cover).run s).2 := by
  induction entries generalizing groups cover s with
  | nil => exact .refl s
  | cons entry rest ih =>
    obtain ⟨i, id⟩ := entry
    rw [run_scopeEntries_cons]
    cases c.place? i id with
    | none => exact ih ..
    | some place =>
      obtain ⟨capture, start, stop⟩ := place
      dsimp only
      split
      · exact ((hscan _ rfl).scanCapture_notes ..).trans (ih ..)
      · exact ih ..

variable {root rootScopes : List Scope} {bottom : Frame} {base : List Frame} {degraded : Prop}
  {s : Session P}

theorem Captured.scopeEntries_kept {c : Captured} {entries : List (Nat × CaptureId)}
    {groups : OpenGroups} {cover : Cover} (h : s.Stands rootScopes)
    (hgrammar : s.registry.grammar? c.grammarId = some c.grammar)
    (hframes : c.spans.RaisedOn root bottom base) (hscopes : root <+: c.scopes)
    (hgroups : groups.Rooted root) (hcover : cover.All (Kept root rootScopes degraded))
    (hdegraded : s.Degrades ((c.scopeEntries scan entries groups cover).run s).2 → degraded) :
    ((c.scopeEntries scan entries groups cover).run s).1.All (Kept root rootScopes degraded) := by
  induction entries generalizing groups cover s with
  | nil => exact hcover.closeAll fun g hg => .inl (hgroups g hg)
  | cons entry rest ih =>
    obtain ⟨i, id⟩ := entry
    rw [run_scopeEntries_cons] at hdegraded ⊢
    cases hplace : c.place? i id with
    | none =>
      rw [hplace] at hdegraded
      exact ih h hgrammar hgroups hcover hdegraded
    | some place =>
      obtain ⟨capture, start, stop⟩ := place
      rw [hplace] at hdegraded
      have hclosed := hgroups.closeUpTo start cover
      have houter := hclosed.scopes hscopes
      have hinner : root <+: (groups.closeUpTo start cover).1.scopes c.scopes ++ capture.scopes :=
        houter.trans (List.prefix_append ..)
      have hstart := (hcover.closeUpTo (fun g hg => .inl (hgroups g hg)) start).extend
        (.inl houter) start
      dsimp only at hdegraded ⊢
      split at hdegraded
      · next scan' hpatterns =>
        have hcapture := c.scanCapture_leads (hscan _ rfl).returns (place?_capture hplace)
          ((groups.closeUpTo start cover).1.scopes c.scopes ++ capture.scopes) start stop s hgrammar
        have hafter := (hscan _ rfl).scanCapture_notes c id start stop
          ((groups.closeUpTo start cover).1.scopes c.scopes ++ capture.scopes) s
        have htokens := (hscan _ rfl).scanCapture_kept c id start stop h
          (hframes.push fun height _ _ _ => .captureFrame h hinner _ _ _ _ (height + 1)) fun hnoted =>
            hdegraded (hnoted.before (scopeEntries_notes hscan c rest ..))
        refine ih (h.after hcapture) ?_ hclosed (hstart.extendAll htokens) fun hnoted => ?_
        · rw [hcapture.sameGrammars.grammar?_eq, hgrammar]
        · exact hdegraded (hnoted.behind hafter)
      · exact ih h hgrammar (List.forall_mem_cons.2 ⟨hinner, hclosed⟩) hstart hdegraded

namespace SessionM

variable (text : Subject)

theorem scopeGroups_notes (spans : OpenSpans) (scopes : List Scope) (grammarId : GrammarId)
    (table : CaptureTable) (found : Match) (firstLine : Bool) (cover : Cover) (s : Session P) :
    s.NotesMore
      ((scopeGroups scan text spans scopes grammarId table found firstLine cover).run s).2 := by
  rw [run_scopeGroups]
  split
  · exact .refl s
  · exact Captured.scopeEntries_notes hscan ..

theorem scopeMatch_notes (m : Match) (line : LineState) (e : Effect) (s : Session P) :
    s.NotesMore ((scopeMatch scan text m line e).run s).2 := by
  rw [run_scopeMatch]
  exact scopeGroups_notes hscan ..

theorem applyEffect_notes (m : Match) (line : LineState) (e : Effect) (s : Session P) :
    s.NotesMore ((applyEffect scan text m line e).run s).2 := by
  have hscopes := scopeMatch_notes hscan text m line e s
  rw [run_applyEffect]
  cases e with
  | closing target outer rule span => exact hscopes
  | single rule single => exact hscopes
  | opening rule grammar span => exact hscopes.trans (.resolved _ _)

theorem applyAll_notes (steps : Nat) (line : LineState) (s : Session P) :
    s.NotesMore ((applyAll engine scan text steps line).run s).2 := by
  induction steps generalizing line s with
  | zero => exact .refl s
  | succ steps ih =>
    have hsearch := Session.NotesMore.searchContext engine s (s.tokenizer.contextOf line.spans)
      line.cursor.anchors text line.cursor.pos
    rw [run_applyAll_succ]
    dsimp only
    split
    · exact hsearch
    · next i m hfound =>
      rw [run_applyCandidate]
      split
      · next line' happlied =>
        split at happlied
        · cases happlied
        · exact (hsearch.trans (applyEffect_notes hscan ..)).trans (ih ..)
      · next happlied =>
        split at happlied
        · exact hsearch.trans (List.prefix_append ..)
        · cases happlied

theorem scopeMatch_kept {line : LineState} {e : Effect} (h : s.Stands rootScopes)
    (hframes : (e.spans line.spans).RaisedOn root bottom base)
    (hplain : root <+: s.plain line.spans) (hscopes : root <+: e.scopes (s.plain line.spans))
    (hcover : line.cover.All (Kept root rootScopes degraded)) (m : Match)
    (hdegraded : s.Degrades ((scopeMatch scan text m line e).run s).2 → degraded) :
    ((scopeMatch scan text m line e).run s).1.All (Kept root rootScopes degraded) := by
  have hstart := hcover.extend (.inl hplain) m.start
  rw [run_scopeMatch] at hdegraded ⊢
  refine Cover.All.extend ?_ (.inl hscopes) m.stop
  rw [run_scopeGroups] at hdegraded ⊢
  split
  · exact hstart
  · next grammar hgrammar =>
    rw [hgrammar] at hdegraded
    exact Captured.scopeEntries_kept hscan h hgrammar hframes hscopes
      (fun g hg => (List.not_mem_nil hg).elim) hstart hdegraded

/-- The frames stay on top of that of the capture. -/
theorem applyEffect_raised {line : LineState} {e : Effect} {t : Tokenizer P} {i : Nat}
    (h : s.Stands rootScopes) (hframes : line.spans.RaisedOn root bottom base)
    (heffect : s.registry.effect? line.spans.frames ((t.contextOf line.spans).candidate? i) = some e)
    (m : Match) :
    ((applyEffect scan text m line e).run s).1.spans.RaisedOn root bottom base := by
  obtain ⟨_, _, hclosing⟩ := hframes.effect heffect List.prefix_rfl
  obtain ⟨c, _, hhas⟩ := Registry.hasEffect_of_effect? heffect
  have hafter := h.after (scopeMatch_leads (Scanner.returns_of_isolates hscan) text hhas m s)
  rw [run_applyEffect]
  cases e with
  | closing target outer rule span => exact hclosing target outer rule span rfl
  | single rule single => exact hframes
  | opening rule grammar span =>
    dsimp only
    rw [run_openSpan]
    exact hframes.push fun height f htop hf =>
      .spanFrame hafter hf (hframes.plain _) htop _ _ _ rule span _ _

theorem applyEffect_kept {line : LineState} {e : Effect} {t : Tokenizer P} {i : Nat}
    (h : s.Stands rootScopes) (hframes : line.spans.RaisedOn root bottom base)
    (heffect : s.registry.effect? line.spans.frames ((t.contextOf line.spans).candidate? i) = some e)
    (hcover : line.cover.All (Kept root rootScopes degraded)) (m : Match)
    (hdegraded : s.Degrades ((applyEffect scan text m line e).run s).2 → degraded) :
    ((applyEffect scan text m line e).run s).1.cover.All (Kept root rootScopes degraded) := by
  have hplain := hframes.plain s
  obtain ⟨hspans, hscopes, _⟩ := hframes.effect heffect hplain
  have hmatch := scopeMatch_kept hscan text h hspans hplain hscopes hcover m
  rw [run_applyEffect] at hdegraded ⊢
  cases e with
  | closing target outer rule span => exact hmatch hdegraded
  | single rule single => exact hmatch hdegraded
  | opening rule grammar span =>
    exact hmatch fun hnoted => hdegraded (hnoted.before (.resolved _ _))

/-- By induction on the steps. What does not fit a state is left with the scopes of the grammar, and
that is noted. -/
theorem applyAll_kept (steps : Nat) {line : LineState} (h : s.Stands rootScopes)
    (hframes : line.spans.RaisedOn root bottom base)
    (hcover : line.cover.All (Kept root rootScopes degraded))
    (hdegraded : s.Degrades ((applyAll engine scan text steps line).run s).2 → degraded) :
    ((applyAll engine scan text steps line).run s).1.cover.All
      (Kept root rootScopes degraded) := by
  induction steps generalizing line s with
  | zero => exact hcover.extend (.inl (hframes.plain s)) _
  | succ steps ih =>
    have hsearch := Session.NotesMore.searchContext engine s (s.tokenizer.contextOf line.spans)
      line.cursor.anchors text line.cursor.pos
    have hfound := h.after (.searchContext engine s line.spans line.cursor.anchors text
      line.cursor.pos)
    rw [run_applyAll_succ] at hdegraded ⊢
    dsimp only at hdegraded ⊢
    generalize (searchContext engine (s.tokenizer.contextOf line.spans) line.cursor.anchors text
      line.cursor.pos).run s = found at hsearch hfound hdegraded ⊢
    obtain ⟨_ | ⟨i, m⟩, s₁⟩ := found
    · exact hcover.extend (.inl (hframes.plain s)) _
    · dsimp only at hsearch hfound hdegraded ⊢
      rw [run_applyCandidate] at hdegraded ⊢
      cases heffect : s₁.registry.effect? line.spans.frames
          ((s.tokenizer.contextOf line.spans).candidate? i) with
      | none =>
        rw [heffect] at hdegraded
        refine hcover.extend (.inr ⟨h.rootScopes, hdegraded ?_⟩) _
        exact .note hsearch line.cursor.pos
      | some e =>
        rw [heffect] at hdegraded
        dsimp only at hdegraded ⊢
        obtain ⟨c, _, hhas⟩ := Registry.hasEffect_of_effect? heffect
        have hafter := hfound.after
          (applyEffect_leads (Scanner.returns_of_isolates hscan) text hhas m)
        refine ih hafter (applyEffect_raised hscan text hfound hframes heffect m) ?_ fun hnoted => ?_
        · refine applyEffect_kept hscan text hfound hframes heffect hcover m fun hnoted => ?_
          exact hdegraded ((hnoted.behind hsearch).before (applyAll_notes hscan text ..))
        · exact hdegraded (hnoted.behind (hsearch.trans (applyEffect_notes hscan ..)))

end SessionM

end Steps

theorem SessionM.captureScanner_isolates (levels : Nat) :
    ∀ scan ∈ captureScanner engine levels, scan.Isolates engine := by
  induction levels with
  | zero => nofun
  | succ levels ih =>
    intro scan hscan
    refine ⟨captureScanner_returns (levels + 1) scan hscan, ?_, ?_⟩
    · intro text spans start firstLine s
      rw [run_captureScanner engine text levels hscan]
      exact applyAll_notes ih text ..
    · intro root rootScopes bottom base degraded text spans start firstLine s hs hframes hdegraded
      rw [run_captureScanner engine text levels hscan] at hdegraded ⊢
      let line : LineState := .startingAt spans start none firstLine
      have hspans : line.spans.RaisedOn root bottom base := hframes
      have hcover : line.cover.All (Kept root rootScopes degraded) := .startingAt _ start
      exact applyAll_kept ih text _ hs hspans hcover hdegraded

/-! ## Points of a scan -/

section Points

variable {root rootScopes : List Scope} {bottom : Frame} {base : List Frame} {p q : ScanPoint P}
  {k : Nat}

theorem Applies.raised (h : Applies engine p q) (hs : p.session.Stands rootScopes)
    (hp : p.line.spans.RaisedOn root bottom base) : q.line.spans.RaisedOn root bottom base := by
  cases h with
  | @mk i m line s₁ s₂ hsearch happlied =>
    have hfound := hs.after (p.search_leads engine)
    rw [hsearch] at hfound
    rw [ScanPoint.applied, SessionM.run_applyCandidate] at happlied
    cases heffect : s₁.registry.effect? p.line.spans.frames (p.context.candidate? i) with
    | none =>
      rw [heffect] at happlied
      cases happlied
    | some e =>
      rw [heffect] at happlied
      cases happlied
      exact SessionM.applyEffect_raised (SessionM.captureScanner_isolates p.levels) p.text hfound hp
        heffect m

/-- The frame of the capture stays where it is, and captures in it may be nested as deep as at the
start. -/
theorem Chain.raised (h : Chain engine p k q) (hs : p.session.Stands rootScopes)
    (hp : p.line.spans.RaisedOn root bottom base) :
    q.levels = p.levels ∧ q.line.spans.RaisedOn root bottom base := by
  induction h with
  | refl => exact ⟨rfl, hp⟩
  | step hchain happly ih =>
    obtain ⟨hlevels, hq⟩ := ih
    refine ⟨?_, happly.raised (hs.after hchain.leads) hq⟩
    cases happly
    exact hlevels

end Points

/-! ## What is left alone -/

/-- The tokens that are added to a cover have the scopes they were made with. -/
theorem Cover.extendAll_made (c : Cover) (tokens : List Token) :
    ∃ made, (c.extendAll tokens).tokens.toList = c.tokens.toList ++ made ∧
      Tiles c.reached (c.extendAll tokens).reached made ∧
      ∀ t ∈ made, ∃ u ∈ tokens, t.scopes = u.scopes := by
  induction tokens generalizing c with
  | nil => exact ⟨[], (List.append_nil _).symm, rfl, nofun⟩
  | cons u rest ih =>
    obtain ⟨made, htokens, htiles, hscopes⟩ := ih (c.extend u.stop u.scopes)
    have hrest : ∀ t ∈ made, ∃ v ∈ u :: rest, t.scopes = v.scopes := fun t ht =>
      (hscopes t ht).imp fun _ hv => ⟨.tail _ hv.1, hv.2⟩
    have hcons : c.extendAll (u :: rest) = (c.extend u.stop u.scopes).extendAll rest := rfl
    rw [hcons]
    by_cases hle : u.stop ≤ c.reached
    · have hskip : c.extend u.stop u.scopes = c := if_pos hle
      rw [hskip] at htokens htiles ⊢
      exact ⟨made, htokens, htiles, hrest⟩
    · have hpush : c.extend u.stop u.scopes =
          ⟨c.tokens.push ⟨c.reached, u.stop, u.scopes⟩, u.stop⟩ := if_neg hle
      rw [hpush] at htokens htiles ⊢
      refine ⟨⟨c.reached, u.stop, u.scopes⟩ :: made, ?_, ⟨rfl, Nat.not_le.1 hle, htiles⟩, ?_⟩
      · rw [htokens, Array.toList_push, List.append_assoc]
        rfl
      · rw [List.forall_mem_cons]
        exact ⟨⟨u, .head _, rfl⟩, hrest⟩

/-- What is behind a position does not count for the text up to there. -/
theorem Subject.take_eq {t t' : Subject} {stop : Nat} (hstop : stop ≤ t.length)
    (h : ∀ i < stop, t'.get? i = t.get? i) : t'.take stop = t.take stop := by
  have hstop' : stop ≤ t'.length := by
    by_contra hshort
    have hnone : t'.get? t'.length = none :=
      Array.getElem?_eq_none (Nat.le_of_eq t'.length_eq.symm)
    rw [h t'.length (Nat.not_le.1 hshort), get?, Array.getElem?_eq_none_iff, ← length_eq] at hnone
    exact hshort (Nat.le_trans hstop hnone)
  have hchars : t'.chars.toList.take stop = t.chars.toList.take stop := by
    apply List.ext_getElem?
    intro i
    rw [List.getElem?_take, List.getElem?_take]
    split
    · next hi => simpa [get?] using h i hi
    · rfl
  rw [take_eq_ofChars, take_eq_ofChars, Nat.min_eq_left hstop, Nat.min_eq_left hstop', hchars]

/-- Scanning the captures of a match leaves the frames and the cursor of the line as they are without
that, up to the numbers of contexts. -/
theorem SessionM.applyEffect_alike {scan scan' : Option (Scanner P)}
    (hscan : ∀ x ∈ scan, x.Returns engine) (hscan' : ∀ x ∈ scan', x.Returns engine)
    (text : Subject) (m : Match) (line : LineState) (e : Effect) {s : Session P}
    (h : s.registry.Current) :
    let r := (applyEffect scan text m line e).run s
    let r' := (applyEffect scan' text m line e).run s
    r.1.cursor = r'.1.cursor ∧ r.1.spans.Alike r'.1.spans := by
  have hs : s.Stands s.tokenizer.rootScopes := ⟨h, rfl⟩
  have hleads : Leads engine s (e.spans line.spans) ((scopeMatch scan text m line e).run s).2
      (e.spans line.spans) := by
    rw [run_scopeMatch]
    exact scopeGroups_leads hscan ..
  have hleads' : Leads engine s (e.spans line.spans) ((scopeMatch scan' text m line e).run s).2
      (e.spans line.spans) := by
    rw [run_scopeMatch]
    exact scopeGroups_leads hscan' ..
  rw [run_applyEffect, run_applyEffect]
  generalize (scopeMatch scan text m line e).run s = r at hleads ⊢
  generalize (scopeMatch scan' text m line e).run s = r' at hleads' ⊢
  cases e with
  | closing target outer rule span => exact ⟨rfl, .refl _⟩
  | single rule single => exact ⟨rfl, .refl _⟩
  | opening rule grammar span =>
    dsimp only
    rw [run_openSpan, run_openSpan]
    refine ⟨rfl, OpenSpans.Alike.push (.refl _) ?_⟩
    have hsame := hleads.sameStart
    have hsame' := hleads'.sameStart
    have hplain : r.2.plain line.spans = r'.2.plain line.spans := by
      simp only [Session.plain, Tokenizer.scopesOf, hsame.rootScopes, hsame'.rootScopes]
    have hentries : ∀ situation, (r.2.contextFor situation).entries =
        (r'.2.contextFor situation).entries := by
      intro situation
      rw [Session.contextFor, Session.contextFor, ((hs.after hleads).current.resolve situation).2,
        ((hs.after hleads').current.resolve situation).2, hleads.sameGrammars.entriesFor_eq,
        hleads'.sameGrammars.entriesFor_eq]
    dsimp only
    rw [hsame.options, hsame'.options, hsame.base, hsame'.base, hplain]
    exact spanFrame_alike (.refl _) (hentries _) ..

/-- Whatever the frames and the grammar are, the scan of a capture makes tokens for the part of the
capture that has none yet, and only for that part. They have the scopes of the capture first, as
long as no state is noted not to fit. All that is opened and closed in it is above the frame of the
capture, and captures may be nested as deep as before. The frames and the cursor of the line are
as if no capture had been scanned, and what is behind the capture does not count. -/
theorem Captured.scanCapture_isolated (hengine : engine.Inside) {levels : Nat} {scan : Scanner P}
    (hscan : SessionM.captureScanner engine (levels + 1) = some scan) (c : Captured)
    (id : CaptureId) (scopes : List Scope) {start stop : Nat} (hlt : start < stop)
    (hstop : stop ≤ c.text.length) (s : Session P) (hcurrent : s.registry.Current) :
    let r := (c.scanCapture scan id scopes start stop).run s
    let first := c.scanPoint levels id scopes start stop s
    (∀ (cover : Cover) (outer : List Scope),
      let before := cover.extend start outer
      ∃ made, (before.extendAll r.1).tokens.toList = before.tokens.toList ++ made ∧
        Tiles before.reached (max before.reached stop) made ∧
        ∀ t ∈ made, scopes <+: t.scopes ∨
          (t.scopes = s.tokenizer.rootScopes ∧ s.Degrades r.2)) ∧
    (∃ context,
      first.line.spans.frames =
        captureFrame (c.spans.depth + 1) scopes context :: c.spans.frames ∧
      ∀ k q, Chain engine first k q →
        q.levels = levels ∧ first.line.spans.frames <:+ q.line.spans.frames) ∧
    (∀ (text : Subject) (m : Match) (line : LineState) (e : Effect),
      let after := ((SessionM.applyEffect (some scan) text m line e).run s).1
      let unscanned := ((SessionM.applyEffect none text m line e).run s).1
      after.cursor = unscanned.cursor ∧ after.spans.Alike unscanned.spans) ∧
    ∀ text : Subject, (∀ i < stop, text.get? i = c.text.get? i) →
      ({ c with text } : Captured).scanCapture scan id scopes start stop =
        c.scanCapture scan id scopes start stop := by
  intro r first
  have hs : s.Stands s.tokenizer.rootScopes := ⟨hcurrent, rfl⟩
  have hisolates := SessionM.captureScanner_isolates (levels + 1) scan hscan
  let situation : Situation := .capture s.tokenizer.base c.grammarId id
  let bottom := captureFrame (c.spans.depth + 1) scopes (s.contextFor situation)
  have hbottom : (c.spans.push bottom).RaisedOn scopes bottom c.spans.frames :=
    ⟨1, .bottom rfl (.captureFrame hs List.prefix_rfl _ _ _ _ 1)⟩
  refine ⟨fun cover outer => ?_, ⟨s.contextFor situation, rfl, fun k q hchain => ?_⟩, ?_, ?_⟩
  · have hcovers := (SessionM.captureScanner_covers hengine (levels + 1) scan hscan).scanCapture c
      id scopes (Nat.le_of_lt hlt) hstop s
    have hkept := hisolates.scanCapture_kept c id start stop hs hbottom fun hnoted => hnoted
    obtain ⟨made, htokens, htiles, hscopes⟩ := (cover.extend start outer).extendAll_made r.1
    rw [Cover.reached_extendAll hcovers hlt] at htiles
    refine ⟨made, htokens, htiles, fun t ht => ?_⟩
    obtain ⟨u, hu, heq⟩ := hscopes t ht
    rw [heq]
    exact hkept u hu
  · obtain ⟨hlevels, _, hraised⟩ := hchain.raised (hs.resolved situation) hbottom
    exact ⟨hlevels, hraised.suffix⟩
  · intro text m line e
    have hreturns : ∀ x ∈ some scan, x.Returns engine := by
      rintro _ ⟨⟩
      exact hisolates.returns
    have hnone : ∀ x ∈ (none : Option (Scanner P)), x.Returns engine := by
      rintro _ ⟨⟩
    exact SessionM.applyEffect_alike hreturns hnone text m line e hcurrent
  · intro text htext
    rw [scanCapture, scanCapture, Subject.take_eq hstop htext]

/-! ### Text in parentheses -/

/-- A grammar of one rule, for any number of `x` in parentheses. Each `x` is for a rule of the
capture between them. -/
def parenthesized : Grammar :=
  { name := "", scopeName := "s", scope := ⟨"s"⟩, fileTypes := [], patterns := #["\\((x*)\\)", "x"]
    rules := #[.single ⟨[], ⟨0⟩, ⟨2, [(1, ⟨0⟩)]⟩⟩, .single ⟨[⟨"d"⟩], ⟨1⟩, .empty⟩]
    lists := #[[.rule ⟨0⟩], [.rule ⟨1⟩]], captures := #[⟨[⟨"c"⟩], some ⟨1⟩⟩], repositories := #[]
    root := ⟨0⟩, skipped := [] }

def parenthesizedTokenizer : Tokenizer Regex :=
  (Tokenizer.start (Registry.empty.add parenthesized).2 ⟨0⟩ {}).1.1

def parenthesizedWorld : World Regex := (World.initial.add parenthesized).started ⟨0⟩ {}

theorem parenthesizedWorld_reachable : parenthesizedWorld.Reachable Regex.engine := by
  have hid : (World.initial.add parenthesized : World Regex).registry.id? "s" = some ⟨0⟩ := by
    decide +kernel
  have hstarted : ((World.initial.add parenthesized).started ⟨0⟩ {}).Reachable Regex.engine :=
    .use (.add parenthesized .initial) (.start {} hid)
  exact hstarted

/-- The rule in the line `(xx)`. -/
def parenthesizedMatch : Captured :=
  { grammarId := ⟨0⟩, grammar := parenthesized, found := ⟨0, 4, [some (0, 4), some (1, 3)]⟩
    text := .ofLine "(xx)", spans := .fresh, scopes := [⟨"s"⟩], firstLine := true }

/-- Nothing is noted, and the tokens for `xx` have the scopes of the capture. -/
theorem scanCapture_isolated_parenthesized :
    let s := parenthesizedWorld.session parenthesizedTokenizer
    s.registry.Current ∧ ∃ scan, SessionM.captureScanner Regex.engine 1 = some scan ∧
      let r := (parenthesizedMatch.scanCapture scan ⟨0⟩ [⟨"s"⟩, ⟨"c"⟩] 1 3).run s
      ∃ made, (((Cover.startingAt 0).extend 1 [⟨"s"⟩]).extendAll r.1).tokens.toList =
          ⟨0, 1, [⟨"s"⟩]⟩ :: made ∧
        Tiles 1 3 made ∧ ∀ t ∈ made, [⟨"s"⟩, ⟨"c"⟩] <+: t.scopes := by
  intro s
  have hcurrent : s.registry.Current := parenthesizedWorld_reachable.current
  have hnotices : (SessionM.captureScanner Regex.engine 1).map (fun scan =>
      ((parenthesizedMatch.scanCapture scan ⟨0⟩ [⟨"s"⟩, ⟨"c"⟩] 1 3).run s).2.notices.length) =
      some 0 := by decide +kernel
  obtain ⟨scan, hscan, hlength⟩ := Option.map_eq_some_iff.1 hnotices
  refine ⟨hcurrent, scan, hscan, ?_⟩
  have hlt : 1 < 3 := by decide
  have hstop : 3 ≤ parenthesizedMatch.text.length := by decide
  obtain ⟨made, htokens, htiles, hscopes⟩ := (Captured.scanCapture_isolated Regex.engine_inside hscan
    parenthesizedMatch ⟨0⟩ [⟨"s"⟩, ⟨"c"⟩] hlt hstop s hcurrent).1 (.startingAt 0) [⟨"s"⟩]
  refine ⟨made, htokens, htiles, fun t ht => ?_⟩
  obtain hprefix | ⟨_, pos, hmem⟩ := hscopes t ht
  · exact hprefix
  · rw [List.length_eq_zero_iff.1 hlength, List.drop_nil] at hmem
    cases hmem

end ScopeGrammar
