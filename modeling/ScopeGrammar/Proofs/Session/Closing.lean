import ScopeGrammar.Proofs.Session.Progress
import ScopeGrammar.Proofs.Session.Scopes
import ScopeGrammar.Proofs.World.Depths

/-!
# ScopeGrammar.Proofs.Session.Closing

What becomes of the tokens that are made at some point of a scan.

* `Chain.extends_result` : they stay in the result of the scan, since a scan goes only one way.
* `Enters` are the scans of a line, as `Begins` has them, each with the position up to which tokens
  had been made when it began. Beyond that its tokens are those of the line (`Enters.tokens`).
* `Registry.HasEffect.scopesAt_closing` : the match that closes a span without captures has the
  scopes of the name of that span, whatever frames are closed along with it.
* `World.Run.scopes_chain` is what is known of the scopes in a run of lines.
-/

namespace ScopeGrammar

variable {P : Type} {engine : Engine P}

/-! ## Scopes of a character -/

/-- The character is in a token with these scopes. -/
def ScopesAt (tokens : List Token) (x : Nat) (scopes : List Scope) : Prop :=
  ∃ t ∈ tokens, t.start ≤ x ∧ x < t.stop ∧ t.scopes = scopes

section ScopesAt

variable {x : Nat} {scopes : List Scope}

theorem Tiles.scopesAt_unique {a b : Nat} {tokens : List Token} (h : Tiles a b tokens)
    {scopes' : List Scope} (hx : ScopesAt tokens x scopes) (hx' : ScopesAt tokens x scopes') :
    scopes = scopes' := by
  induction tokens generalizing a with
  | nil =>
    obtain ⟨t, ht, _⟩ := hx
    cases ht
  | cons t rest ih =>
    obtain ⟨_, _, hrest⟩ := h
    have hbehind := hrest.le_start
    obtain ⟨u, hu, hstart, hstop, hscopes⟩ := hx
    obtain ⟨v, hv, hstart', hstop', hscopes'⟩ := hx'
    rw [List.mem_cons] at hu hv
    rcases hu with rfl | hu <;> rcases hv with rfl | hv
    · rw [← hscopes, hscopes']
    · have := hbehind v hv
      omega
    · have := hbehind u hu
      omega
    · exact ih hrest ⟨u, hu, hstart, hstop, hscopes⟩ ⟨v, hv, hstart', hstop', hscopes'⟩

namespace Cover

variable {c d : Cover}

theorem Extends.scopesAt (h : c.Extends d) (hx : ScopesAt c.tokens.toList x scopes) :
    ScopesAt d.tokens.toList x scopes := by
  obtain ⟨more, hmore, _⟩ := h
  obtain ⟨t, ht, hx⟩ := hx
  exact ⟨t, by simp [hmore, ht], hx⟩

theorem scopesAt_extend {stop : Nat} (hreached : c.reached ≤ x) (hstop : x < stop) :
    ScopesAt (c.extend stop scopes).tokens.toList x scopes := by
  unfold extend
  rw [if_neg (by omega)]
  exact ⟨⟨c.reached, stop, scopes⟩, by simp, hreached, hstop, rfl⟩

/-- Behind what was reached before, the tokens that are added keep their scopes. -/
theorem scopesAt_extendAll {a b : Nat} {tokens : List Token} (h : Tiles a b tokens)
    (hreached : c.reached ≤ x) (hx : ScopesAt tokens x scopes) :
    ScopesAt (c.extendAll tokens).tokens.toList x scopes := by
  induction tokens generalizing a c with
  | nil =>
    obtain ⟨t, ht, _⟩ := hx
    cases ht
  | cons t rest ih =>
    obtain ⟨_, _, hrest⟩ := h
    obtain ⟨u, hu, hstart, hstop, hscopes⟩ := hx
    rcases List.mem_cons.1 hu with rfl | hu
    · have hhead : ScopesAt (c.extend u.stop u.scopes).tokens.toList x u.scopes :=
        scopesAt_extend hreached hstop
      rw [← hscopes]
      exact (extends_extendAll _ rest).scopesAt hhead
    · have := hrest.le_start u hu
      refine ih hrest ?_ ⟨u, hu, hstart, hstop, hscopes⟩
      rw [reached_extend]
      omega

theorem scopesAt_clip {n : Nat} (hn : x < n) (hx : ScopesAt c.tokens.toList x scopes) :
    ScopesAt (c.clip n) x scopes := by
  obtain ⟨t, ht, hstart, hstop, hscopes⟩ := hx
  have hbefore : t.start < n := by omega
  refine ⟨{ t with stop := min t.stop n }, ?_, hstart, ?_, hscopes⟩
  · exact List.mem_map.2 ⟨t, by simp [ht, hbefore], rfl⟩
  · show x < min t.stop n
    omega

end Cover

end ScopesAt

/-! ## A scan goes only one way -/

theorem Applies.unique {p q q' : ScanPoint P} (h : Applies engine p q)
    (h' : Applies engine p q') : q = q' := by
  obtain ⟨hsearch, happlied⟩ := h
  obtain ⟨hsearch', happlied'⟩ := h'
  rw [hsearch] at hsearch'
  cases hsearch'
  rw [happlied] at happlied'
  cases happlied'
  rfl

theorem ScanPoint.Ends.not_applies {p q : ScanPoint P} {result : LineState × Session P}
    (h : p.Ends engine result) : ¬ Applies engine p q := by
  rintro ⟨hsearch, happlied⟩
  cases h with
  | exhausted hend =>
    rw [hsearch] at hend
    cases hend
  | inconsistent hend happlied' =>
    rw [hsearch] at hend
    cases hend
    rw [happlied] at happlied'
    cases happlied'

theorem Chain.uncons {p r : ScanPoint P} {k : Nat} (h : Chain engine p (k + 1) r) :
    ∃ q, Applies engine p q ∧ Chain engine q k r := by
  cases h with
  | @step _ q _ hchain happly =>
    cases k with
    | zero =>
      cases hchain
      exact ⟨r, happly, .refl⟩
    | succ k =>
      obtain ⟨first, hfirst, hrest⟩ := hchain.uncons
      exact ⟨first, hfirst, .step hrest happly⟩

/-- A scan that ends comes through all the points it comes to. -/
theorem Chain.to_end {p q e : ScanPoint P} {k n : Nat} {result : LineState × Session P}
    (h : Chain engine p k q) (hend : Chain engine p n e) (hresult : e.Ends engine result) :
    ∃ m, Chain engine q m e := by
  induction h with
  | refl => exact ⟨n, hend⟩
  | step _ happly ih =>
    obtain ⟨m, hm⟩ := ih
    cases m with
    | zero =>
      cases hm
      exact absurd happly hresult.not_applies
    | succ m =>
      obtain ⟨first, hfirst, hrest⟩ := hm.uncons
      rw [happly.unique hfirst]
      exact ⟨m, hrest⟩

theorem Applies.cover_extends {p q : ScanPoint P} (h : Applies engine p q) :
    p.line.cover.Extends q.line.cover := by
  obtain ⟨_, happlied⟩ := h
  exact SessionM.applyCandidate_extends _ _ happlied

theorem Chain.cover_extends {p q : ScanPoint P} {k : Nat} (h : Chain engine p k q) :
    p.line.cover.Extends q.line.cover := by
  induction h with
  | refl => exact .refl _
  | step _ happly ih => exact ih.trans happly.cover_extends

theorem ScanPoint.Ends.cover_extends {p : ScanPoint P} {result : LineState × Session P}
    (h : p.Ends engine result) : p.line.cover.Extends result.1.cover := by
  cases h with
  | exhausted _ => exact Cover.extends_extend ..
  | inconsistent _ _ => exact Cover.extends_extend ..

/-- The tokens made up to some point of a scan are in its result. -/
theorem Chain.extends_result {p q : ScanPoint P} {k : Nat} (h : Chain engine p k q) :
    q.line.cover.Extends (p.result engine).1.cover := by
  obtain ⟨n, e, hend, hresult⟩ := p.result_ends engine
  obtain ⟨m, hm⟩ := h.to_end hend hresult
  exact hm.cover_extends.trans hresult.cover_extends

/-! ## Where the tokens of a capture go -/

section Places

variable (engine)

/-- The scans that `Captured.nested` lists, each with the position up to which tokens have been made
when it begins. -/
def Captured.nestedAt (c : Captured) (levels : Nat) :
    List (Nat × CaptureId) → OpenGroups → Cover → Session P → List (ScanPoint P × Nat)
  | [], _, _, _ => []
  | (i, id) :: rest, groups, cover, s =>
    match c.place? i id with
    | none => c.nestedAt levels rest groups cover s
    | some (capture, start, stop) =>
      let closed := groups.closeUpTo start cover
      let outer := closed.1.scopes c.scopes
      let cover := closed.2.extend start outer
      match capture.patterns, levels with
      | some _, inner + 1 =>
        let p := c.scanPoint inner id (outer ++ capture.scopes) start stop s
        let r := p.result engine
        (p, cover.reached) :: c.nestedAt (inner + 1) rest closed.1
          (cover.extendAll r.1.cover.tokens.toList) r.2
      | _, levels => c.nestedAt levels rest ((outer ++ capture.scopes, stop) :: closed.1) cover s

def groupScansAt (levels : Nat) (text : Subject) (spans : OpenSpans) (scopes : List Scope)
    (grammarId : GrammarId) (table : CaptureTable) (found : Match) (firstLine : Bool)
    (cover : Cover) (s : Session P) : List (ScanPoint P × Nat) :=
  match s.registry.grammar? grammarId with
  | none => []
  | some grammar =>
    ({ grammarId, grammar, found, text, spans, scopes, firstLine } : Captured).nestedAt engine
      levels table.entries [] cover s

def ScanPoint.nestedAt (p : ScanPoint P) : List (ScanPoint P × Nat) :=
  match p.search engine with
  | (none, _) => []
  | (some (i, m), s) =>
    match s.registry.effect? p.line.spans.frames (p.context.candidate? i) with
    | none => []
    | some e =>
      groupScansAt engine p.levels p.text (e.spans p.line.spans) (e.scopes (s.plain p.line.spans))
        e.grammarId e.captures m p.line.cursor.firstLine
        (p.line.cover.extend m.start (s.plain p.line.spans)) s

def heldScansAt (levels : Nat) (text : Subject) :
    List Frame → List Frame → LineState → Session P → List (ScanPoint P × Nat)
  | [], _, _, _ => []
  | frame :: inner, outer, line, s =>
    match frame.hold with
    | .whileMatched rule source =>
      let matched :=
        (SessionM.matchAlone engine source line.cursor.anchors text line.cursor.pos).run s
      match matched.1 with
      | none => []
      | some m =>
        let cover := line.cover.extend m.start frame.contentScopes
        let spans := line.spans.withFrames (frame :: outer)
        let scan := SessionM.captureScanner engine levels
        let go (cover : Cover) (s : Session P) : List (ScanPoint P × Nat) :=
          heldScansAt levels text inner (frame :: outer)
            { line with
              cursor := line.cursor.passWhile m.stop
              cover := cover.extend m.stop frame.contentScopes } s
        match matched.2.registry.span? rule with
        | none => go cover matched.2
        | some span =>
          let held := (SessionM.scopeGroups scan text spans frame.contentScopes rule.grammar
            span.closeCaptures m line.cursor.firstLine cover).run matched.2
          groupScansAt engine levels text spans frame.contentScopes rule.grammar span.closeCaptures
            m line.cursor.firstLine cover matched.2 ++ go held.1 held.2
    | _ => heldScansAt levels text inner (frame :: outer) line s

/-- The scans of a line with the number of captures they are inside of, each with the position up to
which tokens have been made when it begins, in the scans around it too. -/
inductive Enters (text : Subject) (line : LineState) (s : Session P) :
    Nat → ScanPoint P → Nat → Prop
  | held {p : ScanPoint P} {n : Nat} :
      (p, n) ∈ heldScansAt engine captureDepth text line.spans.frames.reverse [] line s →
      Enters text line s 1 p n
  | line {checked : LineState × Session P} :
      (SessionM.holdSpans engine (SessionM.captureScanner engine captureDepth) text line).run s =
        checked →
      Enters text line s 0
        { levels := captureDepth, text, capture := none, line := checked.1, session := checked.2 } 0
  | nested {depth k n m : Nat} {p q r : ScanPoint P} : Enters text line s depth p n →
      Chain engine p k q → (r, m) ∈ q.nestedAt engine →
      Enters text line s (depth + 1) r (max n m)

end Places

section Listed

variable {levels : Nat} {s : Session P}

theorem Captured.map_nestedAt (c : Captured) (levels : Nat) (entries : List (Nat × CaptureId))
    (groups : OpenGroups) (cover : Cover) (s : Session P) :
    (c.nestedAt engine levels entries groups cover s).map (·.1) =
      c.nested engine levels entries groups cover s := by
  induction entries generalizing groups cover s with
  | nil => rfl
  | cons entry rest ih =>
    obtain ⟨i, id⟩ := entry
    rw [nestedAt, nested]
    cases c.place? i id with
    | none => exact ih ..
    | some place =>
      obtain ⟨capture, start, stop⟩ := place
      dsimp only
      cases capture.patterns with
      | none => exact ih ..
      | some list =>
        cases levels with
        | zero => exact ih ..
        | succ inner => exact congrArg (List.cons _) (ih ..)

theorem map_groupScansAt (levels : Nat) (text : Subject) (spans : OpenSpans) (scopes : List Scope)
    (grammarId : GrammarId) (table : CaptureTable) (found : Match) (firstLine : Bool)
    (cover : Cover) (s : Session P) :
    (groupScansAt engine levels text spans scopes grammarId table found firstLine cover s).map
        (·.1) =
      groupScans engine levels text spans scopes grammarId table found firstLine cover s := by
  unfold groupScansAt groupScans
  cases s.registry.grammar? grammarId with
  | none => rfl
  | some grammar => exact Captured.map_nestedAt ..

theorem ScanPoint.map_nestedAt (p : ScanPoint P) :
    (p.nestedAt engine).map (·.1) = p.nested engine := by
  unfold nestedAt nested
  obtain ⟨_ | ⟨i, m⟩, s⟩ := p.search engine
  · rfl
  · dsimp only
    cases s.registry.effect? p.line.spans.frames (p.context.candidate? i) with
    | none => rfl
    | some e => exact map_groupScansAt ..

theorem map_heldScansAt (text : Subject) (inner outer : List Frame) (line : LineState)
    (s : Session P) :
    (heldScansAt engine levels text inner outer line s).map (·.1) =
      heldScans engine levels text inner outer line s := by
  induction inner generalizing outer line s with
  | nil => rfl
  | cons frame inner ih =>
    rw [heldScansAt, heldScans]
    cases frame.hold with
    | untilEnd rule source => exact ih ..
    | capture => exact ih ..
    | whileMatched rule source =>
      dsimp only
      generalize (SessionM.matchAlone engine source line.cursor.anchors text
        line.cursor.pos).run s = matched
      obtain ⟨_ | m, s₁⟩ := matched
      · rfl
      · dsimp only
        cases s₁.registry.span? rule with
        | none => exact ih ..
        | some span => rw [List.map_append, map_groupScansAt, ih]

/-- Every scan of a line is one that `Enters` has. -/
theorem Begins.enters {text : Subject} {line : LineState} {depth : Nat} {p : ScanPoint P}
    (h : Begins engine text line s depth p) : ∃ n, Enters engine text line s depth p n := by
  induction h with
  | held h =>
    rw [← map_heldScansAt] at h
    obtain ⟨⟨p, n⟩, hmem, rfl⟩ := List.mem_map.1 h
    exact ⟨n, .held hmem⟩
  | line h => exact ⟨0, .line h⟩
  | nested _ hchain h ih =>
    obtain ⟨n, hn⟩ := ih
    rw [← ScanPoint.map_nestedAt] at h
    obtain ⟨⟨r, m⟩, hmem, rfl⟩ := List.mem_map.1 h
    exact ⟨max n m, .nested hn hchain hmem⟩

theorem Enters.begins {text : Subject} {line : LineState} {depth n : Nat} {p : ScanPoint P}
    (h : Enters engine text line s depth p n) : Begins engine text line s depth p := by
  induction h with
  | held h => exact .held (map_heldScansAt .. ▸ List.mem_map_of_mem h)
  | line h => exact .line h
  | nested _ hchain h ih => exact .nested ih hchain (ScanPoint.map_nestedAt _ ▸ List.mem_map_of_mem h)

end Listed

/-! ### Tokens of a capture in the scan around it -/

/-- Beyond a position the tokens of a scan are those of a cover. -/
def ScanPoint.Within (engine : Engine P) (p : ScanPoint P) (n : Nat) (cover : Cover) : Prop :=
  ∀ x scopes, n ≤ x → ScopesAt (p.result engine).1.cover.tokens.toList x scopes →
    ScopesAt cover.tokens.toList x scopes

theorem ScanPoint.Within.extends {p : ScanPoint P} {n : Nat} {c d : Cover}
    (h : p.Within engine n c) (hcd : c.Extends d) : p.Within engine n d := fun x scopes hn hx =>
  hcd.scopesAt (h x scopes hn hx)

section Tokens

variable {levels : Nat} {s : Session P} {q : ScanPoint P} {n : Nat}

theorem Captured.scanPoint_tiles (c : Captured) (inner : Nat) (id : CaptureId) (scopes : List Scope)
    (start stop : Nat) (s : Session P) :
    let result := ((c.scanPoint inner id scopes start stop s).result engine).1
    Tiles start result.cover.reached result.cover.tokens.toList :=
  (SessionM.scanLine_covers engine _ _ _ _).1.tiles

theorem Captured.within_of_nestedAt {c : Captured} {entries : List (Nat × CaptureId)}
    {groups : OpenGroups} {cover : Cover}
    (h : (q, n) ∈ c.nestedAt engine levels entries groups cover s) :
    q.Within engine n
      ((c.scopeEntries (SessionM.captureScanner engine levels) entries groups cover).run s).1 := by
  induction entries generalizing groups cover s with
  | nil => cases h
  | cons entry rest ih =>
    obtain ⟨i, id⟩ := entry
    rw [nestedAt] at h
    rw [run_scopeEntries_cons]
    cases hplace : c.place? i id with
    | none => rw [hplace] at h; exact ih h
    | some place =>
      obtain ⟨capture, start, stop⟩ := place
      rw [hplace] at h
      dsimp only at h ⊢
      cases hpatterns : capture.patterns with
      | none => rw [hpatterns] at h; exact ih h
      | some list =>
        rw [hpatterns] at h
        cases levels with
        | zero => exact ih h
        | succ inner =>
          obtain ⟨scan, hscan⟩ : ∃ scan, SessionM.captureScanner engine (inner + 1) = some scan :=
            ⟨_, rfl⟩
          rw [hscan] at ih ⊢
          dsimp only at h ⊢
          rw [scanPoint_answered (ScanPoint.answeredBy_captureScanner hscan ..)]
          cases h with
          | head =>
            refine ScanPoint.Within.extends (fun x scopes hn hx => ?_) (scopeEntries_extends ..)
            exact Cover.scopesAt_extendAll (c.scanPoint_tiles ..) hn hx
          | tail _ h => exact ih h

theorem within_of_groupScansAt {text : Subject} {spans : OpenSpans} {scopes : List Scope}
    {grammarId : GrammarId} {table : CaptureTable} {found : Match} {firstLine : Bool}
    {cover : Cover}
    (h : (q, n) ∈ groupScansAt engine levels text spans scopes grammarId table found firstLine
      cover s) :
    q.Within engine n ((SessionM.scopeGroups (SessionM.captureScanner engine levels) text spans
      scopes grammarId table found firstLine cover).run s).1 := by
  rw [SessionM.run_scopeGroups]
  unfold groupScansAt at h
  cases hgrammar : s.registry.grammar? grammarId with
  | none =>
    rw [hgrammar] at h
    cases h
  | some grammar =>
    rw [hgrammar] at h
    exact Captured.within_of_nestedAt h

/-- A scan of a capture is begun where a candidate is applied, and its tokens are there at the next
point of the scan around it. -/
theorem ScanPoint.within_of_nestedAt {p : ScanPoint P} (h : (q, n) ∈ p.nestedAt engine) :
    ∃ p', Applies engine p p' ∧ q.Within engine n p'.line.cover := by
  unfold nestedAt at h
  split at h
  · cases h
  · next i m s hsearch =>
    split at h
    · cases h
    · next e heffect =>
      let r :=
        (SessionM.applyEffect (SessionM.captureScanner engine p.levels) p.text m p.line e).run s
      have happlied : p.applied engine i m s = (some r.1, r.2) := by
        rw [applied, SessionM.run_applyCandidate, heffect]
      refine ⟨_, .mk hsearch happlied, ?_⟩
      have hscoped := (within_of_groupScansAt h).extends
        (Cover.extends_extend _ m.stop (e.scopes (s.plain p.line.spans)))
      show q.Within engine n r.1.cover
      dsimp only [r]
      rw [SessionM.run_applyEffect]
      cases e <;> exact hscoped

theorem within_of_heldScansAt {text : Subject} {inner outer : List Frame} {line : LineState}
    (h : (q, n) ∈ heldScansAt engine levels text inner outer line s) :
    q.Within engine n ((SessionM.holdFrames engine (SessionM.captureScanner engine levels) text
      inner outer line).run s).1.cover := by
  induction inner generalizing outer line s with
  | nil => cases h
  | cons frame inner ih =>
    rw [heldScansAt] at h
    rw [SessionM.run_holdFrames_cons]
    cases hhold : frame.hold with
    | untilEnd rule source => rw [hhold] at h; exact ih h
    | capture => rw [hhold] at h; exact ih h
    | whileMatched rule source =>
      rw [hhold] at h
      dsimp only at h ⊢
      generalize (SessionM.matchAlone engine source line.cursor.anchors text
        line.cursor.pos).run s = matched at h ⊢
      obtain ⟨_ | m, s₁⟩ := matched
      · cases h
      · dsimp only at h ⊢
        rw [SessionM.heldGroups]
        cases hspan : s₁.registry.span? rule with
        | none => rw [hspan] at h; exact ih h
        | some span =>
          rw [hspan] at h
          dsimp only at h ⊢
          rw [List.mem_append] at h
          rcases h with h | h
          · refine (within_of_groupScansAt h).extends ?_
            exact (Cover.extends_extend ..).trans (SessionM.holdFrames_extends ..)
          · exact ih h

end Tokens

/-- Beyond the position that a scan is entered at, its tokens are in the scan of the line. -/
theorem Enters.within {text : Subject} {line : LineState} {s : Session P} {depth n : Nat}
    {p : ScanPoint P} (h : Enters engine text line s depth p n) {checked : LineState × Session P}
    (hchecked : (SessionM.holdSpans engine (SessionM.captureScanner engine captureDepth) text
      line).run s = checked) :
    p.Within engine n ((SessionM.scanLine engine (SessionM.captureScanner engine captureDepth) text
      checked.1).run checked.2).1.cover := by
  induction h with
  | held h =>
    subst hchecked
    exact (within_of_heldScansAt h).extends (SessionM.scanLine_covers ..).1
  | line h =>
    subst hchecked
    cases h
    exact fun x scopes _ hx => hx
  | nested _ hchain h ih =>
    obtain ⟨q', happly, hq'⟩ := ScanPoint.within_of_nestedAt h
    have hresult := hq'.extends (Chain.step hchain happly).extends_result
    intro x scopes hx hscopes
    exact ih x scopes (by omega) (hresult x scopes (by omega) hscopes)

/-- Beyond the position that a scan is entered at, its tokens are those of the line. -/
theorem Enters.tokens {line : String} {state : OpenSpans} {s : Session P} {depth n x : Nat}
    {p : ScanPoint P} {scopes : List Scope}
    (h : Enters engine (.ofLine line) (SessionM.startLine state) s depth p n)
    (hshort : SessionM.isTooLong s.tokenizer.options line.length = false) (hn : n ≤ x)
    (hx : x < line.length) (hscopes : ScopesAt (p.result engine).1.cover.tokens.toList x scopes) :
    let tokens := ((SessionM.tokenizeLine engine line state).run s).1.tokens
    ScopesAt tokens x scopes ∧ ∀ scopes', ScopesAt tokens x scopes' → scopes' = scopes := by
  rw [SessionM.run_tokenizeLine, if_neg (by simp [hshort])]
  dsimp only
  generalize hchecked : (SessionM.holdSpans engine (SessionM.captureScanner engine captureDepth)
    (.ofLine line) (SessionM.startLine state)).run s = checked
  have hheld : (Cover.startingAt 0).Extends checked.1.cover := by
    rw [← hchecked]
    exact SessionM.holdFrames_extends ..
  obtain ⟨hext, hend⟩ := SessionM.scanLine_covers engine
    (SessionM.captureScanner engine captureDepth) (.ofLine line) checked.1 checked.2
  have htiles := Cover.clip_tiles (n := line.length) (hheld.trans hext) (by
    rw [SessionM.length_ofLine] at hend
    omega)
  have hline := Cover.scopesAt_clip hx (h.within hchecked x scopes hn hscopes)
  exact ⟨hline, fun scopes' hscopes' => htiles.scopesAt_unique hscopes' hline⟩

/-! ## The end of a span -/

/-- The match of the candidate that wins and what it does. -/
def ScanPoint.effect? (engine : Engine P) (p : ScanPoint P) : Option (Match × Effect) :=
  match p.search engine with
  | (none, _) => none
  | (some (i, m), s) =>
    (s.registry.effect? p.line.spans.frames (p.context.candidate? i)).map fun e => (m, e)

namespace ScanPoint

variable {q : ScanPoint P} {m : Match} {e : Effect} {target : Frame} {outer : List Frame}
  {rule : RuleRef} {span : SpanRule}

theorem effect?_eq_some (h : q.effect? engine = some (m, e)) :
    ∃ i s, q.search engine = (some (i, m), s) ∧
      s.registry.effect? q.line.spans.frames (q.context.candidate? i) = some e := by
  unfold effect? at h
  split at h
  · cases h
  · next i m' s hsearch =>
    obtain ⟨e', heffect, heq⟩ := Option.map_eq_some_iff.1 h
    cases heq
    exact ⟨i, s, hsearch, heffect⟩

/-- A match that closes a span without captures has the scopes of the name of that span, as far as
it is not in tokens made before. -/
theorem closing_scopesAt (h : q.effect? engine = some (m, .closing target outer rule span))
    (hcaptures : span.closeCaptures.entries = []) :
    ∃ q', Applies engine q q' ∧ ∀ x, q.line.cover.reached ≤ x → m.start ≤ x → x < m.stop →
      ScopesAt q'.line.cover.tokens.toList x target.nameScopes := by
  obtain ⟨i, s, hsearch, heffect⟩ := effect?_eq_some h
  let e : Effect := .closing target outer rule span
  let r :=
    (SessionM.applyEffect (SessionM.captureScanner engine q.levels) q.text m q.line e).run s
  have happlied : q.applied engine i m s = (some r.1, r.2) := by
    rw [applied, SessionM.run_applyCandidate, heffect]
  have hgroups : (SessionM.scopeGroups (SessionM.captureScanner engine q.levels) q.text
      (e.spans q.line.spans) target.nameScopes rule.grammar span.closeCaptures m
      q.line.cursor.firstLine (q.line.cover.extend m.start (s.plain q.line.spans))).run s =
      (q.line.cover.extend m.start (s.plain q.line.spans), s) := by
    rw [SessionM.run_scopeGroups, hcaptures]
    cases s.registry.grammar? rule.grammar <;> rfl
  have hcover : r.1.cover = (q.line.cover.extend m.start (s.plain q.line.spans)).extend m.stop
      target.nameScopes := congrArg (fun c => c.1.extend m.stop target.nameScopes) hgroups
  refine ⟨_, .mk hsearch happlied, fun x hreached hstart hstop => ?_⟩
  show ScopesAt r.1.cover.tokens.toList x target.nameScopes
  rw [hcover]
  refine Cover.scopesAt_extend ?_ hstop
  rw [Cover.reached_extend]
  omega

/-- The span that is closed is that of its frame, which has the scopes around it and its own. -/
theorem closing_nameScopes {r : Registry} {root : List Scope}
    (h : q.effect? engine = some (m, .closing target outer rule span))
    (hs : q.session.Based r root) (hframes : ScopeChain r root q.line.spans.frames) :
    target.nameScopes = scopesInside root outer ++ span.scopes := by
  obtain ⟨i, s, hsearch, heffect⟩ := effect?_eq_some h
  have hfound := hs.after (q.search_leads engine)
  rw [hsearch] at hfound
  obtain ⟨c, _, hhas⟩ := Registry.hasEffect_of_effect? heffect
  cases hhas with
  | @closing distance _ _ _ source _ hdrop hhold hspan =>
    have htarget := hframes.suffix (hdrop ▸ List.drop_suffix ..)
    rw [hfound.grammars.span?_eq] at hspan
    cases htarget with
    | span hf _ =>
      obtain ⟨rule', span', source', hhold', hspan', hname, _⟩ := hf
      have hrule : rule' = rule := by
        rw [hhold, holdOf] at hhold'
        split at hhold'
        · cases hhold'
        · cases hhold'
          rfl
      rw [hrule, hspan] at hspan'
      cases hspan'
      exact hname
    | capture hcapture _ _ _ =>
      rw [hhold] at hcapture
      cases hcapture

end ScanPoint

/-! ## Runs -/

namespace World

variable {w : World P} {state : OpenSpans} {t : Tokenizer P}

/-- The session for a line has the scope of its grammar for its root. -/
theorem Own.based (h : w.Own engine state) (ht : t ∈ w.tokenizers) {grammar : Grammar}
    (hgrammar : w.registry.grammar? t.base = some grammar) :
    (w.session t).Based w.registry [grammar.scope] := by
  obtain ⟨K, hsound⟩ := h.reachable.sound
  refine ⟨.refl _, ?_⟩
  show t.rootScopes = [grammar.scope]
  rw [(hsound.tokenizers t ht).rootScopes, hgrammar]
  rfl

namespace Run

variable {base : GrammarId} {outerSpans : Bool} {grammar : Grammar}

theorem scopeChain (h : w.Run engine base outerSpans state)
    (hgrammar : w.registry.grammar? base = some grammar) :
    ScopeChain w.registry [grammar.scope] state.frames := by
  induction h with
  | fresh h => exact .nil
  | @line w state t line hrun ht hbase houter ih =>
    have hleads : Leads engine (w.session t) state _ _ := SessionM.tokenizeLine_leads line ..
    have hbefore : w.registry.grammar? base = some grammar := by
      rw [← hgrammar]
      exact (hleads.sameGrammars.grammar?_eq base).symm
    have hs := hrun.own.based ht (hbase ▸ hbefore)
    exact (SessionM.tokenizeLine_scoped line hs (ih hbefore)).1.congr hleads.sameGrammars
  | use _ huse ih =>
    rw [huse.extends.grammars.grammar?_eq] at hgrammar
    exact (ih hgrammar).congr huse.extends.grammars

/-- Between lines the frames are those of spans. -/
theorem ofSpan (h : w.Run engine base outerSpans state)
    (hgrammar : w.registry.grammar? base = some grammar) {f : Frame} {outer : List Frame}
    (hf : f :: outer <:+ state.frames) : f.OfSpan w.registry [grammar.scope] outer := by
  cases (h.scopeChain hgrammar).suffix hf with
  | span hspan _ => exact hspan
  | capture hcapture _ _ _ =>
    have hspans := Inside.none_iff.1 (h.inside w.registry) f (hf.subset (.head _))
    exact absurd hcapture hspans

/-- After a further line the depth of every open frame is its number from the outermost one on, it
has the scopes around it and those of its span, and every token the scope of the grammar. At every
point of every scan of the line the frames are numbered and chained like that; a match that closes a
span without captures there has the scopes of the name of that span, as far as it is not in tokens
made before, and no others. -/
theorem scopes_chain (h : w.Run engine base outerSpans state) (ht : t ∈ w.tokenizers)
    (hbase : t.base = base) (houter : t.options.closeOuterSpans = outerSpans) (line : String) :
    ∃ grammar, w.registry.grammar? base = some grammar ∧
      let r := (SessionM.tokenizeLine engine line state).run (w.session t)
      (∀ f outer, f :: outer <:+ r.1.state.frames →
        f.depth = outer.length + 1 ∧ f.OfSpan w.registry [grammar.scope] outer) ∧
      (∀ token ∈ r.1.tokens, [grammar.scope] <+: token.scopes) ∧
      (SessionM.isTooLong t.options line.length = false → ∀ depth n p k q,
        Enters engine (.ofLine line) (SessionM.startLine state) (w.session t) depth p n →
        Chain engine p k q →
        (∀ f outer, f :: outer <:+ q.line.spans.frames → f.depth = outer.length + 1) ∧
        ScopeChain w.registry [grammar.scope] q.line.spans.frames ∧
        ∀ m target outer rule span,
          q.effect? engine = some (m, .closing target outer rule span) →
          span.closeCaptures.entries = [] →
          target.nameScopes = scopesInside [grammar.scope] outer ++ span.scopes ∧
          ∀ x, n ≤ x → q.line.cover.reached ≤ x → m.start ≤ x → x < m.stop → x < line.length →
            ScopesAt r.1.tokens x target.nameScopes ∧
            ∀ scopes, ScopesAt r.1.tokens x scopes → scopes = target.nameScopes) := by
  obtain ⟨grammar, hgrammar⟩ := h.own.reachable.grammar? ht
  rw [hbase] at hgrammar
  have hs := h.own.based ht (hbase ▸ hgrammar)
  have hframes := h.scopeChain hgrammar
  refine ⟨grammar, hgrammar, ?_⟩
  intro r
  have hleads : Leads engine (w.session t) state r.2 r.1.state :=
    SessionM.tokenizeLine_leads line state (w.session t)
  have hafter : (w.after r).Run engine base outerSpans r.1.state := .line line h ht hbase houter
  have hgrammar' : (w.after r).registry.grammar? base = some grammar :=
    (hleads.sameGrammars.grammar?_eq base).trans hgrammar
  refine ⟨fun f outer hf => ⟨(hleads.counted h.own.counted).depth_eq hf, ?_⟩,
    (SessionM.tokenizeLine_scoped line hs hframes).2, ?_⟩
  · obtain ⟨rule, span, source, hhold, hspan, hscopes⟩ := hafter.ofSpan hgrammar' hf
    exact ⟨rule, span, source, hhold, (hleads.sameGrammars.span?_eq rule).symm.trans hspan, hscopes⟩
  intro hshort depth n p k q henters hchain
  have hbegins := henters.begins
  have hp := hs.after hbegins.leads
  have hpframes := hbegins.scoped hs (SessionM.startLine_scoped hframes)
  have hqframes := (hchain.scoped hp hpframes).frames
  have hcounted := (hbegins.leads.trans hchain.leads).counted h.own.counted
  refine ⟨fun f outer hf => hcounted.depth_eq hf, hqframes, ?_⟩
  refine fun m target outer rule span heffect hcaptures => ⟨?_, ?_⟩
  · exact ScanPoint.closing_nameScopes heffect (hp.after hchain.leads) hqframes
  intro x hn hreached hstart hstop hx
  obtain ⟨q', happly, hscopes⟩ := ScanPoint.closing_scopesAt heffect hcaptures
  have hscan := (Chain.step hchain happly).extends_result.scopesAt (hscopes x hreached hstart hstop)
  exact henters.tokens hshort hn hx hscan

end Run

end World

/-! ### Spans with names -/

/-- A grammar of two spans, from `a` to `b` and from `c` to `d`, with names and with both of them in
each. -/
def namedSpans : Grammar :=
  let span (scopes contentScopes : List Scope) (opening close : UInt32) : Rule := .span
    { scopes, contentScopes, opening := ⟨opening⟩, openingCaptures := .empty
      close := .atEnd ⟨close⟩ .empty false, fillsEnding := false, patterns := ⟨0⟩ }
  { name := "", scopeName := "s", scope := ⟨"s"⟩, fileTypes := [], patterns := #["a", "b", "c", "d"]
    rules := #[span [⟨"x"⟩] [⟨"y"⟩] 0 1, span [⟨"z"⟩] [] 2 3]
    lists := #[[.rule ⟨0⟩, .rule ⟨1⟩]], captures := #[], repositories := #[], root := ⟨0⟩
    skipped := [] }

def namedSpansTokenizer : Tokenizer Char :=
  (Tokenizer.start (Registry.empty.add namedSpans).2 ⟨0⟩ {}).1.1

def namedSpansWorld : World Char := (World.initial.add namedSpans).started ⟨0⟩ {}

def namedSpansPoint : Nat → ScanPoint Char
  | 0 =>
    { levels := captureDepth, text := .ofLine "acb", capture := none
      line := SessionM.startLine .fresh, session := namedSpansWorld.session namedSpansTokenizer }
  | n + 1 => (namedSpansPoint n).next oneCharacter

/-- The `b` in `acb` closes both spans. It has the name of the outer one, without its content name
and without the name of the inner one. -/
theorem scopes_chain_acb :
    let tokens := ((SessionM.tokenizeLine oneCharacter "acb" .fresh).run
      (namedSpansWorld.session namedSpansTokenizer)).1.tokens
    (namedSpansPoint 2).line.spans.depth = 2 ∧ ScopesAt tokens 2 [⟨"s"⟩, ⟨"x"⟩] ∧
      ∀ scopes, ScopesAt tokens 2 scopes → scopes = [⟨"s"⟩, ⟨"x"⟩] := by
  have hid : (World.initial.add namedSpans : World Char).registry.id? "s" = some ⟨0⟩ := rfl
  have hrun : namedSpansWorld.Run oneCharacter ⟨0⟩ true .fresh :=
    .fresh (.use (.add namedSpans .initial) (.start {} hid))
  have happlies : ∀ n < 2, Applies oneCharacter (namedSpansPoint n) (namedSpansPoint (n + 1)) := by
    have hpos : ∀ n < 2, (namedSpansPoint (n + 1)).line.cursor.pos ≠
        (namedSpansPoint n).line.cursor.pos := by decide +kernel
    exact fun n hn => ScanPoint.applies_next (hpos n hn)
  have hchain : Chain oneCharacter (namedSpansPoint 0) 2 (namedSpansPoint 2) :=
    (Chain.refl.step (happlies 0 (by decide))).step (happlies 1 (by decide))
  obtain ⟨m, target, outer, rule, span, heffect, hcaptures, hname, hstart, hstop⟩ :
      ∃ m target outer rule span, (namedSpansPoint 2).effect? oneCharacter =
        some (m, .closing target outer rule span) ∧ span.closeCaptures.entries = [] ∧
        target.nameScopes = [⟨"s"⟩, ⟨"x"⟩] ∧ m.start = 2 ∧ m.stop = 3 :=
    ⟨_, _, _, _, _, rfl, rfl, rfl, rfl, rfl⟩
  have hreached : (namedSpansPoint 2).line.cover.reached = 2 := by decide +kernel
  have hmem : namedSpansTokenizer ∈ namedSpansWorld.tokenizers := .head _
  obtain ⟨grammar, _, _, _, hscan⟩ := hrun.scopes_chain hmem rfl rfl "acb"
  have hclosing := (hscan rfl 0 0 (namedSpansPoint 0) 2 _ (.line rfl) hchain).2.2 m target outer
    rule span heffect hcaptures
  rw [hname] at hclosing
  have hdepth : (namedSpansPoint 2).line.spans.depth = 2 := by decide +kernel
  exact ⟨hdepth, hclosing.2 2 (by omega) (by omega) (by omega) (by omega) (by decide)⟩

end ScopeGrammar
