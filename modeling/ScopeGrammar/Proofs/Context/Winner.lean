import ScopeGrammar.Proofs.Pattern.Leftmost
import ScopeGrammar.Session.Basic

/-!
# ScopeGrammar.Proofs.Context.Winner

Which candidate of a list wins, said without groups of patterns.

* `firstHit` is the first entry of a list whose pattern matches, `Engine.winner` the first one at
  the leftmost position where there is any.
* `ContextGroup.search_build` : a group finds the winner of its context, also when some of the
  patterns are refused.
* `ContextGroup.build_all` : where no pattern has an anchor, the anchors do not matter.
* `firstHit_dropRepeats` : an entry with the pattern of one before it never wins.
-/

namespace ScopeGrammar

/-! ## The first entry that matches -/

section FirstHit

variable {α β : Type} (f : String → Option Match)

/-- The first entry whose pattern matches. -/
def firstHit (entries : List (α × String)) : Option (α × Match) :=
  entries.findSome? fun (a, source) => (f source).map fun m => (a, m)

/-- Leaves out the entries whose pattern was seen before. -/
def dropRepeats : List String → List (α × String) → List (α × String)
  | _, [] => []
  | seen, (a, source) :: rest =>
    if source ∈ seen then dropRepeats seen rest
    else (a, source) :: dropRepeats (source :: seen) rest

theorem firstHit_cons (a : α) (source : String) (rest : List (α × String)) :
    firstHit f ((a, source) :: rest) =
      match f source with
      | some m => some (a, m)
      | none => firstHit f rest := by
  simp only [firstHit, List.findSome?_cons]
  cases f source <;> rfl

theorem firstHit_map (g : α → β) (entries : List (α × String)) :
    firstHit f (entries.map fun (a, source) => (g a, source)) =
      (firstHit f entries).map fun (a, m) => (g a, m) := by
  induction entries with
  | nil => rfl
  | cons entry rest ih =>
    obtain ⟨a, source⟩ := entry
    rw [List.map_cons, firstHit_cons, firstHit_cons]
    cases f source with
    | none => exact ih
    | some m => rfl

theorem mem_of_firstHit {f : String → Option Match} {entries : List (α × String)} {a : α}
    {m : Match} (h : firstHit f entries = some (a, m)) : ∃ source, (a, source) ∈ entries := by
  induction entries with
  | nil => cases h
  | cons entry rest ih =>
    obtain ⟨b, source⟩ := entry
    rw [firstHit_cons] at h
    cases hf : f source with
    | none =>
      rw [hf] at h
      obtain ⟨source', hmem⟩ := ih h
      exact ⟨source', .tail _ hmem⟩
    | some m' =>
      rw [hf] at h
      cases h
      exact ⟨source, .head _⟩

theorem firstHit_dropRepeats_of_none {f : String → Option Match} {seen : List String}
    (hseen : ∀ source ∈ seen, f source = none) (entries : List (α × String)) :
    firstHit f (dropRepeats seen entries) = firstHit f entries := by
  induction entries generalizing seen with
  | nil => rfl
  | cons entry rest ih =>
    obtain ⟨a, source⟩ := entry
    rw [dropRepeats, firstHit_cons]
    split
    · next hmem => rw [hseen source hmem]; exact ih hseen
    · rw [firstHit_cons]
      cases hf : f source with
      | none => exact ih (List.forall_mem_cons.2 ⟨hf, hseen⟩)
      | some m => rfl

/-- What was seen among the entries before can be left out behind them. -/
theorem firstHit_dropRepeats {seen : List String} {before : List (α × String)}
    (hseen : ∀ source ∈ seen, ∃ a, (a, source) ∈ before) (entries : List (α × String)) :
    firstHit f (before ++ dropRepeats seen entries) = firstHit f (before ++ entries) := by
  unfold firstHit
  rw [List.findSome?_append, List.findSome?_append]
  cases hbefore : before.findSome? fun (a, source) => (f source).map fun m => (a, m) with
  | some hit => rfl
  | none =>
    rw [List.findSome?_eq_none_iff] at hbefore
    refine firstHit_dropRepeats_of_none (fun source hmem => ?_) entries
    obtain ⟨a, hentry⟩ := hseen source hmem
    simpa using hbefore (a, source) hentry

/-! ### Lists without repeated patterns -/

variable {seen seen' : List String} {entries : List (α × String)}

/-- Only what was seen counts, not in which order. -/
theorem dropRepeats_congr (h : ∀ source, source ∈ seen ↔ source ∈ seen') :
    dropRepeats seen entries = dropRepeats seen' entries := by
  induction entries generalizing seen seen' with
  | nil => rfl
  | cons entry rest ih =>
    obtain ⟨a, source⟩ := entry
    have hcons : ∀ s, s ∈ source :: seen ↔ s ∈ source :: seen' := by simp [h]
    rw [dropRepeats, dropRepeats, ih h, ih hcons]
    simp only [h]

/-- What was dropped before is dropped again where more was seen. -/
theorem dropRepeats_dropRepeats (h : ∀ source ∈ seen', source ∈ seen) :
    dropRepeats seen (dropRepeats seen' entries) = dropRepeats seen entries := by
  induction entries generalizing seen seen' with
  | nil => rfl
  | cons entry rest ih =>
    obtain ⟨a, source⟩ := entry
    by_cases hseen' : source ∈ seen'
    · have hseen := h source hseen'
      rw [dropRepeats, if_pos hseen', dropRepeats, if_pos hseen, ih h]
    · rw [dropRepeats, if_neg hseen']
      by_cases hseen : source ∈ seen
      · rw [dropRepeats, if_pos hseen, dropRepeats, if_pos hseen]
        exact ih (List.forall_mem_cons.2 ⟨hseen, h⟩)
      · rw [dropRepeats, if_neg hseen, dropRepeats, if_neg hseen, ih]
        intro s hs
        obtain rfl | hs := List.mem_cons.1 hs
        · exact .head _
        · exact .tail _ (h s hs)

theorem dropRepeats_map (g : α → β) :
    dropRepeats seen (entries.map fun (a, source) => (g a, source)) =
      (dropRepeats seen entries).map fun (a, source) => (g a, source) := by
  induction entries generalizing seen with
  | nil => rfl
  | cons entry rest ih =>
    obtain ⟨a, source⟩ := entry
    rw [List.map_cons, dropRepeats, dropRepeats, ih, ih]
    split <;> rfl

theorem dropRepeats_sublist : (dropRepeats seen entries).Sublist entries := by
  induction entries generalizing seen with
  | nil => exact .slnil
  | cons entry rest ih =>
    obtain ⟨a, source⟩ := entry
    rw [dropRepeats]
    split
    · exact .cons _ ih
    · exact .cons_cons _ ih

theorem not_mem_seen_of_mem_dropRepeats {a : α} {source : String}
    (h : (a, source) ∈ dropRepeats seen entries) : source ∉ seen := by
  induction entries generalizing seen with
  | nil => cases h
  | cons entry rest ih =>
    obtain ⟨b, source'⟩ := entry
    rw [dropRepeats] at h
    split at h
    · exact ih h
    · next hnew =>
      obtain heq | h := List.mem_cons.1 h
      · cases heq; exact hnew
      · exact fun hseen => ih h (.tail _ hseen)

theorem pairwise_dropRepeats :
    (dropRepeats seen entries).Pairwise fun x y => x.2 ≠ y.2 := by
  induction entries generalizing seen with
  | nil => exact .nil
  | cons entry rest ih =>
    obtain ⟨a, source⟩ := entry
    rw [dropRepeats]
    split
    · exact ih
    · refine .cons (fun ⟨b, source'⟩ hmem heq => ?_) ih
      have hsource : source = source' := heq
      exact not_mem_seen_of_mem_dropRepeats hmem (hsource ▸ .head _)

/-- Of every pattern that was not seen the first entry stays. -/
theorem exists_mem_dropRepeats {R : α → α → Prop} (hrefl : ∀ a, R a a)
    (hentries : entries.Pairwise fun x y => R x.1 y.1) {a : α} {source : String}
    (h : (a, source) ∈ entries) (hnew : source ∉ seen) :
    ∃ b, (b, source) ∈ dropRepeats seen entries ∧ R b a := by
  induction entries generalizing seen with
  | nil => cases h
  | cons entry rest ih =>
    obtain ⟨b, source'⟩ := entry
    rw [List.pairwise_cons] at hentries
    rw [dropRepeats]
    by_cases hsource : source' = source
    · subst hsource
      rw [if_neg hnew]
      refine ⟨b, .head _, ?_⟩
      obtain heq | h := List.mem_cons.1 h
      · cases heq; exact hrefl a
      · exact hentries.1 _ h
    · have hrest : (a, source) ∈ rest := by
        obtain heq | h := List.mem_cons.1 h
        · cases heq; exact absurd rfl hsource
        · exact h
      split
      · exact ih hentries.2 hrest hnew
      · have hnew' : source ∉ source' :: seen := by simp [hnew, Ne.symm hsource]
        obtain ⟨b', hmem, hR⟩ := ih hentries.2 hrest hnew'
        exact ⟨b', .tail _ hmem, hR⟩

end FirstHit

/-! ## The winner of a list of candidates -/

namespace Engine

variable {P : Type} (engine : Engine P) {α β : Type}

/-- The match of a pattern at one position, none if the pattern is refused. -/
def attemptSource (source : String) (t : Subject) (start pos : Nat) : Option Match :=
  match engine.compile {} source with
  | .ok p => engine.attempt p t start pos
  | .error _ => none

/-- The first entry that matches at the leftmost position where any entry does. -/
def winner (anchors : Anchoring) (t : Subject) (start : Nat) (entries : List (α × String)) :
    Option (α × Match) :=
  if t.length ≤ start then none
  else
    firstFrom (fun pos => firstHit (fun s => engine.attemptSource (anchors.rewrite s) t start pos)
      entries) (t.length - start + 1) start

variable {anchors : Anchoring} {t : Subject} {start : Nat} {entries entries' : List (α × String)}

theorem winner_map (g : α → β) :
    engine.winner anchors t start (entries.map fun (a, source) => (g a, source)) =
      (engine.winner anchors t start entries).map fun (a, m) => (g a, m) := by
  unfold winner
  split
  · rfl
  · rw [← firstFrom_map]
    simp only [firstHit_map]

/-- Lists with the same first entry at every position have the same winner. -/
theorem winner_congr (h : ∀ f : String → Option Match, firstHit f entries = firstHit f entries') :
    engine.winner anchors t start entries = engine.winner anchors t start entries' := by
  unfold winner
  simp only [h]

theorem mem_of_winner {a : α} {m : Match}
    (h : engine.winner anchors t start entries = some (a, m)) :
    ∃ source, (a, source) ∈ entries := by
  unfold winner at h
  split at h
  · cases h
  · obtain ⟨i, _, _, hhit⟩ := exists_of_firstFrom h
    exact mem_of_firstHit hhit

end Engine

/-! ## Groups of patterns -/

section Accepted

variable {P : Type} {engine : Engine P}

theorem acceptedFrom_of_compileAll {sources : List String} {patterns : List P}
    (h : PatternGroup.compileAll engine {} sources = .ok patterns) (i : Nat) :
    (acceptedFrom engine i sources).map (·.1) = List.range' i sources.length ∧
      (acceptedFrom engine i sources).map (·.2) = patterns := by
  induction sources generalizing patterns i with
  | nil => cases h; exact ⟨rfl, rfl⟩
  | cons source rest ih =>
    rw [PatternGroup.compileAll] at h
    rw [acceptedFrom]
    cases hcompile : engine.compile {} source with
    | error e => rw [hcompile] at h; cases h
    | ok p =>
      rw [hcompile] at h
      dsimp only at h ⊢
      cases hrest : PatternGroup.compileAll engine {} rest with
      | error refusal => rw [hrest] at h; cases h
      | ok patterns' =>
        rw [hrest] at h
        cases h
        obtain ⟨hplaces, hpatterns⟩ := ih hrest (i + 1)
        simp [hplaces, hpatterns, List.range'_succ]

/-- A group holds the patterns that are accepted, whether some are refused or not. -/
theorem ContextGroup.build_eq (context : Context) (anchors : Anchoring) :
    (ContextGroup.build engine context anchors).1 =
      ⟨⟨(acceptedFrom engine 0 (context.sources.map anchors.rewrite)).map (·.2)⟩,
        (acceptedFrom engine 0 (context.sources.map anchors.rewrite)).map (·.1)⟩ := by
  rw [build]
  dsimp only
  split
  · next group hgroup =>
    rw [PatternGroup.compile] at hgroup
    cases hall : PatternGroup.compileAll engine {} (context.sources.map anchors.rewrite) with
    | error refusal => rw [hall] at hgroup; cases hgroup
    | ok patterns =>
      rw [hall] at hgroup
      cases hgroup
      obtain ⟨hplaces, hpatterns⟩ := acceptedFrom_of_compileAll hall 0
      rw [hplaces, hpatterns, List.range_eq_range']
  · rfl

theorem PatternGroup.bounds_of_firstMatch {t : Subject} {start pos i k : Nat} {ps : List P}
    {m : Match} (h : firstMatch engine t start pos i ps = some (k, m)) :
    i ≤ k ∧ k < i + ps.length := by
  induction ps generalizing i with
  | nil => cases h
  | cons p rest ih =>
    rw [firstMatch] at h
    rw [List.length_cons]
    split at h
    · cases h; omega
    · have := ih h
      omega

/-- The first pattern that matches, with the number that goes with it. -/
theorem PatternGroup.firstMatch_map (t : Subject) (start pos : Nat) (l : List (Nat × P)) (i : Nat) :
    ((firstMatch engine t start pos i (l.map (·.2))).bind fun (k, m) =>
        ((l.map (·.1))[k - i]?).map fun a => (a, m)) =
      l.findSome? fun (a, p) => (engine.attempt p t start pos).map fun m => (a, m) := by
  induction l generalizing i with
  | nil => rfl
  | cons entry rest ih =>
    obtain ⟨a, p⟩ := entry
    rw [List.map_cons, firstMatch]
    cases hattempt : engine.attempt p t start pos with
    | some m => simp [hattempt]
    | none =>
      simp only [List.findSome?_cons, hattempt, Option.map_none, ← ih (i + 1)]
      cases hfirst : firstMatch engine t start pos (i + 1) (rest.map (·.2)) with
      | none => rfl
      | some found =>
        obtain ⟨k, m⟩ := found
        have hk : k - i = (k - (i + 1)) + 1 := by
          have := bounds_of_firstMatch hfirst
          omega
        simp [hk]

theorem firstHit_accepted (anchors : Anchoring) (t : Subject) (start pos : Nat)
    (sources : List String) (i : Nat) :
    ((acceptedFrom engine i (sources.map anchors.rewrite)).findSome? fun (a, p) =>
        (engine.attempt p t start pos).map fun m => (a, m)) =
      firstHit (fun s => engine.attemptSource (anchors.rewrite s) t start pos)
        ((sources.zipIdx i).map Prod.swap) := by
  induction sources generalizing i with
  | nil => rfl
  | cons source rest ih =>
    rw [List.map_cons, acceptedFrom, List.zipIdx_cons, List.map_cons, Prod.swap_prod_mk,
      firstHit_cons, ← ih (i + 1), Engine.attemptSource]
    cases engine.compile {} (anchors.rewrite source) with
    | error e => rfl
    | ok p =>
      dsimp only
      rw [List.findSome?_cons]
      cases engine.attempt p t start pos <;> rfl

/-- A group finds the place of the winner among the patterns of its context. -/
theorem ContextGroup.search_build_eq (context : Context) (anchors : Anchoring) (t : Subject)
    (start : Nat) :
    (ContextGroup.build engine context anchors).1.search engine t start =
      engine.winner anchors t start (context.sources.zipIdx.map Prod.swap) := by
  rw [build_eq]
  generalize haccepted : acceptedFrom engine 0 (context.sources.map anchors.rewrite) = accepted
  have hbind : ∀ g : ContextGroup P, g.search engine t start =
      (g.group.search engine t start).bind fun (k, m) =>
        (g.candidates[k]?).map fun a => (a, m) := by
    intro g
    rw [search]
    cases g.group.search engine t start <;> rfl
  rw [hbind, PatternGroup.search, Engine.winner]
  by_cases hend : t.length ≤ start
  · simp [hend]
  · simp only [hend, decide_false, Bool.or_false, if_false]
    simp only [← firstHit_accepted, haccepted]
    simp only [← PatternGroup.firstMatch_map t start _ accepted 0, Nat.sub_zero]
    rw [firstFrom_bind]
    · split
      · next hempty =>
        rw [PatternGroup.isEmpty, List.isEmpty_iff] at hempty
        dsimp only at hempty
        rw [hempty]
        cases hfirst : firstFrom (fun pos => PatternGroup.firstMatch engine t start pos 0 [])
          (t.length - start + 1) start with
        | none => rfl
        | some found =>
          obtain ⟨_, _, _, hfound⟩ := exists_of_firstFrom hfirst
          cases hfound
      · rfl
    · rintro pos ⟨k, m⟩ hfirst
      have := (PatternGroup.bounds_of_firstMatch hfirst).2
      simp at this
      simp [this]

def Context.answer (context : Context) (found : Option (Nat × Match)) :
    Option (Option Candidate × Match) :=
  found.map fun (i, m) => (context.candidate? i, m)

/-- A group finds the winner of its context. -/
theorem ContextGroup.search_build (context : Context) (anchors : Anchoring) (t : Subject)
    (start : Nat) :
    context.answer ((ContextGroup.build engine context anchors).1.search engine t start) =
      (engine.winner anchors t start context.entries).map fun (c, m) => (some c, m) := by
  -- both lists are read off one whose entries have the place and the candidate
  let both := context.entries.zipIdx.map fun ((c, source), i) => ((i, c), source)
  have hplaces : context.sources.zipIdx.map Prod.swap = both.map fun (a, s) => (a.1, s) := by
    simp only [both, Context.sources, List.zipIdx_map, List.map_map]
    rfl
  have hentries : context.entries = both.map fun (a, s) => (a.2, s) := by
    simp only [both, List.map_map]
    exact (List.zipIdx_map_fst 0 context.entries).symm
  rw [search_build_eq, hplaces, engine.winner_map]
  conv => rhs; rw [hentries, engine.winner_map]
  rw [Context.answer, Option.map_map, Option.map_map]
  cases hwinner : engine.winner anchors t start both with
  | none => rfl
  | some hit =>
    obtain ⟨⟨i, c⟩, m⟩ := hit
    obtain ⟨source, hmem⟩ := engine.mem_of_winner hwinner
    obtain ⟨⟨⟨c', source'⟩, i'⟩, hentry, heq⟩ := List.mem_map.1 hmem
    cases heq
    have hget := List.mem_zipIdx_iff_getElem?.1 hentry
    simp [Context.candidate?, hget]

end Accepted

/-! ## Anchors -/

namespace Anchoring

theorem mentionsAnchor_tail {c : Char} {cs : List Char} (h : mentionsAnchor (c :: cs) = false) :
    mentionsAnchor cs = false := by
  unfold mentionsAnchor at h
  split at h
  · next d rest heq =>
    cases heq
    simp at h
    exact h.2
  · next heq => cases heq; exact h
  · next heq => cases heq

/-- Where no anchor is written, nothing is replaced, so nothing is written. -/
theorem rewriteFrom_of_not_mentions (mode : Anchoring) (source : List Char) (i : Nat)
    {cs : List Char} (h : mentionsAnchor cs = false) : mode.rewriteFrom source i none cs = none := by
  generalize hnone : (none : Option String) = out
  fun_induction mode.rewriteFrom source i out cs with
  | case1 i out c rest hblocks =>
    simp [mentionsAnchor] at h
    simp [blocks, h.1] at hblocks
  | case2 i out c rest hblocks ih =>
    subst hnone
    exact ih (mentionsAnchor_tail (mentionsAnchor_tail h)) rfl
  | case3 i out c rest hne ih =>
    subst hnone
    exact ih (mentionsAnchor_tail h) rfl
  | case4 => rfl

theorem rewrite_of_not_mentions (mode : Anchoring) {source : String}
    (h : mentionsAnchor source.toList = false) : mode.rewrite source = source := by
  rw [rewrite, rewriteFrom_of_not_mentions mode _ _ h, Option.getD_none, ite_self]

end Anchoring

theorem Context.rewrite_source {context : Context} (h : context.usesAnchors = false)
    (mode : Anchoring) {source : String} (hmem : source ∈ context.sources) :
    mode.rewrite source = source := by
  rw [context.usesAnchors_eq, mentionAnchors, List.any_eq_false] at h
  obtain ⟨entry, hentry, rfl⟩ := List.mem_map.1 hmem
  exact mode.rewrite_of_not_mentions (by simpa using h entry hentry)

variable {P : Type} {engine : Engine P}

/-- Where no pattern has an anchor, one group serves for all anchors. -/
theorem ContextGroup.build_all {context : Context} (h : context.usesAnchors = false)
    (anchors : Anchoring) :
    ContextGroup.build engine context anchors = ContextGroup.build engine context .all := by
  have hrewrite : ∀ mode : Anchoring, context.sources.map mode.rewrite = context.sources :=
    fun mode => (List.map_congr_left fun _ => context.rewrite_source h mode).trans (List.map_id' _)
  rw [build, build, hrewrite anchors, hrewrite .all]

end ScopeGrammar
