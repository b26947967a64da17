import ScopeGrammar.Proofs.Session.Confinement

/-!
# ScopeGrammar.Proofs.Session.Nesting

The scopes of characters inside the groups of a match.

* `Grammar.scopedGroups` are the groups that get scopes, in the order of the table.
* `Cover.Tags` : one cover goes on from another one, and what is added gives each character the
  scopes of a function.
* `OpenGroups.closeUpTo_tags` : up to a position, each character gets the scopes of the innermost
  group that is open there. Groups may stay open longer than they reach.
* `SessionM.scopeGroups_nested` : where groups are nested or one behind the other, each character
  of a match gets the scopes of all groups around it.
-/

namespace ScopeGrammar

variable {P : Type}

/-! ## Groups with scopes -/

/-- A group of a match with the scopes of its capture. -/
structure ScopedGroup where
  start : Nat
  stop : Nat
  scopes : List Scope
  deriving DecidableEq

namespace ScopedGroup

def Contains (g : ScopedGroup) (x : Nat) : Prop := g.start ≤ x ∧ x < g.stop

instance (g : ScopedGroup) (x : Nat) : Decidable (g.Contains x) :=
  inferInstanceAs (Decidable (_ ∧ _))

/-- A group that does not start before another one, and is inside of it or after it. -/
def Follows (g h : ScopedGroup) : Prop :=
  g.start ≤ h.start ∧ (h.stop ≤ g.stop ∨ g.stop ≤ h.start)

instance (g h : ScopedGroup) : Decidable (g.Follows h) := inferInstanceAs (Decidable (_ ∧ _))

/-- Of groups that are nested or one behind the other, the ones around a character are nested. -/
theorem pairwise_around {groups : List ScopedGroup} (h : groups.Pairwise Follows) (x : Nat) :
    (groups.filter (·.Contains x)).Pairwise fun g h => g.start ≤ h.start ∧ h.stop ≤ g.stop := by
  refine (h.filter _).imp_of_mem fun {a b} ha hb hfollows => ?_
  have hstop : x < a.stop := (of_decide_eq_true (List.mem_filter.1 ha).2).2
  have hstart : b.start ≤ x := (of_decide_eq_true (List.mem_filter.1 hb).2).1
  obtain ⟨hle, hinside | hbehind⟩ := hfollows
  · exact ⟨hle, hinside⟩
  · omega

end ScopedGroup

/-- The scopes of all groups around a character, the first group first. -/
def scopesAround (groups : List ScopedGroup) (x : Nat) : List Scope :=
  (groups.filter (·.Contains x)).flatMap (·.scopes)

theorem scopesAround_cons (g : ScopedGroup) (rest : List ScopedGroup) (x : Nat) :
    scopesAround (g :: rest) x =
      (if g.Contains x then g.scopes else []) ++ scopesAround rest x := by
  by_cases h : g.Contains x <;> simp [scopesAround, h]

/-- No group is around a character before all of them. -/
theorem scopesAround_eq_nil {groups : List ScopedGroup} {x : Nat}
    (h : ∀ g ∈ groups, x < g.start) : scopesAround groups x = [] := by
  have hfilter : groups.filter (·.Contains x) = [] := by
    rw [List.filter_eq_nil_iff]
    intro g hg
    rw [decide_eq_true_eq]
    rintro ⟨hstart, _⟩
    have := h g hg
    omega
  rw [scopesAround, hfilter, List.flatMap_nil]

/-- The group of an entry of a capture table, if it took part, is not empty and has a capture. -/
def Grammar.scopedGroup? (grammar : Grammar) (m : Match) (e : Nat × CaptureId) :
    Option ScopedGroup :=
  (m.group? e.1).bind fun (start, stop) =>
    (grammar.capture? e.2).bind fun capture =>
      if start < stop then some ⟨start, stop, capture.scopes⟩ else none

/-- The groups of a match that get scopes, in the order of the entries. -/
def Grammar.scopedGroups (grammar : Grammar) (entries : List (Nat × CaptureId)) (m : Match) :
    List ScopedGroup := entries.filterMap (grammar.scopedGroup? m)

def Registry.scopedGroups (r : Registry) (id : GrammarId) (table : CaptureTable) (m : Match) :
    List ScopedGroup :=
  match r.grammar? id with
  | none => []
  | some grammar => grammar.scopedGroups table.entries m

/-- No capture of the table has rules of its own. -/
def Registry.WithoutRules (r : Registry) (id : GrammarId) (table : CaptureTable) : Prop :=
  ∀ grammar ∈ r.grammar? id, ∀ e ∈ table.entries, ∀ capture ∈ grammar.capture? e.2,
    capture.patterns = none

instance (r : Registry) (id : GrammarId) (table : CaptureTable) :
    Decidable (r.WithoutRules id table) :=
  inferInstanceAs (Decidable (∀ grammar ∈ r.grammar? id, ∀ e ∈ table.entries,
    ∀ capture ∈ grammar.capture? e.2, capture.patterns = none))

theorem Captured.scopedGroup?_eq (c : Captured) (i : Nat) (id : CaptureId) :
    c.grammar.scopedGroup? c.found (i, id) =
      (c.place? i id).map fun (capture, start, stop) => ⟨start, stop, capture.scopes⟩ := by
  rw [place?, Grammar.scopedGroup?]
  cases c.found.group? i with
  | none => rfl
  | some range =>
    obtain ⟨start, stop⟩ := range
    cases c.grammar.capture? id with
    | none => rfl
    | some capture =>
      by_cases h : start < stop
      · simp [h, Nat.not_le.2 h]
      · simp [h, Nat.not_lt.1 h]

/-! ## Covers -/

/-- Each character from the first to the last one is in a token. -/
theorem Tiles.exists_mem {a b x : Nat} {tokens : List Token} (h : Tiles a b tokens) (ha : a ≤ x)
    (hb : x < b) : ∃ t ∈ tokens, t.start ≤ x ∧ x < t.stop := by
  induction tokens generalizing a with
  | nil =>
    have hab : a = b := h
    omega
  | cons t rest ih =>
    obtain ⟨hstart, _, hrest⟩ := h
    by_cases hstop : x < t.stop
    · exact ⟨t, List.mem_cons_self, by omega, hstop⟩
    · obtain ⟨u, hu, hx⟩ := ih hrest (by omega)
      exact ⟨u, List.mem_cons_of_mem t hu, hx⟩

/-- What the second cover adds to the first one gives each character these scopes. -/
def Cover.Tags (c d : Cover) (f : Nat → List Scope) : Prop :=
  ∃ made, d.tokens.toList = c.tokens.toList ++ made ∧ Tiles c.reached d.reached made ∧
    ∀ t ∈ made, ∀ x, t.start ≤ x → x < t.stop → t.scopes = f x

namespace Cover.Tags

variable {c d e : Cover} {f g : Nat → List Scope}

theorem trans (h : c.Tags d f) (h' : d.Tags e f) : c.Tags e f := by
  obtain ⟨made, htokens, htiles, hscopes⟩ := h
  obtain ⟨made', htokens', htiles', hscopes'⟩ := h'
  refine ⟨made ++ made', by rw [htokens', htokens, List.append_assoc], htiles.append htiles', ?_⟩
  intro t ht
  obtain ht | ht := List.mem_append.1 ht
  · exact hscopes t ht
  · exact hscopes' t ht

/-- The scopes matter where something is added. -/
theorem congr (h : c.Tags d f) (hfg : ∀ x, c.reached ≤ x → x < d.reached → f x = g x) :
    c.Tags d g := by
  obtain ⟨made, htokens, htiles, hscopes⟩ := h
  refine ⟨made, htokens, htiles, fun t ht x hstart hstop => ?_⟩
  have hfirst := htiles.le_start t ht
  have hlast := (htiles.forall_stop_le_iff htiles.le).2 (Nat.le_refl _) t ht
  rw [← hfg x (by omega) (by omega)]
  exact hscopes t ht x hstart hstop

theorem extend (c : Cover) (stop : Nat) {scopes : List Scope}
    (h : ∀ x, c.reached ≤ x → x < stop → scopes = f x) : c.Tags (c.extend stop scopes) f := by
  unfold Cover.extend
  split
  · exact ⟨[], by simp, rfl, nofun⟩
  · next hlt =>
    refine ⟨[⟨c.reached, stop, scopes⟩], by simp, ⟨rfl, Nat.not_le.1 hlt, rfl⟩, ?_⟩
    intro t ht x hstart hstop
    rw [List.mem_singleton] at ht
    subst ht
    exact h x hstart hstop

theorem scopesAt (h : c.Tags d f) :
    ∃ made, d.tokens.toList = c.tokens.toList ++ made ∧ Tiles c.reached d.reached made ∧
      ∀ x, c.reached ≤ x → x < d.reached → ScopesAt made x (f x) := by
  obtain ⟨made, htokens, htiles, hscopes⟩ := h
  refine ⟨made, htokens, htiles, fun x hstart hstop => ?_⟩
  obtain ⟨t, ht, hbefore, hbehind⟩ := htiles.exists_mem hstart hstop
  exact ⟨t, ht, hbefore, hbehind, hscopes t ht x hbefore hbehind⟩

end Cover.Tags

/-! ## Open groups -/

namespace OpenGroups

/-- The scopes inside the innermost group that ends behind a position. -/
def scopesAt (groups : OpenGroups) (base : List Scope) (x : Nat) : List Scope :=
  scopes (groups.dropWhile (·.2 ≤ x)) base

variable {groups : OpenGroups} {base : List Scope} {pos x : Nat}

theorem closeUpTo_fst (pos : Nat) (groups : OpenGroups) (cover : Cover) :
    (groups.closeUpTo pos cover).1 = groups.dropWhile (·.2 ≤ pos) := by
  induction groups generalizing cover with
  | nil => rfl
  | cons g rest ih =>
    obtain ⟨scopes, stop⟩ := g
    rw [closeUpTo, List.dropWhile_cons]
    by_cases hstop : stop ≤ pos
    · simp only [hstop, if_true, decide_true]
      exact ih _
    · simp only [hstop, if_false, decide_false, Bool.false_eq_true]

theorem closeUpTo_of_le {stop : Nat} (h : ∀ g ∈ groups, g.2 ≤ stop) (cover : Cover) :
    groups.closeUpTo stop cover = ([], groups.closeAll cover) := by
  induction groups generalizing cover with
  | nil => rfl
  | cons g rest ih =>
    rw [List.forall_mem_cons] at h
    rw [closeUpTo, if_pos h.1]
    exact ih h.2 _

theorem scopesAt_cons_of_lt {scopes : List Scope} {stop : Nat} (h : x < stop) :
    scopesAt ((scopes, stop) :: groups) base x = scopes := by
  rw [scopesAt, List.dropWhile_cons_of_neg (by simpa using h)]
  rfl

theorem scopesAt_cons_of_le {scopes : List Scope} {stop : Nat} (h : stop ≤ x) :
    scopesAt ((scopes, stop) :: groups) base x = groups.scopesAt base x := by
  rw [scopesAt, List.dropWhile_cons_of_pos (by simpa using h)]
  rfl

/-- Where no group ends, all characters have the scopes of the first one. -/
theorem scopesAt_eq {start stop : Nat} (h : ∀ g ∈ groups, stop ≤ g.2 ∨ g.2 ≤ start)
    (hstart : start ≤ x) (hstop : x < stop) : groups.scopesAt base x = groups.scopesAt base start := by
  induction groups with
  | nil => rfl
  | cons g rest ih =>
    obtain ⟨scopes, last⟩ := g
    rw [List.forall_mem_cons] at h
    obtain hlast | hlast := h.1
    · rw [scopesAt_cons_of_lt (by omega), scopesAt_cons_of_lt (by omega)]
    · rw [scopesAt_cons_of_le (by omega), scopesAt_cons_of_le hlast, ih h.2]

/-- Groups that end at or before a position do not matter from there on. -/
theorem scopesAt_closeUpTo (hx : pos ≤ x) (cover : Cover) :
    (groups.closeUpTo pos cover).1.scopesAt base x = groups.scopesAt base x := by
  induction groups generalizing cover with
  | nil => rfl
  | cons g rest ih =>
    obtain ⟨scopes, stop⟩ := g
    rw [closeUpTo]
    split
    · rw [ih, scopesAt_cons_of_le (by omega)]
    · rfl

theorem closeUpTo_reached_le (pos : Nat) (groups : OpenGroups) (cover : Cover) :
    (groups.closeUpTo pos cover).2.reached ≤ max cover.reached pos := by
  induction groups generalizing cover with
  | nil => exact Nat.le_max_left ..
  | cons g rest ih =>
    obtain ⟨scopes, stop⟩ := g
    rw [closeUpTo]
    split
    · have := ih (cover.extend stop scopes)
      rw [Cover.reached_extend] at this
      omega
    · exact Nat.le_max_left ..

/-- Up to a position, each character gets the scopes of the innermost group that is open there. -/
theorem closeUpTo_tags (pos : Nat) (groups : OpenGroups) (base : List Scope) (cover : Cover) :
    let closed := groups.closeUpTo pos cover
    cover.Tags (closed.2.extend pos (closed.1.scopes base)) (groups.scopesAt base) := by
  induction groups generalizing cover with
  | nil => exact .extend cover pos fun _ _ _ => rfl
  | cons g rest ih =>
    obtain ⟨scopes, stop⟩ := g
    rw [closeUpTo]
    split
    · have hfirst : cover.Tags (cover.extend stop scopes)
          (OpenGroups.scopesAt ((scopes, stop) :: rest) base) :=
        .extend cover stop fun x _ hx => (scopesAt_cons_of_lt hx).symm
      refine hfirst.trans ((ih _).congr fun x hx _ => ?_)
      rw [Cover.reached_extend] at hx
      rw [scopesAt_cons_of_le (by omega)]
    · exact .extend cover pos fun x _ hx => (scopesAt_cons_of_lt (by omega)).symm

/-- The scopes of a group are added to those of the innermost group around it. From its end on,
everything is as if it had not been there. -/
theorem scopesAt_push {g : ScopedGroup} (hnested : ∀ o ∈ groups, g.stop ≤ o.2 ∨ o.2 ≤ g.start)
    (hx : g.start ≤ x) (cover : Cover) :
    let closed := groups.closeUpTo g.start cover
    scopesAt ((closed.1.scopes base ++ g.scopes, g.stop) :: closed.1) base x =
      groups.scopesAt base x ++ if g.Contains x then g.scopes else [] := by
  dsimp only
  have houter : (groups.closeUpTo g.start cover).1.scopes base = groups.scopesAt base g.start := by
    rw [closeUpTo_fst, scopesAt]
  by_cases hstop : x < g.stop
  · rw [scopesAt_cons_of_lt hstop, if_pos ⟨hx, hstop⟩, houter, scopesAt_eq hnested hx hstop]
  · rw [scopesAt_cons_of_le (by omega), scopesAt_closeUpTo hx, if_neg (fun h => hstop h.2),
      List.append_nil]

/-- Groups that are to be opened when a cover ends where the first of them starts, or before. Each
one is inside the open groups that do not end before it. -/
structure Fits (groups : OpenGroups) (cover : Cover) (last : Nat) (rest : List ScopedGroup) :
    Prop where
  open_le : ∀ o ∈ groups, o.2 ≤ last
  reached_le : ∀ g ∈ rest, cover.reached ≤ g.start
  stop_le : ∀ g ∈ rest, g.stop ≤ last
  nested : ∀ g ∈ rest, ∀ o ∈ groups, g.stop ≤ o.2 ∨ o.2 ≤ g.start
  follows : rest.Pairwise ScopedGroup.Follows

/-- When a group is opened, the ones that follow are inside it or begin behind it. -/
theorem Fits.push {cover : Cover} {last : Nat} {g : ScopedGroup} {rest : List ScopedGroup}
    (h : groups.Fits cover last (g :: rest)) (outer scopes : List Scope) :
    let closed := groups.closeUpTo g.start cover
    Fits ((scopes, g.stop) :: closed.1) (closed.2.extend g.start outer) last rest := by
  obtain ⟨hopen, hreached, hstop, hnested, hfollows⟩ := h
  rw [List.forall_mem_cons] at hreached hstop hnested
  rw [List.pairwise_cons] at hfollows
  have hclosed : ∀ o ∈ (groups.closeUpTo g.start cover).1, o ∈ groups :=
    fun o ho => (closeUpTo_suffix g.start groups cover).subset ho
  have hcover := closeUpTo_reached_le g.start groups cover
  refine ⟨?_, ?_, hstop.2, ?_, hfollows.2⟩
  · rw [List.forall_mem_cons]
    exact ⟨hstop.1, fun o ho => hopen o (hclosed o ho)⟩
  · intro g' hg'
    have hafter := (hfollows.1 g' hg').1
    have hfirst := hreached.1
    rw [Cover.reached_extend]
    omega
  · intro g' hg'
    rw [List.forall_mem_cons]
    exact ⟨(hfollows.1 g' hg').2, fun o ho => hnested.2 g' hg' o (hclosed o ho)⟩

/-- Up to the start of a group nothing but the open groups is around a character. -/
theorem Fits.tags_start {cover : Cover} {last : Nat} {g : ScopedGroup} {rest : List ScopedGroup}
    (h : groups.Fits cover last (g :: rest)) (base : List Scope) :
    let closed := groups.closeUpTo g.start cover
    cover.Tags (closed.2.extend g.start (closed.1.scopes base))
      fun x => groups.scopesAt base x ++ scopesAround (g :: rest) x := by
  refine (groups.closeUpTo_tags g.start base cover).congr fun x _ hx => ?_
  have hreached := h.reached_le g List.mem_cons_self
  have hcover := closeUpTo_reached_le g.start groups cover
  rw [Cover.reached_extend] at hx
  have hbefore : ∀ g' ∈ g :: rest, x < g'.start := by
    have hfollows := (List.pairwise_cons.1 h.follows).1
    rw [List.forall_mem_cons]
    refine ⟨by omega, fun g' hg' => ?_⟩
    have := (hfollows g' hg').1
    omega
  rw [scopesAround_eq_nil hbefore, List.append_nil]

end OpenGroups

/-! ## Entries -/

namespace Captured

variable {c : Captured}

theorem scopedGroups_cons_none {i : Nat} {id : CaptureId} {rest : List (Nat × CaptureId)}
    (h : c.place? i id = none) :
    c.grammar.scopedGroups ((i, id) :: rest) c.found = c.grammar.scopedGroups rest c.found := by
  rw [Grammar.scopedGroups, List.filterMap_cons_none (by rw [scopedGroup?_eq, h, Option.map_none])]
  rfl

theorem scopedGroups_cons_some {i start stop : Nat} {id : CaptureId} {capture : Capture}
    {rest : List (Nat × CaptureId)} (h : c.place? i id = some (capture, start, stop)) :
    c.grammar.scopedGroups ((i, id) :: rest) c.found =
      ⟨start, stop, capture.scopes⟩ :: c.grammar.scopedGroups rest c.found := by
  rw [Grammar.scopedGroups, List.filterMap_cons_some (by rw [scopedGroup?_eq, h, Option.map_some])]
  rfl

/-- Each character gets the scopes of the innermost group that is open there, and of the groups
around it that follow. -/
theorem scopeEntries_tags (c : Captured) (scan : Option (Scanner P)) {last : Nat}
    {entries : List (Nat × CaptureId)} {groups : OpenGroups} {cover : Cover}
    (h : groups.Fits cover last (c.grammar.scopedGroups entries c.found))
    (hrules : ∀ e ∈ entries, ∀ capture ∈ c.grammar.capture? e.2, capture.patterns = none)
    (s : Session P) :
    let result := ((c.scopeEntries scan entries groups cover).run s).1
    result.reached ≤ max cover.reached last ∧
      cover.Tags (result.extend last c.scopes) fun x => groups.scopesAt c.scopes x ++
        scopesAround (c.grammar.scopedGroups entries c.found) x := by
  induction entries generalizing groups cover with
  | nil =>
    have hdone := groups.closeUpTo_tags last c.scopes cover
    rw [OpenGroups.closeUpTo_of_le h.open_le] at hdone
    refine ⟨?_, hdone.congr fun x _ _ => (List.append_nil _).symm⟩
    exact (groups.closeAll_reached_le_iff _ cover).2
      ⟨Nat.le_max_left .., fun g hg => Nat.le_trans (h.open_le g hg) (Nat.le_max_right ..)⟩
  | cons entry rest ih =>
    obtain ⟨i, id⟩ := entry
    rw [List.forall_mem_cons] at hrules
    rw [run_scopeEntries_cons]
    cases hplace : c.place? i id with
    | none =>
      rw [scopedGroups_cons_none hplace] at h ⊢
      exact ih h hrules.2
    | some place =>
      obtain ⟨capture, start, stop⟩ := place
      have hpatterns := hrules.1 capture (place?_eq_some.1 hplace).2.1
      rw [scopedGroups_cons_some hplace] at h ⊢
      let g : ScopedGroup := ⟨start, stop, capture.scopes⟩
      let closed := groups.closeUpTo start cover
      let outer := closed.1.scopes c.scopes
      have hstart := h.tags_start c.scopes
      obtain ⟨hreached, hrest⟩ := ih (h.push outer (outer ++ capture.scopes)) hrules.2
      dsimp only
      rw [hpatterns]
      refine ⟨Nat.le_trans hreached ?_, hstart.trans (hrest.congr fun x hx _ => ?_)⟩
      · have hstop : start < last :=
          Nat.lt_of_lt_of_le (place?_eq_some.1 hplace).2.2 (h.stop_le g List.mem_cons_self)
        have hclosed : closed.2.reached ≤ max cover.reached start :=
          OpenGroups.closeUpTo_reached_le start groups cover
        rw [Cover.reached_extend]
        show max (max closed.2.reached start) last ≤ max cover.reached last
        omega
      · have hx' : start ≤ x := Nat.le_trans (Cover.le_reached_extend ..) hx
        rw [scopesAround_cons, ← List.append_assoc]
        exact congrArg (· ++ _)
          (OpenGroups.scopesAt_push (h.nested g List.mem_cons_self) hx' cover)

end Captured

/-- Where the groups of a match are nested or one behind the other, each character of the match
gets the scopes of the match and of all groups around it, the outermost group first. -/
theorem SessionM.scopeGroups_nested (scan : Option (Scanner P)) (text : Subject)
    (spans : OpenSpans) (scopes : List Scope) (grammarId : GrammarId) (table : CaptureTable)
    (found : Match) (firstLine : Bool) (cover : Cover) (s : Session P)
    (hreached : cover.reached = found.start)
    (hrules : s.registry.WithoutRules grammarId table)
    (hinside : ∀ g ∈ s.registry.scopedGroups grammarId table found,
      found.start ≤ g.start ∧ g.stop ≤ found.stop)
    (hfollows : (s.registry.scopedGroups grammarId table found).Pairwise ScopedGroup.Follows) :
    let groups := s.registry.scopedGroups grammarId table found
    let result := ((scopeGroups scan text spans scopes grammarId table found firstLine cover).run
      s).1.extend found.stop scopes
    ∃ made, result.tokens.toList = cover.tokens.toList ++ made ∧
      Tiles found.start (max found.start found.stop) made ∧
      ∀ x, found.start ≤ x → x < found.stop →
        ScopesAt made x (scopes ++ scopesAround groups x) ∧
        (groups.filter (·.Contains x)).Pairwise fun g h => g.start ≤ h.start ∧ h.stop ≤ g.stop := by
  have hresult :
      let result := ((scopeGroups scan text spans scopes grammarId table found firstLine cover).run
        s).1
      result.reached ≤ max found.start found.stop ∧
        cover.Tags (result.extend found.stop scopes)
          fun x => scopes ++ scopesAround (s.registry.scopedGroups grammarId table found) x := by
    rw [run_scopeGroups]
    rw [Registry.scopedGroups] at hinside hfollows ⊢
    cases hgrammar : s.registry.grammar? grammarId with
    | none =>
      refine ⟨by dsimp only; omega, .extend cover found.stop fun x _ _ => ?_⟩
      exact (List.append_nil scopes).symm
    | some grammar =>
      rw [hgrammar] at hinside hfollows
      let c : Captured := { grammarId, grammar, found, text, spans, scopes, firstLine }
      have hfits : OpenGroups.Fits [] cover found.stop (grammar.scopedGroups table.entries found) :=
        { open_le := nofun
          reached_le := fun g hg => hreached ▸ (hinside g hg).1
          stop_le := fun g hg => (hinside g hg).2
          nested := fun _ _ => nofun
          follows := hfollows }
      rw [← hreached]
      exact c.scopeEntries_tags scan hfits (hrules grammar hgrammar) s
  obtain ⟨hle, htags⟩ := hresult
  obtain ⟨made, htokens, htiles, hscopes⟩ := htags.scopesAt
  have hend : (((scopeGroups scan text spans scopes grammarId table found firstLine cover).run
      s).1.extend found.stop scopes).reached = max found.start found.stop := by
    have hstart := htiles.le
    rw [Cover.reached_extend] at hstart ⊢
    omega
  rw [hend, hreached] at htiles hscopes
  refine ⟨made, htokens, htiles, fun x hstart hstop => ⟨?_, ?_⟩⟩
  · exact hscopes x hstart (by omega)
  · exact ScopedGroup.pairwise_around hfollows x

/-! ### Groups with the same start or the same end -/

/-- A grammar with a rule for `((a)(b))c(d)`. The match and all groups get scopes. -/
def groupedRule : Grammar :=
  { name := "", scopeName := "s", scope := ⟨"s"⟩, fileTypes := [], patterns := #["((a)(b))c(d)"]
    rules := #[.single ⟨[], ⟨0⟩, ⟨5, [(0, ⟨0⟩), (1, ⟨1⟩), (2, ⟨2⟩), (3, ⟨3⟩), (4, ⟨4⟩)]⟩⟩]
    lists := #[[.rule ⟨0⟩]]
    captures := #[⟨[⟨"m"⟩], none⟩, ⟨[⟨"ab"⟩], none⟩, ⟨[⟨"a"⟩], none⟩, ⟨[⟨"b"⟩], none⟩,
      ⟨[⟨"d"⟩], none⟩]
    repositories := #[], root := ⟨0⟩, skipped := [] }

def groupedTable : CaptureTable := ⟨5, [(0, ⟨0⟩), (1, ⟨1⟩), (2, ⟨2⟩), (3, ⟨3⟩), (4, ⟨4⟩)]⟩

/-- The groups of the rule in `abcd`. -/
def groupedMatch : Match :=
  ⟨0, 4, [some (0, 4), some (0, 2), some (0, 1), some (1, 2), some (3, 4)]⟩

def groupedSession : Session Regex :=
  let ((tokenizer, notices), registry) :=
    Tokenizer.start (Registry.empty.add groupedRule).2 ⟨0⟩ {}
  { registry, tokenizer, notices }

/-- The `a` and the group around it start where the match does, the `b` and that group have the same
end. The `c` is in no group. -/
theorem scopeGroups_nested_sharedEnds :
    let groups := groupedSession.registry.scopedGroups ⟨0⟩ groupedTable groupedMatch
    groupedSession.registry.WithoutRules ⟨0⟩ groupedTable ∧ groups.Pairwise ScopedGroup.Follows ∧
    ∃ made, Tiles 0 4 made ∧ ScopesAt made 0 [⟨"s"⟩, ⟨"m"⟩, ⟨"ab"⟩, ⟨"a"⟩] ∧
      ScopesAt made 1 [⟨"s"⟩, ⟨"m"⟩, ⟨"ab"⟩, ⟨"b"⟩] ∧ ScopesAt made 2 [⟨"s"⟩, ⟨"m"⟩] ∧
      ScopesAt made 3 [⟨"s"⟩, ⟨"m"⟩, ⟨"d"⟩] := by
  have hrules : groupedSession.registry.WithoutRules ⟨0⟩ groupedTable := by decide
  have hfollows : (groupedSession.registry.scopedGroups ⟨0⟩ groupedTable groupedMatch).Pairwise
      ScopedGroup.Follows := by decide
  obtain ⟨made, _, htiles, hscopes⟩ := SessionM.scopeGroups_nested none (.ofLine "abcd") .fresh
    [⟨"s"⟩] ⟨0⟩ groupedTable groupedMatch true (.startingAt 0) groupedSession rfl hrules
    (by decide) hfollows
  exact ⟨hrules, hfollows, made, htiles, (hscopes 0 (by decide) (by decide)).1,
    (hscopes 1 (by decide) (by decide)).1, (hscopes 2 (by decide) (by decide)).1,
    (hscopes 3 (by decide) (by decide)).1⟩

end ScopeGrammar
