import ScopeGrammar.Proofs.Grammar.Sources
import ScopeGrammar.Proofs.Registry.Expansion

/-!
# ScopeGrammar.Proofs.Grammar.References

A compiled grammar has all it refers to.

* `Part.refs` : the numbers that are stored in a part, `Grammar.Has` : a number is that of a part.
* `Rule.Compiles` : the patterns of a rule are accepted, and it is known whether the closing one is
  to be filled in.
* `Builder.Sound` : all that was added so far is in order, `Build.Secures` : a step leaves it so.
  Every step of compiling does (`RuleSource.secures`); includes are noted, and looked up at the end.
* `Grammar.ofSource_refers` puts this together for grammars that are accepted.
* `Grammar.ofSource_refers_not` has what does not hold: that a closing pattern is filled in only if
  the engine reads a reference in it, and that patterns are accepted however many there are.

Numbers may wrap, so nothing is said here of what a number stands for, as long as that is of the
right kind. Only the patterns of rules need numbers that are given once.
-/

namespace ScopeGrammar

open Build

variable {validate : Validator}

/-! ## Back-references -/

namespace Pattern

/-- Whole escape pairs and characters that are no backslash. -/
inductive Pairs : List Char → Prop
  | nil : Pairs []
  | plain {c : Char} {rest : List Char} : c ≠ '\\' → Pairs rest → Pairs (c :: rest)
  | pair {c : Char} {rest : List Char} : Pairs rest → Pairs ('\\' :: c :: rest)

/-- A backslash that is not itself escaped stands before a digit from `1` to `9`. -/
def RefersToGroup (cs : List Char) : Prop :=
  ∃ before digit behind, cs = before ++ '\\' :: digit :: behind ∧ Pairs before ∧
    '1' ≤ digit ∧ digit ≤ '9'

theorem hasBackreferencesIn_iff (cs : List Char) :
    hasBackreferencesIn cs = true ↔ RefersToGroup cs := by
  have hdigit : ∀ c, (groupDigit? c).isSome = true ↔ '1' ≤ c ∧ c ≤ '9' := by
    intro c
    unfold groupDigit?
    split <;> simp_all
  fun_induction hasBackreferencesIn cs with
  | case1 c rest ih =>
    rw [Bool.or_eq_true, hdigit]
    refine (or_congr_right ih).trans ?_
    constructor
    · rintro (h | ⟨before, digit, behind, rfl, hbefore, h⟩)
      · exact ⟨[], c, rest, rfl, .nil, h⟩
      · exact ⟨'\\' :: c :: before, digit, behind, rfl, .pair hbefore, h⟩
    · rintro ⟨before, digit, behind, heq, hbefore, h⟩
      cases hbefore with
      | nil =>
        cases heq
        exact .inl h
      | plain hne _ =>
        rw [List.cons_append, List.cons.injEq] at heq
        exact absurd heq.1.symm hne
      | pair hrest =>
        simp only [List.cons_append, List.cons.injEq] at heq
        obtain ⟨_, rfl, rfl⟩ := heq
        exact .inr ⟨_, digit, behind, rfl, hrest, h⟩
  | case2 c rest hno ih =>
    refine ih.trans ?_
    constructor
    · rintro ⟨before, digit, behind, rfl, hbefore, h⟩
      have hc : c ≠ '\\' := by
        rintro rfl
        cases before with
        | nil => exact hno '\\' (digit :: behind) rfl rfl
        | cons d more => exact hno d (more ++ '\\' :: digit :: behind) rfl rfl
      exact ⟨c :: before, digit, behind, rfl, .plain hc hbefore, h⟩
    · rintro ⟨before, digit, behind, heq, hbefore, h⟩
      cases hbefore with
      | nil =>
        cases heq
        exact absurd rfl (hno _ _ rfl)
      | plain _ hrest =>
        rw [List.cons_append, List.cons.injEq] at heq
        obtain ⟨rfl, rfl⟩ := heq
        exact ⟨_, digit, behind, rfl, hrest, h⟩
      | pair _ =>
        simp only [List.cons_append, List.cons.injEq] at heq
        exact absurd heq.2 (hno _ _ heq.1)
  | case3 =>
    constructor
    · intro h
      cases h
    · rintro ⟨before, digit, behind, heq, _⟩
      simp at heq

end Pattern

/-! ## What a part refers to -/

def CaptureTable.refs (t : CaptureTable) : List PartId := t.entries.map (·.2.part)

def RepositoryChain.refs (c : RepositoryChain) : List PartId := c.ids.map (·.part)

def ListItem.refs : ListItem → List PartId
  | .rule id => [id.part]
  | .list id => [id.part]
  | .linked i => i.repositories.refs

def Rule.refs : Rule → List PartId
  | .single m => m.pattern.part :: m.captures.refs
  | .span s =>
    [s.opening.part, s.closePattern.part, s.patterns.part] ++ s.openingCaptures.refs ++
      s.closeCaptures.refs

/-- All numbers that are stored in a part. -/
def Part.refs : Part → List PartId
  | .pattern _ => []
  | .rule r => r.refs
  | .list items => items.flatMap ListItem.refs
  | .capture c => (c.patterns.map ListId.part).toList
  | .repository entries => entries.map (·.2.part)

/-- The includes in a list of rules. -/
def Part.includes : Part → List Include
  | .list items => items.filterMap fun
    | .linked i => some i
    | _ => none
  | _ => []

/-- The number is that of a part. -/
def Grammar.Has (g : Grammar) (n : PartId) : Prop := n.index < g.count n.kind

def Grammar.HasAll (g : Grammar) (ns : List PartId) : Prop := ∀ n ∈ ns, g.Has n

/-- The patterns of the rule are accepted, but for a closing one that is filled in before use. -/
def Rule.Compiles (validate : Validator) (g : Grammar) : Rule → Prop
  | .single m => validate (g.pattern m.pattern) = .ok ()
  | .span s =>
    validate (g.pattern s.opening) = .ok () ∧
    (s.fillsEnding = true ↔ Pattern.RefersToGroup (g.pattern s.closePattern).toList) ∧
    (s.fillsEnding = false → validate (g.pattern s.closePattern) = .ok ())

/-! ## Builders in order -/

/-- Patterns, parts and noted includes are added, and none is lost. -/
structure Builder.Extends (b c : Builder) : Prop where
  count_le : ∀ k, b.grammar.count k ≤ c.grammar.count k
  patterns : b.grammar.patterns.toList <+: c.grammar.patterns.toList
  localIncludes : b.localIncludes ⊆ c.localIncludes

namespace Builder.Extends

variable {b c d : Builder}

theorem refl (b : Builder) : b.Extends b :=
  ⟨fun _ => Nat.le_refl _, List.prefix_rfl, List.Subset.refl _⟩

theorem trans (h : b.Extends c) (h' : c.Extends d) : b.Extends d :=
  ⟨fun k => Nat.le_trans (h.count_le k) (h'.count_le k), h.patterns.trans h'.patterns,
    List.Subset.trans h.localIncludes h'.localIncludes⟩

theorem add (b : Builder) (p : Part) : b.Extends (b.add p) := by
  refine ⟨fun k => ?_, ?_, ?_⟩
  · rw [Builder.add, Grammar.count_addPart]
    omega
  · cases p <;> simp [Builder.add, Grammar.addPart]
  · exact List.Subset.refl _

theorem has (h : b.Extends c) {n : PartId} (hn : b.grammar.Has n) : c.grammar.Has n :=
  Nat.lt_of_lt_of_le hn (h.count_le _)

theorem hasAll (h : b.Extends c) {ns : List PartId} (hns : b.grammar.HasAll ns) :
    c.grammar.HasAll ns := fun n hn => h.has (hns n hn)

theorem size_le (h : b.Extends c) : b.grammar.patterns.size ≤ c.grammar.patterns.size :=
  h.count_le .pattern

theorem pattern (h : b.Extends c) {id : PatternId} (hid : b.grammar.Has id.part) :
    c.grammar.pattern id = b.grammar.pattern id := by
  have hlt : id.index < b.grammar.patterns.toList.length := hid
  have hget := List.prefix_iff_getElem?.1 h.patterns id.index hlt
  rw [← List.getElem?_eq_getElem hlt, Array.getElem?_toList, Array.getElem?_toList] at hget
  simp only [Grammar.pattern, Array.getD_eq_getD_getElem?, hget]

end Builder.Extends

theorem Rule.Compiles.mono {b c : Builder} {rule : Rule} (h : rule.Compiles validate b.grammar)
    (hrefs : b.grammar.HasAll rule.refs) (hbc : b.Extends c) :
    rule.Compiles validate c.grammar := by
  cases rule with
  | single m =>
    rw [Compiles, hbc.pattern (hrefs _ (by simp [refs]))]
    exact h
  | span s =>
    rw [Compiles, hbc.pattern (hrefs _ (by simp [refs])), hbc.pattern (hrefs _ (by simp [refs]))]
    exact h

/-- All numbers in a part are those of parts, its includes of entries are noted, and its patterns
are accepted. -/
structure Part.SoundIn (validate : Validator) (b : Builder) (p : Part) : Prop where
  refs : b.grammar.HasAll p.refs
  includes : ∀ i ∈ p.includes, ∀ name, i.target = .entry name →
    ∃ l ∈ b.localIncludes, l.name = name ∧ l.repositories = i.repositories
  compiles : b.grammar.patterns.size ≤ 2 ^ 32 → ∀ rule, p = .rule rule →
    rule.Compiles validate b.grammar

namespace Part.SoundIn

variable {b c : Builder} {p : Part}

theorem mono (h : p.SoundIn validate b) (hbc : b.Extends c) : p.SoundIn validate c := by
  refine ⟨hbc.hasAll h.refs, fun i hi name hname => ?_, ?_⟩
  · obtain ⟨l, hl, heq⟩ := h.includes i hi name hname
    exact ⟨l, hbc.localIncludes hl, heq⟩
  · rintro hsize rule rfl
    exact (h.compiles (Nat.le_trans hbc.size_le hsize) rule rfl).mono h.refs hbc

theorem of_refs (hrefs : b.grammar.HasAll p.refs) (hincludes : p.includes = [])
    (hrule : ∀ rule, p ≠ .rule rule) : p.SoundIn validate b where
  refs := hrefs
  includes i hi := by
    rw [hincludes] at hi
    cases hi
  compiles _ rule h := absurd h (hrule rule)

theorem pattern (source : String) : (Part.pattern source).SoundIn validate b :=
  .of_refs nofun rfl nofun

theorem nil : (Part.list []).SoundIn validate b := .of_refs nofun rfl nofun

theorem append {items more : List ListItem} (h : (Part.list items).SoundIn validate b)
    (hmore : (Part.list more).SoundIn validate b) :
    (Part.list (items ++ more)).SoundIn validate b := by
  refine ⟨fun n hn => ?_, fun i hi name hname => ?_, nofun⟩
  · rw [Part.refs, List.flatMap_append, List.mem_append] at hn
    exact hn.elim (h.refs n) (hmore.refs n)
  · rw [Part.includes, List.filterMap_append, List.mem_append] at hi
    exact hi.elim (fun hi => h.includes i hi name hname) fun hi => hmore.includes i hi name hname

theorem rule {id : RuleId} (h : b.grammar.Has id.part) :
    (Part.list [.rule id]).SoundIn validate b := by
  refine .of_refs (fun n hn => ?_) rfl nofun
  obtain rfl : n = id.part := by simpa [Part.refs, ListItem.refs] using hn
  exact h

theorem list {id : ListId} (h : b.grammar.Has id.part) :
    (Part.list [.list id]).SoundIn validate b := by
  refine .of_refs (fun n hn => ?_) rfl nofun
  obtain rfl : n = id.part := by simpa [Part.refs, ListItem.refs] using hn
  exact h

end Part.SoundIn

/-- All that was added so far is in order. -/
def Builder.Sound (validate : Validator) (b : Builder) : Prop :=
  ∀ n p, b.grammar.part? n = some p → p.SoundIn validate b

/-- What is there in the end is what was there, with more around it. -/
theorem Builder.Sound.of_extends {b c : Builder} (h : b.Sound validate) (hbc : b.Extends c)
    (hparts : ∀ n p, c.grammar.part? n = some p → b.grammar.part? n = some p ∨
      p.SoundIn validate c) : c.Sound validate := fun n p hp =>
  (hparts n p hp).elim (fun hold => (h n p hold).mono hbc) id

theorem Builder.Sound.add {b : Builder} (h : b.Sound validate) {p : Part}
    (hp : p.SoundIn validate b) : (b.add p).Sound validate := by
  refine h.of_extends (.add b p) fun n q hq => ?_
  rw [Builder.add, Grammar.part?_addPart] at hq
  split at hq
  · cases hq
    exact .inr (hp.mono (.add b p))
  · exact .inl hq

/-- The entries of a repository are filled in. -/
theorem Builder.Sound.withRepository {b : Builder} (h : b.Sound validate) (id : RepositoryId)
    {entries : List (String × ListId)} (hentries : b.grammar.HasAll (entries.map (·.2.part))) :
    let c : Builder := { b with grammar := b.grammar.withRepository id entries }
    c.Sound validate ∧ b.Extends c := by
  intro c
  have hbc : b.Extends c :=
    ⟨fun k => Nat.le_of_eq (Grammar.count_withRepository id entries k).symm, List.prefix_rfl,
      List.Subset.refl _⟩
  refine ⟨h.of_extends hbc fun n p hp => ?_, hbc⟩
  by_cases hn : n = id.part
  · subst hn
    have hlt : id.index < b.grammar.count .repository := by
      rw [← Grammar.count_withRepository id entries]
      exact Grammar.lt_count_of_part? hp
    have hfilled : c.grammar.part? id.part = some (.repository entries) :=
      Grammar.part?_withRepository_self hlt entries
    rw [hfilled] at hp
    cases hp
    exact .inr (.of_refs (hbc.hasAll hentries) rfl nofun)
  · have hsame : c.grammar.part? n = b.grammar.part? n :=
      Grammar.part?_withRepository_of_ne hn entries
    exact .inl (hsame ▸ hp)

/-! ## Steps that leave a builder in order -/

namespace Build

variable {α β : Type} {b : Builder}

/-- Where all is in order the step adds what is in order too, and its answer is as wanted. -/
def Secures (validate : Validator) (m : Build α) (b : Builder) (Q : α → Builder → Prop) : Prop :=
  b.Sound validate → ∀ a c, Gives m b a c → c.Sound validate ∧ b.Extends c ∧ Q a c

theorem secures_pure {Q : α → Builder → Prop} {a : α} (h : Q a b) :
    Secures validate (pure a) b Q := by
  intro hb a' c hgives
  obtain ⟨rfl, rfl⟩ := gives_pure.1 hgives
  exact ⟨hb, .refl _, h⟩

theorem Secures.bind {m : Build α} {f : α → Build β} {Q : α → Builder → Prop}
    {R : β → Builder → Prop} (h : Secures validate m b Q)
    (hf : ∀ a c, b.Extends c → Q a c → Secures validate (f a) c R) :
    Secures validate (m >>= f) b R := by
  intro hb y d hgives
  obtain ⟨a, c, hm, hrest⟩ := gives_bind.1 hgives
  obtain ⟨hc, hbc, hQ⟩ := h hb a c hm
  obtain ⟨hd, hcd, hR⟩ := hf a c hbc hQ hc y d hrest
  exact ⟨hd, hbc.trans hcd, hR⟩

theorem Secures.imp {m : Build α} {Q R : α → Builder → Prop} (h : Secures validate m b Q)
    (hQ : ∀ a c, Q a c → R a c) : Secures validate m b R := by
  intro hb a c hgives
  obtain ⟨hc, hbc, hq⟩ := h hb a c hgives
  exact ⟨hc, hbc, hQ a c hq⟩

theorem secures_of_not_gives {m : Build α} {Q : α → Builder → Prop}
    (h : ∀ a c, ¬ Gives m b a c) : Secures validate m b Q :=
  fun _ a c hgives => absurd hgives (h a c)

/-- A part that is in order is added under the number of a part. -/
theorem Pushes.secures {ι : Type} {part : ι → PartId} {m : Build ι} {p : Part}
    (h : Pushes part m p) (hp : p.SoundIn validate b) :
    Secures validate m b fun id c => c.grammar.Has (part id) ∧ c = b.add p := by
  intro hb id c hgives
  obtain ⟨rfl, hpart⟩ := h.of_gives hgives
  refine ⟨hb.add hp, .add b p, ?_, rfl⟩
  rw [hpart, Grammar.Has, Builder.add, Grammar.count_addPart, if_pos rfl]
  exact Nat.lt_succ_of_le (Nat.mod_le _ _)

end Build

/-- The number is that of a pattern, and of this one if numbers are in range. -/
structure Builder.HasPattern (b : Builder) (id : PatternId) (source : String) : Prop where
  has : b.grammar.Has id.part
  eq : b.grammar.patterns.size ≤ 2 ^ 32 → b.grammar.pattern id = source

theorem Builder.HasPattern.mono {b c : Builder} {id : PatternId} {source : String}
    (h : b.HasPattern id source) (hbc : b.Extends c) : c.HasPattern id source :=
  ⟨hbc.has h.has, fun hsize =>
    (hbc.pattern h.has).trans (h.eq (Nat.le_trans hbc.size_le hsize))⟩

theorem addPattern_secures (b : Builder) (source : String) :
    Secures validate (addPattern source) b fun id c => c.HasPattern id source := by
  intro hb id c hgives
  obtain ⟨hc, hbc, hhas, rfl⟩ :=
    (addPattern_pushes source).secures (.pattern source) hb id c hgives
  refine ⟨hc, hbc, hhas, fun hsize => ?_⟩
  have hindex : id.index = b.grammar.patterns.size % 2 ^ 32 :=
    congrArg PartId.index ((addPattern_pushes source).of_gives hgives).2
  have hlt : b.grammar.patterns.size < 2 ^ 32 := by
    rw [Builder.add, Grammar.addPart, Array.size_push] at hsize
    exact hsize
  rw [Nat.mod_eq_of_lt hlt] at hindex
  simp [Grammar.pattern, Builder.add, Grammar.addPart, hindex]

theorem addLocalInclude_secures (b : Builder) (item : LocalInclude) :
    Secures validate (addLocalInclude item) b fun _ c =>
      c.grammar = b.grammar ∧ item ∈ c.localIncludes := by
  intro hb _ c hgives
  cases hgives
  have hbc : b.Extends { b with localIncludes := b.localIncludes ++ [item] } :=
    ⟨fun _ => Nat.le_refl _, List.prefix_rfl, List.subset_append_left ..⟩
  exact ⟨hb.of_extends hbc fun n p hp => .inl hp, hbc, rfl, by simp⟩

theorem skip_secures (b : Builder) (path : String) (refusal : Refusal) :
    Secures validate (skip path refusal) b fun _ _ => True := by
  intro hb _ c hgives
  cases hgives
  refine ⟨hb.of_extends ?_ fun n p hp => .inl hp, ?_, trivial⟩
  all_goals exact ⟨fun _ => Nat.le_refl _, List.prefix_rfl, List.Subset.refl _⟩

theorem compileInclude_secures {b : Builder} {repositories : RepositoryChain}
    (h : b.grammar.HasAll repositories.refs) (path text : String) :
    Secures validate (compileInclude repositories path text) b fun item c =>
      (Part.list [item]).SoundIn validate c := by
  have hrefs : ∀ c : Builder, b.Extends c → ∀ target,
      c.grammar.HasAll (Part.list [.linked { target, repositories }]).refs := by
    intro c hbc target
    simpa [Part.refs, ListItem.refs] using hbc.hasAll h
  have hplain : ∀ c : Builder, b.Extends c → ∀ target, (∀ name, target ≠ .entry name) →
      (Part.list [.linked { target, repositories }]).SoundIn validate c := by
    intro c hbc target htarget
    refine ⟨hrefs c hbc target, fun i hi name hname => ?_, nofun⟩
    obtain rfl := List.mem_singleton.1 hi
    exact absurd hname (htarget name)
  unfold compileInclude
  cases htarget : IncludeTarget.ofString text with
  | entry name =>
    refine (addLocalInclude_secures b _).bind fun _ c hbc hnoted => secures_pure ?_
    refine ⟨hrefs c hbc _, fun i hi name' hname => ?_, nofun⟩
    obtain rfl := List.mem_singleton.1 hi
    cases hname
    exact ⟨_, hnoted.2, rfl, rfl⟩
  | self => exact secures_pure (hplain b (.refl b) _ nofun)
  | base => exact secures_pure (hplain b (.refl b) _ nofun)
  | foreign scopeName entry => exact secures_pure (hplain b (.refl b) _ nofun)

/-! ## Rules that leave a builder in order -/

/-- The rule is compiled by a step that leaves all in order, wherever it stands. -/
def RuleSource.Secures (validate : Validator) (r : RuleSource) : Prop :=
  ∀ (repositories : RepositoryChain) (path : String) (b : Builder),
    b.grammar.HasAll repositories.refs →
    Build.Secures validate (compileRule validate repositories path r) b fun item c =>
      (Part.list item.toList).SoundIn validate c

section Rules

variable {repositories : RepositoryChain} {b : Builder}

theorem compileRules_secures {rules : List RuleSource} (h : ∀ r ∈ rules, r.Secures validate)
    (hb : b.grammar.HasAll repositories.refs) (path : String) (i : Nat) :
    Secures validate (compileRules validate repositories path i rules) b fun items c =>
      (Part.list items).SoundIn validate c := by
  induction rules generalizing i b with
  | nil => exact secures_pure .nil
  | cons r rest ih =>
    obtain ⟨hr, hrest⟩ := List.forall_mem_cons.1 h
    rw [compileRules]
    refine (hr repositories _ b hb).bind fun item c hbc hitem => ?_
    refine (ih hrest (hbc.hasAll hb) (i + 1)).bind fun items d hcd hitems => ?_
    exact secures_pure ((hitem.mono hcd).append hitems)

theorem compileItems_secures {rules : List RuleSource} (h : ∀ r ∈ rules, r.Secures validate)
    (hb : b.grammar.HasAll repositories.refs) (path : String) :
    Secures validate (compileItems validate repositories path rules) b fun list c =>
      c.grammar.Has list.part :=
  (compileRules_secures h hb path 0).bind fun items _ _ hitems =>
    ((addList_pushes items).secures hitems).imp fun _ _ hlist => hlist.1

theorem compileEntry_secures {r : RuleSource} (h : r.Secures validate)
    (hb : b.grammar.HasAll repositories.refs) (path : String) :
    Secures validate (compileEntry validate repositories path r) b fun list c =>
      c.grammar.Has list.part := by
  rw [compileEntry_eq]
  refine (h repositories path b hb).bind fun item c _ hitem => ?_
  unfold entryList
  split
  · next id => exact secures_pure (hitem.refs _ (by simp [Part.refs, ListItem.refs]))
  · exact ((addList_pushes _).secures hitem).imp fun _ _ hlist => hlist.1

theorem compileEntries_secures {entries : List (String × RuleSource)}
    (h : ∀ e ∈ entries, e.2.Secures validate) (hb : b.grammar.HasAll repositories.refs)
    (path : String) :
    Secures validate (compileEntries validate repositories path entries) b fun lists c =>
      c.grammar.HasAll (lists.map (·.2.part)) := by
  induction entries generalizing b with
  | nil => exact secures_pure nofun
  | cons e rest ih =>
    obtain ⟨key, r⟩ := e
    obtain ⟨hr, hrest⟩ := List.forall_mem_cons.1 h
    rw [compileEntries_cons]
    refine (compileEntry_secures hr hb _).bind fun list c hbc hlist => ?_
    refine (ih hrest (hbc.hasAll hb)).bind fun lists d hcd hlists => secures_pure ?_
    exact List.forall_mem_cons.2 ⟨hcd.has hlist, hlists⟩

theorem compileRepository_secures {entries : List (String × RuleSource)}
    (h : ∀ e ∈ entries, e.2.Secures validate) (hb : b.grammar.HasAll repositories.refs)
    (path : String) :
    Secures validate (compileRepository validate repositories path entries) b fun stack c =>
      c.grammar.HasAll stack.refs := by
  intro hsound stack d hgives
  obtain ⟨id, lists, c, hid, hpush, hentries, rfl⟩ := compileRepository_gives.1 hgives
  have hempty : (Part.repository []).SoundIn validate b := .of_refs nofun rfl nofun
  obtain ⟨hadded, hbadded, hhas, _⟩ := addRepository_pushes.secures hempty hsound id _ hid
  have hstack : (b.add (.repository [])).grammar.HasAll stack.refs := by
    unfold RepositoryChain.push at hpush
    split at hpush
    · cases hpush
      exact List.forall_mem_cons.2 ⟨hhas, hbadded.hasAll hb⟩
    · cases hpush
  obtain ⟨hc, hbc, hlists⟩ := compileEntries_secures h hstack path hadded lists c hentries
  obtain ⟨hfilled, hcd⟩ := hc.withRepository id hlists
  exact ⟨hfilled, hbadded.trans (hbc.trans hcd), hcd.hasAll (hbc.hasAll hstack)⟩

theorem captureItems_secures {rules : List RuleSource} (h : ∀ r ∈ rules, r.Secures validate)
    (hb : b.grammar.HasAll repositories.refs) (path : String) :
    Secures validate (captureItems validate repositories path rules) b fun list c =>
      c.grammar.HasAll (list.map ListId.part).toList := by
  rw [captureItems]
  split
  · exact secures_pure (List.forall_mem_nil _)
  · refine (compileItems_secures h hb path).bind fun list c _ hlist => secures_pure ?_
    exact List.forall_mem_singleton.2 hlist

theorem keepCapture_secures (scopes : List Scope) {patterns : Option ListId}
    (hb : b.grammar.HasAll (patterns.map ListId.part).toList) :
    Secures validate (keepCapture scopes patterns) b fun id c =>
      c.grammar.HasAll (id.map CaptureId.part).toList := by
  rw [keepCapture]
  split
  · exact secures_pure nofun
  · have hcapture : (Part.capture { scopes, patterns }).SoundIn validate b :=
      .of_refs hb rfl nofun
    refine ((addCapture_pushes _).secures hcapture).bind fun id c _ hid => secures_pure ?_
    exact List.forall_mem_singleton.2 hid.1

namespace CaptureTable

theorem mem_putPlace {i : Nat} {id : CaptureId} {places : List (Nat × CaptureId)}
    {place : Nat × CaptureId} (h : place ∈ putPlace i id places) :
    place = (i, id) ∨ place ∈ places := by
  induction places with
  | nil => exact .inl (List.mem_singleton.1 h)
  | cons first rest ih =>
    obtain ⟨k, kd⟩ := first
    rw [putPlace] at h
    split at h
    · exact (List.mem_cons.1 h).imp_right (.tail _)
    · split at h
      · exact List.mem_cons.1 h
      · obtain rfl | h := List.mem_cons.1 h
        · exact .inr (.head _)
        · exact (ih h).imp_right (.tail _)

theorem mem_refs_put {table : CaptureTable} {i : Nat} {id : CaptureId} {n : PartId}
    (h : n ∈ (table.put i id).refs) : n = id.part ∨ n ∈ table.refs := by
  obtain ⟨place, hplace, rfl⟩ := List.mem_map.1 h
  obtain rfl | hplace := mem_putPlace hplace
  · exact .inl rfl
  · exact .inr (List.mem_map_of_mem hplace)

end CaptureTable

theorem fillCaptures_secures {entries : List (String × RuleSource)}
    (h : ∀ e ∈ entries, ∀ r ∈ e.2.patterns, r.Secures validate)
    (hb : b.grammar.HasAll repositories.refs) (path : String) {table : CaptureTable}
    (htable : b.grammar.HasAll table.refs) :
    Secures validate (fillCaptures validate repositories path table entries) b fun table' c =>
      c.grammar.HasAll table'.refs := by
  induction entries generalizing b table with
  | nil => exact secures_pure htable
  | cons e rest ih =>
    obtain ⟨key, r⟩ := e
    obtain ⟨hr, hrest⟩ := List.forall_mem_cons.1 h
    rw [fillCaptures_cons, compileCapture]
    refine Secures.bind (Q := fun id c => c.grammar.HasAll (id.map CaptureId.part).toList)
      ((captureItems_secures hr hb _).bind fun _ _ _ hlist => keepCapture_secures _ hlist) ?_
    intro id c hbc hid
    refine ih hrest (hbc.hasAll hb) fun n hn => ?_
    cases id with
    | none => exact hbc.has (htable n hn)
    | some id =>
      obtain rfl | hn := CaptureTable.mem_refs_put hn
      · exact hid _ (by simp)
      · exact hbc.has (htable n hn)

theorem compileTable_secures {entries : List (String × RuleSource)}
    (h : ∀ e ∈ entries, ∀ r ∈ e.2.patterns, r.Secures validate)
    (hb : b.grammar.HasAll repositories.refs) (path : String) :
    Secures validate (compileTable validate repositories path entries) b fun table c =>
      c.grammar.HasAll table.refs := by
  refine Secures.bind (Q := fun table c => c = b ∧ table.entries = []) ?_ ?_
  · intro hsound table c hgives
    obtain ⟨rfl, hentries, _⟩ := captureSpace_gives hgives
    exact ⟨hsound, .refl _, rfl, hentries⟩
  · rintro table c _ ⟨rfl, hentries⟩
    refine fillCaptures_secures h hb path ?_
    rw [CaptureTable.refs, hentries]
    exact nofun

theorem Rule.soundIn {rule : Rule} (hrefs : b.grammar.HasAll rule.refs)
    (hcompiles : b.grammar.patterns.size ≤ 2 ^ 32 → rule.Compiles validate b.grammar) :
    (Part.rule rule).SoundIn validate b := by
  refine ⟨hrefs, nofun, ?_⟩
  rintro hsize _ ⟨⟩
  exact hcompiles hsize

theorem Validator.refusal?_eq_none {source : String} (h : validate.refusal? source = none) :
    validate source = .ok () := by
  unfold refusal? at h
  split at h
  · assumption
  · cases h

theorem Rule.single_soundIn {m : MatchRule} {source : String}
    (hpattern : b.HasPattern m.pattern source) (hcaptures : b.grammar.HasAll m.captures.refs)
    (hshape : (RuleForm.single source).refusal? validate = none) :
    (Part.rule (.single m)).SoundIn validate b := by
  refine Rule.soundIn (List.forall_mem_cons.2 ⟨hpattern.has, hcaptures⟩) fun hsize => ?_
  rw [Rule.Compiles, hpattern.eq hsize]
  exact Validator.refusal?_eq_none hshape

theorem Rule.span_soundIn {s : SpanRule} {opening close : String} {isWhile : Bool}
    (hopening : b.HasPattern s.opening opening) (hclose : b.HasPattern s.closePattern close)
    (hpatterns : b.grammar.Has s.patterns.part)
    (hopeningCaptures : b.grammar.HasAll s.openingCaptures.refs)
    (hcloseCaptures : b.grammar.HasAll s.closeCaptures.refs)
    (hfills : s.fillsEnding = Pattern.hasBackreferences close)
    (hshape : (RuleForm.span opening close isWhile).refusal? validate = none) :
    (Part.rule (.span s)).SoundIn validate b := by
  obtain ⟨hopeningOk, hcloseOk⟩ := (Option.orElse_eq_none _ _).1 hshape
  refine Rule.soundIn (fun n hn => ?_) fun hsize => ?_
  · simp only [Rule.refs, List.mem_append, List.mem_cons, List.not_mem_nil, or_false] at hn
    obtain ((rfl | rfl | rfl) | hn) | hn := hn
    · exact hopening.has
    · exact hclose.has
    · exact hpatterns
    · exact hopeningCaptures n hn
    · exact hcloseCaptures n hn
  · rw [Rule.Compiles, hclose.eq hsize, hopening.eq hsize]
    refine ⟨Validator.refusal?_eq_none hopeningOk, ?_, fun hfixed => ?_⟩
    · rw [hfills]
      exact Pattern.hasBackreferencesIn_iff close.toList
    · rw [← hfills, hfixed] at hcloseOk
      exact Validator.refusal?_eq_none hcloseOk

theorem compileForm_secures {r : RuleSource} (h : ∀ c ∈ r.children, c.Secures validate)
    {shape : RuleForm} (hshape : shape.refusal? validate = none)
    (hb : b.grammar.HasAll repositories.refs) (path : String) :
    Secures validate (compileForm validate repositories path r shape) b fun item c =>
      (Part.list item.toList).SoundIn validate c := by
  have hpatterns : ∀ c ∈ r.patterns, c.Secures validate :=
    fun c hc => h c (RuleSource.mem_children_of_pattern hc)
  have hcaptures : ∀ {entries : List (String × RuleSource)},
      entries ⊆ r.captures ++ r.beginCaptures ++ r.endCaptures ++ r.whileCaptures →
      ∀ e ∈ entries, ∀ c ∈ e.2.patterns, c.Secures validate :=
    fun hsub e he c hc => h c (RuleSource.mem_children_of_capture (hsub he) hc)
  cases shape with
  | single source =>
    have hsub : r.captures ⊆
        r.captures ++ r.beginCaptures ++ r.endCaptures ++ r.whileCaptures :=
      fun e he => by simp [he]
    rw [compileForm]
    refine (addPattern_secures b source).bind fun pattern c hbc hpattern => ?_
    refine (compileTable_secures (hcaptures hsub) (hbc.hasAll hb) _).bind
      fun table d hcd htable => ?_
    have hrule : (Part.rule (.single
        { scopes := scopesOf r.name, pattern, captures := table })).SoundIn validate d :=
      Rule.single_soundIn (hpattern.mono hcd) htable hshape
    exact ((addRule_pushes _).secures hrule).bind fun id e _ hid => secures_pure (.rule hid.1)
  | span opening close isWhile =>
    rw [compileForm]
    refine (addPattern_secures b opening).bind fun openingId c₁ h₁ hopeningId => ?_
    refine (addPattern_secures c₁ close).bind fun closeId c₂ h₂ hcloseId => ?_
    have hb₂ := h₂.hasAll (h₁.hasAll hb)
    refine (compileTable_secures (hcaptures r.openingCaptures_subset) hb₂ _).bind
      fun openingCaptures c₃ h₃ hopeningCaptures => ?_
    refine (compileTable_secures (hcaptures (r.closeCaptures_subset isWhile)) (h₃.hasAll hb₂)
      _).bind fun closeCaptures c₄ h₄ hcloseCaptures => ?_
    refine (compileItems_secures hpatterns (h₄.hasAll (h₃.hasAll hb₂)) _).bind
      fun list c₅ h₅ hlist => ?_
    have h₃₅ := h₃.trans (h₄.trans h₅)
    have hrule : (Part.rule (.span
        { scopes := scopesOf r.name
          contentScopes := scopesOf r.contentName
          opening := openingId
          openingCaptures
          close :=
            if isWhile then .whileMatched closeId closeCaptures
            else .atEnd closeId closeCaptures r.applyEndPatternLast
          fillsEnding := Pattern.hasBackreferences close
          patterns := list })).SoundIn validate c₅ := by
      have hclose₅ := hcloseId.mono h₃₅
      have hcaptures₅ := h₅.hasAll hcloseCaptures
      refine Rule.span_soundIn (hopeningId.mono (h₂.trans h₃₅)) ?_ hlist
        ((h₄.trans h₅).hasAll hopeningCaptures) ?_ rfl hshape
      · cases isWhile <;> exact hclose₅
      · cases isWhile <;> exact hcaptures₅
    exact ((addRule_pushes _).secures hrule).bind fun id e _ hid => secures_pure (.rule hid.1)
  | container =>
    rw [compileForm]
    split
    · exact secures_pure .nil
    · exact (compileItems_secures hpatterns hb _).bind fun list c _ hlist =>
        secures_pure (.list hlist)

theorem enterRule_secures {r : RuleSource} (h : ∀ c ∈ r.children, c.Secures validate)
    (hb : b.grammar.HasAll repositories.refs) (path : String) :
    Secures validate (enterRule validate repositories path r) b fun stack c =>
      c.grammar.HasAll stack.refs := by
  rw [enterRule]
  split
  · exact secures_pure hb
  · exact compileRepository_secures (fun e he => h _ (RuleSource.mem_children_of_entry he)) hb _

theorem compileShape_secures {r : RuleSource} (h : ∀ c ∈ r.children, c.Secures validate)
    (hb : b.grammar.HasAll repositories.refs) (path : String) (shape : RuleForm) :
    Secures validate (compileShape validate repositories path r shape) b fun item c =>
      (Part.list item.toList).SoundIn validate c := by
  rw [compileShape]
  refine (enterRule_secures h hb path).bind fun stack c _ hstack => ?_
  cases hrefusal : shape.refusal? validate with
  | none => exact compileForm_secures h hrefusal hstack path
  | some refusal => exact (skip_secures c path refusal).bind fun _ _ _ _ => secures_pure .nil

end Rules

theorem RuleSource.secures (r : RuleSource) : r.Secures validate := by
  induction r using RuleSource.children_induction with
  | step r ih =>
    intro repositories path b hb
    rw [compileRule_eq]
    split
    · exact secures_pure .nil
    · cases r.includeText with
      | some text =>
        exact (compileInclude_secures hb path text).bind fun item c _ hitem => secures_pure hitem
      | none =>
        cases r.form with
        | error fault => exact secures_of_not_gives fun _ _ => not_gives_refuse
        | ok shape => exact compileShape_secures ih hb path shape

/-! ## Whole grammars -/

theorem Builder.Sound.first (source : GrammarSource) : (Builder.first source).Sound validate := by
  intro n p hp
  have hlt := Grammar.lt_count_of_part? hp
  rw [Builder.count_first] at hlt
  exact absurd hlt (Nat.not_lt_zero _)

theorem compileParts_secures (source : GrammarSource) :
    Secures validate (compileParts validate source) (.first source) fun p c =>
      c.grammar.Has p.2.part := by
  rw [compileParts]
  refine (compileRepository_secures (fun e _ => e.2.secures) (fun n hn => ?_) _).bind
    fun stack c _ hstack => ?_
  · cases hn
  exact (compileItems_secures (fun r _ => r.secures) hstack _).bind
    fun root d _ hroot => secures_pure hroot

/-- The rule is an element of a list of its grammar. -/
theorem Registry.exists_of_mem_gather {r : Registry} {base : GrammarId}
    {place : GrammarId × ListId} {rule : RuleRef} (h : rule ∈ (r.gather base place).1) :
    ∃ list, .rule rule.rule ∈ r.items (rule.grammar, list) := by
  have hleft : r.unseen Gathering.empty.visited < r.listCount + 1 :=
    Nat.lt_succ_of_le (r.unseen_le _)
  have hgathers :=
    (Registry.gathersLists r base _ [] place .empty hleft (List.nil_subset _) nofun).1
  have hrules : (r.gather base place).1 = meetAll [] (r.expand base [] place) := hgathers.rules
  rw [hrules, mem_meetAll] at h
  obtain ⟨⟨id, list⟩, _, item, hitem, hrule⟩ := exists_of_mem_expand (h.resolve_left nofun)
  cases item with
  | rule i =>
    cases hrule
    exact ⟨list, hitem⟩
  | list _ => cases hrule
  | linked _ => cases hrule

namespace Grammar

variable {g : Grammar}

theorem part?_list_of_mem {id : ListId} {item : ListItem} (h : item ∈ g.list id) :
    g.part? id.part = some (.list (g.list id)) := by
  have hget : g.lists[id.index]? = some (g.list id) := by
    rw [Grammar.list, Array.getD_eq_getD_getElem?] at h ⊢
    cases hlist : g.lists[id.index]? with
    | some items => rfl
    | none =>
      rw [hlist] at h
      cases h
  exact congrArg (Option.map Part.list) hget

theorem rule?_of_has {id : RuleId} (h : g.Has id.part) :
    ∃ rule, g.rule? id = some rule ∧ g.part? id.part = some (.rule rule) := by
  have hlt : id.index < g.rules.size := h
  have hrule : g.rule? id = some g.rules[id.index] := Array.getElem?_eq_getElem hlt
  exact ⟨_, hrule, congrArg (Option.map Part.rule) hrule⟩

theorem has_of_entryIn? {name : String} {id : RepositoryId} {l : ListId}
    (hrefs : ∀ n p, g.part? n = some p → g.HasAll p.refs) (h : g.entryIn? name id = some l) :
    g.Has l.part := by
  obtain ⟨entries, hentries, hlookup⟩ := Option.bind_eq_some_iff.1 h
  have hpart : g.part? id.part = some (.repository entries) :=
    congrArg (Option.map Part.repository) hentries
  obtain ⟨before, behind, rfl, _⟩ := List.lookup_eq_some_iff.1 hlookup
  exact hrefs _ _ hpart _ (List.mem_map_of_mem (f := (·.2.part)) (by simp : (name, l) ∈ _))

end Grammar

/-- What gathering finds in a grammar stands for an effect and has a pattern. -/
theorem Registry.resolves_of_mem_gather {r : Registry} {g : Grammar}
    (hrefs : ∀ n p, g.part? n = some p → g.HasAll p.refs) {base : GrammarId}
    {place : GrammarId × ListId} {rule : RuleRef} (hr : r.grammar? rule.grammar = some g)
    (hmem : rule ∈ (r.gather base place).1) :
    (∀ frames, (r.effect? frames (some (.rule rule))).isSome) ∧
      ∃ i : PatternId, g.Has i.part ∧ r.ruleEntry rule = some (.rule rule, g.pattern i) := by
  obtain ⟨list, hitem⟩ := exists_of_mem_gather hmem
  rw [items_of_grammar hr] at hitem
  have hrule : g.Has rule.rule.part :=
    hrefs _ _ (Grammar.part?_list_of_mem hitem) _
      (List.mem_flatMap.2 ⟨_, hitem, List.mem_singleton.2 rfl⟩)
  obtain ⟨found, hfound, hpart⟩ := Grammar.rule?_of_has hrule
  have hpattern := hrefs _ _ hpart
  cases found with
  | single m =>
    refine ⟨fun frames => by simp [effect?, hr, hfound], m.pattern, hpattern _ (.head _), ?_⟩
    simp [ruleEntry, openingSource, hr, hfound]
  | span s =>
    refine ⟨fun frames => by simp [effect?, hr, hfound], s.opening, hpattern _ (.head _), ?_⟩
    simp [ruleEntry, openingSource, hr, hfound]

/-- A grammar that is accepted has a part for every number stored in it, and an entry for every
include of one. Its patterns are accepted, but for closing ones with back-references, which are
known. So every rule that gathering finds in it stands for an effect and has a pattern. -/
theorem Grammar.ofSource_refers {g : Grammar} {source : GrammarSource}
    (hg : (Grammar.ofSource validate source).1 = .ok g) :
    g.Has g.root.part ∧
    (∀ n p, g.part? n = some p → g.HasAll p.refs) ∧
    (∀ n p, g.part? n = some p → ∀ i ∈ p.includes, ∀ name, i.target = .entry name →
      ∃ l, g.visibleEntry? name i.repositories = some l ∧ g.Has l.part) ∧
    (g.patterns.size ≤ 2 ^ 32 → ∀ n rule, g.part? n = some (.rule rule) →
      rule.Compiles validate g) ∧
    ∀ (r : Registry) (id : GrammarId), r.grammar? id = some g → ∀ base place rule,
      rule ∈ (r.gather base place).1 → rule.grammar = id →
      (∀ frames, (r.effect? frames (some (.rule rule))).isSome) ∧
      ∃ i : PatternId, g.Has i.part ∧ r.ruleEntry rule = some (.rule rule, g.pattern i) := by
  obtain ⟨_, d, hsource, rfl⟩ := ofSource_eq_ok.1 hg
  obtain ⟨stack, root, c, hparts, rfl, hnone⟩ := gives_compileSource.1 hsource
  obtain ⟨hsound, _, hroot⟩ := compileParts_secures source (.first source) _ c hparts
  have hrefs : ∀ n p, (c.withRoot root).grammar.part? n = some p →
      (c.withRoot root).grammar.HasAll p.refs := fun n p hp => (hsound n p hp).refs
  refine ⟨hroot, hrefs, fun n p hp i hi name hname => ?_, fun hsize n rule hrule => ?_, ?_⟩
  · obtain ⟨l, hl, rfl, hrepositories⟩ := (hsound n p hp).includes i hi name hname
    have hfound := List.find?_eq_none.1 hnone l hl
    rw [← hrepositories]
    obtain ⟨list, hlist⟩ : ∃ list, (c.withRoot root).grammar.visibleEntry? l.name l.repositories =
        some list := Option.ne_none_iff_exists'.1 (by simpa using hfound)
    obtain ⟨id, _, hid⟩ := List.exists_of_findSome?_eq_some hlist
    exact ⟨list, hlist, has_of_entryIn? hrefs hid⟩
  · exact (hsound n _ hrule).compiles hsize rule rfl
  · rintro r id hr base place rule hmem rfl
    exact Registry.resolves_of_mem_gather hrefs hr hmem

/-! ### A closing quote like the opening one -/

theorem exists_ok_of_any {ε α : Type} {x : Except ε α} {p : α → Bool}
    (h : x.toOption.any p = true) : ∃ a, x = .ok a ∧ p a = true := by
  cases x with
  | error e => cases h
  | ok a => exact ⟨a, rfl, h⟩

theorem Grammar.exists_span_of_any {g : Grammar} {i : Nat} {p : SpanRule → Bool}
    (h : (g.rules[i]?).any (fun | .span s => p s | .single _ => false) = true) :
    ∃ s, g.part? ⟨.rule, i⟩ = some (.rule (.span s)) ∧ p s = true := by
  obtain ⟨rule, hrule, hp⟩ := (Option.any_eq_true _ _).1 h
  cases rule with
  | single m => cases hp
  | span s => exact ⟨s, congrArg (Option.map Part.rule) hrule, hp⟩

/-- A span that ends with the quote it begins with, and a capture with rules that include an entry
of a repository inside the rule. -/
def sameQuoteSource : GrammarSource where
  scopeName := "source.quote"
  patterns :=
    [{ beginText := some "(['\"])", endText := some "\\1"
       captures := [("1", { patterns := [{ includeText := some "#mark" }] })]
       repository := [("mark", { matchText := some "'", name := some "mark" })] },
      { matchText := some "(" }]

/-- The end is filled in, its include is found, and the rule left out leaves nothing behind that
would lead nowhere. -/
theorem Grammar.ofSource_refers_sameQuote :
    ∃ g, (Grammar.ofSource Regex.engine.validator sameQuoteSource).1 = .ok g ∧
      g.skipped.length = 1 ∧ g.patterns.size ≤ 2 ^ 32 ∧
      (∃ s, g.part? ⟨.rule, 1⟩ = some (.rule (.span s)) ∧ s.fillsEnding = true ∧
        (Rule.span s).Compiles Regex.engine.validator g) ∧
      ∃ i l, i.target = .entry "mark" ∧ g.part? ⟨.list, 1⟩ = some (.list [.linked i]) ∧
        g.visibleEntry? "mark" i.repositories = some l ∧ g.Has l.part := by
  have haccepted : (Grammar.ofSource Regex.engine.validator sameQuoteSource).1.toOption.any
      (fun g => decide (g.skipped.length = 1 ∧ g.patterns.size ≤ 2 ^ 32 ∧
        (g.rules[1]?).any (fun | .span s => s.fillsEnding | .single _ => false) ∧
        g.lists[1]? = some [.linked { target := .entry "mark", repositories := ⟨[⟨1⟩, ⟨0⟩]⟩ }]))
      = true := by decide +kernel
  obtain ⟨g, hg, hfacts⟩ := exists_ok_of_any haccepted
  obtain ⟨hskipped, hsize, hspan, hlist⟩ := of_decide_eq_true hfacts
  obtain ⟨_, _, hincludes, hcompiles, _⟩ := ofSource_refers hg
  refine ⟨g, hg, hskipped, hsize, ?_, ?_⟩
  · obtain ⟨s, hpart, hfills⟩ := Grammar.exists_span_of_any hspan
    exact ⟨s, hpart, hfills, hcompiles hsize ⟨.rule, 1⟩ _ hpart⟩
  · have hpart := congrArg (Option.map Part.list) hlist
    obtain ⟨l, hl, hhas⟩ := hincludes ⟨.list, 1⟩ _ hpart _ (.head _) "mark" rfl
    exact ⟨_, l, rfl, hpart, hl, hhas⟩

/-! ### Patterns that are not as they seem -/

/-- A span from `a` to some pattern. -/
def spanTo (close : String) : RuleSource := { beginText := some "a", endText := some close }

/-- Two spans with a backslash and a digit in brackets, the second pair of which is left open. -/
def bracketedSource : GrammarSource where
  scopeName := "source.bracketed"
  patterns := [spanTo "[\\1]", spanTo "[\\1"]

/-- Two spans whose ends are no patterns before they are filled in, and so many rules. -/
def letteredSource (n : Nat) : GrammarSource where
  scopeName := "source.lettered"
  patterns := spanTo "(\\1" :: spanTo "(\\1" :: List.replicate n { matchText := some "b" }

/-- The rule with the pattern that is added after so many others. -/
def letterRule (i : Nat) : Rule :=
  .single { scopes := [], pattern := ⟨i.toUInt32⟩, captures := .empty }

theorem compileRule_letter (hb : validate "b" = .ok ()) (repositories : RepositoryChain)
    (path : String) (b : Builder) :
    Gives (compileRule validate repositories path { matchText := some "b" }) b
      (some (.rule ⟨b.grammar.rules.size.toUInt32⟩))
      ((b.add (.pattern "b")).add (.rule (letterRule b.grammar.patterns.size))) := by
  have hrefusal : (RuleForm.single "b").refusal? validate = none := by
    rw [RuleForm.refusal?, Validator.refusal?, hb]
  rw [compileRule_eq]
  show Gives (compileShape validate repositories path { matchText := some "b" } (.single "b")) _ _ _
  rw [compileShape, hrefusal]
  rfl

theorem compileRule_spanTo (ha : validate "a" = .ok ()) {close : String}
    (hclose : Pattern.hasBackreferences close = true) (repositories : RepositoryChain)
    (path : String) (b : Builder) :
    ∃ item c, Gives (compileRule validate repositories path (spanTo close)) b item c ∧
      c.grammar.patterns.toList = b.grammar.patterns.toList ++ ["a", close] ∧
      c.grammar.rules.size = b.grammar.rules.size + 1 ∧ c.localIncludes = b.localIncludes := by
  have hrefusal : (RuleForm.span "a" close false).refusal? validate = none := by
    rw [RuleForm.refusal?, Validator.refusal?, ha, hclose]
    rfl
  let compiled :=
    (compileForm validate repositories path (spanTo close) (.span "a" close false)).run b
  refine ⟨some (.rule ⟨b.grammar.rules.size.toUInt32⟩), compiled.2, ?_, ?_, ?_, rfl⟩
  · rw [compileRule_eq]
    show Gives
      (compileShape validate repositories path (spanTo close) (.span "a" close false)) b _ _
    rw [compileShape, hrefusal]
    rfl
  · show ((b.grammar.patterns.push "a").push close).toList = _
    simp
  · exact Array.size_push ..

theorem compileRules_letters (hb : validate "b" = .ok ()) (repositories : RepositoryChain)
    (path : String) (n i : Nat) (b : Builder) :
    ∃ items c, Gives (compileRules validate repositories path i
        (List.replicate n { matchText := some "b" })) b items c ∧
      c.grammar.patterns.toList = b.grammar.patterns.toList ++ List.replicate n "b" ∧
      c.grammar.rules.toList = b.grammar.rules.toList ++
        (List.range' b.grammar.patterns.size n).map letterRule ∧
      c.localIncludes = b.localIncludes := by
  induction n generalizing i b with
  | zero => exact ⟨[], b, rfl, by simp, by simp, rfl⟩
  | succ n ih =>
    have hhead := compileRule_letter hb repositories (path ++ "[" ++ toString i ++ "]") b
    obtain ⟨items, c, htail, hpatterns, hrules, hincludes⟩ :=
      ih (i + 1) ((b.add (.pattern "b")).add (.rule (letterRule b.grammar.patterns.size)))
    refine ⟨.rule ⟨b.grammar.rules.size.toUInt32⟩ :: items, c, ?_, ?_, ?_, hincludes⟩
    · rw [List.replicate_succ, compileRules]
      exact gives_bind.2 ⟨_, _, hhead, gives_bind.2 ⟨items, c, htail, rfl⟩⟩
    · rw [hpatterns]
      simp [Builder.add, Grammar.addPart, List.replicate_succ]
    · rw [hrules]
      simp [Builder.add, Grammar.addPart, List.range'_succ]

theorem ofSource_lettered (ha : validate "a" = .ok ()) (hb : validate "b" = .ok ()) (n : Nat) :
    ∃ g, (Grammar.ofSource validate (letteredSource n)).1 = .ok g ∧ g.pattern ⟨1⟩ = "(\\1" ∧
      ∀ k < n, g.part? ⟨.rule, 2 + k⟩ = some (.rule (letterRule (4 + k))) := by
  have hclose : Pattern.hasBackreferences "(\\1" = true := by decide +kernel
  obtain ⟨item₁, b₁, hspan₁, hpatterns₁, hrules₁, hincludes₁⟩ := compileRule_spanTo ha hclose
    ⟨[⟨0⟩]⟩ ("patterns" ++ "[" ++ toString 0 ++ "]") (.bare (letteredSource n))
  obtain ⟨item₂, b₂, hspan₂, hpatterns₂, hrules₂, hincludes₂⟩ := compileRule_spanTo ha hclose
    ⟨[⟨0⟩]⟩ ("patterns" ++ "[" ++ toString (0 + 1) ++ "]") b₁
  obtain ⟨items, c, hletters, hpatterns, hrules, hincludes⟩ :=
    compileRules_letters hb ⟨[⟨0⟩]⟩ "patterns" n (0 + 1 + 1) b₂
  have hall : Gives (compileRules validate ⟨[⟨0⟩]⟩ "patterns" 0 (letteredSource n).patterns)
      (.bare (letteredSource n)) (item₁.toList ++ (item₂.toList ++ items)) c := by
    rw [letteredSource, compileRules, compileRules]
    exact gives_bind.2 ⟨_, _, hspan₁, gives_bind.2 ⟨_, _, gives_bind.2 ⟨_, _, hspan₂,
      gives_bind.2 ⟨_, _, hletters, rfl⟩⟩, rfl⟩⟩
  have hname : (Text.trim "source.lettered").isEmpty = false := by decide
  obtain ⟨root, haccepted⟩ := Grammar.ofSource_bare (letteredSource n) hname rfl hall
    (hincludes.trans (hincludes₂.trans hincludes₁))
  refine ⟨_, haccepted, ?_, fun k hk => ?_⟩
  · show c.grammar.patterns.getD 1 "" = _
    rw [hpatterns₂, hpatterns₁] at hpatterns
    rw [Array.getD_eq_getD_getElem?, ← Array.getElem?_toList, hpatterns]
    rfl
  · show (c.grammar.rules[2 + k]?).map Part.rule = _
    have hsize : b₂.grammar.rules.toList.length = 2 := by
      rw [Array.length_toList, hrules₂, hrules₁]
      rfl
    have hcount : b₂.grammar.patterns.size = 4 := by
      rw [← Array.length_toList, hpatterns₂, hpatterns₁]
      rfl
    rw [← Array.getElem?_toList, hrules, List.getElem?_append_right (by omega), hsize, hcount,
      Nat.add_sub_cancel_left, List.getElem?_map, List.getElem?_range' hk, Nat.one_mul]
    rfl

/-- In brackets a backslash and a digit are a character and refer to nothing, and yet the end is
taken for one that is to be filled in, so that a pattern that is none is let through. And with more
patterns than there are numbers for, a rule has the pattern of another one. -/
theorem Grammar.ofSource_refers_not :
    (∃ g s t, (Grammar.ofSource Regex.engine.validator bracketedSource).1 = .ok g ∧
      g.part? ⟨.rule, 0⟩ = some (.rule (.span s)) ∧ g.pattern s.closePattern = "[\\1]" ∧
      s.fillsEnding = true ∧
      (Regex.engine.compile {} "[\\1]").toOption.any (fun p =>
        (Regex.engine.search p (.ofLine "\x01") 0).isSome) ∧
      g.part? ⟨.rule, 1⟩ = some (.rule (.span t)) ∧ g.pattern t.closePattern = "[\\1" ∧
      t.fillsEnding = true ∧ Regex.engine.validator "[\\1" = .error .openClass) ∧
    ∃ g m, (Grammar.ofSource Regex.engine.validator (letteredSource (2 ^ 32 - 2))).1 = .ok g ∧
      g.part? ⟨.rule, 2 ^ 32 - 1⟩ = some (.rule (.single m)) ∧ g.pattern m.pattern = "(\\1" ∧
      Regex.engine.validator (g.pattern m.pattern) = .error .unmatchedOpen := by
  constructor
  · have haccepted : (Grammar.ofSource Regex.engine.validator bracketedSource).1.toOption.any
        (fun g => decide (
          (g.rules[0]?).any (fun
            | .span s => s.fillsEnding && g.pattern s.closePattern == "[\\1]"
            | .single _ => false) ∧
          (g.rules[1]?).any (fun
            | .span s => s.fillsEnding && g.pattern s.closePattern == "[\\1"
            | .single _ => false))) = true := by decide +kernel
    obtain ⟨g, hg, hfacts⟩ := exists_ok_of_any haccepted
    obtain ⟨hspan₁, hspan₂⟩ := of_decide_eq_true hfacts
    obtain ⟨s, hs, hclose₁⟩ := Grammar.exists_span_of_any hspan₁
    obtain ⟨t, ht, hclose₂⟩ := Grammar.exists_span_of_any hspan₂
    obtain ⟨hfills₁, hsource₁⟩ := Bool.and_eq_true_iff.1 hclose₁
    obtain ⟨hfills₂, hsource₂⟩ := Bool.and_eq_true_iff.1 hclose₂
    exact ⟨g, s, t, hg, hs, eq_of_beq hsource₁, hfills₁, by decide +kernel, ht, eq_of_beq hsource₂,
      hfills₂, by decide +kernel⟩
  · have ha : Regex.engine.validator "a" = .ok () := by decide +kernel
    have hb : Regex.engine.validator "b" = .ok () := by decide +kernel
    obtain ⟨g, haccepted, hpattern, hrules⟩ := ofSource_lettered ha hb (2 ^ 32 - 2)
    refine ⟨g, _, haccepted, hrules (2 ^ 32 - 3) (by decide), hpattern, ?_⟩
    have hwrapped : g.pattern ⟨(4 + (2 ^ 32 - 3)).toUInt32⟩ = "(\\1" := hpattern
    rw [hwrapped]
    decide +kernel

end ScopeGrammar
