import ScopeGrammar.Proofs.Grammar.Acceptance

/-!
# ScopeGrammar.Proofs.Grammar.CaptureTables

What the captures of a rule are compiled to.

* `CaptureTable.get?_put` : a place that is filled again holds what it was filled with last.
* `Build.KeepsCaptures` : a step ends well or refuses a place in the grammar, and leaves the captures
  there are as they are. Rules whose tables can be built are compiled by such steps
  (`keepsCaptures_traversal`).
* `CaptureTable.Describes` : a table has room for all keys, and at each number the last capture that
  was given for it.
* `compileTable_cases` : a key that is no number is refused, a number for which there is no room
  ends everything, and otherwise there is such a table, unless the rules of a capture are refused.
-/

namespace ScopeGrammar

open Build

variable {validate : Validator}

/-! ## Places of a table -/

namespace CaptureTable

theorem lookup_cons (i j : Nat) (id : CaptureId) (places : List (Nat × CaptureId)) :
    ((i, id) :: places).lookup j = if j = i then some id else places.lookup j := by
  rw [List.lookup_cons, beq_eq_decide]
  by_cases h : j = i <;> simp [h]

theorem lookup_putPlace (i j : Nat) (id : CaptureId) (places : List (Nat × CaptureId)) :
    (putPlace i id places).lookup j = if j = i then some id else places.lookup j := by
  induction places with
  | nil => exact lookup_cons i j id []
  | cons place rest ih =>
    obtain ⟨k, kd⟩ := place
    rw [putPlace]
    split
    · next hik =>
      subst hik
      rw [lookup_cons, lookup_cons]
      split <;> rfl
    · next hne =>
      split
      · exact lookup_cons ..
      · rw [lookup_cons, lookup_cons, ih]
        by_cases hji : j = i
        · rw [if_pos hji, if_pos hji, if_neg (hji ▸ hne)]
        · rw [if_neg hji, if_neg hji]

theorem get?_put (t : CaptureTable) (i j : Nat) (id : CaptureId) :
    (t.put i id).get? j = if j = i then some id else t.get? j := lookup_putPlace i j id t.entries

end CaptureTable

/-! ## Captures stay -/

/-- There is something at the place of a capture only if it has scopes or rules. -/
def RuleSource.Fills (r : RuleSource) : Prop := scopesOf r.name ≠ [] ∨ r.patterns ≠ []

/-- A capture with the scopes of `r` and what its rules were compiled to was added, and this is its
number, as far as it fits into one. -/
def Builder.HoldsCapture (validate : Validator) (repositories : RepositoryChain) (path : String)
    (r : RuleSource) (c : Builder) (id : CaptureId) : Prop :=
  ∃ k patterns d d', c.grammar.captures[k]? = some ⟨scopesOf r.name, patterns⟩ ∧
    id.index = k % 2 ^ 32 ∧
    Gives (captureItems validate repositories (path ++ ".patterns") r.patterns) d patterns d'

/-- The captures of the first builder are the first ones of the second. -/
def Builder.CapturesStay (b c : Builder) : Prop :=
  b.grammar.captures.toList <+: c.grammar.captures.toList

theorem Builder.CapturesStay.holds {b c : Builder} (h : b.CapturesStay c)
    {repositories : RepositoryChain} {path : String} {r : RuleSource} {id : CaptureId}
    (hid : b.HoldsCapture validate repositories path r id) :
    c.HoldsCapture validate repositories path r id := by
  obtain ⟨k, patterns, d, d', hk, hindex, hitems⟩ := hid
  refine ⟨k, patterns, d, d', ?_, hindex, hitems⟩
  rw [← Array.getElem?_toList] at hk ⊢
  obtain ⟨hlt, hget⟩ := List.getElem?_eq_some_iff.1 hk
  rw [List.prefix_iff_getElem?.1 h k hlt, hget]

theorem Builder.capturesStay_add (b : Builder) (p : Part) : b.CapturesStay (b.add p) := by
  cases p with
  | capture capture =>
    show b.grammar.captures.toList <+: (b.grammar.captures.push capture).toList
    rw [Array.toList_push]
    exact List.prefix_append ..
  | _ => exact List.prefix_rfl

/-- The step ends well, with an answer as wanted, or it is refused. Either way the captures that
were there stay. -/
def Build.KeepsCaptures {α : Type} (m : Build α) (Q : α → Prop) : Prop :=
  Decides False m Q ∧ ∀ {b a c}, Gives m b a c → b.CapturesStay c

namespace Build

variable {α β : Type}

theorem Decides.of_gives {ok : Prop} {m : Build α} {Q : α → Prop} {b c : Builder} {a : α}
    (h : Decides ok m Q) (hm : Gives m b a c) : Q a := by
  obtain ⟨a', c', hm', ha⟩ | ⟨_, path, fault, c', hm'⟩ := h b
  · rw [Gives, hm'] at hm
    cases hm
    exact ha
  · rw [Gives, hm'] at hm
    cases hm

namespace KeepsCaptures

theorem pure {Q : α → Prop} {a : α} (h : Q a) : KeepsCaptures (pure a) Q := by
  refine ⟨decides_pure h, fun hgives => ?_⟩
  obtain ⟨_, rfl⟩ := gives_pure.1 hgives
  exact List.prefix_rfl

theorem bind {m : Build α} {f : α → Build β} {Q : α → Prop} {R : β → Prop}
    (h : KeepsCaptures m Q) (hf : ∀ a, Q a → KeepsCaptures (f a) R) :
    KeepsCaptures (m >>= f) R := by
  refine ⟨h.1.bind fun a ha => (hf a ha).1, fun hgives => ?_⟩
  obtain ⟨a, c, hm, hy⟩ := gives_bind.1 hgives
  exact (h.2 hm).trans ((hf a (h.1.of_gives hm)).2 hy)

theorem of_adds {ι : Type} {part : ι → PartId} {m : Build ι} {p : Part} (h : Adds part m p) :
    KeepsCaptures m fun _ => True := by
  refine ⟨h.decides, fun hgives => ?_⟩
  obtain ⟨rfl, _⟩ := h.of_gives hgives
  exact Builder.capturesStay_add _ p

theorem modify {f : Builder → Builder} (h : ∀ b, (f b).grammar.captures = b.grammar.captures) :
    KeepsCaptures (modify f : Build Unit) fun _ => True := by
  refine ⟨decides_modify f, fun {b a c} hgives => ?_⟩
  cases hgives
  simp only [Builder.CapturesStay, h, List.prefix_rfl]

theorem refuse {path : String} {fault : GrammarFault} {Q : α → Prop} :
    KeepsCaptures (refuse path fault) Q :=
  ⟨decides_refuse not_false, fun hgives => absurd hgives not_gives_refuse⟩

end KeepsCaptures

end Build

theorem compileInclude_keepsCaptures (repositories : RepositoryChain) (path text : String) :
    KeepsCaptures (compileInclude repositories path text) fun _ => True := by
  unfold compileInclude
  cases IncludeTarget.ofString text with
  | entry name => exact KeepsCaptures.bind (.modify fun _ => rfl) fun _ _ => .pure trivial
  | self => exact .pure trivial
  | base => exact .pure trivial
  | foreign scopeName entry => exact .pure trivial

theorem captureSpace_keepsCaptures {entries : List (String × RuleSource)} (path : String)
    (hfit : ∀ e ∈ entries, ∀ n, captureKey? e.1 = some n → n < maxCaptureTable) :
    KeepsCaptures (captureSpace path entries) fun _ => True := by
  refine ⟨captureSpace_decides path False.elim hfit, fun hgives => ?_⟩
  obtain ⟨rfl, _⟩ := captureSpace_gives hgives
  exact List.prefix_rfl

theorem compileRepository_keepsCaptures {repositories : RepositoryChain} {path : String}
    {entries : List (String × RuleSource)}
    (h : ∀ stack, KeepsCaptures (compileEntries validate stack path entries) fun _ => True) :
    KeepsCaptures (compileRepository validate repositories path entries) fun _ => True := by
  rw [compileRepository, openRepository, bind_assoc]
  refine KeepsCaptures.bind (.of_adds addRepository_adds) fun id _ => ?_
  cases repositories.push id with
  | none => exact KeepsCaptures.bind (Q := fun _ => False) .refuse fun _ h => h.elim
  | some stack =>
    refine KeepsCaptures.bind (Q := fun _ => True) (.pure trivial) fun opened _ => ?_
    refine KeepsCaptures.bind (h opened.2) fun lists _ => ?_
    exact KeepsCaptures.bind (.modify fun _ => rfl) fun _ _ => .pure trivial

/-- Rules whose capture tables can be built are compiled by steps that end well or refuse a place in
the grammar, and leave the captures there are as they are. -/
theorem keepsCaptures_traversal {s : GrammarSource} (hfit : s.CapturesFit validate) :
    Traversal validate s KeepsCaptures (fun _ _ => True) fun _ => True where
  pure := .pure
  bind := .bind
  adds hadds _ _ := .of_adds hadds
  skip _ _ := .modify fun _ => rfl
  linked path _ _ _ _ :=
    ⟨fun b => ((compileInclude_keepsCaptures _ path _).1 b).imp_left
      fun ⟨item, c, hgives, _⟩ => ⟨item, c, hgives, fun _ _ => trivial⟩,
      (compileInclude_keepsCaptures _ path _).2⟩
  refuse _ _ _ _ _ := .refuse
  space path hr htaken ht := captureSpace_keepsCaptures path (hfit _ _ _ hr htaken _ ht)
  repository _ _ _ _ _ _ hentries :=
    compileRepository_keepsCaptures fun stack => hentries stack trivial

/-! ## Room for a table -/

theorem captureKeys_of_isSome {entries : List (String × RuleSource)}
    (h : ∀ e ∈ entries, ∃ n, captureKey? e.1 = some n) :
    ∃ numbers, captureKeys entries = .ok numbers := by
  cases hkeys : captureKeys entries with
  | error key =>
    obtain ⟨e, he, hnone⟩ := captureKeys_eq_error hkeys
    obtain ⟨n, hn⟩ := h e he
    cases hnone.symm.trans hn
  | ok numbers => exact ⟨numbers, rfl⟩

theorem captureKeys_of_bad {before after : List (String × RuleSource)} {key : String}
    {r : RuleSource} (hbefore : ∀ e ∈ before, ∃ n, captureKey? e.1 = some n)
    (hkey : captureKey? key = none) :
    captureKeys (before ++ (key, r) :: after) = .error key := by
  induction before with
  | nil => rw [List.nil_append, captureKeys, hkey]
  | cons e before ih =>
    obtain ⟨⟨n, hn⟩, hrest⟩ := List.forall_mem_cons.1 hbefore
    rw [List.cons_append, captureKeys, hn, ih hrest]
    rfl

/-- The table has a place for the greatest key, and there is no room for more places than
`maxCaptureTable`. -/
theorem captureSpace_run {entries : List (String × RuleSource)} (path : String) (b : Builder)
    (hkeys : ∀ e ∈ entries, ∃ n, captureKey? e.1 = some n) :
    ((∃ e ∈ entries, ∃ n, captureKey? e.1 = some n ∧ maxCaptureTable ≤ n) ∧
      (captureSpace path entries).run b = (.error (.captureTable path), b)) ∨
    ∃ size, (captureSpace path entries).run b = (.ok ⟨size, []⟩, b) ∧ size ≤ maxCaptureTable ∧
      (∀ e ∈ entries, ∃ n, captureKey? e.1 = some n ∧ n < size) ∧
      (size ≠ 0 → ∃ e ∈ entries, captureKey? e.1 = some (size - 1)) := by
  obtain ⟨numbers, hnumbers⟩ := captureKeys_of_isSome hkeys
  have hmap := captureKeys_eq_ok hnumbers
  have hmem : ∀ {n}, n ∈ numbers ↔ ∃ e ∈ entries, captureKey? e.1 = some n := by
    intro n
    have hiff : some n ∈ entries.map (fun e => captureKey? e.1) ↔ some n ∈ numbers.map some := by
      rw [hmap]
    simpa using hiff.symm
  cases numbers with
  | nil =>
    obtain rfl : entries = [] := by simpa using hmap
    exact .inr ⟨0, rfl, Nat.zero_le _, nofun, fun h => absurd rfl h⟩
  | cons first rest =>
    obtain ⟨htop, hle⟩ := List.max?_eq_some_iff.1
      (List.max?_cons' : (0 :: first :: rest).max? = some ((first :: rest).foldl max 0))
    generalize hgreatest : (first :: rest).foldl max 0 = greatest at htop hle
    have hgreatest' : ∃ e ∈ entries, captureKey? e.1 = some greatest := by
      refine hmem.1 ?_
      obtain rfl | htop := List.mem_cons.1 htop
      · have hfirst := hle first (.tail _ (.head _))
        rw [← Nat.le_zero.1 hfirst]
        exact .head _
      · exact htop
    have hrun : captureSpace path entries =
        if maxCaptureTable < greatest + 1 then throw (.captureTable path)
        else pure ⟨greatest + 1, []⟩ := by
      rw [captureSpace, hnumbers]
      dsimp only
      rw [hgreatest]
    rw [hrun]
    split
    · next hlarge =>
      obtain ⟨e, he, hkey⟩ := hgreatest'
      exact .inl ⟨⟨e, he, greatest, hkey, by omega⟩, rfl⟩
    · refine .inr ⟨greatest + 1, rfl, by omega, fun e he => ?_, fun _ => hgreatest'⟩
      obtain ⟨n, hn⟩ := hkeys e he
      exact ⟨n, hn, Nat.lt_succ_of_le (hle n (.tail _ (hmem.2 ⟨e, he, hn⟩)))⟩

/-! ## Filling a table -/

/-- The capture tables that are looked at in these rules can be built. -/
def RulesFit (validate : Validator) (rules : List RuleSource) : Prop :=
  ({ scopeName := "", patterns := rules } : GrammarSource).CapturesFit validate

/-- A table with room for all keys of these entries and no more, that has at each number what the
last entry for it was compiled to that has scopes or rules, and nothing where there is no such
entry. -/
structure CaptureTable.Describes (validate : Validator) (repositories : RepositoryChain)
    (path : String) (entries : List (String × RuleSource)) (c : Builder) (table : CaptureTable) :
    Prop where
  size_le : table.size ≤ maxCaptureTable
  key_lt : ∀ e ∈ entries, ∃ n, captureKey? e.1 = some n ∧ n < table.size
  greatest : table.size ≠ 0 → ∃ e ∈ entries, captureKey? e.1 = some (table.size - 1)
  inside : ∀ place ∈ table.entries, place.1 < table.size
  unfilled : ∀ n, (∀ e ∈ entries, captureKey? e.1 = some n → ¬ e.2.Fills) → table.get? n = none
  filled : ∀ before key r after n, entries = before ++ (key, r) :: after →
    captureKey? key = some n → r.Fills →
    (∀ e ∈ after, captureKey? e.1 = some n → ¬ e.2.Fills) →
    ∃ id, table.get? n = some id ∧
      c.HoldsCapture validate repositories (path ++ "." ++ key) r id

variable {repositories : RepositoryChain} {path : String}

theorem keepCapture_gives {scopes : List Scope} {patterns : Option ListId}
    {id : Option CaptureId} {b c : Builder} (h : Gives (keepCapture scopes patterns) b id c) :
    id = none ∧ scopes = [] ∧ patterns = none ∨
      (scopes ≠ [] ∨ patterns ≠ none) ∧ ∃ i, id = some i ∧
        i.index = b.grammar.captures.size % 2 ^ 32 ∧ c = b.add (.capture ⟨scopes, patterns⟩) := by
  rw [keepCapture] at h
  split at h
  · next hempty =>
    obtain ⟨rfl, -⟩ := gives_pure.1 h
    rw [Bool.and_eq_true, List.isEmpty_iff, Option.isNone_iff_eq_none] at hempty
    exact .inl ⟨rfl, hempty⟩
  · next hsome =>
    obtain ⟨i, d, hadd, h⟩ := gives_bind.1 h
    obtain ⟨rfl, rfl⟩ := gives_pure.1 h
    obtain ⟨rfl, hpart⟩ := (addCapture_pushes _).of_gives hadd
    refine .inr ⟨?_, i, rfl, congrArg PartId.index hpart, rfl⟩
    rw [Bool.and_eq_true, List.isEmpty_iff, Option.isNone_iff_eq_none] at hsome
    exact not_and_or.1 hsome

theorem captureItems_isNone {rules : List RuleSource} {patterns : Option ListId} {b c : Builder}
    (h : Gives (captureItems validate repositories path rules) b patterns c) :
    patterns = none ↔ rules = [] := by
  rw [captureItems] at h
  split at h
  · next hempty =>
    obtain ⟨rfl, -⟩ := gives_pure.1 h
    exact iff_of_true rfl (List.isEmpty_iff.1 hempty)
  · next hne =>
    obtain ⟨list, d, -, h⟩ := gives_bind.1 h
    obtain ⟨rfl, -⟩ := gives_pure.1 h
    exact iff_of_false (Option.some_ne_none _) fun heq => hne (List.isEmpty_iff.2 heq)

/-- A capture is added if it has scopes or rules. -/
theorem compileCapture_gives {r : RuleSource} {id : Option CaptureId} {b c : Builder}
    (h : Gives (compileCapture validate repositories path r) b id c) :
    id = none ∧ ¬ r.Fills ∨
      r.Fills ∧ ∃ i, id = some i ∧ c.HoldsCapture validate repositories path r i := by
  obtain ⟨patterns, d, hitems, hkeep⟩ := gives_bind.1 h
  have hnone := captureItems_isNone hitems
  obtain ⟨rfl, hscopes, hpatterns⟩ | ⟨hfills, i, rfl, hindex, rfl⟩ := keepCapture_gives hkeep
  · refine .inl ⟨rfl, ?_⟩
    rw [RuleSource.Fills, hscopes, hnone.1 hpatterns]
    simp
  · refine .inr ⟨hfills.imp_right (mt hnone.2), i, rfl, _, patterns, b, d, ?_, hindex, hitems⟩
    exact Array.getElem?_push_size

theorem compileCapture_error {r : RuleSource} {e : Error} {b c : Builder}
    (h : (compileCapture validate repositories path r).run b = (.error e, c)) :
    (compileItems validate repositories (path ++ ".patterns") r.patterns).run b = (.error e, c) := by
  have hkeep : ∀ patterns d, (keepCapture (scopesOf r.name) patterns).run d ≠ (.error e, c) := by
    intro patterns d hrun
    rw [keepCapture] at hrun
    split at hrun <;> cases hrun
  rw [compileCapture, run_bind] at h
  split at h
  · exact absurd h (hkeep _ _)
  · next hitems =>
    cases h
    rw [captureItems] at hitems
    split at hitems
    · cases hitems
    · rw [run_bind] at hitems
      split at hitems
      · cases hitems
      · next hlist =>
        cases hitems
        exact hlist

section Filling

variable {entries : List (String × RuleSource)} {table table' : CaptureTable} {b c : Builder}

theorem CaptureTable.get?_putKey {key : String} {n : Nat} (hkey : captureKey? key = some n)
    (id : CaptureId) : (table.putKey key (some id)).get? n = some id := by
  rw [putKey, hkey, get?_put, Option.getD_some, if_pos rfl]

theorem CaptureTable.get?_putKey_of_ne {key : String} {m n : Nat} (hkey : captureKey? key = some m)
    (hne : m ≠ n) (id : Option CaptureId) : (table.putKey key id).get? n = table.get? n := by
  cases id with
  | none => rfl
  | some i => rw [putKey, hkey, get?_put, Option.getD_some, if_neg hne.symm]

/-- Filling keeps the places that there are, and fills places whose numbers are keys. -/
theorem fillCaptures_places (hkeys : ∀ e ∈ entries, ∃ n, captureKey? e.1 = some n)
    (h : Gives (fillCaptures validate repositories path table entries) b table' c) :
    table'.size = table.size ∧ ∀ place ∈ table'.entries, place ∈ table.entries ∨
      ∃ e ∈ entries, captureKey? e.1 = some place.1 := by
  induction entries generalizing table b with
  | nil =>
    rw [fillCaptures] at h
    obtain ⟨rfl, -⟩ := gives_pure.1 h
    exact ⟨rfl, fun _ => .inl⟩
  | cons e rest ih =>
    obtain ⟨key, r⟩ := e
    obtain ⟨⟨n, hkey⟩, hrest⟩ := List.forall_mem_cons.1 hkeys
    rw [fillCaptures_cons] at h
    obtain ⟨id, d, -, h⟩ := gives_bind.1 h
    obtain ⟨hsize, hplaces⟩ := ih hrest h
    refine ⟨hsize.trans (by cases id <;> rfl), fun place hplace => ?_⟩
    obtain hplace | ⟨e, he, hkey'⟩ := hplaces place hplace
    · cases id with
      | none => exact .inl hplace
      | some i =>
        rw [CaptureTable.putKey, hkey, CaptureTable.put] at hplace
        refine (CaptureTable.mem_putPlace hplace).symm.imp_right fun heq => ?_
        exact ⟨(key, r), .head _, by rw [heq]; exact hkey⟩
    · exact .inr ⟨e, .tail _ he, hkey'⟩

/-- A place for which no entry has a capture stays as it is. -/
theorem fillCaptures_unfilled {n : Nat} (hkeys : ∀ e ∈ entries, ∃ n, captureKey? e.1 = some n)
    (hnone : ∀ e ∈ entries, captureKey? e.1 = some n → ¬ e.2.Fills)
    (h : Gives (fillCaptures validate repositories path table entries) b table' c) :
    table'.get? n = table.get? n := by
  induction entries generalizing table b with
  | nil =>
    rw [fillCaptures] at h
    obtain ⟨rfl, -⟩ := gives_pure.1 h
    rfl
  | cons e rest ih =>
    obtain ⟨key, r⟩ := e
    obtain ⟨⟨m, hkey⟩, hrest⟩ := List.forall_mem_cons.1 hkeys
    obtain ⟨hhead, hnone⟩ := List.forall_mem_cons.1 hnone
    rw [fillCaptures_cons] at h
    obtain ⟨id, d, hid, h⟩ := gives_bind.1 h
    rw [ih hrest hnone h]
    obtain ⟨rfl, -⟩ | ⟨hfills, -⟩ := compileCapture_gives hid
    · rfl
    · refine CaptureTable.get?_putKey_of_ne hkey (fun heq => ?_) id
      exact hhead (heq ▸ hkey) hfills

/-- The last entry that has a capture for a place fills it. -/
theorem fillCaptures_filled {s : GrammarSource} (t : Traversal validate s KeepsCaptures
      (fun _ _ => True) fun _ => True)
    (hrules : ∀ r ∈ entries.flatMap (·.2.patterns), s.Visits validate [s.repository] r)
    (hkeys : ∀ e ∈ entries, ∃ n, captureKey? e.1 = some n)
    (h : Gives (fillCaptures validate repositories path table entries) b table' c)
    {before after : List (String × RuleSource)} {key : String} {r : RuleSource} {n : Nat}
    (hsplit : entries = before ++ (key, r) :: after) (hkey : captureKey? key = some n)
    (hfills : r.Fills) (hlast : ∀ e ∈ after, captureKey? e.1 = some n → ¬ e.2.Fills) :
    ∃ id, table'.get? n = some id ∧
      c.HoldsCapture validate repositories (path ++ "." ++ key) r id := by
  induction before generalizing entries table b with
  | nil =>
    subst hsplit
    rw [List.nil_append] at h hkeys hrules
    rw [fillCaptures_cons] at h
    obtain ⟨id, d, hid, h⟩ := gives_bind.1 h
    obtain ⟨-, hnot⟩ | ⟨-, i, rfl, hholds⟩ := compileCapture_gives hid
    · exact absurd hfills hnot
    · rw [List.flatMap_cons, List.forall_mem_append] at hrules
      have hstay := (t.captures (fun r hr path => t.rule path (hrules.2 r hr) trivial) path _).2 h
      refine ⟨i, ?_, hstay.holds hholds⟩
      rw [fillCaptures_unfilled (List.forall_mem_cons.1 hkeys).2 hlast h]
      exact CaptureTable.get?_putKey hkey i
  | cons e before ih =>
    subst hsplit
    rw [List.cons_append] at h hkeys hrules
    rw [fillCaptures_cons] at h
    obtain ⟨id, d, -, h⟩ := gives_bind.1 h
    rw [List.flatMap_cons, List.forall_mem_append] at hrules
    exact ih hrules.2 (List.forall_mem_cons.1 hkeys).2 h rfl

/-- Nothing but the rules of a capture is refused while a table is filled. -/
theorem fillCaptures_error {e : Error}
    (h : (fillCaptures validate repositories path table entries).run b = (.error e, c)) :
    ∃ entry ∈ entries, ∃ d, (compileItems validate repositories
      (path ++ "." ++ entry.1 ++ ".patterns") entry.2.patterns).run d = (.error e, c) := by
  induction entries generalizing table b with
  | nil =>
    rw [fillCaptures] at h
    cases h
  | cons entry rest ih =>
    obtain ⟨key, r⟩ := entry
    rw [fillCaptures_cons, run_bind] at h
    split at h
    · obtain ⟨entry, hentry, d, hd⟩ := ih h
      exact ⟨entry, .tail _ hentry, d, hd⟩
    · next hcapture =>
      cases h
      exact ⟨(key, r), .head _, b, compileCapture_error hcapture⟩

end Filling

/-! ## Whole tables -/

theorem compileTable_of_large {entries : List (String × RuleSource)} {b : Builder}
    (hkeys : ∀ e ∈ entries, ∃ n, captureKey? e.1 = some n) {e : String × RuleSource}
    (he : e ∈ entries) {n : Nat} (hn : captureKey? e.1 = some n) (hlarge : maxCaptureTable ≤ n) :
    (compileTable validate repositories path entries).run b = (.error (.captureTable path), b) := by
  obtain ⟨-, hrun⟩ | ⟨size, -, hle, hlt, -⟩ := captureSpace_run path b hkeys
  · rw [compileTable, run_bind, hrun]
  · obtain ⟨m, hm, hsize⟩ := hlt e he
    cases hn.symm.trans hm
    omega

/-- A key that is no group number is refused, and nothing is compiled. If all of them are numbers
but there is no room for one of them, everything ends there. Otherwise the answer is a table that
has the last capture given for each number, unless the rules of a capture are refused. -/
theorem compileTable_cases (validate : Validator) (repositories : RepositoryChain) (path : String)
    (entries : List (String × RuleSource)) (b : Builder) :
    (∀ before key r after, entries = before ++ (key, r) :: after →
      (∀ e ∈ before, ∃ n, captureKey? e.1 = some n) → captureKey? key = none →
      (compileTable validate repositories path entries).run b =
        (.error (.grammar (path ++ "." ++ key) .badCaptureKey), b)) ∧
    ((∀ e ∈ entries, ∃ n, captureKey? e.1 = some n) →
      (∃ e ∈ entries, ∃ n, captureKey? e.1 = some n ∧ maxCaptureTable ≤ n) →
      (compileTable validate repositories path entries).run b =
        (.error (.captureTable path), b)) ∧
    ((∀ e ∈ entries, ∃ n, captureKey? e.1 = some n ∧ n < maxCaptureTable) →
      RulesFit validate (entries.flatMap (·.2.patterns)) →
      (∃ table c, (compileTable validate repositories path entries).run b = (.ok table, c) ∧
        table.Describes validate repositories path entries c) ∨
      ∃ e ∈ entries, ∃ d place fault c,
        (compileTable validate repositories path entries).run b =
          (.error (.grammar place fault), c) ∧
        (compileItems validate repositories (path ++ "." ++ e.1 ++ ".patterns") e.2.patterns).run d =
          (.error (.grammar place fault), c)) := by
  refine ⟨?_, ?_, ?_⟩
  · rintro before key r after rfl hbefore hkey
    rw [compileTable, run_bind, captureSpace, captureKeys_of_bad hbefore hkey]
    rfl
  · rintro hkeys ⟨e, he, n, hn, hlarge⟩
    exact compileTable_of_large hkeys he hn hlarge
  · intro hroom hfit
    have hkeys : ∀ e ∈ entries, ∃ n, captureKey? e.1 = some n := fun e he =>
      (hroom e he).imp fun n hn => hn.1
    obtain ⟨⟨e, he, n, hn, hlarge⟩, -⟩ | ⟨size, hspace, hle, hlt, hgreatest⟩ :=
      captureSpace_run path b hkeys
    · obtain ⟨m, hm, hroom⟩ := hroom e he
      cases hn.symm.trans hm
      omega
    have hrun : (compileTable validate repositories path entries).run b =
        (fillCaptures validate repositories path ⟨size, []⟩ entries).run b := by
      rw [compileTable, run_bind, hspace]
    have t := keepsCaptures_traversal hfit
    have hfill : KeepsCaptures (fillCaptures validate repositories path ⟨size, []⟩ entries)
        fun _ => True :=
      t.captures (fun r hr path => t.rule path (.pattern hr) trivial) path _
    rw [hrun]
    obtain ⟨table, c, hgives, -⟩ | ⟨-, place, fault, c, hrefused⟩ := hfill.1 b
    · refine .inl ⟨table, c, hgives, ?_⟩
      obtain ⟨hsize, hplaces⟩ := fillCaptures_places hkeys hgives
      dsimp only at hsize
      subst hsize
      refine ⟨hle, hlt, hgreatest, fun place hplace => ?_, fun n hnone => ?_, ?_⟩
      · obtain hplace | ⟨e, he, hkey⟩ := hplaces place hplace
        · cases hplace
        · obtain ⟨n, hn, hlt⟩ := hlt e he
          cases hkey.symm.trans hn
          exact hlt
      · exact fillCaptures_unfilled hkeys hnone hgives
      · intro before key r after n hsplit hkey hfills hlast
        exact fillCaptures_filled t (fun r hr => .pattern hr) hkeys hgives hsplit hkey hfills hlast
    · obtain ⟨e, he, d, hitems⟩ := fillCaptures_error hrefused
      exact .inr ⟨e, he, d, place, fault, c, hrefused, hitems⟩

/-- Two captures for the same group, of which the second one has a rule too, and one that has
nothing. -/
def sharedEntries : List (String × RuleSource) :=
  [("07", { name := some "first" }),
    ("7", { name := some "second", patterns := [{ matchText := some "b" }] }), ("9", {})]

theorem sharedEntries_fit :
    RulesFit Regex.engine.validator (sharedEntries.flatMap (·.2.patterns)) := by
  have hvisits : ∀ {chain r}, ({ scopeName := "", patterns := sharedEntries.flatMap (·.2.patterns) }
      : GrammarSource).Visits Regex.engine.validator chain r → r = { matchText := some "b" } := by
    intro chain r h
    induction h with
    | ownEntry he => cases he
    | pattern hr => exact List.mem_singleton.1 hr
    | entry _ _ _ he ih =>
      subst ih
      cases he
    | inside _ htaken hc ih =>
      subst ih
      cases htaken.form
      cases hc
  intro chain r shape hr htaken table ht e he
  obtain rfl := hvisits hr
  cases htaken.form
  cases List.mem_singleton.1 ht
  cases he

theorem compileTable_cases_shared :
    (∀ e ∈ sharedEntries, ∃ n, captureKey? e.1 = some n ∧ n < maxCaptureTable) ∧
      RulesFit Regex.engine.validator (sharedEntries.flatMap (·.2.patterns)) ∧
      ∃ table c, (compileTable Regex.engine.validator .empty "captures" sharedEntries).run
          (.first { scopeName := "source.shared" }) = (.ok table, c) ∧
        table.get? 9 = none ∧ ∃ id, table.get? 7 = some id ∧
          c.HoldsCapture Regex.engine.validator .empty "captures.7"
            { name := some "second", patterns := [{ matchText := some "b" }] } id := by
  have hseven : captureKey? "07" = some 7 ∧ captureKey? "7" = some 7 := by decide +kernel
  have hnine : captureKey? "9" = some 9 := by decide +kernel
  have hkeys : ∀ e ∈ sharedEntries, ∃ n, captureKey? e.1 = some n ∧ n < maxCaptureTable := by
    simp only [sharedEntries, List.forall_mem_cons]
    exact ⟨⟨7, hseven.1, by decide⟩, ⟨7, hseven.2, by decide⟩, ⟨9, hnine, by decide⟩, nofun⟩
  refine ⟨hkeys, sharedEntries_fit, ?_⟩
  obtain ⟨table, c, hrun, hdescribes⟩ | ⟨_, _, _, _, _, _, hrefused, _⟩ :=
    (compileTable_cases Regex.engine.validator .empty "captures" sharedEntries
      (.first { scopeName := "source.shared" })).2.2 hkeys sharedEntries_fit
  · refine ⟨table, c, hrun, hdescribes.unfilled 9 ?_, ?_⟩
    · simp only [sharedEntries, List.forall_mem_cons, hseven, Option.some.injEq]
      refine ⟨nofun, nofun, fun _ hfills => ?_, nofun⟩
      exact hfills.elim (fun h => h rfl) fun h => h rfl
    · refine hdescribes.filled [("07", { name := some "first" })] "7" _ [("9", {})] 7 rfl hseven.2
        (.inr (List.cons_ne_nil _ _)) ?_
      simp only [List.forall_mem_cons, hnine, Option.some.injEq]
      exact ⟨nofun, nofun⟩
  · have hsome : ((compileTable Regex.engine.validator .empty "captures" sharedEntries).run
        (.first { scopeName := "source.shared" })).1.toOption.isSome = true := by decide +kernel
    rw [hrefused] at hsome
    cases hsome

/-- The greatest number of 64 bits is a group number. -/
def widestEntries : List (String × RuleSource) :=
  [("18446744073709551615", { name := some "x" })]

def widestSource : GrammarSource where
  scopeName := "source.wide"
  patterns := [{ matchText := some "a", captures := widestEntries }]

/-- A table with a place for the greatest number of 64 bits has more places than such a number can
say. There is neither a table nor a place in the grammar to blame. -/
theorem captureTable_too_wide :
    captureKey? "18446744073709551615" = some (2 ^ 64 - 1) ∧
      (Grammar.ofSource Regex.engine.validator widestSource).1 =
        .error (.captureTable "patterns[0].captures") ∧
      ¬ ((∃ table c, (compileTable Regex.engine.validator .empty "patterns[0].captures"
            widestEntries).run (.first widestSource) = (.ok table, c)) ∨
          ∃ place fault c, (compileTable Regex.engine.validator .empty "patterns[0].captures"
            widestEntries).run (.first widestSource) = (.error (.grammar place fault), c)) := by
  have hkey : captureKey? "18446744073709551615" = some (2 ^ 64 - 1) := by decide +kernel
  have hkeys : ∀ e ∈ widestEntries, ∃ n, captureKey? e.1 = some n :=
    List.forall_mem_cons.2 ⟨⟨_, hkey⟩, nofun⟩
  have hrun : (compileTable Regex.engine.validator .empty "patterns[0].captures"
      widestEntries).run (.first widestSource) =
        (.error (.captureTable "patterns[0].captures"), .first widestSource) :=
    compileTable_of_large hkeys (.head _) hkey (by decide)
  refine ⟨hkey, by rfl, ?_⟩
  rintro (⟨table, c, h⟩ | ⟨place, fault, c, h⟩)
  · cases hrun.symm.trans h
  · cases hrun.symm.trans h

end ScopeGrammar
