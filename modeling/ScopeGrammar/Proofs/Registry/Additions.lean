import Mathlib.Data.List.Induction
import Mathlib.Data.List.Nodup
import ScopeGrammar.Proofs.Context.Resolve
import ScopeGrammar.Proofs.World.History

/-!
# ScopeGrammar.Proofs.Registry.Additions

The grammars of a registry, against all it was asked for.

* `Registry.Request` is one thing a registry may be asked for: that a grammar is added, given as it
  is, as a text or as a file, or that a situation is resolved.
* `Registry.Lists` : a registry holds the latest grammar of each scope name, in the order in which
  the scope names were first added. Adding a grammar keeps this so (`Lists.add`), as long as there
  are numbers for all of them.
* `Registry.serveAll_integrity` : so it is after all requests, and a request that fails changes
  nothing.
-/

namespace ScopeGrammar

/-- The number of the grammar that is added after so many others. -/
def GrammarId.ofCount (n : Nat) : GrammarId := ⟨n.toUInt16⟩

theorem GrammarId.index_ofCount {n : Nat} (h : n < 65536) : (ofCount n).index = n := by
  simp only [index, ofCount, Nat.toUInt16, UInt16.toNat_ofNat']
  omega

@[simp] theorem GrammarId.ofCount_index (id : GrammarId) : ofCount id.index = id := by
  simp [index, ofCount]

namespace Registry

/-! ## Requests -/

inductive Request where
  | add (g : Grammar)
  | addText (json : String)
  /-- Adds the grammar of a file with these contents, if there is one. -/
  | addFile (contents : Option (List UInt8))
  | resolve (s : Situation)

section

variable {P : Type} (engine : Engine P)

/-- What a registry answers, if a grammar was to be added, and what becomes of it. -/
def serve (r : Registry) : Request → Option (Except Error GrammarId) × Registry
  | .add g => (some (.ok (r.add g).1), (r.add g).2)
  | .addText json => (some (r.addText engine json).1.1, (r.addText engine json).2)
  | .addFile contents => (some (r.addFile engine contents).1.1, (r.addFile engine contents).2)
  | .resolve s => (none, (r.resolve s).2)

/-- A new registry after some requests. -/
def serveAll (requests : List Request) : Registry :=
  requests.foldl (fun r q => (r.serve engine q).2) .empty

/-- The grammar that a request adds, none if it fails. -/
def Request.grammar? : Request → Option Grammar
  | add g => some g
  | addText json => (Grammar.ofText engine.validator json).1.toOption
  | addFile contents => (Grammar.ofFile engine.validator contents).1.toOption
  | resolve _ => none

/-- The grammars that were added by some requests. -/
def added (requests : List Request) : List Grammar := requests.filterMap (·.grammar? engine)

end

/-- The scope names of some grammars, each where it comes first. -/
def scopeNames (grammars : List Grammar) : List String := (grammars.map (·.scopeName)).eraseDups

/-- The last grammar of a scope name. -/
def latest? (grammars : List Grammar) (scopeName : String) : Option Grammar :=
  grammars.reverse.find? (·.scopeName == scopeName)

theorem latest?_append (grammars : List Grammar) (g : Grammar) (scopeName : String) :
    latest? (grammars ++ [g]) scopeName =
      if g.scopeName = scopeName then some g else latest? grammars scopeName := by
  by_cases h : g.scopeName = scopeName <;> simp [latest?, h]

theorem mem_scopeNames {grammars : List Grammar} {scopeName : String} :
    scopeName ∈ scopeNames grammars ↔ ∃ g ∈ grammars, g.scopeName = scopeName := by
  simp [scopeNames]

theorem scopeNames_append (grammars : List Grammar) (g : Grammar) :
    scopeNames (grammars ++ [g]) =
      if g.scopeName ∈ scopeNames grammars then scopeNames grammars
      else scopeNames grammars ++ [g.scopeName] := by
  rw [scopeNames, scopeNames, List.map_append, List.eraseDups_append]
  generalize grammars.map (·.scopeName) = names
  by_cases h : g.scopeName ∈ names <;> simp [List.removeAll, List.eraseDups_cons, h]

theorem nodup_scopeNames (grammars : List Grammar) : (scopeNames grammars).Nodup := by
  induction grammars using List.reverseRecOn with
  | nil => exact List.nodup_nil
  | append_singleton grammars g ih =>
    rw [scopeNames_append]
    split
    · exact ih
    · next hnew =>
      refine List.nodup_append.2 ⟨ih, List.nodup_singleton _, ?_⟩
      rintro a ha b hb rfl
      exact hnew (List.mem_singleton.1 hb ▸ ha)

theorem length_scopeNames_append_le (grammars more : List Grammar) :
    (scopeNames grammars).length ≤ (scopeNames (grammars ++ more)).length := by
  rw [scopeNames, scopeNames, List.map_append, List.eraseDups_append, List.length_append]
  exact Nat.le_add_right ..

theorem length_scopeNames_le (grammars : List Grammar) :
    (scopeNames grammars).length ≤ grammars.length := by
  induction grammars using List.reverseRecOn with
  | nil => exact Nat.le_refl _
  | append_singleton grammars g ih =>
    rw [scopeNames_append]
    split <;> simp <;> omega

theorem getElem?_scopeNames_append {grammars : List Grammar} {i : Nat} {s : String}
    (h : (scopeNames grammars)[i]? = some s) (g : Grammar) :
    (scopeNames (grammars ++ [g]))[i]? = some s := by
  rw [scopeNames_append]
  split
  · exact h
  · rw [List.getElem?_append_left (List.getElem?_eq_some_iff.1 h).1, h]

theorem idxOf?_append_singleton (l : List String) (s t : String) :
    (l ++ [s]).idxOf? t = (l.idxOf? t).or (if s = t then some l.length else none) := by
  simp [List.idxOf?, List.findIdx?_append]

/-! ## What a registry holds -/

/-- Each scope name has its number from where it was first added, as far as that fits into a number. -/
structure Numbers (r : Registry) (grammars : List Grammar) : Prop where
  size : r.grammars.size = (scopeNames grammars).length
  id? : ∀ s, r.id? s = ((scopeNames grammars).idxOf? s).map .ofCount

/-- Each scope name has its number, and stands for the grammar that was added last. -/
structure Lists (r : Registry) (grammars : List Grammar) : Prop extends r.Numbers grammars where
  grammars : ∀ i : Nat, r.grammars[i]? = ((scopeNames grammars)[i]?).bind (latest? grammars)

theorem id?_add {r : Registry} {s : String} {id : GrammarId} (g : Grammar)
    (h : r.id? s = some id) : (r.add g).2.id? s = some id := by
  rw [Registry.add]
  cases r.id? g.scopeName with
  | some _ => exact h
  | none =>
    rw [Registry.id?] at h ⊢
    simp [List.lookup_append, h]

theorem id?_add_self (r : Registry) (g : Grammar) :
    (r.add g).2.id? g.scopeName = some (r.add g).1 := by
  rw [Registry.add]
  cases hid : r.id? g.scopeName with
  | some _ => exact hid
  | none =>
    rw [Registry.id?] at hid ⊢
    simp [List.lookup_append, hid]

/-- What other scope names stand for stays. -/
theorem id?_add_of_ne (r : Registry) {g : Grammar} {s : String} (h : g.scopeName ≠ s) :
    (r.add g).2.id? s = r.id? s := by
  rw [Registry.add]
  cases r.id? g.scopeName with
  | some _ => rfl
  | none =>
    have hlast : [(g.scopeName, (⟨r.grammars.size.toUInt16⟩ : GrammarId))].lookup s = none := by
      simp [List.lookup_cons, beq_false_of_ne (Ne.symm h)]
    rw [Registry.id?, Registry.id?, List.lookup_append, hlast, Option.or_none]

namespace Numbers

variable {r r' : Registry} {grammars : List Grammar}

theorem empty : Registry.empty.Numbers [] where
  size := rfl
  id? _ := rfl

theorem congr (h : r.Numbers grammars) (hsame : r.SameGrammars r') : r'.Numbers grammars where
  size := hsame.grammars ▸ h.size
  id? s := by rw [← h.id?, Registry.id?, Registry.id?, hsame.ids]

theorem id?_eq_none (h : r.Numbers grammars) {s : String} (hnew : s ∉ scopeNames grammars) :
    r.id? s = none := by
  rw [h.id?, List.idxOf?_eq_none_iff.2 hnew]
  rfl

/-- A grammar with a new scope name gets the next number, one with a known scope name keeps it. -/
theorem add (h : r.Numbers grammars) (g : Grammar) : (r.add g).2.Numbers (grammars ++ [g]) := by
  by_cases hknown : g.scopeName ∈ scopeNames grammars
  · obtain ⟨i, hi⟩ := Option.isSome_iff_exists.1 (List.isSome_idxOf?.2 hknown)
    have hid : r.id? g.scopeName = some (.ofCount i) := by rw [h.id?, hi]; rfl
    have hnames : scopeNames (grammars ++ [g]) = scopeNames grammars := by
      rw [scopeNames_append, if_pos hknown]
    rw [Registry.add, hid]
    refine ⟨?_, fun s => hnames ▸ h.id? s⟩
    rw [hnames, ← h.size]
    exact Array.size_setIfInBounds
  · have hid := h.id?_eq_none hknown
    have hnames : scopeNames (grammars ++ [g]) = scopeNames grammars ++ [g.scopeName] := by
      rw [scopeNames_append, if_neg hknown]
    refine ⟨?_, fun s => ?_⟩
    · rw [Registry.add, hid]
      simp [hnames, h.size]
    · rw [hnames, idxOf?_append_singleton]
      by_cases hs : g.scopeName = s
      · subst hs
        rw [id?_add_self, Registry.add, hid]
        simp [List.idxOf?_eq_none_iff.2 hknown, h.size, GrammarId.ofCount]
      · rw [id?_add_of_ne r hs, h.id?]
        simp [hs]

theorem id?_of_place (h : r.Numbers grammars) {i : Nat} {s : String}
    (hplace : (scopeNames grammars)[i]? = some s) : r.id? s = some (.ofCount i) := by
  obtain ⟨hlt, hplace⟩ := List.getElem?_eq_some_iff.1 hplace
  have hi : (scopeNames grammars).idxOf? s = some i := by
    refine List.idxOf?_eq_some_iff.2 ⟨hlt, hplace, fun j hj hsame => ?_⟩
    exact Nat.ne_of_lt hj
      ((nodup_scopeNames grammars).getElem_inj_iff.1 (hsame.trans hplace.symm))
  rw [h.id?, hi]
  rfl

theorem exists_place (h : r.Numbers grammars) {s : String} {id : GrammarId}
    (hid : r.id? s = some id) : ∃ i, (scopeNames grammars)[i]? = some s ∧ id = .ofCount i := by
  rw [h.id?] at hid
  obtain ⟨i, hi, rfl⟩ := Option.map_eq_some_iff.1 hid
  obtain ⟨hlt, hplace, _⟩ := List.idxOf?_eq_some_iff.1 hi
  exact ⟨i, by rw [List.getElem?_eq_getElem hlt, hplace], rfl⟩

end Numbers

namespace Lists

variable {r r' : Registry} {grammars : List Grammar}

theorem empty : Registry.empty.Lists [] where
  toNumbers := .empty
  grammars _ := rfl

theorem congr (h : r.Lists grammars) (hsame : r.SameGrammars r') : r'.Lists grammars where
  toNumbers := h.toNumbers.congr hsame
  grammars i := by rw [← h.grammars, hsame.grammars]

/-- A grammar takes the place of the one with its scope name. -/
theorem replace (h : r.Lists grammars) (hcount : (scopeNames grammars).length ≤ 65536)
    {g : Grammar} (hknown : g.scopeName ∈ scopeNames grammars) :
    (r.add g).2.Lists (grammars ++ [g]) := by
  have hnames : scopeNames (grammars ++ [g]) = scopeNames grammars := by
    rw [scopeNames_append, if_pos hknown]
  obtain ⟨i, hi⟩ := Option.isSome_iff_exists.1 (List.isSome_idxOf?.2 hknown)
  obtain ⟨hlt, hplace, _⟩ := List.idxOf?_eq_some_iff.1 hi
  have hid : r.id? g.scopeName = some (.ofCount i) := by rw [h.id?, hi]; rfl
  have hindex : (GrammarId.ofCount i).index = i := GrammarId.index_ofCount (by omega)
  refine ⟨h.toNumbers.add g, fun j => ?_⟩
  rw [Registry.add, hid]
  dsimp only
  rw [Array.getElem?_setIfInBounds, hindex, hnames, h.size]
  by_cases hij : i = j
  · subst hij
    simp [hlt, hplace, latest?_append]
  · rw [if_neg hij, h.grammars]
    cases hname : (scopeNames grammars)[j]? with
    | none => rfl
    | some name =>
      -- a scope name has one place only
      have hother : g.scopeName ≠ name := by
        rintro rfl
        obtain ⟨hj, hsame⟩ := List.getElem?_eq_some_iff.1 hname
        exact hij ((nodup_scopeNames grammars).getElem_inj_iff.1 (hplace.trans hsame.symm))
      simp [latest?_append, hother]

/-- A grammar with a new scope name comes behind the others. -/
theorem extend (h : r.Lists grammars) {g : Grammar}
    (hnew : g.scopeName ∉ scopeNames grammars) : (r.add g).2.Lists (grammars ++ [g]) := by
  have hnames : scopeNames (grammars ++ [g]) = scopeNames grammars ++ [g.scopeName] := by
    rw [scopeNames_append, if_neg hnew]
  refine ⟨h.toNumbers.add g, fun j => ?_⟩
  rw [Registry.add, h.id?_eq_none hnew]
  dsimp only
  rw [Array.getElem?_push, hnames, h.size, h.grammars]
  rcases Nat.lt_trichotomy j (scopeNames grammars).length with hlt | rfl | hgt
  · have hother : g.scopeName ≠ (scopeNames grammars)[j] := fun heq =>
      hnew (heq ▸ List.getElem_mem hlt)
    simp [List.getElem?_append_left hlt, List.getElem?_eq_getElem hlt, latest?_append, hother,
      Nat.ne_of_lt hlt]
  · simp [latest?_append]
  · rw [if_neg (Nat.ne_of_gt hgt), List.getElem?_eq_none (Nat.le_of_lt hgt),
      List.getElem?_eq_none (by simp; omega)]
    rfl

theorem add (h : r.Lists grammars) (hcount : (scopeNames grammars).length ≤ 65536) (g : Grammar) :
    (r.add g).2.Lists (grammars ++ [g]) := by
  by_cases hknown : g.scopeName ∈ scopeNames grammars
  · exact h.replace hcount hknown
  · exact h.extend hknown

/-- What a scope name stands for. -/
theorem bind_id? (h : r.Lists grammars) (hcount : (scopeNames grammars).length ≤ 65536)
    (s : String) : (r.id? s).bind r.grammar? = latest? grammars s := by
  rw [h.id?]
  cases hi : (scopeNames grammars).idxOf? s with
  | none =>
    have hunknown : s ∉ scopeNames grammars := List.idxOf?_eq_none_iff.1 hi
    rw [mem_scopeNames] at hunknown
    have hnone : latest? grammars s = none := by simpa [latest?] using hunknown
    rw [hnone]
    rfl
  | some i =>
    obtain ⟨hlt, hplace, _⟩ := List.idxOf?_eq_some_iff.1 hi
    simp only [Option.map_some, Option.bind_some, grammar?]
    rw [GrammarId.index_ofCount (by omega), h.grammars, List.getElem?_eq_getElem hlt, hplace]
    rfl

/-- The number of a scope name is its place. -/
theorem id?_eq_some (h : r.Lists grammars) (hcount : (scopeNames grammars).length ≤ 65536)
    {s : String} {id : GrammarId} :
    r.id? s = some id ↔ (scopeNames grammars)[id.index]? = some s := by
  constructor
  · intro hid
    obtain ⟨i, hplace, rfl⟩ := h.exists_place hid
    have hlt := (List.getElem?_eq_some_iff.1 hplace).1
    rwa [GrammarId.index_ofCount (by omega)]
  · intro hplace
    rw [h.id?_of_place hplace, GrammarId.ofCount_index]

/-- A number stands for the last grammar of its scope name. -/
theorem exists_grammar (h : r.Lists grammars) (hcount : (scopeNames grammars).length ≤ 65536)
    {s : String} {id : GrammarId} (hid : r.id? s = some id) :
    ∃ g, latest? grammars s = some g ∧ r.grammar? id = some g := by
  have hplace : (scopeNames grammars)[id.index]? = some s := (h.id?_eq_some hcount).1 hid
  obtain ⟨k, hk, hname⟩ := mem_scopeNames.1 (List.mem_of_getElem? hplace)
  have hlatest : (latest? grammars s).isSome := by
    simp only [latest?, List.find?_isSome, List.mem_reverse]
    exact ⟨k, hk, beq_iff_eq.2 hname⟩
  obtain ⟨g, hg⟩ := Option.isSome_iff_exists.1 hlatest
  refine ⟨g, hg, ?_⟩
  rw [grammar?, h.grammars, hplace]
  exact hg

end Lists

/-! ## All requests -/

section

variable {P : Type} (engine : Engine P)

theorem addResult_cases (r : Registry) (result : Except Error Grammar) :
    (∃ g, result = .ok g ∧ r.addResult result = (.ok (r.add g).1, (r.add g).2)) ∨
      ∃ e, result = .error e ∧ r.addResult result = (.error e, r) := by
  cases result with
  | ok g => exact .inl ⟨g, rfl, rfl⟩
  | error e => exact .inr ⟨e, rfl, rfl⟩

/-- A grammar is added, nothing is changed at all, or a situation is resolved. -/
theorem serve_cases (r : Registry) (q : Request) :
    (∃ g, q.grammar? engine = some g ∧ r.serve engine q = (some (.ok (r.add g).1), (r.add g).2)) ∨
    q.grammar? engine = none ∧ ((∃ e, r.serve engine q = (some (.error e), r)) ∨
      ∃ s, r.serve engine q = (none, (r.resolve s).2)) := by
  cases q with
  | add g => exact .inl ⟨g, rfl, rfl⟩
  | resolve s => exact .inr ⟨rfl, .inr ⟨s, rfl⟩⟩
  | addText json =>
    simp only [serve, addText, Request.grammar?]
    obtain ⟨g, hg, hr⟩ | ⟨e, he, hr⟩ :=
      r.addResult_cases (Grammar.ofText engine.validator json).1
    · exact .inl ⟨g, by rw [hg]; rfl, by rw [hr]⟩
    · exact .inr ⟨by rw [he]; rfl, .inl ⟨e, by rw [hr]⟩⟩
  | addFile contents =>
    simp only [serve, addFile, Request.grammar?]
    obtain ⟨g, hg, hr⟩ | ⟨e, he, hr⟩ :=
      r.addResult_cases (Grammar.ofFile engine.validator contents).1
    · exact .inl ⟨g, by rw [hg]; rfl, by rw [hr]⟩
    · exact .inr ⟨by rw [he]; rfl, .inl ⟨e, by rw [hr]⟩⟩

theorem Lists.serve {r : Registry} {grammars : List Grammar} (h : r.Lists grammars)
    (hcount : (scopeNames grammars).length ≤ 65536) (q : Request) :
    (r.serve engine q).2.Lists (grammars ++ (q.grammar? engine).toList) := by
  obtain ⟨g, hg, hserve⟩ | ⟨hnone, ⟨e, hserve⟩ | ⟨s, hserve⟩⟩ := r.serve_cases engine q
  · rw [hserve, hg]
    exact h.add hcount g
  · rw [hserve, hnone, Option.toList_none, List.append_nil]
    exact h
  · rw [hserve, hnone, Option.toList_none, List.append_nil]
    exact h.congr (r.resolve_sameGrammars s)

theorem serveAll_append (requests : List Request) (q : Request) :
    serveAll engine (requests ++ [q]) = ((serveAll engine requests).serve engine q).2 := by
  simp [serveAll]

theorem added_append (requests : List Request) (q : Request) :
    added engine (requests ++ [q]) = added engine requests ++ (q.grammar? engine).toList := by
  cases hq : q.grammar? engine <;> simp [added, hq]

theorem serveAll_lists (requests : List Request)
    (hcount : (scopeNames (added engine requests)).length ≤ 65536) :
    (serveAll engine requests).Lists (added engine requests) := by
  induction requests using List.reverseRecOn with
  | nil => exact .empty
  | append_singleton requests q ih =>
    rw [added_append] at hcount ⊢
    rw [serveAll_append]
    have hbefore := Nat.le_trans (length_scopeNames_append_le ..) hcount
    exact (ih hbefore).serve engine hbefore q

/-- No request changes the number of a scope name. -/
theorem id?_serveAll {requests : List Request} {s : String} {id : GrammarId}
    (h : (serveAll engine requests).id? s = some id) (more : List Request) :
    (serveAll engine (requests ++ more)).id? s = some id := by
  induction more using List.reverseRecOn with
  | nil => rwa [List.append_nil]
  | append_singleton more q ih =>
    rw [← List.append_assoc, serveAll_append]
    generalize serveAll engine (requests ++ more) = r at ih
    obtain ⟨g, _, hserve⟩ | ⟨_, ⟨e, hserve⟩ | ⟨t, hserve⟩⟩ := r.serve_cases engine q
    · rw [hserve]
      exact id?_add g ih
    · rw [hserve]
      exact ih
    · rw [hserve, id?, (r.resolve_sameGrammars t).ids]
      exact ih

/-- After any requests to a new registry, as long as there is a number for each scope name: a scope
name is known if a request added a grammar with it, and stands for the last one that was added. The
numbers are 0, 1, 2 and so on in the order in which the scope names were first added; later requests
leave them as they are. A request that adds a grammar answers the number of its scope name, and one
that fails leaves the registry as it was, with all its contexts. -/
theorem serveAll_integrity (requests : List Request)
    (hcount : (scopeNames (added engine requests)).length ≤ 65536) :
    let r := serveAll engine requests
    (∀ s, r.contains s = true ↔ ∃ g ∈ added engine requests, g.scopeName = s) ∧
    (∀ s, (r.id? s).bind r.grammar? = latest? (added engine requests) s) ∧
    (∀ s id, r.id? s = some id ↔ (scopeNames (added engine requests))[id.index]? = some s) ∧
    (∀ more s id, r.id? s = some id → (serveAll engine (requests ++ more)).id? s = some id) ∧
    ∀ q, ((∃ g, q.grammar? engine = some g) ↔ ∃ id, (r.serve engine q).1 = some (.ok id)) ∧
      (∀ g id, q.grammar? engine = some g → (r.serve engine q).1 = some (.ok id) →
        (r.serve engine q).2.id? g.scopeName = some id) ∧
      ∀ e, (r.serve engine q).1 = some (.error e) → (r.serve engine q).2 = r := by
  intro r
  have hlists : r.Lists (added engine requests) := serveAll_lists engine requests hcount
  refine ⟨fun s => ?_, hlists.bind_id? hcount, fun s id => hlists.id?_eq_some hcount,
    fun more s id hid => id?_serveAll engine hid more, fun q => ?_⟩
  · rw [contains, hlists.id?, Option.isSome_map, List.isSome_idxOf?, mem_scopeNames]
  · obtain ⟨g, hg, hserve⟩ | ⟨hnone, ⟨e, hserve⟩ | ⟨s, hserve⟩⟩ := r.serve_cases engine q
    · rw [hserve, hg]
      refine ⟨⟨fun _ => ⟨_, rfl⟩, fun _ => ⟨g, rfl⟩⟩, ?_, nofun⟩
      rintro _ _ ⟨⟩ ⟨⟩
      exact r.id?_add_self g
    · rw [hserve, hnone]
      exact ⟨⟨nofun, nofun⟩, nofun, fun _ _ => rfl⟩
    · rw [hserve, hnone]
      exact ⟨⟨nofun, nofun⟩, nofun, nofun⟩

end

/-! ### Grammars added, refused and replaced -/

/-- The text of a grammar with one rule. -/
def ruleText : String :=
  "\x7b\"scopeName\":\"t\",\"patterns\":[\x7b\"match\":\"x\"\x7d]\x7d"

def otherSpans : Grammar := { nestedSpans with lists := #[[.rule ⟨1⟩]] }

/-- Two grammars are added and one of them is replaced, with requests that fail in between. -/
def mixedRequests : List Request :=
  [.add nestedSpans, .resolve (.root ⟨0⟩), .addText "[", .addText ruleText, .addFile none] ++
    [.add otherSpans]

theorem serveAll_integrity_mixed :
    (scopeNames (added oneCharacter mixedRequests)).length ≤ 65536 ∧
      (serveAll oneCharacter mixedRequests).id? "s" = some ⟨0⟩ ∧
      (serveAll oneCharacter mixedRequests).id? "t" = some ⟨1⟩ ∧
      (serveAll oneCharacter mixedRequests).grammar? ⟨0⟩ = some otherSpans ∧
      ((serveAll oneCharacter mixedRequests).serve oneCharacter (.addFile none)).2 =
        serveAll oneCharacter mixedRequests := by
  have hnames : scopeNames (added oneCharacter mixedRequests) = ["s", "t"] := by decide +kernel
  have hcount : (scopeNames (added oneCharacter mixedRequests)).length ≤ 65536 := by
    rw [hnames]
    decide
  obtain ⟨_, hlatest, hids, _, hserve⟩ := serveAll_integrity oneCharacter mixedRequests hcount
  have hid : (serveAll oneCharacter mixedRequests).id? "s" = some ⟨0⟩ :=
    (hids "s" ⟨0⟩).2 (by rw [hnames]; rfl)
  have hlast : latest? (added oneCharacter mixedRequests) "s" = some otherSpans := by
    rw [mixedRequests, added_append]
    exact (latest?_append _ otherSpans "s").trans (if_pos rfl)
  have hgrammar := hlatest "s"
  rw [hid, Option.bind_some, hlast] at hgrammar
  exact ⟨hcount, hid, (hids "t" ⟨1⟩).2 (by rw [hnames]; rfl), hgrammar,
    (hserve (.addFile none)).2.2 .io rfl⟩

end Registry

end ScopeGrammar
