import ScopeGrammar.Pattern.Regex
import ScopeGrammar.Proofs.Context.Store
import ScopeGrammar.Proofs.Grammar.Openings
import ScopeGrammar.Proofs.Grammar.Steps
import ScopeGrammar.Proofs.Registry.Additions
import ScopeGrammar.Proofs.Registry.Coherence

/-!
# ScopeGrammar.Proofs.Registry.Identifiers

Which numbers are given twice.

* `Registry.serveAll_numbers` : grammars are numbered in the order in which their scope names were
  first added, also when there are more of them than numbers.
* `Registry.contextsMade_ids` : so are the contexts that are made, one after the other.
* `Registry.identifiers_apart_iff` : numbers of grammars, of contexts and of the repositories of a
  grammar are all different as long as there are numbers for all of them, and no longer.
* `Registry.identifiers_come_round` has all three beyond that.
-/

namespace ScopeGrammar

/-- The number of the context that is made after so many others. -/
def ContextId.ofCount (n : Nat) : ContextId := ⟨n.toUInt32⟩

theorem ContextId.ofCount_eq_iff (i j : Nat) :
    ofCount i = ofCount j ↔ i % 2 ^ 32 = j % 2 ^ 32 := by
  simp [ofCount, ← UInt32.toNat_inj]

theorem GrammarId.ofCount_eq_iff (i j : Nat) :
    ofCount i = ofCount j ↔ i % 2 ^ 16 = j % 2 ^ 16 := by
  simp [ofCount, ← UInt16.toNat_inj]

namespace Registry

variable {P : Type} (engine : Engine P)

/-! ## Grammars -/

theorem Numbers.serve {r : Registry} {grammars : List Grammar} (h : r.Numbers grammars)
    (q : Request) : (r.serve engine q).2.Numbers (grammars ++ (q.grammar? engine).toList) := by
  obtain ⟨g, hg, hserve⟩ | ⟨hnone, ⟨e, hserve⟩ | ⟨s, hserve⟩⟩ := r.serve_cases engine q
  · rw [hserve, hg]
    exact h.add g
  · rw [hserve, hnone, Option.toList_none, List.append_nil]
    exact h
  · rw [hserve, hnone, Option.toList_none, List.append_nil]
    exact h.congr (r.resolve_sameGrammars s)

/-- Also with more scope names than numbers. -/
theorem serveAll_numbers (requests : List Request) :
    (serveAll engine requests).Numbers (added engine requests) := by
  induction requests using List.reverseRecOn with
  | nil => exact .empty
  | append_singleton requests q ih =>
    rw [added_append, serveAll_append]
    exact ih.serve engine q

/-- No two scope names have one number. -/
def Apart (r : Registry) : Prop := ∀ s t id, r.id? s = some id → r.id? t = some id → s = t

theorem Numbers.apart_iff {r : Registry} {grammars : List Grammar} (h : r.Numbers grammars) :
    r.Apart ↔ (scopeNames grammars).length ≤ 2 ^ 16 := by
  have hnodup := nodup_map_range'_iff (by decide) GrammarId.ofCount_eq_iff 0
    (scopeNames grammars).length
  rw [← hnodup, List.nodup_map_iff_inj_on List.nodup_range']
  constructor
  · intro hapart i hi j hj hij
    rw [List.mem_range'_1, Nat.zero_add] at hi hj
    have hi' := List.getElem?_eq_getElem hi.2
    have hj' := List.getElem?_eq_getElem hj.2
    have hname := hapart _ _ _ (h.id?_of_place hi') (hij ▸ h.id?_of_place hj')
    exact (nodup_scopeNames grammars).getElem_inj_iff.1 hname
  · intro hinj s t id hs ht
    obtain ⟨i, hi, rfl⟩ := h.exists_place hs
    obtain ⟨j, hj, hij⟩ := h.exists_place ht
    have hi' := (List.getElem?_eq_some_iff.1 hi).1
    have hj' := (List.getElem?_eq_some_iff.1 hj).1
    have hsame : i = j :=
      hinj i (List.mem_range'_1.2 (by omega)) j (List.mem_range'_1.2 (by omega)) hij
    subst hsame
    exact Option.some_inj.1 (hi.symm.trans hj)

/-! ## Contexts -/

/-- The context that a request makes; one that is kept already is not made again. -/
def contextMade? (r : Registry) : Request → Option Context
  | .resolve s =>
    if s.isReusable && (r.contexts.get? s).isSome then none else some (r.resolve s).1.1
  | _ => none

/-- The contexts that are made by some requests, one after the other. -/
def contextsMade (r : Registry) : List Request → List Context
  | [] => []
  | q :: rest => (r.contextMade? q).toList ++ contextsMade (r.serve engine q).2 rest

theorem add_made (r : Registry) (g : Grammar) : (r.add g).2.contexts.made = r.contexts.made := by
  rw [add_contexts]
  rfl

theorem addResult_made (r : Registry) (result : Except Error Grammar) :
    (r.addResult result).2.contexts.made = r.contexts.made := by
  obtain ⟨g, _, hr⟩ | ⟨e, _, hr⟩ := r.addResult_cases result
  · rw [hr, add_made]
  · rw [hr]

/-- A context that a request makes has the next number, and the count goes on behind it. -/
theorem serve_made (r : Registry) (q : Request) :
    (r.contextMade? q = none ∧ (r.serve engine q).2.contexts.made = r.contexts.made) ∨
      ∃ c, r.contextMade? q = some c ∧ c.id = .ofCount r.contexts.made ∧
        (r.serve engine q).2.contexts.made = r.contexts.made + 1 := by
  cases q with
  | add g => exact .inl ⟨rfl, r.add_made g⟩
  | addText json => exact .inl ⟨rfl, r.addResult_made _⟩
  | addFile contents => exact .inl ⟨rfl, r.addResult_made _⟩
  | resolve s =>
    rw [serve, contextMade?]
    by_cases hkept : s.isReusable = true ∧ (r.contexts.get? s).isSome = true
    · obtain ⟨c, hget⟩ := Option.isSome_iff_exists.1 hkept.2
      refine .inl ⟨if_pos (by simp [hkept]), ?_⟩
      rw [resolve_of_kept hkept.1 hget]
    · have hnew : s.isReusable = true → r.contexts.get? s = none := fun hs =>
        Option.not_isSome_iff_eq_none.1 fun hsome => hkept ⟨hs, hsome⟩
      refine .inr ⟨_, if_neg (by simpa using hkept), ?_⟩
      rw [resolve_anew hnew]
      exact ⟨r.buildContext_id s _, rfl⟩

/-- The numbers count on from how many contexts were made. -/
theorem contextsMade_ids (r : Registry) (requests : List Request) :
    (contextsMade engine r requests).map (·.id) =
      (List.range' r.contexts.made (contextsMade engine r requests).length).map .ofCount := by
  induction requests generalizing r with
  | nil => rfl
  | cons q rest ih =>
    rw [contextsMade]
    obtain ⟨hnone, hmade⟩ | ⟨c, hsome, hid, hmade⟩ := r.serve_made engine q
    · rw [hnone, Option.toList_none, List.nil_append, ih, hmade]
    · rw [hsome, Option.toList_some, List.singleton_append, List.map_cons, ih, hmade, hid,
        List.length_cons, List.range'_succ, List.map_cons]

/-- Situations that cannot come up again are made each time. -/
theorem contextsMade_replicate (r : Registry) {s : Situation} (hs : s.isReusable = false) (n : Nat) :
    (contextsMade engine r (List.replicate n (.resolve s))).length = n := by
  induction n generalizing r with
  | zero => rfl
  | succ n ih =>
    rw [List.replicate_succ, contextsMade, List.length_append, ih, contextMade?, hs]
    exact Nat.add_comm 1 n

/-! ## More than there are numbers for -/

/-- A name for each number. -/
def spelled (i : Nat) : String := String.ofList (List.replicate i 'a')

theorem spelled_inj {i j : Nat} : spelled i = spelled j ↔ i = j := by
  constructor
  · intro h
    simpa [spelled] using congrArg (·.toList.length) h
  · exact congrArg spelled

/-- Adds so many grammars, each with a scope name of its own. -/
def namedRequests (n : Nat) : List Request :=
  (List.range n).map fun i => .add (.start "" (spelled i) [])

theorem scopeNames_namedRequests (n : Nat) :
    scopeNames (added engine (namedRequests n)) = (List.range n).map spelled := by
  induction n with
  | zero => rfl
  | succ n ih =>
    have hnew : spelled n ∉ (List.range n).map spelled := by simp [spelled_inj]
    rw [namedRequests, List.range_succ, List.map_append, List.map_singleton, ← namedRequests,
      added_append, Request.grammar?, Option.toList_some, scopeNames_append, ih, Grammar.start,
      if_neg hnew, List.map_append, List.map_singleton]

end Registry

section Crowd

variable (validate : Validator)

/-- A container with a repository but without rules leaves nothing but the repository. -/
def RuleSource.crowd : RuleSource := { repository := [("y", {})] }

def crowdedSource (n : Nat) : GrammarSource :=
  { scopeName := "source.crowded", patterns := List.replicate n .crowd }

open Build

theorem crowd_gives (own : RepositoryId) (path : String) (b : Builder) :
    ∃ c, Gives (compileRule validate ⟨[own]⟩ path .crowd) b none c ∧
      c.grammar.count .repository = b.grammar.count .repository + 1 ∧
      c.localIncludes = b.localIncludes :=
  ⟨_, rfl, by simp [Grammar.count], rfl⟩

theorem crowds_give (own : RepositoryId) (path : String) (n i : Nat) (b : Builder) :
    ∃ c, Gives (compileRules validate ⟨[own]⟩ path i (List.replicate n .crowd)) b [] c ∧
      c.grammar.count .repository = b.grammar.count .repository + n ∧
      c.localIncludes = b.localIncludes := by
  induction n generalizing i b with
  | zero => exact ⟨b, rfl, rfl, rfl⟩
  | succ n ih =>
    obtain ⟨c, hhead, hcount, hincludes⟩ := crowd_gives validate own _ b
    obtain ⟨d, htail, hcount', hincludes'⟩ := ih (i + 1) c
    refine ⟨d, ?_, by omega, hincludes'.trans hincludes⟩
    rw [List.replicate_succ, compileRules]
    exact gives_bind.2 ⟨none, c, hhead, gives_bind.2 ⟨[], d, htail, rfl⟩⟩

/-- A grammar can have as many repositories as one likes. -/
theorem ofSource_crowded (n : Nat) :
    ∃ g, (Grammar.ofSource validate (crowdedSource n)).1 = .ok g ∧
      g.repositories.size = n + 1 := by
  obtain ⟨c, hrules, hcount, hincludes⟩ :=
    crowds_give validate ⟨0⟩ "patterns" n 0 (.bare (crowdedSource n))
  have hname : (Text.trim "source.crowded").isEmpty = false := by decide
  obtain ⟨root, haccepted⟩ := Grammar.ofSource_bare (crowdedSource n) hname rfl hrules
    hincludes
  refine ⟨_, haccepted, ?_⟩
  show c.grammar.count .repository = n + 1
  rw [hcount]
  exact Nat.add_comm 1 n

end Crowd

namespace Registry

/-- Situations that make a context each time. -/
def filledRequests (n : Nat) : List Request := List.replicate n (.resolve Log.filledSituation)

/-! ## All numbers -/

/-- After any requests to a new registry, and for any grammar that is accepted: the scope names, the
contexts that were made and the repositories of the grammar are numbered in order, and numbers that
do not fit are cut. So no number stands for two of them as long as there are no more than 2^16 scope
names, 2^32 contexts or 2^16 repositories; beyond that one does. -/
theorem identifiers_apart_iff {P : Type} (engine : Engine P) (requests : List Request)
    {validate : Validator} {source : GrammarSource} {g : Grammar}
    (haccepted : (Grammar.ofSource validate source).1 = .ok g) :
    let r := serveAll engine requests
    let names := scopeNames (added engine requests)
    let made := contextsMade engine .empty requests
    (∀ i s, names[i]? = some s → r.id? s = some (.ofCount i)) ∧
    (r.Apart ↔ names.length ≤ 2 ^ 16) ∧
    made.map (·.id) = (List.range made.length).map .ofCount ∧
    ((made.map (·.id)).Nodup ↔ made.length ≤ 2 ^ 32) ∧
    ∃ ids last, Build.Opens (compileSource validate source) (.first source) ids () last ∧
      last.grammar = g ∧ ids = (List.range g.repositories.size).map .ofCount ∧
      (ids.Nodup ↔ g.repositories.size ≤ 2 ^ 16) := by
  intro r names made
  have hnumbers : r.Numbers (added engine requests) := serveAll_numbers engine requests
  have hmade : made.map (·.id) = (List.range made.length).map .ofCount := by
    rw [List.range_eq_range']
    exact contextsMade_ids engine .empty requests
  obtain ⟨ids, last, hopens, hlast, hids⟩ := Grammar.ofSource_opens haccepted
  refine ⟨fun i s hplace => hnumbers.id?_of_place hplace, hnumbers.apart_iff, hmade, ?_, ids, last,
    hopens, hlast, hids, ?_⟩
  · rw [hmade, List.range_eq_range']
    exact nodup_map_range'_iff (by decide) ContextId.ofCount_eq_iff 0 _
  · rw [hids, List.range_eq_range']
    exact nodup_map_range'_iff (by decide) RepositoryId.ofCount_eq_iff 0 _

/-- Two grammars, and situations that come up twice. -/
def numberedRequests : List Request :=
  [.add nestedSpans, .resolve (.root ⟨0⟩), .resolve (.root ⟨0⟩)] ++ filledRequests 2 ++
    [.addText "[", .addText ruleText, .resolve (.root ⟨0⟩)]

theorem identifiers_apart_iff_numbered :
    (serveAll oneCharacter numberedRequests).Apart ∧
      (contextsMade oneCharacter .empty numberedRequests).map (·.id) =
        [⟨0⟩, ⟨1⟩, ⟨2⟩, ⟨3⟩] ∧
      ∃ g ids last, (Grammar.ofSource Regex.engine.validator (crowdedSource 1)).1 = .ok g ∧
        Build.Opens (compileSource Regex.engine.validator (crowdedSource 1))
          (.first (crowdedSource 1)) ids () last ∧ ids = [⟨0⟩, ⟨1⟩] := by
  obtain ⟨g, haccepted, hsize⟩ := ofSource_crowded Regex.engine.validator 1
  obtain ⟨_, hapart, hmade, _, ids, last, hopens, _, hids, _⟩ :=
    identifiers_apart_iff oneCharacter numberedRequests haccepted
  have hnames : scopeNames (added oneCharacter numberedRequests) = ["s", "t"] := by decide +kernel
  have hlength : (contextsMade oneCharacter .empty numberedRequests).length = 4 := by
    decide +kernel
  refine ⟨hapart.2 (by rw [hnames]; decide), ?_, g, ids, last, haccepted, hopens, ?_⟩
  · rw [hmade, hlength]
    rfl
  · rw [hids, hsize]
    rfl

/-- With one more than there are numbers for, two scope names have one number, and so do two contexts
and two repositories of a grammar that is accepted. -/
theorem identifiers_come_round :
    ¬ (serveAll Regex.engine (namedRequests (2 ^ 16 + 1))).Apart ∧
    ¬ ((contextsMade Regex.engine .empty (filledRequests (2 ^ 32 + 1))).map (·.id)).Nodup ∧
    ∃ g ids last, (Grammar.ofSource Regex.engine.validator (crowdedSource (2 ^ 16))).1 = .ok g ∧
      Build.Opens (compileSource Regex.engine.validator (crowdedSource (2 ^ 16)))
        (.first (crowdedSource (2 ^ 16))) ids () last ∧ last.grammar = g ∧ ¬ ids.Nodup := by
  refine ⟨?_, ?_, ?_⟩
  · rw [(serveAll_numbers Regex.engine _).apart_iff, scopeNames_namedRequests, List.length_map,
      List.length_range]
    exact Nat.not_succ_le_self _
  · rw [contextsMade_ids, nodup_map_range'_iff (by decide) ContextId.ofCount_eq_iff,
      filledRequests, contextsMade_replicate _ _ rfl]
    exact Nat.not_succ_le_self _
  · obtain ⟨g, haccepted, hsize⟩ := ofSource_crowded Regex.engine.validator (2 ^ 16)
    obtain ⟨ids, last, hopens, hlast, hids⟩ := Grammar.ofSource_opens haccepted
    refine ⟨g, ids, last, haccepted, hopens, hlast, ?_⟩
    rw [hids, List.range_eq_range', hsize, nodup_map_range'_iff (by decide)
      RepositoryId.ofCount_eq_iff]
    exact Nat.not_succ_le_self _

end Registry

end ScopeGrammar
