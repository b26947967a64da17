import ScopeGrammar.Proofs.Grammar.References
import ScopeGrammar.Proofs.Pattern.Encoded
import ScopeGrammar.Proofs.Pattern.Forward

/-!
# ScopeGrammar.Proofs.Pattern.Searches

The three ways to search agree.

* `Regex.places_of_compile` : where nothing in a pattern sets the start of the match, a match starts
  at the position at which it was tried.
* `ByteEngine.searches_agree` : a group of patterns finds what the first of the patterns found
  leftmost finds by itself, a match at a position is what a search from there finds there, nothing
  is found at or behind the end, and it makes no difference whether characters or bytes are counted.
-/

namespace ScopeGrammar

namespace Regex

variable {options : MatchOptions} {source : String} {r : Regex}

/-- A compiled pattern has the options that it was compiled with and a program made of its tree. -/
theorem exists_of_compile (h : compile options source = .ok r) :
    r.options = options ∧ ∃ root groupCount, r.program = .ofNode root groupCount := by
  rw [compile] at h
  cases houtline : Pattern.Outline.ofString (flags options) source with
  | error e =>
    rw [houtline] at h
    cases h
  | ok outline =>
    rw [houtline] at h
    dsimp only [bind, Except.bind] at h
    split at h
    · cases h
    · split at h
      · cases h
      · cases h
        exact ⟨rfl, _, _, rfl⟩

/-- Where nothing in a pattern sets the start of the match, a match starts where it was tried. -/
theorem places_of_compile (h : compile {} source = .ok r)
    (hkeep : r.program.root.keepFree = true) : engine.Places r := by
  intro t start pos m hpos hm
  obtain ⟨hoptions, root, groupCount, hprogram⟩ := exists_of_compile h
  have hattempt : r.program.attempt t start pos none = some m := by
    have hm : r.attempt t start pos = some m := hm
    rwa [attempt, hoptions, if_neg Bool.false_ne_true] at hm
  have hfree : r.program.keepFree = true := by
    rw [hprogram] at hkeep ⊢
    exact Pattern.Program.keepFree_ofNode hkeep groupCount
  obtain ⟨hstart, hordered⟩ := Pattern.Program.forward_of_attempt hfree hattempt
  have hinside := Pattern.Program.attempt_inside hpos hattempt
  refine ⟨hstart, ?_, fun hgroup => ⟨hordered hgroup, hinside.group_le hgroup⟩⟩
  obtain ⟨q, -, rfl⟩ := Option.map_eq_some_iff.1 hattempt
  rfl

theorem search_eq_engine (h : compile {} source = .ok r) : r.search = engine.search r := by
  funext t start
  rw [search, (exists_of_compile h).1, if_neg Bool.false_ne_true]

end Regex

theorem PatternGroup.compile_eq_ok {P : Type} {engine : Engine P} {sources : List String}
    {ps : List P} (h : sources.map (engine.compile {}) = ps.map .ok) :
    compile engine {} sources = .ok ⟨ps⟩ := by
  rw [compile, compileAll_eq_ok_iff.2 h]
  rfl

/-- Patterns that are searched together, one by one and at one position, by a library that counts
bytes. The group finds nothing just in case none of them does. Otherwise it finds what the first of
those that were found leftmost finds by itself. The match at a position is that of a search from
there, if it starts there. Nothing is found at or behind the end, and matches lie between the start
of the search and the end. An engine that counts characters finds the same. -/
theorem ByteEngine.searches_agree {P : Type} {engine : ByteEngine P} {attempt : ByteAttempt P}
    (htries : engine.Tries attempt) {sources : List String} {ps : List P}
    (hps : sources.map (engine.compile {}) = ps.map .ok) (hreports : ∀ p ∈ ps, attempt.Reports p)
    (t : Subject) (start : Nat) :
    ∃ g, PatternGroup.compile (engine.decoded attempt) {} sources = .ok g ∧
      (engine.searchGroup g t start = none ↔ ∀ p ∈ ps, engine.search p t start = none) ∧
      (∀ i m, engine.searchGroup g t start = some (i, m) ↔
        ∃ p, ps[i]? = some p ∧ engine.search p t start = some m ∧
          ∀ j q n, ps[j]? = some q → engine.search q t start = some n →
            m.start < n.start ∨ m.start = n.start ∧ i ≤ j) ∧
      (∀ p ∈ ps, ∀ m, engine.matchAt p t start = some m ↔
        engine.search p t start = some m ∧ m.start = start) ∧
      (t.length ≤ start → engine.searchGroup g t start = none ∧
        ∀ p ∈ ps, engine.search p t start = none ∧ engine.matchAt p t start = none) ∧
      (∀ m, ((∃ i, engine.searchGroup g t start = some (i, m)) ∨
          ∃ p ∈ ps, engine.search p t start = some m ∨ engine.matchAt p t start = some m) →
        start ≤ m.start ∧ m.start ≤ m.stop ∧ m.stop ≤ t.length) ∧
      engine.searchGroup g t start = g.search (engine.decoded attempt) t start ∧
      ∀ p ∈ ps, engine.search p t start = (engine.decoded attempt).search p t start ∧
        engine.matchAt p t start = (engine.decoded attempt).matchAt p t start := by
  have hplaces : ∀ p ∈ ps, (engine.decoded attempt).Places p := fun p hp =>
    places_decoded (hreports p hp)
  have hgroup := searchGroup_eq htries hreports t start
  have hsearch : ∀ p ∈ ps, engine.search p t start = (engine.decoded attempt).search p t start :=
    fun p hp => search_eq htries (hreports p hp) t start
  have hmatch : ∀ p, engine.matchAt p t start = (engine.decoded attempt).matchAt p t start :=
    fun p => matchAt_eq htries p t start
  have hsome : ∀ i m, engine.searchGroup ⟨ps⟩ t start = some (i, m) ↔
      ∃ p, ps[i]? = some p ∧ engine.search p t start = some m ∧
        ∀ j q n, ps[j]? = some q → engine.search q t start = some n →
          m.start < n.start ∨ m.start = n.start ∧ i ≤ j := by
    intro i m
    rw [hgroup, PatternGroup.search_eq_some_iff hplaces]
    refine exists_congr fun p => and_congr_right fun hget => ?_
    rw [hsearch p (List.mem_of_getElem? hget)]
    refine and_congr_right fun _ => forall₄_congr fun j q n hq => ?_
    rw [hsearch q (List.mem_of_getElem? hq)]
  have hrange : ∀ p ∈ ps, ∀ m, engine.search p t start = some m →
      start ≤ m.start ∧ m.start ≤ m.stop ∧ m.stop ≤ t.length := by
    intro p hp m hm
    rw [hsearch p hp] at hm
    exact Engine.range_of_search (hplaces p hp) hm
  have hhere : ∀ p ∈ ps, ∀ m, engine.matchAt p t start = some m ↔
      engine.search p t start = some m ∧ m.start = start := by
    intro p hp m
    rw [hmatch, hsearch p hp]
    exact Engine.matchAt_eq_some_iff (hplaces p hp)
  refine ⟨⟨ps⟩, PatternGroup.compile_eq_ok hps, ?_, hsome, hhere, fun hend => ?_, ?_, hgroup,
    fun p hp => ⟨hsearch p hp, hmatch p⟩⟩
  · rw [hgroup, PatternGroup.search_eq_none_iff]
    exact forall₂_congr fun p hp => by rw [hsearch p hp]
  · refine ⟨?_, fun p _ => ⟨if_pos hend, if_pos hend⟩⟩
    rw [hgroup, PatternGroup.search_eq, if_pos hend]
  · rintro m (⟨i, hm⟩ | ⟨p, hp, hm | hm⟩)
    · obtain ⟨p, hget, hm, -⟩ := (hsome i m).1 hm
      exact hrange p (List.mem_of_getElem? hget) m hm
    · exact hrange p hp m hm
    · exact hrange p hp m ((hhere p hp m).1 hm).1

/-- An empty match behind a character of two bytes, and at the start of the search a longer one with
a group: of the three patterns the last one is found. -/
theorem ByteEngine.searches_agree_accented :
    Regex.engine.encoded.Tries Regex.engine.byteAttempt ∧
      ∃ ps : List Regex,
        ["(?<=é)", "b", "é(b)?"].map (Regex.engine.encoded.compile {}) = ps.map .ok ∧
        (∀ p ∈ ps, Regex.engine.byteAttempt.Reports p) ∧
        ∃ g, PatternGroup.compile (Regex.engine.encoded.decoded Regex.engine.byteAttempt) {}
            ["(?<=é)", "b", "é(b)?"] = .ok g ∧
          Regex.engine.encoded.searchGroup g (.ofString "aébé") 1 =
            some (2, ⟨1, 3, [some (1, 3), some (2, 3)]⟩) := by
  let finds (m : Match) (p : Regex) : Bool :=
    p.program.root.keepFree && decide (p.search (.ofString "aébé") 1 = some m)
  obtain ⟨behind, hbehind, hempty⟩ := exists_ok_of_any
    (show (Regex.compile {} "(?<=é)").toOption.any (finds ⟨2, 2, [some (2, 2)]⟩) = true by
      decide +kernel)
  obtain ⟨letter, hletter, hone⟩ := exists_ok_of_any
    (show (Regex.compile {} "b").toOption.any (finds ⟨2, 3, [some (2, 3)]⟩) = true by
      decide +kernel)
  obtain ⟨pair, hpair, htwo⟩ := exists_ok_of_any
    (show (Regex.compile {} "é(b)?").toOption.any
        (finds ⟨1, 3, [some (1, 3), some (2, 3)]⟩) = true by
      decide +kernel)
  simp only [finds, Bool.and_eq_true, decide_eq_true_eq] at hempty hone htwo
  have hps : ["(?<=é)", "b", "é(b)?"].map (Regex.engine.encoded.compile {}) =
      [behind, letter, pair].map .ok := by
    show ["(?<=é)", "b", "é(b)?"].map (Regex.compile {}) = _
    simp only [List.map_cons, List.map_nil, hbehind, hletter, hpair]
  have hplaces : ∀ p ∈ [behind, letter, pair], Regex.engine.Places p := by
    simp only [List.forall_mem_cons]
    exact ⟨Regex.places_of_compile hbehind hempty.1, Regex.places_of_compile hletter hone.1,
      Regex.places_of_compile hpair htwo.1, fun _ h => nomatch h⟩
  have hreports : ∀ p ∈ [behind, letter, pair], Regex.engine.byteAttempt.Reports p := fun p hp =>
    Engine.reports_byteAttempt (hplaces p hp)
  -- the searches by characters are those that were evaluated
  have hfound := (Engine.searches_encoded hplaces "aébé" 1).2
  simp only [List.forall_mem_cons, ← Regex.search_eq_engine hbehind,
    ← Regex.search_eq_engine hletter, ← Regex.search_eq_engine hpair, hempty.2, hone.2, htwo.2]
    at hfound
  obtain ⟨⟨hfound₁, -⟩, ⟨hfound₂, -⟩, ⟨hfound₃, -⟩, -⟩ := hfound
  obtain ⟨g, hg, -, hsome, -⟩ := ByteEngine.searches_agree Regex.engine.encoded_tries hps hreports
    (.ofString "aébé") 1
  refine ⟨Regex.engine.encoded_tries, _, hps, hreports, g, hg, (hsome _ _).2
    ⟨pair, rfl, hfound₃, fun j q n hq hn => ?_⟩⟩
  match j, hq with
  | 0, rfl =>
    cases hfound₁.symm.trans hn
    exact .inl (by decide)
  | 1, rfl =>
    cases hfound₂.symm.trans hn
    exact .inl (by decide)
  | 2, rfl =>
    cases hfound₃.symm.trans hn
    exact .inr ⟨rfl, Nat.le_refl _⟩

end ScopeGrammar
