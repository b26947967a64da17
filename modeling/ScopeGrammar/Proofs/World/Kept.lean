import ScopeGrammar.Proofs.Context.Store
import ScopeGrammar.Proofs.World.History

/-!
# ScopeGrammar.Proofs.World.Kept

What is kept while a registry is used and its grammars stay.

* `World.Uses.keeps`, `Leads.keeps` : no context that the registry keeps is lost.
* `Tokenizer.Bounded` : a tokenizer keeps at most `keptLimit` groups and as many single patterns. No
  tokenizer there can be keeps more (`World.Reachable.bounded`), in the middle of a line as little
  as between lines (`Leads.bounded`).
* `Tokenizer.KeepsCompiled` : what it keeps for a pattern is what compiling it would give, so a
  match does not depend on what is kept (`SessionM.matchAlone_kept`).
-/

namespace ScopeGrammar

variable {P : Type} {engine : Engine P} {w w' : World P}

/-! ## Contexts of a registry -/

namespace World

theorem Move.keeps (h : Move engine w w') : w.registry.Keeps w'.registry := by
  cases h with
  | group anchors ht hspans => exact .refl _
  | single source ht => exact .refl _
  | close n hspans => exact .refl _
  | start hspans => exact .refl _
  | span atEnd ht hspans hopens => exact Registry.resolve_keeps ..
  | capture scopes ht hspans hgrammar hcapture => exact Registry.resolve_keeps ..

theorem Moves.keeps (h : Moves engine w w') : w.registry.Keeps w'.registry :=
  Moves.preserves (fun u => w.registry.Keeps u.registry) h (fun hmove hu => hu.trans hmove.keeps)
    (.refl _)

end World

theorem Leads.keeps {s s' : Session P} {a b : OpenSpans} (h : Leads engine s a s' b) :
    s.registry.Keeps s'.registry := by
  obtain ⟨w', hmoves, hat⟩ := h.moves _ (alone_at s a)
  rw [hat.registry]
  exact World.Moves.keeps hmoves

namespace World

theorem Use.keeps (h : Use engine w w') : w.registry.Keeps w'.registry := by
  cases h with
  | resolve situation => exact Registry.resolve_keeps ..
  | start options hid => exact w.registry.resolve_keeps (.root _)
  | @line t state line ht hstate =>
    have hleads : Leads engine (w.session t) state _ _ := SessionM.tokenizeLine_leads line ..
    exact hleads.keeps

theorem Uses.keeps (h : Uses engine w w') : w.registry.Keeps w'.registry := by
  induction h with
  | refl => exact .refl _
  | tail _ huse ih => exact ih.trans huse.keeps

end World

/-! ## Patterns of a tokenizer -/

/-- What holds of a tokenizer and of whatever it keeps in addition holds in the end. -/
theorem World.Moves.tokenizers {p : Tokenizer P → Prop} (h : Moves engine w w')
    (hgroup : ∀ {t} key g, p t → p (t.addGroup key g))
    (hsingle : ∀ {t} source, p t → p (t.addSingle source (engine.compile {} source).toOption))
    (hw : ∀ t ∈ w.tokenizers, p t) : ∀ t ∈ w'.tokenizers, p t := by
  refine Moves.preserves (fun u => ∀ t ∈ u.tokenizers, p t) h ?_ hw
  intro u v hmove hu
  cases hmove with
  | group anchors ht hspans => exact List.forall_mem_cons.2 ⟨hgroup _ _ (hu _ ht), hu⟩
  | single source ht => exact List.forall_mem_cons.2 ⟨hsingle source (hu _ ht), hu⟩
  | close n hspans => exact hu
  | start hspans => exact hu
  | span atEnd ht hspans hopens => exact hu
  | capture scopes ht hspans hgrammar hcapture => exact hu

theorem Leads.preserves_tokenizer {p : Tokenizer P → Prop} {s s' : Session P} {a b : OpenSpans}
    (h : Leads engine s a s' b) (hgroup : ∀ {t} key g, p t → p (t.addGroup key g))
    (hsingle : ∀ {t} source, p t → p (t.addSingle source (engine.compile {} source).toOption))
    (hs : p s.tokenizer) : p s'.tokenizer := by
  obtain ⟨w', hmoves, hat⟩ := h.moves _ (alone_at s a)
  refine World.Moves.tokenizers hmoves hgroup hsingle ?_ _ hat.tokenizer
  intro t ht
  rw [alone, List.mem_singleton] at ht
  exact ht ▸ hs

theorem World.Reachable.tokenizers {p : Tokenizer P → Prop} (h : w.Reachable engine)
    (hstart : ∀ r base options, p (Tokenizer.start r base options).1.1)
    (hgroup : ∀ {t} key g, p t → p (t.addGroup key g))
    (hsingle : ∀ {t} source, p t → p (t.addSingle source (engine.compile {} source).toOption)) :
    ∀ t ∈ w.tokenizers, p t := by
  induction h with
  | initial => exact fun t ht => (List.not_mem_nil ht).elim
  | add g _ _ => exact fun t ht => (List.not_mem_nil ht).elim
  | @use w w' _ huse ih =>
    cases huse with
    | resolve situation => exact ih
    | start options hid => exact List.forall_mem_cons.2 ⟨hstart _ _ _, ih⟩
    | @line t state line ht hstate =>
      have hleads : Leads engine (w.session t) state _ _ := SessionM.tokenizeLine_leads line ..
      exact List.forall_mem_cons.2 ⟨hleads.preserves_tokenizer hgroup hsingle (ih _ ht), ih⟩

/-! ### How many there are -/

structure Tokenizer.Bounded (t : Tokenizer P) : Prop where
  groups : t.groups.length ≤ keptLimit
  singles : t.singles.length ≤ keptLimit

namespace Tokenizer.Bounded

variable {t : Tokenizer P}

/-- At the limit all groups are dropped. -/
theorem addGroup (h : t.Bounded) (key : ContextId × Anchoring) (g : ContextGroup P) :
    (t.addGroup key g).Bounded := by
  refine ⟨?_, h.singles⟩
  rw [Tokenizer.addGroup, List.length_cons]
  split
  · assumption
  · exact Nat.succ_le_of_lt (Nat.succ_pos _)

theorem addSingle (h : t.Bounded) (source : String) (p : Option P) :
    (t.addSingle source p).Bounded := by
  refine ⟨h.groups, ?_⟩
  rw [Tokenizer.addSingle, List.length_cons]
  split
  · assumption
  · exact Nat.succ_le_of_lt (Nat.succ_pos _)

end Tokenizer.Bounded

theorem Leads.bounded {s s' : Session P} {a b : OpenSpans} (h : Leads engine s a s' b)
    (hs : s.tokenizer.Bounded) : s'.tokenizer.Bounded :=
  h.preserves_tokenizer (fun key g ht => ht.addGroup key g) (fun source ht => ht.addSingle source _)
    hs

theorem World.Reachable.bounded (h : w.Reachable engine) : ∀ t ∈ w.tokenizers, t.Bounded :=
  h.tokenizers (fun _ _ _ => ⟨Nat.zero_le _, Nat.zero_le _⟩) (fun key g ht => ht.addGroup key g)
    fun source ht => ht.addSingle source _

/-! ### What they are -/

/-- The single patterns that a tokenizer keeps are what would be compiled. -/
structure Tokenizer.KeepsCompiled (engine : Engine P) (t : Tokenizer P) : Prop where
  singles : ∀ {source p}, (source, p) ∈ t.singles → p = (engine.compile {} source).toOption

namespace Tokenizer.KeepsCompiled

variable {t : Tokenizer P}

theorem start (r : Registry) (base : GrammarId) (options : SessionOptions) :
    (Tokenizer.start r base options).1.1.KeepsCompiled engine :=
  ⟨fun h => (List.not_mem_nil h).elim⟩

theorem addGroup (h : t.KeepsCompiled engine) (key : ContextId × Anchoring) (g : ContextGroup P) :
    (t.addGroup key g).KeepsCompiled engine := ⟨h.singles⟩

theorem addSingle (h : t.KeepsCompiled engine) (source : String) :
    (t.addSingle source (engine.compile {} source).toOption).KeepsCompiled engine := by
  constructor
  intro source' p hmem
  rcases List.mem_cons.1 hmem with heq | hkept
  · cases heq
    rfl
  · split at hkept
    · exact h.singles hkept
    · cases hkept

end Tokenizer.KeepsCompiled

theorem Leads.keepsCompiled {s s' : Session P} {a b : OpenSpans} (h : Leads engine s a s' b)
    (hs : s.tokenizer.KeepsCompiled engine) : s'.tokenizer.KeepsCompiled engine :=
  h.preserves_tokenizer (fun key g ht => ht.addGroup key g) (fun source ht => ht.addSingle source) hs

theorem World.Reachable.keepsCompiled (h : w.Reachable engine) :
    ∀ t ∈ w.tokenizers, t.KeepsCompiled engine :=
  h.tokenizers .start (fun key g ht => ht.addGroup key g) fun source ht => ht.addSingle source

/-- A pattern that is kept is the one that would be compiled. -/
theorem SessionM.matchAlone_kept {s : Session P} (hs : s.tokenizer.KeepsCompiled engine)
    (source : String) (anchors : Anchoring) (text : Subject) (pos : Nat) :
    ((matchAlone engine source anchors text pos).run s).1 =
      (engine.compile {} (anchors.rewrite source)).toOption.bind
        fun p => engine.matchAt p text pos := by
  rw [run_matchAlone, run_singleOf]
  cases hlookup : s.tokenizer.singles.lookup (anchors.rewrite source) with
  | none => rfl
  | some p =>
    obtain ⟨_, _, hsingles, _⟩ := List.lookup_eq_some_iff.1 hlookup
    have hmem : (anchors.rewrite source, p) ∈ s.tokenizer.singles := by simp [hsingles]
    dsimp only
    rw [hs.singles hmem]

end ScopeGrammar
