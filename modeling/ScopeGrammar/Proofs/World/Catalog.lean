import Mathlib.Algebra.Group.Nat.Defs
import ScopeGrammar.Proofs.Context.Store
import ScopeGrammar.Proofs.Context.Winner
import ScopeGrammar.Proofs.World.Kept

/-!
# ScopeGrammar.Proofs.World.Catalog

What the number of a context stands for.

* A `Catalog` lists the contexts a registry has made, each at its number.
* `World.Sound` : everything in a world that is kept by a number agrees with the catalog, and what
  is kept for use with the grammars is what would be made anew.
* `World.Reachable.sound` : the worlds there can be are sound.
* `Catalog.Lists.unique` : as long as the numbers have not come round, one number stands for one
  context and one situation.
-/

namespace ScopeGrammar

variable {P : Type} {engine : Engine P}

theorem Context.ext_of_entries {c d : Context} (hid : c.id = d.id)
    (hentries : c.entries = d.entries) : c = d := by
  obtain ⟨id, entries, usesAnchors, husesAnchors⟩ := c
  obtain ⟨id', entries', usesAnchors', husesAnchors'⟩ := d
  cases hid
  cases hentries
  cases husesAnchors
  cases husesAnchors'
  rfl

/-- The contexts made so far with the situations they were made for. -/
abbrev Catalog := List (Situation × List (Candidate × String))

namespace Catalog

/-- The context was made for the situation. -/
def Lists (K : Catalog) (s : Situation) (c : Context) : Prop :=
  ∃ n : Nat, K[n]? = some (s, c.entries) ∧ c.id = ⟨n.toUInt32⟩

namespace Lists

variable {K K' : Catalog} {s s' : Situation} {c c' : Context}

theorem mono (h : K.Lists s c) (hK : K <+: K') : K'.Lists s c := by
  obtain ⟨n, hget, hid⟩ := h
  obtain ⟨more, rfl⟩ := hK
  exact ⟨n, by rw [List.getElem?_append_left (List.getElem?_eq_some_iff.1 hget).1, hget], hid⟩

theorem append (K : Catalog) (h : c.id = ⟨K.length.toUInt32⟩) :
    Lists (K ++ [(s, c.entries)]) s c :=
  ⟨K.length, by simp, h⟩

theorem toUInt32_inj {m n : Nat} (hm : m < 2 ^ 32) (hn : n < 2 ^ 32)
    (h : m.toUInt32 = n.toUInt32) : m = n := by
  have hmod : m % 4294967296 = n % 4294967296 := by simpa using congrArg UInt32.toNat h
  omega

theorem unique (hlength : K.length ≤ 2 ^ 32) (h : K.Lists s c) (h' : K.Lists s' c')
    (hid : c.id = c'.id) : s = s' ∧ c = c' := by
  obtain ⟨n, hget, hn⟩ := h
  obtain ⟨n', hget', hn'⟩ := h'
  have hlt := (List.getElem?_eq_some_iff.1 hget).1
  have hlt' := (List.getElem?_eq_some_iff.1 hget').1
  have hnumber : n = n' := by
    rw [hn, hn', ContextId.mk.injEq] at hid
    exact toUInt32_inj (by omega) (by omega) hid
  subst hnumber
  rw [hget, Option.some.injEq, Prod.mk.injEq] at hget'
  exact ⟨hget'.1, Context.ext_of_entries (hn.trans hn'.symm) hget'.2⟩

end Lists

end Catalog

/-! ## Numbers of contexts -/

/-- The number of the context is one of those given from `lo` on and before `hi`. -/
def Context.NumberedIn (lo hi : Nat) (c : Context) : Prop :=
  ∃ n, lo ≤ n ∧ n < hi ∧ c.id = ⟨n.toUInt32⟩

namespace Context.NumberedIn

variable {c d : Context} {lo mid hi hi' : Nat}

theorem mono (h : c.NumberedIn lo hi) (hle : hi ≤ hi') : c.NumberedIn lo hi' := by
  obtain ⟨n, hlo, hhi, hid⟩ := h
  exact ⟨n, hlo, by omega, hid⟩

theorem id_ne (h : c.NumberedIn lo mid) (h' : d.NumberedIn mid hi) (hhi : hi ≤ 2 ^ 32) :
    c.id ≠ d.id := by
  obtain ⟨n, _, hn, hid⟩ := h
  obtain ⟨n', hn', hhi', hid'⟩ := h'
  intro heq
  rw [hid, hid', ContextId.mk.injEq] at heq
  have hsame := Catalog.Lists.toUInt32_inj (by omega) (by omega) heq
  omega

end Context.NumberedIn

/-! ## What is kept agrees with the catalog -/

structure Registry.Sound (K : Catalog) (r : Registry) : Prop where
  made : r.contexts.made = K.length
  listed : ∀ {s c}, (s, c) ∈ r.contexts.entries → K.Lists s c
  current : ∀ {s c}, (s, c) ∈ r.contexts.entries → c.entries = r.entriesFor s

structure Tokenizer.Sound (engine : Engine P) (K : Catalog) (r : Registry) (t : Tokenizer P) :
    Prop where
  rootScopes : t.rootScopes = ((r.grammar? t.base).map (·.scope)).toList
  rootListed : K.Lists (.root t.base) t.rootContext
  rootCurrent : t.rootContext.entries = r.entriesFor (.root t.base)
  groups : ∀ {id anchors g}, ((id, anchors), g) ∈ t.groups →
    ∃ s c, K.Lists s c ∧ c.id = id ∧ g = (ContextGroup.build engine c anchors).1
  singles : ∀ {source p}, (source, p) ∈ t.singles → p = (engine.compile {} source).toOption

/-- The context of a frame and its ends are those of one situation. -/
def Frame.Listed (K : Catalog) (f : Frame) : Prop := ∃ s, K.Lists s f.context ∧ f.ends = s.ends

structure World.Sound (engine : Engine P) (K : Catalog) (w : World P) : Prop where
  registry : w.registry.Sound K
  tokenizers : ∀ t ∈ w.tokenizers, t.Sound engine K w.registry
  frames : ∀ spans ∈ w.states, ∀ f ∈ spans.frames, f.Listed K

variable {K K' : Catalog}

/-- Resolving gives a context of the catalog with the candidates of the situation. -/
theorem Registry.Sound.resolve {r : Registry} (h : r.Sound K) (s : Situation) :
    ∃ K' : Catalog, K <+: K' ∧ (r.resolve s).2.Sound K' ∧ K'.Lists s (r.resolve s).1.1 ∧
      (r.resolve s).1.1.entries = r.entriesFor s := by
  obtain ⟨hkept, hr⟩ | ⟨hcontext, kept, hr, hentries⟩ := r.resolve_cases s
  · exact ⟨K, List.prefix_rfl, hr.symm ▸ h, h.listed hkept, h.current hkept⟩
  · have hsame : r.SameGrammars { r with contexts := ⟨kept, r.contexts.made + 1⟩ } := ⟨rfl, rfl⟩
    have hfresh : (r.resolve s).1.1.entries = r.entriesFor s := by
      rw [hcontext, buildContext_entries]
    have hlisted : Catalog.Lists (K ++ [(s, (r.resolve s).1.1.entries)]) s (r.resolve s).1.1 :=
      .append K (by rw [hcontext, buildContext_id, nextId, h.made])
    refine ⟨_, List.prefix_append .., ?_, hlisted, hfresh⟩
    rw [hr]
    refine ⟨by simp [h.made], fun {s' c} hmem => ?_, fun {s' c} hmem => ?_⟩
    · obtain rfl | ⟨_, rfl⟩ := hentries
      · exact (h.listed hmem).mono (List.prefix_append ..)
      · obtain heq | hmem := List.mem_cons.1 hmem
        · cases heq; exact hlisted
        · exact (h.listed hmem).mono (List.prefix_append ..)
    · rw [hsame.entriesFor_eq]
      obtain rfl | ⟨_, rfl⟩ := hentries
      · exact h.current hmem
      · obtain heq | hmem := List.mem_cons.1 hmem
        · cases heq; exact hfresh
        · exact h.current hmem

theorem Frame.Listed.mono {f : Frame} (h : f.Listed K) (hK : K <+: K') : f.Listed K' := by
  obtain ⟨s, hlists, hends⟩ := h
  exact ⟨s, hlists.mono hK, hends⟩

namespace Tokenizer.Sound

variable {r r' : Registry} {t : Tokenizer P}

theorem mono (h : t.Sound engine K r) (hK : K <+: K') (hr : r.SameGrammars r') :
    t.Sound engine K' r' := by
  refine ⟨?_, h.rootListed.mono hK, ?_, fun hmem => ?_, h.singles⟩
  · rw [h.rootScopes, hr.grammar?_eq]
  · rw [h.rootCurrent, hr.entriesFor_eq]
  · obtain ⟨s, c, hlists, hid, hg⟩ := h.groups hmem
    exact ⟨s, c, hlists.mono hK, hid, hg⟩

theorem addGroup (h : t.Sound engine K r) {s : Situation} {c : Context} (hc : K.Lists s c)
    (anchors : Anchoring) :
    (t.addGroup (c.id, anchors) (ContextGroup.build engine c anchors).1).Sound engine K r := by
  refine ⟨h.rootScopes, h.rootListed, h.rootCurrent, fun hmem => ?_, h.singles⟩
  rw [Tokenizer.addGroup] at hmem
  obtain heq | hmem := List.mem_cons.1 hmem
  · cases heq; exact ⟨s, c, hc, rfl, rfl⟩
  · split at hmem
    · exact h.groups hmem
    · cases hmem

theorem addSingle (h : t.Sound engine K r) (source : String) :
    (t.addSingle source (engine.compile {} source).toOption).Sound engine K r := by
  refine ⟨h.rootScopes, h.rootListed, h.rootCurrent, h.groups, fun hmem => ?_⟩
  rw [Tokenizer.addSingle] at hmem
  obtain heq | hmem := List.mem_cons.1 hmem
  · cases heq; rfl
  · split at hmem
    · exact h.singles hmem
    · cases hmem

end Tokenizer.Sound

namespace World.Sound

variable {w w' : World P}

theorem within (h : w'.Sound engine K) (hwithin : w.Within w') : w.Sound engine K :=
  ⟨hwithin.registry ▸ h.registry, fun t ht => hwithin.registry ▸ h.tokenizers t
    (hwithin.tokenizers ht), fun spans hspans => h.frames spans (hwithin.states hspans)⟩

theorem contextOf_listed (h : w.Sound engine K) {t : Tokenizer P} {spans : OpenSpans}
    (ht : t ∈ w.tokenizers) (hspans : spans ∈ w.states) : ∃ s, K.Lists s (t.contextOf spans) := by
  rw [Tokenizer.contextOf, OpenSpans.top?]
  cases hframes : spans.frames with
  | nil => exact ⟨_, (h.tokenizers t ht).rootListed⟩
  | cons f outer =>
    obtain ⟨s, hlists, _⟩ := h.frames spans hspans f (hframes ▸ .head _)
    exact ⟨s, hlists⟩

theorem tokenizers_mono (h : w.Sound engine K) (hK : K <+: K') {r : Registry}
    (hr : w.registry.SameGrammars r) : ∀ t ∈ w.tokenizers, t.Sound engine K' r :=
  fun t ht => (h.tokenizers t ht).mono hK hr

theorem frames_mono (h : w.Sound engine K) (hK : K <+: K') :
    ∀ spans ∈ w.states, ∀ f ∈ spans.frames, f.Listed K' :=
  fun spans hspans f hf => (h.frames spans hspans f hf).mono hK

theorem resolve_entries (h : w.Sound engine K) (s : Situation) :
    (w.registry.resolve s).1.1.entries = w.registry.entriesFor s := by
  obtain ⟨_, _, _, _, hentries⟩ := h.registry.resolve s
  exact hentries

theorem withRegistry (h : w.Sound engine K) (s : Situation) :
    ∃ K' : Catalog, K <+: K' ∧ (w.withRegistry (w.registry.resolve s).2).Sound engine K' := by
  obtain ⟨K', hK, hregistry, _, _⟩ := h.registry.resolve s
  exact ⟨K', hK, hregistry, h.tokenizers_mono hK (w.registry.resolve_sameGrammars s),
    h.frames_mono hK⟩

theorem withTokenizer (h : w.Sound engine K) {t : Tokenizer P} (ht : t.Sound engine K w.registry) :
    (w.withTokenizer t).Sound engine K :=
  ⟨h.registry, List.forall_mem_cons.2 ⟨ht, h.tokenizers⟩, h.frames⟩

theorem withState (h : w.Sound engine K) {spans : OpenSpans}
    (hspans : ∀ f ∈ spans.frames, f.Listed K) : (w.withState spans).Sound engine K :=
  ⟨h.registry, h.tokenizers, List.forall_mem_cons.2 ⟨hspans, h.frames⟩⟩

theorem opening (h : w.Sound engine K) {s : Situation} {spans : OpenSpans}
    {frame : Context → Frame} (hspans : spans ∈ w.states) (hcontext : ∀ c, (frame c).context = c)
    (hends : ∀ c, (frame c).ends = s.ends) :
    ∃ K' : Catalog, K <+: K' ∧ (w.opening s spans frame).Sound engine K' := by
  obtain ⟨K', hK, hregistry, hlists, _⟩ := h.registry.resolve s
  have houter : ∀ spans ∈ w.states, ∀ f ∈ spans.frames, f.Listed K' := h.frames_mono hK
  refine ⟨K', hK, hregistry, h.tokenizers_mono hK (w.registry.resolve_sameGrammars s),
    List.forall_mem_cons.2 ⟨List.forall_mem_cons.2 ⟨?_, houter spans hspans⟩, houter⟩⟩
  exact ⟨s, (hcontext _).symm ▸ hlists, hends _⟩

theorem move (h : w.Sound engine K) (hmove : Move engine w w') :
    ∃ K' : Catalog, K <+: K' ∧ w'.Sound engine K' := by
  cases hmove with
  | group anchors ht hspans =>
    obtain ⟨s, hlists⟩ := h.contextOf_listed ht hspans
    exact ⟨K, List.prefix_rfl, h.withTokenizer ((h.tokenizers _ ht).addGroup hlists anchors)⟩
  | single source ht =>
    exact ⟨K, List.prefix_rfl, h.withTokenizer ((h.tokenizers _ ht).addSingle source)⟩
  | close n hspans =>
    exact ⟨K, List.prefix_rfl,
      h.withState fun f hf => h.frames _ hspans f (List.mem_of_mem_drop hf)⟩
  | start hspans => exact ⟨K, List.prefix_rfl, h.withState fun f hf => h.frames _ hspans f hf⟩
  | span atEnd ht hspans hopens => exact h.opening hspans (fun _ => rfl) fun _ => rfl
  | capture scopes ht hspans hgrammar hcapture =>
    exact h.opening hspans (fun _ => rfl) fun _ => rfl

theorem moves (h : w.Sound engine K) (hmoves : Moves engine w w') :
    ∃ K' : Catalog, K <+: K' ∧ w'.Sound engine K' := by
  refine Moves.preserves (fun w' => ∃ K' : Catalog, K <+: K' ∧ w'.Sound engine K') hmoves ?_
    ⟨K, List.prefix_rfl, h⟩
  rintro u v hmove ⟨K₁, hK₁, hu⟩
  obtain ⟨K₂, hK₂, hv⟩ := hu.move hmove
  exact ⟨K₂, hK₁.trans hK₂, hv⟩

theorem start (h : w.Sound engine K) (base : GrammarId) (options : SessionOptions) :
    ∃ K' : Catalog, K <+: K' ∧ (w.started base options).Sound engine K' := by
  obtain ⟨K', hK, hregistry, hlists, hcurrent⟩ := h.registry.resolve (.root base)
  have hgrammars := w.registry.resolve_sameGrammars (.root base)
  have hstarted : Tokenizer.Sound engine K' (w.registry.resolve (.root base)).2
      (Tokenizer.start w.registry base options).1.1 := by
    refine ⟨?_, hlists, ?_, fun hmem => (List.not_mem_nil hmem).elim,
      fun hmem => (List.not_mem_nil hmem).elim⟩
    · rw [hgrammars.grammar?_eq]; rfl
    · rw [hgrammars.entriesFor_eq]; exact hcurrent
  exact ⟨K', hK, hregistry,
    List.forall_mem_cons.2 ⟨hstarted, h.tokenizers_mono hK hgrammars⟩, h.frames_mono hK⟩

theorem after (h : w.Sound engine K) {s : Session P} {state : OpenSpans} (hat : w.At s state)
    (line : String) : ∃ K' : Catalog, K <+: K' ∧
      (w.after ((SessionM.tokenizeLine engine line state).run s)).Sound engine K' := by
  obtain ⟨u, hmoves, hwithin⟩ := after_within engine hat line
  obtain ⟨K', hK, hu⟩ := h.moves hmoves
  exact ⟨K', hK, hu.within hwithin⟩

theorem use (h : w.Sound engine K) (huse : Use engine w w') :
    ∃ K' : Catalog, K <+: K' ∧ w'.Sound engine K' := by
  cases huse with
  | resolve situation => exact h.withRegistry situation
  | start options hid => exact h.start _ options
  | line line ht hstate => exact h.after (session_at ht hstate) line

theorem uses (h : w.Sound engine K) (huses : Uses engine w w') :
    ∃ K' : Catalog, K <+: K' ∧ w'.Sound engine K' := by
  induction huses with
  | refl => exact ⟨K, List.prefix_rfl, h⟩
  | tail _ huse ih =>
    obtain ⟨K₁, hK₁, hu⟩ := ih
    obtain ⟨K₂, hK₂, hv⟩ := hu.use huse
    exact ⟨K₂, hK₁.trans hK₂, hv⟩

/-- Adding a grammar forgets all that is kept for use with the grammars. -/
theorem add (h : w.Sound engine K) (g : Grammar) : (w.add g).Sound engine K := by
  have hcontexts := w.registry.add_contexts g
  refine ⟨⟨?_, fun {s c} hmem => ?_, fun {s c} hmem => ?_⟩, fun t ht => ?_, h.frames⟩
  · change (w.registry.add g).2.contexts.made = _
    rw [hcontexts]
    exact h.registry.made
  · change (s, c) ∈ (w.registry.add g).2.contexts.entries at hmem
    rw [hcontexts] at hmem
    cases hmem
  · change (s, c) ∈ (w.registry.add g).2.contexts.entries at hmem
    rw [hcontexts] at hmem
    cases hmem
  · cases ht

end World.Sound

theorem World.Reachable.sound {w : World P} (h : Reachable engine w) :
    ∃ K : Catalog, w.Sound engine K := by
  induction h with
  | initial =>
    refine ⟨[], ⟨rfl, fun hmem => (List.not_mem_nil hmem).elim,
      fun hmem => (List.not_mem_nil hmem).elim⟩, fun t ht => (List.not_mem_nil ht).elim, ?_⟩
    intro spans hspans f hf
    rw [World.initial, List.mem_singleton] at hspans
    subst hspans
    cases hf
  | add g _ ih =>
    obtain ⟨K, hsound⟩ := ih
    exact ⟨K, hsound.add g⟩
  | use _ huse ih =>
    obtain ⟨K, hsound⟩ := ih
    obtain ⟨K', _, hsound'⟩ := hsound.use huse
    exact ⟨K', hsound'⟩

theorem World.Reachable.resolve_entries {w : World P} (h : w.Reachable engine) (s : Situation) :
    (w.registry.resolve s).1.1.entries = w.registry.entriesFor s := by
  obtain ⟨K, hsound⟩ := h.sound
  exact hsound.resolve_entries s

/-- A tokenizer and a state alone are sound too. -/
theorem World.Own.sound_alone {w : World P} {t : Tokenizer P} {state : OpenSpans}
    (h : w.Own engine state) (ht : t ∈ w.tokenizers) :
    ∃ K : Catalog, (Leads.alone (w.session t) state).Sound engine K := by
  obtain ⟨K, hsound⟩ := h.reachable.sound
  have hwithin : (Leads.alone (w.session t) state).Within w :=
    ⟨rfl, List.cons_subset.2 ⟨ht, List.nil_subset _⟩,
      List.cons_subset.2 ⟨h.mem, List.nil_subset _⟩⟩
  exact ⟨K, hsound.within hwithin⟩

/-! ## What is found does not depend on what is kept -/

/-- The numbers of contexts have not come round yet. -/
def Session.Numbered (s : Session P) : Prop := s.registry.contexts.made ≤ 2 ^ 32

namespace World.Sound

variable {w : World P} {s : Session P} {spans : OpenSpans}

theorem length_le (h : w.Sound engine K) (hat : w.At s spans) (hs : s.Numbered) :
    K.length ≤ 2 ^ 32 := by
  rw [Session.Numbered, hat.registry, h.registry.made] at hs
  exact hs

/-- A kept group is the one that would be built. -/
theorem groupOf (h : w.Sound engine K) (hat : w.At s spans) (hs : s.Numbered)
    (anchors : Anchoring) :
    ((SessionM.groupOf engine (s.tokenizer.contextOf spans) anchors).run s).1 =
      (ContextGroup.build engine (s.tokenizer.contextOf spans) anchors).1 := by
  rw [SessionM.run_groupOf]
  cases hlookup : s.tokenizer.groups.lookup ((s.tokenizer.contextOf spans).id, anchors) with
  | none => rfl
  | some g =>
    obtain ⟨_, _, hgroups, _⟩ := List.lookup_eq_some_iff.1 hlookup
    have hmem : (((s.tokenizer.contextOf spans).id, anchors), g) ∈ s.tokenizer.groups := by
      simp [hgroups]
    obtain ⟨_, c, hlists, hid, hg⟩ := (h.tokenizers _ hat.tokenizer).groups hmem
    obtain ⟨_, hcontext⟩ := h.contextOf_listed hat.tokenizer hat.spans
    rw [hg, (hlists.unique (h.length_le hat hs) hcontext hid).2]

theorem searchContext (h : w.Sound engine K) (hat : w.At s spans) (hs : s.Numbered)
    (anchors : Anchoring) (t : Subject) (pos : Nat) :
    ((SessionM.searchContext engine (s.tokenizer.contextOf spans) anchors t pos).run s).1 =
      (ContextGroup.build engine (s.tokenizer.contextOf spans) anchors).1.search engine t pos := by
  rw [SessionM.run_searchContext]
  dsimp only
  rw [h.groupOf hat hs]
  cases huses : (s.tokenizer.contextOf spans).usesAnchors with
  | true => rfl
  | false => rw [ContextGroup.build_all huses anchors]; rfl

/-- A pattern that is kept is the one that would be compiled. -/
theorem matchAlone (h : w.Sound engine K) (hat : w.At s spans) (source : String)
    (anchors : Anchoring) (t : Subject) (pos : Nat) :
    ((SessionM.matchAlone engine source anchors t pos).run s).1 =
      (engine.compile {} (anchors.rewrite source)).toOption.bind
        fun p => engine.matchAt p t pos :=
  SessionM.matchAlone_kept ⟨(h.tokenizers _ hat.tokenizer).singles⟩ source anchors t pos

end World.Sound

end ScopeGrammar
