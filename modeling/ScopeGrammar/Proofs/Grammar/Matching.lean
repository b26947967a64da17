import ScopeGrammar.Proofs.Grammar.Twin

/-!
# ScopeGrammar.Proofs.Grammar.Matching

Sources that compile to the same grammar but for numbers.

* `RuleSource.Matched` : what two rules must have in common for that, in terms of a relation on the
  rules inside them. The entries of a repository may stand in another order, and with `drop` a rule
  with a refused pattern may be disabled on the other side.
* `compileRule_follows` : matched rules are compiled by steps that follow each other.
-/

namespace ScopeGrammar

open Build

/-! ## Matched sources -/

/-- Entries with the same keys, in the same order. -/
inductive EntriesMatch (S : RuleSource → RuleSource → Prop) :
    List (String × RuleSource) → List (String × RuleSource) → Prop
  | nil : EntriesMatch S [] []
  | cons {key : String} {r r' : RuleSource} {rest rest' : List (String × RuleSource)} :
    S r r' → EntriesMatch S rest rest' → EntriesMatch S ((key, r) :: rest) ((key, r') :: rest')

/-- Of a capture only the name and the patterns count. -/
inductive CapturesMatch (S : RuleSource → RuleSource → Prop) :
    List (String × RuleSource) → List (String × RuleSource) → Prop
  | nil : CapturesMatch S [] []
  | cons {key : String} {r r' : RuleSource} {rest rest' : List (String × RuleSource)} :
    r.name = r'.name → List.Forall₂ S r.patterns r'.patterns → CapturesMatch S rest rest' →
    CapturesMatch S ((key, r) :: rest) ((key, r') :: rest')

/-- Entries in perhaps another order, if every key is there once. -/
def RepositoryMatch (S : RuleSource → RuleSource → Prop)
    (entries entries' : List (String × RuleSource)) : Prop :=
  ∃ ordered, entries.Perm ordered ∧ (ordered = entries ∨ (entries.map (·.1)).Nodup) ∧
    EntriesMatch S ordered entries'

namespace RuleSource

/-- What is compiled of a rule of this form, its repository aside, is the same. -/
def SameInside (S : RuleSource → RuleSource → Prop) (r r' : RuleSource) : RuleForm → Prop
  | .single _ => r.name = r'.name ∧ CapturesMatch S r.captures r'.captures
  | .span _ _ isWhile =>
    (r.name = r'.name ∧ r.contentName = r'.contentName ∧
      r.applyEndPatternLast = r'.applyEndPatternLast) ∧
    CapturesMatch S r.openingCaptures r'.openingCaptures ∧
    CapturesMatch S (r.closeCaptures isWhile) (r'.closeCaptures isWhile) ∧
    List.Forall₂ S r.patterns r'.patterns
  | .container => List.Forall₂ S r.patterns r'.patterns

inductive Matched (validate : Validator) (drop : Bool) (S : RuleSource → RuleSource → Prop)
    (r r' : RuleSource) : Prop
  | disabled : r.disabled = true → r'.disabled = true → Matched validate drop S r r'
  | linked (target : String) :
    r.disabled = false → r'.disabled = false → r.includeText = some target →
    r'.includeText = some target → Matched validate drop S r r'
  | illFormed (fault : GrammarFault) :
    r.disabled = false → r.includeText = none → r.form = .error fault →
    Matched validate drop S r r'
  | dropped (shape : RuleForm) (refusal : Refusal) :
    drop = true → r.disabled = false → r.includeText = none → r.form = .ok shape →
    shape.refusal? validate = some refusal → r'.disabled = true → Matched validate drop S r r'
  | same (shape : RuleForm) :
    r.disabled = false → r'.disabled = false → r.includeText = none → r'.includeText = none →
    r.form = .ok shape → r'.form = .ok shape → (drop = true → shape.refusal? validate = none) →
    RepositoryMatch S r.repository r'.repository → r.SameInside S r' shape →
    Matched validate drop S r r'

end RuleSource

section

variable {S T : RuleSource → RuleSource → Prop}

theorem forall₂_imp_of_mem {l l' : List RuleSource} (h : ∀ r ∈ l, ∀ r', S r r' → T r r')
    (hl : List.Forall₂ S l l') : List.Forall₂ T l l' := by
  induction hl with
  | nil => exact .nil
  | cons hr _ ih =>
    obtain ⟨hhead, htail⟩ := List.forall_mem_cons.1 h
    exact .cons (hhead _ hr) (ih htail)

theorem isEmpty_of_forall₂ {l l' : List RuleSource} (h : List.Forall₂ S l l') :
    l'.isEmpty = l.isEmpty := by
  cases h <;> rfl

theorem EntriesMatch.imp_of_mem {l l' : List (String × RuleSource)}
    (h : ∀ e ∈ l, ∀ r', S e.2 r' → T e.2 r') (hl : EntriesMatch S l l') : EntriesMatch T l l' := by
  induction hl with
  | nil => exact .nil
  | cons hr _ ih =>
    obtain ⟨hhead, htail⟩ := List.forall_mem_cons.1 h
    exact .cons (hhead _ hr) (ih htail)

theorem CapturesMatch.imp_of_mem {l l' : List (String × RuleSource)}
    (h : ∀ e ∈ l, ∀ r ∈ e.2.patterns, ∀ r', S r r' → T r r') (hl : CapturesMatch S l l') :
    CapturesMatch T l l' := by
  induction hl with
  | nil => exact .nil
  | cons hname hr _ ih =>
    obtain ⟨hhead, htail⟩ := List.forall_mem_cons.1 h
    exact .cons hname (forall₂_imp_of_mem hhead hr) (ih htail)

theorem CapturesMatch.keys_eq {l l' : List (String × RuleSource)} (h : CapturesMatch S l l') :
    captureKeys l = captureKeys l' := by
  induction h with
  | nil => rfl
  | @cons key _ _ _ _ _ _ _ ih =>
    rw [captureKeys, captureKeys, ih]

theorem EntriesMatch.forall₂ {l l' : List (String × RuleSource)} (h : EntriesMatch S l l') :
    List.Forall₂ (fun e e' => e.1 = e'.1 ∧ S e.2 e'.2) l l' := by
  induction h with
  | nil => exact .nil
  | cons hr _ ih => exact .cons ⟨rfl, hr⟩ ih

end

/-! ## Single steps -/

variable {drop : Bool} {μ : Links} {σ σ' : RepositoryChain} {path : String}

theorem addLocalInclude_follows {i i' : LocalInclude} (h : i.Linked μ i') :
    Follows drop μ (addLocalInclude i) (addLocalInclude i') (fun _ _ _ => True) := by
  intro b a c hgives _ b' _
  cases hgives
  have hgrows : b'.Grows _ := (growing_addLocalInclude i').grows rfl
  refine ⟨(), _, ⊥, rfl, .unlinked hgrows (fun _ => rfl) ?_ ?_, trivial⟩
  · intro j' hj'
    obtain hj' | hj' := List.mem_append.1 hj'
    · exact .inl hj'
    · obtain rfl := List.mem_singleton.1 hj'
      exact .inr ⟨i, by simp [Piece.between], h⟩
  · cases drop <;> simp [Piece.between]

theorem skip_follows (refusal : Refusal) :
    Follows false μ (skip path refusal) (skip path refusal) (fun _ _ _ => True) := by
  intro b a c hgives _ b' _
  cases hgives
  refine ⟨(), _, ⊥, rfl, .unlinked ((growing_skip path refusal).grows rfl) (fun _ => rfl)
    (fun _ hj' => .inl hj') ?_, trivial⟩
  simp [Piece.between]

theorem compileInclude_follows (text : String) (hσ : σ.Linked μ σ') :
    Follows drop μ (compileInclude σ path text) (compileInclude σ' path text)
      (fun μ i i' => i.Linked μ i') := by
  unfold compileInclude
  cases IncludeTarget.ofString text with
  | entry name =>
    have hinclude : LocalInclude.Linked μ ⟨path, name, σ⟩ ⟨path, name, σ'⟩ := ⟨rfl, hσ⟩
    exact (addLocalInclude_follows hinclude).bind fun μ' _ _ hμ _ =>
      follows_pure (ListItem.Linked.linked (hσ.mono hμ))
  | _ =>
    exact follows_pure (.linked hσ)

theorem captureSpace_follows {entries entries' : List (String × RuleSource)}
    (h : captureKeys entries = captureKeys entries') :
    Follows drop μ (captureSpace path entries) (captureSpace path entries')
      (fun μ t t' => t.Linked μ t') := by
  have heq : captureSpace path entries = captureSpace path entries' := by
    rw [captureSpace, captureSpace, h]
  rw [← heq]
  intro b table c hgives _ b' _
  obtain ⟨rfl, hempty, hall⟩ := captureSpace_gives hgives
  refine ⟨table, b', ⊥, hall b', .none (.inr ?_), rfl, ?_⟩
  · simp [Piece.between]
  · rw [hempty]
    exact .nil

/-! ## Rules and what holds them -/

variable {validate : Validator}

/-- Wherever the rule is compiled, the other one is compiled the same but for numbers. -/
def RuleSource.Follows (validate : Validator) (drop : Bool) (r r' : RuleSource) : Prop :=
  ∀ ⦃μ σ σ'⦄ path, RepositoryChain.Linked μ σ σ' →
    Build.Follows drop μ (compileRule validate σ path r) (compileRule validate σ' path r')
      (fun μ i i' => Option.Rel (ListItem.Linked μ) i i')

theorem toList_linked {i i' : Option ListItem} (h : Option.Rel (ListItem.Linked μ) i i') :
    List.Forall₂ (ListItem.Linked μ) i.toList i'.toList := by
  cases h with
  | none => exact .nil
  | some hi => exact .cons hi .nil

theorem compileRules_follows {rules rules' : List RuleSource}
    (h : List.Forall₂ (RuleSource.Follows validate drop) rules rules') (hσ : σ.Linked μ σ')
    (i : Nat) :
    Follows drop μ (compileRules validate σ path i rules) (compileRules validate σ' path i rules')
      (fun μ => List.Forall₂ (ListItem.Linked μ)) := by
  induction h generalizing μ i with
  | nil => exact follows_pure .nil
  | cons hr _ ih =>
    rw [compileRules, compileRules]
    refine (hr _ hσ).bind fun μ₁ item item' hμ₁ hitem => ?_
    refine (ih (hσ.mono hμ₁) (i + 1)).bind fun μ₂ items items' hμ₂ hitems => follows_pure ?_
    exact List.rel_append (toList_linked (optionRel_mono (fun _ _ hi => hi.mono hμ₂) hitem)) hitems

theorem compileItems_follows (path : String) {rules rules' : List RuleSource}
    (h : List.Forall₂ (RuleSource.Follows validate drop) rules rules') (hσ : σ.Linked μ σ') :
    Follows drop μ (compileItems validate σ path rules) (compileItems validate σ' path rules')
      (fun μ l l' => μ l.part l'.part) :=
  (compileRules_follows h hσ 0).bind fun _ _ _ _ hitems =>
    (addList_adds _).follows (addList_adds _) (.list hitems)

theorem captureItems_follows {rules rules' : List RuleSource}
    (h : List.Forall₂ (RuleSource.Follows validate drop) rules rules') (hσ : σ.Linked μ σ') :
    Follows drop μ (captureItems validate σ path rules) (captureItems validate σ' path rules')
      (fun μ => Option.Rel fun l l' => μ l.part l'.part) := by
  have hitems := compileItems_follows path h hσ
  cases h with
  | nil => exact follows_pure .none
  | cons hr hrest => exact hitems.bind fun _ _ _ _ hl => follows_pure (Option.Rel.some hl)

theorem keepCapture_follows (scopes : List Scope) {list list' : Option ListId}
    (h : Option.Rel (fun l l' => μ l.part l'.part) list list') :
    Follows drop μ (keepCapture scopes list) (keepCapture scopes list')
      (fun μ => Option.Rel fun i i' => μ i.part i'.part) := by
  have hnone : list'.isNone = list.isNone := by cases h <;> rfl
  have hcapture : (Part.capture { scopes, patterns := list }).Linked μ
      (.capture { scopes, patterns := list' }) := .capture ⟨rfl, h⟩
  rw [keepCapture, keepCapture, hnone]
  split
  · exact follows_pure .none
  · exact ((addCapture_adds _).follows (addCapture_adds _) hcapture).bind
      fun _ _ _ _ hid => follows_pure (Option.Rel.some hid)

theorem compileCapture_follows {r r' : RuleSource} (hname : r.name = r'.name)
    (h : List.Forall₂ (RuleSource.Follows validate drop) r.patterns r'.patterns)
    (hσ : σ.Linked μ σ') :
    Follows drop μ (compileCapture validate σ path r) (compileCapture validate σ' path r')
      (fun μ => Option.Rel fun i i' => μ i.part i'.part) := by
  rw [compileCapture, compileCapture, ← hname]
  exact (captureItems_follows h hσ).bind fun _ _ _ _ hl => keepCapture_follows _ hl

theorem putKey_linked {t t' : CaptureTable} (h : t.Linked μ t') (key : String)
    {id id' : Option CaptureId} (hid : Option.Rel (fun i i' => μ i.part i'.part) id id') :
    (t.putKey key id).Linked μ (t'.putKey key id') := by
  cases hid with
  | none => exact h
  | some hi => exact h.put _ hi

theorem fillCaptures_follows {entries entries' : List (String × RuleSource)}
    (h : CapturesMatch (RuleSource.Follows validate drop) entries entries') (hσ : σ.Linked μ σ')
    {table table' : CaptureTable} (ht : table.Linked μ table') :
    Follows drop μ (fillCaptures validate σ path table entries)
      (fillCaptures validate σ' path table' entries') (fun μ t t' => t.Linked μ t') := by
  induction h generalizing μ table table' with
  | nil => exact follows_pure ht
  | @cons key r r' rest rest' hname hr _ ih =>
    rw [fillCaptures_cons, fillCaptures_cons]
    exact (compileCapture_follows hname hr hσ).bind fun μ₁ id id' hμ₁ hid =>
      ih (hσ.mono hμ₁) (putKey_linked (ht.mono hμ₁) key hid)

theorem compileTable_follows {entries entries' : List (String × RuleSource)}
    (h : CapturesMatch (RuleSource.Follows validate drop) entries entries') (hσ : σ.Linked μ σ') :
    Follows drop μ (compileTable validate σ path entries) (compileTable validate σ' path entries')
      (fun μ t t' => t.Linked μ t') :=
  (captureSpace_follows h.keys_eq).bind fun _ _ _ hμ₁ ht =>
    fillCaptures_follows h (hσ.mono hμ₁) ht

theorem compileEntry_follows {r r' : RuleSource} (h : r.Follows validate drop r')
    (hσ : σ.Linked μ σ') :
    Follows drop μ (compileEntry validate σ path r) (compileEntry validate σ' path r')
      (fun μ l l' => μ l.part l'.part) := by
  rw [compileEntry_eq, compileEntry_eq]
  refine (h path hσ).bind fun μ₁ item item' _ hitem => ?_
  have hitems := toList_linked hitem
  cases hitem with
  | none => exact (addList_adds _).follows (addList_adds _) (.list hitems)
  | some hi =>
    cases hi with
    | list hl => exact follows_pure hl
    | rule hl => exact (addList_adds _).follows (addList_adds _) (.list hitems)
    | linked hl => exact (addList_adds _).follows (addList_adds _) (.list hitems)

theorem compileForm_follows {r r' : RuleSource} {shape : RuleForm}
    (h : r.SameInside (RuleSource.Follows validate drop) r' shape) (hσ : σ.Linked μ σ') :
    Follows drop μ (compileForm validate σ path r shape) (compileForm validate σ' path r' shape)
      (fun μ i i' => Option.Rel (ListItem.Linked μ) i i') := by
  cases shape with
  | single source =>
    obtain ⟨hname, hcaptures⟩ := h
    rw [compileForm, compileForm, ← hname]
    refine ((addPattern_adds _).follows (addPattern_adds _) (.pattern source)).bind
      fun μ₁ p p' hμ₁ hp => ?_
    refine (compileTable_follows hcaptures (hσ.mono hμ₁)).bind fun μ₂ t t' hμ₂ ht => ?_
    have hrule : (Rule.single ⟨scopesOf r.name, p, t⟩).Linked μ₂
        (.single ⟨scopesOf r.name, p', t'⟩) := .single ⟨rfl, hμ₂ _ _ hp, ht⟩
    exact ((addRule_adds _).follows (addRule_adds _) (.rule hrule)).bind
      fun _ _ _ _ hid => follows_pure (.some (.rule hid))
  | span opening close isWhile =>
    obtain ⟨⟨hname, hcontent, hlast⟩, hopening, hclose, hpatterns⟩ := h
    rw [compileForm, compileForm, ← hname, ← hcontent, ← hlast]
    refine ((addPattern_adds _).follows (addPattern_adds _) (.pattern opening)).bind
      fun μ₁ p p' hμ₁ hp => ?_
    refine ((addPattern_adds _).follows (addPattern_adds _) (.pattern close)).bind
      fun μ₂ q q' hμ₂ hq => ?_
    have hσ₂ := hσ.mono (le_trans hμ₁ hμ₂)
    refine (compileTable_follows hopening hσ₂).bind fun μ₃ t t' hμ₃ ht => ?_
    refine (compileTable_follows hclose (hσ₂.mono hμ₃)).bind
      fun μ₄ u u' hμ₄ hu => ?_
    refine (compileItems_follows _ hpatterns (hσ₂.mono (le_trans hμ₃ hμ₄))).bind
      fun μ₅ l l' hμ₅ hl => ?_
    refine ((addRule_adds _).follows (addRule_adds _) (.rule (.span ?_))).bind
      fun _ _ _ _ hid => follows_pure (.some (.rule hid))
    -- links only grow from one piece to the next, so those of the first ones are still there
    have hpart : ∀ {n n'}, μ₂ n n' → μ₅ n n' := fun h => hμ₅ _ _ (hμ₄ _ _ (hμ₃ _ _ h))
    refine ⟨rfl, rfl, hpart (hμ₂ _ _ hp), (ht.mono hμ₄).mono hμ₅, ?_, rfl, hl⟩
    cases isWhile with
    | true => exact .whileMatched (hpart hq) (hu.mono hμ₅)
    | false => exact .atEnd (hpart hq) (hu.mono hμ₅)
  | container =>
    have hitems := compileItems_follows (path ++ ".patterns") h hσ
    rw [compileForm, compileForm, isEmpty_of_forall₂ h]
    split
    · exact follows_pure .none
    · exact hitems.bind fun _ _ _ _ hl => follows_pure (.some (.list hl))

end ScopeGrammar
