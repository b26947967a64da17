import ScopeGrammar.Proofs.Grammar.References
import ScopeGrammar.Proofs.Grammar.Visits

/-!
# ScopeGrammar.Proofs.Grammar.Traversal

What holds of compiling the rules of a source if it holds of the single steps.

* `Build.Traversal` : a property of steps and their answers that goes over to steps in a row, and
  holds of the steps that rules are made of. It may depend on what is seen from a rule, and be about
  the includes that the rules are compiled to.
* `Build.Traversal.rule` : it holds of compiling every rule that is looked at.
-/

namespace ScopeGrammar

open Build

/-- The includes among these elements are as wanted. -/
def ItemsKept (kept : Include → Prop) (items : List ListItem) : Prop :=
  ∀ i ∈ (Part.list items).includes, kept i

theorem ItemsKept.append {kept : Include → Prop} {items items' : List ListItem}
    (h : ItemsKept kept items) (h' : ItemsKept kept items') : ItemsKept kept (items ++ items') := by
  intro i hi
  rw [Part.includes, List.filterMap_append, List.mem_append] at hi
  exact hi.elim (h i) (h' i)

/-- A property of steps and their answers that holds of all single steps of compiling the rules of a
source, where repositories are seen as wanted, and includes are kept as wanted. -/
structure Build.Traversal (validate : Validator) (s : GrammarSource)
    (P : {α : Type} → Build α → (α → Prop) → Prop) (sees : SourceChain → RepositoryChain → Prop)
    (kept : Include → Prop) : Prop where
  pure {α : Type} {Q : α → Prop} {a : α} : Q a → P (pure a) Q
  bind {α β : Type} {m : Build α} {f : α → Build β} [∀ a, Growing (f a)] {Q : α → Prop}
    {R : β → Prop} : P m Q → (∀ a, Q a → P (f a) R) → P (m >>= f) R
  adds {ι : Type} {part : ι → PartId} {m : Build ι} {p : Part} :
    Adds part m p → p.kind ≠ .repository → (∀ i ∈ p.includes, kept i) → P m fun _ => True
  skip (path : String) (refusal : Refusal) : P (skip path refusal) fun _ => True
  linked {chain : SourceChain} {r : RuleSource} {repositories : RepositoryChain} {text : String}
    (path : String) : s.Visits validate chain r → r.disabled = false → r.includeText = some text →
    sees chain repositories →
    P (compileInclude repositories path text) fun item => ItemsKept kept [item]
  refuse {chain : SourceChain} {r : RuleSource} {fault : GrammarFault}
    {Q : Option ListItem → Prop} (path : String) : s.Visits validate chain r →
    r.disabled = false → r.includeText = none → r.form = .error fault → P (refuse path fault) Q
  space {chain : SourceChain} {r : RuleSource} {shape : RuleForm}
    {table : List (String × RuleSource)} (path : String) : s.Visits validate chain r →
    r.TakenAs validate shape → table ∈ r.tables shape → P (captureSpace path table) fun _ => True
  repository {chain : SourceChain} {r : RuleSource} {repositories : RepositoryChain}
    (path : String) : s.Visits validate chain r → r.disabled = false → r.includeText = none →
    r.repository ≠ [] → sees chain repositories →
    (∀ stack, sees (r.repository :: chain) stack →
      P (compileEntries validate stack path r.repository) fun _ => True) →
    P (compileRepository validate repositories path r.repository) (sees (r.repository :: chain))

namespace Build.Traversal

variable {validate : Validator} {s : GrammarSource}
  {P : {α : Type} → Build α → (α → Prop) → Prop} {sees : SourceChain → RepositoryChain → Prop}
  {kept : Include → Prop} {repositories : RepositoryChain}

theorem addsPattern (t : Traversal validate s P sees kept) (source : String) :
    P (addPattern source) fun _ => True :=
  t.adds (addPattern_adds source) (by simp [Part.kind]) (List.forall_mem_nil _)

theorem addsRule (t : Traversal validate s P sees kept) (rule : Rule) :
    P (addRule rule) fun _ => True :=
  t.adds (addRule_adds rule) (by simp [Part.kind]) (List.forall_mem_nil _)

theorem addsCapture (t : Traversal validate s P sees kept) (capture : Capture) :
    P (addCapture capture) fun _ => True :=
  t.adds (addCapture_adds capture) (by simp [Part.kind]) (List.forall_mem_nil _)

theorem addsList (t : Traversal validate s P sees kept) {items : List ListItem}
    (h : ItemsKept kept items) : P (addList items) fun _ => True :=
  t.adds (addList_adds items) (by simp [Part.kind]) h

theorem rules (t : Traversal validate s P sees kept) {rules : List RuleSource}
    (h : ∀ r ∈ rules, ∀ path, P (compileRule validate repositories path r) fun item =>
      ItemsKept kept item.toList) (path : String) (i : Nat) :
    P (compileRules validate repositories path i rules) (ItemsKept kept) := by
  induction rules generalizing i with
  | nil => exact t.pure (List.forall_mem_nil _)
  | cons r rest ih =>
    obtain ⟨hhead, hrest⟩ := List.forall_mem_cons.1 h
    rw [compileRules]
    refine t.bind (hhead _) fun item hitem => ?_
    exact t.bind (ih hrest (i + 1)) fun items hitems => t.pure (hitem.append hitems)

theorem items (t : Traversal validate s P sees kept) {rules : List RuleSource}
    (h : ∀ r ∈ rules, ∀ path, P (compileRule validate repositories path r) fun item =>
      ItemsKept kept item.toList) (path : String) :
    P (compileItems validate repositories path rules) fun _ => True :=
  t.bind (t.rules h path 0) fun _ hitems => t.addsList hitems

theorem entry (t : Traversal validate s P sees kept) {r : RuleSource} {path : String}
    (h : P (compileRule validate repositories path r) fun item => ItemsKept kept item.toList) :
    P (compileEntry validate repositories path r) fun _ => True := by
  rw [compileEntry_eq]
  refine t.bind h fun item hitem => ?_
  unfold entryList
  split
  · exact t.pure trivial
  · exact t.addsList hitem

theorem entries (t : Traversal validate s P sees kept) {entries : List (String × RuleSource)}
    (h : ∀ e ∈ entries, ∀ path, P (compileRule validate repositories path e.2) fun item =>
      ItemsKept kept item.toList) (path : String) :
    P (compileEntries validate repositories path entries) fun _ => True := by
  induction entries with
  | nil => exact t.pure trivial
  | cons e rest ih =>
    obtain ⟨key, r⟩ := e
    obtain ⟨hhead, hrest⟩ := List.forall_mem_cons.1 h
    rw [compileEntries_cons]
    refine t.bind (t.entry (hhead _)) fun list _ => ?_
    exact t.bind (ih hrest) fun _ _ => t.pure trivial

theorem captures (t : Traversal validate s P sees kept) {entries : List (String × RuleSource)}
    (h : ∀ r ∈ entries.flatMap (·.2.patterns), ∀ path,
      P (compileRule validate repositories path r) fun item => ItemsKept kept item.toList)
    (path : String) (table : CaptureTable) :
    P (fillCaptures validate repositories path table entries) fun _ => True := by
  induction entries generalizing table with
  | nil => exact t.pure trivial
  | cons e rest ih =>
    obtain ⟨key, r⟩ := e
    rw [List.flatMap_cons, List.forall_mem_append] at h
    rw [fillCaptures_cons, compileCapture]
    refine t.bind (Q := fun _ => True) ?_ fun id _ => ih h.2 _
    refine t.bind (Q := fun _ => True) ?_ fun list _ => ?_
    · rw [captureItems]
      split
      · exact t.pure trivial
      · exact t.bind (t.items h.1 _) fun _ _ => t.pure trivial
    · rw [keepCapture]
      split
      · exact t.pure trivial
      · exact t.bind (t.addsCapture _) fun _ _ => t.pure trivial

theorem table (t : Traversal validate s P sees kept) {entries : List (String × RuleSource)}
    {path : String} (hspace : P (captureSpace path entries) fun _ => True)
    (h : ∀ r ∈ entries.flatMap (·.2.patterns), ∀ path,
      P (compileRule validate repositories path r) fun item => ItemsKept kept item.toList) :
    P (compileTable validate repositories path entries) fun _ => True :=
  t.bind hspace fun table _ => t.captures h path table

theorem form (t : Traversal validate s P sees kept) {r : RuleSource} {shape : RuleForm}
    (hspace : ∀ table ∈ r.tables shape, ∀ path, P (captureSpace path table) fun _ => True)
    (h : ∀ c ∈ r.inner shape, ∀ path, P (compileRule validate repositories path c) fun item =>
      ItemsKept kept item.toList) (path : String) :
    P (compileForm validate repositories path r shape) fun item =>
      ItemsKept kept item.toList := by
  have htable : ∀ table ∈ r.tables shape, ∀ path,
      P (compileTable validate repositories path table) fun _ => True := fun table ht path =>
    t.table (hspace table ht path) fun c hc => h c (RuleSource.mem_inner_of_table ht hc)
  have hitems : r.patterns ⊆ r.inner shape → ∀ path,
      P (compileItems validate repositories path r.patterns) fun _ => True := fun hsub path =>
    t.items (fun c hc => h c (hsub hc)) path
  cases shape with
  | single source =>
    rw [compileForm]
    refine t.bind (t.addsPattern source) fun _ _ => ?_
    refine t.bind (htable _ (.head _) _) fun _ _ => ?_
    exact t.bind (t.addsRule _) fun _ _ => t.pure (List.forall_mem_nil _)
  | span opening close isWhile =>
    rw [compileForm]
    refine t.bind (t.addsPattern opening) fun _ _ => ?_
    refine t.bind (t.addsPattern close) fun _ _ => ?_
    refine t.bind (htable _ (.head _) _) fun _ _ => ?_
    refine t.bind (htable _ (.tail _ (.head _)) _) fun _ _ => ?_
    refine t.bind (hitems (List.subset_append_right _ _) _) fun _ _ => ?_
    exact t.bind (t.addsRule _) fun _ _ => t.pure (List.forall_mem_nil _)
  | container =>
    rw [compileForm]
    split
    · exact t.pure (List.forall_mem_nil _)
    · exact t.bind (hitems (List.subset_append_right _ _) _) fun _ _ => t.pure (List.forall_mem_nil _)

theorem enter (t : Traversal validate s P sees kept) {chain : SourceChain} {r : RuleSource}
    (hr : s.Visits validate chain r) (hdisabled : r.disabled = false)
    (hinclude : r.includeText = none) (hsees : sees chain repositories)
    (h : ∀ e ∈ r.repository, ∀ stack path, sees (r.repository :: chain) stack →
      P (compileRule validate stack path e.2) fun item => ItemsKept kept item.toList)
    (path : String) :
    P (enterRule validate repositories path r) (sees (r.chainInside chain)) := by
  rw [enterRule, RuleSource.chainInside]
  split
  · exact t.pure hsees
  · next hne =>
    refine t.repository _ hr hdisabled hinclude (by simpa using hne) hsees fun stack hstack => ?_
    exact t.entries (fun e he path => h e he stack path hstack) _

/-- The property holds of compiling every rule that is looked at. -/
theorem rule (t : Traversal validate s P sees kept) {r : RuleSource} {chain : SourceChain}
    {repositories : RepositoryChain} (path : String) (hr : s.Visits validate chain r)
    (hsees : sees chain repositories) :
    P (compileRule validate repositories path r) fun item => ItemsKept kept item.toList := by
  -- by the tree of rules, for whatever is around a rule: entries see more than the rule itself
  induction r using RuleSource.children_induction generalizing chain repositories path with
  | step r ih =>
    rw [compileRule_eq]
    cases hdisabled : r.disabled with
    | true =>
      rw [if_pos rfl]
      exact t.pure (List.forall_mem_nil _)
    | false =>
      rw [if_neg Bool.false_ne_true]
      cases hinclude : r.includeText with
      | some text =>
        exact t.bind (t.linked path hr hdisabled hinclude hsees) fun item hitem => t.pure hitem
      | none =>
        cases hform : r.form with
        | error fault => exact t.refuse path hr hdisabled hinclude hform
        | ok shape =>
          have henter := t.enter hr hdisabled hinclude hsees (fun e he stack path hstack =>
            ih e.2 (RuleSource.mem_children_of_entry he) path
              (.entry hr hdisabled hinclude he) hstack) path
          show P (compileShape validate repositories path r shape) _
          rw [compileShape]
          cases hrefusal : shape.refusal? validate with
          | some refusal =>
            refine t.bind henter fun stack _ => ?_
            exact t.bind (t.skip path refusal) fun _ _ => t.pure (List.forall_mem_nil _)
          | none =>
            have htaken : r.TakenAs validate shape := ⟨hdisabled, hinclude, hform, hrefusal⟩
            refine t.bind henter fun stack hstack => t.form (fun table ht path => ?_) ?_ path
            · exact t.space path hr htaken ht
            · exact fun c hc path => ih c (RuleSource.mem_children_of_inner hc) path
                (.inside hr htaken hc) hstack

end Build.Traversal

end ScopeGrammar
