import ContractDraft.Proofs.Contract.Inlining
import ContractDraft.Proofs.Contract.Structure
import ContractDraft.Proofs.Fragment.Plan
import ContractDraft.Proofs.Shape.Signature

/-!
# Inlining a draft

Inlining the references of a draft leads back to the draft that has none, which is the one made with
the empty plan. Where no fragment is shared this holds to the letter. A shared fragment shows the
examples of the object it was made from, so with sharing it holds up to examples.

Both are one induction, over what is left of a statement under a `view`: either all of it, or all
but the example. The induction needs one thing of a fragment, that it looks like the body of every
object it stands for (`Faithful`); for the view without examples this follows from equal signatures.
-/

namespace ContractDraft

/-! ## Inlining up to a view -/

/-- Replacing all references of `s` gives, as far as `view` shows, the list `t`. -/
def Inlines (view : Statement → Statement) (fragments : List Block) (s t : List Statement) : Prop :=
  ∃ n u, Expands fragments n s u ∧ u.map view = t.map view

namespace Inlines

variable {view : Statement → Statement} {fragments : List Block}

theorem nil : Inlines view fragments [] [] := ⟨0, [], .nil, rfl⟩

theorem single {x : Statement} (h : x.isPlain = true) : Inlines view fragments [x] [x] :=
  ⟨0, [x], .plain h .nil, rfl⟩

theorem append {a b s t : List Statement} (ha : Inlines view fragments a s)
    (hb : Inlines view fragments b t) : Inlines view fragments (a ++ b) (s ++ t) := by
  obtain ⟨m, u, hu, hview⟩ := ha
  obtain ⟨n, u', hu', hview'⟩ := hb
  refine ⟨m + n, u ++ u', hu.append hu', ?_⟩
  rw [List.map_append, List.map_append, hview, hview']

theorem enclose {opening closing : Statement} {s t : List Statement}
    (ho : opening.isPlain = true) (hc : closing.isPlain = true) (h : Inlines view fragments s t) :
    Inlines view fragments (opening :: s ++ [closing]) (opening :: t ++ [closing]) := by
  obtain ⟨n, u, hu, hview⟩ := h
  refine ⟨n, opening :: u ++ [closing], hu.enclose ho hc, ?_⟩
  rw [map_enclosed, map_enclosed, hview]

/-- A reference is inlined by inlining the body of its fragment. -/
theorem object {name : String} {body t : List Statement} (hdefines : Defines fragments name body)
    (h : Inlines view fragments body t) (key : Option String) :
    Inlines view fragments (Drafter.referenceTo key name)
      (.objectOpen key :: t ++ [.objectClose]) := by
  obtain ⟨n, u, hu, hview⟩ := h
  have hexpands : Expands fragments (n + 0 + 1) (Drafter.referenceTo key name)
      (.objectOpen key :: u ++ [.objectClose]) := .object hdefines hu .nil
  refine ⟨_, _, hexpands, ?_⟩
  rw [map_enclosed, map_enclosed, hview]

theorem items {name : String} {body t : List Statement} (hdefines : Defines fragments name body)
    (h : Inlines view fragments body t) (key : String) (bounds : ArrayBounds) :
    Inlines view fragments [.repeatFragment key name bounds]
      (.repeatOpen key .object bounds :: t ++ [.repeatClose .object]) := by
  obtain ⟨n, u, hu, hview⟩ := h
  have hexpands : Expands fragments (n + 0 + 1) [.repeatFragment key name bounds]
      (.repeatOpen key .object bounds :: u ++ [.repeatClose .object]) := .items hdefines hu .nil
  refine ⟨_, _, hexpands, ?_⟩
  rw [map_enclosed, map_enclosed, hview]

/-- What looks like the result is also one. -/
theorem of_map_eq {s t t' : List Statement} (h : Inlines view fragments s t)
    (hview : t.map view = t'.map view) : Inlines view fragments s t' := by
  obtain ⟨n, u, hu, hresult⟩ := h
  exact ⟨n, u, hu, hresult.trans hview⟩

end Inlines

namespace Drafter

/-! ## Drafts -/

variable {d : Drafter} {planner : Planner} {document : Value} {view : Statement → Statement}

/-- The blocks of the planned fragments. -/
def blocks (d : Drafter) : List Block := d.plan.fragments.map d.fragmentBlock

theorem defines_of_mem {f : Decision} (hf : f ∈ d.plan.fragments) :
    Defines d.blocks f.name (d.contents f.path (.object f.fields)) :=
  ⟨d.fragmentBlock f, List.mem_map_of_mem hf, rfl, statements_fragmentBlock d f⟩

/-- No name of a fragment has two bodies. -/
theorem unambiguous_blocks (hsound : d.plan.Sound planner document) : Unambiguous d.blocks := by
  intro name body other hbody hother
  obtain ⟨block, hblock, hname, hstatements⟩ := hbody
  obtain ⟨block', hblock', hname', hstatements'⟩ := hother
  obtain ⟨f, hf, rfl⟩ := List.mem_map.mp hblock
  obtain ⟨g, hg, rfl⟩ := List.mem_map.mp hblock'
  have hsame : f.name = g.name := hname.trans hname'.symm
  obtain rfl := hsound.eq_of_name hf hg hsame
  rw [hstatements] at hstatements'
  simpa using hstatements'

/-- For every entry of a signature shorter than `n`, the body of the fragment that it names inlines
to the body of its own object. -/
def Resolved (view : Statement → Statement) (d : Drafter) (planner : Planner) (n : ℕ) : Prop :=
  ∀ e ∈ d.plan.decisions, planner.measure e < n → ∃ f ∈ d.plan.fragments, f.name = e.name ∧
    Inlines view d.blocks (d.contents f.path (.object f.fields))
      (d.inline.contents e.path (.object e.fields))

theorem Resolved.mono {m n : ℕ} (h : Resolved view d planner n) (hle : m ≤ n) :
    Resolved view d planner m :=
  fun e he hlt => h e he (Nat.lt_of_lt_of_le hlt hle)

/-- What inlines at a value, provided that entries of shorter signatures are resolved. Its contents
need less than its own statements, which may be a reference to it. -/
structure Inlined (view : Statement → Statement) (d : Drafter) (planner : Planner)
    (key : Option String) (path : Path) (v : Value) : Prop where
  statements : Resolved view d planner ((signatureAt planner.policy key v).length + 1) →
    Inlines view d.blocks (d.statements key path v) (d.inline.statements key path v)
  contents : Resolved view d planner (signatureAt planner.policy key v).length →
    Inlines view d.blocks (d.contents path v) (d.inline.contents path v)

/-- The entry at the path of an object resolves the reference to it. -/
theorem Resolved.of_nameAt? (hsound : d.plan.Sound planner document) {path : Path}
    {fields : Fields} {name : String} (hat : document.at? path = some (.object fields))
    (hname : d.plan.nameAt? path = some name) (key : Option String)
    (h : Resolved view d planner ((signatureAt planner.policy key (.object fields)).length + 1)) :
    ∃ body, Defines d.blocks name body ∧
      Inlines view d.blocks body (d.inline.contents path (.object fields)) := by
  obtain ⟨e, he, rfl, rfl, rfl⟩ := hsound.exists_of_nameAt?_object hat hname
  rw [signatureAt_object] at h
  obtain ⟨f, hf, hsame, hbody⟩ := h e he (Nat.lt_succ_self _)
  exact ⟨_, hsame ▸ defines_of_mem hf, hbody⟩

theorem inlines_fields (hdistinct : document.DistinctKeys) {path : Path} {fields all : Fields}
    (hat : document.at? path = some (.object all)) (hsub : fields ⊆ all)
    (ih : ∀ field ∈ all, ∀ (key : Option String) (path : Path),
      document.at? path = some field.2 → Inlined view d planner key path field.2)
    (h : Resolved view d planner (signature planner.policy (.object all)).length) :
    Inlines view d.blocks (d.contents path (.object fields))
      (d.inline.contents path (.object fields)) := by
  induction fields with
  | nil =>
    rw [contents_object_nil, contents_object_nil]
    exact .nil
  | cons field fields ihfields =>
    have hmem : field ∈ all := hsub (List.mem_cons_self ..)
    have hchild := Value.at?_child hat (hdistinct.at? hat).keys_nodup hmem
    have hlt := length_signatureAt_field_lt planner.policy hmem
    have hhead := (ih field hmem (some field.1) _ hchild).statements (h.mono hlt)
    have htail := ihfields fun field hfield => hsub (List.mem_cons_of_mem _ hfield)
    rw [contents_object_cons, contents_object_cons]
    exact hhead.append htail

/-- An array under a key is inlined from its first item. -/
theorem inlines_items (hsound : d.plan.Sound planner document) {path : Path} {first : Value}
    (hat : document.at? path.element = some first)
    (hfirst : Inlined view d planner none path.element first)
    (h : Resolved view d planner ((signatureAt planner.policy none first).length + 1))
    (key : String) (rest : List Value) :
    Inlines view d.blocks (d.statements (some key) path (.array (first :: rest)))
      (d.inline.statements (some key) path (.array (first :: rest))) := by
  have hcontents := hfirst.contents (h.mono (Nat.le_succ _))
  cases first using Value.visit_induction with
  | object fields _ =>
    rw [statements_objects_of_none (d.inline_nameAt? _)]
    cases hname : d.plan.nameAt? path.element with
    | some name =>
      rw [statements_objects_of_some hname]
      obtain ⟨body, hdefines, hbody⟩ := h.of_nameAt? hsound hat hname none
      exact .items hdefines hbody key d.bounds
    | none =>
      rw [statements_objects_of_none hname]
      exact .enclose rfl rfl hcontents
  | empty =>
    rw [statements_arrays, statements_arrays]
    exact .enclose rfl rfl hcontents
  | array _ _ _ =>
    rw [statements_arrays, statements_arrays]
    exact .enclose rfl rfl hcontents
  | scalar v hv =>
    rw [statements_scalars d hv, statements_scalars d.inline hv]
    exact .single rfl

/-- Every value that a path leads to is inlined, if the entries inside it are resolved. -/
theorem inlined_of_at (hsound : d.plan.Sound planner document) (hdistinct : document.DistinctKeys)
    (v : Value) : ∀ (key : Option String) (path : Path), document.at? path = some v →
      Inlined view d planner key path v := by
  induction v using Value.visit_induction with
  | object fields ih =>
    intro key path hat
    have hcontents (h : Resolved view d planner
        (signatureAt planner.policy key (.object fields)).length) :
        Inlines view d.blocks (d.contents path (.object fields))
          (d.inline.contents path (.object fields)) := by
      rw [signatureAt_object] at h
      exact inlines_fields hdistinct hat (List.Subset.refl _) ih h
    refine ⟨fun h => ?_, hcontents⟩
    rw [statements_object_of_none (d.inline_nameAt? path)]
    cases hname : d.plan.nameAt? path with
    | some name =>
      rw [statements_object_of_some hname]
      obtain ⟨body, hdefines, hbody⟩ := h.of_nameAt? hsound hat hname key
      exact .object hdefines hbody key
    | none =>
      rw [statements_object_of_none hname]
      exact .enclose rfl rfl (hcontents (h.mono (Nat.le_succ _)))
  | empty =>
    intro key path _
    refine ⟨fun _ => ?_, fun _ => ?_⟩
    · rw [statements_empty, statements_empty]
      exact .single rfl
    · rw [contents_array_nil, contents_array_nil]
      exact .nil
  | array first rest ih =>
    intro key path hat
    have hitem := Value.at?_element hat
    have hfirst := ih none path.element hitem
    have hlt := length_signatureAt_item_lt planner.policy key first rest
    have hcontents (h : Resolved view d planner
        (signatureAt planner.policy key (.array (first :: rest))).length) :
        Inlines view d.blocks (d.contents path (.array (first :: rest)))
          (d.inline.contents path (.array (first :: rest))) := by
      rw [contents_array_cons, contents_array_cons]
      exact hfirst.statements (h.mono hlt)
    refine ⟨fun h => ?_, hcontents⟩
    have hsmaller := h.mono (Nat.le_succ _)
    cases key with
    | none =>
      rw [statements_item_array, statements_item_array]
      exact .enclose rfl rfl (hcontents hsmaller)
    | some key => exact inlines_items hsound hitem hfirst (hsmaller.mono hlt) key rest
  | scalar v hv =>
    intro key path _
    refine ⟨fun _ => ?_, fun _ => ?_⟩
    · rw [statements_scalar d hv, statements_scalar d.inline hv]
      exact .single rfl
    · rw [contents_scalar d hv, contents_scalar d.inline hv]
      exact .nil

/-- A fragment looks like the body of every object that is written as a reference to it. -/
def Faithful (view : Statement → Statement) (d : Drafter) : Prop :=
  ∀ e ∈ d.plan.decisions, ∀ f ∈ d.plan.fragments, f.name = e.name →
    (d.inline.contents f.path (.object f.fields)).map view =
      (d.inline.contents e.path (.object e.fields)).map view

/-- All entries are resolved, those of short signatures first. -/
theorem resolved (hsound : d.plan.Sound planner document) (hdistinct : document.DistinctKeys)
    (hfaithful : d.Faithful view) (n : ℕ) : Resolved view d planner n := by
  induction n with
  | zero =>
    intro e _ hlt
    omega
  | succ n ih =>
    intro e he hlt
    obtain ⟨f, hf, hsame, hsignature⟩ := hsound.exists_fragment he
    have hat := hsound.located f (Plan.mem_fragments.mp hf).1
    -- Only entries inside the object of the fragment matter for its body, and these are shorter.
    have hle : (signatureAt planner.policy none (.object f.fields)).length ≤ n := by
      show (signature planner.policy (.object f.fields)).length ≤ n
      rw [hsignature]
      exact Nat.le_of_lt_succ hlt
    have hbody := (inlined_of_at hsound hdistinct _ none f.path hat).contents (ih.mono hle)
    exact ⟨f, hf, hsame, hbody.of_map_eq (hfaithful e he f hf hsame)⟩

/-- The document is inlined from what its own statements stand around. -/
theorem inlines_rootStatements (hsound : d.plan.Sound planner document)
    (hdistinct : document.DistinctKeys) (hfaithful : d.Faithful view) :
    Inlines view d.blocks (d.rootStatements document) (d.inline.rootStatements document) := by
  have hinlined {path : Path} {v : Value} (hat : document.at? path = some v) :
      Inlines view d.blocks (d.contents path v) (d.inline.contents path v) :=
    (inlined_of_at hsound hdistinct v none path hat).contents
      (resolved hsound hdistinct hfaithful _)
  cases document using Value.visit_induction with
  | object fields _ =>
    rw [rootStatements_object, rootStatements_object]
    exact .enclose rfl rfl (hinlined rfl)
  | empty =>
    rw [rootStatements_empty, rootStatements_empty]
    exact .single rfl
  | array first rest _ =>
    cases first using Value.visit_induction with
    | object fields _ =>
      rw [rootStatements_objects, rootStatements_objects]
      exact .enclose rfl rfl (hinlined rfl)
    | empty =>
      rw [rootStatements_arrays, rootStatements_arrays]
      exact .enclose rfl rfl (hinlined rfl)
    | array _ _ _ =>
      rw [rootStatements_arrays, rootStatements_arrays]
      exact .enclose rfl rfl (hinlined rfl)
    | scalar v hv =>
      rw [rootStatements_scalars d hv, rootStatements_scalars d.inline hv]
      exact .single rfl
  | scalar v hv =>
    rw [rootStatements_scalar d hv, rootStatements_scalar d.inline hv]
    exact .enclose rfl rfl (.single rfl)

/-- Replacing references in a draft ends, with the draft without references as far as `view`
shows. -/
theorem exists_inlinesTo (hsound : d.plan.Sound planner document)
    (hdistinct : document.DistinctKeys) (hfaithful : d.Faithful view) :
    ∃ t, InlinesTo d.blocks (d.rootStatements document) t ∧
      t.map view = (d.inline.rootStatements document).map view := by
  obtain ⟨n, t, hexpands, hview⟩ := inlines_rootStatements hsound hdistinct hfaithful
  exact ⟨t, hexpands.inlinesTo (unambiguous_blocks hsound), hview⟩

/-- A fragment that is not shared is the body of its own object. -/
theorem faithful_of_unshared (hsound : d.plan.Sound planner document)
    (hoff : planner.options.reuseIdentical = false) : d.Faithful id := by
  intro e he f hf hsame
  rw [← hsound.fragments_eq hoff] at he
  obtain rfl := hsound.eq_of_name hf he hsame
  rfl

/-- A fragment has the signature of every object it stands for, and so the same statements up to
examples. -/
theorem faithful_withoutSample (hsound : d.plan.Sound planner document)
    (hpolicy : planner.policy = d.policy) : d.Faithful Statement.withoutSample := by
  intro e he f hf hsame
  obtain ⟨f', hf', hsame', hsignature⟩ := hsound.exists_fragment he
  obtain rfl := hsound.eq_of_name hf hf' (hsame.trans hsame'.symm)
  rw [hpolicy] at hsignature
  have halike := signatureAt_eq_iff.mp hsignature
  exact (agree_of_alike d _ none _ halike).contents f.path e.path

end Drafter

/-! ## Inlining the draft of a run -/

/-- Without shared fragments, replacing references by the bodies they name ends, in whatever order
it is done, and always with the statements of the draft without fragments. -/
theorem Config.inlinesTo_inlineDraft (config : Config) {document : Value}
    (hdistinct : document.DistinctKeys) (hoff : config.fragments.reuseIdentical = false) :
    InlinesTo (config.draft document).fragments (config.draft document).root.statements
      (config.inlineDraft document).root.statements := by
  have hsound := config.planner.plan_sound hdistinct
  have hfaithful := Drafter.faithful_of_unshared
    (d := config.drafter (config.planner.plan document)) hsound hoff
  obtain ⟨t, ht, hview⟩ := Drafter.exists_inlinesTo hsound hdistinct hfaithful
  rw [List.map_id, List.map_id] at hview
  rw [hview] at ht
  exact ht

/-- The draft of an order with four fragments inlines to the one without. -/
theorem Config.inlinesTo_order : Value.order.DistinctKeys ∧
    (Config.small false).fragments.reuseIdentical = false ∧
    ((Config.small false).draft .order).fragments.map (·.name) =
      ["billing", "place", "deliveryItem", "place2"] ∧
    InlinesTo ((Config.small false).draft .order).fragments
      ((Config.small false).draft .order).root.statements
      ((Config.small false).inlineDraft .order).root.statements :=
  ⟨Value.order_distinctKeys, rfl, by decide +kernel,
    inlinesTo_inlineDraft (Config.small false) Value.order_distinctKeys rfl⟩

/-- Whether fragments are shared or not, replacing references by the bodies they name ends, in
whatever order it is done, and always with one list, which is the draft without fragments up to
examples. -/
theorem Config.inlinesTo_withoutSample (config : Config) {document : Value}
    (hdistinct : document.DistinctKeys) :
    ∃ t, InlinesTo (config.draft document).fragments (config.draft document).root.statements t ∧
      t.map Statement.withoutSample =
        (config.inlineDraft document).root.statements.map Statement.withoutSample := by
  have hsound := config.planner.plan_sound hdistinct
  have hfaithful := Drafter.faithful_withoutSample
    (d := config.drafter (config.planner.plan document)) hsound rfl
  exact Drafter.exists_inlinesTo hsound hdistinct hfaithful

/-- In an order the second party is inlined as the first one, which differs from it in examples
only. -/
theorem Config.inlinesTo_shared_order : Value.order.DistinctKeys ∧
    (Config.small true).fragments.reuseIdentical = true ∧
    ((Config.small true).draft .order).fragments.map (·.name) = ["billing", "place"] ∧
    ∃ t, InlinesTo ((Config.small true).draft .order).fragments
        ((Config.small true).draft .order).root.statements t ∧
      t.map Statement.withoutSample =
        ((Config.small true).inlineDraft .order).root.statements.map Statement.withoutSample :=
  ⟨Value.order_distinctKeys, rfl, by decide +kernel,
    inlinesTo_withoutSample (Config.small true) Value.order_distinctKeys⟩

end ContractDraft
