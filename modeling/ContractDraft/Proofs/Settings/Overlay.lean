import ContractDraft.Proofs.Json.DistinctKeys
import ContractDraft.Proofs.Settings.Passing

/-!
# Tables of some members

A table may give any members of a record type, in any order and between any others that the type
does not know. Reading it lays the given members over a record: each stands in the written result
where the record had its own, and all others are those of the record (`read_partialTable`). For that
a member must replace itself alone (`RecordSchema.Independent`), so that it does not matter which of
two members comes first. All names are strings as documents have them, since a name is read before
it can be looked up; what stands behind one that is not known need only be JSON.
-/

namespace ContractDraft

variable {σ α : Type}

/-! ## Rows of members -/

section rows

variable {β : Type} {Text : List Char → α → Prop} {Other : List Char → β → Prop}
  {R : α → β → Prop} {s : List Char} {as : List α}

/-- If each member may be read another way, so may the row, and what is found goes with what was
there. -/
theorem MembersText.exists_forall₂ (h : MembersText Text s as)
    (hmember : ∀ t a, Text t a → ∃ b, Other t b ∧ R a b) :
    ∃ bs, MembersText Other s bs ∧ List.Forall₂ R as bs := by
  induction h with
  | last hbefore ha hafter =>
    obtain ⟨b, hb, hab⟩ := hmember _ _ ha
    exact ⟨[b], .last hbefore hb hafter, .cons hab .nil⟩
  | cons hbefore ha hafter _ ih =>
    obtain ⟨b, hb, hab⟩ := hmember _ _ ha
    obtain ⟨bs, hbs, habs⟩ := ih
    exact ⟨b :: bs, .cons hbefore hb hafter hbs, .cons hab habs⟩

theorem EnclosedText.exists_forall₂ {tolerant : Bool} (h : EnclosedText Text tolerant s as)
    (hmember : ∀ t a, Text t a → ∃ b, Other t b ∧ R a b) :
    ∃ bs, EnclosedText Other tolerant s bs ∧ List.Forall₂ R as bs := by
  cases h with
  | empty hs => exact ⟨[], .empty hs, .nil⟩
  | members hs =>
    obtain ⟨bs, hbs, habs⟩ := hs.exists_forall₂ hmember
    exact ⟨bs, .members hbs, habs⟩
  | trailing ht hs hafter =>
    obtain ⟨bs, hbs, habs⟩ := hs.exists_forall₂ hmember
    exact ⟨bs, .trailing ht hbs hafter, habs⟩

end rows

/-! ## Members that replace themselves alone -/

/-- Reading a member of `source` into a record changes the written record at that member's place and
nowhere else. -/
def RecordSchema.Independent (schema : RecordSchema σ) : Prop :=
  ∀ p ∈ schema.zipIdx, ∀ source r : σ,
    schema.map (fun member => member.write (p.1.copy source r)) =
      (schema.map fun member => member.write r).set p.2 (p.1.write source)

/-- The names of a record type are distinct, and its members are read back and replace themselves
alone. -/
structure RecordSchema.Lawful (schema : RecordSchema σ) : Prop where
  names : (schema.map (·.name)).Nodup
  restores : ∀ member ∈ schema, member.Restores
  independent : schema.Independent

/-- The text replaces what the member writes by `entry`. -/
def Member.Gives (member : Member σ) (t : List Char) (entry : Entry) : Prop :=
  ∃ source : σ, Takes member.read t (member.copy source) ∧ member.write source = entry

theorem Member.Restores.gives {member : Member σ} (h : member.Restores) {source : σ} {t : List Char}
    (ht : EntryText t (member.write source)) : member.Gives t (member.write source) :=
  ⟨source, h source t ht, rfl⟩

namespace RecordSchema

variable {schema : RecordSchema σ}

theorem Lawful.eq_of_name (h : schema.Lawful) {member other : Member σ} (hmember : member ∈ schema)
    (hother : other ∈ schema) (hname : other.name = member.name) : other = member :=
  List.inj_on_of_nodup_map h.names hother hmember hname

theorem Lawful.write_copy (h : schema.Lawful) {member other : Member σ} (hmember : member ∈ schema)
    (hother : other ∈ schema) (source r : σ) :
    other.write (member.copy source r) =
      if other.name = member.name then member.write source else other.write r := by
  obtain ⟨i, hi, rfl⟩ := List.getElem_of_mem hmember
  obtain ⟨j, hj, rfl⟩ := List.getElem_of_mem hother
  have hplace : (schema[i], i) ∈ schema.zipIdx := by simp [List.mem_zipIdx_iff_getElem?, hi]
  have hset := congrArg (·[j]?) (h.independent _ hplace source r)
  have hsame : schema[j].name = schema[i].name ↔ i = j := by
    refine ⟨fun hname => ?_, fun hij => by simp [hij]⟩
    exact ((h.names.of_map _).getElem_inj_iff.mp (h.eq_of_name hmember hother hname)).symm
  simpa [List.getElem_set, hi, hj, hsame] using hset

/-! ## Texts -/

/-- A text of some entry that the member of this name can have. -/
def MemberText (schema : RecordSchema σ) (key : String) (t : List Char) (entry : Entry) : Prop :=
  ∃ member ∈ schema, ∃ r : σ, member.name = key ∧ member.write r = entry ∧ EntryText t entry

/-- What a member of a table gives: one that is known a value, and any other nothing. -/
inductive GivenText (schema : RecordSchema σ) (Value : String → List Char → α → Prop)
    (key : String) (t : List Char) : Option α → Prop where
  | known {a : α} : schema.knows key = true → Value key t a → GivenText schema Value key t (some a)
  | unknown {depth : ℕ} : schema.knows key = false → LooseText depth t →
      GivenText schema Value key t none

/-- A table that gives some members of a record type, each of them once, and any others. -/
inductive PartialTable (schema : RecordSchema σ) (Value : String → List Char → α → Prop) :
    List Char → (String → Option α) → Prop where
  | table {s : List Char} {members : List (String × Option α)} {given : String → Option α} :
      EnclosedText (KeyedText (GivenText schema Value)) false s members →
      ((members.map (·.1)).filter schema.knows).Nodup →
      (∀ key a, given key = some a ↔ (key, some a) ∈ members) →
      PartialTable schema Value ('{' :: s ++ ['}']) given

theorem Lawful.gives_of_memberText (h : schema.Lawful) {member : Member σ}
    (hmember : member ∈ schema) {t : List Char} {entry : Entry}
    (ht : schema.MemberText member.name t entry) : member.Gives t entry := by
  obtain ⟨other, hother, r, hname, rfl, htext⟩ := ht
  obtain rfl := h.eq_of_name hmember hother hname
  exact (h.restores _ hmember).gives htext

/-- Members of which none that is known comes twice give a value for every name. -/
theorem PartialTable.of_members {Value : String → List Char → α → Prop} {s : List Char}
    {members : List (String × Option α)}
    (h : EnclosedText (KeyedText (GivenText schema Value)) false s members)
    (hnodup : ((members.map (·.1)).filter schema.knows).Nodup) :
    PartialTable schema Value ('{' :: s ++ ['}']) fun key => (members.lookup key).join := by
  refine .table h hnodup fun key a => ?_
  rw [Option.join_eq_some_iff, List.lookup_eq_some_iff]
  constructor
  · rintro ⟨front, back, rfl, _⟩
    simp
  · intro hmem
    have hknows : schema.knows key = true := by
      obtain ⟨t, ht⟩ := h.exists_of_mem hmem
      cases ht with
      | keyed _ _ _ hgiven =>
        cases hgiven with
        | known hknows _ => exact hknows
    obtain ⟨front, back, rfl⟩ := List.append_of_mem hmem
    refine ⟨front, back, rfl, fun other hother => bne_iff_ne.mpr ?_⟩
    rintro rfl
    rw [List.map_append, List.filter_append, List.map_cons, List.filter_cons_of_pos hknows]
      at hnodup
    exact (List.nodup_append.mp hnodup).2.2 _
      (List.mem_filter.mpr ⟨List.mem_map_of_mem hother, hknows⟩) _ (List.mem_cons_self ..) rfl

/-- The table of a record with the given entries in place of its own. -/
def overlay (schema : RecordSchema σ) (r : σ) (given : String → Option Entry) : Entry :=
  .table (schema.map fun member => (member.name, (given member.name).getD (member.write r)))

/-! ## Reading -/

/-- What reading a member of a table does to every member of a record. -/
structure Lays (schema : RecordSchema σ) (written : α → Entry) (member : String × Option α)
    (update : String × (σ → σ)) : Prop where
  key : update.1 = member.1
  write : ∀ other ∈ schema, ∀ r : σ, other.write (update.2 r) =
    if other.name = member.1 then (member.2.map written).getD (other.write r) else other.write r

section reading

variable {Value : String → List Char → α → Prop} {written : α → Entry}

/-- Every member of a partial table has an update. -/
theorem exists_update (hlawful : schema.Lawful)
    (hvalue : ∀ member ∈ schema, ∀ t a, Value member.name t a → member.Gives t (written a))
    {t : List Char} {member : String × Option α} (h : KeyedText (GivenText schema Value) t member) :
    ∃ update, schema.UpdateText t update ∧ schema.Lays written member update := by
  obtain @⟨s, before, after, t, key, given, hkey, hbefore, hafter, hgiven⟩ := h
  cases hgiven with
  | known hknows ha =>
    obtain ⟨member, hmember, hname⟩ := List.any_eq_true.mp hknows
    obtain rfl : member.name = key := of_decide_eq_true hname
    obtain ⟨source, htakes, hwrite⟩ := hvalue member hmember _ _ ha
    refine ⟨_, .keyed hkey hbefore hafter (takes_readMember hlawful.names hmember htakes), rfl, ?_⟩
    intro other hother r
    rw [hlawful.write_copy hmember hother, hwrite]
    rfl
  | unknown hknows ht =>
    refine ⟨_, .keyed hkey hbefore hafter (takes_readMember_of_not_knows hknows ht), rfl, ?_⟩
    intro other _ r
    exact (ite_self _).symm

theorem map_fst_of_lays {members : List (String × Option α)} {updates : List (String × (σ → σ))}
    (h : List.Forall₂ (schema.Lays written) members updates) :
    updates.map (·.1) = members.map (·.1) := by
  induction h with
  | nil => rfl
  | cons hfirst _ ih => rw [List.map_cons, List.map_cons, hfirst.key, ih]

/-- A member that no text gives stays as it is. -/
theorem write_applyAll_of_not_mem {members : List (String × Option α)}
    {updates : List (String × (σ → σ))} (h : List.Forall₂ (schema.Lays written) members updates)
    {other : Member σ} (hother : other ∈ schema) (hnone : ∀ a, (other.name, some a) ∉ members)
    (r : σ) : other.write (applyAll updates r) = other.write r := by
  induction h generalizing r with
  | nil => rfl
  | @cons member update members updates hfirst _ ih =>
    obtain ⟨key, given⟩ := member
    have hkept : other.write (update.2 r) = other.write r := by
      rw [hfirst.write other hother r]
      split
      · rename_i hname
        cases given with
        | none => rfl
        | some a => exact absurd (hname ▸ List.mem_cons_self ..) (hnone a)
      · rfl
    exact (ih (fun a hmem => hnone a (List.mem_cons_of_mem _ hmem)) (update.2 r)).trans hkept

/-- A member that is given once stands in the result as it is given, wherever that is. -/
theorem write_applyAll_of_mem {members : List (String × Option α)}
    {updates : List (String × (σ → σ))} (h : List.Forall₂ (schema.Lays written) members updates)
    (hnodup : ((members.map (·.1)).filter schema.knows).Nodup) {other : Member σ}
    (hother : other ∈ schema) {a : α} (ha : (other.name, some a) ∈ members) (r : σ) :
    other.write (applyAll updates r) = written a := by
  have hknows : schema.knows other.name = true :=
    List.any_eq_true.mpr ⟨other, hother, decide_eq_true rfl⟩
  induction h generalizing r with
  | nil => cases ha
  | @cons member update members updates hfirst hrest ih =>
    rcases List.mem_cons.mp ha with rfl | hmem
    · rw [List.map_cons, List.filter_cons_of_pos hknows, List.nodup_cons] at hnodup
      have hnone : ∀ b, (other.name, some b) ∉ members := fun b hb =>
        hnodup.1 (List.mem_filter.mpr ⟨List.mem_map.mpr ⟨_, hb, rfl⟩, hknows⟩)
      refine (write_applyAll_of_not_mem hrest hother hnone (update.2 r)).trans ?_
      rw [hfirst.write other hother r, if_pos rfl]
      rfl
    · exact ih (hnodup.sublist ((List.sublist_cons_self _ _).filter _)) hmem (update.2 r)

/-- A partial table is read on top of any record, and lays what it gives over it. -/
theorem read_partialTable (hlawful : schema.Lawful)
    (hvalue : ∀ member ∈ schema, ∀ t a, Value member.name t a → member.Gives t (written a))
    {t : List Char} {given : String → Option α} (h : PartialTable schema Value t given)
    (hrequired : ∀ member ∈ schema, member.required = true → given member.name ≠ none)
    (initial : σ) :
    ∃ r, (∀ before rest, Blanks before →
        schema.read initial (before ++ (t ++ rest)) = .ok (r, rest)) ∧
      schema.write r = schema.overlay initial fun key => (given key).map written := by
  obtain @⟨s, members, _, henclosed, hnodup, hgiven⟩ := h
  obtain ⟨updates, hupdates, hlays⟩ :=
    henclosed.exists_forall₂ fun _ _ => exists_update hlawful hvalue
  have hkeys : updates.map (·.1) = members.map (·.1) := map_fst_of_lays hlays
  have hcomplete : ∀ member ∈ schema, member.required = true →
      member.name ∈ updates.map (·.1) := by
    intro member hmember hneeded
    obtain ⟨a, ha⟩ := Option.ne_none_iff_exists'.mp (hrequired member hmember hneeded)
    rw [hkeys]
    exact List.mem_map.mpr ⟨_, (hgiven _ _).mp ha, rfl⟩
  refine ⟨applyAll updates initial, fun before rest hbefore => ?_, ?_⟩
  · exact read_table_append hbefore hupdates (hkeys ▸ hnodup) hcomplete initial
  · refine congrArg Entry.table (List.map_congr_left fun member hmember => congrArg _ ?_)
    dsimp only
    cases ha : given member.name with
    | none =>
      have hnone : ∀ a, (member.name, some a) ∉ members := fun a hmem => by
        rw [(hgiven _ _).mpr hmem] at ha
        cases ha
      exact write_applyAll_of_not_mem hlays hmember hnone initial
    | some a => exact write_applyAll_of_mem hlays hnodup hmember ((hgiven _ _).mp ha) initial

end reading

theorem Restores.write_injective (h : schema.Restores) : Function.Injective schema.write := by
  intro r other hwrite
  have hother := (h.load_write other r).1
  rw [← hwrite, (h.load_write r r).1] at hother
  exact Except.ok.inj hother

end RecordSchema

/-- A member that is a record of its own is given by any text that is read as such a record. -/
theorem Member.record_gives {τ : Type} {name : String} {schema : RecordSchema τ}
    (h : schema.Restores) {initial v : τ} {get : σ → τ} {set : σ → τ → σ} {t : List Char}
    (hread : ∀ before rest, Blanks before →
      schema.read initial (before ++ (t ++ rest)) = .ok (v, rest))
    (hv : ∃ source, get source = v) :
    (Member.record name schema initial get set).Gives t (schema.write v) := by
  obtain ⟨source, rfl⟩ := hv
  refine ⟨source, ?_, rfl⟩
  rw [(Member.record_spec h initial get set).2]
  intro before rest r hbefore _
  exact bind_eq_ok_iff.mpr ⟨_, hread before rest hbefore, rfl⟩

end ContractDraft
