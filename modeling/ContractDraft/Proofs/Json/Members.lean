import ContractDraft.Proofs.Json.Grammar
import ContractDraft.Proofs.Json.Position
import Mathlib.Data.List.Induction
import Mathlib.Data.Option.Basic

/-!
# The fields that members mean

The reader puts members into the fields one after the other. What comes of it is described without
an order of steps: every key where it first occurs among the members, with the value it has last
(`merges_iff`).
-/

namespace ContractDraft

namespace Fields

/-- Setting a key adds it behind the others, unless it is there already. -/
theorem keys_put (fields : Fields) (key : String) (value : Value) :
    (put fields key value).map (·.1) =
      if key ∈ fields.map (·.1) then fields.map (·.1) else fields.map (·.1) ++ [key] := by
  induction fields with
  | nil => rfl
  | cons field rest ih =>
    obtain ⟨k, v⟩ := field
    unfold put
    by_cases hsame : k = key
    · rw [if_pos hsame, if_pos (by simp [hsame])]
      rfl
    · have hiff : key ∈ ((k, v) :: rest).map (·.1) ↔ key ∈ rest.map (·.1) := by
        simp [Ne.symm hsame]
      rw [if_neg hsame, List.map_cons, ih]
      simp only [hiff]
      split <;> rfl

theorem keys_nodup_put {fields : Fields} (h : (fields.map (·.1)).Nodup) (key : String)
    (value : Value) : ((put fields key value).map (·.1)).Nodup := by
  rw [keys_put]
  split
  · exact h
  · rename_i hnew
    refine List.nodup_append.mpr ⟨h, List.nodup_singleton key, fun k hk other hother => ?_⟩
    rw [List.mem_singleton.mp hother]
    exact fun hsame => hnew (hsame ▸ hk)

theorem ofMembers_append_singleton (members : List (String × Value)) (member : String × Value) :
    ofMembers (members ++ [member]) = put (ofMembers members) member.1 member.2 := by
  simp [ofMembers]

theorem keys_ofMembers (members : List (String × Value)) :
    (ofMembers members).map (·.1) = (members.map (·.1)).eraseDups := by
  induction members using List.reverseRecOn with
  | nil => rfl
  | append_singleton members member ih =>
    rw [ofMembers_append_singleton, keys_put, ih, List.map_append, List.map_singleton,
      List.eraseDups_append]
    by_cases hold : member.1 ∈ members.map (·.1)
    · have hseen : member.1 ∈ (members.map (·.1)).eraseDups := List.mem_eraseDups.mpr hold
      rw [if_pos hseen]
      simp [List.removeAll, hold]
    · have hnew : member.1 ∉ (members.map (·.1)).eraseDups := mt List.mem_eraseDups.mp hold
      rw [if_neg hnew]
      simp [List.removeAll, hold, List.eraseDups_cons]

theorem keys_nodup_ofMembers (members : List (String × Value)) :
    ((ofMembers members).map (·.1)).Nodup := by
  induction members using List.reverseRecOn with
  | nil => exact .nil
  | append_singleton members member ih =>
    rw [ofMembers_append_singleton]
    exact keys_nodup_put ih member.1 member.2

/-- After setting a key, a field is the one set or an earlier one of another key. -/
theorem eq_or_of_mem_put {fields : Fields} (h : (fields.map (·.1)).Nodup) {key : String}
    {value : Value} {field : String × Value} (hmem : field ∈ put fields key value) :
    field = (key, value) ∨ (field ∈ fields ∧ field.1 ≠ key) := by
  induction fields with
  | nil => exact .inl (List.mem_singleton.mp hmem)
  | cons head rest ih =>
    obtain ⟨k, v⟩ := head
    have hcons := List.nodup_cons.mp h
    unfold put at hmem
    split at hmem
    · rename_i hsame
      rcases List.mem_cons.mp hmem with rfl | hrest
      · exact .inl (by rw [hsame])
      · have hother : field.1 ∈ rest.map (·.1) := List.mem_map_of_mem hrest
        refine .inr ⟨List.mem_cons_of_mem _ hrest, ?_⟩
        rintro rfl
        exact hcons.1 (hsame ▸ hother)
    · rename_i hne
      rcases List.mem_cons.mp hmem with rfl | hrest
      · exact .inr ⟨List.mem_cons_self .., hne⟩
      · exact (ih hcons.2 hrest).imp_right fun hold => ⟨List.mem_cons_of_mem _ hold.1, hold.2⟩

/-- A field has the value that the last member of its key has. -/
theorem find?_reverse_of_mem_ofMembers {members : List (String × Value)}
    {field : String × Value} (h : field ∈ ofMembers members) :
    (members.reverse.find? fun m => m.1 = field.1) = some field := by
  induction members using List.reverseRecOn with
  | nil => cases h
  | append_singleton members member ih =>
    rw [ofMembers_append_singleton] at h
    rw [List.reverse_append, List.reverse_singleton, List.singleton_append]
    rcases eq_or_of_mem_put (keys_nodup_ofMembers members) h with rfl | ⟨hold, hne⟩
    · simp
    · rw [List.find?_cons_of_neg (by simpa using Ne.symm hne)]
      exact ih hold

end Fields

theorem merges_ofMembers (members : List (String × Value)) :
    Merges members (Fields.ofMembers members) where
  keys := Fields.keys_ofMembers members
  values _ := Fields.find?_reverse_of_mem_ofMembers

/-- Members have one meaning: its keys are fixed, and each key fixes its value. -/
theorem Merges.eq {members : List (String × Value)} {fields others : Fields}
    (h : Merges members fields) (hothers : Merges members others) : fields = others := by
  have hvalues {fields : Fields} (h : Merges members fields) :
      fields.map some =
        (fields.map (·.1)).map fun key => members.reverse.find? fun m => m.1 = key := by
    rw [List.map_map]
    exact List.map_congr_left fun field hmem => (h.values field hmem).symm
  have hsome : fields.map some = others.map some := by
    rw [hvalues h, hvalues hothers, h.keys, hothers.keys]
  exact List.map_injective_iff.mpr (Option.some_injective _) hsome

theorem merges_iff {members : List (String × Value)} {fields : Fields} :
    Merges members fields ↔ fields = Fields.ofMembers members := by
  constructor
  · exact fun h => h.eq (merges_ofMembers members)
  · rintro rfl
    exact merges_ofMembers members

theorem Merges.keys_nodup {members : List (String × Value)} {fields : Fields}
    (h : Merges members fields) : (fields.map (·.1)).Nodup := by
  rw [merges_iff.mp h]
  exact Fields.keys_nodup_ofMembers members

/-- Every field is one of the members. -/
theorem Merges.mem {members : List (String × Value)} {fields : Fields} (h : Merges members fields)
    {field : String × Value} (hmem : field ∈ fields) : field ∈ members :=
  List.mem_reverse.mp (List.mem_of_find?_eq_some (h.values field hmem))

theorem eraseDups_eq_self_of_nodup {α : Type} [DecidableEq α] {items : List α} (h : items.Nodup) :
    items.eraseDups = items := by
  induction items with
  | nil => rfl
  | cons a rest ih =>
    have hcons := List.nodup_cons.mp h
    have hkept : rest.filter (fun b => !b == a) = rest := by
      refine List.filter_eq_self.mpr fun b hb => ?_
      have hne : b ≠ a := fun hsame => hcons.1 (hsame ▸ hb)
      simp [hne]
    rw [List.eraseDups_cons, hkept, ih hcons.2]

/-- Members of distinct keys mean themselves. -/
theorem merges_self {fields : Fields} (h : (fields.map (·.1)).Nodup) : Merges fields fields where
  keys := (eraseDups_eq_self_of_nodup h).symm
  values field hmem := by
    have hreverse : (fields.reverse.map (·.1)).Nodup := by
      rw [List.map_reverse]
      exact List.nodup_reverse.mpr h
    exact Value.find?_key_of_mem hreverse (List.mem_reverse.mpr hmem)

end ContractDraft
