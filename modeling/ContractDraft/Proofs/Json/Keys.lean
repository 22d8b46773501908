import ContractDraft.Proofs.Json.Position

/-!
# The keys of a document

All keys of a value, as deep as they may be. A path leads through keys of the document to a value
whose keys are keys of the document (`Value.keys_at?`), so what holds of all keys holds along every
path.
-/

namespace ContractDraft

mutual

/-- The keys of all objects in a value, also of those in later items of arrays. -/
def Value.keys : Value → List String
  | .object fields => fieldKeys fields
  | .array items => itemKeys items
  | _ => []
termination_by structural v => v

/-- The keys of some fields and the keys in their values. -/
def fieldKeys : List (String × Value) → List String
  | [] => []
  | (key, v) :: rest => key :: (v.keys ++ fieldKeys rest)
termination_by structural fields => fields

/-- The keys in some items. -/
def itemKeys : List Value → List String
  | [] => []
  | v :: rest => v.keys ++ itemKeys rest
termination_by structural items => items

end

theorem mem_fieldKeys {fields : Fields} {field : String × Value} (h : field ∈ fields) :
    field.1 ∈ fieldKeys fields ∧ field.2.keys ⊆ fieldKeys fields := by
  induction fields with
  | nil => cases h
  | cons other rest ih =>
    rw [fieldKeys]
    rcases List.mem_cons.mp h with rfl | hrest
    · exact ⟨List.mem_cons_self .., fun key hkey => by simp [hkey]⟩
    · obtain ⟨hkey, hkeys⟩ := ih hrest
      exact ⟨by simp [hkey], fun key hmem => by simp [hkeys hmem]⟩

theorem keys_subset_itemKeys {items : List Value} {v : Value} (h : v ∈ items) :
    v.keys ⊆ itemKeys items := by
  induction items with
  | nil => cases h
  | cons other rest ih =>
    rw [itemKeys]
    rcases List.mem_cons.mp h with rfl | hrest
    · exact List.subset_append_left ..
    · exact List.subset_append_of_subset_right _ (ih hrest)

/-- A path leads by keys of the document to a value with keys of the document. -/
theorem Value.keys_at? {document v : Value} {path : Path} (h : document.at? path = some v) :
    (∀ key, .key key ∈ path → key ∈ document.keys) ∧ v.keys ⊆ document.keys := by
  induction path generalizing v with
  | nil =>
    obtain rfl : document = v := Option.some.inj h
    exact ⟨by simp, List.Subset.refl _⟩
  | cons step path ih =>
    cases step with
    | key key =>
      simp only [at?] at h
      split at h
      · rename_i fields hfields
        obtain ⟨field, hfind, rfl⟩ := Option.map_eq_some_iff.mp h
        obtain rfl : field.1 = key := by simpa using List.find?_some hfind
        obtain ⟨hpath, hobject⟩ := ih hfields
        rw [keys] at hobject
        obtain ⟨hkey, hkeys⟩ := mem_fieldKeys (List.mem_of_find?_eq_some hfind)
        refine ⟨fun other hother => ?_, fun other hother => hobject (hkeys hother)⟩
        rcases List.mem_cons.mp hother with hsame | hbefore
        · obtain rfl := Step.key.inj hsame
          exact hobject hkey
        · exact hpath other hbefore
      · cases h
    | item =>
      simp only [at?] at h
      split at h
      · rename_i items hitems
        obtain ⟨hpath, harray⟩ := ih hitems
        rw [keys] at harray
        have hkeys := keys_subset_itemKeys (List.mem_of_head? h)
        exact ⟨fun key hkey => hpath key (by simpa using hkey),
          fun key hkey => harray (hkeys hkey)⟩
      · cases h

end ContractDraft
