import ContractDraft.Proofs.Json.Reader

/-!
# Documents that are read have distinct keys

Whatever a text of the grammar means, no object in it has a key twice: of the members with one key
the grammar keeps one field. So every document that is read has distinct keys
(`distinctKeys_of_readDocument`).
-/

namespace ContractDraft

section members

variable {α : Type} {Member : List Char → α → Prop}

theorem MembersText.exists_of_mem {s : List Char} {as : List α} (h : MembersText Member s as)
    {a : α} (hmem : a ∈ as) : ∃ t, Member t a := by
  induction h with
  | last _ ha _ =>
    rw [List.mem_singleton.mp hmem]
    exact ⟨_, ha⟩
  | cons _ ha _ _ ih =>
    rcases List.mem_cons.mp hmem with rfl | hrest
    · exact ⟨_, ha⟩
    · exact ih hrest

/-- Everything between two brackets has a text there. -/
theorem EnclosedText.exists_of_mem {tolerant : Bool} {s : List Char} {as : List α}
    (h : EnclosedText Member tolerant s as) {a : α} (hmem : a ∈ as) : ∃ t, Member t a := by
  cases h with
  | empty _ => cases hmem
  | members hmembers => exact hmembers.exists_of_mem hmem
  | trailing _ hmembers _ => exact hmembers.exists_of_mem hmem

end members

theorem ScalarText.isScalar {s : List Char} {v : Value} (h : ScalarText s v) :
    v.isScalar = Bool.true := by
  cases h with
  | number _ hmeaning => cases hmeaning <;> rfl
  | _ => rfl

/-- What a text means has distinct keys. -/
theorem distinctKeys_of_valueText {tolerant : Bool} {depth : ℕ} {s : List Char} {v : Value}
    (h : ValueText tolerant depth s v) : v.DistinctKeys := by
  induction depth generalizing s v with
  | zero => exact .scalar h.isScalar
  | succ depth ih =>
    rcases h with hscalar | hbracket
    · exact .scalar hscalar.isScalar
    · cases hbracket with
      | array hitems =>
        refine .array fun v hv => ?_
        obtain ⟨t, ht⟩ := hitems.exists_of_mem hv
        exact ih ht
      | object hmembers hmerges =>
        refine .object hmerges.keys_nodup fun field hfield => ?_
        obtain ⟨t, ht⟩ := hmembers.exists_of_mem (hmerges.mem hfield)
        obtain ⟨_, _, _, hvalue⟩ := ht
        exact ih hvalue

theorem distinctKeys_of_documentText {tolerant : Bool} {depth : ℕ} {s : List Char} {v : Value}
    (h : DocumentText tolerant depth s v) : v.DistinctKeys := by
  obtain ⟨_, hvalue, _⟩ := h
  exact distinctKeys_of_valueText hvalue

/-- Every document that can be read has distinct keys. -/
theorem distinctKeys_of_readDocument {options : ReadOptions} {text : String} {document : Value}
    (h : readDocument options text = .ok document) : document.DistinctKeys :=
  distinctKeys_of_documentText (readText_eq_ok_iff.mp (readDocument_eq_ok_iff_readText.mp h))

end ContractDraft
