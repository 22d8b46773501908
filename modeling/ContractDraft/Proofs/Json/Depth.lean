import ContractDraft.Proofs.Json.DistinctKeys
import ContractDraft.Proofs.Json.Lockstep
import ContractDraft.Proofs.Json.Printer

/-!
# The depth limit only cuts

A document that is read under a limit nests no deeper than the limit allows. A larger limit changes
the results of those texts only that are refused for their depth, and these are texts whose brackets
do nest too deep: no result that the smaller limit cuts off lies before the bracket it refuses
(`readDocument_maxDepth`).
-/

namespace ContractDraft

namespace Value

theorem itemNesting_le {items : List Value} {depth : ℕ} (h : ∀ v ∈ items, v.nesting ≤ depth) :
    itemNesting items ≤ depth := by
  induction items with
  | nil => exact Nat.zero_le depth
  | cons v rest ih =>
    have hrest : itemNesting rest ≤ depth := ih fun w hw => h w (List.mem_cons_of_mem v hw)
    rw [itemNesting]
    exact Nat.max_le.mpr ⟨h v (List.mem_cons_self ..), hrest⟩

theorem nesting_of_isScalar {v : Value} (h : v.isScalar = true) : v.nesting = 0 := by
  cases v with
  | array _ => cases h
  | object _ => cases h
  | _ => rfl

end Value

/-- The depth of the grammar bounds how deep the value nests. -/
theorem nesting_le_of_valueText {tolerant : Bool} {depth : ℕ} {s : List Char} {v : Value}
    (h : ValueText tolerant depth s v) : v.nesting ≤ depth := by
  induction depth generalizing s v with
  | zero => exact (Value.nesting_of_isScalar h.isScalar).le
  | succ depth ih =>
    rcases h with hscalar | hbracket
    · rw [Value.nesting_of_isScalar hscalar.isScalar]
      exact Nat.zero_le _
    · cases hbracket with
      | array hitems =>
        rw [Value.nesting]
        refine Nat.succ_le_succ (Value.itemNesting_le fun v hv => ?_)
        obtain ⟨t, ht⟩ := hitems.exists_of_mem hv
        exact ih ht
      | object hmembers hmerges =>
        rw [Value.nesting, Value.fieldNesting_eq]
        refine Nat.succ_le_succ (Value.itemNesting_le fun v hv => ?_)
        obtain ⟨field, hfield, rfl⟩ := List.mem_map.mp hv
        obtain ⟨t, ht⟩ := hmembers.exists_of_mem (hmerges.mem hfield)
        obtain ⟨_, _, _, hvalue⟩ := ht
        exact ih hvalue

theorem nesting_le_of_documentText {tolerant : Bool} {depth : ℕ} {s : List Char} {v : Value}
    (h : DocumentText tolerant depth s v) : v.nesting ≤ depth := by
  obtain ⟨_, hvalue, _⟩ := h
  exact nesting_le_of_valueText hvalue

/-- The bracket that is refused is one too many among those open in front of it. -/
theorem not_nestsWithin_of_tooDeep {options : ReadOptions} {limit : ℕ} {before rest : List Char}
    (h : (ReadCause.tooDeep limit).Fits options options.maxDepth.toNat before rest) :
    ¬ NestsWithin options.maxDepth.toNat (before ++ rest) := by
  obtain ⟨_, ⟨bracket, hhead, hbracket⟩, hbefore⟩ := h
  intro hwithin
  obtain ⟨after, rfl⟩ : ∃ after, rest = bracket :: after :=
    List.head?_eq_some_iff.mp hhead
  have hprefix : before ++ [bracket] <+: before ++ bracket :: after := ⟨after, by simp⟩
  have hopen : openBrackets (before ++ [bracket]) = options.maxDepth.toNat + 1 := by
    unfold openBrackets
    rw [standing_append hbefore]
    rcases hbracket with rfl | rfl <;> rfl
  have hle := hwithin _ hprefix
  omega

/-- A smaller limit leaves the outcome as it is, or it refuses a bracket of the text and the larger
limit refuses nothing in front of that bracket. -/
theorem readText_cut_of_le (tolerant : Bool) {depth deeper : UInt64} (h : depth ≤ deeper)
    (text : List Char) :
    readText ⟨tolerant, depth⟩ text = readText ⟨tolerant, deeper⟩ text ∨
      ∃ rest limit, readText ⟨tolerant, depth⟩ text = .error ⟨.tooDeep limit, rest⟩ ∧
        ∀ other, readText ⟨tolerant, deeper⟩ text = .error other → other.rest <:+ rest := by
  have hcommas : CommasCut (fun cause => ∃ limit, cause = .tooDeep limit) ⟨tolerant, depth⟩
      ⟨tolerant, deeper⟩ := .inl rfl
  have hdepth : DepthCut (fun cause => ∃ limit, cause = .tooDeep limit) ⟨tolerant, depth⟩
      ⟨tolerant, deeper⟩ depth.toNat deeper.toNat :=
    .inr ⟨UInt64.le_iff_toNat_le.mp h, depth.toNat, rfl⟩
  rcases cut_readText hcommas hdepth text with heq | ⟨⟨cause, rest⟩, hread, ⟨limit, rfl⟩, hleft⟩
  · exact .inl heq
  · exact .inr ⟨rest, limit, hread, hleft⟩

/-- Of the documents that are read under a larger limit, the smaller one takes those whose brackets
nest within it, and no others. -/
theorem readDocument_eq_ok_iff_of_le (text : String) (tolerant : Bool) {depth deeper : UInt64}
    (h : depth ≤ deeper) (v : Value) :
    readDocument ⟨tolerant, depth⟩ text = .ok v ↔
      readDocument ⟨tolerant, deeper⟩ text = .ok v ∧ NestsWithin depth.toNat text.toList := by
  rw [readDocument_eq_ok_iff_readText, readDocument_eq_ok_iff_readText]
  rcases readText_cut_of_le tolerant h text.toList with heq | ⟨rest, limit, hread, _⟩
  · rw [← heq]
    refine ⟨fun hok => ⟨hok, ?_⟩, And.left⟩
    have hdocument := readText_eq_ok_iff.mp hok
    exact (contained_documentText hdocument).nests
  · obtain ⟨before, htext, hfits⟩ := fits_of_readText hread
    constructor
    · intro hok
      rw [hread] at hok
      cases hok
    · rintro ⟨_, hwithin⟩
      rw [htext] at hwithin
      exact absurd hwithin (not_nestsWithin_of_tooDeep hfits)

/-- A larger depth limit changes nothing but the results of texts that nest too deep for the smaller
one, and those it does not refuse any earlier. -/
theorem readDocument_maxDepth (text : String) (tolerant : Bool) {depth deeper : UInt64}
    (h : depth ≤ deeper) :
    ((∀ p limit, readDocument ⟨tolerant, depth⟩ text ≠ .error ⟨p, .tooDeep limit⟩) →
        readDocument ⟨tolerant, deeper⟩ text = readDocument ⟨tolerant, depth⟩ text) ∧
      (∀ p limit, readDocument ⟨tolerant, depth⟩ text = .error ⟨p, .tooDeep limit⟩ →
        limit = depth.toNat ∧
          (∀ e, readDocument ⟨tolerant, deeper⟩ text = .error e → p ≤ e.position) ∧
            ∀ v, readDocument ⟨tolerant, deeper⟩ text = .ok v →
              ¬ NestsWithin depth.toNat text.toList) ∧
        ∀ v, readDocument ⟨tolerant, depth⟩ text = .ok v → v.nesting ≤ depth.toNat := by
  have hcut := readText_cut_of_le tolerant h text.toList
  refine ⟨fun hnever => ?_, fun p limit hdeep => ?_, fun v hv => ?_⟩
  · rcases hcut with heq | ⟨rest, limit, hread, _⟩
    · unfold readDocument
      rw [heq]
    · obtain ⟨p, hp⟩ := exists_readDocument_eq_error hread
      exact absurd hp (hnever p limit)
  · obtain ⟨before, rest, htext, hbefore, hread, hfits⟩ := fits_of_readDocument hdeep
    refine ⟨hfits.1, fun e he => ?_, fun _ _ => ?_⟩
    · obtain ⟨front, behind, hfront, hposition, hother⟩ := readDocument_eq_error_iff.mp he
      have hsuffix : behind <:+ rest := by
        rcases hcut with heq | ⟨_, _, hcutting, hleft⟩
        · rw [← heq, hread] at hother
          obtain ⟨_, rfl⟩ := ReadFailure.mk.inj (Except.error.inj hother)
          exact List.suffix_refl rest
        · rw [hread] at hcutting
          cases hcutting
          exact hleft _ hother
      -- The error that leaves less of the text stands further on.
      have hlength := congrArg List.length (htext.symm.trans hfront)
      have hle := hsuffix.length_le
      rw [List.length_append, List.length_append] at hlength
      dsimp only at hbefore
      omega
    · rw [htext]
      exact not_nestsWithin_of_tooDeep hfits
  · have hdocument := (readDocument_eq_ok_iff_readText.trans readText_eq_ok_iff).mp hv
    exact nesting_le_of_documentText hdocument

/-- A second bracket is too deep for a limit of one, and fine for a limit of two. -/
theorem readDocument_maxDepth_brackets :
    (1 : UInt64) ≤ 2 ∧ readDocument ⟨false, 1⟩ "[[]]" = .error ⟨1, .tooDeep 1⟩ ∧
      readDocument ⟨false, 2⟩ "[[]]" = .ok (.array [.array []]) ∧
        ¬ NestsWithin 1 "[[]]".toList := by
  have hlimits : (1 : UInt64) ≤ 2 := by decide
  have hdeep : readDocument ⟨false, 1⟩ "[[]]" = .error ⟨1, .tooDeep 1⟩ := by rfl
  have hfine : readDocument ⟨false, 2⟩ "[[]]" = .ok (.array [.array []]) := by rfl
  have hcut := (readDocument_maxDepth "[[]]" false hlimits).2.1 1 1 hdeep
  exact ⟨hlimits, hdeep, hfine, hcut.2.2 _ hfine⟩

end ContractDraft
