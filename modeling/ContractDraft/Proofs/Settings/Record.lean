import ContractDraft.Proofs.Settings.Entry
import ContractDraft.Proofs.Settings.Token
import ContractDraft.Settings.Record

/-!
# Records are read back

A value that is read replaces a part of a record, so what a table does to a record is the composition
of what its members do, in the order of the text (`read_table_append`). A record type restores its
records if every text of a record it has written is read as that record, whatever record it is read
on top of. For that its names must be distinct, its members must restore what they have written, and
together they must leave nothing of the other record (`RecordSchema.Restores.of_members`).
-/

namespace ContractDraft

variable {σ : Type}

/-- The reader takes the text, behind any blanks, and makes `update` of the record. -/
def Takes (read : σ → List Char → Except SettingsFault (σ × List Char)) (t : List Char)
    (update : σ → σ) : Prop :=
  ∀ (before rest : List Char) (r : σ), Blanks before → Ends isNumberChar rest →
    read r (before ++ (t ++ rest)) = .ok (update r, rest)

/-! ## Rows of members -/

section rows

variable {α β : Type} {Text : List Char → α → Prop} {Other : List Char → β → Prop}

/-- Members may be read another way if that goes for each of them. -/
theorem MembersText.imp {s : List Char} {as : List α} {bs : List β} (h : MembersText Text s as)
    (hab : List.Forall₂ (fun a b => ∀ t, Text t a → Other t b) as bs) :
    MembersText Other s bs := by
  induction h generalizing bs with
  | last hbefore ha hafter =>
    cases hab with
    | cons hfirst hrest =>
      cases hrest
      exact .last hbefore (hfirst _ ha) hafter
  | cons hbefore ha hafter _ ih =>
    cases hab with
    | cons hfirst hrest => exact .cons hbefore (hfirst _ ha) hafter (ih hrest)

/-- Members may be read in another way if each of them may. -/
theorem EnclosedText.imp {tolerant : Bool} {s : List Char} {as : List α} {bs : List β}
    (h : EnclosedText Text tolerant s as)
    (hab : List.Forall₂ (fun a b => ∀ t, Text t a → Other t b) as bs) :
    EnclosedText Other tolerant s bs := by
  cases h with
  | empty hs =>
    cases hab
    exact .empty hs
  | members hs => exact .members (hs.imp hab)
  | trailing ht hs hafter => exact .trailing ht (hs.imp hab) hafter

/-- A row of members is blanks and a row that begins with its first member. -/
theorem MembersText.exists_blanks {s : List Char} {as : List α} (h : MembersText Text s as) :
    ∃ before t, s = before ++ t ∧ Blanks before ∧ MembersText Text t as ∧
      ∃ u tail a, t = u ++ tail ∧ Text u a := by
  cases h with
  | @last before u after a hbefore ha hafter =>
    refine ⟨before, u ++ after, List.append_assoc .., hbefore, ?_, u, after, a, rfl, ha⟩
    exact .last blanks_nil ha hafter
  | @cons before u after rest a as hbefore ha hafter hrest =>
    refine ⟨before, u ++ (after ++ ',' :: rest), by simp only [List.append_assoc], hbefore, ?_, u, _,
      a, rfl, ha⟩
    simpa using MembersText.cons blanks_nil ha hafter hrest

/-- A row has at most as many members as characters. -/
theorem MembersText.length_le {s : List Char} {as : List α} (h : MembersText Text s as)
    (hne : ∀ t a, Text t a → t ≠ []) : as.length ≤ s.length := by
  induction h with
  | last _ ha _ =>
    have := List.length_pos_iff.mpr (hne _ _ ha)
    simp only [List.length_append, List.length_singleton]
    omega
  | cons _ _ _ _ ih =>
    simp only [List.length_append, List.length_cons]
    omega

/-- A member begins with the quote of its key. -/
theorem KeyedText.exists_cons {α : Type} {Text : String → List Char → α → Prop} {t : List Char}
    {a : String × α} (h : KeyedText Text t a) : ∃ u, t = '"' :: u := by
  obtain ⟨hkey, _, _, _⟩ := h
  obtain ⟨u, rfl⟩ := hkey.exists_cons
  exact ⟨_, rfl⟩

end rows

/-! ## Tables -/

namespace RecordSchema

variable {schema : RecordSchema σ}

/-- The record type has a member of this name. -/
def knows (schema : RecordSchema σ) (key : String) : Bool :=
  schema.any fun member => member.name = key

/-- A key and a value, and what they do to a record. -/
abbrev UpdateText (schema : RecordSchema σ) : List Char → String × (σ → σ) → Prop :=
  KeyedText fun key => Takes fun r s => schema.readMember key r (':' :: s)

/-- A table is complete if every required member was given. -/
theorem complete_eq_true_iff {given : List String} :
    schema.complete given = true ↔
      ∀ member ∈ schema, member.required = true → member.name ∈ given := by
  rw [complete, List.all_eq_true]
  refine forall₂_congr fun member _ => ?_
  rw [Bool.or_eq_true, Bool.not_eq_true', List.contains_iff_mem]
  cases member.required <;> simp

/-- The updates of a record, one after the other. -/
def applyAll (updates : List (String × (σ → σ))) (r : σ) : σ :=
  updates.foldl (fun r update => update.2 r) r

/-- Blanks before the colon are passed over. -/
theorem readMember_blanks {gap : List Char} (hgap : Blanks gap) (key : String) (r : σ)
    (s : List Char) :
    schema.readMember key r (gap ++ ':' :: s) = schema.readMember key r (':' :: s) := by
  unfold readMember
  rw [skipBlanks_append hgap (ends_cons (by decide) _)]
  rfl

/-- One round of the loop: a key and its value are taken, then the comma or the brace behind them. -/
theorem readMembers_succ {fuel : ℕ} {given : List String} {before s after rest : List Char}
    {key : String} {update : σ → σ} {c : Char} (r : σ) (hbefore : Blanks before)
    (hs : schema.UpdateText s (key, update)) (hafter : Blanks after)
    (hfresh : schema.knows key = true → key ∉ given) (hc : c = ',' ∨ c = '}') :
    schema.readMembers (fuel + 1) given r (before ++ (s ++ (after ++ c :: rest))) =
      if c = ',' then schema.readMembers fuel (key :: given) (update r) rest
      else if schema.complete (key :: given) then .ok (update r, rest) else .error .mismatched := by
  obtain @⟨k, gap, behind, t, _, _, hkey, hgap, hbehind, htakes⟩ := hs
  obtain ⟨u, rfl⟩ := hkey.exists_cons
  have hblank : isBlank c = false := by rcases hc with rfl | rfl <;> decide
  have hnumber : isNumberChar c = false := by rcases hc with rfl | rfl <;> decide
  have hvalue : schema.readMember key r (':' :: (behind ++ (t ++ (after ++ c :: rest)))) =
      .ok (update r, after ++ c :: rest) :=
    htakes behind (after ++ c :: rest) r hbehind (hafter.ends_append (ends_cons hnumber _))
  have hbehind : skipBlanks (after ++ c :: rest) = c :: rest :=
    skipBlanks_append hafter (ends_cons hblank _)
  have hrepeated : ¬ (given.contains key = true ∧ schema.knows key = true) := by
    simpa [imp_not_comm] using hfresh
  simp only [List.append_assoc, List.cons_append]
  rw [readMembers, skipBlanks_append hbefore (ends_cons (by decide) _)]
  simp only [Settings.takeString_append hkey, bind, Except.bind]
  refine (if_neg hrepeated).trans ?_
  rw [readMember_blanks hgap, hvalue]
  rcases hc with rfl | rfl
  · simp only [hbehind, if_true]
  · simp only [hbehind]
    rfl

/-- The loop takes a row of members up to the closing brace. -/
theorem readMembers_append {s rest : List Char} {updates : List (String × (σ → σ))}
    (h : MembersText schema.UpdateText s updates) {fuel : ℕ} (hfuel : updates.length ≤ fuel)
    {given : List String} (r : σ)
    (hfresh : ∀ key ∈ given, schema.knows key = true → key ∉ updates.map (·.1))
    (hnodup : ((updates.map (·.1)).filter schema.knows).Nodup)
    (hcomplete : ∀ member ∈ schema, member.required = true →
      member.name ∈ given ∨ member.name ∈ updates.map (·.1)) :
    schema.readMembers fuel given r (s ++ '}' :: rest) = .ok (applyAll updates r, rest) := by
  induction h generalizing fuel given r with
  | @last before s after update hbefore hs hafter =>
    obtain ⟨key, update⟩ := update
    obtain ⟨fuel, rfl⟩ := Nat.exists_eq_add_one_of_ne_zero (Nat.ne_zero_of_lt hfuel)
    have hcomplete : schema.complete (key :: given) = true :=
      complete_eq_true_iff.mpr fun member hmember hrequired =>
        List.mem_cons.mpr ((hcomplete member hmember hrequired).symm.imp_left List.mem_singleton.mp)
    have hnew : schema.knows key = true → key ∉ given := fun hknown hgiven =>
      hfresh key hgiven hknown (List.mem_singleton_self key)
    simp only [List.append_assoc]
    rw [readMembers_succ r hbefore hs hafter hnew (.inr rfl), if_neg (by decide), if_pos hcomplete]
    rfl
  | @cons before s after row update updates hbefore hs hafter hrow ih =>
    obtain ⟨key, update⟩ := update
    obtain ⟨fuel, rfl⟩ := Nat.exists_eq_add_one_of_ne_zero (Nat.ne_zero_of_lt hfuel)
    have hnew : schema.knows key = true → key ∉ given := fun hknown hgiven =>
      hfresh key hgiven hknown (List.mem_cons_self ..)
    have hlast : schema.knows key = true → key ∉ updates.map (·.1) := fun hknown hmem => by
      rw [List.map_cons, List.filter_cons_of_pos hknown] at hnodup
      exact (List.nodup_cons.mp hnodup).1 (List.mem_filter.mpr ⟨hmem, hknown⟩)
    simp only [List.append_assoc, List.cons_append]
    rw [readMembers_succ r hbefore hs hafter hnew (.inl rfl), if_pos rfl]
    -- The key counts as given from here on: it is none of the others, and it is required no more.
    refine ih (Nat.le_of_succ_le_succ hfuel) (update r) ?_ ?_ ?_
    · intro k hk hknown
      rcases List.mem_cons.mp hk with rfl | hk
      · exact hlast hknown
      · exact fun hmem => hfresh k hk hknown (List.mem_cons_of_mem _ hmem)
    · exact hnodup.sublist ((List.sublist_cons_self _ _).filter _)
    · intro member hmember hrequired
      have := hcomplete member hmember hrequired
      simp only [List.map_cons, List.mem_cons] at this ⊢
      tauto

/-- A table is taken up to its closing brace, in whatever order its members come. Members that are
known stand there once, and all that are required stand there. -/
theorem read_table_append {before s rest : List Char} {updates : List (String × (σ → σ))}
    (hbefore : Blanks before) (h : EnclosedText schema.UpdateText false s updates)
    (hnodup : ((updates.map (·.1)).filter schema.knows).Nodup)
    (hcomplete : ∀ member ∈ schema, member.required = true →
      member.name ∈ updates.map (·.1)) (initial : σ) :
    schema.read initial (before ++ ('{' :: s ++ ['}'] ++ rest)) =
      .ok (applyAll updates initial, rest) := by
  simp only [List.append_assoc, List.cons_append, List.nil_append]
  rw [read, skipBlanks_append hbefore (ends_cons (by decide) _)]
  cases h with
  | empty hs =>
    have hnone : schema.complete [] = true := complete_eq_true_iff.mpr hcomplete
    have hskip : skipBlanks (s ++ '}' :: rest) = '}' :: rest :=
      skipBlanks_append hs (ends_cons (by decide) _)
    simp only [hskip]
    exact if_pos hnone
  | members hs =>
    -- Blanks are passed over before the brace is looked for, so the row is cut at its first key.
    obtain ⟨blanks, t, rfl, hblanks, ht, u, tail, update, hfirst, hu⟩ := hs.exists_blanks
    obtain ⟨v, rfl⟩ : ∃ v, t = '"' :: v := by
      obtain ⟨w, rfl⟩ := hu.exists_cons
      exact ⟨_, hfirst⟩
    have hlength : updates.length ≤ ('"' :: v ++ '}' :: rest).length + 1 := by
      have hle := ht.length_le fun s a hs => by
        obtain ⟨w, rfl⟩ := hs.exists_cons
        exact List.cons_ne_nil _ _
      simp only [List.length_append] at hle ⊢
      omega
    have hmembers : schema.readMembers _ [] initial ('"' :: v ++ '}' :: rest) = _ :=
      readMembers_append ht hlength initial (by simp) hnodup
        fun member hmember hrequired => .inr (hcomplete member hmember hrequired)
    simp only [List.append_assoc, List.cons_append] at hmembers ⊢
    simp only [skipBlanks_append hblanks (ends_cons (show isBlank '"' = false by decide) _)]
    exact hmembers
  | trailing ht _ _ => cases ht

/-- With distinct names a member is found by its own. -/
theorem find?_name (hnames : (schema.map (·.name)).Nodup) {member : Member σ}
    (hmember : member ∈ schema) :
    schema.find? (fun m => m.name = member.name) = some member := by
  induction schema with
  | nil => cases hmember
  | cons first rest ih =>
    rw [List.map_cons, List.nodup_cons] at hnames
    rcases List.mem_cons.mp hmember with rfl | hrest
    · simp
    · have hne : first.name ≠ member.name := fun heq =>
        hnames.1 (List.mem_map.mpr ⟨member, hrest, heq.symm⟩)
      rw [List.find?_cons_of_neg (by simpa using hne)]
      exact ih hnames.2 hrest

/-- The member of a key is found if no other member has its name. -/
theorem takes_readMember (hnames : (schema.map (·.name)).Nodup) {member : Member σ}
    (hmember : member ∈ schema) {t : List Char} {update : σ → σ} (h : Takes member.read t update) :
    Takes (fun r s => schema.readMember member.name r (':' :: s)) t update := by
  intro before rest r hbefore hrest
  have hread := h before rest r hbefore hrest
  rw [← hread]
  show (readMember schema _ _ _) = _
  unfold readMember
  have : skipBlanks (':' :: (before ++ (t ++ rest))) = ':' :: (before ++ (t ++ rest)) := rfl
  simp only [this, find?_name hnames hmember]

end RecordSchema

/-! ## Members -/

namespace Member

/-- Every text of what the member writes of `source` is read as the update `copy source`. -/
def Copies (member : Member σ) (copy : σ → σ → σ) : Prop :=
  ∀ (source : σ) (t : List Char), EntryText t (member.write source) →
    Takes member.read t (copy source)

/-- What reading the member of `source` makes of `target`. -/
def copy (member : Member σ) (source target : σ) : σ :=
  match member.read target (member.write source).compact.toList with
  | .ok (r, _) => r
  | .error _ => target

/-- Every text of what the member writes of a record is read in the same way. -/
def Restores (member : Member σ) : Prop :=
  member.Copies member.copy

/-- A member that copies is read back as it was written. -/
theorem Copies.spec {member : Member σ} {f : σ → σ → σ} (h : member.Copies f) :
    member.Restores ∧ member.copy = f := by
  have hcopy : member.copy = f := by
    funext source target
    have hread := h source _ (Entry.entryText_compact _) [] [] target blanks_nil (ends_nil _)
    rw [List.nil_append, List.append_nil] at hread
    rw [copy, hread]
  rw [Restores, hcopy]
  exact ⟨h, rfl⟩

section kinds

variable {name : String}

@[simp]
theorem text_form (get : σ → String) (set : σ → String → σ) :
    (text name get set).name = name ∧ ∀ r, (text name get set).write r = .text (get r) :=
  ⟨rfl, fun _ => rfl⟩

@[simp]
theorem optionalText_form (get : σ → Option String) (set : σ → Option String → σ) :
    (optionalText name get set).name = name ∧
      ∀ r, (optionalText name get set).write r = (get r).elim .null .text := by
  refine ⟨rfl, fun r => ?_⟩
  unfold optionalText
  dsimp only
  cases get r <;> rfl

@[simp]
theorem flag_form (get : σ → Bool) (set : σ → Bool → σ) :
    (flag name get set).name = name ∧ ∀ r, (flag name get set).write r = .flag (get r) :=
  ⟨rfl, fun _ => rfl⟩

@[simp]
theorem count_form (get : σ → UInt64) (set : σ → UInt64 → σ) :
    (count name get set).name = name ∧ ∀ r, (count name get set).write r = .count (get r) :=
  ⟨rfl, fun _ => rfl⟩

@[simp]
theorem record_form {τ : Type} (schema : RecordSchema τ) (initial : τ) (get : σ → τ)
    (set : σ → τ → σ) : (record name schema initial get set).name = name ∧
      ∀ r, (record name schema initial get set).write r = schema.write (get r) :=
  ⟨rfl, fun _ => rfl⟩

/-- A text is read back, and copying it sets it. -/
@[simp]
theorem text_spec (get : σ → String) (set : σ → String → σ) :
    (text name get set).Restores ∧
      (text name get set).copy = fun source target => set target (get source) := by
  refine Copies.spec fun source t ht before rest r hbefore _ => ?_
  cases ht with
  | text ht => exact bind_eq_ok_iff.mpr ⟨_, Settings.readText_append hbefore ht rest, rfl⟩

/-- A text that may be missing is read back, and copying it sets it. -/
@[simp]
theorem optionalText_spec (get : σ → Option String) (set : σ → Option String → σ) :
    (optionalText name get set).Restores ∧
      (optionalText name get set).copy = fun source target => set target (get source) := by
  refine Copies.spec fun source t ht before rest r hbefore _ => ?_
  have hread : Settings.readOptionalText (before ++ (t ++ rest)) = .ok (get source, rest) := by
    unfold optionalText at ht
    dsimp only at ht
    cases hget : get source with
    | none =>
      rw [hget] at ht
      cases ht with
      | null => exact Settings.readOptionalText_null hbefore rest
    | some v =>
      rw [hget] at ht
      cases ht with
      | text ht => exact Settings.readOptionalText_text hbefore ht rest
  exact bind_eq_ok_iff.mpr ⟨_, hread, rfl⟩

/-- A flag is read back, and copying it sets it. -/
@[simp]
theorem flag_spec (get : σ → Bool) (set : σ → Bool → σ) :
    (flag name get set).Restores ∧
      (flag name get set).copy = fun source target => set target (get source) := by
  refine Copies.spec fun source t ht before rest r hbefore _ => ?_
  have hread : Settings.readFlag (before ++ (t ++ rest)) = .ok (get source, rest) := by
    unfold flag at ht
    dsimp only at ht
    generalize get source = b at ht ⊢
    cases ht with
    | true => exact Settings.readFlag_true hbefore rest
    | false => exact Settings.readFlag_false hbefore rest
  exact bind_eq_ok_iff.mpr ⟨_, hread, rfl⟩

/-- A count is read back, and copying it sets it. -/
@[simp]
theorem count_spec (get : σ → UInt64) (set : σ → UInt64 → σ) :
    (count name get set).Restores ∧
      (count name get set).copy = fun source target => set target (get source) := by
  refine Copies.spec fun source t ht before rest r hbefore hrest => ?_
  have hread : Settings.readCount (before ++ (t ++ rest)) = .ok (get source, rest) := by
    cases ht with
    | count hwhole hvalue =>
      have hlt : Numeral.digitsValue t < UInt64.size := hvalue ▸ (get source).toNat_lt
      rw [Settings.readCount_append hbefore hwhole hlt hrest, hvalue, UInt64.ofNat_toNat]
  exact bind_eq_ok_iff.mpr ⟨_, hread, rfl⟩

end kinds

/-- A member is read and written alike whether a text must give it or not. -/
@[simp]
theorem required_spec (member : Member σ) (name : String) (required : Bool) :
    ((Member.mk name member.write member.read required).Restores ↔ member.Restores) ∧
      (Member.mk name member.write member.read required).copy = member.copy :=
  ⟨Iff.rfl, rfl⟩

end Member

/-! ## Records -/

namespace RecordSchema

variable {schema : RecordSchema σ}

/-- Every text of a written record is read as that record, on top of any other. -/
def Restores (schema : RecordSchema σ) : Prop :=
  ∀ (source initial : σ) (before t rest : List Char), EntryText t (schema.write source) →
    Blanks before → Ends isNumberChar rest →
    schema.read initial (before ++ (t ++ rest)) = .ok (source, rest)

/-- A record is read back if its members are and make up the whole of it. -/
theorem Restores.of_members (hnames : (schema.map (·.name)).Nodup)
    (hmembers : ∀ member ∈ schema, member.Restores)
    (hcopy : ∀ source initial, schema.foldl (fun r member => member.copy source r) initial = source) :
    schema.Restores := by
  intro source initial before t rest ht hbefore _
  let updates := schema.map fun member => (member.name, member.copy source)
  have hkeys : updates.map (·.1) = schema.map (·.name) := by
    simp [updates, List.map_map, Function.comp_def]
  obtain ⟨s, rfl, hs⟩ : ∃ s, t = '{' :: s ++ ['}'] ∧
      EnclosedText schema.UpdateText false s updates := by
    cases ht with
    | @table s members hs =>
      refine ⟨s, rfl, hs.imp ?_⟩
      simp only [updates, List.forall₂_map_left_iff, List.forall₂_map_right_iff, List.forall₂_same]
      intro member hmember t ht
      cases ht with
      | keyed hkey hgap hbehind htext =>
        have htakes := hmembers member hmember source _ htext
        exact .keyed hkey hgap hbehind (takes_readMember hnames hmember htakes)
  have happly : applyAll updates initial = source := by
    rw [applyAll, List.foldl_map]
    exact hcopy source initial
  rw [read_table_append hbefore hs ?_ ?_ initial, happly]
  · rw [hkeys]
    exact hnames.filter _
  · intro member hmember _
    rw [hkeys]
    exact List.mem_map.mpr ⟨member, hmember, rfl⟩

/-- What a record type has written, in either layout, is read back. -/
theorem Restores.load_write (h : schema.Restores) (source initial : σ) :
    schema.load initial (schema.write source).compact = .ok source ∧
      schema.load initial (schema.write source).pretty = .ok source := by
  have hload {text : String} (htext : EntryText text.toList (schema.write source)) :
      schema.load initial text = .ok source := by
    have hread := h source initial [] text.toList [] htext blanks_nil (ends_nil _)
    rw [List.nil_append, List.append_nil] at hread
    exact bind_eq_ok_iff.mpr ⟨_, hread, rfl⟩
  exact ⟨hload (Entry.entryText_compact _), hload (Entry.entryText_pretty _)⟩

end RecordSchema

/-- A member that is a record of its own is replaced as a whole. -/
theorem Member.record_spec {τ : Type} {name : String} {schema : RecordSchema τ}
    (h : schema.Restores) (initial : τ) (get : σ → τ) (set : σ → τ → σ) :
    (Member.record name schema initial get set).Restores ∧
      (Member.record name schema initial get set).copy =
        fun source target => set target (get source) := by
  refine Copies.spec fun source t ht before rest r hbefore hrest => ?_
  exact bind_eq_ok_iff.mpr ⟨_, h (get source) initial before t rest ht hbefore hrest, rfl⟩

end ContractDraft
