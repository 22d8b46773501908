import ContractDraft.Proofs.Shape.Standard
import ContractDraft.Proofs.Shape.StringForm

/-!
# Shapes of strings

What the standard policy says of a string, in plain terms (`Policy.classify_standard_string`). The
forms of identifiers, dates and points in time exclude each other and the forms in front of them, so
a string with one of these forms has the shape of this form whatever the order of the rules.
-/

namespace ContractDraft

open Text StringForm

/-! ## Forms that exclude each other -/

section

variable {s : List Char}

/-- A text counts as an address if it has an at sign. -/
theorem isEmail_iff : isEmail s = true ↔ '@' ∈ s := List.contains_iff_mem

/-- No enumeration token has a hyphen. -/
theorem not_isEnumToken_of_hyphen (h : '-' ∈ s) : ¬ isEnumToken s = true := by
  rw [isEnumToken_iff]
  rintro ⟨-, hall⟩
  exact absurd (hall '-' h) (by decide)

/-- Grouped text is no enumeration token. -/
theorem not_isEnumToken_of_grouped {kind : Char → Prop} {m n : ℕ} {ns : List ℕ}
    (h : Grouped kind '-' (m :: n :: ns) s) : ¬ isEnumToken s = true :=
  not_isEnumToken_of_hyphen (List.mem_of_getElem? h.getElem?_separator)

/-- Grouped text is no address. -/
theorem not_isEmail_of_grouped {kind : Char → Prop} {ns : List ℕ} (h : Grouped kind '-' ns s)
    (hkind : ¬ kind '@') : ¬ isEmail s = true := by
  rw [isEmail_iff]
  exact h.not_mem hkind (by decide)

theorem not_isEmail_of_pointInTime (h : PointInTime (isDecimalDigit · = true) s) :
    ¬ isEmail s = true := by
  rw [isEmail_iff]
  intro hmem
  rcases h.forall_mem '@' hmem with hmem | hmem | hmem
  · exact absurd hmem (by decide)
  · exact absurd hmem (by decide +kernel)
  · exact absurd hmem (by decide)

/-- The first hyphen comes after four digits in the one form, after eight in the other. -/
theorem not_isUuid_of_pointInTime (h : PointInTime (isDecimalDigit · = true) s) :
    ¬ isUuid s = true := by
  rw [isUuid_iff]
  intro hgroups
  obtain ⟨c, hc, hdigit⟩ := hgroups.getElem?_lt (i := 4) (by decide)
  rw [h.getElem?_hyphen] at hc
  obtain rfl := Option.some.inj hc
  exact absurd (isHexDigit_iff.mp hdigit) (by decide)

/-- The groups of a date are not those of an identifier. -/
theorem not_isUuid_of_grouped {kind : Char → Prop} (h : Grouped kind '-' [4, 2, 2] s) :
    ¬ isUuid s = true := by
  rw [isUuid_iff]
  intro hgroups
  have hdate : s.length = 10 := h.length_eq
  have huuid : s.length = 36 := hgroups.length_eq
  omega

/-- A date alone is no point in time. -/
theorem not_isDateTime_of_grouped {kind : Char → Prop} (h : Grouped kind '-' [4, 2, 2] s) :
    ¬ isDateTime s = true := by
  rw [isDateTime_iff]
  intro htime
  have hdate : s.length = 10 := h.length_eq
  have hle := htime.length_le
  omega

end

/-! ## Shapes and forms -/

namespace Shape

variable {s : String}

/-- Enumeration tokens come before everything else. -/
theorem ofString_eq_enumString_iff : ofString s = .enumString ↔ EnumToken s.toList := by
  rw [← isEnumToken_iff, ofString]
  split_ifs <;> simp_all

/-- Any other text with an at sign is an address. -/
theorem ofString_eq_emailString_iff :
    ofString s = .emailString ↔ ¬ EnumToken s.toList ∧ '@' ∈ s.toList := by
  rw [← isEnumToken_iff, ← isEmail_iff, ofString]
  split_ifs <;> simp_all

/-- Identifiers are five groups of hexadecimal digits; no other form takes them away. -/
theorem ofString_eq_uuid_iff :
    ofString s = .uuid ↔ Grouped IsHexDigit '-' [8, 4, 4, 4, 12] s.toList := by
  constructor
  · rw [← isUuid_iff, ofString]
    split_ifs <;> simp_all
  · intro h
    have hat : ¬ IsHexDigit '@' := by
      rw [isHexDigit_iff]
      decide
    rw [ofString, if_neg (not_isEnumToken_of_grouped h), if_neg (not_isEmail_of_grouped h hat),
      if_pos (isUuid_iff.mpr h)]

/-- Points in time may have decimal digits of any script where the pattern has them. -/
theorem ofString_eq_dateTime_iff :
    ofString s = .dateTime ↔ PointInTime (isDecimalDigit · = true) s.toList := by
  constructor
  · rw [← isDateTime_iff, ofString]
    split_ifs <;> simp_all
  · intro h
    rw [ofString, if_neg (not_isEnumToken_of_hyphen (List.mem_of_getElem? h.getElem?_hyphen)),
      if_neg (not_isEmail_of_pointInTime h), if_neg (not_isUuid_of_pointInTime h),
      if_pos (isDateTime_iff.mpr h)]

/-- Dates are three groups of ASCII digits. -/
theorem ofString_eq_date_iff :
    ofString s = .date ↔ Grouped (·.isDigit = true) '-' [4, 2, 2] s.toList := by
  constructor
  · rw [← isDate_iff, ofString]
    split_ifs <;> simp_all
  · intro h
    rw [ofString, if_neg (not_isEnumToken_of_grouped h),
      if_neg (not_isEmail_of_grouped h (by decide)), if_neg (not_isUuid_of_grouped h),
      if_neg (not_isDateTime_of_grouped h), if_pos (isDate_iff.mpr h)]

end Shape

/-- The shape of a string by its form, in plain terms. -/
structure ShapeOfForm (s : List Char) (shape : Shape) : Prop where
  enumString : shape = .enumString ↔ EnumToken s
  emailString : shape = .emailString ↔ ¬ EnumToken s ∧ '@' ∈ s
  uuid : shape = .uuid ↔ s.length = 36 ∧ Ascii s ∧ Grouped IsHexDigit '-' [8, 4, 4, 4, 12] s
  date : shape = .date ↔ Grouped (·.isDigit = true) '-' [4, 2, 2] s
  other : shape ∉ [.enumString, .emailString, .uuid, .date] →
    shape = .dateTime ∨ shape = .freeString

/-- The shape of a string goes by its form. -/
theorem shapeOfForm_ofString (s : String) : ShapeOfForm s.toList (.ofString s) where
  enumString := Shape.ofString_eq_enumString_iff
  emailString := Shape.ofString_eq_emailString_iff
  uuid := by
    rw [Shape.ofString_eq_uuid_iff]
    constructor
    · intro h
      exact ⟨h.length_eq, h.ascii (fun _ => lt_of_isHexDigit) (by decide), h⟩
    · exact fun h => h.2.2
  date := Shape.ofString_eq_date_iff
  other := by
    unfold Shape.ofString
    split_ifs <;> simp

namespace Policy

/-- The standard policy gives every string the shape of its form, whatever its key. -/
theorem classify_standard (s : String) (key : Option String) :
    standard.classify ⟨.string s, key⟩ = .ok (.ofString s) := by
  rw [classify, shape?_standard_string]

/-- Every string has the shape of its form, whatever key holds it, and every byte that a guard asks
for is there. -/
theorem classify_standard_string (s : String) (key : Option String) :
    (∃ shape, standard.classify ⟨.string s, key⟩ = .ok shape ∧ ShapeOfForm s.toList shape) ∧
      ∀ guard ∈ [uuidGuard, dateTimeGuard, dateGuard],
        (guard.answer? s.toList).isSome = true := by
  refine ⟨⟨_, classify_standard s key, shapeOfForm_ofString s⟩, ?_⟩
  simp [isSome_answer?_uuidGuard, isSome_answer?_dateTimeGuard, isSome_answer?_dateGuard]

/-- A string is a point in time if its date has ASCII digits and its time of day has digits of any
script. So the digits are all ASCII exactly in ASCII text. -/
theorem classify_standard_eq_dateTime_iff (s : String) (key : Option String) :
    (standard.classify ⟨.string s, key⟩ = .ok .dateTime ↔
      PointInTime (isDecimalDigit · = true) s.toList) ∧
    (standard.classify ⟨.string s, key⟩ = .ok .dateTime ∧ Ascii s.toList ↔
      PointInTime (·.isDigit = true) s.toList) := by
  have hdateTime : standard.classify ⟨.string s, key⟩ = .ok .dateTime ↔
      PointInTime (isDecimalDigit · = true) s.toList := by
    rw [classify_standard, Except.ok.injEq, Shape.ofString_eq_dateTime_iff]
  exact ⟨hdateTime, by rw [hdateTime, pointInTime_isDigit_iff]⟩

/-- An Arabic zero in the hours of a point in time. -/
theorem arabic_digit_in_dateTime :
    ¬ (standard.classify ⟨.string "2021-01-01T1\u0660:20:30Z", none⟩ = .ok .dateTime ↔
      Ascii "2021-01-01T1\u0660:20:30Z".toList ∧
        PointInTime (·.isDigit = true) "2021-01-01T1\u0660:20:30Z".toList) := by
  have hdateTime : Shape.ofString "2021-01-01T1\u0660:20:30Z" = .dateTime := by decide +kernel
  rw [classify_standard, hdateTime]
  intro h
  have hascii := (h.mp rfl).1 '\u0660' (by decide)
  exact absurd hascii (by decide)

end Policy

end ContractDraft
