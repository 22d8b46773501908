import ContractDraft.Proofs.Json.Grammar
import ContractDraft.Proofs.Text.LetterCase
import ContractDraft.Proofs.Text.Pattern
import ContractDraft.Proofs.Text.Utf8
import ContractDraft.Shape.StringForm

/-!
# Which strings have a form

The forms of strings in plain terms, without patterns, bytes and letter case. Dates and identifiers
are groups of characters with a separator between them (`Grouped`). The guards always have an answer
(`ByteGuard.isSome_answer?`). That of dates leaves only ASCII digits; that of points in time does so
for the date alone, and the digits behind the letter `T` may be of any script (`isDateTime_iff`).
-/

namespace ContractDraft.StringForm

open Text Pattern

/-! ## Groups -/

/-- Groups of characters of one kind, of the given lengths and with a separator between them. -/
inductive Grouped (kind : Char → Prop) (separator : Char) : List ℕ → List Char → Prop where
  | single {s : List Char} {n : ℕ} : s.length = n → (∀ c ∈ s, kind c) →
      Grouped kind separator [n] s
  | cons {s t : List Char} {n : ℕ} {ns : List ℕ} : s.length = n → (∀ c ∈ s, kind c) →
      Grouped kind separator ns t → Grouped kind separator (n :: ns) (s ++ separator :: t)

namespace Grouped

variable {kind other : Char → Prop} {separator : Char} {s : List Char} {ns : List ℕ}

/-- Every group takes one character more, but for the last one. -/
theorem length_eq (h : Grouped kind separator ns s) :
    s.length = ns.foldr (fun n total => n + 1 + total) 0 - 1 := by
  suffices hsum : s.length + 1 = ns.foldr (fun n total => n + 1 + total) 0 by omega
  induction h with
  | single hlength _ => simp [hlength]
  | cons hlength _ _ ih =>
    simp only [List.length_append, List.length_cons, List.foldr_cons]
    omega

/-- Grouped text holds nothing but characters of its kind and the separator. -/
theorem forall_mem (h : Grouped kind separator ns s) : ∀ c ∈ s, kind c ∨ c = separator := by
  induction h with
  | single _ hkind => exact fun c hc => .inl (hkind c hc)
  | cons _ hkind _ ih =>
    intro c hc
    rcases List.mem_append.mp hc with hc | hc
    · exact .inl (hkind c hc)
    · rcases List.mem_cons.mp hc with rfl | hc
      · exact .inr rfl
      · exact ih c hc

/-- Every character is in a group, or it is the separator. -/
theorem not_mem (h : Grouped kind separator ns s) {c : Char} (hkind : ¬ kind c)
    (hne : c ≠ separator) : c ∉ s :=
  fun hc => (h.forall_mem c hc).elim hkind hne

/-- Only the characters that occur in a grouped text matter for its kind. -/
theorem imp (h : Grouped kind separator ns s) (hkind : ∀ c ∈ s, kind c → other c) :
    Grouped other separator ns s := by
  induction h with
  | single hlength hall => exact .single hlength fun c hc => hkind c hc (hall c hc)
  | cons hlength hall _ ih =>
    refine .cons hlength (fun c hc => ?_) (ih fun c hc => ?_)
    · exact hkind c (List.mem_append_left _ hc) (hall c hc)
    · exact hkind c (List.mem_append_right _ (List.mem_cons_of_mem _ hc))

/-- Behind the first group is a separator. -/
theorem getElem?_separator {m n : ℕ} (h : Grouped kind separator (m :: n :: ns) s) :
    s[m]? = some separator := by
  cases h with
  | cons hlength _ _ => rw [List.getElem?_append_right (Nat.le_of_eq hlength), hlength]; simp

/-- The first group of a text is found by index. -/
theorem getElem?_lt {m i : ℕ} (h : Grouped kind separator (m :: ns) s) (hi : i < m) :
    ∃ c, s[i]? = some c ∧ kind c := by
  cases h with
  | single hlength hall => exact ⟨s[i], List.getElem?_eq_getElem _, hall _ (List.getElem_mem _)⟩
  | @cons group t _ _ hlength hall _ =>
    have hi : i < group.length := hlength ▸ hi
    exact ⟨group[i], by rw [List.getElem?_append_left hi, List.getElem?_eq_getElem hi],
      hall _ (List.getElem_mem _)⟩

/-- A mapping that makes separators of separators only leaves the groups as they are. -/
theorem map_iff {f : Char → Char} (hseparator : ∀ c, f c = separator ↔ c = separator) :
    Grouped kind separator ns (s.map f) ↔ Grouped (fun c => kind (f c)) separator ns s := by
  constructor
  · generalize hmap : s.map f = image
    intro h
    induction h generalizing s with
    | single hlength hall =>
      subst hmap
      exact .single (by simpa using hlength) fun c hc => hall (f c) (List.mem_map_of_mem hc)
    | cons hlength hall _ ih =>
      obtain ⟨group, rest, rfl, rfl, hrest⟩ := List.map_eq_append_iff.mp hmap
      obtain ⟨d, t, rfl, hd, ht⟩ := List.map_eq_cons_iff.mp hrest
      rw [hseparator] at hd
      subst hd
      exact .cons (by simpa using hlength) (fun c hc => hall (f c) (List.mem_map_of_mem hc)) (ih ht)
  · intro h
    induction h with
    | single hlength hall => exact .single (by simpa using hlength) (List.forall_mem_map.mpr hall)
    | cons hlength hall _ ih =>
      rw [List.map_append, List.map_cons, (hseparator separator).mpr rfl]
      exact .cons (by simpa using hlength) (List.forall_mem_map.mpr hall) ih

end Grouped

/-- What the pattern of groups matches. -/
theorem matches_row_grouped_iff {items : List ClassItem} {separator : Char} {ns : List ℕ}
    {s : List Char} (hns : ns ≠ []) :
    (row (grouped separator (fun n => times n (.char items)) ns)).Matches s ↔
      Grouped (InClass items) separator ns s := by
  induction ns generalizing s with
  | nil => exact absurd rfl hns
  | cons n ns ih =>
    cases ns with
    | nil =>
      rw [grouped, row, matches_times_char_iff]
      constructor
      · rintro ⟨hlength, hall⟩
        exact .single hlength hall
      · rintro (⟨hlength, hall⟩ | _)
        · exact ⟨hlength, hall⟩
        · contradiction
    | cons m ns =>
      simp only [grouped, matches_row_cons_iff, matches_times_char_iff, matches_just_iff,
        ih (List.cons_ne_nil m ns)]
      constructor
      · rintro ⟨t, _, rfl, ⟨hlength, hall⟩, _, u, rfl, rfl, hu⟩
        exact .cons hlength hall hu
      · intro h
        cases h with
        | cons hlength hall hu => exact ⟨_, _, rfl, ⟨hlength, hall⟩, [separator], _, rfl, rfl, hu⟩

/-! ## Guards -/

namespace ByteGuard

/-- A guard that only asks for bytes that the strings of its sizes have always has an answer. -/
theorem isSome_answer? {guard : ByteGuard}
    (h : ∀ mark ∈ guard.mark, ∀ n, guard.size n = true → mark.1 < n) (s : List Char) :
    (guard.answer? s).isSome = true := by
  unfold answer?
  simp only
  split
  · rename_i hsize
    split
    · rfl
    · rename_i i c hmark
      have hi := h (i, c) (Option.mem_def.mpr hmark) _ hsize
      rw [List.getElem?_eq_getElem hi]
      rfl
  · rfl

/-- A guard passes if the number of bytes and the marked ones are as it asks. -/
theorem passes_iff {guard : ByteGuard} {s : List Char} :
    guard.passes s = true ↔ guard.size (utf8 s).length = true ∧
      ∀ mark ∈ guard.mark, (utf8 s)[mark.1]? = some mark.2.toNat.toUInt8 := by
  unfold passes answer?
  simp only [decide_eq_true_eq]
  show (if guard.size (utf8 s).length = true then _ else _) = _ ↔ _
  split
  · rename_i hsize
    rw [and_iff_right hsize]
    split
    · rename_i hmark
      simp [hmark]
    · rename_i i c hmark
      show Option.map _ (utf8 s)[i]? = _ ↔ _
      simp [hmark]
  · rename_i hsize
    simp [hsize]

end ByteGuard

/-- No byte that the guard of identifiers asks for lies outside the text. -/
theorem isSome_answer?_uuidGuard : ∀ s, (uuidGuard.answer? s).isSome = true := by
  apply ByteGuard.isSome_answer?
  simp [uuidGuard]

/-- No byte that the guard of dates asks for lies outside the text. -/
theorem isSome_answer?_dateGuard : ∀ s, (dateGuard.answer? s).isSome = true := by
  apply ByteGuard.isSome_answer?
  simp [dateGuard]

/-- No byte that the guard of points in time asks for lies outside the text. -/
theorem isSome_answer?_dateTimeGuard : ∀ s, (dateTimeGuard.answer? s).isSome = true := by
  apply ByteGuard.isSome_answer?
  rintro _ ⟨rfl⟩ n hsize
  exact Nat.lt_of_lt_of_le (by decide) (of_decide_eq_true hsize)

/-! ## Enumerations -/

/-- Capital letters and underscores, at least one. -/
def EnumToken (s : List Char) : Prop := s ≠ [] ∧ ∀ c ∈ s, ('A' ≤ c ∧ c ≤ 'Z') ∨ c = '_'

/-- The check of enumeration tokens goes by their description. -/
theorem isEnumToken_iff {s : List Char} : isEnumToken s = true ↔ EnumToken s := by
  have hclass (c : Char) : InClass [.range 'A' 'Z', .range '_' '_'] c ↔
      ('A' ≤ c ∧ c ≤ 'Z') ∨ c = '_' := by
    rw [inClass_cons_range, inClass_cons_range, inClass_nil, or_false, ← Char.toNat_inj]
    exact or_congr Iff.rfl (by omega)
  simp only [isEnumToken, accepts_iff, enumTokenPattern, matches_several_char_iff, hclass,
    EnumToken]

/-! ## Dates -/

/-- In ASCII the decimal digits of the pattern language are the ten digits. -/
theorem isDigit_iff_isDecimalDigit {c : Char} (hascii : c.toNat < 128) :
    isDecimalDigit c = true ↔ c.isDigit = true := by
  have hzero : '0'.toNat = 48 := rfl
  have hnine : '9'.toNat = 57 := rfl
  rw [Char.isDigit_iff_toNat, isDecimalDigit, decimalDigitRanges, CodeRanges.contains,
    CodeRanges.contains, hzero, hnine]
  by_cases hlow : c.toNat < 48
  · rw [if_pos hlow]
    exact iff_of_false Bool.false_ne_true (by omega)
  · -- The digits of other scripts come behind all ASCII characters.
    have hgap : c.toNat < 0x660 := by omega
    rw [if_neg hlow, if_pos hgap, Bool.or_false, decide_eq_true_eq]
    omega

theorem isDecimalDigit_of_isDigit {c : Char} (h : c.isDigit = true) : isDecimalDigit c = true :=
  (isDigit_iff_isDecimalDigit (lt_of_isDigit h)).mpr h

/-- Groups of ASCII characters are ASCII text. -/
theorem Grouped.ascii {kind : Char → Prop} {separator : Char} {ns : List ℕ} {s : List Char}
    (h : Grouped kind separator ns s) (hkind : ∀ c, kind c → c.toNat < 128)
    (hseparator : separator.toNat < 128) : Ascii s := by
  intro c hc
  rcases h.forall_mem c hc with hc | rfl
  · exact hkind c hc
  · exact hseparator

/-- In ASCII text the decimal digits are those from `0` to `9`. -/
theorem grouped_isDecimalDigit_iff {separator : Char} {ns : List ℕ} {s : List Char}
    (h : Ascii s) : Grouped (isDecimalDigit · = true) separator ns s ↔
      Grouped (·.isDigit = true) separator ns s :=
  ⟨fun hs => hs.imp fun c hc => (isDigit_iff_isDecimalDigit (h c hc)).mp,
    fun hs => hs.imp fun _ _ => isDecimalDigit_of_isDigit⟩

/-- The pattern of digit groups means groups of decimal digits, of any script. -/
theorem matches_row_digits_iff {separator : Char} {ns : List ℕ} {s : List Char} (hns : ns ≠ []) :
    (row (grouped separator digits ns)).Matches s ↔
      Grouped (isDecimalDigit · = true) separator ns s := by
  have hclass : InClass [.decimalDigit] = (isDecimalDigit · = true) := by
    funext c
    simp
  rw [← hclass]
  exact matches_row_grouped_iff hns

/-- As many bytes as characters leave no room for digits of other scripts. -/
theorem isDate_iff {s : List Char} :
    isDate s = true ↔ Grouped (·.isDigit = true) '-' [4, 2, 2] s := by
  rw [isDate, Bool.and_eq_true, ByteGuard.passes_iff, accepts_iff, datePattern,
    matches_row_digits_iff (by simp)]
  constructor
  · rintro ⟨⟨hsize, -⟩, h⟩
    have hlength : s.length = 10 := h.length_eq
    have hbytes : (utf8 s).length = 10 := of_decide_eq_true hsize
    have hascii : Ascii s := ascii_of_length_le (by omega)
    exact (grouped_isDecimalDigit_iff hascii).mp h
  · intro h
    have hlength : s.length = 10 := h.length_eq
    have hascii := h.ascii (fun _ => lt_of_isDigit) (by decide)
    refine ⟨⟨decide_eq_true ?_, by simp [dateGuard]⟩, (grouped_isDecimalDigit_iff hascii).mpr h⟩
    rw [utf8_of_ascii hascii, List.length_map, hlength]

/-! ## Identifiers -/

/-- A hexadecimal digit of either letter case. -/
def IsHexDigit (c : Char) : Prop := ∃ n, HexDigit c n

theorem isHexDigit_iff {c : Char} : IsHexDigit c ↔
    ('0'.toNat ≤ c.toNat ∧ c.toNat ≤ '9'.toNat) ∨ ('a'.toNat ≤ c.toNat ∧ c.toNat ≤ 'f'.toNat) ∨
      ('A'.toNat ≤ c.toNat ∧ c.toNat ≤ 'F'.toNat) := by
  have hvalues : '0'.toNat = 48 ∧ '9'.toNat = 57 ∧ 'a'.toNat = 97 ∧ 'f'.toNat = 102 ∧
      'A'.toNat = 65 ∧ 'F'.toNat = 70 := by decide
  constructor
  · rintro ⟨n, h⟩
    unfold HexDigit at h
    omega
  · rintro (h | h | h)
    · exact ⟨c.toNat - '0'.toNat, .inl (by omega)⟩
    · exact ⟨c.toNat - 'a'.toNat + 10, .inr (by omega)⟩
    · exact ⟨c.toNat - 'A'.toNat + 10, .inr (by omega)⟩

theorem lt_of_isHexDigit {c : Char} (h : IsHexDigit c) : c.toNat < 128 := by
  have hvalues : '9'.toNat = 57 ∧ 'f'.toNat = 102 ∧ 'F'.toNat = 70 := by decide
  rw [isHexDigit_iff] at h
  omega

/-- The small form of a character is a digit of the pattern exactly if the character is one. -/
theorem inClass_small_iff {c : Char} :
    InClass [.range '0' '9', .range 'a' 'f'] (small c) ↔ IsHexDigit c := by
  have hvalues : '0'.toNat = 48 ∧ '9'.toNat = 57 ∧ 'a'.toNat = 97 ∧ 'f'.toNat = 102 ∧
      'A'.toNat = 65 ∧ 'F'.toNat = 70 ∧ 'Z'.toNat = 90 := by decide
  rw [inClass_cons_range, inClass_cons_range, inClass_nil, or_false, isHexDigit_iff]
  constructor
  · intro h
    rcases toNat_small_of_le (c := c) (by omega) (by omega) with ⟨_, _, hsmall⟩ | hsmall
    · omega
    · rw [hsmall] at h
      omega
  · intro h
    by_cases hcapital : 'A'.toNat ≤ c.toNat ∧ c.toNat ≤ 'Z'.toNat
    · have hsmall := toNat_small_of_capital hcapital.1 hcapital.2
      omega
    · rw [small_of_ascii (by omega) (by omega)]
      omega

/-- Taking small letters neither makes nor removes a hyphen. -/
theorem small_eq_hyphen_iff {c : Char} : small c = '-' ↔ c = '-' := by
  constructor
  · intro h
    have hvalue : (small c).toNat = 45 := congrArg Char.toNat h
    have hvalues : 'A'.toNat = 65 ∧ 'f'.toNat = 102 := by decide
    rcases toNat_small_of_le (c := c) (by omega) (by omega) with ⟨_, _, hsmall⟩ | hsmall
    · omega
    · rw [← hsmall, h]
  · rintro rfl
    exact small_of_ascii (by decide) (by decide)

/-- The pattern of identifiers, on any small form of a string. -/
theorem accepts_uuidPattern_iff {s t : List Char} (hst : SmallForm s t) :
    uuidPattern.accepts t = true ↔ Grouped IsHexDigit '-' [8, 4, 4, 4, 12] s := by
  have hmap : uuidPattern.accepts (s.map small) = true ↔
      Grouped IsHexDigit '-' [8, 4, 4, 4, 12] s := by
    rw [accepts_iff, uuidPattern, show hexDigits = fun n => times n _ from rfl,
      matches_row_grouped_iff (by simp), Grouped.map_iff fun _ => small_eq_hyphen_iff]
    simp only [inClass_small_iff]
  constructor
  · intro h
    have hvalues : '-'.toNat = 45 ∧ '9'.toNat = 57 ∧ 'f'.toNat = 102 := by decide
    have hgroups : Grouped (InClass [.range '0' '9', .range 'a' 'f']) '-' [8, 4, 4, 4, 12] t := by
      rwa [accepts_iff, uuidPattern, show hexDigits = fun n => times n _ from rfl,
        matches_row_grouped_iff (by simp)] at h
    have hle : ∀ d ∈ t, d.toNat ≤ 'f'.toNat := by
      intro d hd
      rcases hgroups.forall_mem d hd with hd | rfl
      · rw [inClass_cons_range, inClass_cons_range, inClass_nil, or_false] at hd
        omega
      · omega
    rwa [hst.eq_map hle, hmap] at h
  · intro h
    rwa [hst.eq_map_of_ascii (h.ascii (fun _ => lt_of_isHexDigit) (by decide)), hmap]

/-- The guard lets all of them through. -/
theorem isUuid_iff {s : List Char} :
    isUuid s = true ↔ Grouped IsHexDigit '-' [8, 4, 4, 4, 12] s := by
  rw [isUuid, Bool.and_eq_true, accepts_uuidPattern_iff (smallForm_lower s), ByteGuard.passes_iff,
    and_iff_right_iff_imp]
  intro h
  have hlength : s.length = 36 := h.length_eq
  rw [utf8_of_ascii (h.ascii (fun _ => lt_of_isHexDigit) (by decide)), List.length_map]
  refine ⟨decide_eq_true hlength, ?_⟩
  rintro _ ⟨rfl⟩
  show (s.map _)[8]? = _
  rw [List.getElem?_map, h.getElem?_separator]
  rfl

/-! ## Points in time -/

/-- The fraction of a second, with its point, if there is one. -/
inductive SecondFraction (digit : Char → Prop) : List Char → Prop where
  | absent : SecondFraction digit []
  | present {s : List Char} : s ≠ [] → (∀ c ∈ s, digit c) → SecondFraction digit ('.' :: s)

/-- The distance from the zero meridian's time, if it is given. -/
inductive TimeZone (digit : Char → Prop) : List Char → Prop where
  | absent : TimeZone digit []
  | zero : TimeZone digit ['Z']
  | offset {sign : Char} {s : List Char} : sign = '+' ∨ sign = '-' → Grouped digit ':' [2, 2] s →
      TimeZone digit (sign :: s)

/-- A time of day. -/
inductive TimeOfDay (digit : Char → Prop) : List Char → Prop where
  | parts {clock fraction zone : List Char} : Grouped digit ':' [2, 2, 2] clock →
      SecondFraction digit fraction → TimeZone digit zone →
      TimeOfDay digit (clock ++ (fraction ++ zone))

/-- A date and a time of day, in which the digits of the latter are of one kind. -/
inductive PointInTime (digit : Char → Prop) : List Char → Prop where
  | parts {date time : List Char} : Grouped (·.isDigit = true) '-' [4, 2, 2] date →
      TimeOfDay digit time → PointInTime digit (date ++ 'T' :: time)

section

variable {digit other : Char → Prop} {s : List Char}

/-- Only the characters that occur in a fraction of a second matter for its digits. -/
theorem SecondFraction.imp (h : SecondFraction digit s) (hdigit : ∀ c ∈ s, digit c → other c) :
    SecondFraction other s := by
  cases h with
  | absent => exact .absent
  | present hne hall =>
    exact .present hne fun c hc => hdigit c (List.mem_cons_of_mem _ hc) (hall c hc)

theorem SecondFraction.forall_mem (h : SecondFraction digit s) : ∀ c ∈ s, digit c ∨ c = '.' := by
  cases h with
  | absent => simp
  | present _ hall => exact List.forall_mem_cons.mpr ⟨.inr rfl, fun c hc => .inl (hall c hc)⟩

/-- Only the characters that occur in a time zone matter for its digits. -/
theorem TimeZone.imp (h : TimeZone digit s) (hdigit : ∀ c ∈ s, digit c → other c) :
    TimeZone other s := by
  cases h with
  | absent => exact .absent
  | zero => exact .zero
  | offset hsign hs =>
    exact .offset hsign (hs.imp fun c hc => hdigit c (List.mem_cons_of_mem _ hc))

theorem TimeZone.forall_mem (h : TimeZone digit s) :
    ∀ c ∈ s, digit c ∨ c ∈ [':', 'Z', '+', '-'] := by
  cases h with
  | absent => simp
  | zero => simp
  | offset hsign hs =>
    refine List.forall_mem_cons.mpr ⟨.inr (by rcases hsign with rfl | rfl <;> simp), ?_⟩
    intro c hc
    exact (hs.forall_mem c hc).imp_right (by rintro rfl; simp)

/-- Only the characters that occur in a time of day matter for its digits. -/
theorem TimeOfDay.imp (h : TimeOfDay digit s) (hdigit : ∀ c ∈ s, digit c → other c) :
    TimeOfDay other s := by
  cases h with
  | parts hclock hfraction hzone =>
    simp only [List.forall_mem_append] at hdigit
    exact .parts (hclock.imp hdigit.1) (hfraction.imp hdigit.2.1) (hzone.imp hdigit.2.2)

theorem TimeOfDay.forall_mem (h : TimeOfDay digit s) :
    ∀ c ∈ s, digit c ∨ c ∈ ['.', ':', 'Z', '+', '-'] := by
  cases h with
  | parts hclock hfraction hzone =>
    simp only [List.forall_mem_append]
    refine ⟨fun c hc => ?_, fun c hc => ?_, fun c hc => ?_⟩
    · exact (hclock.forall_mem c hc).imp_right (by rintro rfl; simp)
    · exact (hfraction.forall_mem c hc).imp_right (by rintro rfl; simp)
    · exact (hzone.forall_mem c hc).imp_right (List.mem_cons_of_mem _)

/-- A time of day has hours, minutes and seconds with two digits each. -/
theorem TimeOfDay.length_le (h : TimeOfDay digit s) : 8 ≤ s.length := by
  cases h with
  | parts hclock _ _ =>
    rw [List.length_append, hclock.length_eq]
    exact Nat.le_add_right ..

/-- No other character than those of the form is in a point in time. -/
theorem PointInTime.forall_mem (h : PointInTime digit s) :
    ∀ c ∈ s, c.isDigit = true ∨ digit c ∨ c ∈ ['.', ':', 'T', 'Z', '+', '-'] := by
  cases h with
  | parts hdate htime =>
    intro c hc
    rcases List.mem_append.mp hc with hc | hc
    · exact (hdate.forall_mem c hc).imp_right (by rintro rfl; simp)
    · rcases List.mem_cons.mp hc with rfl | hc
      · simp
      · refine .inr ((htime.forall_mem c hc).imp_right fun hc => ?_)
        simp only [List.mem_cons] at hc ⊢
        tauto

/-- Behind the year is a hyphen. -/
theorem PointInTime.getElem?_hyphen (h : PointInTime digit s) : s[4]? = some '-' := by
  cases h with
  | parts hdate _ =>
    rw [List.getElem?_append_left (by rw [hdate.length_eq]; decide), hdate.getElem?_separator]

/-- A point in time is a date of ten characters, a mark and a time of day. -/
theorem PointInTime.length_le (h : PointInTime digit s) : 19 ≤ s.length := by
  cases h with
  | parts hdate htime =>
    have hlength := htime.length_le
    rw [List.length_append, List.length_cons, hdate.length_eq]
    show 19 ≤ 10 + _
    omega

end

/-- The form without digits of other scripts. -/
theorem pointInTime_isDigit_iff {s : List Char} : PointInTime (·.isDigit = true) s ↔
    PointInTime (isDecimalDigit · = true) s ∧ Ascii s := by
  constructor
  · intro h
    refine ⟨?_, fun c hc => ?_⟩
    · cases h with
      | parts hdate htime => exact .parts hdate (htime.imp fun _ _ => isDecimalDigit_of_isDigit)
    · rcases h.forall_mem c hc with hc | hc | hc
      · exact lt_of_isDigit hc
      · exact lt_of_isDigit hc
      · simp only [List.mem_cons, List.not_mem_nil, or_false] at hc
        rcases hc with rfl | rfl | rfl | rfl | rfl | rfl <;> decide
  · rintro ⟨h, hascii⟩
    cases h with
    | parts hdate htime =>
      refine .parts hdate (htime.imp fun c hc => (isDigit_iff_isDecimalDigit (hascii c ?_)).mp)
      exact List.mem_append_right _ (List.mem_cons_of_mem _ hc)

/-! ### Their pattern -/

/-- What the pattern takes for a fraction of a second is one. -/
theorem matches_fraction_iff {s : List Char} :
    (optional (row [.just '.', several (.char [.decimalDigit])])).Matches s ↔
      SecondFraction (isDecimalDigit · = true) s := by
  rw [matches_optional_iff, matches_row_cons_cons_iff]
  simp only [matches_row_singleton_iff, matches_just_iff, matches_several_char_iff,
    inClass_cons_decimalDigit, inClass_nil, or_false]
  constructor
  · rintro (rfl | ⟨_, t, rfl, rfl, hne, hall⟩)
    · exact .absent
    · exact .present hne hall
  · rintro (_ | ⟨hne, hall⟩)
    · exact .inl rfl
    · exact .inr ⟨['.'], _, rfl, rfl, hne, hall⟩

/-- What the pattern takes for a time zone is one. -/
theorem matches_zone_iff {s : List Char} :
    (optional (.either (.just 'Z') (row (.char [.range '+' '+', .range '-' '-'] ::
      grouped ':' digits [2, 2])))).Matches s ↔ TimeZone (isDecimalDigit · = true) s := by
  have hsign (c : Char) : InClass [.range '+' '+', .range '-' '-'] c ↔ c = '+' ∨ c = '-' := by
    rw [inClass_cons_range, inClass_cons_range, inClass_nil, or_false, ← Char.toNat_inj,
      ← Char.toNat_inj]
    omega
  rw [matches_optional_iff, matches_either_iff, matches_just_iff, matches_row_cons_iff]
  simp only [matches_char_iff, hsign, matches_row_digits_iff (List.cons_ne_nil 2 [2])]
  constructor
  · rintro (rfl | rfl | ⟨_, t, rfl, ⟨c, rfl, hc⟩, ht⟩)
    · exact .absent
    · exact .zero
    · exact .offset hc ht
  · rintro (_ | _ | ⟨hc, ht⟩)
    · exact .inl rfl
    · exact .inr (.inl rfl)
    · exact .inr (.inr ⟨[_], _, rfl, ⟨_, rfl, hc⟩, ht⟩)

/-- The pattern of points in time asks for no other digits in the date than behind it. -/
theorem matches_dateTimePattern_iff {s : List Char} : dateTimePattern.Matches s ↔
    ∃ date time, s = date ++ 'T' :: time ∧ Grouped (isDecimalDigit · = true) '-' [4, 2, 2] date ∧
      TimeOfDay (isDecimalDigit · = true) time := by
  rw [dateTimePattern, List.append_assoc, matches_row_append_iff (grouped '-' digits [4, 2, 2])]
  simp only [List.cons_append, matches_row_cons_iff (p := just 'T'), matches_just_iff,
    matches_row_append_iff (grouped ':' digits [2, 2, 2]), matches_row_cons_cons_iff,
    matches_row_singleton_iff, matches_row_digits_iff (List.cons_ne_nil 4 [2, 2]),
    matches_row_digits_iff (List.cons_ne_nil 2 [2, 2]), matches_fraction_iff, matches_zone_iff]
  constructor
  · rintro ⟨date, _, rfl, hdate, _, _, rfl, rfl, clock, _, rfl, hclock, fraction, zone, rfl,
      hfraction, hzone⟩
    have htime := TimeOfDay.parts hclock hfraction hzone
    exact ⟨date, _, rfl, hdate, htime⟩
  · rintro ⟨date, _, rfl, hdate, ⟨hclock, hfraction, hzone⟩⟩
    exact ⟨date, _, rfl, hdate, ['T'], _, rfl, rfl, _, _, rfl, hclock, _, _, rfl, hfraction, hzone⟩

/-- The byte that the guard looks at is the letter behind the date only if each character of the
date is one byte. -/
theorem isDateTime_iff {s : List Char} :
    isDateTime s = true ↔ PointInTime (isDecimalDigit · = true) s := by
  rw [isDateTime, Bool.and_eq_true, ByteGuard.passes_iff, accepts_iff, matches_dateTimePattern_iff]
  constructor
  · rintro ⟨⟨-, hmark⟩, date, time, rfl, hdate, htime⟩
    have hlength : date.length = 10 := hdate.length_eq
    have hle := length_le_length_utf8 date
    have hbyte : (utf8 (date ++ 'T' :: time))[10]? = some 'T'.toNat.toUInt8 := hmark _ rfl
    have hascii : Ascii date := by
      apply ascii_of_length_le
      by_contra hlong
      have hinside : 10 < (utf8 date).length := by omega
      rw [utf8_append, List.getElem?_append_left hinside] at hbyte
      exact absurd (mem_of_mem_utf8 (by decide) (List.mem_of_getElem? hbyte))
        (hdate.not_mem (by decide +kernel) (by decide))
    exact .parts ((grouped_isDecimalDigit_iff hascii).mp hdate) htime
  · rintro ⟨hdate, htime⟩
    rename_i date time
    have hascii : Ascii date := hdate.ascii (fun _ => lt_of_isDigit) (by decide)
    refine ⟨⟨decide_eq_true ?_, ?_⟩, date, time, rfl,
      (grouped_isDecimalDigit_iff hascii).mpr hdate, htime⟩
    · exact Nat.le_trans (PointInTime.parts hdate htime).length_le (length_le_length_utf8 _)
    · rintro _ ⟨rfl⟩
      have hbytes : (utf8 date).length = 10 := by
        rw [utf8_of_ascii hascii, List.length_map]
        exact hdate.length_eq
      show (utf8 (date ++ 'T' :: time))[10]? = _
      rw [utf8_append, List.getElem?_append_right (by omega), hbytes, utf8_cons,
        utf8EncodeChar_of_lt (by decide)]
      rfl

end ContractDraft.StringForm
