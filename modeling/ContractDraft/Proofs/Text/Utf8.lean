import Mathlib.Data.List.Basic

/-!
# Bytes of texts

The bytes of a text in UTF-8 are those of its characters. Exactly the ASCII characters take one byte
(`ascii_of_length_le`), and only they have a byte below 128 (`le_toNat_of_mem_utf8EncodeChar`), so a
byte that is an ASCII character stands where that character stands.
-/

namespace ContractDraft.Text

/-- Text of ASCII characters. -/
def Ascii (s : List Char) : Prop := ∀ c ∈ s, c.toNat < 128

theorem Ascii.of_cons {c : Char} {s : List Char} (h : Ascii (c :: s)) : Ascii s :=
  fun d hd => h d (List.mem_cons_of_mem c hd)

theorem lt_of_isDigit {c : Char} (h : c.isDigit = true) : c.toNat < 128 :=
  Nat.lt_of_le_of_lt (Char.isDigit_iff_toNat.mp h).2 (by decide)

/-! ## One character -/

/-- An ASCII character is one byte. -/
theorem utf8EncodeChar_of_lt {c : Char} (h : c.toNat < 128) :
    String.utf8EncodeChar c = [c.toNat.toUInt8] := by
  have hvalue : c.val.toNat ≤ 127 := Nat.le_of_lt_succ h
  unfold String.utf8EncodeChar
  simp only
  rw [if_pos hvalue]
  rfl

theorem length_utf8EncodeChar_pos (c : Char) : 0 < (String.utf8EncodeChar c).length := by
  rw [String.length_utf8EncodeChar]
  exact c.utf8Size_pos

/-- Any other character is more than one byte. -/
theorem one_lt_length_utf8EncodeChar {c : Char} (h : 128 ≤ c.toNat) :
    1 < (String.utf8EncodeChar c).length := by
  have hvalue : ¬ c.val.toNat ≤ 127 := by
    show ¬ c.toNat ≤ 127
    omega
  unfold String.utf8EncodeChar
  simp only
  rw [if_neg hvalue]
  split_ifs <;> simp

/-- A byte made of a number from 128 on is not below 128. -/
theorem le_toNat_ofNat {n : ℕ} (hle : 128 ≤ n) (hlt : n < 256) : 128 ≤ (UInt8.ofNat n).toNat := by
  rwa [UInt8.toNat_ofNat_of_lt' hlt]

/-- All bytes of a character that takes several are at least 128. -/
theorem le_toNat_of_mem_utf8EncodeChar {c : Char} (hc : 128 ≤ c.toNat) {b : UInt8}
    (hb : b ∈ String.utf8EncodeChar c) : 128 ≤ b.toNat := by
  have hvalue : ¬ c.val.toNat ≤ 127 := by
    show ¬ c.toNat ≤ 127
    omega
  unfold String.utf8EncodeChar at hb
  simp only at hb
  rw [if_neg hvalue] at hb
  split_ifs at hb
  · simp only [List.mem_cons, List.not_mem_nil, or_false] at hb
    rcases hb with rfl | rfl <;> exact le_toNat_ofNat (by omega) (by omega)
  · simp only [List.mem_cons, List.not_mem_nil, or_false] at hb
    rcases hb with rfl | rfl | rfl <;> exact le_toNat_ofNat (by omega) (by omega)
  · simp only [List.mem_cons, List.not_mem_nil, or_false] at hb
    rcases hb with rfl | rfl | rfl | rfl <;> exact le_toNat_ofNat (by omega) (by omega)

theorem toNat_toUInt8 {c : Char} (hc : c.toNat < 128) : c.toNat.toUInt8.toNat = c.toNat :=
  UInt8.toNat_ofNat_of_lt' (Nat.lt_trans hc (by decide))

/-- An ASCII character is among the bytes of no other character. -/
theorem not_mem_utf8EncodeChar {c d : Char} (hd : d.toNat < 128) (h : c ≠ d) :
    d.toNat.toUInt8 ∉ String.utf8EncodeChar c := by
  have hbyte : d.toNat.toUInt8.toNat = d.toNat := toNat_toUInt8 hd
  by_cases hc : c.toNat < 128
  · rw [utf8EncodeChar_of_lt hc, List.mem_singleton]
    intro heq
    have hvalue : d.toNat.toUInt8.toNat = c.toNat.toUInt8.toNat := congrArg UInt8.toNat heq
    have hchar : c.toNat.toUInt8.toNat = c.toNat := toNat_toUInt8 hc
    exact h (Char.toNat_inj.mp (by omega))
  · intro hmem
    have hle := le_toNat_of_mem_utf8EncodeChar (Nat.le_of_not_lt hc) hmem
    omega

/-! ## Texts -/

/-- The bytes of a text. -/
def utf8 (s : List Char) : List UInt8 := s.flatMap String.utf8EncodeChar

theorem utf8_cons (c : Char) (s : List Char) :
    utf8 (c :: s) = String.utf8EncodeChar c ++ utf8 s :=
  List.flatMap_cons

theorem utf8_append (s t : List Char) : utf8 (s ++ t) = utf8 s ++ utf8 t :=
  List.flatMap_append

/-- In ASCII text every character is one byte. -/
theorem utf8_of_ascii {s : List Char} (h : Ascii s) : utf8 s = s.map (·.toNat.toUInt8) := by
  induction s with
  | nil => rfl
  | cons c s ih =>
    rw [utf8_cons, utf8EncodeChar_of_lt (h c (List.mem_cons_self ..)), ih h.of_cons]
    rfl

/-- A text has at least as many bytes as characters. -/
theorem length_le_length_utf8 (s : List Char) : s.length ≤ (utf8 s).length := by
  induction s with
  | nil => exact Nat.le_refl 0
  | cons c s ih =>
    have hpos := length_utf8EncodeChar_pos c
    rw [utf8_cons, List.length_append, List.length_cons]
    omega

/-- A text that has as many characters as bytes is ASCII. -/
theorem ascii_of_length_le {s : List Char} (h : (utf8 s).length ≤ s.length) : Ascii s := by
  induction s with
  | nil => exact fun c hc => absurd hc List.not_mem_nil
  | cons c s ih =>
    rw [utf8_cons, List.length_append, List.length_cons] at h
    have hle := length_le_length_utf8 s
    have hpos := length_utf8EncodeChar_pos c
    refine List.forall_mem_cons.mpr ⟨?_, ih (by omega)⟩
    by_contra hc
    have := one_lt_length_utf8EncodeChar (Nat.le_of_not_lt hc)
    omega

/-- The first byte of a text tells its first character, or that this is none of ASCII. -/
theorem exists_head?_utf8 (c : Char) (s : List Char) :
    ∃ b, (utf8 (c :: s)).head? = some b ∧
      (b.toNat = c.toNat ∨ 128 ≤ b.toNat ∧ 128 ≤ c.toNat) := by
  rw [utf8_cons]
  by_cases hc : c.toNat < 128
  · rw [utf8EncodeChar_of_lt hc]
    exact ⟨_, rfl, .inl (toNat_toUInt8 hc)⟩
  · obtain ⟨b, bs, hbytes⟩ := List.exists_cons_of_length_pos (length_utf8EncodeChar_pos c)
    have hmem : b ∈ String.utf8EncodeChar c := hbytes ▸ List.mem_cons_self ..
    rw [hbytes]
    exact ⟨b, rfl, .inr ⟨le_toNat_of_mem_utf8EncodeChar (Nat.le_of_not_lt hc) hmem,
      Nat.le_of_not_lt hc⟩⟩

/-- If an ASCII character is among the bytes of a text, it is among its characters. -/
theorem mem_of_mem_utf8 {s : List Char} {d : Char} (hd : d.toNat < 128)
    (h : d.toNat.toUInt8 ∈ utf8 s) : d ∈ s := by
  obtain ⟨c, hc, hbyte⟩ := List.mem_flatMap.mp h
  by_cases heq : c = d
  · exact heq ▸ hc
  · exact absurd hbyte (not_mem_utf8EncodeChar hd heq)

end ContractDraft.Text
