import ContractDraft.Json.StringReader
import ContractDraft.Proofs.Json.Grammar
import Mathlib.Data.Char

/-!
# String literals are read by their grammar

Reading a string takes one character of the grammar in every round, so what is read in front of a
quotation mark are the characters of one string (`readStringBody_eq_ok_iff`). A round looks no
further than its own character, except behind a high surrogate, where the grammar has both escapes
as one character too.
-/

namespace ContractDraft

/-- A sequence of two readers succeeds if both do. -/
theorem bind_eq_ok_iff {ε α β : Type} {x : Except ε α} {f : α → Except ε β} {b : β} :
    x >>= f = .ok b ↔ ∃ a, x = .ok a ∧ f a = .ok b := by
  cases x <;> simp [bind, Except.bind]

/-! ## Hexadecimal escapes -/

/-- Hexadecimal digits are valued as described. -/
theorem hexValue?_eq_some_iff {c : Char} {n : ℕ} : Text.hexValue? c = some n ↔ HexDigit c n := by
  unfold Text.hexValue? HexDigit
  simp only [Char.le_def, UInt32.le_iff_toNat_le]
  have hzero : ('0' : Char).toNat = 48 := rfl
  have hnine : ('9' : Char).toNat = 57 := rfl
  have hlower : ('a' : Char).toNat = 97 := rfl
  have hlowerLast : ('f' : Char).toNat = 102 := rfl
  have hupper : ('A' : Char).toNat = 65 := rfl
  have hupperLast : ('F' : Char).toNat = 70 := rfl
  simp only [Char.toNat] at *
  grind

theorem HexDigit.lt {c : Char} {n : ℕ} (h : HexDigit c n) : n < 16 := by
  unfold HexDigit at h
  omega

/-- One hexadecimal digit more multiplies by sixteen. -/
theorem readHex_succ_eq_ok_iff {count high n : ℕ} {s rest : List Char} :
    readHex (count + 1) high s = .ok (n, rest) ↔
      ∃ c digit t, s = c :: t ∧ HexDigit c digit ∧
        readHex count (high * 16 + digit) t = .ok (n, rest) := by
  cases s with
  | nil => simp [readHex]
  | cons c t =>
    rw [readHex]
    cases hvalue : Text.hexValue? c with
    | none =>
      simp only [reduceCtorEq, false_iff, not_exists]
      rintro c' digit t' ⟨hcons, hdigit, _⟩
      obtain ⟨rfl, rfl⟩ := List.cons.inj hcons
      rw [hexValue?_eq_some_iff.mpr hdigit] at hvalue
      cases hvalue
    | some digit =>
      constructor
      · exact fun h => ⟨c, digit, t, rfl, hexValue?_eq_some_iff.mp hvalue, h⟩
      · rintro ⟨c', digit', t', hcons, hdigit, h⟩
        obtain ⟨rfl, rfl⟩ := List.cons.inj hcons
        obtain rfl : digit = digit' := by
          simpa [hvalue] using hexValue?_eq_some_iff.mpr hdigit
        exact h

/-- Four hexadecimal digits behind `\u` are read as the number they write. -/
theorem readHex_eq_ok_iff {s rest : List Char} {n : ℕ} :
    readHex 4 0 s = .ok (n, rest) ↔ ∃ t, '\\' :: 'u' :: s = t ++ rest ∧ UnitText t n := by
  simp only [readHex_succ_eq_ok_iff]
  constructor
  · rintro ⟨a, w, _, rfl, ha, b, x, _, rfl, hb, c, y, _, rfl, hc, d, z, _, rfl, hd, h⟩
    cases h
    simp only [Nat.zero_mul, Nat.zero_add]
    exact ⟨['\\', 'u', a, b, c, d], rfl, .digits ha hb hc hd⟩
  · rintro ⟨t, hs, ht⟩
    obtain @⟨a, b, c, d, w, x, y, z, ha, hb, hc, hd⟩ := ht
    have hs : s = a :: b :: c :: d :: rest := by simpa using hs
    refine ⟨a, w, _, hs, ha, b, x, _, rfl, hb, c, y, _, rfl, hc, d, z, _, rfl, hd, ?_⟩
    simp [readHex]

/-- A unit has sixteen bits. -/
theorem UnitText.lt {t : List Char} {n : ℕ} (h : UnitText t n) : n < 0x10000 := by
  obtain ⟨ha, hb, hc, hd⟩ := h
  have := ha.lt
  have := hb.lt
  have := hc.lt
  have := hd.lt
  omega

/-- A unit is written behind a backslash and a u. -/
theorem UnitText.exists_cons {t : List Char} {n : ℕ} (h : UnitText t n) :
    ∃ u, t = '\\' :: 'u' :: u := by
  obtain ⟨_, _, _, _⟩ := h
  exact ⟨_, rfl⟩

/-! ## Numbers of characters -/

/-- No character has a surrogate for its number. -/
theorem not_surrogate (c : Char) :
    isHighSurrogate c.toNat = false ∧ isLowSurrogate c.toNat = false := by
  have hvalid : c.toNat.isValidChar := c.valid
  unfold isHighSurrogate isLowSurrogate
  simp only [Bool.and_eq_false_iff, decide_eq_false_iff_not]
  unfold Nat.isValidChar at hvalid
  omega

theorem toNat_ofNat {n : ℕ} (h : n.isValidChar) : (Char.ofNat n).toNat = n := by
  rw [Char.ofNat, dif_pos h]
  rfl

/-- A unit that is no surrogate is the number of a character. -/
theorem toNat_ofNat_of_unit {n : ℕ} (hlt : n < 0x10000) (hhigh : isHighSurrogate n = false)
    (hlow : isLowSurrogate n = false) : (Char.ofNat n).toNat = n := by
  have hvalid : n.isValidChar := by
    simp only [isHighSurrogate, isLowSurrogate, Bool.and_eq_false_iff, decide_eq_false_iff_not]
      at hhigh hlow
    unfold Nat.isValidChar
    omega
  exact toNat_ofNat hvalid

/-- Two halves make one character outside the basic plane. -/
theorem toNat_joinSurrogates {high low : ℕ} (hhigh : isHighSurrogate high = true)
    (hlow : isLowSurrogate low = true) :
    (joinSurrogates high low).toNat = 0x10000 + (high - 0xD800) * 0x400 + (low - 0xDC00) := by
  simp only [isHighSurrogate, isLowSurrogate, Bool.and_eq_true, decide_eq_true_eq] at hhigh hlow
  have hvalid : (0x10000 + (high - 0xD800) * 0x400 + (low - 0xDC00)).isValidChar := by
    unfold Nat.isValidChar
    omega
  exact toNat_ofNat hvalid

/-! ## Escapes -/

/-- The short escapes are those of the table. -/
theorem simpleEscape?_eq_some_iff {letter c : Char} :
    simpleEscape? letter = some c ↔ (letter, c) ∈ shortEscapes := by
  unfold simpleEscape? shortEscapes
  split <;> simp_all [eq_comm]

/-- A unit that is a character gives this character. -/
theorem readUnicodeEscape_of_unit (start : List Char) {u : List Char} {c : Char}
    (h : UnitText ('\\' :: 'u' :: u) c.toNat) (rest : List Char) :
    readUnicodeEscape start (u ++ rest) = .ok (c, rest) := by
  obtain ⟨hhigh, hlow⟩ := not_surrogate c
  refine bind_eq_ok_iff.mpr ⟨(c.toNat, rest), readHex_eq_ok_iff.mpr ⟨_, rfl, h⟩, ?_⟩
  simp [hhigh, hlow]

/-- Two surrogates give one character. -/
theorem readUnicodeEscape_of_pair (start : List Char) {u t : List Char} {high low : ℕ} {c : Char}
    (hu : UnitText ('\\' :: 'u' :: u) high) (ht : UnitText t low)
    (hhigh : isHighSurrogate high = true) (hlow : isLowSurrogate low = true)
    (hc : c.toNat = 0x10000 + (high - 0xD800) * 0x400 + (low - 0xDC00)) (rest : List Char) :
    readUnicodeEscape start (u ++ (t ++ rest)) = .ok (c, rest) := by
  obtain ⟨w, rfl⟩ := ht.exists_cons
  have hjoin : joinSurrogates high low = c :=
    Char.toNat_inj.mp ((toNat_joinSurrogates hhigh hlow).trans hc.symm)
  have hfirst : readHex 4 0 (u ++ ('\\' :: 'u' :: w ++ rest)) =
      .ok (high, '\\' :: 'u' :: w ++ rest) := readHex_eq_ok_iff.mpr ⟨_, rfl, hu⟩
  refine bind_eq_ok_iff.mpr ⟨_, hfirst, ?_⟩
  dsimp only [List.cons_append]
  rw [if_pos hhigh]
  refine bind_eq_ok_iff.mpr ⟨(low, rest), readHex_eq_ok_iff.mpr ⟨_, rfl, ht⟩, ?_⟩
  simp [hlow, hjoin]

/-- What is read as an escape by number is one. -/
theorem escapeText_of_readUnicodeEscape {start s rest : List Char} {c : Char}
    (h : readUnicodeEscape start s = .ok (c, rest)) :
    ∃ t, '\\' :: 'u' :: s = t ++ rest ∧ EscapeText t c := by
  obtain ⟨⟨high, s1⟩, hfirst, h⟩ := bind_eq_ok_iff.mp h
  obtain ⟨t, hs, ht⟩ := readHex_eq_ok_iff.mp hfirst
  dsimp only at h
  split at h
  · rename_i hhigh
    split at h
    · obtain ⟨⟨low, s2⟩, hsecond, h⟩ := bind_eq_ok_iff.mp h
      obtain ⟨u, hu, htu⟩ := readHex_eq_ok_iff.mp hsecond
      dsimp only at h
      split at h
      · rename_i hlow
        have hjoin := toNat_joinSurrogates hhigh hlow
        simp only [Except.ok.injEq, Prod.mk.injEq] at h
        obtain ⟨rfl, rfl⟩ := h
        simp only [isHighSurrogate, isLowSurrogate, Bool.and_eq_true, decide_eq_true_eq]
          at hhigh hlow
        exact ⟨t ++ u, by rw [hs, hu, List.append_assoc],
          .pair ht htu hhigh.1 hhigh.2 hlow.1 hlow.2 hjoin⟩
      · cases h
    · cases h
  · rename_i hhigh
    split at h
    · cases h
    · rename_i hlow
      have hnat := toNat_ofNat_of_unit ht.lt (by simpa using hhigh) (by simpa using hlow)
      simp only [Except.ok.injEq, Prod.mk.injEq] at h
      obtain ⟨rfl, rfl⟩ := h
      exact ⟨t, hs, .unit (by rwa [hnat])⟩

/-- An escape begins with a backslash. -/
theorem EscapeText.exists_cons {t : List Char} {c : Char} (h : EscapeText t c) :
    ∃ u, t = '\\' :: u := by
  cases h with
  | short _ => exact ⟨_, rfl⟩
  | unit hunit =>
    obtain ⟨u, rfl⟩ := hunit.exists_cons
    exact ⟨_, rfl⟩
  | pair hfirst _ _ _ _ _ _ =>
    obtain ⟨u, rfl⟩ := hfirst.exists_cons
    exact ⟨_, rfl⟩

/-- An escape is read in front of any rest. -/
theorem readEscape_append (opening : List Char) {t : List Char} {c : Char}
    (h : EscapeText ('\\' :: t) c) (rest : List Char) :
    readEscape opening (t ++ rest) = .ok (c, rest) := by
  generalize hwhole : '\\' :: t = whole at h
  cases h with
  | @short letter c hshort =>
    obtain rfl : t = [letter] := List.tail_eq_of_cons_eq hwhole
    have hsimple := simpleEscape?_eq_some_iff.mpr hshort
    have hletter : letter ≠ 'u' := by
      rintro rfl
      simp [shortEscapes] at hshort
    simp [readEscape, hsimple]
  | unit hunit =>
    obtain ⟨u, rfl⟩ := hunit.exists_cons
    obtain rfl : t = 'u' :: u := List.tail_eq_of_cons_eq hwhole
    exact readUnicodeEscape_of_unit _ hunit rest
  | @pair s1 s2 high low c hfirst hsecond hge hlt hge' hlt' hc =>
    obtain ⟨u, rfl⟩ := hfirst.exists_cons
    obtain rfl : t = 'u' :: u ++ s2 := List.tail_eq_of_cons_eq hwhole
    have hhigh : isHighSurrogate high = true := by simp [isHighSurrogate, hge, hlt]
    have hlow : isLowSurrogate low = true := by simp [isLowSurrogate, hge', hlt']
    rw [List.append_assoc]
    exact readUnicodeEscape_of_pair _ hfirst hsecond hhigh hlow hc rest

/-- What is read as an escape is one. -/
theorem escapeText_of_readEscape {opening s rest : List Char} {c : Char}
    (h : readEscape opening s = .ok (c, rest)) :
    ∃ t, '\\' :: s = t ++ rest ∧ EscapeText t c := by
  unfold readEscape at h
  split at h
  · cases h
  · exact escapeText_of_readUnicodeEscape h
  · rename_i letter s hletter
    cases hsimple : simpleEscape? letter with
    | none => simp [hsimple] at h
    | some decoded =>
      simp only [hsimple, Except.ok.injEq, Prod.mk.injEq] at h
      obtain ⟨rfl, rfl⟩ := h
      exact ⟨['\\', letter], rfl, .short (simpleEscape?_eq_some_iff.mp hsimple)⟩

/-! ## Strings -/

theorem CharText.ne_nil {t : List Char} {c : Char} (h : CharText t c) : t ≠ [] := by
  cases h with
  | plain _ _ _ => simp
  | escape hescape =>
    obtain ⟨u, rfl⟩ := hescape.exists_cons
    simp

/-- A character takes at least one character to write. -/
theorem CharsText.length_le {t chars : List Char} (h : CharsText t chars) :
    chars.length ≤ t.length := by
  induction h with
  | nil => exact Nat.le_refl _
  | cons hchar _ ih =>
    have hpos := List.length_pos_iff.mpr hchar.ne_nil
    simp only [List.length_cons, List.length_append]
    omega

/-- The reader takes the characters of a string one by one and goes on behind them. -/
theorem readStringBody_chars (opening : List Char) {t chars : List Char} (h : CharsText t chars)
    (rest : List Char) (fuel : ℕ) :
    readStringBody opening (chars.length + fuel) (t ++ rest) =
      readStringBody opening fuel rest >>= fun p => .ok (chars ++ p.1, p.2) := by
  induction h with
  | nil =>
    rw [List.length_nil, Nat.zero_add]
    exact (bind_pure _).symm
  | @cons s t c cs hchar _ ih =>
    -- One round takes the first character; the others are the induction hypothesis.
    have hround : readStringBody opening (cs.length + fuel + 1) (s ++ (t ++ rest)) =
        readStringBody opening (cs.length + fuel) (t ++ rest) >>= fun p => .ok (c :: p.1, p.2) := by
      cases hchar with
      | plain hquote hback hprintable =>
        have hcontrol : ¬ c.toNat < 0x20 := by omega
        rw [List.singleton_append, readStringBody, if_neg hquote, if_neg hback, if_neg hcontrol]
      | escape hescape =>
        obtain ⟨u, rfl⟩ := hescape.exists_cons
        rw [List.cons_append, readStringBody, if_neg (by decide), if_pos rfl,
          readEscape_append opening hescape]
        rfl
    rw [List.length_cons, Nat.add_right_comm, List.append_assoc, hround, ih, bind_assoc]
    rfl

/-- The inside of a string is read up to its quote. -/
theorem readStringBody_append (opening : List Char) {t chars : List Char} (h : CharsText t chars)
    (rest : List Char) {fuel : ℕ} (hfuel : chars.length < fuel) :
    readStringBody opening fuel (t ++ '"' :: rest) = .ok (chars, rest) := by
  obtain ⟨n, rfl⟩ := Nat.exists_eq_add_of_lt hfuel
  rw [Nat.add_assoc, readStringBody_chars opening h, readStringBody, if_pos rfl]
  exact congrArg (fun cs => Except.ok (cs, rest)) (List.append_nil chars)

/-- What is read up to a quote is the inside of a string. -/
theorem charsText_of_readStringBody {opening : List Char} {fuel : ℕ} {s rest chars : List Char}
    (h : readStringBody opening fuel s = .ok (chars, rest)) :
    ∃ t, s = t ++ '"' :: rest ∧ CharsText t chars := by
  induction fuel generalizing s chars with
  | zero => cases h
  | succ fuel ih =>
    cases s with
    | nil => cases h
    | cons c s =>
      unfold readStringBody at h
      split at h
      · rename_i hquote
        cases h
        exact ⟨[], by simp [hquote], .nil⟩
      rename_i hquote
      split at h
      · rename_i hback
        obtain ⟨⟨decoded, s1⟩, hescape, h⟩ := bind_eq_ok_iff.mp h
        obtain ⟨⟨cs, s2⟩, hbody, h⟩ := bind_eq_ok_iff.mp h
        cases h
        obtain ⟨t, hs, ht⟩ := escapeText_of_readEscape hescape
        obtain ⟨u, hu, hcs⟩ := ih hbody
        exact ⟨t ++ u, by rw [hback, hs, hu, List.append_assoc], .cons (.escape ht) hcs⟩
      rename_i hback
      split at h
      · cases h
      rename_i hcontrol
      obtain ⟨⟨cs, s1⟩, hbody, h⟩ := bind_eq_ok_iff.mp h
      cases h
      obtain ⟨u, hu, hcs⟩ := ih hbody
      exact ⟨[c] ++ u, by simp [hu], .cons (.plain hquote hback (by omega)) hcs⟩

/-- A string is read in front of any rest. -/
theorem readString_append (opening : List Char) {t : List Char} {text : String}
    (h : StringText ('"' :: t) text) (rest : List Char) {bound : ℕ} (hbound : t.length < bound) :
    readString bound opening (t ++ rest) = .ok (text, rest) := by
  generalize hwhole : '"' :: t = whole at h
  obtain @⟨s, chars, hchars⟩ := h
  obtain rfl : t = s ++ ['"'] := List.tail_eq_of_cons_eq hwhole
  have hlength : chars.length < bound := by
    have hle := hchars.length_le
    simp only [List.length_append, List.length_singleton] at hbound
    omega
  rw [List.append_assoc, List.singleton_append]
  exact bind_eq_ok_iff.mpr ⟨_, readStringBody_append opening hchars rest hlength, rfl⟩

/-- What is read as a string is one. -/
theorem stringText_of_readString {opening s rest : List Char} {text : String} {bound : ℕ}
    (h : readString bound opening s = .ok (text, rest)) :
    ∃ t, s = t ++ rest ∧ StringText ('"' :: t) text := by
  obtain ⟨⟨chars, s1⟩, hbody, h⟩ := bind_eq_ok_iff.mp h
  cases h
  obtain ⟨t, hs, hchars⟩ := charsText_of_readStringBody hbody
  exact ⟨t ++ ['"'], by simp [hs], .quoted hchars⟩

end ContractDraft
