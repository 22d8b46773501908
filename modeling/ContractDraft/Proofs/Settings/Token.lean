import ContractDraft.Proofs.Json.Reader
import ContractDraft.Proofs.Settings.Estimate
import ContractDraft.Settings.Token

/-!
# Single settings are read by the grammar of documents

Strings of settings are read exactly like those of documents (`takeStringBody_eq_ok_iff`): the two
readers differ in their faults alone. So a string literal of the grammar is read wherever it stands,
and the same is shown for flags, for `null` and for the digits of a count below `2 ^ 64`. Each of the
last lemmas is about one reader in front of any text that does not go on with a number.
-/

namespace ContractDraft

/-- Two sequences of readers succeed together if their parts do. -/
theorem bind_eq_ok_congr {ε ε' α β : Type} {x : Except ε α} {y : Except ε' α}
    {f : α → Except ε β} {g : α → Except ε' β} {b : β} (h : ∀ a, x = .ok a ↔ y = .ok a)
    (hnext : ∀ a, f a = .ok b ↔ g a = .ok b) : x >>= f = .ok b ↔ y >>= g = .ok b := by
  rw [bind_eq_ok_iff, bind_eq_ok_iff]
  exact exists_congr fun a => and_congr (h a) (hnext a)

namespace Settings

/-! ## Strings -/

/-- Four hexadecimal digits are taken as the reader of documents takes them. -/
theorem takeHex4_eq_ok_iff {s : List Char} {p : ℕ × List Char} :
    takeHex4 s = .ok p ↔ readHex 4 0 s = .ok p := by
  obtain ⟨n, rest⟩ := p
  rw [readHex_eq_ok_iff]
  constructor
  · intro h
    unfold takeHex4 at h
    -- Four characters are there, and each of them is a digit.
    split at h
    · rename_i a b c d s
      split at h
      · rename_i ha hb hc hd
        simp only [Except.ok.injEq, Prod.mk.injEq] at h
        obtain ⟨rfl, rfl⟩ := h
        rw [hexValue?_eq_some_iff] at ha hb hc hd
        exact ⟨['\\', 'u', a, b, c, d], rfl, .digits ha hb hc hd⟩
      · cases h
    · split at h <;> cases h
  · rintro ⟨t, hs, ht⟩
    obtain ⟨ha, hb, hc, hd⟩ := ht
    obtain rfl : s = _ := by simpa using hs
    rw [← hexValue?_eq_some_iff] at ha hb hc hd
    simp only [takeHex4, ha, hb, hc, hd]

/-- A low surrogate is refused first here and last there, but it is never a high one. -/
theorem takePairedEscape_eq_ok_iff (start : List Char) {s : List Char} {p : Char × List Char} :
    takePairedEscape s = .ok p ↔ readUnicodeEscape start s = .ok p := by
  refine bind_eq_ok_congr (fun _ => takeHex4_eq_ok_iff) fun q => ?_
  obtain ⟨n, s⟩ := q
  dsimp only
  -- Without a surrogate both readers are done, and behind a high one both take a second unit.
  by_cases hlow : isLowSurrogate n = true
  · have hhigh : ¬ isHighSurrogate n = true := by
      simp only [isLowSurrogate, isHighSurrogate, Bool.and_eq_true, decide_eq_true_eq] at *
      omega
    rw [if_pos hlow, if_neg hhigh, if_pos hlow]
    simp
  by_cases hhigh : isHighSurrogate n = true
  · rw [if_neg hlow, if_pos hhigh, if_pos hhigh]
    split
    · refine bind_eq_ok_congr (fun _ => takeHex4_eq_ok_iff) fun q => ?_
      by_cases hsecond : isLowSurrogate q.1 = true <;> simp [hsecond]
    all_goals simp
  · rw [if_neg hlow, if_neg hhigh, if_neg hhigh, if_neg hlow]
    simp

/-- Escapes are taken as the reader of documents takes them. -/
theorem takeEscape_eq_ok_iff (opening : List Char) {s : List Char} {p : Char × List Char} :
    takeEscape true s = .ok p ↔ readEscape opening s = .ok p := by
  unfold takeEscape readEscape
  split
  · simp
  · simpa using takePairedEscape_eq_ok_iff _
  · rename_i letter s hletter
    split <;> simp_all

/-- Strings are taken as the reader of documents takes them. -/
theorem takeStringBody_eq_ok_iff (opening : List Char) {fuel : ℕ} {s : List Char}
    {p : List Char × List Char} :
    takeStringBody true fuel s = .ok p ↔ readStringBody opening fuel s = .ok p := by
  induction fuel generalizing s p with
  | zero => simp [takeStringBody, readStringBody]
  | succ fuel ih =>
    cases s with
    | nil => simp [takeStringBody, readStringBody]
    | cons c s =>
      unfold takeStringBody readStringBody
      split
      · simp
      split
      · refine bind_eq_ok_congr (fun _ => takeEscape_eq_ok_iff opening) fun q => ?_
        exact bind_eq_ok_congr (fun _ => ih) fun _ => by simp
      split
      · simp
      · exact bind_eq_ok_congr (fun _ => ih) fun _ => by simp

/-- A string literal is taken in front of any rest. -/
theorem takeString_append {t : List Char} {text : String} (h : StringText ('"' :: t) text)
    (rest : List Char) : takeString true (t ++ rest) = .ok (text, rest) := by
  generalize hwhole : '"' :: t = whole at h
  obtain @⟨s, chars, hchars⟩ := h
  obtain rfl : t = s ++ ['"'] := List.tail_eq_of_cons_eq hwhole
  have hfuel : chars.length < (s ++ '"' :: rest).length := by
    have hle := hchars.length_le
    simp only [List.length_append, List.length_cons]
    omega
  have hbody : readStringBody [] (s ++ '"' :: rest).length (s ++ '"' :: rest) = .ok (chars, rest) :=
    readStringBody_append [] hchars rest hfuel
  rw [List.append_assoc, List.singleton_append]
  exact bind_eq_ok_iff.mpr ⟨_, (takeStringBody_eq_ok_iff []).mpr hbody, rfl⟩

/-! ## Numbers -/

section numbers

variable (ended : SettingsFault) {rest : List Char}

/-- Digits are taken in front of anything but a digit. -/
theorem takeDigits_append {digits : List Char} (h : Digits digits)
    (hrest : Ends Char.isDigit rest) : takeDigits ended (digits ++ rest) = .ok (digits, rest) := by
  rw [takeDigits, Numeral.someDigits?_eq_some_iff.mpr ⟨rfl, h, hrest⟩]

theorem takeWhole_append {whole : List Char} (h : WholeText whole)
    (hrest : Ends Char.isDigit rest) : takeWhole ended (whole ++ rest) = .ok (whole, rest) := by
  obtain ⟨hdigits, hzero⟩ := h
  obtain ⟨d, ds, rfl, _⟩ := hdigits.exists_cons
  by_cases hd : d = '0'
  · subst hd
    obtain rfl : ds = [] := by simpa using hzero rfl
    have hnone : (rest.head?.map Char.isDigit).getD false = false := by
      cases rest with
      | nil => rfl
      | cons c rest => exact hrest c rfl
    simp [takeWhole, hnone]
  · simpa [takeWhole, hd] using takeDigits_append ended hdigits hrest

/-- A fraction is taken in front of anything but a digit or a point. -/
theorem takeFraction_append {fraction : List Char} {digits : Option (List Char)}
    (h : FractionText fraction digits) (hdigit : Ends Char.isDigit rest)
    (hpoint : Ends (· = '.') rest) : takeFraction ended (fraction ++ rest) = .ok (digits, rest) := by
  cases h with
  | absent =>
    cases rest with
    | nil => rfl
    | cons c rest =>
      have hc : c ≠ '.' := by simpa using hpoint c rfl
      simp [takeFraction, hc]
  | present hdigits => exact bind_eq_ok_iff.mpr ⟨_, takeDigits_append ended hdigits hdigit, rfl⟩

/-- An exponent is taken in front of anything but a digit or its letter. -/
theorem takeExponent_append {exponent : List Char} {power : Option Int}
    (h : ExponentText exponent power) (hdigit : Ends Char.isDigit rest)
    (hletter : Ends (fun c => c = 'e' ∨ c = 'E') rest) :
    takeExponent ended (exponent ++ rest) = .ok (power, rest) := by
  have hdigits {digits : List Char} (hdigits : Digits digits) :
      takeDigits ended (digits ++ rest) = .ok (digits, rest) := takeDigits_append ended hdigits hdigit
  cases h with
  | absent =>
    cases rest with
    | nil => rfl
    | cons c rest =>
      have hc : ¬ (c = 'e' ∨ c = 'E') := by simpa using hletter c rfl
      simp [takeExponent, hc]
  | unsigned he h =>
    have hmark := List.mem_pair.mp he
    have htake := hdigits h
    obtain ⟨d, ds, rfl, hd⟩ := h.exists_cons
    have hplus : d ≠ '+' := by rintro rfl; simp at hd
    have hminus : d ≠ '-' := by rintro rfl; simp at hd
    rw [List.cons_append] at htake
    simp [takeExponent, hmark, hplus, hminus, htake, bind, Except.bind]
  | plus he h => simp [takeExponent, List.mem_pair.mp he, hdigits h, bind, Except.bind]
  | minus he h => simp [takeExponent, List.mem_pair.mp he, hdigits h, bind, Except.bind]

/-- A text ends a run if its front and its rest do. -/
theorem ends_append {p : Char → Bool} {s rest : List Char} (hs : Ends p s) (hrest : Ends p rest) :
    Ends p (s ++ rest) := by
  cases s with
  | nil => exact hrest
  | cons c s => exact ends_cons (hs c rfl) _

/-- What ends a run of characters ends every run of some of them. -/
theorem ends_imp {p q : Char → Bool} {rest : List Char} (h : Ends p rest)
    (hqp : ∀ c, q c = true → p c = true) : Ends q rest := by
  intro c hc
  have hp : ¬ p c = true := Bool.eq_false_iff.mp (h c hc)
  exact Bool.eq_false_iff.mpr fun hq => hp (hqp c hq)

/-- A number literal is taken in front of anything that cannot continue it. -/
theorem takeNumeral_append {s : List Char} {n : Numeral} (h : NumberText s n)
    (hrest : Ends isNumberChar rest) : takeNumeral ended (s ++ rest) = .ok (n, rest) := by
  obtain @⟨negative, whole, fraction, exponent, digits, power, hwhole, hfraction, hexponent⟩ := h
  have hdigit : Ends Char.isDigit rest := ends_imp hrest fun c hc => by simp [isNumberChar, hc]
  have hpoint : Ends (· = '.') rest := ends_imp hrest fun c hc => by
    simp [isNumberChar, of_decide_eq_true hc]
  have hletter : Ends (fun c => c = 'e' ∨ c = 'E') rest := ends_imp hrest fun c hc => by
    rcases of_decide_eq_true hc with rfl | rfl <;> rfl
  have hdigit' : Ends Char.isDigit (exponent ++ rest) :=
    ends_append (Numeral.ends_exponent (by decide) (by decide) hexponent) hdigit
  have hpoint' : Ends (· = '.') (exponent ++ rest) :=
    ends_append (Numeral.ends_exponent (by decide) (by decide) hexponent) hpoint
  have hbehind : Ends Char.isDigit (fraction ++ (exponent ++ rest)) := by
    cases hfraction with
    | absent => exact hdigit'
    | present _ => exact ends_cons (by decide) _
  have hsign := Numeral.sign_append negative hwhole (fraction ++ (exponent ++ rest))
  have htakeWhole := takeWhole_append ended hwhole hbehind
  have htakeFraction := takeFraction_append ended hfraction hdigit' hpoint'
  have htakeExponent := takeExponent_append ended hexponent hdigit hletter
  simp only [List.append_assoc]
  simp [takeNumeral, hsign, htakeWhole, htakeFraction, htakeExponent, bind, Except.bind]

/-- The digits of a count are read as the count. -/
theorem readCount_append {before whole : List Char} (hbefore : Blanks before) (h : WholeText whole)
    (hvalue : Numeral.digitsValue whole < UInt64.size) (hrest : Ends isNumberChar rest) :
    readCount (before ++ (whole ++ rest)) =
      .ok (UInt64.ofNat (Numeral.digitsValue whole), rest) := by
  have hparts : NumberText (signText false ++ whole ++ [] ++ []) ⟨false, whole, none, none⟩ :=
    .parts h .absent .absent
  have htext : NumberText whole ⟨false, whole, none, none⟩ := by
    simpa [signText] using hparts
  have hnumeral := takeNumeral_append .endOfText htext hrest
  have hnumber : takeNumber (whole ++ rest) = .ok (⟨false, whole, none, none⟩, rest) := by
    simp [takeNumber, hnumeral, Numeral.isTooLarge_whole false hvalue, bind, Except.bind]
  have hcount : count? ⟨false, whole, none, none⟩ =
      some (UInt64.ofNat (Numeral.digitsValue whole)) := by
    simp [count?, hvalue]
  obtain ⟨d, ds, rfl, hd⟩ := h.1.exists_cons
  have hbegins : beginsNumber d = true := by simp [beginsNumber, hd]
  have hblank : isBlank d = false := by simp [isBlank, ne_of_number (.inr hd)]
  unfold readCount
  rw [List.cons_append] at hnumber ⊢
  rw [skipBlanks_append hbefore (ends_cons hblank _)]
  dsimp only
  rw [if_pos hbegins]
  simp [hnumber, hcount, bind, Except.bind]

end numbers

/-! ## Words -/

section words

variable {before rest : List Char}

theorem takeLetters_append (letters rest : List Char) :
    takeLetters letters (letters ++ rest) = .ok rest := by
  induction letters with
  | nil => rfl
  | cons c letters ih => rw [List.cons_append, takeLetters, if_pos rfl, ih]

/-- A text setting is read behind blanks, in front of any rest. -/
theorem readText_append {t : List Char} {text : String} (hbefore : Blanks before)
    (h : StringText t text) (rest : List Char) :
    readText (before ++ (t ++ rest)) = .ok (text, rest) := by
  obtain ⟨u, rfl⟩ := h.exists_cons
  unfold readText
  rw [List.cons_append, skipBlanks_append hbefore (ends_cons (by decide) _)]
  exact takeString_append h rest

/-- A text setting that may be missing is read if it is there. -/
theorem readOptionalText_text {t : List Char} {text : String} (hbefore : Blanks before)
    (h : StringText t text) (rest : List Char) :
    readOptionalText (before ++ (t ++ rest)) = .ok (some text, rest) := by
  have hread := readText_append blanks_nil h rest
  obtain ⟨u, rfl⟩ := h.exists_cons
  unfold readOptionalText
  rw [List.cons_append, skipBlanks_append hbefore (ends_cons (by decide) _)]
  exact bind_eq_ok_iff.mpr ⟨_, hread, rfl⟩

theorem readOptionalText_null (hbefore : Blanks before) (rest : List Char) :
    readOptionalText (before ++ ('n' :: ("ull".toList ++ rest))) = .ok (none, rest) := by
  unfold readOptionalText
  rw [skipBlanks_append hbefore (ends_cons (by decide) _)]
  exact bind_eq_ok_iff.mpr ⟨_, takeLetters_append "ull".toList rest, rfl⟩

theorem readFlag_true (hbefore : Blanks before) (rest : List Char) :
    readFlag (before ++ ('t' :: ("rue".toList ++ rest))) = .ok (true, rest) := by
  unfold readFlag
  rw [skipBlanks_append hbefore (ends_cons (by decide) _)]
  exact bind_eq_ok_iff.mpr ⟨_, takeLetters_append _ rest, rfl⟩

theorem readFlag_false (hbefore : Blanks before) (rest : List Char) :
    readFlag (before ++ ('f' :: ("alse".toList ++ rest))) = .ok (false, rest) := by
  unfold readFlag
  rw [skipBlanks_append hbefore (ends_cons (by decide) _)]
  exact bind_eq_ok_iff.mpr ⟨_, takeLetters_append _ rest, rfl⟩

end words
end Settings
end ContractDraft
