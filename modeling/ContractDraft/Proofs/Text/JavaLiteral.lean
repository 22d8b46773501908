import ContractDraft.Proofs.Json.Printer

/-!
# String literals in Java

What a Java compiler makes of a string literal. It translates Unicode escapes first, all over the
text, into the code units of UTF-16 (`translate`); a backslash behind an odd number of backslashes
begins none. Then it reads the escapes of string literals (`literalUnits`). The literal that is
written for a string denotes that string and no other (`denotes_quote_iff`).
-/

namespace ContractDraft.Text

/-! ## Code units -/

/-- The code units of a character in UTF-16. -/
def unitsOf (c : Char) : List ℕ :=
  if c.toNat < 0x10000 then [c.toNat]
  else [0xD800 + (c.toNat - 0x10000) / 0x400, 0xDC00 + (c.toNat - 0x10000) % 0x400]

/-- The code units of a text. -/
def codeUnits (s : List Char) : List ℕ := s.flatMap unitsOf

theorem codeUnits_cons (c : Char) (s : List Char) : codeUnits (c :: s) = unitsOf c ++ codeUnits s :=
  List.flatMap_cons

theorem unitsOf_of_lt {c : Char} (h : c.toNat < 0x10000) : unitsOf c = [c.toNat] := if_pos h

/-- A character outside the basic plane begins with a high surrogate, which no character is. -/
theorem unitsOf_append_inj {c d : Char} {s t : List ℕ} (h : unitsOf c ++ s = unitsOf d ++ t) :
    c = d ∧ s = t := by
  have hc : c.toNat.isValidChar := c.valid
  have hd : d.toNat.isValidChar := d.valid
  unfold Nat.isValidChar at hc hd
  rw [← Char.toNat_inj]
  unfold unitsOf at h
  split_ifs at h
  · simp only [List.cons_append, List.nil_append, List.cons.injEq] at h
    exact h
  · simp only [List.cons_append, List.nil_append, List.cons.injEq] at h
    omega
  · simp only [List.cons_append, List.nil_append, List.cons.injEq] at h
    omega
  · simp only [List.cons_append, List.nil_append, List.cons.injEq] at h
    exact ⟨by omega, h.2.2⟩

/-- A text is settled by its code units. -/
theorem codeUnits_inj {s t : List Char} (h : codeUnits s = codeUnits t) : s = t := by
  have hne (c : Char) (rest : List ℕ) : unitsOf c ++ rest ≠ [] := by
    unfold unitsOf
    split <;> simp
  induction s generalizing t with
  | nil =>
    cases t with
    | nil => rfl
    | cons d t => exact absurd (h.symm.trans rfl) (codeUnits_cons d t ▸ hne d _)
  | cons c s ih =>
    cases t with
    | nil => exact absurd (h.trans rfl) (codeUnits_cons c s ▸ hne c _)
    | cons d t =>
      rw [codeUnits_cons, codeUnits_cons] at h
      obtain ⟨rfl, hrest⟩ := unitsOf_append_inj h
      rw [ih hrest]

/-! ## Unicode escapes -/

/-- The unit that a Unicode escape stands for, and how many characters it has behind its backslash:
markers, at least one of them, and four hexadecimal digits. -/
def unicodeEscape? (s : List Char) : Option (ℕ × ℕ) :=
  match s.dropWhile (· = 'u') with
  | a :: b :: c :: d :: rest => do
    let w ← hexValue? a
    let x ← hexValue? b
    let y ← hexValue? c
    let z ← hexValue? d
    return (((w * 16 + x) * 16 + y) * 16 + z, s.length - rest.length)
  | _ => none

/-- The code units of program text in which Unicode escapes are translated. A backslash begins one
only behind an even number of backslashes, so two backslashes are passed together. The first `taken`
characters belong to what has been translated before. -/
def translate : ℕ → List Char → Option (List ℕ)
  | _, [] => some []
  | taken + 1, _ :: rest => translate taken rest
  | 0, '\\' :: 'u' :: rest =>
    (unicodeEscape? ('u' :: rest)).bind fun (unit, taken) =>
      (translate taken ('u' :: rest)).map (unit :: ·)
  | 0, '\\' :: c :: rest => (translate 1 (c :: rest)).map (['\\'.toNat] ++ unitsOf c ++ ·)
  | 0, c :: rest => (translate 0 rest).map (unitsOf c ++ ·)

theorem translate_plain {c : Char} (h : c ≠ '\\') (rest : List Char) :
    translate 0 (c :: rest) = (translate 0 rest).map (unitsOf c ++ ·) := by
  rw [translate]
  · exact fun rest heq => absurd heq h
  · exact fun d rest heq => absurd heq h

theorem translate_backslash {c : Char} (h : c ≠ 'u') (rest : List Char) :
    translate 0 ('\\' :: c :: rest) = (translate 0 rest).map (['\\'.toNat] ++ unitsOf c ++ ·) := by
  rw [translate, translate]
  exact h

theorem translate_unicodeEscape {s : List Char} {unit taken : ℕ}
    (h : unicodeEscape? ('u' :: s) = some (unit, taken)) :
    translate 0 ('\\' :: 'u' :: s) = (translate taken ('u' :: s)).map (unit :: ·) := by
  rw [translate, h]
  rfl

/-! ## Escapes of string literals -/

/-- The letters of escapes in string literals, and the characters they stand for. -/
def literalEscapes : List (Char × Char) :=
  [('b', '\x08'), ('s', ' '), ('t', '\t'), ('n', '\n'), ('f', '\x0c'), ('r', '\r'), ('"', '"'),
    ('\x27', '\x27'), ('\\', '\\')]

/-- The unit that an escape of a string literal stands for, and how many units it has behind its
backslash. An octal escape has as many digits as there are, but at most three, and three only if the
first is at most three. -/
def literalEscape? : List ℕ → Option (ℕ × ℕ)
  | [] => none
  | u :: rest =>
    match literalEscapes.find? fun e => e.1.toNat = u with
    | some e => some (e.2.toNat, 1)
    | none =>
      let longest := if u ≤ '3'.toNat then 3 else 2
      let digits := ((u :: rest).take longest).takeWhile fun d => '0'.toNat ≤ d && d ≤ '7'.toNat
      if digits.isEmpty then none
      else some (digits.foldl (fun n d => n * 8 + (d - '0'.toNat)) 0, digits.length)

/-- The units that a string literal denotes, from behind its first quote on. Its second quote ends
the text, and no line ends in front of it. The first `taken` units belong to what has been read
before. -/
def literalUnits : ℕ → List ℕ → Option (List ℕ)
  | _, [] => none
  | taken + 1, _ :: rest => literalUnits taken rest
  | 0, u :: rest =>
    if u = '"'.toNat then if rest.isEmpty then some [] else none
    else if u = '\n'.toNat ∨ u = '\r'.toNat then none
    else if u = '\\'.toNat then
      (literalEscape? rest).bind fun (unit, taken) => (literalUnits taken rest).map (unit :: ·)
    else (literalUnits 0 rest).map (u :: ·)

/-- The units that the text of a string literal denotes. -/
def denotedUnits? (text : List Char) : Option (List ℕ) :=
  match translate 0 text with
  | some (u :: rest) => if u = '"'.toNat then literalUnits 0 rest else none
  | _ => none

/-- The text is a string literal, and it denotes the string `s`. -/
def Denotes (text s : String) : Prop := denotedUnits? text.toList = some (codeUnits s.toList)

/-! ## Written characters -/

/-- What one written character contributes to a literal, in both passes: `units` in the first one,
and the units of the character itself in the second one. -/
structure Contributes (written : List Char) (units : List ℕ) (c : Char) : Prop where
  translated : ∀ rest,
    translate 0 (written ++ rest) = (translate 0 rest).map (units ++ ·)
  read : ∀ rest, literalUnits 0 (units ++ rest) = (literalUnits 0 rest).map (unitsOf c ++ ·)

theorem contributes_letter {letter c : Char} (h : (letter, c) ∈ literalEscapes) :
    Contributes ['\\', letter] ['\\'.toNat, letter.toNat] c := by
  have hall : ∀ e ∈ literalEscapes, e.1 ≠ 'u' ∧ e.1.toNat < 0x10000 ∧ e.2.toNat < 0x10000 ∧
      literalEscapes.find? (fun f => f.1.toNat = e.1.toNat) = some e := by decide
  obtain ⟨hmarker, hletter, hc, hfind⟩ := hall _ h
  have hquote : '\\'.toNat ≠ '"'.toNat := by decide
  have hbreak : ¬ ('\\'.toNat = '\n'.toNat ∨ '\\'.toNat = '\r'.toNat) := by decide
  constructor
  · intro rest
    rw [List.cons_append, List.singleton_append, translate_backslash hmarker, unitsOf_of_lt hletter]
    rfl
  · intro rest
    show literalUnits 0 ('\\'.toNat :: letter.toNat :: rest) = _
    rw [literalUnits, if_neg hquote, if_neg hbreak, if_pos rfl, literalEscape?, hfind,
      unitsOf_of_lt hc]
    rfl

theorem unicodeEscape?_hexDigits4 {n : ℕ} (h : n < 0x10000) (rest : List Char) :
    unicodeEscape? ('u' :: (hexDigits4 n ++ rest)) = some (n, 5) := by
  have hvalue (k : ℕ) : hexValue? (Nat.digitChar (k % 16)) = some (k % 16) :=
    hexValue?_digitChar (Nat.mod_lt k (by decide))
  have hfirst : Nat.digitChar (n / 4096 % 16) ≠ 'u' := by
    intro hmarker
    have hdigit := hvalue (n / 4096)
    rw [hmarker] at hdigit
    cases hdigit
  have hsum : ((n / 4096 % 16 * 16 + n / 256 % 16) * 16 + n / 16 % 16) * 16 + n % 16 = n := by omega
  have hdrop : ('u' :: (hexDigits4 n ++ rest)).dropWhile (· = 'u') = hexDigits4 n ++ rest := by
    simp [hexDigits4, hfirst]
  rw [unicodeEscape?, hdrop]
  simp only [hexDigits4, List.map_cons, List.map_nil, List.cons_append, List.nil_append, hvalue,
    Option.bind_eq_bind, Option.bind_some, hsum, List.length_cons]
  congr
  omega

/-- The number of a control character is no sign of a literal. -/
theorem contributes_control {c : Char} (hcontrol : c.toNat < 0x20)
    (hshort : c ∉ shortEscapes.map (·.2)) :
    Contributes ('\\' :: 'u' :: hexDigits4 c.toNat) [c.toNat] c := by
  have hvalues : '"'.toNat = 34 ∧ '\\'.toNat = 92 := by decide
  constructor
  · intro rest
    show translate 0 ('\\' :: 'u' :: (hexDigits4 c.toNat ++ rest)) = _
    rw [translate_unicodeEscape (unicodeEscape?_hexDigits4 (by omega) rest)]
    rfl
  · intro rest
    have hbreak : ¬ (c.toNat = '\n'.toNat ∨ c.toNat = '\r'.toNat) := by
      rw [Char.toNat_inj, Char.toNat_inj]
      rintro (rfl | rfl)
      · exact hshort (by decide)
      · exact hshort (by decide)
    show literalUnits 0 (c.toNat :: rest) = _
    rw [literalUnits, if_neg (by omega), if_neg hbreak, if_neg (by omega), unitsOf_of_lt (by omega)]
    rfl

/-- Units that are no signs of a literal stand for themselves. -/
theorem literalUnits_append {units : List ℕ}
    (h : ∀ u ∈ units, u ≠ '"'.toNat ∧ u ≠ '\n'.toNat ∧ u ≠ '\r'.toNat ∧ u ≠ '\\'.toNat)
    (rest : List ℕ) : literalUnits 0 (units ++ rest) = (literalUnits 0 rest).map (units ++ ·) := by
  induction units with
  | nil => simp
  | cons u units ih =>
    obtain ⟨⟨hquote, hline, hreturn, hback⟩, hunits⟩ := List.forall_mem_cons.mp h
    rw [List.cons_append, literalUnits, if_neg hquote, if_neg (not_or.mpr ⟨hline, hreturn⟩),
      if_neg hback, ih hunits, Option.map_map]
    rfl

/-- A character that is written as itself is no sign of a literal, and neither are its units. -/
theorem contributes_plain {c : Char} (hquote : c ≠ '"') (hback : c ≠ '\\')
    (hle : 0x20 ≤ c.toNat) : Contributes [c] (unitsOf c) c := by
  have hvalues : '"'.toNat = 34 ∧ '\n'.toNat = 10 ∧ '\r'.toNat = 13 ∧ '\\'.toNat = 92 := by decide
  constructor
  · exact translate_plain hback
  · refine literalUnits_append fun u hu => ?_
    have hquote : c.toNat ≠ '"'.toNat := Char.toNat_inj.not.mpr hquote
    have hback : c.toNat ≠ '\\'.toNat := Char.toNat_inj.not.mpr hback
    unfold unitsOf at hu
    split at hu
    · simp only [List.mem_singleton] at hu
      omega
    · simp only [List.mem_cons, List.not_mem_nil, or_false] at hu
      omega

/-- Whatever character is written, the two passes make the character of it. -/
theorem exists_contributes_escapeChar (c : Char) :
    ∃ units, Contributes (escapeChar c) units c := by
  rcases escapeChar_cases c with ⟨letter, hslash, hmem, h⟩ | ⟨hshort, hcontrol, h⟩ |
    ⟨hquote, hback, hle, h⟩
  · have hall : ∀ e ∈ shortEscapes, e.1 ≠ '/' → e ∈ literalEscapes := by decide
    exact ⟨_, h ▸ contributes_letter (hall _ hmem hslash)⟩
  · exact ⟨_, h ▸ contributes_control hcontrol hshort⟩
  · exact ⟨_, h ▸ contributes_plain hquote hback hle⟩

/-! ## Written texts -/

theorem exists_units_escape (s : List Char) : ∃ units,
    (∀ rest, translate 0 (escape s ++ rest) = (translate 0 rest).map (units ++ ·)) ∧
      ∀ rest, literalUnits 0 (units ++ rest) = (literalUnits 0 rest).map (codeUnits s ++ ·) := by
  induction s with
  | nil => exact ⟨[], by simp [escape], by simp [codeUnits]⟩
  | cons c s ih =>
    obtain ⟨units, htranslate, hread⟩ := ih
    obtain ⟨first, hfirst⟩ := exists_contributes_escapeChar c
    refine ⟨first ++ units, fun rest => ?_, fun rest => ?_⟩
    · have hsplit : escape (c :: s) ++ rest = escapeChar c ++ (escape s ++ rest) := by
        simp [escape]
      rw [hsplit, hfirst.translated, htranslate, Option.map_map]
      simp [Function.comp_def]
    · rw [List.append_assoc, hfirst.read, hread, Option.map_map, codeUnits_cons]
      simp [Function.comp_def]

theorem denotedUnits?_quote (s : String) :
    denotedUnits? (quote s).toList = some (codeUnits s.toList) := by
  obtain ⟨units, htranslate, hread⟩ := exists_units_escape s.toList
  have hquote : translate 0 (quote s).toList = some ('"'.toNat :: (units ++ ['"'.toNat])) := by
    rw [quote, String.toList_ofList, List.cons_append, translate_plain (by decide), htranslate]
    rfl
  rw [denotedUnits?, hquote]
  simp only [if_true]
  rw [hread]
  simp [literalUnits]

/-- The literal that is written for a string denotes this string, and no other one. -/
theorem denotes_quote_iff {s t : String} : Denotes (quote s) t ↔ t = s := by
  rw [Denotes, denotedUnits?_quote, Option.some.injEq]
  constructor
  · intro h
    exact (String.toList_inj.mp (codeUnits_inj h)).symm
  · rintro rfl
    rfl

-- The backslash in front of the letter is the second one of the literal.
example : Denotes "\"\\\\u0041\"" "\\u0041" := by
  unfold Denotes
  decide +kernel

end ContractDraft.Text
