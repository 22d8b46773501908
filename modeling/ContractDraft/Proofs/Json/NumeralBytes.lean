import ContractDraft.Proofs.Json.Numeral
import ContractDraft.Proofs.Text.Utf8
import Mathlib.Algebra.Ring.Int.Defs
import Mathlib.Data.Option.Basic

/-!
# Number literals checked by their bytes

A second check of number literals, which keeps the bytes of a text as a whole and goes over them with
an index. It may look for a byte behind the last one and then finds none; only the first byte of the
whole part is taken as it is, so the check has no answer if that byte is not there
(`NumeralBytes.answer?`). A digit and the signs of a literal are single bytes that are part of no
other character, so the index stands in front of the same characters as the reader of the parts of a
literal does (`NumeralBytes.At`). Hence the check always has an answer, and it is that of the reader
(`answer?_utf8`).
-/

namespace ContractDraft

namespace NumeralBytes

open Text Numeral

/-! ## The check -/

/-- Why a check ends before all parts of a literal are found. -/
inductive Stop where
  /-- The bytes are no literal. -/
  | malformed
  /-- A byte was taken that is not there. -/
  | outOfRange

def isDigitByte (b : UInt8) : Bool := '0'.toNat.toUInt8 ≤ b && b ≤ '9'.toNat.toUInt8

/-- A byte that has some property is there. -/
theorem lt_length_of_any {bytes : List UInt8} {p : UInt8 → Bool} {i : ℕ}
    (h : (bytes[i]?).any p = true) : i < bytes.length := by
  by_contra hlength
  rw [List.getElem?_eq_none (Nat.le_of_not_lt hlength)] at h
  cases h

section check

variable (bytes : List UInt8)

/-- The byte at an index, which must be there. -/
def byteAt (i : ℕ) : Except Stop UInt8 :=
  match bytes[i]? with
  | some b => .ok b
  | none => .error .outOfRange

/-- Whether there is a byte at the index and it is the ASCII character `c`. -/
def holds (c : Char) (i : ℕ) : Bool := bytes[i]? = some c.toNat.toUInt8

/-- The first index from `i` on where there is no digit. -/
def skipDigits (i : ℕ) : ℕ :=
  if (bytes[i]?).any isDigitByte then skipDigits (i + 1) else i
termination_by bytes.length - i
decreasing_by
  have hlt := lt_length_of_any ‹_›
  omega

/-- Goes over digits, of which there must be one. -/
def digits (start : ℕ) : Except Stop ℕ :=
  let stop := skipDigits bytes start
  if stop = start then .error .malformed else .ok stop

/-- Goes over the whole part, where no digit may follow a zero in front. -/
def whole (start : ℕ) : Except Stop ℕ := do
  let stop ← digits bytes start
  let first ← byteAt bytes start
  if first = '0'.toNat.toUInt8 ∧ 1 < stop - start then .error .malformed else .ok stop

/-- Goes over the fraction, if there is a point. -/
def fraction (start : ℕ) : Except Stop ℕ :=
  if holds bytes '.' start then digits bytes (start + 1) else .ok start

/-- Goes over digits, in front of which there may be a sign. -/
def signedDigits (start : ℕ) : Except Stop ℕ :=
  if holds bytes '+' start || holds bytes '-' start then digits bytes (start + 1)
  else digits bytes start

/-- Goes over the exponent, if there is an `e` or `E`. -/
def exponent (start : ℕ) : Except Stop ℕ :=
  if holds bytes 'e' start || holds bytes 'E' start then signedDigits bytes (start + 1)
  else .ok start

/-- Goes over all parts of a literal. -/
def parts : Except Stop ℕ := do
  let i ← whole bytes (if holds bytes '-' 0 then 1 else 0)
  let i ← fraction bytes i
  exponent bytes i

/-- Whether the bytes are one literal. There is no answer where a byte is taken that is not there. -/
def answer? : Option Bool :=
  match parts bytes with
  | .ok stop => some (stop = bytes.length)
  | .error .malformed => some false
  | .error .outOfRange => none

end check

/-! ## Where the index stands -/

/-- In front of the index are bytes that have been gone over, and behind it those of the text `s`. -/
structure At (bytes : List UInt8) (i : ℕ) (s : List Char) : Prop where
  le : i ≤ bytes.length
  drop : bytes.drop i = utf8 s

section index

variable {bytes : List UInt8} {i : ℕ} {s : List Char} {c : Char}

theorem at_start (s : List Char) : At (utf8 s) 0 s := ⟨Nat.zero_le _, rfl⟩

namespace At

/-- The byte at the index is the first of those that are left. -/
theorem getElem?_eq (h : At bytes i s) : bytes[i]? = (utf8 s).head? := by
  rw [← h.drop, List.head?_drop]

/-- An ASCII character is passed by one step of the index. -/
theorem next (h : At bytes i (c :: s)) (hc : c.toNat < 128) : At bytes (i + 1) s := by
  have hdrop : bytes.drop i = c.toNat.toUInt8 :: utf8 s := by
    rw [h.drop, utf8_cons, utf8EncodeChar_of_lt hc]
    rfl
  have hlt : i < bytes.length := by
    have hlength := congrArg List.length hdrop
    rw [List.length_drop, List.length_cons] at hlength
    omega
  refine ⟨hlt, ?_⟩
  rw [← List.drop_drop, hdrop]
  rfl

/-- ASCII text is passed by as many steps as it has characters. -/
theorem append {t : List Char} (h : At bytes i (t ++ s)) (ht : Ascii t) :
    At bytes (i + t.length) s := by
  induction t generalizing i with
  | nil => exact h
  | cons c t ih =>
    have hrest := ih (h.next (ht c (List.mem_cons_self ..))) ht.of_cons
    rwa [List.length_cons, Nat.add_comm t.length, ← Nat.add_assoc]

/-- All bytes have been gone over if all characters have. -/
theorem eq_length_iff (h : At bytes i s) : i = bytes.length ↔ s = [] := by
  have hlength : bytes.length - i = (utf8 s).length := by rw [← h.drop, List.length_drop]
  have hle := h.le
  constructor
  · intro hend
    have hshort := length_le_length_utf8 s
    exact List.length_eq_zero_iff.mp (by omega)
  · rintro rfl
    have hzero : (utf8 []).length = 0 := rfl
    omega

/-- A byte is there as long as a character is, and it tells which character of ASCII this is. -/
theorem exists_getElem? (h : At bytes i (c :: s)) :
    ∃ b, bytes[i]? = some b ∧ ∀ d : Char, d.toNat < 128 → (b = d.toNat.toUInt8 ↔ c = d) := by
  obtain ⟨b, hb, hbyte⟩ := exists_head?_utf8 c s
  refine ⟨b, h.getElem?_eq.trans hb, fun d hd => ?_⟩
  have hascii := toNat_toUInt8 hd
  rw [← UInt8.toNat_inj, ← Char.toNat_inj]
  omega

/-- The check for an ASCII character goes by the next character. -/
theorem holds_iff (h : At bytes i s) {d : Char} (hd : d.toNat < 128) :
    holds bytes d i = true ↔ s.head? = some d := by
  rw [holds, decide_eq_true_iff]
  cases s with
  | nil => simp [h.getElem?_eq, utf8]
  | cons c s =>
    obtain ⟨b, hb, hbyte⟩ := h.exists_getElem?
    rw [hb, List.head?_cons, Option.some.injEq, Option.some.injEq, hbyte d hd]

theorem holds_eq_false (h : At bytes i s) {d : Char} (hd : d.toNat < 128)
    (hne : ∀ rest, s ≠ d :: rest) : holds bytes d i = false := by
  rw [← Bool.not_eq_true, h.holds_iff hd, List.head?_eq_some_iff]
  exact not_exists.mpr hne

/-- A digit is seen at the index if the next character is one. -/
theorem any_isDigitByte (h : At bytes i s) :
    (bytes[i]?).any isDigitByte = s.head?.any Char.isDigit := by
  rw [h.getElem?_eq]
  cases s with
  | nil => rfl
  | cons c s =>
    obtain ⟨b, hb, hbyte⟩ := exists_head?_utf8 c s
    rw [hb, List.head?_cons, Option.any_some, Option.any_some, Bool.eq_iff_iff,
      Char.isDigit_iff_toNat, isDigitByte, Bool.and_eq_true, decide_eq_true_iff, decide_eq_true_iff,
      UInt8.le_iff_toNat_le, UInt8.le_iff_toNat_le]
    have hzero : '0'.toNat.toUInt8.toNat = '0'.toNat := rfl
    have hnine : '9'.toNat.toUInt8.toNat = '9'.toNat := rfl
    have hsmall : '9'.toNat < 128 := by decide
    omega

/-- The loop over digits ends behind the longest run of them. -/
theorem skipDigits_eq (h : At bytes i s) :
    skipDigits bytes i = i + (s.takeWhile Char.isDigit).length := by
  have hdigit := h.any_isDigitByte
  induction s generalizing i with
  | nil =>
    rw [skipDigits, if_neg (by simp [hdigit])]
    rfl
  | cons c s ih =>
    by_cases hc : c.isDigit = true
    · have hnext := h.next (lt_of_isDigit hc)
      rw [skipDigits, if_pos (by simpa [hdigit] using hc), ih hnext hnext.any_isDigitByte,
        List.takeWhile_cons_of_pos hc, List.length_cons]
      omega
    · rw [skipDigits, if_neg (by simpa [hdigit] using hc), List.takeWhile_cons_of_neg hc]
      rfl

/-- Where no digit stands the check fails. -/
theorem digits_of_none (h : At bytes i s) (hs : someDigits? s = none) :
    digits bytes i = .error .malformed := by
  unfold someDigits? at hs
  split at hs
  · rename_i hrun
    rw [digits, h.skipDigits_eq, hrun]
    exact if_pos rfl
  · cases hs

/-- Digits are passed as one run. -/
theorem digits_of_some {ds rest : List Char} (h : At bytes i s)
    (hs : someDigits? s = some (ds, rest)) :
    digits bytes i = .ok (i + ds.length) ∧ At bytes (i + ds.length) rest := by
  obtain ⟨rfl, hdigits, hends⟩ := someDigits?_eq_some_iff.mp hs
  obtain ⟨hrun, -⟩ := span_append hdigits.2 hends
  have hpos := List.length_pos_iff.mpr hdigits.1
  refine ⟨?_, h.append fun c hc => lt_of_isDigit (hdigits.2 c hc)⟩
  rw [digits, h.skipDigits_eq, hrun]
  exact if_neg (by omega)

/-- Only behind a digit is a byte taken as it is, and this byte is the digit. -/
theorem whole_of_some {d : Char} {ds rest : List Char} (h : At bytes i s)
    (hs : someDigits? s = some (d :: ds, rest)) :
    whole bytes i =
      if d = '0' ∧ ds ≠ [] then .error .malformed else .ok (i + (d :: ds).length) := by
  obtain ⟨hdigits, -⟩ := h.digits_of_some hs
  obtain ⟨rfl, -, -⟩ := someDigits?_eq_some_iff.mp hs
  obtain ⟨b, hb, hbyte⟩ := h.exists_getElem?
  have hwhole : whole bytes i =
      if b = '0'.toNat.toUInt8 ∧ 1 < i + (d :: ds).length - i then .error .malformed
      else .ok (i + (d :: ds).length) := by
    rw [whole, hdigits]
    show (byteAt bytes i >>= _) = _
    rw [byteAt, hb]
    rfl
  have hlong : 1 < i + (d :: ds).length - i ↔ ds ≠ [] := by
    rw [Nat.add_sub_cancel_left, List.length_cons, ← List.length_pos_iff]
    omega
  simp only [hwhole, hlong, hbyte '0' (by decide)]

end At

end index

/-! ## The parts of a literal -/

/-- The check and the reader of a part fail together, or both come to the same place. -/
inductive Tracks {α : Type} (bytes : List UInt8) :
    Except Stop ℕ → Option (α × List Char) → Prop where
  | malformed : Tracks bytes (.error .malformed) none
  | reached {i : ℕ} {a : α} {s : List Char} : At bytes i s → Tracks bytes (.ok i) (some (a, s))

section parts

variable {bytes : List UInt8} {i : ℕ} {s : List Char}

/-- Parts that keep in step one after the other keep in step together. -/
theorem Tracks.bind {α β : Type} {x : Except Stop ℕ} {y : Option (α × List Char)}
    {f : ℕ → Except Stop ℕ} {g : α × List Char → Option (β × List Char)} (h : Tracks bytes x y)
    (hfg : ∀ i a rest, At bytes i rest → Tracks bytes (f i) (g (a, rest))) :
    Tracks bytes (x >>= f) (y >>= g) := by
  cases h with
  | malformed => exact .malformed
  | reached h => exact hfg _ _ _ h

/-- What is made of a part does not matter for the index. -/
theorem Tracks.map {α β : Type} {x : Except Stop ℕ} {y : Option (α × List Char)}
    (h : Tracks bytes x y) (f : α → β) : Tracks bytes x (y.map fun (a, rest) => (f a, rest)) := by
  cases h with
  | malformed => exact .malformed
  | reached h => exact .reached h

/-- Runs of digits keep in step. -/
theorem tracks_digits {α : Type} (h : At bytes i s) (f : List Char → α) :
    Tracks bytes (digits bytes i) ((someDigits? s).map fun (ds, rest) => (f ds, rest)) := by
  cases hs : someDigits? s with
  | none =>
    rw [h.digits_of_none hs]
    exact .malformed
  | some p =>
    obtain ⟨hdigits, hat⟩ := h.digits_of_some hs
    rw [hdigits]
    exact .reached hat

/-- A digit behind a zero in front is refused at once, and the reader takes the zero and leaves the
digit. -/
theorem tracks_whole (h : At bytes i s) :
    Tracks bytes (whole bytes i) (whole? s) ∨
      whole bytes i = .error .malformed ∧ ∃ d rest, s = '0' :: d :: rest ∧ d.isDigit = true := by
  cases hs : someDigits? s with
  | none =>
    have hnone : whole? s = none := by
      unfold whole?
      split
      · simp [someDigits?] at hs
      · exact hs
    rw [whole, h.digits_of_none hs, hnone]
    exact .inl .malformed
  | some p =>
    obtain ⟨digits, rest⟩ := p
    obtain ⟨-, hat⟩ := h.digits_of_some hs
    obtain ⟨rfl, hdigits, hends⟩ := someDigits?_eq_some_iff.mp hs
    obtain ⟨d, ds, rfl, -⟩ := hdigits.exists_cons
    rw [h.whole_of_some hs]
    by_cases hzeros : d = '0' ∧ ds ≠ []
    · rw [if_pos hzeros]
      obtain ⟨rfl, hne⟩ := hzeros
      obtain ⟨e, es, rfl⟩ := List.exists_cons_of_ne_nil hne
      exact .inr ⟨rfl, e, es ++ rest, rfl, hdigits.2 e (by simp)⟩
    · have hwhole : WholeText (d :: ds) := by
        refine ⟨hdigits, fun hhead => ?_⟩
        obtain rfl : d = '0' := Option.some.inj hhead
        rw [not_not.mp fun hne => hzeros ⟨rfl, hne⟩]
      rw [if_neg hzeros, whole?_append hwhole hends]
      exact .inl (.reached hat)

/-- Fractions keep in step. -/
theorem tracks_fraction (h : At bytes i s) :
    Tracks bytes (fraction bytes i) (fraction? s) := by
  unfold fraction?
  split
  · rw [fraction, if_pos ((h.holds_iff (by decide)).mpr rfl)]
    exact tracks_digits (h.next (by decide)) some
  · rename_i hne
    rw [fraction, h.holds_eq_false (by decide) hne]
    exact .reached h

theorem tracks_signedDigits (h : At bytes i s) :
    Tracks bytes (signedDigits bytes i) (signedDigits? s) := by
  unfold signedDigits?
  split
  · have hplus : holds bytes '+' i = true := (h.holds_iff (by decide)).mpr rfl
    rw [signedDigits, hplus, Bool.true_or]
    exact tracks_digits (h.next (by decide)) fun ds => (digitsValue ds : ℤ)
  · have hminus : holds bytes '-' i = true := (h.holds_iff (by decide)).mpr rfl
    rw [signedDigits, hminus, Bool.or_true]
    exact tracks_digits (h.next (by decide)) fun ds => -(digitsValue ds : ℤ)
  · rename_i hneplus hneminus
    rw [signedDigits, h.holds_eq_false (by decide) hneplus, h.holds_eq_false (by decide) hneminus]
    exact tracks_digits h fun ds => (digitsValue ds : ℤ)

/-- Exponents keep in step. -/
theorem tracks_exponent (h : At bytes i s) : Tracks bytes (exponent bytes i) (exponent? s) := by
  have hlower := h.holds_iff (d := 'e') (by decide)
  have hupper := h.holds_iff (d := 'E') (by decide)
  have hletter : (holds bytes 'e' i || holds bytes 'E' i) = true ↔
      s.head? = some 'e' ∨ s.head? = some 'E' := by
    rw [Bool.or_eq_true, hlower, hupper]
  unfold exponent?
  split
  · rw [exponent, if_neg (by simp [hletter])]
    exact .reached h
  · rename_i c rest
    by_cases hc : c = 'e' ∨ c = 'E'
    · have hascii : c.toNat < 128 := by rcases hc with rfl | rfl <;> decide
      rw [exponent, if_pos (by simpa [hletter] using hc), if_pos hc]
      exact (tracks_signedDigits (h.next hascii)).map some
    · rw [exponent, if_neg (by simpa [hletter] using hc), if_neg hc]
      exact .reached h

end parts

/-! ## The whole literal -/

/-- The index starts behind the sign. -/
theorem at_sign (s : List Char) :
    At (utf8 s) (if holds (utf8 s) '-' 0 then 1 else 0) (sign s).2 := by
  have hstart := at_start s
  rcases s with _ | ⟨c, rest⟩
  · exact hstart
  · by_cases hc : c = '-'
    · subst hc
      rw [(hstart.holds_iff (by decide)).mpr rfl]
      exact hstart.next (by decide)
    · have hsign : sign (c :: rest) = (false, c :: rest) := by simp [sign, hc]
      rw [hstart.holds_eq_false (by decide) (by simpa using hc), hsign]
      exact hstart

/-- The parts that a text begins with, and what stands behind them. -/
def readParts? (s : List Char) : Option (Numeral × List Char) :=
  whole? (sign s).2 >>= fun (whole, rest) =>
    fraction? rest >>= fun (fraction, rest) =>
      (exponent? rest).map fun (exponent, rest) => (⟨(sign s).1, whole, fraction, exponent⟩, rest)

/-- A literal is its parts with nothing behind them. -/
theorem ofLiteral?_eq (s : List Char) :
    ofLiteral? s = (readParts? s).bind fun (n, rest) => if rest.isEmpty then some n else none := by
  simp [ofLiteral?, readParts?, Option.bind_assoc, Option.bind_map]

/-- Where a digit follows a zero in front, there are no further parts and the text is not at its
end. -/
theorem isSome_ofLiteral?_of_zero {d : Char} {rest : List Char} {s : List Char}
    (h : (sign s).2 = '0' :: d :: rest) (hd : d.isDigit = true) : (ofLiteral? s).isSome = false := by
  have hpoint : d ≠ '.' := by rintro rfl; simp at hd
  have hletter : ¬ (d = 'e' ∨ d = 'E') := by rintro (rfl | rfl) <;> simp at hd
  have hfraction : fraction? (d :: rest) = some (none, d :: rest) := by simp [fraction?, hpoint]
  have hexponent : exponent? (d :: rest) = some (none, d :: rest) := by simp [exponent?, hletter]
  simp [ofLiteral?, h, whole?, hfraction, hexponent]

/-- The check says yes if its end is the end of the bytes. -/
theorem Tracks.answer?_eq {α : Type} {bytes : List UInt8} {y : Option (α × List Char)}
    (h : Tracks bytes (parts bytes) y) :
    answer? bytes = some (y.any fun (_, rest) => rest.isEmpty) := by
  unfold answer?
  generalize parts bytes = x at h
  cases h with
  | malformed => rfl
  | reached h =>
    rw [Option.any_some, Option.some.injEq, Bool.eq_iff_iff, decide_eq_true_iff, h.eq_length_iff]
    exact List.isEmpty_iff.symm

/-- The check has an answer for every text, and it is yes if the reader finds the parts of a
literal. -/
theorem answer?_utf8 (s : List Char) : answer? (utf8 s) = some (ofLiteral? s).isSome := by
  rcases tracks_whole (at_sign s) with hwhole | ⟨hwhole, d, rest, hrest, hd⟩
  · have hparts : Tracks (utf8 s) (parts (utf8 s)) (readParts? s) :=
      hwhole.bind fun _ whole _ hat => (tracks_fraction hat).bind fun _ fraction _ hat =>
        (tracks_exponent hat).map (Numeral.mk (sign s).1 whole fraction)
    rw [hparts.answer?_eq, ofLiteral?_eq]
    rcases readParts? s with _ | ⟨n, _ | ⟨c, rest⟩⟩ <;> rfl
  · rw [isSome_ofLiteral?_of_zero hrest hd, answer?, parts, hwhole]
    rfl

end NumeralBytes

/-! ## Reading a literal -/

/-- The whole number that a literal writes in front of its fraction and its exponent. -/
def Numeral.wholeValue (n : Numeral) : ℤ :=
  if n.negative then -(digitsValue n.whole : ℤ) else digitsValue n.whole

/-- Only a whole number within range means an integer. -/
theorem Numeral.value_eq_integer_iff {n : Numeral} {i : Int64} :
    n.value = .integer i ↔ n.fraction = none ∧ n.exponent = none ∧ i.toInt = n.wholeValue := by
  rw [← numberMeaning_iff]
  constructor
  · rintro (hinteger | _)
    exact hinteger
  · exact .integer

/-- The integers that are read are those of 64 bits. -/
theorem Numeral.exists_integer_iff {n : Numeral} {k : ℤ} :
    (∃ i : Int64, n.value = .integer i ∧ i.toInt = k) ↔
      n.fraction = none ∧ n.exponent = none ∧ k = n.wholeValue ∧ -2 ^ 63 ≤ k ∧ k < 2 ^ 63 := by
  constructor
  · rintro ⟨i, hvalue, rfl⟩
    obtain ⟨hfraction, hexponent, hwhole⟩ := value_eq_integer_iff.mp hvalue
    exact ⟨hfraction, hexponent, hwhole, i.le_toInt, i.toInt_lt⟩
  · rintro ⟨hfraction, hexponent, rfl, hlow, hhigh⟩
    have hfits : (Int64.ofInt n.wholeValue).toInt = n.wholeValue :=
      Int64.toInt_ofInt_of_le hlow hhigh
    exact ⟨_, value_eq_integer_iff.mpr ⟨hfraction, hexponent, hfits⟩, hfits⟩

/-- The literals are the texts of the grammar, and the check of their bytes takes no byte that is not
there. A run of number characters that is a literal is always read, as an integer if it has neither
fraction nor exponent and its value fits 64 bits, and as a binary64 number otherwise. -/
theorem readNumber_literal (s : String) :
    NumeralBytes.answer? (Text.utf8 s.toList) = some (Numeral.ofLiteral? s.toList).isSome ∧
      ((Numeral.ofLiteral? s.toList).isSome = true ↔ ∃ n, NumberText s.toList n) ∧
      ∀ n t, NumberText s.toList n → t.takeWhile isNumberChar = s.toList →
        ∃ v, readNumber t = .ok (v, t.dropWhile isNumberChar) ∧
          ((∃ i, v = .integer i) ∨ v = .decimal n.toBinary64) ∧
          ∀ k : ℤ, (∃ i : Int64, v = .integer i ∧ i.toInt = k) ↔
            n.fraction = none ∧ n.exponent = none ∧ k = n.wholeValue ∧ -2 ^ 63 ≤ k ∧ k < 2 ^ 63 := by
  refine ⟨NumeralBytes.answer?_utf8 s.toList, ?_, fun n t hliteral hrun => ?_⟩
  · simp only [Option.isSome_iff_exists, Numeral.ofLiteral?_eq_some_iff]
  · have hmeaning : NumberMeaning n n.value := Numeral.numberMeaning_iff.mpr rfl
    have hread := readNumber_append hliteral hmeaning (ends_dropWhile isNumberChar t)
    rw [← hrun, List.takeWhile_append_dropWhile] at hread
    refine ⟨n.value, hread, ?_, fun k => Numeral.exists_integer_iff⟩
    generalize n.value = v at hmeaning
    cases hmeaning with
    | integer _ => exact .inl ⟨_, rfl⟩
    | decimal _ => exact .inr rfl

/-- The least number of 64 bits is an integer, and the same literal without its sign is not. -/
theorem readNumber_literal_bounds :
    (∃ v, readNumber "-9223372036854775808]".toList = .ok (v, [']']) ∧
      ∃ i : Int64, v = .integer i ∧ i.toInt = -2 ^ 63) ∧
    ∃ v, readNumber "9223372036854775808]".toList = .ok (v, [']']) ∧ ¬ ∃ i, v = .integer i := by
  have hleast : NumberText "-9223372036854775808".toList
      ⟨true, "9223372036854775808".toList, none, none⟩ :=
    Numeral.ofLiteral?_eq_some_iff.mp (by rfl)
  have habove : NumberText "9223372036854775808".toList
      ⟨false, "9223372036854775808".toList, none, none⟩ :=
    Numeral.ofLiteral?_eq_some_iff.mp (by rfl)
  obtain ⟨v, hv, -, hinteger⟩ := (readNumber_literal "-9223372036854775808").2.2 _
    "-9223372036854775808]".toList hleast (by rfl)
  obtain ⟨w, hw, -, hnone⟩ := (readNumber_literal "9223372036854775808").2.2 _
    "9223372036854775808]".toList habove (by rfl)
  refine ⟨⟨v, hv, (hinteger _).mpr ⟨rfl, rfl, by rfl, by decide, by decide⟩⟩, w, hw, ?_⟩
  rintro ⟨i, hi⟩
  obtain ⟨-, -, hvalue, -, hhigh⟩ := (hnone i.toInt).mp ⟨i, hi, rfl⟩
  rw [hvalue] at hhigh
  exact absurd hhigh (by decide)

end ContractDraft
