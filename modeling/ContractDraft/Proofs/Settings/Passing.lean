import ContractDraft.Proofs.Settings.Record

/-!
# Values that are passed over

Members that a record type does not know need only be JSON. Which texts that are is said by a
grammar of its own, looser than that of documents since nothing is made of a text: any number may
stand in an escape, also half of a surrogate pair, numbers may be of any size, keys may repeat, and
brackets may nest to any depth. Such a text is passed over as a whole (`skipValue_passes`), so an
unknown member leaves the record as it is (`takes_readMember_of_not_knows`).
-/

namespace ContractDraft

/-! ## The grammar -/

/-- An escape. What it stands for may be no character. -/
inductive LooseEscapeText : List Char → Prop where
  | short {letter c : Char} : (letter, c) ∈ shortEscapes → LooseEscapeText ['\\', letter]
  | unit {s : List Char} {n : ℕ} : UnitText s n → LooseEscapeText s

/-- One character of a string, which stands for itself or is written as an escape. -/
inductive LooseCharText : List Char → Prop where
  | plain {c : Char} : c ≠ '"' → c ≠ '\\' → 0x20 ≤ c.toNat → LooseCharText [c]
  | escape {s : List Char} : LooseEscapeText s → LooseCharText s

/-- The characters of a string. -/
inductive LooseCharsText : List Char → Prop where
  | nil : LooseCharsText []
  | cons {s t : List Char} : LooseCharText s → LooseCharsText t → LooseCharsText (s ++ t)

/-- A string between its quotation marks. -/
inductive LooseStringText : List Char → Prop where
  | quoted {s : List Char} : LooseCharsText s → LooseStringText ('"' :: s ++ ['"'])

/-- A value without brackets. -/
inductive LooseScalarText : List Char → Prop where
  | null : LooseScalarText ['n', 'u', 'l', 'l']
  | true : LooseScalarText ['t', 'r', 'u', 'e']
  | false : LooseScalarText ['f', 'a', 'l', 's', 'e']
  | number {s : List Char} {n : Numeral} : NumberText s n → LooseScalarText s
  | string {s : List Char} : LooseStringText s → LooseScalarText s

section brackets

variable (Item : List Char → Prop)

/-- A key, a colon and a value. -/
inductive LooseFieldText : List Char → Prop where
  | field {s before after t : List Char} : LooseStringText s → Blanks before → Blanks after →
      Item t → LooseFieldText (s ++ before ++ ':' :: (after ++ t))

/-- An array or an object. Members stand for nothing here. -/
inductive LooseBracketText : List Char → Prop where
  | array {s : List Char} {items : List Unit} : EnclosedText (fun t _ => Item t) false s items →
      LooseBracketText ('[' :: s ++ [']'])
  | object {s : List Char} {members : List Unit} :
      EnclosedText (fun t _ => LooseFieldText Item t) false s members →
      LooseBracketText ('{' :: s ++ ['}'])

end brackets

/-- A JSON value whose brackets nest at most `depth` deep. -/
def LooseText : ℕ → List Char → Prop
  | 0, t => LooseScalarText t
  | depth + 1, t => LooseScalarText t ∨ LooseBracketText (LooseText depth) t

theorem LooseStringText.exists_cons {t : List Char} (h : LooseStringText t) :
    ∃ u, t = '"' :: u := by
  cases h with
  | quoted _ => exact ⟨_, rfl⟩

theorem LooseFieldText.opens {Item : List Char → Prop} :
    Opens fun t (_ : Unit) => LooseFieldText Item t := by
  rintro t _ @⟨s, before, after, u, hkey, _, _, _⟩
  cases hkey with
  | quoted _ => exact ⟨_, _, rfl, by decide⟩

/-- A value begins with a character that is neither a blank nor a closing bracket. -/
theorem LooseText.opens (depth : ℕ) : Opens fun t (_ : Unit) => LooseText depth t := by
  have hscalar {t : List Char} (h : LooseScalarText t) :
      ∃ c u, t = c :: u ∧ isBlank c = false ∧ c ≠ ']' ∧ c ≠ '}' := by
    cases h with
    | null => exact ⟨_, _, rfl, by decide⟩
    | true => exact ⟨_, _, rfl, by decide⟩
    | false => exact ⟨_, _, rfl, by decide⟩
    | number hnumber =>
      obtain ⟨c, u, rfl, hc⟩ := exists_cons_of_numberText hnumber
      exact ⟨c, u, rfl, by simp [isBlank, ne_of_number hc]⟩
    | string hstring =>
      obtain ⟨u, rfl⟩ := hstring.exists_cons
      exact ⟨_, _, rfl, by decide⟩
  intro t _ h
  cases depth with
  | zero => exact hscalar h
  | succ depth =>
    rcases h with h | h
    · exact hscalar h
    · cases h <;> exact ⟨_, _, rfl, by decide⟩

namespace Settings

/-- The reader passes over the text, behind any blanks, in a text shorter than `bound`. -/
def Passes (bound : ℕ) (skip : List Char → Except SettingsFault (List Char)) (t : List Char) :
    Prop :=
  ∀ before rest : List Char, Blanks before → Ends isNumberChar rest →
    (before ++ (t ++ rest)).length < bound → skip (before ++ (t ++ rest)) = .ok rest

/-! ## Strings -/

theorem takeEscape_loose {s : List Char} (h : LooseEscapeText s) :
    ∃ u c, s = '\\' :: u ∧ ∀ rest, takeEscape false (u ++ rest) = .ok (c, rest) := by
  cases h with
  | @short letter c h =>
    have hsimple := simpleEscape?_eq_some_iff.mpr h
    have hletter : letter ≠ 'u' := by
      rintro rfl
      cases hsimple
    exact ⟨[letter], c, rfl, fun rest => by simp [takeEscape, hsimple]⟩
  | @unit _ n h =>
    obtain ⟨u, rfl⟩ := h.exists_cons
    refine ⟨'u' :: u, Char.ofNat n, rfl, fun rest => ?_⟩
    have htake : takeHex4 (u ++ rest) = .ok (n, rest) :=
      takeHex4_eq_ok_iff.mpr (readHex_eq_ok_iff.mpr ⟨_, rfl, h⟩)
    exact bind_eq_ok_iff.mpr ⟨_, htake, rfl⟩

/-- Some characters are taken up to the quotation mark; which ones does not matter. -/
theorem takeStringBody_loose {s : List Char} (h : LooseCharsText s) (rest : List Char) {fuel : ℕ}
    (hfuel : s.length < fuel) :
    ∃ chars, takeStringBody false fuel (s ++ '"' :: rest) = .ok (chars, rest) := by
  induction h generalizing fuel with
  | nil =>
    obtain ⟨fuel, rfl⟩ := Nat.exists_eq_add_one_of_ne_zero (Nat.ne_zero_of_lt hfuel)
    exact ⟨[], rfl⟩
  | @cons s t hchar _ ih =>
    obtain ⟨fuel, rfl⟩ := Nat.exists_eq_add_one_of_ne_zero (Nat.ne_zero_of_lt hfuel)
    rw [List.length_append] at hfuel
    rw [List.append_assoc]
    cases hchar with
    | @plain c hquote hbackslash hcontrol =>
      rw [List.length_singleton] at hfuel
      obtain ⟨chars, hchars⟩ := ih (show t.length < fuel by omega)
      refine ⟨c :: chars, ?_⟩
      rw [List.singleton_append, takeStringBody, if_neg hquote, if_neg hbackslash,
        if_neg (Nat.not_lt.mpr hcontrol)]
      exact bind_eq_ok_iff.mpr ⟨_, hchars, rfl⟩
    | escape hescape =>
      obtain ⟨u, c, rfl, htake⟩ := takeEscape_loose hescape
      rw [List.length_cons] at hfuel
      obtain ⟨chars, hchars⟩ := ih (show t.length < fuel by omega)
      refine ⟨c :: chars, ?_⟩
      rw [List.cons_append, takeStringBody, if_neg (by decide), if_pos rfl]
      exact bind_eq_ok_iff.mpr ⟨_, htake _, bind_eq_ok_iff.mpr ⟨_, hchars, rfl⟩⟩

theorem takeString_loose {t : List Char} (h : LooseStringText ('"' :: t)) (rest : List Char) :
    ∃ text, takeString false (t ++ rest) = .ok (text, rest) := by
  generalize hwhole : '"' :: t = whole at h
  obtain @⟨s, hs⟩ := h
  obtain rfl : t = s ++ ['"'] := List.tail_eq_of_cons_eq hwhole
  have hfuel : s.length < (s ++ '"' :: rest).length := by simp
  obtain ⟨chars, hchars⟩ := takeStringBody_loose hs rest hfuel
  rw [List.append_assoc, List.singleton_append]
  exact ⟨_, bind_eq_ok_iff.mpr ⟨_, hchars, rfl⟩⟩

/-! ## Brackets -/

section brackets

variable {Item : List Char → Prop} {room : ℕ}
  {member : List Char → Except SettingsFault (List Char)} {close : Char}

theorem skipMembers_append (hmember : ∀ t, Item t → Passes room member t)
    (hclose : close = ']' ∨ close = '}') {s : List Char} {items : List Unit}
    (h : MembersText (fun t _ => Item t) s items) (rest : List Char)
    (hroom : (s ++ close :: rest).length < room) {fuel : ℕ}
    (hfuel : (s ++ close :: rest).length < fuel) :
    skipMembers close member fuel (s ++ close :: rest) = .ok rest := by
  obtain ⟨hblank, hcomma, hnumber⟩ := close_spec hclose
  induction h generalizing fuel with
  | last hbefore hitem hafter =>
    obtain ⟨fuel, rfl⟩ := Nat.exists_eq_add_one_of_ne_zero (Nat.ne_zero_of_lt hfuel)
    simp only [List.append_assoc] at hroom ⊢
    have hends := hafter.ends_append (ends_cons hnumber rest)
    refine bind_eq_ok_iff.mpr ⟨_, hmember _ hitem _ _ hbefore hends hroom, ?_⟩
    rw [skipBlanks_append hafter (ends_cons hblank _)]
    dsimp only
    rw [if_neg hcomma, if_pos rfl]
  | @cons before s after row _ _ hbefore hitem hafter _ ih =>
    obtain ⟨fuel, rfl⟩ := Nat.exists_eq_add_one_of_ne_zero (Nat.ne_zero_of_lt hfuel)
    simp only [List.append_assoc, List.cons_append] at hroom hfuel ⊢
    have hends : Ends isNumberChar (after ++ ',' :: (row ++ close :: rest)) :=
      hafter.ends_append (ends_cons (by decide) _)
    refine bind_eq_ok_iff.mpr ⟨_, hmember _ hitem _ _ hbefore hends hroom, ?_⟩
    rw [skipBlanks_append hafter (ends_cons (by decide) _)]
    dsimp only
    rw [if_pos rfl]
    simp only [List.length_append, List.length_cons] at hroom hfuel ih
    exact ih (by omega) (by omega)

theorem skipEnclosed_append (hmember : ∀ t, Item t → Passes room member t)
    (hopens : Opens fun t (_ : Unit) => Item t) (hclose : close = ']' ∨ close = '}')
    {s : List Char} {items : List Unit} (h : EnclosedText (fun t _ => Item t) false s items)
    (rest : List Char) (hroom : (s ++ close :: rest).length < room) {bound : ℕ}
    (hbound : (s ++ close :: rest).length < bound) :
    skipEnclosed bound close member (s ++ close :: rest) = .ok rest := by
  obtain ⟨hblank, _, _⟩ := close_spec hclose
  cases h with
  | empty hs =>
    rw [skipEnclosed, skipBlanks_append hs (ends_cons hblank _)]
    exact if_pos rfl
  | members hs =>
    -- The row is cut at its first member, which opens with no closing bracket.
    obtain ⟨blanks, t, rfl, hblanks, ht, u, tail, _, hfirst, hu⟩ := hs.exists_blanks
    obtain ⟨c, v, rfl, hc, hsquare, hcurly⟩ := hopens _ () hu
    have hne : c ≠ close := by rcases hclose with rfl | rfl <;> assumption
    have hlength : (t ++ close :: rest).length ≤ (blanks ++ t ++ close :: rest).length := by simp
    have hrow : skipMembers close member bound (t ++ close :: rest) = .ok rest :=
      skipMembers_append hmember hclose ht rest (by omega) (by omega)
    rw [hfirst, List.cons_append, List.cons_append] at hrow
    rw [hfirst, skipEnclosed, List.append_assoc, List.cons_append, List.cons_append,
      skipBlanks_append hblanks (ends_cons hc _)]
    exact (if_neg hne).trans hrow
  | trailing ht _ _ => cases ht

theorem skipField_passes (hmember : ∀ t, Item t → Passes room member t) {t : List Char}
    (h : LooseFieldText Item t) : Passes room (skipField member) t := by
  intro blanks rest hblanks hrest hroom
  obtain @⟨s, before, after, t, hkey, hbefore, hafter, hitem⟩ := h
  obtain ⟨u, rfl⟩ := hkey.exists_cons
  simp only [List.append_assoc, List.cons_append] at hroom ⊢
  obtain ⟨text, htext⟩ := takeString_loose hkey (before ++ ':' :: (after ++ (t ++ rest)))
  rw [skipField, skipBlanks_append hblanks (ends_cons (by decide) _)]
  refine bind_eq_ok_iff.mpr ⟨_, htext, ?_⟩
  dsimp only
  rw [skipBlanks_append hbefore (ends_cons (by decide) _)]
  refine hmember t hitem after rest hafter hrest ?_
  simp only [List.length_append, List.length_cons] at hroom ⊢
  omega

end brackets

/-! ## Values -/

theorem skipValue_scalar {t : List Char} (h : LooseScalarText t) (bound room : ℕ) :
    Passes room (skipValue bound room) t := by
  intro before rest hbefore hrest hroom
  obtain ⟨room, rfl⟩ := Nat.exists_eq_add_one_of_ne_zero (Nat.ne_zero_of_lt hroom)
  unfold skipValue
  cases h with
  | null =>
    rw [List.cons_append, skipBlanks_append hbefore (ends_cons (by decide) _)]
    exact takeLetters_append "ull".toList rest
  | true =>
    rw [List.cons_append, skipBlanks_append hbefore (ends_cons (by decide) _)]
    exact takeLetters_append "rue".toList rest
  | false =>
    rw [List.cons_append, skipBlanks_append hbefore (ends_cons (by decide) _)]
    exact takeLetters_append "alse".toList rest
  | number hnumber =>
    have htake := takeNumeral_append .malformed hnumber hrest
    obtain ⟨c, u, rfl, hc⟩ := exists_cons_of_numberText hnumber
    have hblank : isBlank c = false := by simp [isBlank, ne_of_number hc]
    have hbegins : beginsNumber c = true := by simpa [beginsNumber] using hc
    rw [List.cons_append] at htake ⊢
    rw [skipBlanks_append hbefore (ends_cons hblank _)]
    simp [ne_of_number hc, hbegins, htake, Except.map]
  | string hstring =>
    obtain ⟨u, rfl⟩ := hstring.exists_cons
    obtain ⟨text, htext⟩ := takeString_loose hstring rest
    rw [List.cons_append, skipBlanks_append hbefore (ends_cons (by decide) _)]
    simp [htext, Except.map]

/-- Every value is passed over, with as much room for brackets as its text has characters. -/
theorem skipValue_passes {depth : ℕ} {t : List Char} (h : LooseText depth t) {bound room : ℕ}
    (hbound : room ≤ bound) : Passes room (skipValue bound room) t := by
  induction depth generalizing t room with
  | zero => exact skipValue_scalar h bound room
  | succ depth ih =>
    rcases h with h | h
    · exact skipValue_scalar h bound room
    · intro before rest hbefore hrest hroom
      obtain ⟨room, rfl⟩ := Nat.exists_eq_add_one_of_ne_zero (Nat.ne_zero_of_lt hroom)
      have hitem (t : List Char) (h : LooseText depth t) : Passes room (skipValue bound room) t :=
        ih h (Nat.le_of_succ_le hbound)
      unfold skipValue
      cases h with
      | array hitems =>
        simp only [List.cons_append, List.append_assoc, List.nil_append] at hroom ⊢
        simp only [List.length_append, List.length_cons] at hroom
        rw [skipBlanks_append hbefore (ends_cons (by decide) _)]
        refine skipEnclosed_append hitem (LooseText.opens depth) (.inl rfl) hitems rest ?_ ?_ <;>
          simp only [List.length_append, List.length_cons] <;> omega
      | object hmembers =>
        simp only [List.cons_append, List.append_assoc, List.nil_append] at hroom ⊢
        simp only [List.length_append, List.length_cons] at hroom
        rw [skipBlanks_append hbefore (ends_cons (by decide) _)]
        have hfield (t : List Char) (h : LooseFieldText (LooseText depth) t) :
            Passes room (skipField (skipValue bound room)) t := skipField_passes hitem h
        refine skipEnclosed_append hfield LooseFieldText.opens (.inr rfl) hmembers rest ?_ ?_ <;>
          simp only [List.length_append, List.length_cons] <;> omega

end Settings

namespace RecordSchema

variable {σ : Type} {schema : RecordSchema σ}

theorem find?_of_not_knows {key : String} (h : schema.knows key = false) :
    schema.find? (fun member => member.name = key) = none := by
  rw [List.find?_eq_none]
  rw [knows, List.any_eq_false] at h
  exact h

/-- A member of another name leaves the record as it is, whatever its value. -/
theorem takes_readMember_of_not_knows {key : String} (hkey : schema.knows key = false) {depth : ℕ}
    {t : List Char} (h : LooseText depth t) :
    Takes (fun r s => schema.readMember key r (':' :: s)) t id := by
  intro before rest r hbefore hrest
  have hskip := Settings.skipValue_passes h le_rfl before rest hbefore hrest (Nat.lt_succ_self _)
  have hcolon (s : List Char) : skipBlanks (':' :: s) = ':' :: s := rfl
  simp only [readMember, hcolon, find?_of_not_knows hkey]
  exact bind_eq_ok_iff.mpr ⟨_, hskip, rfl⟩

end RecordSchema
end ContractDraft
