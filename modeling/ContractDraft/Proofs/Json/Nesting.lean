import ContractDraft.Proofs.Json.Reader
import Mathlib.Data.List.Infix

/-!
# Strings and brackets of a text

Where a character of a text stands, judged by the characters before it alone: outside of all strings
or inside one (`Place`), and behind how many brackets that are still open (`openBrackets`). This
needs no grammar and is defined for every text. A text of the grammar ends as it begins, outside of
strings and with no bracket left open (`contained_valueText`), so in front of the place where a
document breaks off only the brackets count that its own derivation has open there.
-/

namespace ContractDraft

/-! ## Places -/

/-- Where a character of a text stands: outside of strings, inside of one, or inside behind a
backslash that takes it away from the string's end. -/
inductive Place where
  | outside
  | inside
  | escaped
  deriving DecidableEq, Repr

/-- The place behind one more character. -/
def Place.step : Place → Char → Place
  | .outside, c => if c = '"' then .inside else .outside
  | .inside, c => if c = '"' then .outside else if c = '\\' then .escaped else .inside
  | .escaped, _ => .inside

/-- What a character outside of strings adds to the number of open brackets. -/
def bracketWeight (c : Char) : ℤ :=
  if c = '[' ∨ c = '{' then 1 else if c = ']' ∨ c = '}' then -1 else 0

/-- The place behind a text, and how many brackets outside of strings are open there. -/
structure Standing where
  place : Place
  opened : ℤ
  deriving DecidableEq, Repr

/-- Where one stands behind one more character. -/
def Standing.step (standing : Standing) (c : Char) : Standing :=
  ⟨standing.place.step c,
    if standing.place = .outside then standing.opened + bracketWeight c else standing.opened⟩

/-- Where one stands behind a text that begins outside of strings. -/
def standing (s : List Char) : Standing :=
  s.foldl Standing.step ⟨.outside, 0⟩

/-- The number of brackets that a text opens and does not close, those in strings left out. -/
def openBrackets (s : List Char) : ℤ :=
  (standing s).opened

/-- Nowhere in the text more than `depth` brackets are open. -/
def NestsWithin (depth : ℕ) (s : List Char) : Prop :=
  ∀ u, u <+: s → openBrackets u ≤ depth

/-- The text begins with a quotation mark, and the string that it opens never ends. -/
def UnclosedString (s : List Char) : Prop :=
  ∃ t, s = '"' :: t ∧ ∀ u, u <+: t → u.foldl Place.step .inside ≠ .outside

/-! ## One text behind another -/

/-- Brackets that were open before are open throughout. -/
theorem foldl_step_add (place : Place) (n k : ℤ) (s : List Char) :
    s.foldl Standing.step ⟨place, n + k⟩ =
      ⟨(s.foldl Standing.step ⟨place, k⟩).place,
        n + (s.foldl Standing.step ⟨place, k⟩).opened⟩ := by
  induction s generalizing place k with
  | nil => rfl
  | cons c s ih =>
    simp only [List.foldl_cons, Standing.step]
    -- Brackets count outside of strings only, in both sums alike.
    by_cases hplace : place = .outside
    · rw [if_pos hplace, if_pos hplace, Int.add_assoc]
      exact ih (place.step c) (k + bracketWeight c)
    · rw [if_neg hplace, if_neg hplace]
      exact ih (place.step c) k

/-- Behind a text that ends outside of strings, the next text is judged by itself. -/
theorem standing_append {u : List Char} {n : ℤ} (h : standing u = ⟨.outside, n⟩) (v : List Char) :
    standing (u ++ v) = ⟨(standing v).place, n + (standing v).opened⟩ := by
  have hshift := foldl_step_add .outside n 0 v
  rw [Int.add_zero] at hshift
  unfold standing at h ⊢
  rw [List.foldl_append, h, hshift]

/-- The text ends outside of strings and closes as many brackets as it opens. -/
def Neutral (s : List Char) : Prop :=
  standing s = ⟨.outside, 0⟩

/-- Behind text that closes what it opens one stands as if it were not there. -/
theorem Neutral.standing_append {u : List Char} (hu : Neutral u) (v : List Char) :
    standing (u ++ v) = standing v := by
  rw [ContractDraft.standing_append hu v, Int.zero_add]

theorem Neutral.append {u v : List Char} (hu : Neutral u) (hv : Neutral v) : Neutral (u ++ v) :=
  (hu.standing_append v).trans hv

/-- Characters that are neither quotation marks nor brackets change nothing. -/
theorem neutral_of_forall {s : List Char} (h : ∀ c ∈ s, c ≠ '"' ∧ bracketWeight c = 0) :
    Neutral s := by
  induction s with
  | nil => rfl
  | cons c s ih =>
    obtain ⟨⟨hquote, hweight⟩, hs⟩ := List.forall_mem_cons.mp h
    have hc : Neutral [c] := by
      simp [Neutral, standing, Standing.step, Place.step, hquote, hweight]
    exact hc.append (ih hs)

/-- Brackets around a neutral text. -/
theorem Neutral.bracketed {bracket close : Char} (hopen : standing [bracket] = ⟨.outside, 1⟩)
    (hclose : standing [close] = ⟨.outside, -1⟩) {s : List Char} (hs : Neutral s) :
    Neutral (bracket :: s ++ [close]) := by
  have hinner : standing (s ++ [close]) = ⟨.outside, -1⟩ := by
    rw [hs.standing_append, hclose]
  have hall := ContractDraft.standing_append hopen (s ++ [close])
  rw [hinner] at hall
  exact hall

/-! ## Inside a string -/

/-- Text inside a string: a backslash takes the next character with it, and no other character is a
quotation mark. -/
inductive StringInside : List Char → Prop where
  | nil : StringInside []
  | plain {c : Char} {s : List Char} : c ≠ '"' → c ≠ '\\' → StringInside s → StringInside (c :: s)
  | escaped {c : Char} {s : List Char} : StringInside s → StringInside ('\\' :: c :: s)

theorem StringInside.append {s t : List Char} (hs : StringInside s) (ht : StringInside t) :
    StringInside (s ++ t) := by
  induction hs with
  | nil => exact ht
  | plain hquote hback _ ih => exact .plain hquote hback ih
  | escaped _ ih => exact .escaped ih

/-- No hexadecimal digit ends a string or begins an escape. -/
theorem HexDigit.ne {c : Char} {n : ℕ} (h : HexDigit c n) : c ≠ '"' ∧ c ≠ '\\' := by
  unfold HexDigit at h
  have hzero : ('0' : Char).toNat = 48 := rfl
  have hlower : ('a' : Char).toNat = 97 := rfl
  have hupper : ('A' : Char).toNat = 65 := rfl
  -- The numbers of the two marks lie in none of the three ranges of digits.
  constructor
  · rintro rfl
    have hquote : ('"' : Char).toNat = 34 := rfl
    omega
  · rintro rfl
    have hback : ('\\' : Char).toNat = 92 := rfl
    omega

theorem UnitText.stringInside {s : List Char} {n : ℕ} (h : UnitText s n) : StringInside s := by
  obtain ⟨ha, hb, hc, hd⟩ := h
  have hdigits := StringInside.nil.plain hd.ne.1 hd.ne.2 |>.plain hc.ne.1 hc.ne.2
  exact .escaped (hdigits.plain hb.ne.1 hb.ne.2 |>.plain ha.ne.1 ha.ne.2)

/-- An escape does not end its string. -/
theorem EscapeText.stringInside {s : List Char} {c : Char} (h : EscapeText s c) :
    StringInside s := by
  cases h with
  | short _ => exact .escaped .nil
  | unit hunit => exact hunit.stringInside
  | pair hhigh hlow _ _ _ _ _ => exact hhigh.stringInside.append hlow.stringInside

/-- The characters of a string do not end it. -/
theorem CharsText.stringInside {s chars : List Char} (h : CharsText s chars) : StringInside s := by
  induction h with
  | nil => exact .nil
  | cons hchar _ ih =>
    cases hchar with
    | plain hquote hback _ => exact .plain hquote hback ih
    | escape hescape => exact hescape.stringInside.append ih

/-- Inside a string one stays inside, whatever brackets there are. -/
theorem StringInside.foldl_step {s : List Char} (h : StringInside s) (n : ℤ) :
    s.foldl Standing.step ⟨.inside, n⟩ = ⟨.inside, n⟩ := by
  induction h with
  | nil => rfl
  | @plain c s hquote hback _ ih =>
    have hc : Standing.step ⟨.inside, n⟩ c = ⟨.inside, n⟩ := by
      simp [Standing.step, Place.step, hquote, hback]
    rw [List.foldl_cons, hc, ih]
  | @escaped c s _ ih =>
    have hback : Standing.step ⟨.inside, n⟩ '\\' = ⟨.escaped, n⟩ := by
      simp [Standing.step, Place.step]
    have hc : Standing.step ⟨.escaped, n⟩ c = ⟨.inside, n⟩ := by
      simp [Standing.step, Place.step]
    rw [List.foldl_cons, List.foldl_cons, hback, hc, ih]

/-- A string closes what it opens. -/
theorem StringText.neutral {s : List Char} {text : String} (h : StringText s text) : Neutral s := by
  obtain @⟨s, chars, hchars⟩ := h
  have hopen : Standing.step ⟨.outside, 0⟩ '"' = ⟨.inside, 0⟩ := rfl
  have hclose : Standing.step ⟨.inside, 0⟩ '"' = ⟨.outside, 0⟩ := rfl
  unfold Neutral standing
  rw [List.cons_append, List.foldl_cons, hopen, List.foldl_append,
    hchars.stringInside.foldl_step]
  exact hclose

/-- Behind text inside a string the string is as open as before. -/
theorem StringInside.unclosed_append {s t : List Char} (h : StringInside s)
    (ht : ∀ u, u <+: t → u.foldl Place.step .inside ≠ .outside) :
    ∀ u, u <+: s ++ t → u.foldl Place.step .inside ≠ .outside := by
  induction h with
  | nil => exact ht
  | @plain c s hquote hback _ ih =>
    intro u hu
    rcases List.prefix_cons_iff.mp hu with rfl | ⟨v, rfl, hv⟩
    · decide
    · have hc : Place.step .inside c = .inside := by simp [Place.step, hquote, hback]
      rw [List.foldl_cons, hc]
      exact ih v hv
  | @escaped c s _ ih =>
    -- Whatever stands behind the backslash, it does not end the string.
    intro u hu
    rcases List.prefix_cons_iff.mp hu with rfl | ⟨v, rfl, hv⟩
    · decide
    rcases List.prefix_cons_iff.mp hv with rfl | ⟨w, rfl, hw⟩
    · decide
    · exact ih w hw

/-- The brackets in a string do not count, wherever one stops. -/
theorem StringInside.opened_eq {s : List Char} (h : StringInside s) (n : ℤ) :
    ∀ u, u <+: s → (u.foldl Standing.step ⟨.inside, n⟩).opened = n := by
  induction h with
  | nil =>
    intro u hu
    rw [List.prefix_nil.mp hu]
    rfl
  | @plain c s hquote hback _ ih =>
    intro u hu
    rcases List.prefix_cons_iff.mp hu with rfl | ⟨v, rfl, hv⟩
    · rfl
    · have hc : Standing.step ⟨.inside, n⟩ c = ⟨.inside, n⟩ := by
        simp [Standing.step, Place.step, hquote, hback]
      rw [List.foldl_cons, hc]
      exact ih v hv
  | @escaped c s _ ih =>
    intro u hu
    rcases List.prefix_cons_iff.mp hu with rfl | ⟨v, rfl, hv⟩
    · rfl
    rcases List.prefix_cons_iff.mp hv with rfl | ⟨w, rfl, hw⟩
    · rfl
    · exact ih w hw

/-! ## Texts that close what they open -/

/-- The text ends as it begins, and nowhere in it more than `depth` brackets are open. -/
structure Contained (depth : ℕ) (s : List Char) : Prop where
  neutral : Neutral s
  nests : NestsWithin depth s

variable {depth : ℕ}

/-- The first text leaves nothing open, so the second one nests as deep as it does alone. -/
theorem Contained.append {u v : List Char} (hu : Contained depth u) (hv : Contained depth v) :
    Contained depth (u ++ v) where
  neutral := hu.neutral.append hv.neutral
  nests := by
    intro w hw
    rcases List.prefix_or_prefix_of_prefix hw (List.prefix_append u v) with hfirst | ⟨x, rfl⟩
    · exact hu.nests w hfirst
    -- A prefix that goes on into the second text has nothing open where that begins.
    · unfold openBrackets
      rw [hu.neutral.standing_append]
      exact hv.nests x ((List.prefix_append_right_inj u).mp hw)

/-- Brackets around a text make it nest one deeper. -/
theorem Contained.bracketed {bracket close : Char} (hopen : standing [bracket] = ⟨.outside, 1⟩)
    (hclose : standing [close] = ⟨.outside, -1⟩) {s : List Char} (hs : Contained depth s) :
    Contained (depth + 1) (bracket :: s ++ [close]) := by
  have hneutral : Neutral (bracket :: s ++ [close]) := hs.neutral.bracketed hopen hclose
  refine ⟨hneutral, fun u hu => ?_⟩
  unfold openBrackets
  -- A prefix is the whole text, or nothing, or it ends inside, behind the bracket that opens.
  rcases List.prefix_concat_iff.mp hu with rfl | hfront
  · rw [hneutral]
    exact Int.natCast_nonneg _
  rcases List.prefix_cons_iff.mp hfront with rfl | ⟨v, rfl, hv⟩
  · exact Int.natCast_nonneg _
  · have hinner : openBrackets v ≤ depth := hs.nests v hv
    have hbehind : standing (bracket :: v) = ⟨(standing v).place, 1 + (standing v).opened⟩ :=
      standing_append hopen v
    rw [hbehind]
    unfold openBrackets at hinner
    push_cast
    omega

/-- Text without quotes and brackets stays at its depth. -/
theorem contained_of_forall {s : List Char} (h : ∀ c ∈ s, c ≠ '"' ∧ bracketWeight c = 0) :
    Contained depth s := by
  refine ⟨neutral_of_forall h, fun u hu => ?_⟩
  have hneutral : Neutral u := neutral_of_forall fun c hc => h c (hu.subset hc)
  unfold openBrackets
  rw [hneutral]
  exact Int.natCast_nonneg depth

/-- The brackets inside a string do not count. -/
theorem StringText.contained {s : List Char} {text : String} (h : StringText s text) :
    Contained depth s := by
  refine ⟨h.neutral, fun u hu => ?_⟩
  suffices hnone : openBrackets u = 0 by
    rw [hnone]
    exact Int.natCast_nonneg depth
  obtain @⟨s, chars, hchars⟩ := id h
  rcases List.prefix_concat_iff.mp hu with rfl | hfront
  · exact congrArg Standing.opened h.neutral
  rcases List.prefix_cons_iff.mp hfront with rfl | ⟨v, rfl, hv⟩
  · rfl
  · exact hchars.stringInside.opened_eq 0 v hv

/-! ## Texts of the grammar -/

theorem Blanks.contained {s : List Char} (h : Blanks s) : Contained depth s := by
  have hall : ∀ c ∈ [' ', '\t', '\n', '\r'], c ≠ '"' ∧ bracketWeight c = 0 := by
    simp [bracketWeight]
  exact contained_of_forall fun c hc => hall c (h c hc)

theorem Blanks.neutral {s : List Char} (h : Blanks s) : Neutral s := by
  have hall : Contained 0 s := h.contained
  exact hall.neutral

/-- A number literal has neither quotation marks nor brackets. -/
theorem contained_of_isNumberChar {s : List Char} (h : ∀ c ∈ s, isNumberChar c = true) :
    Contained depth s := by
  have hother : ∀ d ∈ ['"', '[', '{', ']', '}'], isNumberChar d = false := by
    simp [isNumberChar]
  refine contained_of_forall fun c hc => ?_
  have hne : ∀ d ∈ ['"', '[', '{', ']', '}'], c ≠ d := by
    rintro d hd rfl
    have hnumber := h c hc
    rw [hother c hd] at hnumber
    cases hnumber
  simp only [List.forall_mem_cons] at hne
  obtain ⟨hquote, hsquare, hcurly, hsquareClose, hcurlyClose, -⟩ := hne
  refine ⟨hquote, ?_⟩
  simp [bracketWeight, hsquare, hcurly, hsquareClose, hcurlyClose]

/-- A scalar stays at its depth. -/
theorem contained_scalarText {s : List Char} {v : Value} (h : ScalarText s v) :
    Contained depth s := by
  cases h with
  | null => exact contained_of_forall (by simp [bracketWeight])
  | true => exact contained_of_forall (by simp [bracketWeight])
  | false => exact contained_of_forall (by simp [bracketWeight])
  | number hnumber _ => exact contained_of_isNumberChar (isNumberChar_of_mem_numberText hnumber)
  | string hstring => exact hstring.contained

section members

variable {α : Type} {Member : List Char → α → Prop}

theorem neutral_comma : Neutral [','] := rfl

theorem contained_comma : Contained depth [','] :=
  contained_of_forall (by simp [bracketWeight])

/-- A row of members stays within the depth of its members. -/
theorem contained_membersText (hmember : ∀ t a, Member t a → Contained depth t) {s : List Char}
    {as : List α} (h : MembersText Member s as) : Contained depth s := by
  induction h with
  | last hbefore ha hafter =>
    exact (hbefore.contained.append (hmember _ _ ha)).append hafter.contained
  | cons hbefore ha hafter _ ih =>
    have hfirst := (hbefore.contained.append (hmember _ _ ha)).append hafter.contained
    exact hfirst.append (contained_comma.append ih)

/-- Members up to their closing bracket stay within the depth of each of them. -/
theorem contained_enclosedText (hmember : ∀ t a, Member t a → Contained depth t) {tolerant : Bool}
    {s : List Char} {as : List α} (h : EnclosedText Member tolerant s as) : Contained depth s := by
  cases h with
  | empty hblanks => exact hblanks.contained
  | members hmembers => exact contained_membersText hmember hmembers
  | trailing _ hmembers hafter =>
    have hitems := contained_membersText hmember hmembers
    exact hitems.append (contained_comma.append hafter.contained)

end members

/-- A field stays within the depth of its value. -/
theorem contained_fieldText {Item : List Char → Value → Prop}
    (hitem : ∀ t v, Item t v → Contained depth t) {s : List Char} {field : String × Value}
    (h : FieldText Item s field) : Contained depth s := by
  obtain ⟨hkey, hbefore, hafter, hvalue⟩ := h
  have hcolon : Contained depth [':'] := contained_of_forall (by simp [bracketWeight])
  have hbehind := hcolon.append (hafter.contained.append (hitem _ _ hvalue))
  exact (hkey.contained.append hbefore.contained).append hbehind

/-- Every text of a value ends outside of strings, all its brackets closed, and in between no more
brackets are open than its grammar allows. -/
theorem contained_valueText {tolerant : Bool} {s : List Char} {v : Value}
    (h : ValueText tolerant depth s v) : Contained depth s := by
  induction depth generalizing s v with
  | zero => exact contained_scalarText h
  | succ depth ih =>
    rcases h with hscalar | hbracket
    · exact contained_scalarText hscalar
    -- The members nest within the depth that the pair of brackets leaves.
    have hitem : ∀ t v, ValueText tolerant depth t v → Contained depth t := fun t v => ih
    cases hbracket with
    | array hitems => exact (contained_enclosedText hitem hitems).bracketed rfl rfl
    | object hmembers _ =>
      have hfield : ∀ t field, FieldText (ValueText tolerant depth) t field → Contained depth t :=
        fun t field => contained_fieldText hitem
      exact (contained_enclosedText hfield hmembers).bracketed rfl rfl

/-- A document stays within the depth that its grammar allows. -/
theorem contained_documentText {tolerant : Bool} {s : List Char} {v : Value}
    (h : DocumentText tolerant depth s v) : Contained depth s := by
  obtain ⟨hbefore, hvalue, hafter⟩ := h
  exact (hbefore.contained.append (contained_valueText hvalue)).append hafter.contained

end ContractDraft
