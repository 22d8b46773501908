import ContractDraft.Json.Printer
import ContractDraft.Proofs.Json.Reader
import ContractDraft.Proofs.Number.DecimalText
import ContractDraft.Proofs.Text.Diagnostic
import ContractDraft.Text.Escape
import Mathlib.Data.List.Forall2

/-!
# The compact form is read back

The compact form of a value is a text of the grammar and means that value (`valueText_compact`), so
the reader returns the value itself: fields in their order, integers as integers, decimals with the
sign of a zero (`readDocument_compact`). Only decimals that are not finite have no text, and values
nested too deep are refused.
-/

namespace ContractDraft

/-! ## Strings -/

theorem hexDigit_digitChar {n : ℕ} (h : n < 16) : HexDigit (Nat.digitChar n) n :=
  hexValue?_eq_some_iff.mp (Text.hexValue?_digitChar h)

/-- Four hexadecimal digits of a unit write that unit. -/
theorem unitText_hexDigits4 {n : ℕ} (h : n < 0x10000) :
    UnitText ('\\' :: 'u' :: Text.hexDigits4 n) n := by
  have hmod (k : ℕ) : HexDigit (Nat.digitChar (k % 16)) (k % 16) :=
    hexDigit_digitChar (Nat.mod_lt k (by decide))
  have hunit := UnitText.digits (hmod (n / 4096)) (hmod (n / 256)) (hmod (n / 16)) (hmod n)
  have hvalue : ((n / 4096 % 16 * 16 + n / 256 % 16) * 16 + n / 16 % 16) * 16 + n % 16 = n := by
    omega
  rwa [hvalue] at hunit

/-- A character with a short escape is written with it, but for the slash. -/
theorem escapeChar_of_mem : ∀ e ∈ shortEscapes, e.1 ≠ '/' → Text.escapeChar e.2 = ['\\', e.1] := by
  decide

/-- A character is written by a letter, by its number, or as itself. -/
theorem escapeChar_cases (c : Char) :
    (∃ letter, letter ≠ '/' ∧ (letter, c) ∈ shortEscapes ∧ Text.escapeChar c = ['\\', letter]) ∨
    (c ∉ shortEscapes.map (·.2) ∧ c.toNat < 0x20 ∧
      Text.escapeChar c = '\\' :: 'u' :: Text.hexDigits4 c.toNat) ∨
    (c ≠ '"' ∧ c ≠ '\\' ∧ 0x20 ≤ c.toNat ∧ Text.escapeChar c = [c]) := by
  by_cases hshort : ∃ e ∈ shortEscapes, e.2 = c ∧ e.1 ≠ '/'
  · obtain ⟨⟨letter, _⟩, hmem, rfl, hslash⟩ := hshort
    exact .inl ⟨letter, hslash, hmem, escapeChar_of_mem _ hmem hslash⟩
  · have hnone : '"' ≠ c ∧ '\\' ≠ c ∧ '\x08' ≠ c ∧ '\x0c' ≠ c ∧ '\n' ≠ c ∧ '\r' ≠ c ∧ '\t' ≠ c := by
      simpa [shortEscapes] using hshort
    obtain ⟨hquote, hback, hbell, hfeed, hline, hreturn, htab⟩ := hnone
    unfold Text.escapeChar
    rw [if_neg hquote.symm, if_neg hback.symm, if_neg hline.symm, if_neg hreturn.symm,
      if_neg htab.symm, if_neg hbell.symm, if_neg hfeed.symm]
    by_cases hcontrol : c.toNat < 0x20
    · have hslash : '/' ≠ c := by
        rintro rfl
        exact absurd hcontrol (by decide)
      rw [if_pos hcontrol]
      refine .inr (.inl ⟨?_, hcontrol, rfl⟩)
      simp [shortEscapes, hquote.symm, hback.symm, hbell.symm, hfeed.symm, hline.symm,
        hreturn.symm, htab.symm, hslash.symm]
    · rw [if_neg hcontrol]
      exact .inr (.inr ⟨hquote.symm, hback.symm, Nat.le_of_not_lt hcontrol, rfl⟩)

/-- The written form of a character is a text of that character. -/
theorem charText_escapeChar (c : Char) : CharText (Text.escapeChar c) c := by
  rcases escapeChar_cases c with ⟨letter, _, hmem, h⟩ | ⟨_, hcontrol, h⟩ | ⟨hquote, hback, hle, h⟩
  · rw [h]
    exact .escape (.short hmem)
  · rw [h]
    exact .escape (.unit (unitText_hexDigits4 (by omega)))
  · rw [h]
    exact .plain hquote hback hle

/-- Escaped text writes the characters that were escaped. -/
theorem charsText_escape (chars : List Char) : CharsText (Text.escape chars) chars := by
  induction chars with
  | nil => exact .nil
  | cons c chars ih => exact .cons (charText_escapeChar c) ih

/-- A quoted text is a string literal of that text. -/
theorem stringText_quote (s : String) : StringText (Text.quote s).toList s := by
  have htext := StringText.quoted (charsText_escape s.toList)
  rw [String.ofList_toList] at htext
  rwa [Text.quote, String.toList_ofList]

/-- Numbers of two hexadecimal digits have two zeros in front of them. -/
theorem hexDigits4_of_lt {n : ℕ} (h : n < 0x100) :
    Text.hexDigits4 n = ['0', '0', Nat.digitChar (n / 16), Nat.digitChar (n % 16)] := by
  have hfirst : n / 4096 % 16 = 0 := by omega
  have hsecond : n / 256 % 16 = 0 := by omega
  have hthird : n / 16 % 16 = n / 16 := by omega
  simp only [Text.hexDigits4, List.map_cons, List.map_nil, hfirst, hsecond, hthird]
  rfl

/-- The letters that strings are written with are among those that are read. -/
theorem mem_shortEscapes_of_escapeLetter? {c letter : Char} (h : escapeLetter? c = some letter) :
    letter ≠ '/' ∧ (letter, c) ∈ shortEscapes := by
  unfold escapeLetter? at h
  split at h <;> cases h <;> decide

/-- Documents and builder code escape every character alike. -/
theorem writeChar_eq_escapeChar (c : Char) : writeChar c = Text.escapeChar c := by
  cases hletter : escapeLetter? c with
  | some letter =>
    obtain ⟨hslash, hmem⟩ := mem_shortEscapes_of_escapeLetter? hletter
    rw [escapeChar_of_mem _ hmem hslash, writeChar, hletter]
  | none =>
    rcases escapeChar_cases c with ⟨letter, hslash, hmem, -⟩ | ⟨-, hcontrol, h⟩ | ⟨-, -, hle, h⟩
    · have hletters : ∀ e ∈ shortEscapes, e.1 ≠ '/' → escapeLetter? e.2 = some e.1 := by decide
      rw [hletters _ hmem hslash] at hletter
      cases hletter
    · rw [h, writeChar, hletter]
      simp only
      rw [if_pos hcontrol, hexDigits4_of_lt (by omega)]
    · rw [h, writeChar, hletter]
      simp only
      rw [if_neg (Nat.not_lt.mpr hle)]

/-- Strings are written by the same rule in documents and in builder code. -/
theorem writeString_eq_quote (s : String) : writeString s = Text.quote s := by
  have hescape : s.toList.flatMap writeChar = Text.escape s.toList :=
    List.flatMap_congr fun c _ => writeChar_eq_escapeChar c
  rw [writeString, Text.quote, hescape]

/-- A written string is a string literal of that text. -/
theorem stringText_writeString (s : String) : StringText (writeString s).toList s := by
  rw [writeString_eq_quote]
  exact stringText_quote s

/-! ## Numbers -/

/-- An integer is written as its sign and its decimal digits. -/
theorem toList_toString_int (k : ℤ) :
    (toString k).toList = signText (decide (k < 0)) ++ Nat.toDigits 10 k.natAbs := by
  cases k with
  | ofNat m =>
    have hpos : ¬ Int.ofNat m < 0 := by simp
    rw [decide_eq_false hpos]
    show (toString m).toList = _
    rw [Nat.toString_eq_ofList_toDigits, String.toList_ofList]
    rfl
  | negSucc m =>
    rw [decide_eq_true (Int.negSucc_lt_zero m)]
    show ("-" ++ toString (m + 1)).toList = _
    rw [String.toList_append, Nat.toString_eq_ofList_toDigits, String.toList_ofList,
      String.toList_ofList]
    rfl

/-- A written integer is a literal of that integer. -/
theorem scalarText_integer (i : Int64) : ScalarText (toString i.toInt).toList (.integer i) := by
  have htext : NumberText
      (signText (decide (i.toInt < 0)) ++ Nat.toDigits 10 i.toInt.natAbs ++ [] ++ [])
      ⟨decide (i.toInt < 0), Nat.toDigits 10 i.toInt.natAbs, none, none⟩ :=
    .parts (wholeText_toDigits _) .absent .absent
  rw [List.append_nil, List.append_nil, ← toList_toString_int] at htext
  refine .number htext (.integer ⟨rfl, rfl, ?_⟩)
  rw [digitsValue_toDigits]
  split <;> rename_i h <;> simp only [decide_eq_true_eq] at h <;> omega

/-- In every style, the text of a finite number is a text of that number. -/
theorem scalarText_format (style : DecimalStyle) {x : Binary64} (hx : x.isFinite = true) :
    ScalarText (style.format x).toList (.decimal x) := by
  cases x with
  | nan => cases hx
  | real negative rank =>
    have hrank : rank.val < infinityRank := by simpa [Binary64.isFinite] using hx
    obtain ⟨n, htext, hparts, hvalue⟩ := style.magnitude_spec negative hrank
    have hformat : (style.format (.real negative rank)).toList =
        signText negative ++ style.magnitude rank := by
      rw [DecimalStyle.format, if_neg (Nat.ne_of_lt hrank), String.toList_append,
        String.toList_ofList]
      cases negative <;> rfl
    rw [hformat]
    refine .number htext ?_
    -- With a fraction or an exponent no literal is an integer, whatever its value.
    have hnot : ∀ i, ¬ n.IsInteger i := fun i hi => by
      rcases hparts with h | h
      · exact h hi.1
      · exact h hi.2.1
    have hmeaning := NumberMeaning.decimal hnot
    rwa [hvalue] at hmeaning

/-- A written finite decimal is a literal of that decimal. -/
theorem scalarText_decimal {x : Binary64} (hx : x.isFinite = true) :
    ScalarText (compactDecimal x).toList (.decimal x) := by
  rw [compactDecimal, if_pos hx]
  exact scalarText_format compactDecimals hx

/-! ## Values -/

section members

variable {α : Type} {Member : List Char → α → Prop}

/-- Texts of members, joined by commas with blanks behind them, are members. -/
theorem membersText_intercalate (gap : String) (hgap : Blanks gap.toList) {text : String}
    {texts : List String} {a : α} {as : List α}
    (h : List.Forall₂ (fun t a => Member t.toList a) (text :: texts) (a :: as)) :
    MembersText Member (String.intercalate ("," ++ gap) (text :: texts)).toList (a :: as) := by
  induction texts generalizing text a as with
  | nil =>
    cases h with
    | cons hfirst hrest =>
      cases hrest
      rw [String.intercalate_singleton]
      simpa using MembersText.last blanks_nil hfirst blanks_nil
  | cons next texts ih =>
    cases h with
    | cons hfirst hrest =>
      cases as with
      | nil => cases hrest
      | cons b bs =>
        rw [String.intercalate_cons_of_ne_nil (List.cons_ne_nil _ _), String.toList_append,
          String.toList_append, String.toList_append]
        simpa using MembersText.cons blanks_nil hfirst blanks_nil ((ih hrest).blanks_append hgap)

/-- Texts of members, joined by commas, are what stands between two brackets. -/
theorem enclosedText_intercalate {texts : List String} {as : List α}
    (h : List.Forall₂ (fun t a => Member t.toList a) texts as) (tolerant : Bool) :
    EnclosedText Member tolerant (String.intercalate "," texts).toList as := by
  cases texts with
  | nil =>
    cases h
    exact .empty (by simp [Blanks])
  | cons text texts =>
    cases as with
    | nil => cases h
    | cons a as => exact .members (membersText_intercalate "" blanks_nil h)

end members

namespace Value

theorem compactItems_eq_map (items : List Value) : compactItems items = items.map compact := by
  induction items with
  | nil => rfl
  | cons v rest ih => rw [compactItems, ih, List.map_cons]

theorem compactFields_eq_map (fields : Fields) :
    compactFields fields =
      fields.map fun field => writeString field.1 ++ ":" ++ compact field.2 := by
  induction fields with
  | nil => rfl
  | cons field rest ih => rw [compactFields, ih, List.map_cons]

mutual

/-- How deep arrays and objects nest in a value. -/
def nesting : Value → ℕ
  | .array items => itemNesting items + 1
  | .object fields => fieldNesting fields + 1
  | _ => 0

/-- How deep the items of an array nest. -/
def itemNesting : List Value → ℕ
  | [] => 0
  | v :: rest => max (nesting v) (itemNesting rest)

/-- How deep the fields of an object nest. -/
def fieldNesting : List (String × Value) → ℕ
  | [] => 0
  | (_, v) :: rest => max (nesting v) (fieldNesting rest)

end

mutual

/-- The decimals inside a value. -/
def decimals : Value → List Binary64
  | .decimal x => [x]
  | .array items => itemDecimals items
  | .object fields => fieldDecimals fields
  | _ => []

/-- The decimals inside the items of an array. -/
def itemDecimals : List Value → List Binary64
  | [] => []
  | v :: rest => decimals v ++ itemDecimals rest

/-- The decimals inside the fields of an object. -/
def fieldDecimals : List (String × Value) → List Binary64
  | [] => []
  | (_, v) :: rest => decimals v ++ fieldDecimals rest

end

/-- No item is nested deeper than the deepest. -/
theorem nesting_le_of_mem {v : Value} {items : List Value} (h : v ∈ items) :
    v.nesting ≤ itemNesting items := by
  induction items with
  | nil => cases h
  | cons first rest ih =>
    rw [itemNesting]
    rcases List.mem_cons.mp h with rfl | hrest
    · exact Nat.le_max_left _ _
    · exact Nat.le_trans (ih hrest) (Nat.le_max_right _ _)

theorem fieldNesting_eq (fields : Fields) :
    fieldNesting fields = itemNesting (fields.map (·.2)) := by
  induction fields with
  | nil => rfl
  | cons field rest ih => rw [fieldNesting, ih, List.map_cons, itemNesting]

/-- The decimals of an item are among those of all items. -/
theorem mem_itemDecimals {x : Binary64} {v : Value} {items : List Value} (h : v ∈ items)
    (hx : x ∈ v.decimals) : x ∈ itemDecimals items := by
  induction items with
  | nil => cases h
  | cons first rest ih =>
    rw [itemDecimals]
    rcases List.mem_cons.mp h with rfl | hrest
    · exact List.mem_append_left _ hx
    · exact List.mem_append_right _ (ih hrest)

theorem fieldDecimals_eq (fields : Fields) :
    fieldDecimals fields = itemDecimals (fields.map (·.2)) := by
  induction fields with
  | nil => rfl
  | cons field rest ih => rw [fieldDecimals, ih, List.map_cons, itemDecimals]

/-- The compact text of a scalar. -/
theorem scalarText_compact {v : Value} (hscalar : v.isScalar = true)
    (hfinite : ∀ x ∈ v.decimals, x.isFinite = true) : ScalarText v.compact.toList v := by
  cases v with
  | null => exact .null
  | boolean b =>
    cases b
    · exact .false
    · exact .true
  | integer i => exact scalarText_integer i
  | decimal x => exact scalarText_decimal (hfinite x (List.mem_singleton_self x))
  | string s => exact .string (stringText_writeString s)
  | array items => cases hscalar
  | object fields => cases hscalar

/-- A scalar is a value at any depth. -/
theorem valueText_of_scalar {tolerant : Bool} {depth : ℕ} {s : List Char} {v : Value}
    (h : ScalarText s v) : ValueText tolerant depth s v := by
  cases depth with
  | zero => exact h
  | succ depth => exact .inl h

/-- The compact text of a value is a text of the grammar, and it means the value. -/
theorem valueText_compact (tolerant : Bool) {v : Value} (hkeys : v.DistinctKeys)
    (hfinite : ∀ x ∈ v.decimals, x.isFinite = true) {depth : ℕ} (hdepth : v.nesting ≤ depth) :
    ValueText tolerant depth v.compact.toList v := by
  -- Distinct keys reach into every part of the value, so the induction is on their derivation.
  induction hkeys generalizing depth with
  | scalar hscalar => exact valueText_of_scalar (scalarText_compact hscalar hfinite)
  | @array items _ ih =>
    rw [nesting] at hdepth
    rw [decimals] at hfinite
    obtain ⟨depth, rfl⟩ := Nat.exists_eq_add_one_of_ne_zero (Nat.ne_zero_of_lt hdepth)
    have hitems : List.Forall₂ (fun t v => ValueText tolerant depth t.toList v)
        (compactItems items) items := by
      rw [compactItems_eq_map, List.forall₂_map_left_iff, List.forall₂_same]
      intro v hv
      refine ih v hv (fun x hx => hfinite x (mem_itemDecimals hv hx)) ?_
      exact Nat.le_trans (nesting_le_of_mem hv) (Nat.le_of_succ_le_succ hdepth)
    refine .inr ?_
    rw [compact, String.toList_append, String.toList_append]
    exact .array (enclosedText_intercalate hitems tolerant)
  | @object fields hnodup _ ih =>
    rw [nesting, fieldNesting_eq] at hdepth
    rw [decimals, fieldDecimals_eq] at hfinite
    obtain ⟨depth, rfl⟩ := Nat.exists_eq_add_one_of_ne_zero (Nat.ne_zero_of_lt hdepth)
    have hfields : List.Forall₂ (fun t field => FieldText (ValueText tolerant depth) t.toList field)
        (compactFields fields) fields := by
      rw [compactFields_eq_map, List.forall₂_map_left_iff, List.forall₂_same]
      intro field hfield
      have hmem : field.2 ∈ fields.map (·.2) := List.mem_map_of_mem hfield
      have hvalue : ValueText tolerant depth field.2.compact.toList field.2 := by
        refine ih field hfield (fun x hx => hfinite x (mem_itemDecimals hmem hx)) ?_
        exact Nat.le_trans (nesting_le_of_mem hmem) (Nat.le_of_succ_le_succ hdepth)
      have htext := FieldText.field (stringText_writeString field.1) blanks_nil blanks_nil hvalue
      rw [String.toList_append, String.toList_append]
      simpa using htext
    refine .inr ?_
    rw [compact, String.toList_append, String.toList_append]
    exact .object (enclosedText_intercalate hfields tolerant) (merges_self hnodup)

/-- A text of a value alone is a document. -/
theorem readDocument_of_valueText {options : ReadOptions} {text : String} {v : Value}
    (h : ValueText options.allowTrailingCommas options.maxDepth.toNat text.toList v) :
    readDocument options text = .ok v := by
  have hdocument := DocumentText.document blanks_nil h blanks_nil
  rw [List.append_nil, List.nil_append] at hdocument
  exact readDocument_eq_ok_iff_readText.mpr (readText_eq_ok_iff.mpr hdocument)

/-- The compact text of a value without infinities and NaN, nested no deeper than the reader goes,
is read as that value. -/
theorem readDocument_compact (options : ReadOptions) {v : Value} (hkeys : v.DistinctKeys)
    (hfinite : ∀ x ∈ v.decimals, x.isFinite = true)
    (hdepth : v.nesting ≤ options.maxDepth.toNat) :
    readDocument options v.compact = .ok v :=
  readDocument_of_valueText (valueText_compact options.allowTrailingCommas hkeys hfinite hdepth)

/-- A measurement with a negative zero, an integer beside an equal decimal, and characters that need
escapes. -/
def measurement : Value :=
  .object [("caf\u00e9\n", .string "\u0001 \\ \"x\" / \u2028"),
    ("values", .array [.integer (-1), .decimal (.ofParts true 0x10000000000000 1022),
      .decimal (.zero true), .array []])]

theorem measurement_distinctKeys : measurement.DistinctKeys := by
  refine .pair (by decide) (.scalar rfl) (.array ?_)
  simp only [List.forall_mem_cons]
  exact ⟨.scalar rfl, .scalar rfl, .scalar rfl, .array (by simp), by simp⟩

/-- A measurement is read back where brackets may nest three deep. -/
theorem readDocument_compact_measurement :
    measurement.DistinctKeys ∧ (∀ x ∈ measurement.decimals, x.isFinite = true) ∧
      measurement.nesting ≤ 3 ∧ readDocument ⟨true, 3⟩ measurement.compact = .ok measurement :=
  ⟨measurement_distinctKeys, by decide, by decide,
    readDocument_compact ⟨true, 3⟩ measurement_distinctKeys (by decide) (by decide)⟩

end Value
end ContractDraft
