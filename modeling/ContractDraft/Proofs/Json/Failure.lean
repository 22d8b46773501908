import ContractDraft.Proofs.Json.Nesting
import ContractDraft.Proofs.Json.Outcome

/-!
# Failures stand at their cause

A text that is no document is refused at a character, or at its end, that explains why. `Fits` says
for every cause what must be there, in terms of the text before this place and the text from it on.
The causes found inside a string, a word or a number are explained by the text from their place on
(`BlamedAnywhere`). What a comma, a quotation mark or a bracket means depends on the text before it,
so those explanations are carried along while more and more text is put in front (`Blamed.prepend`).
-/

namespace ContractDraft

/-- What a cause says of the place it is reported at, between the text `before` and the text `rest`.
Brackets may nest `room` deeper than at the beginning of `before`. -/
def ReadCause.Fits (options : ReadOptions) (room : ℕ) (before rest : List Char) : ReadCause → Prop
  | .unexpected _ found => rest.head? = some found
  | .unexpectedEnd _ => rest = []
  | .unterminatedString => (standing before).place = .outside ∧ UnclosedString rest
  | .invalidEscape => rest ≠ []
  | .controlCharacter => ∃ c ∈ rest.head?, c.toNat < 0x20
  | .malformedNumber literal =>
    literal.toList = rest.takeWhile isNumberChar ∧
      (∃ c ∈ rest.head?, c = '-' ∨ c.isDigit = true) ∧ ∀ n, ¬ NumberText literal.toList n
  | .trailingComma =>
    options.allowTrailingCommas = false ∧ (∃ c ∈ rest.head?, c = ']' ∨ c = '}') ∧
      ∃ shown blanks, before = shown ++ ',' :: blanks ∧ Blanks blanks
  | .trailingCharacters =>
    (∃ c ∈ rest.head?, c ∉ [' ', '\t', '\n', '\r']) ∧
      ∃ v, DocumentText options.allowTrailingCommas options.maxDepth.toNat before v
  | .tooDeep limit =>
    limit = options.maxDepth.toNat ∧ (∃ c ∈ rest.head?, c = '[' ∨ c = '{') ∧
      standing before = ⟨.outside, room⟩

/-- The failure stands in the text, and its cause fits there. That characters trail is only found
where a whole text ends, not in a part of it. -/
def Blamed (options : ReadOptions) (room : ℕ) (s : List Char) (failure : ReadFailure) : Prop :=
  ∃ before, s = before ++ failure.rest ∧ failure.cause ≠ .trailingCharacters ∧
    failure.cause.Fits options room before failure.rest

/-- The failure stands in the text, and its cause fits there whatever comes before. -/
def BlamedAnywhere (s : List Char) (failure : ReadFailure) : Prop :=
  failure.rest <:+ s ∧ failure.cause ≠ .trailingCharacters ∧
    ∀ options room before, failure.cause.Fits options room before failure.rest

/-- Every failure of the reader is blamed on its place. -/
def Blames {α : Type} (options : ReadOptions) (room bound : ℕ)
    (read : List Char → Except ReadFailure (α × List Char)) : Prop :=
  ∀ s failure, s.length < bound → read s = .error failure → Blamed options room s failure

/-! ## More text in front -/

/-- A cause still fits behind more text, with as much more room as brackets are opened there. -/
theorem ReadCause.Fits.prepend {options : ReadOptions} {room n : ℕ} {u before rest : List Char}
    {cause : ReadCause} (hu : standing u = ⟨.outside, n⟩) (hcause : cause ≠ .trailingCharacters)
    (h : cause.Fits options room before rest) :
    cause.Fits options (room + n) (u ++ before) rest := by
  have hstanding := standing_append hu before
  -- Four causes look at the text in front of their place, and one of them is excluded here.
  cases cause with
  | unterminatedString =>
    obtain ⟨hplace, hunclosed⟩ := h
    exact ⟨by rw [hstanding, hplace], hunclosed⟩
  | trailingComma =>
    obtain ⟨hstrict, hclose, shown, blanks, rfl, hblanks⟩ := h
    exact ⟨hstrict, hclose, u ++ shown, blanks, (List.append_assoc ..).symm, hblanks⟩
  | tooDeep limit =>
    obtain ⟨hlimit, hbracket, hbefore⟩ := h
    refine ⟨hlimit, hbracket, ?_⟩
    rw [hstanding, hbefore, Int.natCast_add, Int.add_comm]
  | trailingCharacters => contradiction
  | _ => exact h

/-- A failure is still to blame behind more text. -/
theorem Blamed.prepend {options : ReadOptions} {room n : ℕ} {u s : List Char}
    {failure : ReadFailure} (h : Blamed options room s failure)
    (hu : standing u = ⟨.outside, n⟩) : Blamed options (room + n) (u ++ s) failure := by
  obtain ⟨before, rfl, hcause, hfits⟩ := h
  exact ⟨u ++ before, (List.append_assoc ..).symm, hcause, hfits.prepend hu hcause⟩

/-- Behind text that opens and closes its brackets a failure is to blame as before. -/
theorem Neutral.blamed_append {options : ReadOptions} {room : ℕ} {u s : List Char}
    {failure : ReadFailure} (hu : Neutral u) (h : Blamed options room s failure) :
    Blamed options room (u ++ s) failure :=
  h.prepend (n := 0) hu

/-- What is to blame anywhere is to blame under all options. -/
theorem BlamedAnywhere.blamed {s : List Char} {failure : ReadFailure}
    (h : BlamedAnywhere s failure) (options : ReadOptions) (room : ℕ) :
    Blamed options room s failure := by
  obtain ⟨⟨before, hs⟩, hcause, hfits⟩ := h
  exact ⟨before, hs.symm, hcause, hfits options room before⟩

/-- What is to blame in a part of a text is to blame in the text. -/
theorem BlamedAnywhere.of_suffix {s t : List Char} {failure : ReadFailure}
    (h : BlamedAnywhere s failure) (hs : s <:+ t) : BlamedAnywhere t failure :=
  ⟨h.1.trans hs, h.2⟩

/-- What was expected is not at the front of the text, or the text ends there. -/
theorem blamedAnywhere_mismatch (expected : Expectation) (s : List Char) :
    BlamedAnywhere s (.mismatch expected s) := by
  cases s with
  | nil => exact ⟨List.suffix_refl [], by simp [ReadFailure.mismatch], fun _ _ _ => rfl⟩
  | cons c s => exact ⟨List.suffix_refl _, by simp [ReadFailure.mismatch], fun _ _ _ => rfl⟩

theorem blamedAnywhere_invalidEscape {s t : List Char} (ht : t <:+ s) (hne : t ≠ []) :
    BlamedAnywhere s ⟨.invalidEscape, t⟩ :=
  ⟨ht, by simp, fun _ _ _ => hne⟩

/-! ## Strings -/

/-- Hexadecimal digits that fail are to blame wherever they stand. -/
theorem blamed_readHex {count high : ℕ} {s : List Char} {failure : ReadFailure}
    (h : readHex count high s = .error failure) : BlamedAnywhere s failure := by
  induction count generalizing high s with
  | zero => cases h
  | succ count ih =>
    cases s with
    | nil =>
      cases h
      exact blamedAnywhere_mismatch .hexDigit []
    | cons c s =>
      unfold readHex at h
      split at h
      · exact (ih h).of_suffix (List.suffix_cons c s)
      · cases h
        exact blamedAnywhere_invalidEscape (List.suffix_refl _) (List.cons_ne_nil c s)

/-- An escape by number that fails is to blame wherever it stands. -/
theorem blamed_readUnicodeEscape {s : List Char} {failure : ReadFailure}
    (h : readUnicodeEscape ('\\' :: 'u' :: s) s = .error failure) :
    BlamedAnywhere ('\\' :: 'u' :: s) failure := by
  have hstart : s <:+ '\\' :: 'u' :: s := List.suffix_append ['\\', 'u'] s
  -- Two surrogates that do not belong together are reported at the backslash of the first escape.
  have hpair : BlamedAnywhere ('\\' :: 'u' :: s) ⟨.invalidEscape, '\\' :: 'u' :: s⟩ :=
    blamedAnywhere_invalidEscape (List.suffix_refl _) (List.cons_ne_nil _ _)
  rcases bind_eq_error_iff.mp h with hfirst | ⟨⟨n, t⟩, hfirst, h⟩
  · exact (blamed_readHex hfirst).of_suffix hstart
  have ht : t <:+ '\\' :: 'u' :: s := (rest_suffix (left_readHex_suffix 4 0 s) hfirst).trans hstart
  dsimp only at h
  split at h
  · split at h
    · rename_i u
      rcases bind_eq_error_iff.mp h with hsecond | ⟨⟨low, v⟩, hsecond, h⟩
      · have hu : u <:+ '\\' :: 'u' :: s := (List.suffix_append ['\\', 'u'] u).trans ht
        exact (blamed_readHex hsecond).of_suffix hu
      · dsimp only at h
        split at h
        · cases h
        · cases h
          exact hpair
    · cases h
      exact hpair
  · split at h
    · cases h
      exact hpair
    · cases h

/-- An escape that fails is to blame wherever it stands, unless the text ends before it does. -/
theorem blamed_readEscape {opening s : List Char} {failure : ReadFailure}
    (h : readEscape opening s = .error failure) :
    (failure = ⟨.unterminatedString, opening⟩ ∧ s = []) ∨ BlamedAnywhere ('\\' :: s) failure := by
  unfold readEscape at h
  split at h
  · cases h
    exact .inl ⟨rfl, rfl⟩
  · exact .inr (blamed_readUnicodeEscape h)
  · rename_i c s _
    split at h
    · cases h
    · cases h
      exact .inr (blamedAnywhere_invalidEscape (List.suffix_cons '\\' _) (List.cons_ne_nil c s))

/-- Inside a string the reader comes to its end, to a character that must not be there, or to the
end of a text in which the string stays open. -/
theorem blamed_readStringBody {opening : List Char} {fuel : ℕ} {s : List Char}
    {failure : ReadFailure} (hfuel : s.length ≤ fuel)
    (h : readStringBody opening fuel s = .error failure) :
    (failure = ⟨.unterminatedString, opening⟩ ∧
        ∀ u, u <+: s → u.foldl Place.step .inside ≠ .outside) ∨ BlamedAnywhere s failure := by
  induction fuel generalizing s with
  | zero =>
    obtain rfl := List.eq_nil_of_length_eq_zero (Nat.le_zero.mp hfuel)
    cases h
    refine .inl ⟨rfl, fun u hu => ?_⟩
    rw [List.prefix_nil.mp hu]
    decide
  | succ fuel ih =>
    cases s with
    | nil =>
      cases h
      refine .inl ⟨rfl, fun u hu => ?_⟩
      rw [List.prefix_nil.mp hu]
      decide
    | cons c s =>
      rw [List.length_cons] at hfuel
      unfold readStringBody at h
      split at h
      · cases h
      rename_i hquote
      split at h
      · rename_i hback
        subst hback
        rcases bind_eq_error_iff.mp h with hescape | ⟨⟨decoded, t⟩, hescape, h⟩
        · rcases blamed_readEscape hescape with ⟨rfl, rfl⟩ | hblamed
          · -- The text ends behind a backslash, which opens and closes nothing.
            refine .inl ⟨rfl, fun u hu => ?_⟩
            rcases List.prefix_cons_iff.mp hu with rfl | ⟨v, rfl, hv⟩
            · decide
            · rw [List.prefix_nil.mp hv]
              decide
          · exact .inr hblamed
        · -- The escape cannot end the string, so one left open behind it is open in front of it.
          obtain ⟨e, hs, hinside⟩ := escapeText_of_readEscape hescape
          have hlength : t.length ≤ fuel := by
            have hsum := congrArg List.length hs
            have hpos := List.length_pos_iff.mpr (CharText.escape hinside).ne_nil
            simp only [List.length_cons, List.length_append] at hsum
            omega
          rw [hs]
          rcases ih hlength (bind_ok_eq_error_iff.mp h) with ⟨rfl, hopen⟩ | hblamed
          · exact .inl ⟨rfl, hinside.stringInside.unclosed_append hopen⟩
          · exact .inr (hblamed.of_suffix (List.suffix_append e t))
      rename_i hback
      split at h
      · rename_i hcontrol
        cases h
        exact .inr ⟨List.suffix_refl _, by simp, fun _ _ _ => ⟨c, rfl, hcontrol⟩⟩
      · have hbody := bind_ok_eq_error_iff.mp h
        rcases ih (Nat.le_of_succ_le_succ hfuel) hbody with ⟨rfl, hopen⟩ | hblamed
        · have hinside : StringInside [c] := .plain hquote hback .nil
          exact .inl ⟨rfl, hinside.unclosed_append hopen⟩
        · exact .inr (hblamed.of_suffix (List.suffix_cons c s))

/-- A string that fails is to blame for what it holds or for having no end. -/
theorem blamed_readString {options : ReadOptions} {room bound : ℕ} {s : List Char}
    {failure : ReadFailure} (hbound : s.length ≤ bound)
    (h : readString bound ('"' :: s) s = .error failure) :
    Blamed options room ('"' :: s) failure := by
  have hbody := bind_ok_eq_error_iff.mp h
  rcases blamed_readStringBody hbound hbody with ⟨rfl, hopen⟩ | hblamed
  · exact ⟨[], rfl, by simp, rfl, s, rfl, hopen⟩
  · exact (hblamed.of_suffix (List.suffix_cons '"' s)).blamed options room

/-! ## Words and numbers -/

/-- A word that fails is to blame wherever it stands. -/
theorem blamed_readWord {word : String} {letters s : List Char} {failure : ReadFailure}
    (h : readWord word letters s = .error failure) : BlamedAnywhere s failure := by
  induction letters generalizing s with
  | nil => cases h
  | cons letter letters ih =>
    cases s with
    | nil =>
      cases h
      exact blamedAnywhere_mismatch (.word word) []
    | cons c s =>
      unfold readWord at h
      split at h
      · exact (ih h).of_suffix (List.suffix_cons c s)
      · cases h
        exact blamedAnywhere_mismatch (.word word) (c :: s)

theorem blamed_readConstant {word : String} {constant : Value} {s : List Char}
    {failure : ReadFailure} (h : readConstant word constant s = .error failure) :
    BlamedAnywhere s failure :=
  blamed_readWord (bind_ok_eq_error_iff.mp h)

/-- A number that fails is to blame wherever it stands. -/
theorem blamed_readNumber {c : Char} {s : List Char} {failure : ReadFailure}
    (hc : c = '-' ∨ c.isDigit = true) (h : readNumber (c :: s) = .error failure) :
    BlamedAnywhere (c :: s) failure := by
  unfold readNumber at h
  dsimp only at h
  split at h
  · cases h
  · rename_i hnone
    cases h
    refine ⟨List.suffix_refl _, by simp, fun _ _ _ => ⟨String.toList_ofList, ⟨c, rfl, hc⟩, ?_⟩⟩
    intro n hn
    rw [String.toList_ofList] at hn
    rw [Numeral.ofLiteral?_of_text hn] at hnone
    cases hnone

/-! ## Members -/

section members

variable {α : Type} {Text : List Char → α → Prop} {options : ReadOptions} {room bound : ℕ}
  {close : Char} {next : Expectation} {member : List Char → Except ReadFailure (α × List Char)}

/-- In the member loop a bracket that closes too early stands behind the comma of the round before,
so the loop is only ever entered where no bracket closes. -/
theorem blamed_readMembers (hreads : Reads Text bound member)
    (hneutral : ∀ t a, Text t a → Neutral t) (hblames : Blames options room bound member)
    (hclose : close = ']' ∨ close = '}') {fuel : ℕ} {s : List Char} {failure : ReadFailure}
    (hbound : s.length < bound) (hfuel : s.length < fuel) (hhead : s.head? ≠ some close)
    (h : readMembers options close next member fuel s = .error failure) :
    Blamed options room s failure := by
  induction fuel generalizing s with
  | zero => exact absurd hfuel (Nat.not_lt_zero _)
  | succ fuel ih =>
    rw [readMembers_succ, if_neg hhead] at h
    rcases bind_eq_error_iff.mp h with hmember | ⟨⟨a, rest⟩, hmember, hthen⟩
    · exact hblames s failure hbound hmember
    obtain ⟨before, t, rfl, hbefore, ha⟩ := hreads.sound hmember
    have hfirst : Neutral (before ++ t) := hbefore.neutral.append (hneutral t a ha)
    have hspec := behind_spec options close next rest
    unfold readBehind at hthen
    generalize behind options close next rest = b at hthen hspec
    cases hspec with
    | closed _ => cases hthen
    | tolerated _ _ _ => cases hthen
    | @failed after u hafter _ _ _ =>
      cases hthen
      rw [← List.append_assoc, ← List.append_assoc]
      refine (hfirst.append hafter.neutral).blamed_append ?_
      exact (blamedAnywhere_mismatch next u).blamed options room
    | @another after blanks u hafter hblanks _ hstrict =>
      have hlead : Neutral (before ++ t ++ after ++ ',' :: blanks) :=
        (hfirst.append hafter.neutral).append (neutral_comma.append hblanks.neutral)
      have hs : before ++ (t ++ (after ++ ',' :: (blanks ++ u))) =
          before ++ t ++ after ++ ',' :: blanks ++ u := by simp
      rw [hs] at hbound hfuel ⊢
      simp only [List.length_append, List.length_cons] at hbound hfuel
      have hothers := bind_ok_eq_error_iff.mp hthen
      -- A closing bracket here is refused by the next round, behind the comma of this one.
      by_cases hcloses : u.head? = some close
      · obtain ⟨fuel, rfl⟩ : ∃ n, fuel = n + 1 := Nat.exists_eq_add_one_of_ne_zero (by omega)
        rw [readMembers_succ, if_pos hcloses] at hothers
        cases hothers
        exact ⟨_, rfl, by simp, hstrict hcloses, ⟨close, hcloses, hclose⟩, _, blanks, rfl, hblanks⟩
      · exact hlead.blamed_append (ih (by omega) (by omega) hcloses hothers)

/-- Members up to a closing bracket fail as described if the members do. -/
theorem blames_readEnclosed (hreads : Reads Text bound member)
    (hneutral : ∀ t a, Text t a → Neutral t) (hblames : Blames options room bound member)
    (hclose : close = ']' ∨ close = '}') :
    Blames options room bound (readEnclosed options bound close next member) := by
  intro s failure hbound h
  obtain ⟨before, hs, hbefore, -⟩ := exists_blanks s
  unfold readEnclosed at h
  dsimp only at h
  split at h
  · cases h
  · rename_i hhead
    have hlength : (skipBlanks s).length < bound :=
      Nat.lt_of_le_of_lt (skipBlanks_suffix s).length_le hbound
    rw [hs]
    exact hbefore.neutral.blamed_append
      (blamed_readMembers hreads hneutral hblames hclose hlength hlength hhead h)

end members

/-! ## Values -/

section values

variable {Item : List Char → Value → Prop} {options : ReadOptions} {room bound : ℕ}
  {value : List Char → Except ReadFailure (Value × List Char)}

/-- Blanks have no brackets, so what is wrong behind them is wrong with them as well. -/
theorem blames_readNext {α : Type} {expected : Expectation}
    {go : Char → List Char → Except ReadFailure (α × List Char)}
    (hgo : ∀ c t failure, (c :: t).length < bound → go c t = .error failure →
      Blamed options room (c :: t) failure) :
    Blames options room bound (readNext expected go) := by
  intro s failure hbound h
  obtain ⟨before, hs, hbefore, -⟩ := exists_blanks s
  have hlength := (skipBlanks_suffix s).length_le
  unfold readNext at h
  rw [hs]
  refine hbefore.neutral.blamed_append ?_
  generalize skipBlanks s = u at h hlength
  cases u with
  | nil =>
    cases h
    exact (blamedAnywhere_mismatch expected []).blamed options room
  | cons c t => exact hgo c t failure (by omega) h

theorem blames_readKey : Blames options room bound (readKey bound) := by
  refine blames_readNext fun c t failure hbound h => ?_
  split at h
  · rename_i hquote
    subst hquote
    exact blamed_readString (Nat.le_of_succ_le (Nat.le_of_lt hbound)) h
  · cases h
    exact (blamedAnywhere_mismatch .key (c :: t)).blamed options room

theorem blames_readColon : Blames options room bound readColon := by
  refine blames_readNext fun c t failure _ h => ?_
  split at h
  · cases h
  · cases h
    exact (blamedAnywhere_mismatch .colon (c :: t)).blamed options room

/-- A key that was read leaves no bracket open. -/
theorem neutral_of_readKey {s rest : List Char} {key : String}
    (h : readKey bound s = .ok (key, rest)) : ∃ front, s = front ++ rest ∧ Neutral front := by
  obtain ⟨before, hs, hbefore, -⟩ := exists_blanks s
  unfold readKey readNext at h
  split at h
  · cases h
  rename_i c t hcons
  dsimp only at h
  split at h
  · rename_i hquote
    obtain ⟨k, ht, hk⟩ := stringText_of_readString h
    refine ⟨before ++ '"' :: k, ?_, hbefore.neutral.append hk.neutral⟩
    rw [hs, hcons, hquote, ht, List.append_assoc, List.cons_append]
  · cases h

theorem neutral_of_readColon {s rest : List Char} {u : Unit} (h : readColon s = .ok (u, rest)) :
    ∃ front, s = front ++ rest ∧ Neutral front := by
  obtain ⟨before, hs, hbefore, -⟩ := exists_blanks s
  unfold readColon readNext at h
  split at h
  · cases h
  rename_i c t hcons
  dsimp only at h
  split at h
  · rename_i hcolon
    cases h
    have hmark : Neutral [':'] := rfl
    refine ⟨before ++ [':'], ?_, hbefore.neutral.append hmark⟩
    rw [hs, hcons, hcolon, List.append_assoc, List.singleton_append]
  · cases h

/-- Fields fail as described if their values do. -/
theorem blames_readField (hblames : Blames options room bound value) :
    Blames options room bound (readField bound value) := by
  intro s failure hbound h
  rw [readField_eq] at h
  rcases bind_eq_error_iff.mp h with hkey | ⟨⟨key, t⟩, hkey, hthen⟩
  · exact blames_readKey s failure hbound hkey
  obtain ⟨front, rfl, hfront⟩ := neutral_of_readKey hkey
  rw [List.length_append] at hbound
  refine hfront.blamed_append ?_
  rcases bind_eq_error_iff.mp hthen with hcolon | ⟨⟨_, u⟩, hcolon, hlast⟩
  · have hcolons : Blames options room bound readColon := blames_readColon
    exact hcolons t failure (by omega) hcolon
  obtain ⟨mark, rfl, hmark⟩ := neutral_of_readColon hcolon
  rw [List.length_append] at hbound
  refine hmark.blamed_append ?_
  exact hblames u failure (by omega) (bind_ok_eq_error_iff.mp hlast)

/-- Behind an opening bracket there is room for one bracket less. -/
theorem blamed_readBracketed (hreads : Reads Item bound value)
    (hcontained : ∀ t v, Item t v → Contained room t) (hblames : Blames options room bound value)
    {bracket : Char} (hbracket : bracket = '{' ∨ bracket = '[') {s : List Char}
    {failure : ReadFailure} (hbound : s.length < bound)
    (h : readBracketed options bound value bracket s = .error failure) :
    Blamed options (room + 1) (bracket :: s) failure := by
  suffices hinner : Blamed options room s failure by
    have hopen : standing [bracket] = ⟨.outside, 1⟩ := by rcases hbracket with rfl | rfl <;> rfl
    exact hinner.prepend hopen
  unfold readBracketed at h
  split at h
  · have hitems := bind_ok_eq_error_iff.mp h
    have hneutral (t : List Char) (v : Value) (ht : Item t v) : Neutral t :=
      (hcontained t v ht).neutral
    exact blames_readEnclosed hreads hneutral hblames (.inl rfl) s failure hbound hitems
  · have hmembers := bind_ok_eq_error_iff.mp h
    have hfield (t : List Char) (field : String × Value) (hf : FieldText Item t field) :
        Neutral t := (contained_fieldText hcontained hf).neutral
    exact blames_readEnclosed (reads_readField hreads) hfield (blames_readField hblames) (.inr rfl)
      s failure hbound hmembers

/-- Values fail as described if arrays and objects do. -/
theorem blames_readValueWith
    {bracketed : Char → List Char → Except ReadFailure (Value × List Char)}
    (hbracketed : ∀ bracket s failure, bracket = '{' ∨ bracket = '[' → s.length < bound →
      bracketed bracket s = .error failure → Blamed options room (bracket :: s) failure) :
    Blames options room bound (readValueWith bound bracketed) := by
  rw [readValueWith_eq]
  refine blames_readNext fun c t failure hbound h => ?_
  have hlength : t.length < bound := Nat.lt_of_succ_lt hbound
  unfold readFrom at h
  -- One case for each character that may open a value, in the order in which they are tried.
  split at h
  · rename_i hbracket
    exact hbracketed c t failure hbracket hlength h
  split at h
  · rename_i hquote
    subst hquote
    exact blamed_readString hlength.le (bind_ok_eq_error_iff.mp h)
  split at h
  · exact (blamed_readConstant h).blamed options room
  split at h
  · exact (blamed_readConstant h).blamed options room
  split at h
  · exact (blamed_readConstant h).blamed options room
  split at h
  · rename_i hnumber
    exact (blamed_readNumber hnumber h).blamed options room
  · cases h
    exact (blamedAnywhere_mismatch .value (c :: t)).blamed options room

end values

/-- Every failure of reading a value is blamed on its place, to any depth. -/
theorem blames_readValue (options : ReadOptions) (bound room : ℕ) :
    Blames options room bound (readValue options bound room) := by
  induction room with
  | zero =>
    -- With no room left the bracket is refused itself, and nothing stands in front of it.
    refine blames_readValueWith fun bracket s failure hbracket _ h => ?_
    cases h
    exact ⟨[], rfl, by simp, rfl, ⟨bracket, rfl, hbracket.symm⟩, rfl⟩
  | succ room ih =>
    have hreads := reads_readValue options bound room
    refine blames_readValueWith fun bracket s failure hbracket hbound h => ?_
    exact blamed_readBracketed hreads (fun t v => contained_valueText) ih hbracket hbound h

/-! ## Documents -/

/-- Where reading a text fails, the cause fits. -/
theorem fits_of_readText {options : ReadOptions} {text : List Char} {failure : ReadFailure}
    (h : readText options text = .error failure) :
    ∃ before, text = before ++ failure.rest ∧
      failure.cause.Fits options options.maxDepth.toNat before failure.rest := by
  have hblames := blames_readValue options (text.length + 1) options.maxDepth.toNat
  have hreads := reads_readValue options (text.length + 1) options.maxDepth.toNat
  rcases bind_eq_error_iff.mp h with hvalue | ⟨⟨v, s⟩, hvalue, h⟩
  · obtain ⟨before, htext, -, hfits⟩ := hblames text failure (Nat.lt_succ_self _) hvalue
    exact ⟨before, htext, hfits⟩
  -- The value is complete, so what is wrong is what stands behind it and is not blank.
  obtain ⟨before, t, htext, hbefore, ht⟩ := hreads.sound hvalue
  obtain ⟨after, hs, hafter, hends⟩ := exists_blanks s
  dsimp only at h
  split at h
  · cases h
  · rename_i hne
    cases h
    refine ⟨before ++ t ++ after, ?_, ?_, v, .document hbefore ht hafter⟩
    · rw [htext, List.append_assoc, List.append_assoc, ← hs]
    · obtain ⟨c, u, hcons⟩ := List.exists_cons_of_ne_nil hne
      rw [hcons] at hends ⊢
      have hblank : isBlank c = false := hends c rfl
      refine ⟨c, rfl, fun hmem => ?_⟩
      rw [isBlank_iff.mpr hmem] at hblank
      cases hblank

/-- The position of an error is the number of characters in front of the place that reading fails
at. -/
theorem readDocument_eq_error_iff {options : ReadOptions} {text : String} {e : ReadError} :
    readDocument options text = .error e ↔
      ∃ before rest, text.toList = before ++ rest ∧ before.length = e.position ∧
        readText options text.toList = .error ⟨e.cause, rest⟩ := by
  have hposition (before rest : List Char) :
      (before ++ rest).length - rest.length = before.length := by
    rw [List.length_append, Nat.add_sub_cancel_right]
  unfold readDocument
  constructor
  · intro h
    cases hread : readText options text.toList with
    | ok v =>
      rw [hread] at h
      cases h
    | error failure =>
      rw [hread] at h
      cases h
      obtain ⟨before, htext, _⟩ := fits_of_readText hread
      refine ⟨before, failure.rest, htext, ?_, rfl⟩
      rw [htext]
      exact (hposition before failure.rest).symm
  · rintro ⟨before, rest, htext, hbefore, hread⟩
    rw [hread]
    show Except.error (ReadFailure.locate ⟨e.cause, rest⟩ text.toList) = Except.error e
    rw [ReadFailure.locate, htext, hposition, hbefore]

/-- A text that fails has a position of failure. -/
theorem exists_readDocument_eq_error {options : ReadOptions} {text : String} {failure : ReadFailure}
    (h : readText options text.toList = .error failure) :
    ∃ p, readDocument options text = .error ⟨p, failure.cause⟩ := by
  unfold readDocument
  rw [h]
  exact ⟨_, rfl⟩

/-- The position of an error cuts the text where the cause fits. -/
theorem fits_of_readDocument {options : ReadOptions} {text : String} {e : ReadError}
    (h : readDocument options text = .error e) :
    ∃ before rest, text.toList = before ++ rest ∧ before.length = e.position ∧
      readText options text.toList = .error ⟨e.cause, rest⟩ ∧
        e.cause.Fits options options.maxDepth.toNat before rest := by
  obtain ⟨before, rest, htext, hposition, hread⟩ := readDocument_eq_error_iff.mp h
  obtain ⟨front, hfront, hfits⟩ := fits_of_readText hread
  obtain rfl : front = before := List.append_cancel_right (hfront.symm.trans htext)
  exact ⟨front, rest, htext, hposition, hread, hfits⟩

end ContractDraft
