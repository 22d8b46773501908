import ContractDraft.Proofs.Json.Reader
import Mathlib.Data.List.Infix

/-!
# What a reader leaves

A reader returns what it read, or why it could not, and either way a part of the text: the one it
has not taken, or the one from the offending character on (`left`). This part always ends the text
that was read (`left_readValue_suffix`). What comes behind a member is decided by a few characters
alone (`behind`, `behind_spec`), so a round of the member loop is a member and one such decision
(`readMembers_succ`); statements about runs of the reader go by that.
-/

namespace ContractDraft

/-- The text that is left to read, or that stands from the offending character on. -/
def left {α : Type} : Except ReadFailure (α × List Char) → List Char
  | .ok (_, rest) => rest
  | .error failure => failure.rest

@[simp] theorem left_ok {α : Type} (a : α) (rest : List Char) :
    left (.ok (a, rest) : Except ReadFailure (α × List Char)) = rest := rfl

@[simp] theorem left_error {α : Type} (failure : ReadFailure) :
    left (.error failure : Except ReadFailure (α × List Char)) = failure.rest := rfl

/-- A sequence of two readers fails if one of them does. -/
theorem bind_eq_error_iff {ε α β : Type} {x : Except ε α} {f : α → Except ε β} {e : ε} :
    x >>= f = .error e ↔ x = .error e ∨ ∃ a, x = .ok a ∧ f a = .error e := by
  cases x <;> simp [bind, Except.bind]

/-- What is done with a result fails with the reader alone. -/
theorem bind_ok_eq_error_iff {ε α β : Type} {x : Except ε α} {f : α → β} {e : ε} :
    (x >>= fun a => .ok (f a)) = .error e ↔ x = .error e := by
  cases x <;> simp [bind, Except.bind]

/-- The second of two readers starts inside the text and stays inside of it. -/
theorem left_bind_suffix {α β : Type} {x : Except ReadFailure (α × List Char)}
    {f : α × List Char → Except ReadFailure (β × List Char)} {s : List Char} (hx : left x <:+ s)
    (hf : ∀ a rest, rest <:+ s → left (f (a, rest)) <:+ s) : left (x >>= f) <:+ s := by
  cases x with
  | error failure => exact hx
  | ok p => exact hf p.1 p.2 hx

/-- What is left of a text to read is a part of it. -/
theorem rest_suffix {α : Type} {x : Except ReadFailure (α × List Char)} {a : α}
    {s rest : List Char} (hleft : left x <:+ s) (hx : x = .ok (a, rest)) : rest <:+ s := by
  rw [hx] at hleft
  exact hleft

/-! ## Behind a member -/

/-- What comes behind a member: the end of the row, another member, or neither. -/
inductive Behind where
  | closed (rest : List Char)
  | another (rest : List Char)
  | failed (failure : ReadFailure)

/-- Reads what comes behind a member, up to the next one. -/
def behind (options : ReadOptions) (close : Char) (next : Expectation) (s : List Char) : Behind :=
  match skipBlanks s with
  | [] => .failed (.mismatch next [])
  | c :: t =>
    if c = ',' then
      if options.allowTrailingCommas ∧ (skipBlanks t).head? = some close then
        .closed (skipBlanks t).tail
      else .another (skipBlanks t)
    else if c = close then .closed t
    else .failed (.mismatch next (c :: t))

/-- What may come behind a member, in terms of the text. -/
inductive BehindMember (options : ReadOptions) (close : Char) (next : Expectation) :
    List Char → Behind → Prop where
  | closed {after rest : List Char} : Blanks after →
      BehindMember options close next (after ++ close :: rest) (.closed rest)
  | tolerated {after blanks rest : List Char} : options.allowTrailingCommas = true → Blanks after →
      Blanks blanks →
      BehindMember options close next (after ++ ',' :: (blanks ++ close :: rest)) (.closed rest)
  | another {after blanks s : List Char} : Blanks after → Blanks blanks → Ends isBlank s →
      (s.head? = some close → options.allowTrailingCommas = false) →
      BehindMember options close next (after ++ ',' :: (blanks ++ s)) (.another s)
  | failed {after s : List Char} : Blanks after → Ends isBlank s → s.head? ≠ some ',' →
      s.head? ≠ some close →
      BehindMember options close next (after ++ s) (.failed (.mismatch next s))

/-- What stands behind a member is told apart as described. -/
theorem behind_spec (options : ReadOptions) (close : Char) (next : Expectation) (s : List Char) :
    BehindMember options close next s (behind options close next s) := by
  obtain ⟨after, hs, hafter, hends⟩ := exists_blanks s
  unfold behind
  generalize skipBlanks s = v at hs hends
  subst hs
  cases v with
  | nil => exact .failed hafter hends (by simp) (by simp)
  | cons c t =>
    dsimp only
    split
    · rename_i hcomma
      subst hcomma
      -- Behind a comma the next character decides, and only if a comma may come last.
      obtain ⟨blanks, ht, hblanks, hnext⟩ := exists_blanks t
      generalize skipBlanks t = u at ht hnext ⊢
      subst ht
      split
      · rename_i hlast
        obtain ⟨rest, rfl⟩ := List.head?_eq_some_iff.mp hlast.2
        exact .tolerated hlast.1 hafter hblanks
      · rename_i hlast
        refine .another hafter hblanks hnext fun hhead => ?_
        exact Bool.eq_false_iff.mpr fun htolerant => hlast ⟨htolerant, hhead⟩
    rename_i hcomma
    split
    · rename_i hclose
      subst hclose
      exact .closed hafter
    · rename_i hclose
      exact .failed hafter hends (by simpa using hcomma) (by simpa using hclose)

/-- The text decides what comes behind a member. -/
theorem BehindMember.eq {options : ReadOptions} {close : Char} {next : Expectation}
    (hclose : close = ']' ∨ close = '}') {s : List Char} {b : Behind}
    (h : BehindMember options close next s b) : behind options close next s = b := by
  obtain ⟨hblank, hcomma, -⟩ := close_spec hclose
  have hcommaBlank : isBlank ',' = false := by decide
  unfold behind
  -- In every case something that is not blank follows, so the blanks shown are those skipped.
  cases h with
  | closed hafter =>
    rw [skipBlanks_append hafter (ends_cons hblank _)]
    simp [hcomma]
  | @tolerated after blanks rest htolerant hafter hblanks =>
    have hlast : skipBlanks (blanks ++ close :: rest) = close :: rest :=
      skipBlanks_append hblanks (ends_cons hblank _)
    rw [skipBlanks_append hafter (ends_cons hcommaBlank _)]
    simp [hlast, htolerant]
  | @another after blanks t hafter hblanks hends hstrict =>
    have hlast : skipBlanks (blanks ++ t) = t := skipBlanks_append hblanks hends
    rw [skipBlanks_append hafter (ends_cons hcommaBlank _)]
    simp only [hlast, if_pos]
    refine if_neg fun htolerated => ?_
    rw [hstrict htolerated.2] at htolerated
    cases htolerated.1
  | @failed after t hafter hends hnotComma hnotClose =>
    rw [skipBlanks_append hafter hends]
    cases t with
    | nil => rfl
    | cons c t =>
      have hc : c ≠ ',' := by simpa using hnotComma
      have hd : c ≠ close := by simpa using hnotClose
      simp only [if_neg hc, if_neg hd]

section members

variable {α : Type} (options : ReadOptions) (close : Char) (next : Expectation)

/-- Goes on behind the member `a`: the row ends with it, or `others` reads those that follow. -/
def readBehind (others : List Char → Except ReadFailure (List α × List Char)) (a : α)
    (s : List Char) : Except ReadFailure (List α × List Char) :=
  match behind options close next s with
  | .closed rest => .ok ([a], rest)
  | .another s => others s >>= fun p => .ok (a :: p.1, p.2)
  | .failed failure => .error failure

/-- A round of the member loop takes one member and goes on behind it. -/
theorem readMembers_succ (member : List Char → Except ReadFailure (α × List Char)) (fuel : ℕ)
    (s : List Char) :
    readMembers options close next member (fuel + 1) s =
      if s.head? = some close then .error ⟨.trailingComma, s⟩
      else member s >>= fun p =>
        readBehind options close next (readMembers options close next member fuel) p.1 p.2 := by
  rw [readMembers]
  refine if_congr Iff.rfl rfl (bind_congr fun p => ?_)
  obtain ⟨a, t⟩ := p
  -- Both sides look at the character behind the blanks, and for a comma at the one behind that.
  unfold readBehind behind
  dsimp only
  generalize skipBlanks t = u
  cases u with
  | nil => rfl
  | cons c v =>
    by_cases hcomma : c = ','
    · subst hcomma
      by_cases hlast : options.allowTrailingCommas = true ∧ (skipBlanks v).head? = some close
      · simp only [if_pos, if_pos hlast]
      · simp only [if_pos, if_neg hlast]
    · simp only [if_neg hcomma]
      by_cases hclose : c = close
      · simp only [if_pos hclose]
      · simp only [if_neg hclose]

end members

/-! ## Behind blanks -/

section next

variable {α : Type} (bound : ℕ)

/-- Goes on with the first character behind blanks, which must not be missing. -/
def readNext (expected : Expectation) (go : Char → List Char → Except ReadFailure (α × List Char))
    (s : List Char) : Except ReadFailure (α × List Char) :=
  match skipBlanks s with
  | [] => .error (.mismatch expected [])
  | c :: rest => go c rest

/-- Reads the key of a field. -/
def readKey : List Char → Except ReadFailure (String × List Char) :=
  readNext .key fun c rest =>
    if c = '"' then readString bound (c :: rest) rest else .error (.mismatch .key (c :: rest))

/-- Takes the colon behind a key. -/
def readColon : List Char → Except ReadFailure (Unit × List Char) :=
  readNext .colon fun c rest =>
    if c = ':' then .ok ((), rest) else .error (.mismatch .colon (c :: rest))

/-- A field is a key, a colon and a value, read one behind the other. -/
theorem readField_eq (value : List Char → Except ReadFailure (Value × List Char))
    (s : List Char) :
    readField bound value s =
      readKey bound s >>= fun key =>
        readColon key.2 >>= fun p => value p.2 >>= fun v => .ok ((key.1, v.1), v.2) := by
  -- The reader matches on a whole front of the text, the two steps on one character each.
  unfold readField readKey readNext
  cases skipBlanks s with
  | nil => rfl
  | cons c rest =>
    by_cases hquote : c = '"'
    · subst hquote
      refine bind_congr fun key => ?_
      unfold readColon readNext
      dsimp only
      cases skipBlanks key.2 with
      | nil => rfl
      | cons d rest =>
        by_cases hcolon : d = ':'
        · subst hcolon
          rfl
        · simp only [if_neg hcolon]
          split
          · rename_i hcons
            cases hcons
            contradiction
          · rfl
    · simp only [if_neg hquote]
      split
      · rename_i hcons
        cases hcons
        contradiction
      · rfl

/-- Reads the value that begins with the character `c`. -/
def readFrom (bracketed : Char → List Char → Except ReadFailure (Value × List Char)) (c : Char)
    (s : List Char) : Except ReadFailure (Value × List Char) :=
  if c = '{' ∨ c = '[' then bracketed c s
  else if c = '"' then readString bound (c :: s) s >>= fun p => .ok (.string p.1, p.2)
  else if c = 't' then readConstant "true" (.boolean true) (c :: s)
  else if c = 'f' then readConstant "false" (.boolean false) (c :: s)
  else if c = 'n' then readConstant "null" .null (c :: s)
  else if c = '-' ∨ c.isDigit then readNumber (c :: s)
  else .error (.mismatch .value (c :: s))

/-- The first character tells what kind of value there is. -/
theorem readValueWith_eq
    (bracketed : Char → List Char → Except ReadFailure (Value × List Char)) :
    readValueWith bound bracketed = readNext .value (readFrom bound bracketed) := rfl

end next

/-! ## Behind an opening bracket -/

/-- Reads what follows an opening bracket, where brackets may nest `room` deep with this one. -/
def readInside (options : ReadOptions) (bound : ℕ) :
    ℕ → Char → List Char → Except ReadFailure (Value × List Char)
  | 0, bracket, s => .error ⟨.tooDeep options.maxDepth.toNat, bracket :: s⟩
  | room + 1, bracket, s => readBracketed options bound (readValue options bound room) bracket s

/-- Only behind an opening bracket it matters how deep brackets may nest. -/
theorem readValue_eq (options : ReadOptions) (bound room : ℕ) :
    readValue options bound room = readValueWith bound (readInside options bound room) := by
  cases room <;> rfl

/-! ## The rest is a part of the text -/

theorem skipBlanks_suffix (s : List Char) : skipBlanks s <:+ s :=
  List.dropWhile_suffix isBlank

theorem mismatch_rest (expected : Expectation) (s : List Char) :
    (ReadFailure.mismatch expected s).rest = s := by
  cases s <;> rfl

theorem left_readHex_suffix (count high : ℕ) (s : List Char) :
    left (readHex count high s) <:+ s := by
  induction count generalizing high s with
  | zero => exact List.suffix_refl s
  | succ count ih =>
    cases s with
    | nil => exact List.suffix_refl []
    | cons c s =>
      unfold readHex
      split
      · exact (ih _ s).trans (List.suffix_cons c s)
      · exact List.suffix_refl _

theorem left_readUnicodeEscape_suffix (s : List Char) :
    left (readUnicodeEscape ('\\' :: 'u' :: s) s) <:+ '\\' :: 'u' :: s := by
  have hstart : s <:+ '\\' :: 'u' :: s := List.suffix_append ['\\', 'u'] s
  -- A failure may go back to the backslash, so all is measured from there.
  refine left_bind_suffix ((left_readHex_suffix 4 0 s).trans hstart) fun n t ht => ?_
  dsimp only
  split
  · split
    · rename_i u
      have hu : u <:+ '\\' :: 'u' :: s := (List.suffix_append ['\\', 'u'] u).trans ht
      refine left_bind_suffix ((left_readHex_suffix 4 0 u).trans hu) fun low v hv => ?_
      dsimp only
      split
      · exact hv
      · exact List.suffix_refl _
    · exact List.suffix_refl _
  · split
    · exact List.suffix_refl _
    · exact ht

/-- A failure in a string is reported inside of it or at its opening quotation mark. -/
theorem left_readEscape_suffix {opening s : List Char} (h : '\\' :: s <:+ opening) :
    left (readEscape opening s) <:+ opening := by
  unfold readEscape
  split
  · exact List.suffix_refl _
  · exact (left_readUnicodeEscape_suffix _).trans h
  · rename_i c s _
    have hs : c :: s <:+ opening := (List.suffix_cons '\\' (c :: s)).trans h
    split
    · exact (List.suffix_cons c s).trans hs
    · exact hs

/-- What a string leaves is a part of the text from its opening on. -/
theorem left_readStringBody_suffix {opening : List Char} (fuel : ℕ) {s : List Char}
    (h : s <:+ opening) : left (readStringBody opening fuel s) <:+ opening := by
  induction fuel generalizing s with
  | zero => exact List.suffix_refl _
  | succ fuel ih =>
    cases s with
    | nil => exact List.suffix_refl _
    | cons c s =>
      have hs : s <:+ opening := (List.suffix_cons c s).trans h
      -- What the body leaves is left by the whole, also behind one more character.
      have hrest {d : Char} {t : List Char} (ht : t <:+ opening) :
          left (readStringBody opening fuel t >>= fun p => .ok (d :: p.1, p.2)) <:+ opening :=
        left_bind_suffix (ih ht) fun chars rest hbody => hbody
      unfold readStringBody
      split
      · exact hs
      split
      · rename_i hback
        rw [hback] at h
        exact left_bind_suffix (left_readEscape_suffix h) fun decoded t ht => hrest ht
      split
      · exact h
      · exact hrest hs

theorem left_readString_suffix (bound : ℕ) (s : List Char) :
    left (readString bound ('"' :: s) s) <:+ '"' :: s := by
  have hbody := left_readStringBody_suffix bound (List.suffix_cons '"' s)
  exact left_bind_suffix hbody fun chars rest hrest => hrest

/-- A word fails at a place of its text. -/
theorem readWord_suffix {word : String} {letters s : List Char} {failure : ReadFailure}
    (h : readWord word letters s = .error failure) : failure.rest <:+ s := by
  induction letters generalizing s with
  | nil => cases h
  | cons letter letters ih =>
    cases s with
    | nil =>
      cases h
      exact List.suffix_refl _
    | cons c s =>
      unfold readWord at h
      split at h
      · exact (ih h).trans (List.suffix_cons c s)
      · cases h
        exact List.suffix_refl _

theorem left_readConstant_suffix (word : String) (constant : Value) (s : List Char) :
    left (readConstant word constant s) <:+ s := by
  cases hread : readConstant word constant s with
  | ok p =>
    obtain ⟨-, hs⟩ := readConstant_eq_ok_iff.mp hread
    exact ⟨word.toList, hs.symm⟩
  | error failure =>
    exact readWord_suffix (bind_ok_eq_error_iff.mp hread)

theorem left_readNumber_suffix (s : List Char) : left (readNumber s) <:+ s := by
  unfold readNumber
  dsimp only
  split
  · exact List.dropWhile_suffix isNumberChar
  · exact List.suffix_refl s

section members

variable {α : Type} {options : ReadOptions} {bound : ℕ} {close : Char} {next : Expectation}
  {member : List Char → Except ReadFailure (α × List Char)}

theorem left_readBehind_suffix {others : List Char → Except ReadFailure (List α × List Char)}
    (hothers : ∀ s, left (others s) <:+ s) (a : α) (s : List Char) :
    left (readBehind options close next others a s) <:+ s := by
  have hspec := behind_spec options close next s
  unfold readBehind
  generalize behind options close next s = b at hspec
  cases hspec with
  | @closed after rest _ => exact ⟨after ++ [close], by simp⟩
  | @tolerated after blanks rest _ _ _ => exact ⟨after ++ ',' :: (blanks ++ [close]), by simp⟩
  | @another after blanks u _ _ _ _ =>
    have hu : u <:+ after ++ ',' :: (blanks ++ u) := ⟨after ++ ',' :: blanks, by simp⟩
    exact left_bind_suffix ((hothers u).trans hu) fun as rest hrest => hrest
  | @failed after u _ _ _ _ =>
    show (ReadFailure.mismatch next u).rest <:+ after ++ u
    rw [mismatch_rest]
    exact List.suffix_append after u

/-- A row of members leaves a part of its text if each member does. -/
theorem left_readMembers_suffix (hmember : ∀ s, left (member s) <:+ s) (fuel : ℕ) (s : List Char) :
    left (readMembers options close next member fuel s) <:+ s := by
  induction fuel generalizing s with
  | zero =>
    show (ReadFailure.mismatch next s).rest <:+ s
    rw [mismatch_rest]
  | succ fuel ih =>
    rw [readMembers_succ]
    by_cases hhead : s.head? = some close
    · rw [if_pos hhead]
      exact List.suffix_refl s
    rw [if_neg hhead]
    refine left_bind_suffix (hmember s) fun a t ht => ?_
    exact (left_readBehind_suffix ih a t).trans ht

theorem left_readEnclosed_suffix (hmember : ∀ s, left (member s) <:+ s) (s : List Char) :
    left (readEnclosed options bound close next member s) <:+ s := by
  unfold readEnclosed
  dsimp only
  split
  · exact (List.tail_suffix _).trans (skipBlanks_suffix s)
  · exact (left_readMembers_suffix hmember bound _).trans (skipBlanks_suffix s)

end members

section values

variable {options : ReadOptions} {bound : ℕ}
  {value : List Char → Except ReadFailure (Value × List Char)}

theorem left_readNext_suffix {α : Type} {expected : Expectation}
    {go : Char → List Char → Except ReadFailure (α × List Char)}
    (hgo : ∀ c s, left (go c s) <:+ c :: s) (s : List Char) :
    left (readNext expected go s) <:+ skipBlanks s := by
  unfold readNext
  split
  · exact List.nil_suffix
  · rename_i c rest hcons
    rw [hcons]
    exact hgo c rest

theorem left_readKey_suffix (bound : ℕ) (s : List Char) :
    left (readKey bound s) <:+ skipBlanks s := by
  refine left_readNext_suffix (fun c rest => ?_) s
  split
  · rename_i hquote
    subst hquote
    exact left_readString_suffix bound rest
  · exact List.suffix_refl _

theorem left_readColon_suffix (s : List Char) : left (readColon s) <:+ skipBlanks s := by
  refine left_readNext_suffix (fun c rest => ?_) s
  split
  · exact List.suffix_cons c rest
  · exact List.suffix_refl _

theorem left_readField_suffix (hvalue : ∀ s, left (value s) <:+ s) (s : List Char) :
    left (readField bound value s) <:+ s := by
  rw [readField_eq]
  have hkey := (left_readKey_suffix bound s).trans (skipBlanks_suffix s)
  refine left_bind_suffix hkey fun key t ht => ?_
  have hcolon := (left_readColon_suffix t).trans (skipBlanks_suffix t)
  refine left_bind_suffix (hcolon.trans ht) fun _ u hu => ?_
  exact left_bind_suffix ((hvalue u).trans hu) fun v rest hrest => hrest

/-- An array or object leaves a part of its text if the values inside do. -/
theorem left_readBracketed_suffix (hvalue : ∀ s, left (value s) <:+ s) (bracket : Char)
    (s : List Char) : left (readBracketed options bound value bracket s) <:+ s := by
  unfold readBracketed
  split
  · exact left_bind_suffix (left_readEnclosed_suffix hvalue s) fun items rest hrest => hrest
  · have hfield (t : List Char) : left (readField bound value t) <:+ t :=
      left_readField_suffix hvalue t
    exact left_bind_suffix (left_readEnclosed_suffix hfield s) fun members rest hrest => hrest

theorem left_readFrom_suffix
    {bracketed : Char → List Char → Except ReadFailure (Value × List Char)}
    (hbracketed : ∀ c s, left (bracketed c s) <:+ c :: s) (c : Char) (s : List Char) :
    left (readFrom bound bracketed c s) <:+ c :: s := by
  unfold readFrom
  -- One case for each character that may open a value, in the order in which they are tried.
  split
  · exact hbracketed c s
  split
  · rename_i hquote
    subst hquote
    exact left_bind_suffix (left_readString_suffix bound s) fun text rest hrest => hrest
  split
  · exact left_readConstant_suffix _ _ _
  split
  · exact left_readConstant_suffix _ _ _
  split
  · exact left_readConstant_suffix _ _ _
  split
  · exact left_readNumber_suffix _
  · exact List.suffix_refl _

/-- A value leaves a part of its text if arrays and objects do. -/
theorem left_readValueWith_suffix
    {bracketed : Char → List Char → Except ReadFailure (Value × List Char)}
    (hbracketed : ∀ c s, left (bracketed c s) <:+ c :: s) (s : List Char) :
    left (readValueWith bound bracketed s) <:+ skipBlanks s := by
  rw [readValueWith_eq]
  exact left_readNext_suffix (left_readFrom_suffix hbracketed) s

/-- What reading a value leaves ends the text that was read. -/
theorem left_readValue_suffix (options : ReadOptions) (bound room : ℕ) (s : List Char) :
    left (readValue options bound room s) <:+ s := by
  -- The first character of the value is shown to each reader, so the blanks are out of reach.
  refine List.IsSuffix.trans ?_ (skipBlanks_suffix s)
  induction room generalizing s with
  | zero =>
    have hrefused (c : Char) (t : List Char) : left (readInside options bound 0 c t) <:+ c :: t :=
      List.suffix_refl _
    rw [readValue_eq]
    exact left_readValueWith_suffix hrefused s
  | succ room ih =>
    rw [readValue_eq]
    refine left_readValueWith_suffix (fun c t => ?_) s
    have hvalue (u : List Char) : left (readValue options bound room u) <:+ u :=
      (ih u).trans (skipBlanks_suffix u)
    exact (left_readBracketed_suffix hvalue c t).trans (List.suffix_cons c t)

/-- With any room for brackets, arrays and objects leave a part of their text. -/
theorem left_readInside_suffix (options : ReadOptions) (bound room : ℕ) (bracket : Char)
    (s : List Char) : left (readInside options bound room bracket s) <:+ bracket :: s := by
  cases room with
  | zero => exact List.suffix_refl _
  | succ room =>
    have hvalue := left_readValue_suffix options bound room
    exact (left_readBracketed_suffix hvalue bracket s).trans (List.suffix_cons bracket s)

end values

end ContractDraft
