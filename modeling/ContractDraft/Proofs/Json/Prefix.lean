import ContractDraft.Proofs.Json.Failure

/-!
# Failures that do not wait for the rest of the text

Most causes show at a single character: whatever comes behind it, the text is no document. To see
that no reader looks further, two texts are read side by side that agree up to some place and at the
character there, and part behind it (`Replaced`). What the first run settles in front of this place,
or at it, the second settles as well (`Follows`). So a text that is refused for such a cause is
refused in the same way however it goes on (`readDocument_error_of_take_eq`).
-/

namespace ContractDraft

/-- The causes that show at one character, whatever comes behind it. -/
def ReadCause.Immediate : ReadCause → Prop
  | .unexpected _ _ | .controlCharacter | .trailingComma | .trailingCharacters | .tooDeep _ => True
  | .unexpectedEnd _ | .unterminatedString | .invalidEscape | .malformedNumber _ => False

/-- Where the first text ends with `w`, the second is the same text with `z` in its place. -/
def Replaced (w z s t : List Char) : Prop := ∀ u, s = u ++ w → t = u ++ z

/-- What the first outcome settles before or at `w`, the second settles before or at `z`: a value
that is read up to there, or an immediate failure right there. -/
structure Follows {α : Type} (w z : List Char) (x y : Except ReadFailure (α × List Char)) :
    Prop where
  ok {a : α} {u : List Char} : x = .ok (a, u ++ w) → y = .ok (a, u ++ z)
  error {cause : ReadCause} : cause.Immediate → x = .error ⟨cause, w⟩ → y = .error ⟨cause, z⟩

variable {w z : List Char}

/-! ## Texts that part at one place -/

/-- Texts that go on with the same character still do so behind the same text. -/
theorem head?_append_eq (hhead : w.head? = z.head?) (u : List Char) :
    (u ++ w).head? = (u ++ z).head? := by
  rw [List.head?_append, List.head?_append, hhead]

/-- Whether a run ends depends on the next character only. -/
theorem Ends.append_of_head?_eq {p : Char → Bool} {u : List Char} (hhead : w.head? = z.head?)
    (h : Ends p (u ++ w)) : Ends p (u ++ z) := by
  unfold Ends
  rw [← head?_append_eq hhead u]
  exact h

/-- Behind the same text one rest is replaced by the other. -/
theorem replaced_append (u : List Char) : Replaced w z (u ++ w) (u ++ z) := by
  intro v hv
  rw [List.append_cancel_right hv]

namespace Replaced

variable {s t : List Char}

/-- A part at the front is the same in both texts, if the place comes behind it. -/
theorem split {u : List Char} (h : Replaced w z (u ++ s) t) (hw : w <:+ s) :
    ∃ x, s = x ++ w ∧ t = u ++ (x ++ z) := by
  obtain ⟨x, rfl⟩ := hw
  have ht := h (u ++ x) (List.append_assoc ..).symm
  rw [List.append_assoc] at ht
  exact ⟨x, rfl, ht⟩

/-- In front of the place and at it both texts go on with one character. -/
theorem uncons (hhead : w.head? = z.head?) (h : Replaced w z s t) (hw : w <:+ s) :
    (s = [] ∧ t = []) ∨ ∃ c u v, s = c :: u ∧ t = c :: v ∧ Replaced w z u v := by
  obtain ⟨x, rfl⟩ := hw
  have ht := h x rfl
  subst ht
  cases x with
  | cons c x =>
    exact .inr ⟨c, x ++ w, x ++ z, rfl, rfl, replaced_append x⟩
  | nil =>
    cases w with
    | nil => exact .inl ⟨rfl, List.head?_eq_none_iff.mp hhead.symm⟩
    | cons c w =>
      obtain ⟨z, rfl⟩ := List.head?_eq_some_iff.mp hhead.symm
      refine .inr ⟨c, w, z, rfl, rfl, fun u hu => ?_⟩
      -- The text behind the place does not contain it.
      have hlength := congrArg List.length hu
      simp only [List.length_append, List.length_cons] at hlength
      omega

/-- Blanks may be skipped in both texts at once. -/
theorem skipBlanks (hhead : w.head? = z.head?) (h : Replaced w z s t) :
    Replaced w z (skipBlanks s) (skipBlanks t) := by
  intro u hu
  obtain ⟨before, hs, hbefore, hends⟩ := exists_blanks s
  rw [hu] at hs hends
  have ht := h (before ++ u) (by rw [hs, List.append_assoc])
  rw [ht, List.append_assoc]
  exact skipBlanks_append hbefore (hends.append_of_head?_eq hhead)

end Replaced

/-! ## Outcomes that follow one another -/

section follows

variable {α β : Type} {s t : List Char} {x y : Except ReadFailure (α × List Char)}

/-- Nothing is claimed of a run that is past the place. -/
theorem Follows.of_past (hleft : left x <:+ s) (hw : ¬ w <:+ s) : Follows w z x y where
  ok {a u} hx := absurd ((List.suffix_append u w).trans (rest_suffix hleft hx)) hw
  error {cause} _ hx := by
    rw [hx, left_error] at hleft
    exact absurd hleft hw

/-- Two parts that succeed follow one another. -/
theorem Follows.done (h : Replaced w z s t) (a : α) :
    Follows w z (.ok (a, s) : Except ReadFailure (α × List Char)) (.ok (a, t)) where
  ok {b u} hx := by
    cases hx
    rw [h u rfl]
  error _ hx := by cases hx

/-- Two parts that fail for one cause follow one another. -/
theorem Follows.refused (h : Replaced w z s t) (cause : ReadCause) :
    Follows w z (.error ⟨cause, s⟩ : Except ReadFailure (α × List Char)) (.error ⟨cause, t⟩) where
  ok hx := by cases hx
  error {other} _ hx := by
    cases hx
    rw [h [] rfl, List.nil_append]

/-- Both runs find the same character where something else was expected, or both find the end. -/
theorem mismatch_eq_of_replaced (hhead : w.head? = z.head?) (h : Replaced w z s t)
    {expected : Expectation} {cause : ReadCause} (hcause : cause.Immediate)
    (hs : ReadFailure.mismatch expected s = ⟨cause, w⟩) :
    ReadFailure.mismatch expected t = ⟨cause, z⟩ := by
  obtain rfl : s = w := by rw [← mismatch_rest expected s, hs]
  obtain rfl : t = z := h [] rfl
  cases s with
  | nil =>
    cases hs
    exact absurd hcause id
  | cons c s =>
    obtain ⟨t, rfl⟩ := List.head?_eq_some_iff.mp hhead.symm
    cases hs
    rfl

/-- What is unexpected in one text is unexpected in the other, as they go on with the same
character. -/
theorem Follows.mismatch (hhead : w.head? = z.head?) (h : Replaced w z s t)
    (expected : Expectation) :
    Follows w z (.error (.mismatch expected s) : Except ReadFailure (α × List Char))
      (.error (.mismatch expected t)) where
  ok hx := by cases hx
  error hcause hx :=
    congrArg Except.error (mismatch_eq_of_replaced hhead h hcause (Except.error.inj hx))

/-- Runs that follow one another go on following one another. -/
theorem Follows.bind {f g : α × List Char → Except ReadFailure (β × List Char)}
    (h : Follows w z x y)
    (hfg : ∀ a u, x = .ok (a, u ++ w) → Follows w z (f (a, u ++ w)) (g (a, u ++ z)))
    (hf : ∀ a rest, left (f (a, rest)) <:+ rest) : Follows w z (x >>= f) (y >>= g) where
  ok {b u} hx := by
    -- The second reader leaves a part of what it gets, so the first one stopped in front of `w`.
    obtain ⟨⟨a, rest⟩, hfirst, hsecond⟩ := bind_eq_ok_iff.mp hx
    obtain ⟨v, rfl⟩ := (List.suffix_append u w).trans (rest_suffix (hf a rest) hsecond)
    exact bind_eq_ok_iff.mpr ⟨_, h.ok hfirst, (hfg a v hfirst).ok hsecond⟩
  error {cause} hcause hx := by
    rcases bind_eq_error_iff.mp hx with hfirst | ⟨⟨a, rest⟩, hfirst, hsecond⟩
    · exact bind_eq_error_iff.mpr (.inl (h.error hcause hfirst))
    · have hleft := hf a rest
      rw [hsecond, left_error] at hleft
      obtain ⟨v, rfl⟩ := hleft
      exact bind_eq_error_iff.mpr (.inr ⟨_, h.ok hfirst, (hfg a v hfirst).error hcause hsecond⟩)

theorem Follows.map (h : Follows w z x y) (f : α → β) :
    Follows w z (x >>= fun p => .ok (f p.1, p.2)) (y >>= fun p => .ok (f p.1, p.2)) := by
  exact h.bind (fun a u _ => .done (replaced_append u) (f a)) fun _ rest => List.suffix_refl rest

end follows

/-! ## Strings -/

/-- A failure among hexadecimal digits does not depend on the next character alone. -/
theorem not_immediate_of_readHex {count high : ℕ} {s : List Char} {failure : ReadFailure}
    (h : readHex count high s = .error failure) : ¬ failure.cause.Immediate := by
  induction count generalizing high s with
  | zero => cases h
  | succ count ih =>
    cases s with
    | nil =>
      cases h
      exact id
    | cons c s =>
      unfold readHex at h
      split at h
      · exact ih h
      · cases h
        exact id

/-- An escape may depend on what comes behind it, and none of its failures is immediate. -/
theorem not_immediate_of_readEscape {opening s : List Char} {failure : ReadFailure}
    (h : readEscape opening s = .error failure) : ¬ failure.cause.Immediate := by
  unfold readEscape at h
  split at h
  · cases h
    exact id
  · rcases bind_eq_error_iff.mp h with hfirst | ⟨⟨n, rest⟩, _, hthen⟩
    · exact not_immediate_of_readHex hfirst
    dsimp only at hthen
    split at hthen
    · split at hthen
      · rcases bind_eq_error_iff.mp hthen with hsecond | ⟨⟨low, rest⟩, _, hlast⟩
        · exact not_immediate_of_readHex hsecond
        dsimp only at hlast
        split at hlast
        · cases hlast
        · cases hlast
          exact id
      · cases hthen
        exact id
    · split at hthen
      · cases hthen
        exact id
      · cases hthen
  · split at h
    · cases h
    · cases h
      exact id

/-- The one immediate failure inside a string is a control character behind characters that are
right. -/
theorem control_of_readStringBody {opening : List Char} {fuel : ℕ} {s : List Char}
    {failure : ReadFailure} (h : readStringBody opening fuel s = .error failure)
    (hcause : failure.cause.Immediate) :
    ∃ t chars c rest, s = t ++ c :: rest ∧ CharsText t chars ∧ c.toNat < 0x20 ∧
      failure = ⟨.controlCharacter, c :: rest⟩ := by
  induction fuel generalizing s with
  | zero =>
    cases h
    exact absurd hcause id
  | succ fuel ih =>
    cases s with
    | nil =>
      cases h
      exact absurd hcause id
    | cons c s =>
      unfold readStringBody at h
      split at h
      · cases h
      rename_i hquote
      split at h
      · rename_i hback
        rcases bind_eq_error_iff.mp h with hescape | ⟨⟨decoded, u⟩, hescape, hthen⟩
        · exact absurd hcause (not_immediate_of_readEscape hescape)
        obtain ⟨e, hs, he⟩ := escapeText_of_readEscape hescape
        obtain ⟨t, chars, d, rest, rfl, ht, hd, hfailure⟩ := ih (bind_ok_eq_error_iff.mp hthen)
        refine ⟨e ++ t, decoded :: chars, d, rest, ?_, .cons (.escape he) ht, hd, hfailure⟩
        rw [hback, hs, List.append_assoc]
      rename_i hback
      split at h
      · rename_i hcontrol
        cases h
        exact ⟨[], [], c, s, rfl, .nil, hcontrol, rfl⟩
      · rename_i hcontrol
        obtain ⟨t, chars, d, rest, rfl, ht, hd, hfailure⟩ := ih (bind_ok_eq_error_iff.mp h)
        have hplain : CharText [c] c := .plain hquote hback (by omega)
        exact ⟨[c] ++ t, c :: chars, d, rest, rfl, .cons hplain ht, hd, hfailure⟩

/-- A control character inside a string is refused where it stands. -/
theorem readStringBody_control (opening : List Char) {t chars : List Char} (h : CharsText t chars)
    {c : Char} (hc : c.toNat < 0x20) (rest : List Char) {fuel : ℕ} (hfuel : chars.length < fuel) :
    readStringBody opening fuel (t ++ c :: rest) = .error ⟨.controlCharacter, c :: rest⟩ := by
  obtain ⟨n, rfl⟩ := Nat.exists_eq_add_of_lt hfuel
  have hquote : c ≠ '"' := by
    rintro rfl
    exact absurd hc (by decide)
  have hback : c ≠ '\\' := by
    rintro rfl
    exact absurd hc (by decide)
  rw [Nat.add_assoc, readStringBody_chars opening h, readStringBody, if_neg hquote, if_neg hback,
    if_pos hc]
  rfl

section readers

variable {bound bound' : ℕ} {s t : List Char}

/-- Strings follow one another, whatever the bounds are that go with their texts. -/
theorem follows_readString (hhead : w.head? = z.head?)
    (hbounds : bound' + w.length = bound + z.length) (opening opening' : List Char)
    (h : Replaced w z s t) (hbound : s.length < bound) :
    Follows w z (readString bound opening s) (readString bound' opening' t) where
  ok {text u} hread := by
    obtain ⟨k, hs, hk⟩ := stringText_of_readString hread
    have ht := h (k ++ u) (by rw [hs, List.append_assoc])
    rw [ht, List.append_assoc]
    refine readString_append opening' hk (u ++ z) ?_
    simp only [hs, List.length_append] at hbound
    omega
  error {cause} hcause hread := by
    have hbody := bind_ok_eq_error_iff.mp hread
    obtain ⟨k, chars, c, rest, hs, hk, hc, hfailure⟩ := control_of_readStringBody hbody hcause
    obtain ⟨rfl, rfl⟩ := ReadFailure.mk.inj hfailure
    obtain ⟨v, rfl⟩ := List.head?_eq_some_iff.mp hhead.symm
    -- What the second bound exceeds the first by is what its text exceeds the other by.
    have hlength : chars.length < bound' := by
      have hle := hk.length_le
      simp only [hs, List.length_append, List.length_cons] at hbound hbounds
      omega
    refine bind_ok_eq_error_iff.mpr ?_
    rw [h k hs]
    exact readStringBody_control opening' hk hc v hlength

/-! ## Words and numbers -/

/-- A word that fails where the texts part fails there in both. -/
theorem readWord_error_of_replaced (hhead : w.head? = z.head?) {word : String} {letters : List Char}
    (h : Replaced w z s t) {cause : ReadCause} (hcause : cause.Immediate)
    (hread : readWord word letters s = .error ⟨cause, w⟩) :
    readWord word letters t = .error ⟨cause, z⟩ := by
  induction letters generalizing s t with
  | nil => cases hread
  | cons letter letters ih =>
    rcases h.uncons hhead (readWord_suffix hread) with ⟨rfl, rfl⟩ | ⟨c, u, v, rfl, rfl, huv⟩
    · exact congrArg Except.error
        (mismatch_eq_of_replaced hhead h hcause (Except.error.inj hread))
    · unfold readWord at hread ⊢
      by_cases hc : c = letter
      · rw [if_pos hc] at hread ⊢
        exact ih huv hread
      · rw [if_neg hc] at hread ⊢
        exact congrArg Except.error
          (mismatch_eq_of_replaced hhead h hcause (Except.error.inj hread))

theorem follows_readConstant (hhead : w.head? = z.head?) (word : String) (constant : Value)
    (h : Replaced w z s t) :
    Follows w z (readConstant word constant s) (readConstant word constant t) where
  ok {v u} hread := by
    obtain ⟨rfl, hs⟩ := readConstant_eq_ok_iff.mp hread
    have ht := h (word.toList ++ u) (by rw [hs, List.append_assoc])
    rw [List.append_assoc] at ht
    exact readConstant_eq_ok_iff.mpr ⟨rfl, ht⟩
  error {cause} hcause hread := by
    have hword := bind_ok_eq_error_iff.mp hread
    exact bind_ok_eq_error_iff.mpr (readWord_error_of_replaced hhead h hcause hword)

/-- A number ends where no number character follows. -/
theorem ends_of_readNumber {rest : List Char} {v : Value} (h : readNumber s = .ok (v, rest)) :
    Ends isNumberChar rest := by
  unfold readNumber at h
  dsimp only at h
  split at h
  · cases h
    exact ends_dropWhile isNumberChar s
  · cases h

/-- A number ends where its run of characters does, for which the next character is looked at. -/
theorem follows_readNumber (hhead : w.head? = z.head?) (h : Replaced w z s t) :
    Follows w z (readNumber s) (readNumber t) where
  ok {v u} hread := by
    obtain ⟨k, n, hs, hk, hmeaning⟩ := numberText_of_readNumber hread
    have ht := h (k ++ u) (by rw [hs, List.append_assoc])
    rw [ht, List.append_assoc]
    exact readNumber_append hk hmeaning ((ends_of_readNumber hread).append_of_head?_eq hhead)
  error {cause} hcause hread := by
    -- More characters may make a number of the run, so this failure does not count.
    unfold readNumber at hread
    dsimp only at hread
    split at hread
    · cases hread
    · cases hread
      exact absurd hcause id

end readers

/-! ## Members -/

section members

variable {α : Type} {options : ReadOptions} {bound bound' : ℕ} {close : Char} {next : Expectation}
  {member member' : List Char → Except ReadFailure (α × List Char)} {s t : List Char}

/-- Behind a closing bracket, whether or not a comma stands in front of it, a row has ended. -/
theorem follows_closed (hclose : close = ']' ∨ close = '}')
    {others : List Char → Except ReadFailure (List α × List Char)} {front rest : List Char}
    (hfront : ∀ u, BehindMember options close next (front ++ u) (.closed u))
    (h : Replaced w z (front ++ rest) t) (a : α) :
    Follows w z (.ok ([a], rest)) (readBehind options close next others a t) := by
  by_cases hw : w <:+ rest
  · obtain ⟨x, rfl, rfl⟩ := h.split hw
    unfold readBehind
    rw [(hfront (x ++ z)).eq hclose]
    exact .done (replaced_append x) [a]
  · exact .of_past (List.suffix_refl rest) hw

/-- What comes behind a member is decided by the characters up to the one that the next member
begins with. -/
theorem follows_readBehind (hhead : w.head? = z.head?) (hclose : close = ']' ∨ close = '}')
    {others others' : List Char → Except ReadFailure (List α × List Char)}
    (hleft : ∀ u, left (others u) <:+ u)
    (hothers : ∀ u v, u.length < s.length → Replaced w z u v → Follows w z (others u) (others' v))
    (h : Replaced w z s t) (a : α) :
    Follows w z (readBehind options close next others a s)
      (readBehind options close next others' a t) := by
  have hspec := behind_spec options close next s
  unfold readBehind
  generalize behind options close next s = b at hspec
  cases hspec with
  | @closed after rest hafter =>
    have hfront (u : List Char) :
        BehindMember options close next (after ++ [close] ++ u) (.closed u) := by
      rw [List.append_assoc]
      exact .closed hafter
    have hsplit : Replaced w z (after ++ [close] ++ rest) t := by simpa using h
    exact follows_closed hclose hfront hsplit a
  | @tolerated after blanks rest htolerant hafter hblanks =>
    have hfront (u : List Char) :
        BehindMember options close next (after ++ ',' :: (blanks ++ [close]) ++ u) (.closed u) := by
      rw [List.append_assoc, List.cons_append, List.append_assoc]
      exact .tolerated htolerant hafter hblanks
    have hsplit : Replaced w z (after ++ ',' :: (blanks ++ [close]) ++ rest) t := by simpa using h
    exact follows_closed hclose hfront hsplit a
  | @another after blanks u hafter hblanks hends hstrict =>
    by_cases hw : w <:+ u
    · have hsplit : Replaced w z (after ++ ',' :: blanks ++ u) t := by simpa using h
      obtain ⟨x, rfl, rfl⟩ := hsplit.split hw
      have hbehind : behind options close next (after ++ ',' :: blanks ++ (x ++ z)) =
          .another (x ++ z) := by
        rw [List.append_assoc, List.cons_append]
        refine (BehindMember.another hafter hblanks (hends.append_of_head?_eq hhead) ?_).eq hclose
        rw [← head?_append_eq hhead x]
        exact hstrict
      rw [hbehind]
      refine (hothers _ _ ?_ (replaced_append x)).map (a :: ·)
      simp only [List.length_append, List.length_cons]
      omega
    · exact .of_past (left_bind_suffix (hleft u) fun as rest hrest => hrest) hw
  | @failed after u hafter hends hcomma hother =>
    by_cases hw : w <:+ u
    · obtain ⟨x, rfl, rfl⟩ := h.split hw
      have hbehind : behind options close next (after ++ (x ++ z)) =
          .failed (.mismatch next (x ++ z)) := by
        rw [head?_append_eq hhead x] at hcomma hother
        exact (BehindMember.failed hafter (hends.append_of_head?_eq hhead) hcomma hother).eq hclose
      rw [hbehind]
      exact .mismatch hhead (replaced_append x) next
    · refine .of_past ?_ hw
      show (ReadFailure.mismatch next u).rest <:+ u
      rw [mismatch_rest]

/-- Rows of members follow one another if the members do. -/
theorem follows_readMembers (hhead : w.head? = z.head?) (hclose : close = ']' ∨ close = '}')
    (hleft : ∀ u, left (member u) <:+ u)
    (hmember : ∀ u v, u.length < bound → Replaced w z u v → Follows w z (member u) (member' v))
    {fuel fuel' : ℕ} (hfuels : fuel' + w.length = fuel + z.length) (h : Replaced w z s t)
    (hbound : s.length < bound) (hfuel : s.length < fuel) :
    Follows w z (readMembers options close next member fuel s)
      (readMembers options close next member' fuel' t) := by
  induction fuel generalizing fuel' s t with
  | zero => exact absurd hfuel (Nat.not_lt_zero _)
  | succ fuel ih =>
    -- If the place is in front of the members, nothing is claimed of this run.
    by_cases hw : w <:+ s
    · have hle := hw.length_le
      obtain ⟨fuel', rfl⟩ : ∃ n, fuel' = n + 1 := Nat.exists_eq_add_one_of_ne_zero (by omega)
      obtain ⟨x, rfl⟩ := hw
      obtain rfl := h x rfl
      rw [readMembers_succ, readMembers_succ, ← head?_append_eq hhead x]
      by_cases hlast : (x ++ w).head? = some close
      · rw [if_pos hlast, if_pos hlast]
        exact .refused h .trailingComma
      rw [if_neg hlast, if_neg hlast]
      refine (hmember _ _ hbound h).bind (fun a u hread => ?_) fun a rest =>
        left_readBehind_suffix (left_readMembers_suffix hleft fuel) a rest
      have hrest := (rest_suffix (hleft (x ++ w)) hread).length_le
      refine follows_readBehind hhead hclose (left_readMembers_suffix hleft fuel)
        (fun v v' hv hreplaced => ?_) (replaced_append u) a
      exact ih (by omega) hreplaced (by omega) (by omega)
    · exact .of_past (left_readMembers_suffix hleft (fuel + 1) s) hw

/-- Members up to a closing bracket follow one another if the members do. -/
theorem follows_readEnclosed (hhead : w.head? = z.head?) (hclose : close = ']' ∨ close = '}')
    (hbounds : bound' + w.length = bound + z.length) (hleft : ∀ u, left (member u) <:+ u)
    (hmember : ∀ u v, u.length < bound → Replaced w z u v → Follows w z (member u) (member' v))
    (h : Replaced w z s t) (hbound : s.length < bound) :
    Follows w z (readEnclosed options bound close next member s)
      (readEnclosed options bound' close next member' t) := by
  have hlength := (skipBlanks_suffix s).length_le
  have hskip := h.skipBlanks hhead
  unfold readEnclosed
  dsimp only
  generalize skipBlanks s = u at hlength hskip
  generalize skipBlanks t = v at hskip
  by_cases hw : w <:+ u
  · rcases hskip.uncons hhead hw with ⟨rfl, rfl⟩ | ⟨c, x, y, rfl, rfl, hxy⟩
    · exact follows_readMembers hhead hclose hleft hmember hbounds hskip (by omega) (by omega)
    · have hsame : (c :: y).head? = (c :: x).head? := rfl
      by_cases hclosed : (c :: x).head? = some close
      · rw [if_pos hclosed, if_pos (hsame.trans hclosed)]
        exact .done hxy []
      · rw [if_neg hclosed, if_neg (hsame ▸ hclosed)]
        exact follows_readMembers hhead hclose hleft hmember hbounds hskip (by omega) (by omega)
  · refine .of_past (s := u) ?_ hw
    split
    · exact List.tail_suffix u
    · exact left_readMembers_suffix hleft bound u

end members

/-! ## Values -/

section values

variable {options : ReadOptions} {bound bound' : ℕ}
  {value value' : List Char → Except ReadFailure (Value × List Char)} {s t : List Char}

/-- Behind blanks both texts go on with one character, at the place or in front of it. -/
theorem follows_readNext (hhead : w.head? = z.head?) {α : Type} {expected : Expectation}
    {go go' : Char → List Char → Except ReadFailure (α × List Char)}
    (hleft : left (readNext expected go s) <:+ skipBlanks s)
    (hgo : ∀ c u v, (c :: u).length ≤ s.length → Replaced w z (c :: u) (c :: v) →
      Replaced w z u v → Follows w z (go c u) (go' c v)) (h : Replaced w z s t) :
    Follows w z (readNext expected go s) (readNext expected go' t) := by
  have hskip := h.skipBlanks hhead
  have hlength := (skipBlanks_suffix s).length_le
  by_cases hw : w <:+ skipBlanks s
  · unfold readNext
    rcases hskip.uncons hhead hw with ⟨hs, ht⟩ | ⟨c, u, v, hs, ht, huv⟩
    · rw [hs, ht] at hskip ⊢
      exact .mismatch hhead hskip expected
    · rw [hs] at hlength
      rw [hs, ht] at hskip ⊢
      exact hgo c u v hlength hskip huv
  · exact .of_past hleft hw

theorem follows_readKey (hhead : w.head? = z.head?)
    (hbounds : bound' + w.length = bound + z.length) (h : Replaced w z s t)
    (hbound : s.length < bound) : Follows w z (readKey bound s) (readKey bound' t) := by
  refine follows_readNext hhead (left_readKey_suffix bound s) (fun c u v hlength hwhole huv => ?_) h
  rw [List.length_cons] at hlength
  split
  · exact follows_readString hhead hbounds _ _ huv (by omega)
  · exact .mismatch hhead hwhole .key

theorem follows_readColon (hhead : w.head? = z.head?) (h : Replaced w z s t) :
    Follows w z (readColon s) (readColon t) := by
  refine follows_readNext hhead (left_readColon_suffix s) (fun c u v _ hwhole huv => ?_) h
  split
  · exact .done huv ()
  · exact .mismatch hhead hwhole .colon

/-- Fields follow one another if their values do. -/
theorem follows_readField (hhead : w.head? = z.head?)
    (hbounds : bound' + w.length = bound + z.length) (hleft : ∀ u, left (value u) <:+ u)
    (hvalue : ∀ u v, u.length < bound → Replaced w z u v → Follows w z (value u) (value' v))
    (h : Replaced w z s t) (hbound : s.length < bound) :
    Follows w z (readField bound value s) (readField bound' value' t) := by
  have hkeyLeft (u : List Char) : left (readKey bound u) <:+ u :=
    (left_readKey_suffix bound u).trans (skipBlanks_suffix u)
  have hcolonLeft (u : List Char) : left (readColon u) <:+ u :=
    (left_readColon_suffix u).trans (skipBlanks_suffix u)
  rw [readField_eq, readField_eq]
  refine (follows_readKey hhead hbounds h hbound).bind (fun key u hkey => ?_) fun key rest => ?_
  · have hcolons := follows_readColon hhead (replaced_append (w := w) (z := z) u)
    refine hcolons.bind (fun _ v hcolon => ?_) fun _ rest => ?_
    · have hu := rest_suffix (hkeyLeft s) hkey
      have hv := rest_suffix (hcolonLeft (u ++ w)) hcolon
      have hlength := (hv.trans hu).length_le
      exact (hvalue _ _ (by omega) (replaced_append v)).map fun x => (key, x)
    · exact left_bind_suffix (hleft rest) fun x rest hrest => hrest
  · refine left_bind_suffix (hcolonLeft rest) fun _ u hu => ?_
    exact left_bind_suffix ((hleft u).trans hu) fun x rest hrest => hrest

/-- Arrays and objects follow one another if the values inside do. -/
theorem follows_readBracketed (hhead : w.head? = z.head?)
    (hbounds : bound' + w.length = bound + z.length) (hleft : ∀ u, left (value u) <:+ u)
    (hvalue : ∀ u v, u.length < bound → Replaced w z u v → Follows w z (value u) (value' v))
    (bracket : Char) (h : Replaced w z s t) (hbound : s.length < bound) :
    Follows w z (readBracketed options bound value bracket s)
      (readBracketed options bound' value' bracket t) := by
  unfold readBracketed
  split
  · exact (follows_readEnclosed hhead (.inl rfl) hbounds hleft hvalue h hbound).map Value.array
  · have hfield (u v : List Char) (hu : u.length < bound) (huv : Replaced w z u v) :
        Follows w z (readField bound value u) (readField bound' value' v) :=
      follows_readField hhead hbounds hleft hvalue huv hu
    exact (follows_readEnclosed hhead (.inr rfl) hbounds (left_readField_suffix hleft) hfield h
      hbound).map fun members => Value.object (Fields.ofMembers members)

/-- Values follow one another if arrays and objects do. -/
theorem follows_readValueWith (hhead : w.head? = z.head?)
    (hbounds : bound' + w.length = bound + z.length)
    {bracketed bracketed' : Char → List Char → Except ReadFailure (Value × List Char)}
    (hleft : ∀ c u, left (bracketed c u) <:+ c :: u)
    (hbracketed : ∀ c u v, u.length < bound → Replaced w z (c :: u) (c :: v) →
      Replaced w z u v → Follows w z (bracketed c u) (bracketed' c v))
    (h : Replaced w z s t) (hbound : s.length < bound) :
    Follows w z (readValueWith bound bracketed s) (readValueWith bound' bracketed' t) := by
  rw [readValueWith_eq, readValueWith_eq]
  refine follows_readNext hhead (left_readNext_suffix (left_readFrom_suffix hleft) s)
    (fun c u v hlength hwhole huv => ?_) h
  rw [List.length_cons] at hlength
  unfold readFrom
  -- One case for each character that may open a value, in the order in which they are tried.
  split
  · exact hbracketed c u v (by omega) hwhole huv
  split
  · exact (follows_readString hhead hbounds _ _ huv (by omega)).map Value.string
  split
  · exact follows_readConstant hhead _ _ hwhole
  split
  · exact follows_readConstant hhead _ _ hwhole
  split
  · exact follows_readConstant hhead _ _ hwhole
  split
  · exact follows_readNumber hhead hwhole
  · exact .mismatch hhead hwhole .value

/-- No run looks further than the place, to any depth. -/
theorem follows_readValue (hhead : w.head? = z.head?)
    (hbounds : bound' + w.length = bound + z.length) (room : ℕ) (h : Replaced w z s t)
    (hbound : s.length < bound) :
    Follows w z (readValue options bound room s) (readValue options bound' room t) := by
  induction room generalizing s t with
  | zero =>
    rw [readValue_eq, readValue_eq]
    refine follows_readValueWith hhead hbounds (left_readInside_suffix options bound 0)
      (fun bracket u v _ hwhole _ => ?_) h hbound
    exact .refused hwhole (.tooDeep options.maxDepth.toNat)
  | succ room ih =>
    rw [readValue_eq, readValue_eq]
    refine follows_readValueWith hhead hbounds (left_readInside_suffix options bound (room + 1))
      (fun bracket u v hu _ huv => ?_) h hbound
    exact follows_readBracketed hhead hbounds (left_readValue_suffix options bound room)
      (fun x y hx hxy => ih hxy hx) bracket huv hu

end values

/-! ## Documents -/

/-- An immediate failure is the same in every text that goes on with the same character. -/
theorem readText_error_of_head?_eq {options : ReadOptions} {before : List Char} {cause : ReadCause}
    (hhead : w.head? = z.head?) (hcause : cause.Immediate)
    (h : readText options (before ++ w) = .error ⟨cause, w⟩) :
    readText options (before ++ z) = .error ⟨cause, z⟩ := by
  have hbounds : (before ++ z).length + 1 + w.length = (before ++ w).length + 1 + z.length := by
    simp only [List.length_append]
    omega
  have hvalue : Follows w z
      (readValue options ((before ++ w).length + 1) options.maxDepth.toNat (before ++ w))
      (readValue options ((before ++ z).length + 1) options.maxDepth.toNat (before ++ z)) :=
    follows_readValue hhead hbounds _ (replaced_append before) (Nat.lt_succ_self _)
  rcases bind_eq_error_iff.mp h with hfirst | ⟨⟨v, s⟩, hfirst, hthen⟩
  · exact bind_eq_error_iff.mpr (.inl (hvalue.error hcause hfirst))
  obtain ⟨after, hs, hafter, hends⟩ := exists_blanks s
  dsimp only at hthen
  split at hthen
  · cases hthen
  -- The value is complete, and the character behind it is not blank.
  · rename_i hne
    obtain ⟨rfl, hskip⟩ := ReadFailure.mk.inj (Except.error.inj hthen)
    rw [hskip] at hs hends hne
    rw [hs] at hfirst
    obtain ⟨c, u, rfl⟩ := List.exists_cons_of_ne_nil hne
    obtain ⟨v, rfl⟩ := List.head?_eq_some_iff.mp hhead.symm
    refine bind_eq_error_iff.mpr (.inr ⟨_, hvalue.ok hfirst, ?_⟩)
    dsimp only
    rw [skipBlanks_append hafter (ends_cons (hends c rfl) v)]

/-- A failure that depends on the next character only has a next character. -/
theorem ReadCause.Immediate.exists_cons {options : ReadOptions} {cause : ReadCause} {room : ℕ}
    {before rest : List Char} (hcause : cause.Immediate)
    (hfits : cause.Fits options room before rest) : ∃ c u, rest = c :: u := by
  have hhead : ∃ c, rest.head? = some c := by
    cases cause with
    | unexpected expected found => exact ⟨found, hfits⟩
    | controlCharacter =>
      obtain ⟨c, hc, _⟩ := hfits
      exact ⟨c, hc⟩
    | trailingComma =>
      obtain ⟨_, ⟨c, hc, _⟩, _⟩ := hfits
      exact ⟨c, hc⟩
    | trailingCharacters =>
      obtain ⟨⟨c, hc, _⟩, _⟩ := hfits
      exact ⟨c, hc⟩
    | tooDeep limit =>
      obtain ⟨_, ⟨c, hc, _⟩, _⟩ := hfits
      exact ⟨c, hc⟩
    | _ => exact absurd hcause id
  obtain ⟨c, hc⟩ := hhead
  obtain ⟨u, hu⟩ := List.head?_eq_some_iff.mp hc
  exact ⟨c, u, hu⟩

/-- A text that is refused for an immediate cause is refused in the same way whatever comes behind
the offending character. So no document begins with the text up to this character, and no text in
front of which a document begins is refused for such a cause. -/
theorem readDocument_error_of_take_eq {options : ReadOptions} {text : String} {e : ReadError}
    (h : readDocument options text = .error e) (hcause : e.cause.Immediate) :
    e.position < text.toList.length ∧
      (∀ other : String,
        other.toList.take (e.position + 1) = text.toList.take (e.position + 1) →
          readDocument options other = .error e) ∧
      (∀ (other : String) (v : Value), readDocument options other = .ok v →
        ¬ text.toList.take (e.position + 1) <+: other.toList) ∧
      ∀ (other : String) (v : Value), readDocument options other = .ok v →
        ¬ text.toList <+: other.toList := by
  obtain ⟨before, rest, htext, hposition, hread, hfits⟩ := fits_of_readDocument h
  obtain ⟨c, u, rfl⟩ := hcause.exists_cons hfits
  rw [htext] at hread
  have htake : text.toList.take (e.position + 1) = before ++ [c] := by
    rw [htext, ← hposition, List.take_length_add_append]
    rfl
  -- A text with the same beginning goes on with the same character behind the same characters.
  have hsame (other : String)
      (hother : other.toList.take (e.position + 1) = text.toList.take (e.position + 1)) :
      readDocument options other = .error e := by
    have hshape := (List.take_append_drop (e.position + 1) other.toList).symm
    rw [hother, htake, List.append_assoc, List.singleton_append] at hshape
    generalize other.toList.drop (e.position + 1) = v at hshape
    have hhead : (c :: u).head? = (c :: v).head? := rfl
    have hagain := readText_error_of_head?_eq hhead hcause hread
    rw [← hshape] at hagain
    exact readDocument_eq_error_iff.mpr ⟨before, c :: v, hshape, hposition, hagain⟩
  have hnone (other : String) (v : Value) (hv : readDocument options other = .ok v) :
      ¬ text.toList.take (e.position + 1) <+: other.toList := by
    intro hbegins
    have hlength : (text.toList.take (e.position + 1)).length = e.position + 1 := by
      rw [htake, List.length_append, hposition, List.length_singleton]
    have hother := List.prefix_iff_eq_take.mp hbegins
    rw [hlength] at hother
    rw [hsame other hother.symm] at hv
    cases hv
  refine ⟨?_, hsame, hnone, fun other v hv hbegins => ?_⟩
  · rw [htext, List.length_append, List.length_cons]
    omega
  · exact hnone other v hv ((List.take_prefix _ _).trans hbegins)

/-- A second item without a comma is refused at its first character, whatever follows. -/
theorem readDocument_error_of_take_eq_items :
    readDocument {} "[1 2" = .error ⟨3, .unexpected .commaOrBracket '2'⟩ ∧
      readDocument {} "[1 2, \"\\ud800]" = .error ⟨3, .unexpected .commaOrBracket '2'⟩ := by
  have h : readDocument {} "[1 2" = .error ⟨3, .unexpected .commaOrBracket '2'⟩ := by rfl
  exact ⟨h, (readDocument_error_of_take_eq h trivial).2.1 _ rfl⟩

end ContractDraft
