import ContractDraft.Proofs.Json.Failure
import ContractDraft.Proofs.Json.Scan

/-!
# The cursor stays inside the text

The reader passes on the text that is left, the scan the place where this text begins. Both do the
same at every step (`Lands`): what is left is always a part of the text, so there is a character
where the scan takes one; and the scan ends inside of as many brackets as it started in, so there is
one to close where it closes one. So the scan never stops for a count (`scanDocument_eq`), and where
it refuses a text the cause fits (`readDocument_error_fits`).
-/

namespace ContractDraft

/-! ## What the cursor stands for -/

/-- The cursor in front of the rest `s` of a text. -/
def cursorAt (text : List Char) (depth : ℕ) (s : List Char) : Cursor :=
  ⟨text.length - s.length, depth⟩

/-- An outcome of the reader, in terms of the cursor. -/
def landing {α : Type} (text : List Char) (depth : ℕ) :
    Except ReadFailure (α × List Char) → Except Halt (α × Cursor)
  | .ok (a, rest) => .ok (a, cursorAt text depth rest)
  | .error failure => .error (.refused (failure.locate text))

/-- In front of `s` the scan comes to the outcome `x`. It starts inside of `depth` brackets and ends
inside of `depth'`. -/
def Lands {α : Type} (text : List Char) (depth depth' : ℕ) (m : Scan α) (s : List Char)
    (x : Except ReadFailure (α × List Char)) : Prop :=
  m (cursorAt text depth s) = landing text depth' x

namespace Lands

variable {α β : Type} {options : ReadOptions} {text s : List Char} {depth depth' depth'' : ℕ}

/-! ## Single steps land -/

theorem done (a : α) : Lands text depth depth (pure a) s (.ok (a, s)) := rfl

theorem refuse (cause : ReadCause) :
    Lands text depth depth' (Scan.refuse cause : Scan α) s (.error ⟨cause, s⟩) := rfl

/-- A failure may be blamed on an earlier place. -/
theorem refuseAt (opening : List Char) (cause : ReadCause) :
    Lands text depth depth' (Scan.refuseAt (text.length - opening.length) cause : Scan α) s
      (.error ⟨cause, opening⟩) := rfl

/-- Steps that land one after the other land together. -/
theorem bind {m : Scan α} {k : α → Scan β} {x : Except ReadFailure (α × List Char)}
    {f : α × List Char → Except ReadFailure (β × List Char)} (hm : Lands text depth depth' m s x)
    (hk : ∀ a rest, x = .ok (a, rest) → Lands text depth' depth'' (k a) rest (f (a, rest))) :
    Lands text depth depth'' (m >>= k) s (x >>= f) := by
  show (m (cursorAt text depth s) >>= fun p => k p.1 p.2) = landing text depth'' (x >>= f)
  rw [hm]
  cases x with
  | error failure => rfl
  | ok p => exact hk p.1 p.2 rfl

/-- The same is done with what was read. -/
theorem map {m : Scan α} {x : Except ReadFailure (α × List Char)}
    (hm : Lands text depth depth' m s x) (f : α → β) :
    Lands text depth depth' (m >>= fun a => pure (f a)) s (x >>= fun p => .ok (f p.1, p.2)) :=
  hm.bind fun a _ _ => done (f a)

section steps

variable {x : Except ReadFailure (β × List Char)}

theorem position {k : ℕ → Scan β}
    (h : Lands text depth depth' (k (text.length - s.length)) s x) :
    Lands text depth depth' (Scan.position >>= k) s x := h

/-- The character at a distance is read off the text behind the cursor. -/
theorem peekAt (hs : s <:+ text) {k : Option Char → Scan β} {offset : ℕ}
    (h : Lands text depth depth' (k s[offset]?) s x) :
    Lands text depth depth' (Scan.peekAt text offset >>= k) s x := by
  obtain ⟨u, rfl⟩ := hs
  have hlook : (u ++ s)[(u ++ s).length - s.length + offset]? = s[offset]? := by
    rw [List.length_append, Nat.add_sub_cancel_right,
      List.getElem?_append_right (Nat.le_add_right _ _), Nat.add_sub_cancel_left]
  show k (u ++ s)[(u ++ s).length - s.length + offset]? _ = _
  rw [hlook]
  exact h

theorem peek (hs : s <:+ text) {k : Option Char → Scan β}
    (h : Lands text depth depth' (k s.head?) s x) :
    Lands text depth depth' (Scan.peek text >>= k) s x := by
  rw [List.head?_eq_getElem?] at h
  exact peekAt hs h

/-- In front of a character there is one to take. -/
theorem bump {c : Char} (hs : c :: s <:+ text) {k : Unit → Scan β}
    (h : Lands text depth depth' (k ()) s x) :
    Lands text depth depth' (Scan.bump text >>= k) (c :: s) x := by
  have hlength := hs.length_le
  rw [List.length_cons] at hlength
  have htaken :
      Scan.bump text (cursorAt text depth (c :: s)) = .ok ((), cursorAt text depth s) := by
    unfold Scan.bump cursorAt
    rw [List.length_cons, if_pos (by dsimp only; omega)]
    dsimp only
    congr 3
    omega
  show (Scan.bump text (cursorAt text depth (c :: s)) >>= fun p => k p.1 p.2) = _
  rw [htaken]
  exact h

/-- A bracket within bounds goes one level deeper. -/
theorem enter (hdepth : depth < options.maxDepth.toNat) {k : Unit → Scan β}
    (h : Lands text (depth + 1) depth' (k ()) s x) :
    Lands text depth depth' (Scan.enter options >>= k) s x := by
  have hopened : Scan.enter options (cursorAt text depth s) =
      .ok ((), cursorAt text (depth + 1) s) := if_neg (Nat.not_le.mpr hdepth)
  show (Scan.enter options (cursorAt text depth s) >>= fun p => k p.1 p.2) = _
  rw [hopened]
  exact h

/-- A bracket out of bounds is refused where it stands. -/
theorem enter_tooDeep (hdepth : options.maxDepth.toNat ≤ depth) {k : Unit → Scan β} :
    Lands text depth depth' (Scan.enter options >>= k) s
      (.error ⟨.tooDeep options.maxDepth.toNat, s⟩) := by
  have hrefused : Scan.enter options (cursorAt text depth s) =
      .error (.refused ⟨text.length - s.length, .tooDeep options.maxDepth.toNat⟩) := if_pos hdepth
  show (Scan.enter options (cursorAt text depth s) >>= fun p => k p.1 p.2) = _
  rw [hrefused]
  rfl

/-- Inside a bracket there is one to close. -/
theorem leave {k : Unit → Scan β} (h : Lands text depth depth' (k ()) s x) :
    Lands text (depth + 1) depth' (Scan.leave >>= k) s x := h

end steps

/-- What is unexpected is told by the next character. -/
theorem mismatch (hs : s <:+ text) (expected : Expectation) :
    Lands text depth depth' (Scan.mismatch text expected : Scan α) s
      (.error (.mismatch expected s)) := by
  refine peek hs ?_
  cases s with
  | nil => exact refuse (.unexpectedEnd expected)
  | cons c s => exact refuse (.unexpected expected c)

/-- Skipping lands behind the run that is skipped. -/
theorem skipWhile {p : Char → Bool} {fuel : ℕ} (hs : s <:+ text) (hfuel : s.length < fuel) :
    Lands text depth depth (Scan.skipWhile text p fuel) s (.ok ((), s.dropWhile p)) := by
  induction fuel generalizing s with
  | zero => exact absurd hfuel (Nat.not_lt_zero _)
  | succ fuel ih =>
    refine peek hs ?_
    cases s with
    | nil => exact done ()
    | cons c s =>
      dsimp only [List.head?_cons]
      rw [List.dropWhile_cons]
      split
      · exact bump hs (ih ((List.suffix_cons c s).trans hs) (Nat.lt_of_succ_lt_succ hfuel))
      · exact done ()

/-- Skipping blanks lands behind them. -/
theorem skip (hs : s <:+ text) {k : Unit → Scan β} {x : Except ReadFailure (β × List Char)}
    (h : Lands text depth depth' (k ()) (skipBlanks s) x) :
    Lands text depth depth' (Scan.skip text >>= k) s x := by
  have hskip : Lands text depth depth (Scan.skip text) s (.ok ((), skipBlanks s)) :=
    skipWhile hs (Nat.lt_succ_of_le hs.length_le)
  refine hskip.bind (f := fun _ => x) fun _ rest hrest => ?_
  cases hrest
  exact h

end Lands

/-! ## Strings -/

section readers

variable {text s : List Char} {depth : ℕ}

/-- Hexadecimal digits land. -/
theorem lands_hex (count high : ℕ) (hs : s <:+ text) :
    Lands text depth depth (Scan.hex text count high) s (readHex count high s) := by
  induction count generalizing high s with
  | zero => exact .done high
  | succ count ih =>
    refine .peek hs ?_
    cases s with
    | nil => exact .refuse (.unexpectedEnd .hexDigit)
    | cons c s =>
      dsimp only [List.head?_cons]
      unfold readHex
      cases Text.hexValue? c with
      | none => exact .refuse .invalidEscape
      | some digit => exact .bump hs (ih _ ((List.suffix_cons c s).trans hs))

/-- Behind a high surrogate the scan looks two characters ahead before it takes them. -/
theorem lands_unicodeEscape {start : List Char} (hs : s <:+ text) :
    Lands text depth depth
      (Scan.hex text 4 0 >>= fun n => Scan.decode text n (text.length - start.length)) s
      (readUnicodeEscape start s) := by
  refine (lands_hex 4 0 hs).bind fun n t hread => ?_
  have ht : t <:+ text := (rest_suffix (left_readHex_suffix 4 0 s) hread).trans hs
  unfold Scan.decode
  dsimp only
  split
  · refine .peek ht (.peekAt ht ?_)
    split
    · rename_i hlook
      obtain ⟨u, rfl⟩ := List.head?_eq_some_iff.mp hlook.1
      have hsecond := hlook.2
      rw [List.getElem?_cons_succ, ← List.head?_eq_getElem?] at hsecond
      obtain ⟨u, rfl⟩ := List.head?_eq_some_iff.mp hsecond
      have hmiddle : 'u' :: u <:+ text := (List.suffix_cons '\\' _).trans ht
      have hu : u <:+ text := (List.suffix_cons 'u' u).trans hmiddle
      refine .bump ht (.bump hmiddle ((lands_hex 4 0 hu).bind fun low v _ => ?_))
      dsimp only
      split
      · exact .done (joinSurrogates n low)
      · exact .refuseAt start .invalidEscape
    · rename_i hother
      split
      · exact absurd ⟨rfl, rfl⟩ hother
      · exact .refuseAt start .invalidEscape
  · split
    · exact .refuseAt start .invalidEscape
    · exact .done (Char.ofNat n)

/-- A letter other than `u` stands for one character, or for none. -/
theorem readEscape_of_ne {opening t : List Char} {c : Char} (hc : c ≠ 'u') :
    readEscape opening (c :: t) =
      (simpleEscape? c).elim (.error ⟨.invalidEscape, c :: t⟩) fun decoded => .ok (decoded, t) := by
  unfold readEscape
  split
  · contradiction
  · rename_i hcons
    exact absurd (List.cons.inj hcons).1 hc
  · rename_i hcons
    obtain ⟨rfl, rfl⟩ := List.cons.inj hcons
    cases simpleEscape? c <;> rfl

/-- Escapes land, and an open string is blamed on its quote. -/
theorem lands_escape {opening : List Char} (hs : '\\' :: s <:+ text) :
    Lands text depth depth (Scan.escape text (text.length - opening.length)) s
      (readEscape opening s) := by
  have hrest : s <:+ text := (List.suffix_cons '\\' s).trans hs
  refine .peek hrest ?_
  cases s with
  | nil => exact .refuseAt opening .unterminatedString
  | cons c t =>
    have ht : t <:+ text := (List.suffix_cons c t).trans hrest
    dsimp only [List.head?_cons]
    by_cases hc : c = 'u'
    · subst hc
      rw [if_pos rfl]
      refine .position (.bump hrest ?_)
      -- The backslash stands one character in front of the letter.
      have hstart : text.length - ('u' :: t).length - 1 =
          text.length - ('\\' :: 'u' :: t).length := by
        simp only [List.length_cons]
        omega
      rw [hstart]
      exact lands_unicodeEscape ht
    · rw [if_neg hc, readEscape_of_ne hc]
      cases simpleEscape? c with
      | none => exact .refuse .invalidEscape
      | some decoded => exact .bump hrest (.done decoded)

/-- The scan takes the same characters of a string, which begins at the same place. -/
theorem lands_chars {opening : List Char} {fuel : ℕ} (hs : s <:+ text) (hfuel : s.length < fuel) :
    Lands text depth depth (Scan.chars text (text.length - opening.length) fuel) s
      (readStringBody opening fuel s) := by
  induction fuel generalizing s with
  | zero => exact absurd hfuel (Nat.not_lt_zero _)
  | succ fuel ih =>
    refine .peek hs ?_
    cases s with
    | nil => exact .refuseAt opening .unterminatedString
    | cons c t =>
      have ht : t <:+ text := (List.suffix_cons c t).trans hs
      dsimp only [List.head?_cons]
      unfold readStringBody
      split
      · exact .bump hs (.done [])
      split
      · rename_i hback
        subst hback
        refine .bump hs ((lands_escape hs).bind fun decoded u hescape => ?_)
        obtain ⟨e, he, hchar⟩ := escapeText_of_readEscape hescape
        have hpos := List.length_pos_iff.mpr (CharText.escape hchar).ne_nil
        have hlength := congrArg List.length he
        simp only [List.length_append, List.length_cons] at hlength hfuel
        have hu : u <:+ text := List.IsSuffix.trans ⟨e, he.symm⟩ hs
        exact (ih hu (by omega)).map (decoded :: ·)
      split
      · exact .refuse .controlCharacter
      · exact .bump hs ((ih ht (Nat.lt_of_succ_lt_succ hfuel)).map (c :: ·))

/-- Strings land. -/
theorem lands_string (hs : '"' :: s <:+ text) :
    Lands text depth depth (Scan.string text) ('"' :: s)
      (readString (text.length + 1) ('"' :: s) s) := by
  have hrest : s <:+ text := (List.suffix_cons '"' s).trans hs
  refine .position (.bump hs ?_)
  exact (lands_chars hrest (Nat.lt_succ_of_le hrest.length_le)).map String.ofList

/-! ## Words and numbers -/

/-- Words land. -/
theorem lands_word {whole : String} {letters : List Char} (hs : s <:+ text) :
    Lands text depth depth (Scan.word text whole letters) s
      ((readWord whole letters s).map fun rest => ((), rest)) := by
  induction letters generalizing s with
  | nil => exact .done ()
  | cons letter letters ih =>
    refine .peek hs ?_
    cases s with
    | nil => exact .mismatch hs (.word whole)
    | cons c t =>
      have hsame : (c :: t).head? = some letter ↔ c = letter := by simp
      unfold readWord
      by_cases hc : c = letter
      · rw [if_pos (hsame.mpr hc), if_pos hc]
        exact .bump hs (ih ((List.suffix_cons c t).trans hs))
      · rw [if_neg (mt hsame.mp hc), if_neg hc]
        exact .mismatch hs (.word whole)

theorem lands_constant (word : String) (v : Value) (hs : s <:+ text) :
    Lands text depth depth (do Scan.word text word word.toList; pure v) s
      (readConstant word v s) := by
  have hword : Lands text depth depth (Scan.word text word word.toList) s
      ((readWord word word.toList s).map fun rest => ((), rest)) := lands_word hs
  have hvalue := hword.bind (f := fun p => .ok (v, p.2)) (k := fun _ => pure v)
    fun _ rest _ => .done v
  have heq : ((readWord word word.toList s).map fun rest => ((), rest)) >>=
      (fun p => .ok (v, p.2)) = readConstant word v s := by
    unfold readConstant
    cases readWord word word.toList s <;> rfl
  rwa [heq] at hvalue

/-- Between the two ends of the run stands the literal. -/
theorem lands_number (hs : s <:+ text) :
    Lands text depth depth (Scan.number text) s (readNumber s) := by
  have hliteral :
      (text.drop (text.length - s.length)).take
        (text.length - (s.dropWhile isNumberChar).length - (text.length - s.length)) =
      s.takeWhile isNumberChar := by
    obtain ⟨u, rfl⟩ := hs
    have hrun := congrArg List.length (List.takeWhile_append_dropWhile (p := isNumberChar) (l := s))
    rw [List.length_append] at hrun
    rw [List.length_append, Nat.add_sub_cancel_right, List.drop_left]
    have hlength : u.length + s.length - (s.dropWhile isNumberChar).length - u.length =
        (s.takeWhile isNumberChar).length := by omega
    rw [hlength]
    exact (List.prefix_iff_eq_take.mp (List.takeWhile_prefix isNumberChar)).symm
  refine .position ?_
  refine (Lands.skipWhile hs (Nat.lt_succ_of_le hs.length_le)).bind (f := fun _ => readNumber s)
    fun _ rest hrest => ?_
  cases hrest
  refine .position ?_
  dsimp only
  rw [hliteral]
  unfold readNumber
  dsimp only
  cases Numeral.ofLiteral? (s.takeWhile isNumberChar) with
  | none => exact .refuseAt s (.malformedNumber _)
  | some n => exact .done n.value

end readers

/-! ## Members -/

section members

variable {α : Type} {options : ReadOptions} {text s : List Char} {depth : ℕ} {close : Char}
  {next : Expectation} {member : Scan α} {read : List Char → Except ReadFailure (α × List Char)}

/-- Blanks are skipped once. -/
theorem skipBlanks_skipBlanks (s : List Char) : skipBlanks (skipBlanks s) = skipBlanks s := by
  obtain ⟨_, _, _, hends⟩ := exists_blanks s
  exact skipBlanks_append blanks_nil hends

/-- What stands behind a member lands if the other members do. -/
theorem lands_behind {others : Scan (List α)}
    {readOthers : List Char → Except ReadFailure (List α × List Char)}
    (hothers : ∀ u, u <:+ text → skipBlanks u = u → u.length < s.length →
      Lands text depth depth others u (readOthers u)) (hs : s <:+ text) (a : α) :
    Lands text depth depth (Scan.behind options text close next others a) s
      (readBehind options close next readOthers a s) := by
  have hskip : skipBlanks s <:+ text := (skipBlanks_suffix s).trans hs
  have hlength := (skipBlanks_suffix s).length_le
  refine .skip hs (.peek hskip ?_)
  unfold readBehind behind
  generalize skipBlanks s = u at hskip hlength
  cases u with
  | nil => exact .mismatch hskip next
  | cons c t =>
    dsimp only [List.head?_cons]
    by_cases hcomma : c = ','
    · subst hcomma
      have ht : t <:+ text := (List.suffix_cons ',' t).trans hskip
      have hnext : skipBlanks t <:+ text := (skipBlanks_suffix t).trans ht
      have hshorter := (skipBlanks_suffix t).length_le
      rw [List.length_cons] at hlength
      rw [if_pos rfl, if_pos rfl]
      refine .bump hskip (.skip ht (.peek hnext ?_))
      by_cases hlast : options.allowTrailingCommas = true ∧ (skipBlanks t).head? = some close
      · rw [if_pos hlast, if_pos hlast.symm]
        obtain ⟨v, hv⟩ := List.head?_eq_some_iff.mp hlast.2
        rw [hv] at hnext ⊢
        exact .bump hnext (.done [a])
      · rw [if_neg hlast, if_neg fun h => hlast h.symm]
        exact (hothers _ hnext (skipBlanks_skipBlanks t) (by omega)).map (a :: ·)
    rw [if_neg hcomma, if_neg hcomma]
    by_cases hclose : c = close
    · rw [if_pos hclose, if_pos hclose]
      exact .bump hskip (.done [a])
    · rw [if_neg hclose, if_neg hclose]
      exact .mismatch hskip next

/-- Rows of members land if the members do. -/
theorem lands_members (hleft : ∀ u, left (read u) <:+ u)
    (hmember : ∀ u, u <:+ text → skipBlanks u = u → Lands text depth depth member u (read u))
    {fuel : ℕ} (hs : s <:+ text) (hblank : skipBlanks s = s) (hfuel : s.length < fuel) :
    Lands text depth depth (Scan.members options text close next member fuel) s
      (readMembers options close next read fuel s) := by
  induction fuel generalizing s with
  | zero => exact absurd hfuel (Nat.not_lt_zero _)
  | succ fuel ih =>
    -- The round before has skipped the blanks already, so there are none in front of the member.
    refine .skip hs ?_
    rw [hblank, readMembers_succ]
    refine .peek hs ?_
    by_cases hlast : s.head? = some close
    · rw [if_pos hlast, if_pos hlast]
      exact .refuse .trailingComma
    rw [if_neg hlast, if_neg hlast]
    refine (hmember s hs hblank).bind fun a t hread => ?_
    have ht : t <:+ s := rest_suffix (hleft s) hread
    have hlength := ht.length_le
    exact lands_behind (fun u hu hskipped hshorter => ih hu hskipped (by omega)) (ht.trans hs) a

/-- The bracket that is opened is closed on every way out. -/
theorem lands_enclosed (hdepth : depth < options.maxDepth.toNat)
    (hleft : ∀ u, left (read u) <:+ u)
    (hmember : ∀ u, u <:+ text → skipBlanks u = u →
      Lands text (depth + 1) (depth + 1) member u (read u))
    {bracket : Char} (hs : bracket :: s <:+ text) :
    Lands text depth depth (Scan.enclosed options text close next member) (bracket :: s)
      (readEnclosed options (text.length + 1) close next read s) := by
  have hrest : s <:+ text := (List.suffix_cons bracket s).trans hs
  have hskip : skipBlanks s <:+ text := (skipBlanks_suffix s).trans hrest
  have hblank := skipBlanks_skipBlanks s
  refine .enter hdepth (.bump hs (.skip hrest (.peek hskip ?_)))
  unfold readEnclosed
  dsimp only
  generalize skipBlanks s = u at hskip hblank
  by_cases hempty : u.head? = some close
  · rw [if_pos hempty, if_pos hempty]
    obtain ⟨v, rfl⟩ := List.head?_eq_some_iff.mp hempty
    exact .bump hskip (.leave (.done []))
  · rw [if_neg hempty, if_neg hempty]
    have hmembers : Lands text (depth + 1) (depth + 1)
        (Scan.members options text close next member (text.length + 1)) u
        (readMembers options close next read (text.length + 1) u) :=
      lands_members hleft hmember hskip hblank (Nat.lt_succ_of_le hskip.length_le)
    -- Closing the bracket takes nothing from the text, so the outcome is that of the members.
    have hthrough := hmembers.bind (f := fun p => .ok p)
      (k := fun items => Scan.leave >>= fun _ => pure items)
      fun items rest _ => .leave (.done items)
    have hsame (x : Except ReadFailure (List α × List Char)) : (x >>= fun p => .ok p) = x :=
      bind_pure x
    rwa [hsame] at hthrough

end members

/-! ## Values -/

section values

variable {options : ReadOptions} {text s : List Char} {depth : ℕ}

/-- Fields land if their values do. -/
theorem lands_field {value : Scan Value}
    {read : List Char → Except ReadFailure (Value × List Char)}
    (hvalue : ∀ u, u <:+ text → Lands text depth depth value u (read u)) (hs : s <:+ text)
    (hblank : skipBlanks s = s) :
    Lands text depth depth (Scan.field text value) s (readField (text.length + 1) read s) := by
  rw [readField_eq]
  refine .peek hs ?_
  unfold readKey readNext
  rw [hblank]
  cases s with
  | nil => exact .mismatch hs .key
  | cons c t =>
    have hsame : (c :: t).head? = some '"' ↔ c = '"' := by simp
    by_cases hquote : c = '"'
    · subst hquote
      rw [if_pos (hsame.mpr rfl)]
      refine (lands_string hs).bind fun key u hkey => ?_
      have hu : u <:+ text :=
        (rest_suffix (left_readString_suffix (text.length + 1) t) hkey).trans hs
      have hskip : skipBlanks u <:+ text := (skipBlanks_suffix u).trans hu
      refine .skip hu (.peek hskip ?_)
      unfold readColon readNext
      dsimp only
      generalize skipBlanks u = v at hskip
      cases v with
      | nil => exact .mismatch hskip .colon
      | cons d v =>
        have hsame : (d :: v).head? = some ':' ↔ d = ':' := by simp
        by_cases hcolon : d = ':'
        · subst hcolon
          rw [if_pos (hsame.mpr rfl)]
          have hv : v <:+ text := (List.suffix_cons ':' v).trans hskip
          exact .bump hskip ((hvalue v hv).map fun x => (key, x))
        · rw [if_neg (mt hsame.mp hcolon)]
          dsimp only
          rw [if_neg hcolon]
          exact .mismatch hskip .colon
    · rw [if_neg (mt hsame.mp hquote)]
      dsimp only
      rw [if_neg hquote]
      exact .mismatch hs .key

/-- The first character tells the scan what to read. -/
theorem lands_valueWith {fuel : ℕ}
    {inside : Char → List Char → Except ReadFailure (Value × List Char)}
    (hobject : ∀ t, '{' :: t <:+ text →
      Lands text depth depth
        (Scan.enclosed options text '}' .commaOrBrace
          (Scan.field text (Scan.value options text fuel)) >>= fun fields =>
            pure (.object (Fields.ofMembers fields)))
        ('{' :: t) (inside '{' t))
    (harray : ∀ t, '[' :: t <:+ text →
      Lands text depth depth
        (Scan.enclosed options text ']' .commaOrBracket (Scan.value options text fuel) >>=
          fun items => pure (.array items))
        ('[' :: t) (inside '[' t)) (hs : s <:+ text) :
    Lands text depth depth (Scan.value options text (fuel + 1)) s
      (readValueWith (text.length + 1) inside s) := by
  have hskip : skipBlanks s <:+ text := (skipBlanks_suffix s).trans hs
  rw [readValueWith_eq]
  refine .skip hs (.peek hskip ?_)
  unfold readNext
  generalize skipBlanks s = u at hskip
  cases u with
  | nil => exact .mismatch hskip .value
  | cons c t =>
    dsimp only [List.head?_cons]
    unfold readFrom
    -- The scan has a branch for each opening bracket, the reader one for both.
    by_cases hbrace : c = '{'
    · subst hbrace
      rw [if_pos rfl, if_pos (.inl rfl)]
      exact hobject t hskip
    by_cases hbracket : c = '['
    · subst hbracket
      rw [if_neg hbrace, if_pos rfl, if_pos (.inr rfl)]
      exact harray t hskip
    rw [if_neg hbrace, if_neg hbracket, if_neg (not_or.mpr ⟨hbrace, hbracket⟩)]
    split
    · rename_i hquote
      subst hquote
      exact (lands_string hskip).map Value.string
    split
    · exact lands_constant "true" (.boolean true) hskip
    split
    · exact lands_constant "false" (.boolean false) hskip
    split
    · exact lands_constant "null" .null hskip
    split
    · exact lands_number hskip
    · exact .mismatch hskip .value

/-- Inside of `depth` brackets there is room for `room` more. -/
theorem lands_value {room : ℕ} (hdepth : depth + room = options.maxDepth.toNat)
    (hs : s <:+ text) :
    Lands text depth depth (Scan.value options text (room + 1)) s
      (readValue options (text.length + 1) room s) := by
  induction room generalizing depth s with
  | zero =>
    -- All brackets that may be open are open, so the next one is refused where it stands.
    have hfull : options.maxDepth.toNat ≤ depth := by omega
    rw [readValue_eq]
    refine lands_valueWith (fun t _ => ?_) (fun t _ => ?_) hs
    · exact (Lands.enter_tooDeep hfull).map fun fields => Value.object (Fields.ofMembers fields)
    · exact (Lands.enter_tooDeep hfull).map Value.array
  | succ room ih =>
    have hleft := left_readValue_suffix options (text.length + 1) room
    have hvalue (u : List Char) (hu : u <:+ text) :
        Lands text (depth + 1) (depth + 1) (Scan.value options text (room + 1)) u
          (readValue options (text.length + 1) room u) := ih (by omega) hu
    rw [readValue_eq]
    refine lands_valueWith (fun t ht => ?_) (fun t ht => ?_) hs
    · have hfield (u : List Char) (hu : u <:+ text) (hblank : skipBlanks u = u) :
          Lands text (depth + 1) (depth + 1)
            (Scan.field text (Scan.value options text (room + 1))) u
            (readField (text.length + 1) (readValue options (text.length + 1) room) u) :=
        lands_field hvalue hu hblank
      exact (lands_enclosed (by omega) (left_readField_suffix hleft) hfield ht).map
        fun fields => Value.object (Fields.ofMembers fields)
    · exact (lands_enclosed (by omega) hleft (fun u hu _ => hvalue u hu) ht).map Value.array

end values

/-! ## Documents -/

/-- The scan stops before a result only for texts that are refused, and gives the error of the
reader then: it takes no character behind the end of the text, closes no bracket that is not open,
and comes to an end. -/
theorem scanDocument_eq (options : ReadOptions) (text : String) :
    scanDocument options text = (readDocument options text).mapError Halt.refused := by
  have hvalue : Lands text.toList 0 0
      (Scan.value options text.toList (options.maxDepth.toNat + 1)) text.toList
      (readValue options (text.toList.length + 1) options.maxDepth.toNat text.toList) :=
    lands_value (Nat.zero_add _) (List.suffix_refl _)
  have hdocument : Lands text.toList 0 0 (Scan.document options text.toList) text.toList
      (readValue options (text.toList.length + 1) options.maxDepth.toNat text.toList >>= fun p =>
        if skipBlanks p.2 = [] then .ok (p.1, [])
        else .error ⟨.trailingCharacters, skipBlanks p.2⟩) := by
    refine hvalue.bind fun v rest hread => ?_
    have hrest : rest <:+ text.toList := rest_suffix (left_readValue_suffix options _ _ _) hread
    have hle := ((skipBlanks_suffix rest).trans hrest).length_le
    refine .skip hrest (.position ?_)
    dsimp only
    -- The cursor is at the end of the text where nothing is left of it.
    by_cases hend : skipBlanks rest = []
    · rw [hend, if_pos rfl, if_neg (by simp)]
      exact .done v
    · have hpos := List.length_pos_iff.mpr hend
      rw [if_neg hend, if_pos (by omega)]
      exact .refuse .trailingCharacters
  have hstart : (⟨0, 0⟩ : Cursor) = cursorAt text.toList 0 text.toList := by simp [cursorAt]
  unfold Lands at hdocument
  unfold scanDocument readDocument readText
  rw [hstart, hdocument]
  cases readValue options (text.toList.length + 1) options.maxDepth.toNat text.toList with
  | error failure => rfl
  | ok p =>
    obtain ⟨v, rest⟩ := p
    dsimp only [bind, Except.bind]
    cases skipBlanks rest with
    | nil => rfl
    | cons c u => rfl

/-- A text that is refused is refused at a place inside of it, or at its end, where the cause fits.
The cursor never gets out of the text on the way there, and never out of a bracket that is not
open. -/
theorem readDocument_error_fits (options : ReadOptions) (text : String) :
    scanDocument options text = (readDocument options text).mapError Halt.refused ∧
      ∀ e, readDocument options text = .error e →
        e.position ≤ text.toList.length ∧
          e.cause.Fits options options.maxDepth.toNat (text.toList.take e.position)
            (text.toList.drop e.position) := by
  refine ⟨scanDocument_eq options text, fun e he => ?_⟩
  obtain ⟨before, rest, htext, hposition, _, hfits⟩ := fits_of_readDocument he
  rw [htext, ← hposition, List.take_left, List.drop_left, List.length_append]
  exact ⟨Nat.le_add_right _ _, hfits⟩

/-- A bracket inside a string is not open, so one is where a second is refused. -/
theorem readDocument_error_fits_brackets :
    readDocument ⟨false, 1⟩ "[\"[\",[" = .error ⟨5, .tooDeep 1⟩ ∧
      standing ("[\"[\",[".toList.take 5) = ⟨.outside, 1⟩ := by
  have h : readDocument ⟨false, 1⟩ "[\"[\",[" = .error ⟨5, .tooDeep 1⟩ := by rfl
  have hfits := ((readDocument_error_fits ⟨false, 1⟩ "[\"[\",[").2 ⟨5, .tooDeep 1⟩ h).2
  obtain ⟨_, _, hstanding⟩ := hfits
  exact ⟨h, hstanding⟩

end ContractDraft
