import ContractDraft.Proofs.Json.Members
import ContractDraft.Proofs.Json.Numeral
import ContractDraft.Proofs.Json.StringLiteral

/-!
# Documents are read by their grammar

The reader accepts exactly the documents of the grammar and returns what they mean
(`readDocument_eq_ok_iff`). `Reads` says this of a reader for one part of a document, in front of
whatever text comes next; the readers of members, fields, brackets and values each have it if the
readers they are made from do. A number goes on as long as number characters come, so nothing that
may follow a value in a document begins with one.
-/

namespace ContractDraft

/-! ## Blanks -/

/-- There are four kinds of blanks. -/
theorem isBlank_iff {c : Char} : isBlank c = true ↔ c ∈ [' ', '\t', '\n', '\r'] := by
  simp [isBlank, or_assoc]

/-- Blanks in front of anything else are skipped, and only they. -/
theorem skipBlanks_append {before s : List Char} (hbefore : Blanks before) (hs : Ends isBlank s) :
    skipBlanks (before ++ s) = s :=
  (span_append (fun c hc => isBlank_iff.mpr (hbefore c hc)) hs).2

/-- Skipping blanks splits a text into blanks and what begins with no blank. -/
theorem exists_blanks (s : List Char) :
    ∃ before, s = before ++ skipBlanks s ∧ Blanks before ∧ Ends isBlank (skipBlanks s) := by
  refine ⟨s.takeWhile isBlank, List.takeWhile_append_dropWhile.symm, fun c hc => ?_,
    ends_dropWhile _ _⟩
  exact isBlank_iff.mp (List.mem_takeWhile_imp hc)

theorem Blanks.append {s t : List Char} (hs : Blanks s) (ht : Blanks t) : Blanks (s ++ t) :=
  List.forall_mem_append.mpr ⟨hs, ht⟩

theorem blanks_nil : Blanks [] := by simp [Blanks]

/-- Behind blanks no number goes on. -/
theorem Blanks.ends_append {after rest : List Char} (h : Blanks after)
    (hrest : Ends isNumberChar rest) : Ends isNumberChar (after ++ rest) := by
  cases after with
  | nil => exact hrest
  | cons c after =>
    have hc : c ∈ [' ', '\t', '\n', '\r'] := h c (List.mem_cons_self ..)
    have hnumber : isNumberChar c = false := by
      simp only [List.mem_cons, List.not_mem_nil, or_false] at hc
      rcases hc with rfl | rfl | rfl | rfl <;> rfl
    exact ends_cons hnumber _

/-! ## Readers of parts -/

/-- The reader takes blanks and one text from the front and returns what the text means, and it
finds every text that stands there. -/
structure Reads {α : Type} (Text : List Char → α → Prop) (bound : ℕ)
    (read : List Char → Except ReadFailure (α × List Char)) : Prop where
  sound {s rest : List Char} {a : α} : read s = .ok (a, rest) →
    ∃ before t, s = before ++ (t ++ rest) ∧ Blanks before ∧ Text t a
  complete {before t rest : List Char} {a : α} : Blanks before → Text t a →
    Ends isNumberChar rest → (before ++ (t ++ rest)).length < bound →
    read (before ++ (t ++ rest)) = .ok (a, rest)

/-- The texts begin with a character that is neither a blank nor a closing bracket. -/
def Opens {α : Type} (Text : List Char → α → Prop) : Prop :=
  ∀ t a, Text t a → ∃ c u, t = c :: u ∧ isBlank c = false ∧ c ≠ ']' ∧ c ≠ '}'

/-! ## Members -/

section members

variable {α : Type} {Text : List Char → α → Prop} {options : ReadOptions} {bound : ℕ}
  {close : Char} {next : Expectation} {member : List Char → Except ReadFailure (α × List Char)}

/-- What ends a row of members: the closing bracket, behind one more comma where that is
tolerated. -/
inductive Closing (tolerant : Bool) (close : Char) : List Char → Prop where
  | plain : Closing tolerant close [close]
  | trailing {after : List Char} : tolerant = true → Blanks after →
      Closing tolerant close (',' :: (after ++ [close]))

/-- A closing bracket is neither a blank nor a comma, and no number goes on with it. -/
theorem close_spec (hclose : close = ']' ∨ close = '}') :
    isBlank close = false ∧ close ≠ ',' ∧ isNumberChar close = false := by
  rcases hclose with rfl | rfl <;> decide

/-- A row of members may have more blanks in front. -/
theorem MembersText.blanks_append {before u : List Char} {as : List α} (hbefore : Blanks before)
    (h : MembersText Text u as) : MembersText Text (before ++ u) as := by
  cases h with
  | last hfirst ha hafter =>
    simp only [← List.append_assoc]
    exact .last (hbefore.append hfirst) ha hafter
  | cons hfirst ha hafter hrest =>
    simp only [← List.append_assoc]
    exact .cons (hbefore.append hfirst) ha hafter hrest

/-- Behind blanks members do not begin with a closing bracket. -/
theorem MembersText.head?_skipBlanks_ne (hopens : Opens Text)
    (hclose : close = ']' ∨ close = '}') {u : List Char} {as : List α}
    (h : MembersText Text u as) (rest : List Char) :
    (skipBlanks (u ++ rest)).head? ≠ some close := by
  obtain ⟨before, t, a, tail, rfl, hbefore, ha⟩ :
      ∃ before t a tail, u = before ++ (t ++ tail) ∧ Blanks before ∧ Text t a := by
    cases h with
    | last hbefore ha _ => exact ⟨_, _, _, _, List.append_assoc .., hbefore, ha⟩
    | cons hbefore ha _ _ => exact ⟨_, _, _, _, by simp only [List.append_assoc]; rfl, hbefore, ha⟩
  obtain ⟨c, w, rfl, hblank, hsquare, hcurly⟩ := hopens _ _ ha
  have hskip : skipBlanks (before ++ (c :: w ++ tail) ++ rest) = c :: (w ++ (tail ++ rest)) := by
    simp only [List.append_assoc, List.cons_append]
    exact skipBlanks_append hbefore (ends_cons hblank _)
  rw [hskip, List.head?_cons]
  rintro ⟨⟩
  rcases hclose with h | h <;> contradiction

/-- The first member is read up to the comma or the bracket behind it. -/
theorem read_first (hreads : Reads Text bound member) (hopens : Opens Text)
    (hclose : close = ']' ∨ close = '}') {before s after : List Char} {a : α} {d : Char}
    (rest : List Char) (hbefore : Blanks before) (ha : Text s a) (hafter : Blanks after)
    (hd : d = close ∨ d = ',')
    (hbound : (before ++ (s ++ (after ++ d :: rest))).length < bound) :
    (skipBlanks (before ++ (s ++ (after ++ d :: rest)))).head? ≠ some close ∧
      member (skipBlanks (before ++ (s ++ (after ++ d :: rest)))) = .ok (a, after ++ d :: rest) ∧
      skipBlanks (after ++ d :: rest) = d :: rest := by
  obtain ⟨hblank, _, hnumber⟩ := close_spec hclose
  have hdblank : isBlank d = false := by
    rcases hd with rfl | rfl
    · exact hblank
    · decide
  have hdnumber : isNumberChar d = false := by
    rcases hd with rfl | rfl
    · exact hnumber
    · decide
  obtain ⟨c, w, rfl, hcblank, hsquare, hcurly⟩ := hopens _ _ ha
  have hskip : skipBlanks (before ++ (c :: w ++ (after ++ d :: rest))) =
      c :: w ++ (after ++ d :: rest) := skipBlanks_append hbefore (ends_cons hcblank _)
  rw [hskip]
  refine ⟨?_, ?_, skipBlanks_append hafter (ends_cons hdblank _)⟩
  · intro hhead
    obtain rfl : c = close := Option.some.inj hhead
    rcases hclose with h | h <;> contradiction
  · have hends : Ends isNumberChar (after ++ d :: rest) :=
      hafter.ends_append (ends_cons hdnumber _)
    refine hreads.complete blanks_nil ha hends (Nat.lt_of_le_of_lt ?_ hbound)
    simp

/-! ### Rounds of the loop -/

section rounds

variable {fuel : ℕ} {s after rest : List Char} {a : α}

/-- A member in front of the closing bracket is the last. -/
theorem readMembers_of_close (hhead : s.head? ≠ some close) (hread : member s = .ok (a, after))
    (hcomma : close ≠ ',') (hskip : skipBlanks after = close :: rest) :
    readMembers options close next member (fuel + 1) s = .ok ([a], rest) := by
  rw [readMembers, if_neg hhead]
  refine bind_eq_ok_iff.mpr ⟨_, hread, ?_⟩
  simp [hskip]

/-- A member in front of a trailing comma is the last if such commas are allowed. -/
theorem readMembers_of_trailing {behind : List Char} (hhead : s.head? ≠ some close)
    (hread : member s = .ok (a, after)) (hskip : skipBlanks after = ',' :: behind)
    (htolerant : options.allowTrailingCommas = true) (hlast : skipBlanks behind = close :: rest) :
    readMembers options close next member (fuel + 1) s = .ok ([a], rest) := by
  rw [readMembers, if_neg hhead]
  refine bind_eq_ok_iff.mpr ⟨_, hread, ?_⟩
  simp [hskip, hlast, htolerant]

/-- A member in front of a comma is followed by the members behind the comma. -/
theorem readMembers_of_comma {behind : List Char} {as : List α} (hhead : s.head? ≠ some close)
    (hread : member s = .ok (a, after)) (hskip : skipBlanks after = ',' :: behind)
    (hnext : (skipBlanks behind).head? ≠ some close)
    (hrest : readMembers options close next member fuel (skipBlanks behind) = .ok (as, rest)) :
    readMembers options close next member (fuel + 1) s = .ok (a :: as, rest) := by
  rw [readMembers, if_neg hhead]
  refine bind_eq_ok_iff.mpr ⟨_, hread, ?_⟩
  dsimp only
  simp only [hskip]
  rw [if_neg fun hclosed => hnext hclosed.2]
  exact bind_eq_ok_iff.mpr ⟨_, hrest, rfl⟩

end rounds

/-! ### The whole row -/

/-- A row of members that is written by the grammar is read, in front of any rest. -/
theorem readMembers_append (hreads : Reads Text bound member) (hopens : Opens Text)
    (hclose : close = ']' ∨ close = '}') {u t rest : List Char} {as : List α}
    (hmembers : MembersText Text u as) (ht : Closing options.allowTrailingCommas close t)
    (hbound : (u ++ (t ++ rest)).length < bound) {fuel : ℕ} (hfuel : u.length < fuel) :
    readMembers options close next member fuel (skipBlanks (u ++ (t ++ rest))) =
      .ok (as, rest) := by
  obtain ⟨hblank, hcomma, _⟩ := close_spec hclose
  -- By induction on the row of members: only behind the last one does the closing text begin.
  induction hmembers generalizing fuel with
  | @last before s after a hbefore ha hafter =>
    obtain ⟨fuel, rfl⟩ := Nat.exists_eq_add_one_of_ne_zero (Nat.ne_zero_of_lt hfuel)
    cases ht with
    | plain =>
      simp only [List.append_assoc, List.cons_append, List.nil_append] at hbound ⊢
      obtain ⟨hhead, hread, hskip⟩ :=
        read_first hreads hopens hclose _ hbefore ha hafter (.inl rfl) hbound
      exact readMembers_of_close hhead hread hcomma hskip
    | @trailing behind htolerant hbehind =>
      simp only [List.append_assoc, List.cons_append, List.nil_append] at hbound ⊢
      obtain ⟨hhead, hread, hskip⟩ :=
        read_first hreads hopens hclose _ hbefore ha hafter (.inr rfl) hbound
      have hlast : skipBlanks (behind ++ close :: rest) = close :: rest :=
        skipBlanks_append hbehind (ends_cons hblank _)
      exact readMembers_of_trailing hhead hread hskip htolerant hlast
  | @cons before s after others a as hbefore ha hafter hothers ih =>
    obtain ⟨fuel, rfl⟩ := Nat.exists_eq_add_one_of_ne_zero (Nat.ne_zero_of_lt hfuel)
    simp only [List.append_assoc, List.cons_append, List.length_append, List.length_cons]
      at hbound hfuel ⊢
    obtain ⟨hhead, hread, hskip⟩ :=
      read_first hreads hopens hclose (others ++ (t ++ rest)) hbefore ha hafter (.inr rfl)
        (by simp only [List.length_append, List.length_cons]; omega)
    have hrest : readMembers options close next member fuel
        (skipBlanks (others ++ (t ++ rest))) = .ok (as, rest) :=
      ih (by simp only [List.length_append]; omega) (by omega)
    -- The next member opens with no closing bracket, so the comma is no trailing one.
    have hnext := hothers.head?_skipBlanks_ne hopens hclose (t ++ rest)
    exact readMembers_of_comma hhead hread hskip hnext hrest

/-- What is read as a row of members is written by the grammar. -/
theorem membersText_of_readMembers (hreads : Reads Text bound member) {fuel : ℕ}
    {s rest : List Char} {as : List α}
    (h : readMembers options close next member fuel s = .ok (as, rest)) :
    ∃ u t, s = u ++ (t ++ rest) ∧ MembersText Text u as ∧
      Closing options.allowTrailingCommas close t := by
  induction fuel generalizing s as with
  | zero => cases h
  | succ fuel ih =>
    unfold readMembers at h
    split at h
    · cases h
    obtain ⟨⟨a, s1⟩, hread, h⟩ := bind_eq_ok_iff.mp h
    obtain ⟨before, t, hs, hbefore, ha⟩ := hreads.sound hread
    obtain ⟨after, hs1, hafter, -⟩ := exists_blanks s1
    dsimp only at h
    split at h
    · rename_i s2 hskip
      obtain ⟨behind, hs2, hbehind, -⟩ := exists_blanks s2
      split at h
      · rename_i hlast
        obtain ⟨htolerant, hhead⟩ := hlast
        obtain ⟨w, hw⟩ := List.head?_eq_some_iff.mp hhead
        rw [hw] at h
        cases h
        refine ⟨before ++ t ++ after, ',' :: (behind ++ [close]), ?_, .last hbefore ha hafter,
          .trailing htolerant hbehind⟩
        rw [hs, hs1, hskip, hs2, hw]
        simp
      · obtain ⟨⟨others, s3⟩, hrest, h⟩ := bind_eq_ok_iff.mp h
        cases h
        obtain ⟨u, v, hu, hothers, hv⟩ := ih hrest
        refine ⟨before ++ t ++ after ++ ',' :: (behind ++ u), v, ?_,
          .cons hbefore ha hafter (hothers.blanks_append hbehind), hv⟩
        rw [hs, hs1, hskip, hs2, hu]
        simp
    · rename_i c s2 _ hskip
      split at h
      · rename_i hc
        cases h
        refine ⟨before ++ t ++ after, [close], ?_, .last hbefore ha hafter, .plain⟩
        rw [hs, hs1, hskip, hc]
        simp
      · cases h
    · cases h

/-- Members up to their closing bracket are read if they are written by the grammar. -/
theorem readEnclosed_append (hreads : Reads Text bound member) (hopens : Opens Text)
    (hclose : close = ']' ∨ close = '}') {u : List Char} {as : List α}
    (h : EnclosedText Text options.allowTrailingCommas u as) (rest : List Char)
    (hbound : (u ++ close :: rest).length < bound) :
    readEnclosed options bound close next member (u ++ close :: rest) = .ok (as, rest) := by
  obtain ⟨hblank, -, -⟩ := close_spec hclose
  have hmembers {u t : List Char} {rest : List Char} (hu : MembersText Text u as)
      (ht : Closing options.allowTrailingCommas close t)
      (hbound : (u ++ (t ++ rest)).length < bound) :
      readEnclosed options bound close next member (u ++ (t ++ rest)) = .ok (as, rest) := by
    have hfuel : u.length < bound := by
      simp only [List.length_append] at hbound
      omega
    have hread : readMembers options close next member bound (skipBlanks (u ++ (t ++ rest))) =
        .ok (as, rest) := readMembers_append hreads hopens hclose hu ht hbound hfuel
    unfold readEnclosed
    rw [if_neg (hu.head?_skipBlanks_ne hopens hclose (t ++ rest))]
    exact hread
  cases h with
  | empty hu =>
    have hskip : skipBlanks (u ++ close :: rest) = close :: rest :=
      skipBlanks_append hu (ends_cons hblank _)
    simp [readEnclosed, hskip]
  | members hu => exact hmembers hu .plain hbound
  | @trailing s after _ htolerant hs hafter =>
    have hassoc : s ++ ',' :: after ++ close :: rest =
        s ++ (',' :: (after ++ [close]) ++ rest) := by simp
    rw [hassoc] at hbound ⊢
    exact hmembers hs (.trailing htolerant hafter) hbound

/-- What is read up to a closing bracket is written by the grammar. -/
theorem enclosedText_of_readEnclosed (hreads : Reads Text bound member) {s rest : List Char}
    {as : List α} (h : readEnclosed options bound close next member s = .ok (as, rest)) :
    ∃ u, s = u ++ close :: rest ∧ EnclosedText Text options.allowTrailingCommas u as := by
  obtain ⟨before, hs, hbefore, -⟩ := exists_blanks s
  unfold readEnclosed at h
  dsimp only at h
  split at h
  · rename_i hhead
    obtain ⟨w, hw⟩ := List.head?_eq_some_iff.mp hhead
    rw [hw] at h
    cases h
    exact ⟨before, hs.trans (by rw [hw]; rfl), .empty hbefore⟩
  · obtain ⟨u, t, hu, hmembers, ht⟩ := membersText_of_readMembers hreads h
    have hmembers := hmembers.blanks_append hbefore
    cases ht with
    | plain =>
      refine ⟨before ++ u, ?_, .members hmembers⟩
      rw [hs, hu]
      simp
    | @trailing after htolerant hafter =>
      refine ⟨before ++ u ++ ',' :: after, ?_, .trailing htolerant hmembers hafter⟩
      rw [hs, hu]
      simp

end members

/-! ## Fields and brackets -/

section brackets

variable {Item : List Char → Value → Prop} {options : ReadOptions} {bound : ℕ}
  {value : List Char → Except ReadFailure (Value × List Char)}

/-- A string begins with its quote. -/
theorem StringText.exists_cons {t : List Char} {text : String} (h : StringText t text) :
    ∃ u, t = '"' :: u := by
  cases h with
  | quoted _ => exact ⟨_, rfl⟩

theorem opens_fieldText : Opens (FieldText Item) := by
  rintro t member ⟨hkey, _, _, _⟩
  obtain ⟨u, rfl⟩ := hkey.exists_cons
  exact ⟨'"', _, rfl, by decide⟩

/-- A field is read by its grammar as soon as its value is. -/
theorem reads_readField (hreads : Reads Item bound value) :
    Reads (FieldText Item) bound (readField bound value) where
  sound {s rest member} h := by
    obtain ⟨before, hs, hbefore, -⟩ := exists_blanks s
    unfold readField at h
    split at h
    · rename_i s1 hskip
      obtain ⟨⟨key, s2⟩, hstring, h⟩ := bind_eq_ok_iff.mp h
      obtain ⟨t, hs1, hkey⟩ := stringText_of_readString hstring
      obtain ⟨middle, hs2, hmiddle, -⟩ := exists_blanks s2
      dsimp only at h
      split at h
      · rename_i s3 hcolon
        obtain ⟨⟨v, s4⟩, hvalue, h⟩ := bind_eq_ok_iff.mp h
        cases h
        obtain ⟨after, w, hs3, hafter, hv⟩ := hreads.sound hvalue
        refine ⟨before, '"' :: t ++ middle ++ ':' :: (after ++ w), ?_, hbefore,
          .field hkey hmiddle hafter hv⟩
        rw [hs, hskip, hs1, hs2, hcolon, hs3]
        simp
      · cases h
    · cases h
  complete {before t rest member} hbefore ht hrest hbound := by
    obtain @⟨s, middle, after, w, key, v, hkey, hmiddle, hafter, hv⟩ := ht
    obtain ⟨u, rfl⟩ := hkey.exists_cons
    simp only [List.append_assoc, List.cons_append, List.length_append, List.length_cons]
      at hbound ⊢
    have hskip : skipBlanks (before ++ '"' :: (u ++ (middle ++ ':' :: (after ++ (w ++ rest))))) =
        '"' :: (u ++ (middle ++ ':' :: (after ++ (w ++ rest)))) :=
      skipBlanks_append hbefore (ends_cons (by decide) _)
    have hcolon : skipBlanks (middle ++ ':' :: (after ++ (w ++ rest))) =
        ':' :: (after ++ (w ++ rest)) := skipBlanks_append hmiddle (ends_cons (by decide) _)
    have hvalue : value (after ++ (w ++ rest)) = .ok (v, rest) :=
      hreads.complete hafter hv hrest (by simp only [List.length_append]; omega)
    unfold readField
    simp only [hskip]
    refine bind_eq_ok_iff.mpr ⟨_, readString_append _ hkey _ (by omega), ?_⟩
    simp only [hcolon]
    exact bind_eq_ok_iff.mpr ⟨_, hvalue, rfl⟩

/-- The reader goes on behind an opening bracket and takes an array or an object, and it finds every
one that stands there. -/
structure ReadsBracketed (Text : List Char → Value → Prop) (bound : ℕ)
    (read : Char → List Char → Except ReadFailure (Value × List Char)) : Prop where
  sound {bracket : Char} {s rest : List Char} {v : Value} :
    bracket = '[' ∨ bracket = '{' → read bracket s = .ok (v, rest) →
      ∃ t, s = t ++ rest ∧ Text (bracket :: t) v
  complete {t rest : List Char} {v : Value} : Text t v → (t ++ rest).length < bound →
    ∃ bracket u, t = bracket :: u ∧ (bracket = '[' ∨ bracket = '{') ∧
      read bracket (u ++ rest) = .ok (v, rest)

/-- Arrays and objects are read by their grammar as soon as the values inside are. -/
theorem readsBracketed_readBracketed (hreads : Reads Item bound value) (hopens : Opens Item) :
    ReadsBracketed (BracketText Item options.allowTrailingCommas) bound
      (readBracketed options bound value) where
  sound {bracket s rest v} hbracket h := by
    unfold readBracketed at h
    rcases hbracket with rfl | rfl
    · rw [if_pos rfl] at h
      obtain ⟨⟨items, s1⟩, hitems, h⟩ := bind_eq_ok_iff.mp h
      cases h
      obtain ⟨u, rfl, hu⟩ := enclosedText_of_readEnclosed hreads hitems
      exact ⟨u ++ [']'], by simp, .array hu⟩
    · rw [if_neg (by decide)] at h
      obtain ⟨⟨members, s1⟩, hmembers, h⟩ := bind_eq_ok_iff.mp h
      cases h
      obtain ⟨u, rfl, hu⟩ := enclosedText_of_readEnclosed (reads_readField hreads) hmembers
      exact ⟨u ++ ['}'], by simp, .object hu (merges_ofMembers members)⟩
  complete {t rest v} ht hbound := by
    cases ht with
    | @array s items hs =>
      refine ⟨'[', s ++ [']'], rfl, .inl rfl, ?_⟩
      have hlength : (s ++ ']' :: rest).length < bound := by
        simp only [List.length_append, List.length_cons, List.length_nil] at hbound ⊢
        omega
      rw [List.append_assoc, List.singleton_append, readBracketed, if_pos rfl]
      exact bind_eq_ok_iff.mpr
        ⟨_, readEnclosed_append hreads hopens (.inl rfl) hs rest hlength, rfl⟩
    | @object s members fields hs hmerges =>
      obtain rfl := merges_iff.mp hmerges
      refine ⟨'{', s ++ ['}'], rfl, .inr rfl, ?_⟩
      have hlength : (s ++ '}' :: rest).length < bound := by
        simp only [List.length_append, List.length_cons, List.length_nil] at hbound ⊢
        omega
      rw [List.append_assoc, List.singleton_append, readBracketed, if_neg (by decide)]
      exact bind_eq_ok_iff.mpr ⟨_, readEnclosed_append (reads_readField hreads) opens_fieldText
        (.inr rfl) hs rest hlength, rfl⟩

end brackets

/-! ## Values -/

/-- A word is read where all of its letters stand. -/
theorem readWord_eq_ok_iff {word : String} {letters s rest : List Char} :
    readWord word letters s = .ok rest ↔ s = letters ++ rest := by
  induction letters generalizing s with
  | nil => simp [readWord, eq_comm]
  | cons w letters ih =>
    cases s with
    | nil => simp [readWord]
    | cons c s =>
      unfold readWord
      by_cases hc : c = w
      · simp [hc, ih]
      · simp [hc]

/-- A constant is read where its word stands. -/
theorem readConstant_eq_ok_iff {word : String} {constant v : Value} {s rest : List Char} :
    readConstant word constant s = .ok (v, rest) ↔ v = constant ∧ s = word.toList ++ rest := by
  unfold readConstant
  simp only [bind_eq_ok_iff, readWord_eq_ok_iff, Except.ok.injEq, Prod.mk.injEq]
  constructor
  · rintro ⟨a, hs, rfl, rfl⟩
    exact ⟨rfl, hs⟩
  · rintro ⟨rfl, hs⟩
    exact ⟨_, hs, rfl, rfl⟩

section values

variable {Text : List Char → Value → Prop} {bound : ℕ}
  {bracketed : Char → List Char → Except ReadFailure (Value × List Char)}

theorem opens_scalarText : Opens ScalarText := by
  intro t v h
  cases h with
  | null => exact ⟨_, _, rfl, by decide⟩
  | true => exact ⟨_, _, rfl, by decide⟩
  | false => exact ⟨_, _, rfl, by decide⟩
  | number hnumber _ =>
    obtain ⟨c, u, rfl, hc⟩ := exists_cons_of_numberText hnumber
    exact ⟨c, u, rfl, by simp [isBlank, ne_of_number hc]⟩
  | string hstring =>
    obtain ⟨u, rfl⟩ := hstring.exists_cons
    exact ⟨_, _, rfl, by decide⟩

/-- The character that opens a value decides how it is read. -/
theorem readValueWith_append {before : List Char} (hbefore : Blanks before) {c : Char}
    (hc : isBlank c = false) (s : List Char) :
    readValueWith bound bracketed (before ++ c :: s) = readValueWith bound bracketed (c :: s) := by
  have hskip : skipBlanks (before ++ c :: s) = skipBlanks (c :: s) := by
    rw [skipBlanks_append hbefore (ends_cons hc s)]
    exact (skipBlanks_append blanks_nil (ends_cons hc s)).symm
  unfold readValueWith
  rw [hskip]

/-- A scalar is read in front of anything that cannot continue it. -/
theorem readValueWith_scalar {t rest : List Char} {v : Value} (h : ScalarText t v)
    (hrest : Ends isNumberChar rest) (hbound : (t ++ rest).length < bound) :
    readValueWith bound bracketed (t ++ rest) = .ok (v, rest) := by
  obtain ⟨c, u, rfl, hblank, -, -⟩ := opens_scalarText t v h
  have hskip : skipBlanks (c :: (u ++ rest)) = c :: (u ++ rest) :=
    skipBlanks_append blanks_nil (ends_cons hblank _)
  unfold readValueWith
  rw [List.cons_append, hskip]
  dsimp only
  generalize hwhole : c :: u = t at h
  cases h with
  | null =>
    obtain ⟨rfl, rfl⟩ := List.cons.inj hwhole
    exact readConstant_eq_ok_iff.mpr ⟨rfl, rfl⟩
  | true =>
    obtain ⟨rfl, rfl⟩ := List.cons.inj hwhole
    exact readConstant_eq_ok_iff.mpr ⟨rfl, rfl⟩
  | false =>
    obtain ⟨rfl, rfl⟩ := List.cons.inj hwhole
    exact readConstant_eq_ok_iff.mpr ⟨rfl, rfl⟩
  | number hnumber hmeaning =>
    obtain ⟨c', u', ht, hc⟩ := exists_cons_of_numberText hnumber
    obtain ⟨rfl, rfl⟩ := List.cons.inj (hwhole.trans ht)
    have hread := readNumber_append hnumber hmeaning hrest
    rw [← hwhole] at hread
    simpa [ne_of_number hc, hc] using hread
  | string hstring =>
    obtain ⟨u', ht⟩ := hstring.exists_cons
    obtain ⟨rfl, rfl⟩ := List.cons.inj (hwhole.trans ht)
    rw [← hwhole] at hstring
    rw [if_neg (by decide), if_pos rfl]
    have hlength : u.length < bound := by
      simp only [List.length_append, List.length_cons] at hbound
      omega
    exact bind_eq_ok_iff.mpr ⟨_, readString_append _ hstring rest hlength, rfl⟩

/-- An array or object is read behind blanks, in front of any rest. -/
theorem readValueWith_bracketed (h : ReadsBracketed Text bound bracketed) {t rest : List Char}
    {v : Value} (ht : Text t v) (hbound : (t ++ rest).length < bound) {before : List Char}
    (hbefore : Blanks before) :
    readValueWith bound bracketed (before ++ (t ++ rest)) = .ok (v, rest) := by
  obtain ⟨bracket, u, rfl, hbracket, hread⟩ := h.complete ht hbound
  have hblank : isBlank bracket = Bool.false := by rcases hbracket with rfl | rfl <;> decide
  have hskip : skipBlanks (before ++ bracket :: (u ++ rest)) = bracket :: (u ++ rest) :=
    skipBlanks_append hbefore (ends_cons hblank _)
  rw [List.cons_append, readValueWith, hskip]
  exact (if_pos hbracket.symm).trans hread

/-- Whatever is read behind the blanks is a scalar or has brackets. -/
theorem text_of_readValueWith (h : ReadsBracketed Text bound bracketed) {s rest : List Char}
    {v : Value} (hread : readValueWith bound bracketed s = .ok (v, rest)) :
    ∃ t, skipBlanks s = t ++ rest ∧ (ScalarText t v ∨ Text t v) := by
  unfold readValueWith at hread
  split at hread
  · cases hread
  rename_i c s1 hskip
  rw [hskip]
  -- One case for each character that may open a value, in the order in which they are tried.
  split at hread
  · rename_i hbracket
    obtain ⟨t, rfl, ht⟩ := h.sound hbracket.symm hread
    exact ⟨c :: t, rfl, .inr ht⟩
  split at hread
  · rename_i hquote
    obtain ⟨⟨text, s2⟩, hstring, hread⟩ := bind_eq_ok_iff.mp hread
    cases hread
    obtain ⟨t, rfl, ht⟩ := stringText_of_readString hstring
    exact ⟨c :: t, rfl, .inl (.string (hquote ▸ ht))⟩
  split at hread
  · obtain ⟨rfl, hword⟩ := readConstant_eq_ok_iff.mp hread
    exact ⟨_, hword, .inl .true⟩
  split at hread
  · obtain ⟨rfl, hword⟩ := readConstant_eq_ok_iff.mp hread
    exact ⟨_, hword, .inl .false⟩
  split at hread
  · obtain ⟨rfl, hword⟩ := readConstant_eq_ok_iff.mp hread
    exact ⟨_, hword, .inl .null⟩
  split at hread
  · obtain ⟨t, n, ht, hnumber, hmeaning⟩ := numberText_of_readNumber hread
    exact ⟨t, ht, .inl (.number hnumber hmeaning)⟩
  · cases hread

/-- Values are read by their grammar as soon as arrays and objects are. -/
theorem reads_readValueWith (h : ReadsBracketed Text bound bracketed) :
    Reads (fun t v => ScalarText t v ∨ Text t v) bound (readValueWith bound bracketed) where
  sound {s rest v} hread := by
    obtain ⟨before, hs, hbefore, -⟩ := exists_blanks s
    obtain ⟨t, hskip, ht⟩ := text_of_readValueWith h hread
    exact ⟨before, t, hs.trans (by rw [hskip]), hbefore, ht⟩
  complete {before t rest v} hbefore ht hrest hbound := by
    have hbound : (t ++ rest).length < bound := by
      simp only [List.length_append] at hbound ⊢
      omega
    rcases ht with hscalar | hbracketed
    · have hread : readValueWith bound bracketed (t ++ rest) = .ok (v, rest) :=
        readValueWith_scalar hscalar hrest hbound
      obtain ⟨c, u, rfl, hblank, -, -⟩ := opens_scalarText t v hscalar
      exact (readValueWith_append hbefore hblank _).trans hread
    · exact readValueWith_bracketed h hbracketed hbound hbefore

end values

theorem opens_valueText (tolerant : Bool) (depth : ℕ) : Opens (ValueText tolerant depth) := by
  intro t v h
  cases depth with
  | zero => exact opens_scalarText t v h
  | succ depth =>
    rcases h with hscalar | hbracket
    · exact opens_scalarText t v hscalar
    · cases hbracket with
      | array _ => exact ⟨_, _, rfl, by decide⟩
      | object _ _ => exact ⟨_, _, rfl, by decide⟩

/-- Values are read by their grammar, to any depth. -/
theorem reads_readValue (options : ReadOptions) (bound depth : ℕ) :
    Reads (ValueText options.allowTrailingCommas depth) bound (readValue options bound depth) := by
  induction depth with
  | zero =>
    -- Without room for brackets the reader refuses them, and the grammar has none.
    have hnone : ReadsBracketed (fun _ _ => False) bound fun bracket s =>
        .error ⟨.tooDeep options.maxDepth.toNat, bracket :: s⟩ :=
      { sound := fun _ h => by cases h
        complete := fun h => h.elim }
    have hreads := reads_readValueWith hnone
    simp only [or_false] at hreads
    exact hreads
  | succ depth ih =>
    exact reads_readValueWith (readsBracketed_readBracketed ih (opens_valueText _ depth))

/-! ## Documents -/

/-- A text is read as a value exactly if it is a document of that value. -/
theorem readText_eq_ok_iff {options : ReadOptions} {text : List Char} {v : Value} :
    readText options text = .ok v ↔
      DocumentText options.allowTrailingCommas options.maxDepth.toNat text v := by
  have hreads := reads_readValue options (text.length + 1) options.maxDepth.toNat
  unfold readText
  constructor
  · intro h
    obtain ⟨⟨w, s⟩, hvalue, h⟩ := bind_eq_ok_iff.mp h
    obtain ⟨before, t, htext, hbefore, ht⟩ := hreads.sound hvalue
    obtain ⟨after, hs, hafter, -⟩ := exists_blanks s
    dsimp only at h
    split at h
    · rename_i hskip
      cases h
      rw [hskip, List.append_nil] at hs
      rw [htext, hs, ← List.append_assoc]
      exact .document hbefore ht hafter
    · cases h
  · rintro @⟨before, t, after, _, hbefore, ht, hafter⟩
    have hends : Ends isNumberChar after := by
      simpa using hafter.ends_append (ends_nil isNumberChar)
    have hskip : skipBlanks after = [] := by
      simpa using skipBlanks_append hafter (ends_nil isBlank)
    rw [List.append_assoc] at hreads ⊢
    refine bind_eq_ok_iff.mpr ⟨_, hreads.complete hbefore ht hends (Nat.lt_succ_self _), ?_⟩
    simp [hskip]

/-- A position is added to failures only. -/
theorem readDocument_eq_ok_iff_readText {options : ReadOptions} {text : String} {v : Value} :
    readDocument options text = .ok v ↔ readText options text.toList = .ok v := by
  unfold readDocument
  cases readText options text.toList <;> simp [Except.mapError]

/-- A document is read exactly if its text is one of the grammar, as what the grammar says it
means. -/
theorem readDocument_eq_ok_iff (options : ReadOptions) (text : String) (v : Value) :
    readDocument options text = .ok v ↔
      DocumentText options.allowTrailingCommas options.maxDepth.toNat text.toList v :=
  readDocument_eq_ok_iff_readText.trans readText_eq_ok_iff

end ContractDraft
