import ContractDraft.Proofs.Text.LetterCase
import ContractDraft.Text.CodeRanges
import ContractDraft.Text.Numeric

/-!
# Capital letters

The Unicode property Uppercase, as of Unicode 17, and what lower-casing leaves of it. The small form
of a character begins with a capital letter only if this is the character itself
(`isUppercase_firstSmall_iff`), with a number only if the character is a number
(`isNumeric_firstSmall`), and with an ASCII digit only if it is one (`isDigit_firstSmall`).

That small forms have no small forms of their own, and where they lie, is checked run by run, with
whole ranges at a time.
-/

namespace ContractDraft.Text

/-- Capital letters without a small form, such as those of mathematical alphabets, in ascending
ranges. -/
def capitalOnlyRanges : CodeRanges := [
  (0x3D2, 0x3D4), (0x2102, 0x2102), (0x2107, 0x2107), (0x210B, 0x210D), (0x2110, 0x2112),
  (0x2115, 0x2115), (0x2119, 0x211D), (0x2124, 0x2124), (0x2128, 0x2128), (0x212C, 0x212D),
  (0x2130, 0x2131), (0x2133, 0x2133), (0x213E, 0x213F), (0x2145, 0x2145), (0x1D400, 0x1D419),
  (0x1D434, 0x1D44D), (0x1D468, 0x1D481), (0x1D49C, 0x1D49C), (0x1D49E, 0x1D49F),
  (0x1D4A2, 0x1D4A2), (0x1D4A5, 0x1D4A6), (0x1D4A9, 0x1D4AC), (0x1D4AE, 0x1D4B5),
  (0x1D4D0, 0x1D4E9), (0x1D504, 0x1D505), (0x1D507, 0x1D50A), (0x1D50D, 0x1D514),
  (0x1D516, 0x1D51C), (0x1D538, 0x1D539), (0x1D53B, 0x1D53E), (0x1D540, 0x1D544),
  (0x1D546, 0x1D546), (0x1D54A, 0x1D550), (0x1D56C, 0x1D585), (0x1D5A0, 0x1D5B9),
  (0x1D5D4, 0x1D5ED), (0x1D608, 0x1D621), (0x1D63C, 0x1D655), (0x1D670, 0x1D689),
  (0x1D6A8, 0x1D6C0), (0x1D6E2, 0x1D6FA), (0x1D71C, 0x1D734), (0x1D756, 0x1D76E),
  (0x1D790, 0x1D7A8), (0x1D7CA, 0x1D7CA), (0x1F130, 0x1F149), (0x1F150, 0x1F169),
  (0x1F170, 0x1F189)]

/-- Whether a character is a capital letter. Those with a small form are what lower-casing changes
and upper-casing does not; both change the letters in title case. -/
def isUppercase (c : Char) : Bool :=
  capitalOnlyRanges.contains c.toNat || (decide (toLower c ≠ [c]) && decide (toUpper c = [c]))

/-! ## Ranges

The comparisons are Boolean, so that a check of long tables is a computation with numbers. -/

/-- Whether none of the ranges has a code point from `low` to `high`. -/
def CodeRanges.misses : CodeRanges → ℕ → ℕ → Bool
  | [], _, _ => true
  | (first, last) :: rest, low, high =>
    high.blt first || (last.blt low && misses rest low high)

/-- Whether one of the ranges has all code points from `low` to `high`. -/
def CodeRanges.covers : CodeRanges → ℕ → ℕ → Bool
  | [], _, _ => false
  | (first, last) :: rest, low, high =>
    first.ble low && (high.ble last || covers rest low high)

variable {ranges : CodeRanges} {low high n : ℕ}

theorem CodeRanges.contains_of_misses (h : ranges.misses low high = true) (hlow : low ≤ n)
    (hhigh : n ≤ high) : ranges.contains n = false := by
  induction ranges with
  | nil => rfl
  | cons range rest ih =>
    simp only [misses, Bool.or_eq_true, Bool.and_eq_true, Nat.blt_eq] at h
    rw [contains]
    split
    · rfl
    · rcases h with hbefore | ⟨hbehind, hrest⟩
      · omega
      · rw [ih hrest, Bool.or_false, decide_eq_false_iff_not]
        omega

theorem CodeRanges.contains_of_covers (h : ranges.covers low high = true) (hlow : low ≤ n)
    (hhigh : n ≤ high) : ranges.contains n = true := by
  induction ranges with
  | nil => cases h
  | cons range rest ih =>
    simp only [covers, Bool.and_eq_true, Bool.or_eq_true, Nat.ble_eq] at h
    obtain ⟨hfirst, hlast⟩ := h
    rw [contains, if_neg (by omega), Bool.or_eq_true, decide_eq_true_eq]
    rcases hlast with hlast | hrest
    · exact .inl (by omega)
    · exact .inr (ih hrest)

/-- No ASCII character is a capital letter without a small form. -/
theorem isUppercase_of_ascii {c : Char} (hc : c.toNat < 128) (hsmall : toLower c = [c]) :
    isUppercase c = false := by
  have hmisses : capitalOnlyRanges.misses 0 127 = true := rfl
  rw [isUppercase, CodeRanges.contains_of_misses hmisses (Nat.zero_le _) (by omega)]
  simp [hsmall]

/-! ## Runs -/

namespace CaseRun

/-- Whether a run moves a code point. -/
def Moves (run : CaseRun) (n : ℕ) : Prop :=
  run.first ≤ n ∧ n ≤ run.last ∧ (n - run.first) % run.step = 0

/-- The image of the last code point of a run. -/
def lastImage (run : CaseRun) : ℕ := run.image + (run.last - run.first)

/-- Whether a run moves every other code point and no image of another run, as those are the code
points between. -/
def alternates (run other : CaseRun) : Bool :=
  run.step.beq 2 && (other.step.beq 2 || other.first.beq other.last) &&
    ((other.image + run.first) % 2).beq 1

/-- Whether none of some ascending runs moves an image of another run: they lie in front of its
images, alternate with them, or lie behind. The order lets the search stop early. -/
def missedBy (other : CaseRun) : List CaseRun → Bool
  | [] => true
  | run :: rest =>
    bif run.last.blt other.image then other.missedBy rest
    else other.lastImage.blt run.first || (run.alternates other && other.missedBy rest)

/-- Whether all characters of a run are numbers, and their images as well, or none of either. -/
def keepsNumbers (run : CaseRun) : Bool :=
  (numericRanges.misses run.first run.last && numericRanges.misses run.image run.lastImage) ||
    (numericRanges.covers run.first run.last && numericRanges.covers run.image run.lastImage)

/-- Whether all images of a run are characters, behind the ASCII digits like those that the run
moves, and none is a capital letter without a small form or the one with a small form of two
characters. -/
def isOrdinary (run : CaseRun) : Bool :=
  Nat.blt '9'.toNat run.first && Nat.blt '9'.toNat run.image &&
    (run.lastImage.blt 0xD800 || (Nat.blt 0xDFFF run.image && run.lastImage.blt 0x110000)) &&
    capitalOnlyRanges.misses run.image run.lastImage &&
    (run.lastImage.blt 'İ'.toNat || Nat.blt 'İ'.toNat run.image)

theorem not_moves_of_alternates {run other : CaseRun} (h : run.alternates other = true)
    (hn : other.Moves n) : ¬ run.Moves (other.image + (n - other.first)) := by
  unfold Moves at *
  unfold alternates at h
  simp only [Bool.or_eq_true, Bool.and_eq_true, Nat.beq_eq] at h
  obtain ⟨hfirst, hlast, hstep⟩ := hn
  obtain ⟨⟨htwo, hother⟩, hodd⟩ := h
  rintro ⟨hfirst', hlast', hstep'⟩
  -- An even distance on both sides contradicts the odd one between the two runs.
  have heven : (n - other.first) % 2 = 0 := by
    rcases hother with hother | hsingle
    · rwa [hother] at hstep
    · omega
  rw [htwo] at hstep'
  omega

theorem not_moves_of_missedBy {other : CaseRun} {runs : List CaseRun}
    (hascending : runs.Pairwise fun a b => a.first ≤ b.first) (h : other.missedBy runs = true)
    (hn : other.Moves n) : ∀ run ∈ runs, ¬ run.Moves (other.image + (n - other.first)) := by
  induction runs with
  | nil => simp
  | cons run rest ih =>
    obtain ⟨hbehind, hrest⟩ := List.pairwise_cons.mp hascending
    rw [List.forall_mem_cons]
    rw [missedBy] at h
    cases hfront : run.last.blt other.image with
    | true =>
      rw [hfront, cond_true] at h
      refine ⟨fun hmoves => ?_, ih hrest h⟩
      have hlast := hmoves.2.1
      have hbefore := Nat.blt_eq.mp hfront
      omega
    | false =>
      rw [hfront, cond_false, Bool.or_eq_true, Bool.and_eq_true, Nat.blt_eq] at h
      rcases h with hback | ⟨halternates, hmissed⟩
      · -- From here on all runs lie behind the images.
        have himage : other.image + (n - other.first) ≤ other.lastImage := by
          have hlast := hn.2.1
          unfold lastImage
          omega
        have hapart {r : CaseRun} (hr : run.first ≤ r.first) :
            ¬ r.Moves (other.image + (n - other.first)) := fun hmoves => by
          have hfirst := hmoves.1
          omega
        exact ⟨hapart (Nat.le_refl _), fun r hr => hapart (hbehind r hr)⟩
      · exact ⟨not_moves_of_alternates halternates hn, ih hrest hmissed⟩

end CaseRun

/-- A code point is moved along one of the runs, or it is its own image. -/
theorem mapByRuns_cases (runs : List CaseRun) (n : ℕ) :
    mapByRuns runs n = n ∨
      ∃ run ∈ runs, run.Moves n ∧ mapByRuns runs n = run.image + (n - run.first) := by
  induction runs with
  | nil => exact .inl rfl
  | cons run rest ih =>
    rw [mapByRuns]
    split
    · rename_i hmoves
      exact .inr ⟨run, List.mem_cons_self .., hmoves, rfl⟩
    · rcases ih with hsame | ⟨other, hother, hmoves, himage⟩
      · exact .inl hsame
      · exact .inr ⟨other, List.mem_cons_of_mem _ hother, hmoves, himage⟩

theorem lowerRuns_ascending : lowerRuns.Pairwise fun a b => a.first ≤ b.first := by
  have hchain : lowerRuns.IsChain fun a b => a.first ≤ b.first := by decide +kernel
  have : IsTrans CaseRun fun a b => a.first ≤ b.first := ⟨fun _ _ _ => Nat.le_trans⟩
  exact List.isChain_iff_pairwise.mp hchain

theorem lowerRuns_missedBy : (lowerRuns.all fun run => run.missedBy lowerRuns) = true := by
  decide +kernel

theorem lowerRuns_keepsNumbers : lowerRuns.all CaseRun.keepsNumbers = true := by
  decide +kernel

theorem lowerRuns_isOrdinary : lowerRuns.all CaseRun.isOrdinary = true := by
  decide +kernel

/-- What has been moved to a small form is not moved again. -/
theorem not_moves_image {run other : CaseRun} (hrun : run ∈ lowerRuns) (hother : other ∈ lowerRuns)
    (hn : other.Moves n) : ¬ run.Moves (other.image + (n - other.first)) :=
  have hmissed := List.all_eq_true.mp lowerRuns_missedBy other hother
  CaseRun.not_moves_of_missedBy lowerRuns_ascending hmissed hn run hrun

/-! ## Small forms -/

/-- The first character of the small form of a character. -/
def firstSmall (c : Char) : Char := (toLower c).headD c

/-- A character is its own small form, or it is the one with a small form of two characters, or it is
moved along a run. -/
theorem toLower_cases (c : Char) :
    toLower c = [c] ∨ c = 'İ' ∨ ∃ run ∈ lowerRuns, run.Moves c.toNat ∧
      ∃ d : Char, toLower c = [d] ∧ d.toNat = run.image + (c.toNat - run.first) := by
  by_cases hdotted : c.toNat = 0x130
  · exact .inr (.inl (Char.toNat_inj.mp hdotted))
  · rw [toLower_of_ne hdotted, small]
    rcases mapByRuns_cases lowerRuns c.toNat with hsame | ⟨run, hrun, hmoves, himage⟩
    · rw [hsame, Char.ofNat_toNat]
      exact .inl rfl
    · refine .inr (.inr ⟨run, hrun, hmoves, _, rfl, ?_⟩)
      have hordinary := List.all_eq_true.mp lowerRuns_isOrdinary run hrun
      simp only [CaseRun.isOrdinary, CaseRun.lastImage, Bool.and_eq_true, Bool.or_eq_true,
        Nat.blt_eq] at hordinary
      unfold CaseRun.Moves at hmoves
      rw [himage, toNat_ofNat]
      unfold Nat.isValidChar
      omega

theorem head?_toLower (c : Char) : (toLower c).head? = some (firstSmall c) := by
  rcases toLower_cases c with hsame | rfl | ⟨_, _, _, d, hd, _⟩
  · rw [firstSmall, hsame]
    rfl
  · rfl
  · rw [firstSmall, hd]
    rfl

/-- Lower-casing neither makes nor loses numbers. -/
theorem isNumeric_firstSmall (c : Char) : isNumeric (firstSmall c) = isNumeric c := by
  rcases toLower_cases c with hsame | rfl | ⟨run, hrun, hmoves, d, hd, himage⟩
  · rw [firstSmall, hsame]
    rfl
  · decide +kernel
  · obtain ⟨hfirst, hlast, -⟩ := hmoves
    have hlow : run.image ≤ d.toNat := by omega
    have hhigh : d.toNat ≤ run.lastImage := by
      unfold CaseRun.lastImage
      omega
    have hkeeps := List.all_eq_true.mp lowerRuns_keepsNumbers run hrun
    simp only [CaseRun.keepsNumbers, Bool.or_eq_true, Bool.and_eq_true] at hkeeps
    have hsmall : firstSmall c = d := by rw [firstSmall, hd, List.headD_cons]
    rw [hsmall, isNumeric, isNumeric]
    rcases hkeeps with ⟨hsource, htarget⟩ | ⟨hsource, htarget⟩
    · rw [CodeRanges.contains_of_misses htarget hlow hhigh,
        CodeRanges.contains_of_misses hsource hfirst hlast]
    · rw [CodeRanges.contains_of_covers htarget hlow hhigh,
        CodeRanges.contains_of_covers hsource hfirst hlast]

/-- Lower-casing neither makes nor loses ASCII digits. -/
theorem isDigit_firstSmall (c : Char) : (firstSmall c).isDigit = c.isDigit := by
  rcases toLower_cases c with hsame | rfl | ⟨run, hrun, hmoves, d, hd, himage⟩
  · rw [firstSmall, hsame]
    rfl
  · rfl
  · have hordinary := List.all_eq_true.mp lowerRuns_isOrdinary run hrun
    simp only [CaseRun.isOrdinary, Bool.and_eq_true, Nat.blt_eq] at hordinary
    unfold CaseRun.Moves at hmoves
    have hsmall : firstSmall c = d := by rw [firstSmall, hd, List.headD_cons]
    rw [hsmall, Bool.eq_iff_iff, Char.isDigit_iff_toNat, Char.isDigit_iff_toNat]
    exact iff_of_false (by omega) (by omega)

/-- A small form begins with a capital letter only where lower-casing leaves this letter alone. -/
theorem isUppercase_firstSmall_iff (c : Char) :
    isUppercase (firstSmall c) = true ↔ isUppercase c = true ∧ toLower c = [c] := by
  rcases toLower_cases c with hsame | rfl | ⟨run, hrun, hmoves, d, hd, himage⟩
  · have hsmall : firstSmall c = c := by rw [firstSmall, hsame, List.headD_cons]
    rw [hsmall, and_iff_left hsame]
  · decide +kernel
  · have hsmall : firstSmall c = d := by rw [firstSmall, hd, List.headD_cons]
    have hordinary := List.all_eq_true.mp lowerRuns_isOrdinary run hrun
    simp only [CaseRun.isOrdinary, CaseRun.lastImage, Bool.and_eq_true, Bool.or_eq_true,
      Nat.blt_eq] at hordinary
    obtain ⟨⟨_, hcapitals⟩, hdotted⟩ := hordinary
    have hlow : run.image ≤ d.toNat := by omega
    have hhigh : d.toNat ≤ run.image + (run.last - run.first) := by
      unfold CaseRun.Moves at hmoves
      omega
    -- The image is no capital letter, because it is its own small form.
    have hfixed : toLower d = [d] := by
      rcases toLower_cases d with hsame | rfl | ⟨other, hother, hagain, _⟩
      · exact hsame
      · omega
      · rw [himage] at hagain
        exact absurd hagain (not_moves_image hother hrun hmoves)
    have himageCapital : isUppercase d = false := by
      rw [isUppercase, CodeRanges.contains_of_misses hcapitals hlow hhigh]
      simp [hfixed]
    have hchanged : toLower c ≠ [c] := by
      intro hsame
      obtain rfl : c = d := by simpa [hd] using hsame.symm
      have hagain := not_moves_image hrun hrun hmoves
      rw [← himage] at hagain
      exact hagain hmoves
    rw [hsmall, himageCapital]
    exact iff_of_false Bool.false_ne_true fun h => hchanged h.2

end ContractDraft.Text
