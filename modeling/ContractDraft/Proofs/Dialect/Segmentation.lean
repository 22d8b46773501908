import ContractDraft.Dialect.Template
import ContractDraft.Proofs.Json.Numeral

/-!
# Templates in pieces

Which parts of a template are placeholders depends on the template and the known names alone. The
rules for a cut of a template into its pieces (`Segmentation`) leave exactly one cut, the one that
`segments` makes, and filling puts the values in the places of that cut
(`Template.fill_eq_flatMap`). So whatever a value is made of, it is never taken for a part of the
template.
-/

namespace ContractDraft

/-- A piece of a template. -/
inductive Segment where
  | verbatim (c : Char)
  | placeholder (name : String)
  deriving DecidableEq, Repr

/-- The characters of a template that a piece is. -/
def Segment.source : Segment → List Char
  | .verbatim c => [c]
  | .placeholder name => '{' :: (name.toList ++ ['}'])

namespace Template

/-! ## The pieces of a template -/

/-- The pieces of a template, of which `skip` characters belong to a placeholder already found. -/
def segmentsAfter (names : List String) : ℕ → List Char → List Segment
  | _, [] => []
  | skip + 1, _ :: s => segmentsAfter names skip s
  | 0, c :: s =>
    if c = '{' then
      match placeholder? names s with
      | some name => .placeholder name :: segmentsAfter names (name.length + 1) s
      | none => .verbatim c :: segmentsAfter names 0 s
    else .verbatim c :: segmentsAfter names 0 s

/-- The pieces of a template. -/
def segments (names : List String) (template : List Char) : List Segment :=
  segmentsAfter names 0 template

/-- The text of one piece. -/
def fillSegment (values : List (String × String)) : Segment → List Char
  | .verbatim c => [c]
  | .placeholder name => ((values.lookup name).getD "").toList

theorem fillAfter_eq_flatMap (values : List (String × String)) (skip : ℕ) (s : List Char) :
    fillAfter values skip s =
      (segmentsAfter (values.map Prod.fst) skip s).flatMap (fillSegment values) := by
  induction s generalizing skip with
  | nil => cases skip <;> rfl
  | cons c s ih =>
    cases skip with
    | succ skip => exact ih skip
    | zero =>
      rw [fillAfter, segmentsAfter]
      by_cases hbrace : c = '{'
      · rw [if_pos hbrace, if_pos hbrace]
        cases placeholder? (values.map Prod.fst) s with
        | some name =>
          dsimp only
          rw [ih, List.flatMap_cons, fillSegment]
        | none =>
          dsimp only
          rw [ih, List.flatMap_cons, fillSegment, List.singleton_append]
      · rw [if_neg hbrace, if_neg hbrace, ih, List.flatMap_cons, fillSegment,
          List.singleton_append]

/-- A filled template is its pieces with the values in their places. -/
theorem fill_eq_flatMap (values : List (String × String)) (template : List Char) :
    fill values template =
      (segments (values.map Prod.fst) template).flatMap (fillSegment values) :=
  fillAfter_eq_flatMap values 0 template

/-! ## The rules of the cut -/

/-- A placeholder is known if its name is listed. The first closing brace ends a name, so a name with
one in it is never found. -/
def Known (names : List String) (name : String) : Prop :=
  name ∈ names ∧ '}' ∉ name.toList

/-- The cuts of a template into pieces: a placeholder is taken wherever a known one begins, and every
other character stands for itself, an opening brace like any other. -/
inductive Segmentation (names : List String) : List Char → List Segment → Prop where
  | nil : Segmentation names [] []
  | placeholder {name : String} {s : List Char} {pieces : List Segment} : Known names name →
      Segmentation names s pieces →
      Segmentation names ((Segment.placeholder name).source ++ s) (.placeholder name :: pieces)
  | verbatim {c : Char} {s : List Char} {pieces : List Segment} :
      (∀ name, Known names name → ¬ (Segment.placeholder name).source <+: c :: s) →
      Segmentation names s pieces → Segmentation names (c :: s) (.verbatim c :: pieces)

section

variable {names : List String} {name : String} {s : List Char}

theorem placeholder?_append (h : Known names name) (rest : List Char) :
    placeholder? names (name.toList ++ '}' :: rest) = some name := by
  have hname : ∀ c ∈ name.toList, decide (c ≠ '}') = true := fun c hc =>
    decide_eq_true fun heq => h.2 (heq ▸ hc)
  have hends : Ends (fun c => decide (c ≠ '}')) ('}' :: rest) := ends_cons (by decide) rest
  obtain ⟨htake, hdrop⟩ := span_append hname hends
  unfold placeholder?
  rw [htake, hdrop, String.ofList_toList]
  exact if_pos h.1

theorem placeholder?_eq_some_iff :
    placeholder? names s = some name ↔
      Known names name ∧ ∃ rest, s = name.toList ++ '}' :: rest := by
  refine ⟨fun h => ?_, fun ⟨hknown, rest, hs⟩ => hs ▸ placeholder?_append hknown rest⟩
  have hsplit := List.takeWhile_append_dropWhile (p := fun c => decide (c ≠ '}')) (l := s)
  have hfront : '}' ∉ s.takeWhile fun c => decide (c ≠ '}') := fun hmem => by
    simpa using List.mem_takeWhile_imp hmem
  have hbehind := ends_dropWhile (fun c => decide (c ≠ '}')) s
  unfold placeholder? at h
  dsimp only at h
  generalize s.takeWhile (fun c => decide (c ≠ '}')) = front at *
  generalize s.dropWhile (fun c => decide (c ≠ '}')) = behind at *
  cases behind with
  | nil => cases h
  | cons c rest =>
    have hc : c = '}' := by simpa using hbehind c rfl
    rw [List.isEmpty_cons, if_neg (by decide)] at h
    split at h
    · rename_i hlisted
      obtain rfl := Option.some.inj h
      rw [Known, String.toList_ofList]
      exact ⟨⟨hlisted, hfront⟩, rest, by rw [← hsplit, hc]⟩
    · cases h

theorem placeholder?_eq_none_iff :
    placeholder? names s = none ↔
      ∀ name, Known names name → ¬ (Segment.placeholder name).source <+: '{' :: s := by
  have hsource (name : String) : (Segment.placeholder name).source <+: '{' :: s ↔
      ∃ rest, s = name.toList ++ '}' :: rest := by
    rw [Segment.source, List.cons_prefix_cons, and_iff_right rfl]
    exact exists_congr fun rest => by
      rw [List.append_assoc, List.singleton_append]
      exact eq_comm
  rw [Option.eq_none_iff_forall_ne_some]
  refine forall_congr' fun name => ?_
  rw [Ne, placeholder?_eq_some_iff, hsource, not_and]

theorem segmentsAfter_drop (names : List String) (skip : ℕ) (s : List Char) :
    segmentsAfter names skip s = segments names (s.drop skip) := by
  induction skip generalizing s with
  | zero => rfl
  | succ skip ih =>
    cases s with
    | nil => rfl
    | cons c s => exact ih s

/-- Where a known placeholder begins, it is a piece. -/
theorem segments_placeholder (h : Known names name) (s : List Char) :
    segments names ((Segment.placeholder name).source ++ s) =
      .placeholder name :: segments names s := by
  have hbehind : (name.toList ++ '}' :: s).drop (name.length + 1) = s := by
    rw [← String.length_toList, ← List.singleton_append, ← List.append_assoc]
    exact List.drop_left' (by simp)
  rw [Segment.source, List.cons_append, List.append_assoc, List.singleton_append, segments,
    segmentsAfter, if_pos rfl, placeholder?_append h]
  simp only
  rw [segmentsAfter_drop, hbehind]

/-- Where no known placeholder begins, the next character is a piece. -/
theorem segments_verbatim {c : Char}
    (h : ∀ name, Known names name → ¬ (Segment.placeholder name).source <+: c :: s) :
    segments names (c :: s) = .verbatim c :: segments names s := by
  rw [segments, segmentsAfter]
  split
  · rename_i hbrace
    subst hbrace
    rw [placeholder?_eq_none_iff.mpr h]
    rfl
  · rfl

/-- The rules allow one cut only. -/
theorem Segmentation.eq_segments {pieces : List Segment} (h : Segmentation names s pieces) :
    pieces = segments names s := by
  induction h with
  | nil => rfl
  | placeholder hknown _ ih => rw [segments_placeholder hknown, ih]
  | verbatim hnone _ ih => rw [segments_verbatim hnone, ih]

/-- Every template has a cut. -/
theorem segmentation_segments (names : List String) (s : List Char) :
    Segmentation names s (segments names s) := by
  -- A placeholder takes several characters, so the induction is on the length of what is left.
  induction hlength : s.length using Nat.strongRecOn generalizing s with
  | ind length ih =>
    cases s with
    | nil => exact .nil
    | cons c s =>
      by_cases hbegins : ∃ name, Known names name ∧ (Segment.placeholder name).source <+: c :: s
      · obtain ⟨name, hknown, rest, hrest⟩ := hbegins
        rw [← hrest, segments_placeholder hknown]
        refine .placeholder hknown (ih rest.length ?_ rest rfl)
        rw [← hlength, ← hrest, List.length_append]
        simp [Segment.source]
      · have hnone : ∀ name, Known names name →
            ¬ (Segment.placeholder name).source <+: c :: s := fun name hknown hbegin =>
          hbegins ⟨name, hknown, hbegin⟩
        rw [segments_verbatim hnone]
        exact .verbatim hnone (ih s.length (by rw [← hlength]; exact Nat.lt_succ_self _) s rfl)

theorem segmentation_iff {pieces : List Segment} :
    Segmentation names s pieces ↔ pieces = segments names s :=
  ⟨Segmentation.eq_segments, fun h => h ▸ segmentation_segments names s⟩

/-- The pieces of a template are all of it. -/
theorem Segmentation.flatMap_source {pieces : List Segment} (h : Segmentation names s pieces) :
    pieces.flatMap Segment.source = s := by
  induction h with
  | nil => rfl
  | placeholder _ _ ih => rw [List.flatMap_cons, ih]
  | verbatim _ _ ih => rw [List.flatMap_cons, ih, Segment.source, List.singleton_append]

end

/-! ## Values in their places -/

/-- The texts that pieces become when every placeholder becomes a value of its name. -/
inductive FilledText (values : List (String × String)) : List Segment → List Char → Prop where
  | nil : FilledText values [] []
  | verbatim {c : Char} {pieces : List Segment} {t : List Char} : FilledText values pieces t →
      FilledText values (.verbatim c :: pieces) (c :: t)
  | placeholder {name value : String} {pieces : List Segment} {t : List Char} :
      (name, value) ∈ values → FilledText values pieces t →
      FilledText values (.placeholder name :: pieces) (value.toList ++ t)

section

variable {values : List (String × String)}

theorem lookup_eq_some_of_mem (hnames : (values.map Prod.fst).Nodup) {name value : String}
    (h : (name, value) ∈ values) : values.lookup name = some value := by
  obtain ⟨before, after, rfl⟩ := List.append_of_mem h
  rw [List.map_append, List.map_cons, List.nodup_append] at hnames
  refine List.lookup_eq_some_iff.mpr ⟨before, after, rfl, fun other hother => ?_⟩
  have hne := hnames.2.2 _ (List.mem_map_of_mem hother) name (List.mem_cons_self ..)
  exact bne_iff_ne.mpr hne.symm

/-- With distinct names there is one such text. -/
theorem FilledText.eq_flatMap (hnames : (values.map Prod.fst).Nodup) {pieces : List Segment}
    {t : List Char} (h : FilledText values pieces t) :
    t = pieces.flatMap (fillSegment values) := by
  induction h with
  | nil => rfl
  | verbatim _ ih => rw [List.flatMap_cons, ← ih, fillSegment, List.singleton_append]
  | placeholder hvalue _ ih =>
    rw [List.flatMap_cons, ← ih, fillSegment, lookup_eq_some_of_mem hnames hvalue, Option.getD_some]

/-- Pieces that keep to the rules can be filled, as the names of their placeholders are listed. -/
theorem Segmentation.filledText (hnames : (values.map Prod.fst).Nodup) {s : List Char}
    {pieces : List Segment} (h : Segmentation (values.map Prod.fst) s pieces) :
    FilledText values pieces (pieces.flatMap (fillSegment values)) := by
  induction h with
  | nil => exact .nil
  | verbatim _ _ ih =>
    rw [List.flatMap_cons, fillSegment, List.singleton_append]
    exact .verbatim ih
  | placeholder hknown _ ih =>
    obtain ⟨⟨name, value⟩, hvalue, rfl⟩ := List.mem_map.mp hknown.1
    rw [List.flatMap_cons, fillSegment, lookup_eq_some_of_mem hnames hvalue, Option.getD_some]
    exact .placeholder hvalue ih

/-! ## Rounds -/

/-- One round of filling: the text up to the next opening brace, with the value of the placeholder
that begins there or the brace itself, and what is left behind it. Without a brace there is no round
to make. -/
def round? (values : List (String × String)) (s : List Char) : Option (List Char × List Char) :=
  let before := s.takeWhile (· ≠ '{')
  match s.dropWhile (· ≠ '{') with
  | [] => none
  | _ :: after =>
    match placeholder? (values.map Prod.fst) after with
    | some name =>
      some (before ++ ((values.lookup name).getD "").toList, after.drop (name.length + 1))
    | none => some (before ++ ['{'], after)

/-- Rounds that come to an end, and the text they write. -/
inductive Rounds (values : List (String × String)) : List Char → List Char → Prop where
  | last {s : List Char} : round? values s = none → Rounds values s s
  | next {s text rest out : List Char} : round? values s = some (text, rest) →
      Rounds values rest out → Rounds values s (text ++ out)

theorem fillAfter_drop (values : List (String × String)) (skip : ℕ) (s : List Char) :
    fillAfter values skip s = fill values (s.drop skip) := by
  induction skip generalizing s with
  | zero => rfl
  | succ skip ih =>
    cases s with
    | nil => rfl
    | cons c s => exact ih s

/-- Text without an opening brace is passed on. -/
theorem fill_append {before : List Char} (hbefore : '{' ∉ before) (s : List Char) :
    fill values (before ++ s) = before ++ fill values s := by
  induction before with
  | nil => rfl
  | cons c before ih =>
    obtain ⟨hc, hbefore⟩ := not_or.mp (List.mem_cons.not.mp hbefore)
    rw [List.cons_append, fill, fillAfter, if_neg (Ne.symm hc)]
    exact congrArg (c :: ·) (ih hbefore)

theorem fill_placeholder {name : String} {s : List Char}
    (h : placeholder? (values.map Prod.fst) s = some name) : fill values ('{' :: s) =
      ((values.lookup name).getD "").toList ++ fill values (s.drop (name.length + 1)) := by
  rw [fill, fillAfter, if_pos rfl, h]
  dsimp only
  rw [fillAfter_drop]

theorem fill_brace {s : List Char} (h : placeholder? (values.map Prod.fst) s = none) :
    fill values ('{' :: s) = '{' :: fill values s := by
  rw [fill, fillAfter, if_pos rfl, h]
  rfl

/-- What is written in a round and what filling makes of the rest is what it makes of the whole, and
there is less left than before. Where no round is left to make, filling changes nothing. -/
theorem fill_round (values : List (String × String)) (s : List Char) :
    (round? values s = none → fill values s = s) ∧
      ∀ text rest, round? values s = some (text, rest) →
        rest.length < s.length ∧ fill values s = text ++ fill values rest := by
  have hsplit := List.takeWhile_append_dropWhile (p := fun c => decide (c ≠ '{')) (l := s)
  have hbefore : '{' ∉ s.takeWhile fun c => decide (c ≠ '{') := fun hmem => by
    simpa using List.mem_takeWhile_imp hmem
  have hbehind := ends_dropWhile (fun c => decide (c ≠ '{')) s
  unfold round?
  dsimp only
  generalize s.takeWhile (fun c => decide (c ≠ '{')) = before at *
  generalize s.dropWhile (fun c => decide (c ≠ '{')) = behind at *
  subst hsplit
  rw [fill_append hbefore]
  cases behind with
  | nil => exact ⟨fun _ => rfl, by simp⟩
  | cons c after =>
    obtain rfl : c = '{' := by simpa using hbehind c rfl
    refine ⟨fun hnone => ?_, fun text rest hsome => ?_⟩
    · dsimp only at hnone
      split at hnone <;> cases hnone
    · dsimp only at hsome
      split at hsome
      · rename_i name hname
        obtain ⟨rfl, rfl⟩ := Prod.mk.inj (Option.some.inj hsome)
        rw [fill_placeholder hname, List.append_assoc]
        refine ⟨?_, rfl⟩
        simp only [List.length_drop, List.length_append, List.length_cons]
        omega
      · rename_i hname
        obtain ⟨rfl, rfl⟩ := Prod.mk.inj (Option.some.inj hsome)
        rw [fill_brace hname, List.append_assoc, List.singleton_append]
        refine ⟨?_, rfl⟩
        simp only [List.length_append, List.length_cons]
        omega

/-- The rounds end on every template, and they write the filled template. -/
theorem rounds_fill (values : List (String × String)) (s : List Char) :
    Rounds values s (fill values s) := by
  induction hlength : s.length using Nat.strongRecOn generalizing s with
  | ind length ih =>
    obtain ⟨hlast, hnext⟩ := fill_round values s
    cases hround : round? values s with
    | none =>
      rw [hlast hround]
      exact .last hround
    | some step =>
      obtain ⟨text, rest⟩ := step
      obtain ⟨hshorter, hfill⟩ := hnext text rest hround
      rw [hfill]
      exact .next hround (ih rest.length (hlength ▸ hshorter) rest rfl)

end

/-- A template has one cut into pieces, which its text and the names decide: a placeholder is a
listed name in braces, and all other characters stand for themselves. Whatever the values are,
filling ends, and gives these pieces with the values in the places of the placeholders. -/
theorem fill_by_segmentation {names : List String} (hnames : names.Nodup) (template : List Char) :
    ∃ pieces : List Segment,
      (∀ other, Segmentation names template other ↔ other = pieces) ∧
      pieces.flatMap Segment.source = template ∧
      ∀ values : List (String × String), values.map Prod.fst = names →
        (∀ text, FilledText values pieces text ↔ text = fill values template) ∧
          Rounds values template (fill values template) := by
  have hpieces := segmentation_segments names template
  refine ⟨segments names template, fun _ => segmentation_iff, hpieces.flatMap_source, ?_⟩
  rintro values rfl
  rw [fill_eq_flatMap]
  refine ⟨fun text => ⟨fun h => h.eq_flatMap hnames, ?_⟩, ?_⟩
  · rintro rfl
    exact hpieces.filledText hnames
  · rw [← fill_eq_flatMap]
    exact rounds_fill values template

/-- A brace right before a placeholder is kept, and so are the braces and names in the values. -/
theorem fill_by_segmentation_braces :
    let names := ["a", "b"]
    let template := r"{{a}{c}{b".toList
    let values := [("a", "{b}"), ("b", "{a}")]
    names.Nodup ∧ (∃ pieces, (∀ other, Segmentation names template other ↔ other = pieces) ∧
      FilledText values pieces (fill values template)) ∧
      fill values template = r"{{b}{c}{b".toList := by
  intro names template values
  have hnames : names.Nodup := by decide
  obtain ⟨pieces, honly, -, hfill⟩ := fill_by_segmentation hnames template
  exact ⟨hnames, ⟨pieces, honly, ((hfill values rfl).1 _).mpr rfl⟩, by decide +kernel⟩

end Template
end ContractDraft
