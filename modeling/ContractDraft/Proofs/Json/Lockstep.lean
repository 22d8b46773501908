import ContractDraft.Proofs.Json.Failure

/-!
# One text under two settings

Reading a text under stricter and under laxer settings goes in lockstep: both runs do the same until
the stricter one stops for a cause that only its settings bring about, and from there the laxer run
only gets further (`CutShort`). Settings may differ in the comma they tolerate and in the depth they
allow, so one relation settles both. In particular tolerating trailing commas adds documents and
changes nothing else (`readDocument_tolerant`).
-/

namespace ContractDraft

/-- The first outcome is the second, or it is a failure for one of the causes `stops` and the second
outcome gets at least as far. -/
def CutShort {α : Type} (stops : ReadCause → Prop) (x y : Except ReadFailure (α × List Char)) :
    Prop :=
  x = y ∨ ∃ failure, x = .error failure ∧ stops failure.cause ∧ left y <:+ failure.rest

section cut

variable {α β : Type} {stops : ReadCause → Prop}

theorem CutShort.refl (x : Except ReadFailure (α × List Char)) : CutShort stops x x := .inl rfl

/-- Two runs that have come to the same place may part behind it. -/
theorem CutShort.bind_same {x : Except ReadFailure (α × List Char)}
    {f g : α × List Char → Except ReadFailure (β × List Char)}
    (hfg : ∀ a rest, x = .ok (a, rest) → CutShort stops (f (a, rest)) (g (a, rest))) :
    CutShort stops (x >>= f) (x >>= g) := by
  cases x with
  | error failure => exact .refl _
  | ok p => exact hfg p.1 p.2 rfl

/-- Outcomes that are cut stay so when reading goes on. -/
theorem CutShort.bind {x y : Except ReadFailure (α × List Char)}
    {f g : α × List Char → Except ReadFailure (β × List Char)} (h : CutShort stops x y)
    (hfg : ∀ a rest, x = .ok (a, rest) → CutShort stops (f (a, rest)) (g (a, rest)))
    (hg : ∀ a rest, left (g (a, rest)) <:+ rest) : CutShort stops (x >>= f) (y >>= g) := by
  rcases h with rfl | ⟨failure, rfl, hstops, hleft⟩
  · exact .bind_same hfg
  · refine .inr ⟨failure, rfl, hstops, ?_⟩
    cases y with
    | error _ => exact hleft
    | ok p => exact (hg p.1 p.2).trans hleft

/-- The same is done with what was read. -/
theorem CutShort.map {x y : Except ReadFailure (α × List Char)} (h : CutShort stops x y)
    (f : α → β) :
    CutShort stops (x >>= fun p => .ok (f p.1, p.2)) (y >>= fun p => .ok (f p.1, p.2)) :=
  h.bind (fun _ _ _ => .refl _) fun _ rest => List.suffix_refl rest

end cut

/-- Wherever the first settings refuse a comma and the second do not, that is one of the causes. -/
def CommasCut (stops : ReadCause → Prop) (options laxer : ReadOptions) : Prop :=
  options.allowTrailingCommas = laxer.allowTrailingCommas ∨
    (options.allowTrailingCommas = false ∧ stops .trailingComma)

/-! ## Members -/

section members

variable {α : Type} {stops : ReadCause → Prop} {options laxer : ReadOptions} {bound : ℕ}
  {close : Char} {next : Expectation}
  {member other : List Char → Except ReadFailure (α × List Char)}

/-- Behind a member two settings differ in one case only: there a comma is followed by the closing
bracket, and the laxer settings let it close. -/
theorem behind_cut (hclose : close = ']' ∨ close = '}') (hcommas : CommasCut stops options laxer)
    (next : Expectation) (s : List Char) :
    behind options close next s = behind laxer close next s ∨
      (stops .trailingComma ∧ ∃ rest, rest.length + 1 < s.length ∧
        behind options close next s = .another (close :: rest) ∧
          behind laxer close next s = .closed rest) := by
  rcases hcommas with heq | ⟨hstrict, hstops⟩
  · left
    unfold behind
    rw [heq]
  -- The same derivation holds under the stricter settings, except for a tolerated comma.
  have hspec := behind_spec laxer close next s
  generalize behind laxer close next s = b at hspec
  cases hspec with
  | closed hafter => exact .inl ((BehindMember.closed hafter).eq hclose)
  | @tolerated after blanks rest _ hafter hblanks =>
    obtain ⟨hblank, -, -⟩ := close_spec hclose
    refine .inr ⟨hstops, rest, ?_, ?_, rfl⟩
    · simp only [List.length_append, List.length_cons]
      omega
    · exact (BehindMember.another hafter hblanks (ends_cons hblank rest) fun _ => hstrict).eq hclose
  | another hafter hblanks hends _ =>
    exact .inl ((BehindMember.another hafter hblanks hends fun _ => hstrict).eq hclose)
  | failed hafter hends hcomma hother =>
    exact .inl ((BehindMember.failed hafter hends hcomma hother).eq hclose)

/-- Where the laxer settings let a comma pass, the stricter run takes one more round and stops. -/
theorem cut_readBehind (hclose : close = ']' ∨ close = '}')
    (hcommas : CommasCut stops options laxer)
    {others laxOthers : List Char → Except ReadFailure (List α × List Char)} {s : List Char}
    (hothers : ∀ t, t.length < s.length → CutShort stops (others t) (laxOthers t))
    (hstop : ∀ rest, rest.length + 1 < s.length →
      others (close :: rest) = .error ⟨.trailingComma, close :: rest⟩) (a : α) :
    CutShort stops (readBehind options close next others a s)
      (readBehind laxer close next laxOthers a s) := by
  unfold readBehind
  rcases behind_cut hclose hcommas next s with heq | ⟨hstops, rest, hlength, hstrict, hlax⟩
  · rw [heq]
    have hspec := behind_spec laxer close next s
    generalize behind laxer close next s = b at hspec
    cases hspec with
    | closed _ => exact .refl _
    | tolerated _ _ _ => exact .refl _
    | failed _ _ _ _ => exact .refl _
    | another _ _ _ _ =>
      refine (hothers _ ?_).map (a :: ·)
      simp only [List.length_append, List.length_cons]
      omega
  · rw [hstrict, hlax]
    dsimp only
    rw [hstop rest hlength]
    exact .inr ⟨_, rfl, hstops, List.suffix_cons close rest⟩

theorem cut_readMembers (hclose : close = ']' ∨ close = '}')
    (hcommas : CommasCut stops options laxer) (hleft : ∀ s, left (member s) <:+ s)
    (hother : ∀ s, left (other s) <:+ s)
    (hmember : ∀ s, s.length < bound → CutShort stops (member s) (other s)) {fuel : ℕ}
    {s : List Char} (hbound : s.length < bound) (hfuel : s.length < fuel) :
    CutShort stops (readMembers options close next member fuel s)
      (readMembers laxer close next other fuel s) := by
  induction fuel generalizing s with
  | zero => exact absurd hfuel (Nat.not_lt_zero _)
  | succ fuel ih =>
    rw [readMembers_succ, readMembers_succ]
    by_cases hhead : s.head? = some close
    · rw [if_pos hhead, if_pos hhead]
      exact .refl _
    rw [if_neg hhead, if_neg hhead]
    refine (hmember s hbound).bind (fun a rest hread => ?_) fun a rest => ?_
    · have hrest := (rest_suffix (hleft s) hread).length_le
      refine cut_readBehind hclose hcommas (fun t ht => ?_) (fun u hu => ?_) a
      · dsimp only at ht
        exact ih (by omega) (by omega)
      · -- The stricter run meets the bracket in its next round.
        dsimp only at hu
        obtain ⟨fuel, rfl⟩ : ∃ n, fuel = n + 1 := Nat.exists_eq_add_one_of_ne_zero (by omega)
        rw [readMembers_succ, List.head?_cons, if_pos rfl]
    · exact left_readBehind_suffix (left_readMembers_suffix hother fuel) a rest

theorem cut_readEnclosed (hclose : close = ']' ∨ close = '}')
    (hcommas : CommasCut stops options laxer) (hleft : ∀ s, left (member s) <:+ s)
    (hother : ∀ s, left (other s) <:+ s)
    (hmember : ∀ s, s.length < bound → CutShort stops (member s) (other s)) {s : List Char}
    (hbound : s.length < bound) :
    CutShort stops (readEnclosed options bound close next member s)
      (readEnclosed laxer bound close next other s) := by
  have hlength : (skipBlanks s).length < bound :=
    Nat.lt_of_le_of_lt (skipBlanks_suffix s).length_le hbound
  unfold readEnclosed
  dsimp only
  split
  · exact .refl _
  · exact cut_readMembers hclose hcommas hleft hother hmember hlength hlength

end members

/-! ## Values -/

section values

variable {stops : ReadCause → Prop} {options laxer : ReadOptions} {bound : ℕ}
  {value other : List Char → Except ReadFailure (Value × List Char)}

theorem cut_readField (hvalue : ∀ s, s.length < bound → CutShort stops (value s) (other s))
    {s : List Char} (hbound : s.length < bound) :
    CutShort stops (readField bound value s) (readField bound other s) := by
  rw [readField_eq, readField_eq]
  -- Both runs read the same key and the same colon.
  refine .bind_same fun key t hkey => .bind_same fun _ u hcolon => ?_
  have ht := rest_suffix ((left_readKey_suffix bound s).trans (skipBlanks_suffix s)) hkey
  have hu := rest_suffix ((left_readColon_suffix t).trans (skipBlanks_suffix t)) hcolon
  have hlength := (hu.trans ht).length_le
  exact (hvalue u (by omega)).map fun v => (key, v)

theorem cut_readBracketed (hcommas : CommasCut stops options laxer)
    (hleft : ∀ s, left (value s) <:+ s) (hother : ∀ s, left (other s) <:+ s)
    (hvalue : ∀ s, s.length < bound → CutShort stops (value s) (other s)) (bracket : Char)
    {s : List Char} (hbound : s.length < bound) :
    CutShort stops (readBracketed options bound value bracket s)
      (readBracketed laxer bound other bracket s) := by
  unfold readBracketed
  split
  · exact (cut_readEnclosed (.inl rfl) hcommas hleft hother hvalue hbound).map Value.array
  · have hfield (t : List Char) (ht : t.length < bound) :
        CutShort stops (readField bound value t) (readField bound other t) :=
      cut_readField hvalue ht
    exact (cut_readEnclosed (.inr rfl) hcommas (left_readField_suffix hleft)
      (left_readField_suffix hother) hfield hbound).map fun members =>
        Value.object (Fields.ofMembers members)

theorem cut_readValueWith
    {bracketed laxBracketed : Char → List Char → Except ReadFailure (Value × List Char)}
    (hbracketed : ∀ bracket s, s.length < bound →
      CutShort stops (bracketed bracket s) (laxBracketed bracket s)) {s : List Char}
    (hbound : s.length < bound) :
    CutShort stops (readValueWith bound bracketed s) (readValueWith bound laxBracketed s) := by
  have hskip := (skipBlanks_suffix s).length_le
  rw [readValueWith_eq, readValueWith_eq]
  unfold readNext
  split
  · exact .refl _
  rename_i c t hcons
  rw [hcons, List.length_cons] at hskip
  unfold readFrom
  -- Values without brackets are read alike.
  split
  · exact hbracketed c t (by omega)
  · exact .refl _

/-- Wherever the first settings refuse a bracket and the second do not, that is one of the causes.
The numbers say how deep brackets may still nest. -/
def DepthCut (stops : ReadCause → Prop) (options laxer : ReadOptions) (room laxRoom : ℕ) : Prop :=
  (options.maxDepth = laxer.maxDepth ∧ room = laxRoom) ∨
    (room ≤ laxRoom ∧ stops (.tooDeep options.maxDepth.toNat))

theorem DepthCut.pred {room laxRoom : ℕ}
    (h : DepthCut stops options laxer (room + 1) (laxRoom + 1)) :
    DepthCut stops options laxer room laxRoom := by
  rcases h with ⟨hdepth, hroom⟩ | ⟨hroom, hstops⟩
  · exact .inl ⟨hdepth, Nat.succ.inj hroom⟩
  · exact .inr ⟨Nat.le_of_succ_le_succ hroom, hstops⟩

/-- The runs part where the stricter settings let no bracket open any more. -/
theorem cut_readValue (hcommas : CommasCut stops options laxer) {room laxRoom : ℕ}
    (hdepth : DepthCut stops options laxer room laxRoom) {s : List Char}
    (hbound : s.length < bound) :
    CutShort stops (readValue options bound room s) (readValue laxer bound laxRoom s) := by
  induction room generalizing laxRoom s with
  | zero =>
    rw [readValue_eq, readValue_eq]
    refine cut_readValueWith (fun bracket t _ => ?_) hbound
    rcases hdepth with ⟨hlimit, rfl⟩ | ⟨_, hstops⟩
    · unfold readInside
      rw [hlimit]
      exact .refl _
    · exact .inr ⟨_, rfl, hstops, left_readInside_suffix laxer bound laxRoom bracket t⟩
  | succ room ih =>
    obtain ⟨laxRoom, rfl⟩ : ∃ n, laxRoom = n + 1 := by
      refine Nat.exists_eq_add_one_of_ne_zero ?_
      rcases hdepth with ⟨_, hroom⟩ | ⟨hroom, _⟩ <;> omega
    rw [readValue_eq, readValue_eq]
    refine cut_readValueWith (fun bracket t ht => ?_) hbound
    exact cut_readBracketed hcommas (left_readValue_suffix options bound room)
      (left_readValue_suffix laxer bound laxRoom) (fun u hu => ih hdepth.pred hu) bracket ht

end values

/-! ## Documents -/

/-- Under two settings a text has one result, or the stricter settings stop for one of the causes
and the laxer ones do not refuse the text earlier. -/
theorem cut_readText {stops : ReadCause → Prop} {options laxer : ReadOptions}
    (hcommas : CommasCut stops options laxer)
    (hdepth : DepthCut stops options laxer options.maxDepth.toNat laxer.maxDepth.toNat)
    (text : List Char) :
    readText options text = readText laxer text ∨
      ∃ failure, readText options text = .error failure ∧ stops failure.cause ∧
        ∀ other, readText laxer text = .error other → other.rest <:+ failure.rest := by
  have hvalue := cut_readValue hcommas hdepth (Nat.lt_succ_self text.length)
  unfold readText
  rcases hvalue with heq | ⟨failure, hfailure, hstops, hleft⟩
  · rw [heq]
    exact .inl rfl
  · rw [hfailure]
    refine .inr ⟨failure, rfl, hstops, fun other hother => ?_⟩
    rcases bind_eq_error_iff.mp hother with hread | ⟨⟨v, s⟩, hread, hthen⟩
    · rw [hread] at hleft
      exact hleft
    · rw [hread] at hleft
      have hskip := (skipBlanks_suffix s).trans hleft
      dsimp only at hthen
      split at hthen
      · cases hthen
      · cases hthen
        exact hskip

/-- Tolerating a comma before a closing bracket changes nothing but the results of texts that are
refused for such a comma. -/
theorem readDocument_tolerant (text : String) (maxDepth : UInt64) :
    (readDocument ⟨false, maxDepth⟩ text = readDocument ⟨true, maxDepth⟩ text ∨
        ∃ p, readDocument ⟨false, maxDepth⟩ text = .error ⟨p, .trailingComma⟩) ∧
      (∀ p, readDocument ⟨true, maxDepth⟩ text ≠ .error ⟨p, .trailingComma⟩) ∧
      ∀ v, readDocument ⟨false, maxDepth⟩ text = .ok v →
        readDocument ⟨true, maxDepth⟩ text = .ok v := by
  have hcommas : CommasCut (· = .trailingComma) ⟨false, maxDepth⟩ ⟨true, maxDepth⟩ :=
    .inr ⟨rfl, rfl⟩
  have hsame : readDocument ⟨false, maxDepth⟩ text = readDocument ⟨true, maxDepth⟩ text ∨
      ∃ p, readDocument ⟨false, maxDepth⟩ text = .error ⟨p, .trailingComma⟩ := by
    rcases cut_readText hcommas (.inl ⟨rfl, rfl⟩) text.toList with heq | ⟨failure, hread, hcause, _⟩
    · left
      unfold readDocument
      rw [heq]
    · right
      rw [← hcause]
      exact exists_readDocument_eq_error hread
  refine ⟨hsame, fun p hp => ?_, fun v hv => ?_⟩
  · obtain ⟨before, rest, _, _, _, hstrict, _⟩ := fits_of_readDocument hp
    exact Bool.noConfusion hstrict
  · rcases hsame with heq | ⟨p, hp⟩
    · rw [← heq, hv]
    · rw [hv] at hp
      cases hp

/-- A document without the comma is read either way, and with it by the tolerant reader alone. -/
theorem readDocument_tolerant_items :
    readDocument ⟨false, 1⟩ "[1,]" = .error ⟨3, .trailingComma⟩ ∧
      readDocument ⟨true, 1⟩ "[1,]" = .ok (.array [.integer 1]) ∧
        readDocument ⟨true, 1⟩ "[1]" = .ok (.array [.integer 1]) := by
  have hstrict : readDocument ⟨false, 1⟩ "[1]" = .ok (.array [.integer 1]) := by rfl
  exact ⟨by rfl, by rfl, (readDocument_tolerant "[1]" 1).2.2 _ hstrict⟩

end ContractDraft
