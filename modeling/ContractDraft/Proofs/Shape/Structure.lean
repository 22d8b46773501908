import ContractDraft.Proofs.Json.Position
import ContractDraft.Proofs.Text.Diagnostic
import ContractDraft.Shape.Signature

/-!
# What a signature says

`Alike` compares two values as a signature does: the same keys in the same order, arrays by their
first items, scalars by their shapes and by whether they are empty strings. Two values have the same
signature exactly if they are alike (`signatureAt_eq_iff`).

That alike values have one signature is seen at once. For the converse, a signature is read off the
front of a text, as long as the text goes on behind it in the way it does inside an array or an
object (`Delimited`).
-/

namespace ContractDraft

/-! ## Values of one structure -/

/-- An empty string, for which no example is written. -/
def Value.isEmptyString : Value → Bool
  | .string s => s.isEmpty
  | _ => false

mutual

/-- Two values that are held under `key` have the same structure. -/
inductive Alike (policy : Policy) : Option String → Value → Value → Prop where
  | scalar {key : Option String} {v w : Value} : v.isScalar = true → w.isScalar = true →
      policy.classifyOrFallback ⟨v, key⟩ = policy.classifyOrFallback ⟨w, key⟩ →
      v.isEmptyString = w.isEmptyString → Alike policy key v w
  | empty {key : Option String} : Alike policy key (.array []) (.array [])
  | array {key : Option String} {v w : Value} {rest others : List Value} :
      Alike policy none v w → Alike policy key (.array (v :: rest)) (.array (w :: others))
  | object {key : Option String} {fields others : Fields} :
      AlikeFields policy fields others → Alike policy key (.object fields) (.object others)

/-- Two rows of fields have the same keys, and under each of them values of the same structure. -/
inductive AlikeFields (policy : Policy) : Fields → Fields → Prop where
  | nil : AlikeFields policy [] []
  | cons {key : String} {v w : Value} {rest others : Fields} : Alike policy (some key) v w →
      AlikeFields policy rest others → AlikeFields policy ((key, v) :: rest) ((key, w) :: others)

end

/-! ## Texts of signatures -/

/-- The mark behind the signature of an empty string. -/
def blankMark (blank : Bool) : List Char := if blank then ['?'] else []

/-- The bracket that the signature of a value begins with. -/
def Value.bracket? : Value → Option Char
  | .array _ => some '['
  | .object _ => some '{'
  | _ => none

/-- Scalars are the values without brackets. -/
theorem Value.bracket?_eq_none_iff {v : Value} : v.bracket? = none ↔ v.isScalar = true := by
  cases v <;> simp [bracket?, isScalar]

/-- A shape and a mark can be told from the text they make together. -/
theorem Shape.name_blankMark_inj {s t : Shape} {a b : Bool}
    (h : s.name.toList ++ blankMark a = t.name.toList ++ blankMark b) : s = t ∧ a = b := by
  revert h
  cases s <;> cases t <;> cases a <;> cases b <;> decide

/-- The text of a shape and a mark begins with a letter and holds nothing that could end it. -/
theorem Shape.name_blankMark_free (s : Shape) (blank : Bool) :
    (∃ c rest, s.name.toList ++ blankMark blank = c :: rest ∧ c ∉ ['[', '{']) ∧
      ∀ c ∈ s.name.toList ++ blankMark blank, c ∉ [',', '}', ']'] := by
  refine ⟨?_, ?_⟩
  · cases s <;> cases blank <;> exact ⟨_, _, rfl, by decide⟩
  · have hall : (s.name.toList ++ blankMark blank).all
        (fun c => decide (c ∉ [',', '}', ']'])) = true := by
      cases s <;> cases blank <;> decide
    exact fun c hc => of_decide_eq_true (List.all_eq_true.mp hall c hc)

section texts

variable (policy : Policy)

theorem toList_signatureAt_scalar {v : Value} (h : v.isScalar = true) (key : Option String) :
    (signatureAt policy key v).toList =
      (policy.classifyOrFallback ⟨v, key⟩).name.toList ++ blankMark v.isEmptyString := by
  cases v with
  | array items => cases h
  | object fields => cases h
  | string s =>
    rw [signatureAt, scalarSignature, String.toList_append]
    · cases hblank : s.isEmpty <;> simp [Value.isEmptyString, blankMark, hblank]
    all_goals simp
  | _ =>
    rw [signatureAt, scalarSignature, String.toList_append]
    all_goals simp [Value.isEmptyString, blankMark]

theorem toList_signatureAt_empty (key : Option String) :
    (signatureAt policy key (.array [])).toList = ['[', ']'] := by
  rw [signatureAt]
  rfl

theorem toList_signatureAt_array (key : Option String) (first : Value) (rest : List Value) :
    (signatureAt policy key (.array (first :: rest))).toList =
      '[' :: ((signatureAt policy none first).toList ++ [']']) := by
  rw [signatureAt, String.toList_append, String.toList_append]
  rfl

/-- The text of fields, with a comma before every one of them. -/
def fieldsText (fields : Fields) : List Char :=
  (fieldSignatures policy fields).flatMap fun text => ',' :: text.toList

theorem fieldsText_nil : fieldsText policy [] = [] := by
  rw [fieldsText, fieldSignatures, List.flatMap_nil]

theorem fieldsText_cons (field : String × Value) (rest : Fields) :
    fieldsText policy (field :: rest) = ',' :: ((Text.diagnosticString field.1).toList ++
      ':' :: ((signatureAt policy (some field.1) field.2).toList ++ fieldsText policy rest)) := by
  rw [fieldsText, fieldSignatures, List.flatMap_cons, String.toList_append, String.toList_append,
    List.cons_append, List.append_assoc, List.append_assoc]
  rfl

/-- A comma in front turns a join into one comma before every text. -/
theorem cons_toList_intercalate (text : String) (texts : List String) :
    ',' :: (String.intercalate "," (text :: texts)).toList =
      (text :: texts).flatMap fun t => ',' :: t.toList := by
  induction texts generalizing text with
  | nil => simp
  | cons next texts ih =>
    rw [String.intercalate_cons_of_ne_nil (List.cons_ne_nil _ _), List.flatMap_cons, ← ih next,
      String.toList_append, String.toList_append, List.append_assoc]
    rfl

theorem toList_signatureAt_object (key : Option String) (fields : Fields) :
    (signatureAt policy key (.object fields)).toList =
      '{' :: ((fieldsText policy fields).tail ++ ['}']) := by
  rw [signatureAt, String.toList_append, String.toList_append, fieldsText]
  cases fieldSignatures policy fields with
  | nil => rfl
  | cons text texts =>
    rw [← cons_toList_intercalate]
    rfl

/-- A signature begins with a bracket or a letter, and so shows whether it is about a scalar, an
array or an object. -/
theorem exists_cons_signatureAt (key : Option String) (v : Value) :
    ∃ c rest, (signatureAt policy key v).toList = c :: rest ∧ c ∉ [',', '}', ']'] ∧
      v.bracket? = (some c).filter fun c => c ∈ ['[', '{'] := by
  cases v using Value.visit_induction with
  | object fields _ => exact ⟨_, _, toList_signatureAt_object policy key fields, by decide, rfl⟩
  | empty => exact ⟨_, _, toList_signatureAt_empty policy key, by decide, rfl⟩
  | array first rest _ =>
    exact ⟨_, _, toList_signatureAt_array policy key first rest, by decide, rfl⟩
  | scalar v hv =>
    obtain ⟨⟨c, rest, hname, hletter⟩, hfree⟩ :=
      (policy.classifyOrFallback ⟨v, key⟩).name_blankMark_free v.isEmptyString
    refine ⟨c, rest, (toList_signatureAt_scalar policy hv key).trans hname,
      hfree c (by rw [hname]; exact List.mem_cons_self ..), ?_⟩
    rw [Value.bracket?_eq_none_iff.mpr hv, Option.filter_some, if_neg (by simpa using hletter)]

/-- Signatures that begin alike are those of values with the same brackets. -/
theorem bracket?_eq_of_append_eq {k l : Option String} {v w : Value} {r s : List Char}
    (h : (signatureAt policy k v).toList ++ r = (signatureAt policy l w).toList ++ s) :
    v.bracket? = w.bracket? := by
  obtain ⟨c, rest, hv, _, hbracket⟩ := exists_cons_signatureAt policy k v
  obtain ⟨d, rest', hw, _, hbracket'⟩ := exists_cons_signatureAt policy l w
  rw [hv, hw] at h
  rw [hbracket, hbracket', (List.cons.inj h).1]

/-- An array that is not empty does not look like an empty one. -/
theorem signatureAt_append_ne (key : Option String) (v : Value) (r s : List Char) :
    (signatureAt policy key v).toList ++ r ≠ ']' :: s := by
  obtain ⟨c, rest, hv, hfree, _⟩ := exists_cons_signatureAt policy key v
  intro h
  rw [hv] at h
  rw [(List.cons.inj h).1] at hfree
  exact hfree (by decide)

end texts

/-! ## Reading a signature off -/

/-- A text that ends, or goes on as it may do behind a signature. -/
def Delimited (text : List Char) : Prop := ∀ c ∈ text.head?, c ∈ [',', '}', ']']

theorem delimited_cons {c : Char} (h : c ∈ [',', '}', ']']) (rest : List Char) :
    Delimited (c :: rest) := by
  intro c' hc'
  rwa [← Option.some.inj hc']

/-- Behind a field there is a comma or a brace. -/
theorem delimited_fieldsText (policy : Policy) (fields : Fields) (r : List Char) :
    Delimited (fieldsText policy fields ++ '}' :: r) := by
  cases fields with
  | nil =>
    rw [fieldsText_nil]
    exact delimited_cons (by decide) _
  | cons field rest =>
    rw [fieldsText_cons]
    exact delimited_cons (by decide) _

/-- Words without delimiters end where the delimited text behind them begins. -/
theorem append_inj_of_delimited {a b r s : List Char} (ha : ∀ c ∈ a, c ∉ [',', '}', ']'])
    (hb : ∀ c ∈ b, c ∉ [',', '}', ']']) (hr : Delimited r) (hs : Delimited s)
    (h : a ++ r = b ++ s) : a = b ∧ r = s := by
  induction a generalizing b with
  | nil =>
    cases b with
    | nil => exact ⟨rfl, h⟩
    | cons c b =>
      rw [List.nil_append] at h
      exact absurd (hr c (by rw [h]; rfl)) (hb c (List.mem_cons_self ..))
  | cons c a ih =>
    cases b with
    | nil =>
      rw [List.nil_append] at h
      exact absurd (hs c (by rw [← h]; rfl)) (ha c (List.mem_cons_self ..))
    | cons c' b =>
      obtain ⟨rfl, htail⟩ := List.cons.inj h
      obtain ⟨rfl, hrest⟩ := ih (fun d hd => ha d (List.mem_cons_of_mem _ hd))
        (fun d hd => hb d (List.mem_cons_of_mem _ hd)) htail
      exact ⟨rfl, hrest⟩

variable {policy : Policy}

/-- The comma before the first field, which the text of an object leaves out, can be put back. -/
theorem fieldsText_eq_of_tail_eq {fields others : Fields} {r s : List Char}
    (h : (fieldsText policy fields).tail ++ '}' :: r =
      (fieldsText policy others).tail ++ '}' :: s) :
    fieldsText policy fields ++ '}' :: r = fieldsText policy others ++ '}' :: s := by
  cases fields with
  | nil =>
    cases others with
    | nil => simpa [fieldsText_nil] using h
    | cons other others =>
      rw [fieldsText_nil, fieldsText_cons, Text.diagnosticString_toList] at h
      cases (List.cons.inj h).1
  | cons field fields =>
    cases others with
    | nil =>
      rw [fieldsText_nil, fieldsText_cons, Text.diagnosticString_toList] at h
      cases (List.cons.inj h).1
    | cons other others =>
      rw [fieldsText_cons, fieldsText_cons] at h ⊢
      exact congrArg (',' :: ·) h

/-- If the values of some fields can be read off, so can the fields, up to the closing brace. -/
theorem alikeFields_of_append_eq {fields : Fields}
    (ih : ∀ field ∈ fields, ∀ (key : Option String) (w : Value) (r s : List Char),
      Delimited r → Delimited s →
      (signatureAt policy key field.2).toList ++ r = (signatureAt policy key w).toList ++ s →
      Alike policy key field.2 w ∧ r = s)
    {others : Fields} {r s : List Char}
    (h : fieldsText policy fields ++ '}' :: r = fieldsText policy others ++ '}' :: s) :
    AlikeFields policy fields others ∧ r = s := by
  induction fields generalizing others with
  | nil =>
    rw [fieldsText_nil] at h
    cases others with
    | nil =>
      rw [fieldsText_nil] at h
      exact ⟨.nil, (List.cons.inj h).2⟩
    | cons other others =>
      rw [fieldsText_cons] at h
      cases (List.cons.inj h).1
  | cons field fields ihfields =>
    rw [fieldsText_cons] at h
    cases others with
    | nil =>
      rw [fieldsText_nil] at h
      cases (List.cons.inj h).1
    | cons other others =>
      obtain ⟨key, v⟩ := field
      obtain ⟨otherKey, w⟩ := other
      simp only [fieldsText_cons, List.cons_append, List.append_assoc] at h
      -- The key ends at its quotation mark, the value before the next comma or brace.
      obtain ⟨rfl, hcolon⟩ := Text.diagnosticString_append_inj (List.cons.inj h).2
      obtain ⟨hvalue, hrest⟩ := ih _ (List.mem_cons_self ..) (some key) w _ _
        (delimited_fieldsText _ _ _) (delimited_fieldsText _ _ _) (List.cons.inj hcolon).2
      obtain ⟨hfields, hend⟩ :=
        ihfields (fun field hmem => ih field (List.mem_cons_of_mem _ hmem)) hrest
      exact ⟨.cons hvalue hfields, hend⟩

/-- A signature in front of a delimited text can be read off in one way only. -/
theorem alike_of_append_eq (v : Value) : ∀ (key : Option String) (w : Value) (r s : List Char),
    Delimited r → Delimited s →
    (signatureAt policy key v).toList ++ r = (signatureAt policy key w).toList ++ s →
    Alike policy key v w ∧ r = s := by
  induction v using Value.visit_induction with
  | object fields ih =>
    intro key w r s _ _ h
    have hbracket := bracket?_eq_of_append_eq policy h
    cases w with
    | object others =>
      rw [toList_signatureAt_object, toList_signatureAt_object, List.cons_append, List.cons_append,
        List.append_assoc, List.append_assoc] at h
      obtain ⟨hfields, hend⟩ := alikeFields_of_append_eq (fun field hmem => ih field hmem)
        (fieldsText_eq_of_tail_eq (List.cons.inj h).2)
      exact ⟨.object hfields, hend⟩
    | _ => cases hbracket
  | empty =>
    intro key w r s _ _ h
    have hbracket := bracket?_eq_of_append_eq policy h
    cases w with
    | array items =>
      cases items with
      | nil =>
        exact ⟨.empty, List.append_cancel_left h⟩
      | cons other others =>
        rw [toList_signatureAt_empty, toList_signatureAt_array] at h
        simp only [List.cons_append, List.append_assoc] at h
        exact absurd (List.cons.inj h).2.symm (signatureAt_append_ne policy _ _ _ _)
    | _ => cases hbracket
  | array first rest ih =>
    intro key w r s _ _ h
    have hbracket := bracket?_eq_of_append_eq policy h
    cases w with
    | array items =>
      cases items with
      | nil =>
        rw [toList_signatureAt_empty, toList_signatureAt_array] at h
        simp only [List.cons_append, List.append_assoc] at h
        exact absurd (List.cons.inj h).2 (signatureAt_append_ne policy _ _ _ _)
      | cons other others =>
        rw [toList_signatureAt_array, toList_signatureAt_array, List.cons_append, List.cons_append,
          List.append_assoc, List.append_assoc] at h
        obtain ⟨hitem, hrest⟩ := ih none other _ _ (delimited_cons (by decide) _)
          (delimited_cons (by decide) _) (List.cons.inj h).2
        exact ⟨.array hitem, (List.cons.inj hrest).2⟩
    | _ => cases hbracket
  | scalar v hv =>
    intro key w r s hr hs h
    have hbracket := bracket?_eq_of_append_eq policy h
    have hw : w.isScalar = true :=
      Value.bracket?_eq_none_iff.mp (hbracket ▸ Value.bracket?_eq_none_iff.mpr hv)
    rw [toList_signatureAt_scalar policy hv, toList_signatureAt_scalar policy hw] at h
    obtain ⟨hname, hrest⟩ := append_inj_of_delimited (Shape.name_blankMark_free ..).2
      (Shape.name_blankMark_free ..).2 hr hs h
    obtain ⟨hshape, hblank⟩ := Shape.name_blankMark_inj hname
    exact ⟨.scalar hv hw hshape hblank, hrest⟩

/-! ## Signatures and structures -/

/-- Fields that look alike have the same signatures. -/
theorem fieldSignatures_eq_of_alike {fields : Fields}
    (ih : ∀ field ∈ fields, ∀ (key : Option String) (w : Value), Alike policy key field.2 w →
      signatureAt policy key field.2 = signatureAt policy key w)
    {others : Fields} (h : AlikeFields policy fields others) :
    fieldSignatures policy fields = fieldSignatures policy others := by
  induction fields generalizing others with
  | nil =>
    cases h
    rfl
  | cons field fields ihfields =>
    cases h with
    | cons hvalue hrest =>
      rw [fieldSignatures, fieldSignatures, ih _ (List.mem_cons_self ..) _ _ hvalue,
        ihfields (fun field hmem => ih field (List.mem_cons_of_mem _ hmem)) hrest]

/-- Values that look alike have the same signature. -/
theorem signatureAt_eq_of_alike (v : Value) : ∀ (key : Option String) (w : Value),
    Alike policy key v w → signatureAt policy key v = signatureAt policy key w := by
  induction v using Value.visit_induction with
  | object fields ih =>
    intro key w h
    cases h with
    | scalar hv => cases hv
    | object hfields =>
      rw [signatureAt, signatureAt, fieldSignatures_eq_of_alike ih hfields]
  | empty =>
    intro key w h
    cases h with
    | scalar hv => cases hv
    | empty => rfl
  | array first rest ih =>
    intro key w h
    cases h with
    | scalar hv => cases hv
    | array hitem => rw [signatureAt, signatureAt, ih none _ hitem]
  | scalar v hv =>
    intro key w h
    cases h with
    | scalar _ hw hshape hblank =>
      rw [← String.toList_inj, toList_signatureAt_scalar policy hv,
        toList_signatureAt_scalar policy hw, hshape, hblank]
    | _ => cases hv

/-- Two values have the same signature exactly if they have the same structure. -/
theorem signatureAt_eq_iff {key : Option String} {v w : Value} :
    signatureAt policy key v = signatureAt policy key w ↔ Alike policy key v w := by
  refine ⟨fun h => ?_, signatureAt_eq_of_alike v key w⟩
  have hnil : Delimited [] := by simp [Delimited]
  exact (alike_of_append_eq v key w [] [] hnil hnil (by rw [h])).1

end ContractDraft
