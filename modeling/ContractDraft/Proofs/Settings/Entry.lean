import ContractDraft.Proofs.Json.Printer
import ContractDraft.Settings.Entry

/-!
# Written settings are texts of the grammar

Which texts say what an entry says. The grammar is that of documents, without a comma at the end of a
table: strings with any escapes, counts without leading zeros, and blanks wherever documents may have
them. Both layouts of an entry are such texts (`entryText_compact`, `entryText_pretty`), and what is
shown of all texts of an entry holds for both.
-/

namespace ContractDraft

/-- A key, a colon and a text that may depend on the key. -/
inductive KeyedText {α : Type} (Text : String → List Char → α → Prop) :
    List Char → String × α → Prop where
  | keyed {s before after t : List Char} {key : String} {a : α} : StringText s key →
      Blanks before → Blanks after → Text key t a →
      KeyedText Text (s ++ before ++ ':' :: (after ++ t)) (key, a)

/-- The texts of an entry. -/
inductive EntryText : List Char → Entry → Prop where
  | null : EntryText ['n', 'u', 'l', 'l'] .null
  | true : EntryText ['t', 'r', 'u', 'e'] (.flag true)
  | false : EntryText ['f', 'a', 'l', 's', 'e'] (.flag false)
  | count {s : List Char} {n : UInt64} : WholeText s → Numeral.digitsValue s = n.toNat →
      EntryText s (.count n)
  | text {s : List Char} {text : String} : StringText s text → EntryText s (.text text)
  | table {s : List Char} {members : List (String × Entry)} :
      EnclosedText (KeyedText fun _ => EntryText) false s members →
      EntryText ('{' :: s ++ ['}']) (.table members)

theorem MembersText.append_blanks {α : Type} {Text : List Char → α → Prop} {s after : List Char}
    {as : List α} (h : MembersText Text s as) (hafter : Blanks after) :
    MembersText Text (s ++ after) as := by
  induction h with
  | last hbefore ha hlast =>
    rw [List.append_assoc]
    exact .last hbefore ha (hlast.append hafter)
  | cons hbefore ha hbehind _ ih =>
    rw [List.append_assoc, List.cons_append]
    exact .cons hbefore ha hbehind ih

namespace Entry

/-- The entry has members. -/
def isTable : Entry → Bool
  | .table _ => true
  | _ => false

/-! ## On one line -/

/-- An entry without members on one line. -/
theorem entryText_compact_leaf {entry : Entry} (h : entry.isTable = false) :
    EntryText entry.compact.toList entry := by
  cases entry with
  | null => exact .null
  | flag b =>
    cases b with
    | true => exact .true
    | false => exact .false
  | count n =>
    have hdigits : (toString n).toList = Nat.toDigits 10 n.toNat := by
      show (toString n.toNat).toList = _
      rw [Nat.toString_eq_ofList_toDigits, String.toList_ofList]
    rw [compact, hdigits]
    exact .count (wholeText_toDigits _) (digitsValue_toDigits _)
  | text s => exact .text (stringText_writeString s)
  | table members => cases h

/-- A quoted key, a colon, blanks and a text behind them. -/
theorem keyedText_writeString {α : Type} {Text : String → List Char → α → Prop} (gap : String)
    {text key : String} {a : α} (hgap : Blanks gap.toList) (h : Text key text.toList a) :
    KeyedText Text (writeString key ++ (":" ++ gap) ++ text).toList (key, a) := by
  simpa using KeyedText.keyed (stringText_writeString key) blanks_nil hgap h

mutual

theorem entryText_compact : ∀ entry : Entry, EntryText entry.compact.toList entry
  | .null => entryText_compact_leaf rfl
  | .flag _ => entryText_compact_leaf rfl
  | .count _ => entryText_compact_leaf rfl
  | .text _ => entryText_compact_leaf rfl
  | .table members => by
    have henclosed := enclosedText_intercalate (keyedText_compactMembers members) false
    rw [compact, String.toList_append, String.toList_append]
    exact .table henclosed

theorem keyedText_compactMembers : ∀ members : List (String × Entry),
    List.Forall₂ (fun text member => KeyedText (fun _ => EntryText) text.toList member)
      (compactMembers members) members
  | [] => .nil
  | (_, entry) :: rest =>
    .cons (keyedText_writeString "" blanks_nil (entryText_compact entry))
      (keyedText_compactMembers rest)

end

/-! ## One member to a line -/

theorem blanks_newLine (level : ℕ) : Blanks (newLine level).toList := by
  rw [newLine, String.toList_ofList]
  exact List.forall_mem_cons.mpr ⟨by decide, fun c hc => by simp [List.eq_of_mem_replicate hc]⟩

theorem blanks_space : Blanks " ".toList := by simp [Blanks]

mutual

theorem entryText_prettyAt : ∀ (level : ℕ) (entry : Entry),
    EntryText (entry.prettyAt level).toList entry
  | _, .null => entryText_compact_leaf rfl
  | _, .flag _ => entryText_compact_leaf rfl
  | _, .count _ => entryText_compact_leaf rfl
  | _, .text _ => entryText_compact_leaf rfl
  | _, .table [] => by
    rw [prettyAt]
    exact .table (.empty blanks_nil)
  | level, .table ((key, entry) :: rest) => by
    have hmembers := keyedText_prettyMembers (level + 1) ((key, entry) :: rest)
    rw [prettyMembers] at hmembers
    have hrow := membersText_intercalate _ (blanks_newLine (level + 1)) hmembers
    have hlines := (hrow.blanks_append (blanks_newLine (level + 1))).append_blanks
      (blanks_newLine level)
    rw [prettyAt, prettyMembers]
    · simpa using EntryText.table (.members hlines)
    · exact List.cons_ne_nil _ _

theorem keyedText_prettyMembers : ∀ (level : ℕ) (members : List (String × Entry)),
    List.Forall₂ (fun text member => KeyedText (fun _ => EntryText) text.toList member)
      (prettyMembers level members) members
  | _, [] => .nil
  | level, (_, entry) :: rest =>
    .cons (keyedText_writeString " " blanks_space (entryText_prettyAt level entry))
      (keyedText_prettyMembers level rest)

end

theorem entryText_pretty (entry : Entry) : EntryText entry.pretty.toList entry :=
  entryText_prettyAt 0 entry

end Entry
end ContractDraft
