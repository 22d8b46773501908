import ContractDraft.Proofs.Text.Literal

/-!
# Balanced brackets

Round and curly brackets outside of string literals, as a grammar (`Balanced`) and as a reader that
keeps the open brackets on a stack. The reader ends as it began exactly on balanced text
(`balanced_iff`), and balanced text never touches what is open around it (`Balanced.read`). So
text in brackets that only match across its pieces is judged by reading these pieces.
-/

namespace ContractDraft.Text

/-! ## The grammar -/

/-- The kinds of brackets that group code. -/
inductive Bracket where
  | round
  | curly
  deriving DecidableEq, Repr

namespace Bracket

def opening : Bracket → Char
  | .round => '('
  | .curly => '{'

def closing : Bracket → Char
  | .round => ')'
  | .curly => '}'

end Bracket

/-- Text in which every bracket outside of string literals is matched, every pair encloses balanced
text, and no literal is left open. -/
inductive Balanced : List Char → Prop where
  | nil : Balanced []
  | char {c : Char} {s : List Char} : c ≠ '"' → (∀ b : Bracket, c ≠ b.opening ∧ c ≠ b.closing) →
      Balanced s → Balanced (c :: s)
  | literal {body s : List Char} : LiteralBody body → Balanced s →
      Balanced ('"' :: body ++ '"' :: s)
  | bracket {inner s : List Char} (b : Bracket) : Balanced inner → Balanced s →
      Balanced (b.opening :: inner ++ b.closing :: s)

/-- Balanced texts one behind the other are balanced. -/
theorem Balanced.append {s t : List Char} (hs : Balanced s) (ht : Balanced t) :
    Balanced (s ++ t) := by
  induction hs with
  | nil => exact ht
  | char hquote hbracket _ ih => exact .char hquote hbracket ih
  | literal hbody _ ih =>
    rw [List.append_assoc]
    exact .literal hbody ih
  | bracket b hinner _ _ ih =>
    rw [List.append_assoc]
    exact .bracket b hinner ih

/-- Plain text is balanced. -/
theorem balanced_of_plain {s : List Char} (h : Plain s) : Balanced s := by
  induction s with
  | nil => exact .nil
  | cons c s ih =>
    obtain ⟨hc, hs⟩ := plain_cons.mp h
    simp only [specialChars, List.mem_cons, List.not_mem_nil, or_false, not_or] at hc
    obtain ⟨hquote, hopen, hclose, hcurly, hcurlyClose, -, -⟩ := hc
    refine .char hquote (fun b => ?_) (ih hs)
    cases b with
    | round => exact ⟨hopen, hclose⟩
    | curly => exact ⟨hcurly, hcurlyClose⟩

/-- A quoted text is balanced, whatever is quoted. -/
theorem balanced_quote (s : String) : Balanced (quote s).toList := by
  rw [quote, String.toList_ofList]
  exact .literal (literalBody_escape s.toList) .nil

/-- Whatever is put together from plain text and string literals is balanced. -/
theorem piecewise_balanced : Piecewise Balanced where
  plain _ := balanced_of_plain
  quote := balanced_quote
  append _ _ := .append

/-! ## The reader -/

/-- Where in code a reader is. -/
inductive Mode where
  | code
  | literal
  | escape
  deriving DecidableEq, Repr

/-- A reader of code: where it is, and the open brackets, innermost first. -/
structure Reader where
  mode : Mode
  opened : List Bracket
  deriving DecidableEq, Repr

namespace Reader

/-- A reader of code behind an opening bracket. -/
def push (opened : List Bracket) (b : Bracket) : Option Reader := some ⟨.code, b :: opened⟩

/-- A reader of code behind a closing bracket, which must belong to the innermost open one. -/
def pop (opened : List Bracket) (b : Bracket) : Option Reader :=
  if opened.head? = some b then some ⟨.code, opened.tail⟩ else none

/-- Reads one character. -/
def step : Reader → Char → Option Reader
  | ⟨.code, opened⟩, c =>
    if c = '"' then some ⟨.literal, opened⟩
    else if c = Bracket.round.opening then push opened .round
    else if c = Bracket.curly.opening then push opened .curly
    else if c = Bracket.round.closing then pop opened .round
    else if c = Bracket.curly.closing then pop opened .curly
    else some ⟨.code, opened⟩
  | ⟨.literal, opened⟩, c =>
    if c = '"' then some ⟨.code, opened⟩
    else if c = '\\' then some ⟨.escape, opened⟩
    else if c ∈ lineBreaks then none
    else some ⟨.literal, opened⟩
  | ⟨.escape, opened⟩, c => if c ∈ lineBreaks then none else some ⟨.literal, opened⟩

/-- Reads a text. -/
def read (r : Reader) (s : List Char) : Option Reader := s.foldlM step r

@[simp] theorem read_nil (r : Reader) : r.read [] = some r := rfl

@[simp] theorem read_cons (r : Reader) (c : Char) (s : List Char) :
    r.read (c :: s) = (r.step c).bind fun r => r.read s := rfl

/-- Reading goes on where it stopped. -/
theorem read_append (r : Reader) (s t : List Char) :
    r.read (s ++ t) = (r.read s).bind fun r => r.read t :=
  List.foldlM_append

/-- Characters that mean nothing to a reader of code. -/
theorem step_code_of_ne {c : Char} (hquote : c ≠ '"')
    (hbracket : ∀ b : Bracket, c ≠ b.opening ∧ c ≠ b.closing) (opened : List Bracket) :
    step ⟨.code, opened⟩ c = some ⟨.code, opened⟩ := by
  obtain ⟨hround, hroundClose⟩ := hbracket .round
  obtain ⟨hcurly, hcurlyClose⟩ := hbracket .curly
  rw [step, if_neg hquote, if_neg hround, if_neg hcurly, if_neg hroundClose, if_neg hcurlyClose]

/-- An opening bracket is remembered. -/
theorem step_opening (opened : List Bracket) (b : Bracket) :
    step ⟨.code, opened⟩ b.opening = some ⟨.code, b :: opened⟩ := by
  cases b <;> rfl

/-- A closing bracket takes away the opening one that it belongs to. -/
theorem step_closing (opened : List Bracket) (b : Bracket) :
    step ⟨.code, b :: opened⟩ b.closing = some ⟨.code, opened⟩ := by
  cases b <;> rfl

/-- Inside a literal a reader comes to its end and nowhere else. -/
theorem read_literalBody {body : List Char} (h : LiteralBody body) (opened : List Bracket) :
    read ⟨.literal, opened⟩ body = some ⟨.literal, opened⟩ := by
  induction h with
  | nil => rfl
  | char hquote hback hbreak _ ih =>
    rw [read_cons, step, if_neg hquote, if_neg hback, if_neg hbreak, Option.bind_some, ih]
  | escape hbreak _ ih =>
    rw [read_cons, step, if_neg (by decide), if_pos rfl, Option.bind_some, read_cons, step,
      if_neg hbreak, Option.bind_some, ih]

end Reader

/-- Balanced text changes nothing for a reader, whatever is open around it. -/
theorem Balanced.read {s : List Char} (h : Balanced s) (opened : List Bracket) :
    Reader.read ⟨.code, opened⟩ s = some ⟨.code, opened⟩ := by
  induction h generalizing opened with
  | nil => rfl
  | char hquote hbracket _ ih =>
    rw [Reader.read_cons, Reader.step_code_of_ne hquote hbracket, Option.bind_some, ih]
  | literal hbody _ ih =>
    rw [List.cons_append, Reader.read_cons, Reader.step, if_pos rfl, Option.bind_some,
      Reader.read_append, Reader.read_literalBody hbody, Option.bind_some, Reader.read_cons,
      Reader.step, if_pos rfl, Option.bind_some, ih]
  | bracket b _ _ ihinner ihrest =>
    rw [List.cons_append, Reader.read_cons, Reader.step_opening, Option.bind_some,
      Reader.read_append, ihinner, Option.bind_some, Reader.read_cons, Reader.step_closing,
      Option.bind_some, ihrest]

/-! ## What the reader accepts -/

/-- Text behind some open brackets that closes all of them in turn. -/
def ClosesAll : List Bracket → List Char → Prop
  | [], s => Balanced s
  | b :: opened, s => ∃ inner rest, Balanced inner ∧ s = inner ++ b.closing :: rest ∧
      ClosesAll opened rest

/-- The same for a reader at any place. -/
def Reader.Closes (r : Reader) (s : List Char) : Prop :=
  match r.mode with
  | .code => ClosesAll r.opened s
  | .literal => ∃ body rest, LiteralBody body ∧ s = body ++ '"' :: rest ∧ ClosesAll r.opened rest
  | .escape => ∃ c body rest, c ∉ lineBreaks ∧ LiteralBody body ∧ s = c :: body ++ '"' :: rest ∧
      ClosesAll r.opened rest

/-- Text that may stand before balanced text may stand before text that closes brackets. -/
theorem ClosesAll.prepend {opened : List Bracket} {s : List Char} (h : ClosesAll opened s)
    (before : List Char) (hbefore : ∀ s, Balanced s → Balanced (before ++ s)) :
    ClosesAll opened (before ++ s) := by
  cases opened with
  | nil => exact hbefore s h
  | cons b opened =>
    obtain ⟨inner, rest, hinner, rfl, hrest⟩ := h
    exact ⟨before ++ inner, rest, hbefore inner hinner, by simp, hrest⟩

namespace Reader

/-- A closing bracket is accepted only behind its opening one. -/
theorem eq_cons_of_step_closing {opened : List Bracket} {b : Bracket} {r : Reader}
    (h : step ⟨.code, opened⟩ b.closing = some r) :
    ∃ rest, opened = b :: rest ∧ r = ⟨.code, rest⟩ := by
  have hpop : pop opened b = some r := by
    cases b <;> exact h
  cases opened with
  | nil => cases hpop
  | cons first rest =>
    by_cases hsame : first = b
    · subst hsame
      rw [pop, List.head?_cons, if_pos rfl] at hpop
      exact ⟨rest, rfl, (Option.some.inj hpop).symm⟩
    · rw [pop, List.head?_cons, if_neg (by simpa using hsame)] at hpop
      cases hpop

theorem Closes.step_code {opened : List Bracket} {r : Reader} {c : Char} {s : List Char}
    (hstep : step ⟨.code, opened⟩ c = some r) (h : r.Closes s) :
    ClosesAll opened (c :: s) := by
  by_cases hquote : c = '"'
  · subst hquote
    obtain rfl := Option.some.inj hstep
    obtain ⟨body, rest, hbody, rfl, hrest⟩ := h
    have hliteral := hrest.prepend ('"' :: body ++ ['"'])
      fun s hs => by simpa using Balanced.literal hbody hs
    simpa using hliteral
  by_cases hopening : ∃ b : Bracket, c = b.opening
  · obtain ⟨b, rfl⟩ := hopening
    rw [step_opening] at hstep
    obtain rfl := Option.some.inj hstep
    obtain ⟨inner, rest, hinner, rfl, hrest⟩ := h
    have hpair := hrest.prepend (b.opening :: inner ++ [b.closing])
      fun s hs => by simpa using Balanced.bracket b hinner hs
    simpa using hpair
  by_cases hclosing : ∃ b : Bracket, c = b.closing
  · obtain ⟨b, rfl⟩ := hclosing
    obtain ⟨rest, rfl, rfl⟩ := eq_cons_of_step_closing hstep
    exact ⟨[], s, .nil, rfl, h⟩
  · have hbracket (b : Bracket) : c ≠ b.opening ∧ c ≠ b.closing :=
      ⟨fun heq => hopening ⟨b, heq⟩, fun heq => hclosing ⟨b, heq⟩⟩
    rw [step_code_of_ne hquote hbracket] at hstep
    obtain rfl := Option.some.inj hstep
    exact ClosesAll.prepend h [c] fun s hs => .char hquote hbracket hs

theorem Closes.step_literal {opened : List Bracket} {r : Reader} {c : Char} {s : List Char}
    (hstep : step ⟨.literal, opened⟩ c = some r) (h : r.Closes s) :
    Closes ⟨.literal, opened⟩ (c :: s) := by
  by_cases hquote : c = '"'
  · subst hquote
    obtain rfl := Option.some.inj hstep
    exact ⟨[], s, .nil, rfl, h⟩
  by_cases hback : c = '\\'
  · subst hback
    obtain rfl := Option.some.inj hstep
    obtain ⟨c, body, rest, hbreak, hbody, rfl, hrest⟩ := h
    exact ⟨'\\' :: c :: body, rest, .escape hbreak hbody, rfl, hrest⟩
  rw [step, if_neg hquote, if_neg hback] at hstep
  by_cases hbreak : c ∈ lineBreaks
  · rw [if_pos hbreak] at hstep
    cases hstep
  · rw [if_neg hbreak] at hstep
    obtain rfl := Option.some.inj hstep
    obtain ⟨body, rest, hbody, rfl, hrest⟩ := h
    exact ⟨c :: body, rest, .char hquote hback hbreak hbody, rfl, hrest⟩

theorem Closes.step_escape {opened : List Bracket} {r : Reader} {c : Char} {s : List Char}
    (hstep : step ⟨.escape, opened⟩ c = some r) (h : r.Closes s) :
    Closes ⟨.escape, opened⟩ (c :: s) := by
  rw [step] at hstep
  by_cases hbreak : c ∈ lineBreaks
  · rw [if_pos hbreak] at hstep
    cases hstep
  · rw [if_neg hbreak] at hstep
    obtain rfl := Option.some.inj hstep
    obtain ⟨body, rest, hbody, rfl, hrest⟩ := h
    exact ⟨c, body, rest, hbreak, hbody, rfl, hrest⟩

/-- One step back from a text that closes everything. -/
theorem Closes.step {r r' : Reader} {c : Char} {s : List Char} (hstep : r.step c = some r')
    (h : r'.Closes s) : r.Closes (c :: s) := by
  obtain ⟨mode, opened⟩ := r
  cases mode with
  | code => exact h.step_code hstep
  | literal => exact h.step_literal hstep
  | escape => exact h.step_escape hstep

/-- What a reader reads to the end, closes everything. -/
theorem closes_of_read {r : Reader} {s : List Char} (h : r.read s = some ⟨.code, []⟩) :
    r.Closes s := by
  induction s generalizing r with
  | nil =>
    obtain rfl := Option.some.inj h
    exact .nil
  | cons c s ih =>
    obtain ⟨r', hstep, hread⟩ := Option.bind_eq_some_iff.mp h
    exact (ih hread).step hstep

end Reader

/-- Balanced text is the text that leaves a reader as it began. -/
theorem balanced_iff {s : List Char} :
    Balanced s ↔ Reader.read ⟨.code, []⟩ s = some ⟨.code, []⟩ :=
  ⟨fun h => h.read [], fun h => Reader.closes_of_read h⟩

instance : DecidablePred Balanced := fun _ => decidable_of_iff _ balanced_iff.symm

example : Balanced "call(\"):(\", { x })".toList ∧ ¬ Balanced "call(\")\"".toList := by decide

end ContractDraft.Text
