import ContractDraft.Json.Reader
import ContractDraft.Settings.Estimate

/-!
# Reading single settings

Settings are read for a known type, from the left, and the first thing that is wrong decides the
fault: the text ends, the text is no JSON, or it is JSON of another type. Members that are not known
are passed over; they must be JSON but their strings and numbers need not have a value.
-/

namespace ContractDraft

/-- What can be wrong with a text of settings. -/
inductive SettingsFault where
  /-- The text ends too early. -/
  | endOfText
  /-- The text is no JSON, or more than was asked for. -/
  | malformed
  /-- The text is JSON, but not of the type that was asked for. -/
  | mismatched
  deriving DecidableEq, Repr

namespace Settings

/-- The fault of a text that should go on with something else. -/
def faultAt : List Char → SettingsFault
  | [] => .endOfText
  | _ :: _ => .malformed

/-- Takes the given letters. -/
def takeLetters : List Char → List Char → Except SettingsFault (List Char)
  | [], s => .ok s
  | _ :: _, [] => .error .endOfText
  | w :: letters, c :: s => if c = w then takeLetters letters s else .error .malformed

/-- Takes four hexadecimal digits. With fewer than four bytes left the text has ended, whatever they
are. -/
def takeHex4 : List Char → Except SettingsFault (Nat × List Char)
  | a :: b :: c :: d :: s =>
    match Text.hexValue? a, Text.hexValue? b, Text.hexValue? c, Text.hexValue? d with
    | some i, some j, some k, some l => .ok (((i * 16 + j) * 16 + k) * 16 + l, s)
    | _, _, _, _ => .error .malformed
  | s => if (String.ofList s).utf8ByteSize < 4 then .error .endOfText else .error .malformed

/-- Takes what follows `\u` where the number must stand for a character: surrogates come in
pairs. -/
def takePairedEscape (s : List Char) : Except SettingsFault (Char × List Char) := do
  let (n, s) ← takeHex4 s
  if isLowSurrogate n then .error .malformed
  else if isHighSurrogate n then
    match s with
    | '\\' :: 'u' :: s =>
      let (low, s) ← takeHex4 s
      if isLowSurrogate low then .ok (joinSurrogates n low, s) else .error .malformed
    | [] | ['\\'] => .error .endOfText
    | _ => .error .malformed
  else .ok (Char.ofNat n, s)

/-- Takes what follows a backslash. If `known` is false the string is passed over and any number may
stand in an escape. -/
def takeEscape (known : Bool) : List Char → Except SettingsFault (Char × List Char)
  | [] => .error .endOfText
  | 'u' :: s =>
    if known then takePairedEscape s
    else do
      let (n, s) ← takeHex4 s
      .ok (Char.ofNat n, s)
  | c :: s =>
    match simpleEscape? c with
    | some decoded => .ok (decoded, s)
    | none => .error .malformed

/-- Takes a string up to its closing quote. Every round takes a character, so `fuel` need only reach
the length of the text. -/
def takeStringBody (known : Bool) :
    Nat → List Char → Except SettingsFault (List Char × List Char)
  | 0, _ => .error .endOfText
  | _ + 1, [] => .error .endOfText
  | fuel + 1, c :: s =>
    if c = '"' then .ok ([], s)
    else if c = '\\' then do
      let (decoded, s) ← takeEscape known s
      let (chars, s) ← takeStringBody known fuel s
      .ok (decoded :: chars, s)
    else if c.toNat < 0x20 then .error .malformed
    else do
      let (chars, s) ← takeStringBody known fuel s
      .ok (c :: chars, s)

/-- Takes a string whose opening quote has been taken. -/
def takeString (known : Bool) (s : List Char) : Except SettingsFault (String × List Char) := do
  let (chars, s) ← takeStringBody known s.length s
  .ok (String.ofList chars, s)

/-- Takes digits, of which there must be one. `ended` is the fault of a text that ends here. -/
def takeDigits (ended : SettingsFault) (s : List Char) :
    Except SettingsFault (List Char × List Char) :=
  match Numeral.someDigits? s with
  | some (digits, s) => .ok (digits, s)
  | none => .error (if s.isEmpty then ended else .malformed)

/-- Takes the whole part of a number: a single zero, or digits that begin with another digit. -/
def takeWhole (ended : SettingsFault) :
    List Char → Except SettingsFault (List Char × List Char)
  | '0' :: s =>
    if (s.head?.map Char.isDigit).getD false then .error .malformed else .ok (['0'], s)
  | s => takeDigits ended s

/-- Takes the fraction of a number, if there is a point. -/
def takeFraction (ended : SettingsFault) :
    List Char → Except SettingsFault (Option (List Char) × List Char)
  | '.' :: s => do
    let (digits, s) ← takeDigits ended s
    .ok (some digits, s)
  | s => .ok (none, s)

/-- Takes the exponent of a number, if there is a mark. -/
def takeExponent (ended : SettingsFault) :
    List Char → Except SettingsFault (Option Int × List Char)
  | [] => .ok (none, [])
  | c :: s =>
    if c = 'e' ∨ c = 'E' then do
      let (negative, s) := match s with
        | '+' :: s => (false, s)
        | '-' :: s => (true, s)
        | s => (false, s)
      let (digits, s) ← takeDigits ended s
      let n : Int := Numeral.digitsValue digits
      .ok (some (if negative then -n else n), s)
    else .ok (none, c :: s)

/-- Takes a number literal. -/
def takeNumeral (ended : SettingsFault) (s : List Char) :
    Except SettingsFault (Numeral × List Char) := do
  let (negative, s) := Numeral.sign s
  let (whole, s) ← takeWhole ended s
  let (fraction, s) ← takeFraction ended s
  let (exponent, s) ← takeExponent ended s
  .ok (⟨negative, whole, fraction, exponent⟩, s)

/-- Takes a number literal whose value is asked for: it must not be too large to have one. -/
def takeNumber (s : List Char) : Except SettingsFault (Numeral × List Char) := do
  let (n, s) ← takeNumeral .endOfText s
  if n.isTooLarge then .error .malformed else .ok (n, s)

/-- Whether a number literal begins with this character. -/
def beginsNumber (c : Char) : Bool :=
  c = '-' || c.isDigit

/-- The fault of a value of another type than was asked for. A scalar is read first, since its own
faults stand further left than its end. -/
def mismatch : List Char → SettingsFault
  | [] => .endOfText
  | c :: s =>
    let fault (outcome : Except SettingsFault (List Char)) : SettingsFault :=
      match outcome with
      | .ok _ => .mismatched
      | .error fault => fault
    if c = 'n' then fault (takeLetters "ull".toList s)
    else if c = 't' then fault (takeLetters "rue".toList s)
    else if c = 'f' then fault (takeLetters "alse".toList s)
    else if c = '"' then fault ((takeString true s).map (·.2))
    else if beginsNumber c then fault ((takeNumber (c :: s)).map (·.2))
    else if c = '[' ∨ c = '{' then .mismatched
    else .malformed

/-- Reads a string. -/
def readText (s : List Char) : Except SettingsFault (String × List Char) :=
  match skipBlanks s with
  | '"' :: s => takeString true s
  | s => .error (mismatch s)

/-- Reads a string or `null`. -/
def readOptionalText (s : List Char) : Except SettingsFault (Option String × List Char) :=
  match skipBlanks s with
  | 'n' :: s => do
    let s ← takeLetters "ull".toList s
    .ok (none, s)
  | s => do
    let (text, s) ← readText s
    .ok (some text, s)

/-- Reads a flag. -/
def readFlag (s : List Char) : Except SettingsFault (Bool × List Char) :=
  match skipBlanks s with
  | 't' :: s => do
    let s ← takeLetters "rue".toList s
    .ok (true, s)
  | 'f' :: s => do
    let s ← takeLetters "alse".toList s
    .ok (false, s)
  | s => .error (mismatch s)

/-- The count that a number literal writes: no sign, no fraction, no exponent, below `2 ^ 64`. -/
def count? (n : Numeral) : Option UInt64 :=
  let value := Numeral.digitsValue n.whole
  if n.negative ∨ n.fraction.isSome ∨ n.exponent.isSome ∨ UInt64.size ≤ value then none
  else some (UInt64.ofNat value)

/-- Reads a count. -/
def readCount (s : List Char) : Except SettingsFault (UInt64 × List Char) :=
  match skipBlanks s with
  | [] => .error .endOfText
  | c :: s =>
    if beginsNumber c then do
      let (n, s) ← takeNumber (c :: s)
      match count? n with
      | some value => .ok (value, s)
      | none => .error .mismatched
    else .error (mismatch (c :: s))

/-! ## Passing over values -/

/-- Passes over members up to the closing bracket. There is at least one. Every round takes a
character, so `fuel` need only exceed the length of the text. -/
def skipMembers (close : Char) (member : List Char → Except SettingsFault (List Char)) :
    Nat → List Char → Except SettingsFault (List Char)
  | 0, s => .error (faultAt s)
  | fuel + 1, s => do
    let s ← member s
    match skipBlanks s with
    | [] => .error .endOfText
    | c :: s =>
      if c = ',' then skipMembers close member fuel s
      else if c = close then .ok s
      else .error .malformed

/-- Passes over what follows an opening bracket. -/
def skipEnclosed (bound : Nat) (close : Char)
    (member : List Char → Except SettingsFault (List Char)) (s : List Char) :
    Except SettingsFault (List Char) :=
  match skipBlanks s with
  | [] => .error .endOfText
  | c :: s => if c = close then .ok s else skipMembers close member bound (c :: s)

/-- Passes over a key, a colon and a value. -/
def skipField (value : List Char → Except SettingsFault (List Char)) (s : List Char) :
    Except SettingsFault (List Char) :=
  match skipBlanks s with
  | '"' :: s => do
    let (_, s) ← takeString false s
    match skipBlanks s with
    | ':' :: s => value s
    | s => .error (faultAt s)
  | s => .error (faultAt s)

/-- Passes over a value with at most `room` levels of brackets, in a text shorter than `bound`. -/
def skipValue (bound : Nat) : Nat → List Char → Except SettingsFault (List Char)
  | 0, s => .error (faultAt s)
  | room + 1, s =>
    match skipBlanks s with
    | [] => .error .endOfText
    | c :: s =>
      if c = 'n' then takeLetters "ull".toList s
      else if c = 't' then takeLetters "rue".toList s
      else if c = 'f' then takeLetters "alse".toList s
      else if c = '"' then (takeString false s).map (·.2)
      else if beginsNumber c then (takeNumeral .malformed (c :: s)).map (·.2)
      else if c = '[' then skipEnclosed bound ']' (skipValue bound room) s
      else if c = '{' then skipEnclosed bound '}' (skipField (skipValue bound room)) s
      else .error .malformed

end Settings
end ContractDraft
