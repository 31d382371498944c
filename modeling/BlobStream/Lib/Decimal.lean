import Mathlib

/-!
# Decimal texts and separators

Numbers are written in decimal, optionally padded with zeros, and read back as machine integers are:
an optional sign, at least one digit, and a bound that is not exceeded. Keys that hold several parts
are split at the last separator.
-/

namespace Decimal

/-- The value of a text of digits; none when it is empty or has another character. -/
def digits (text : List Char) : Option Nat :=
  if text ≠ [] ∧ text.all Char.isDigit then some (Nat.ofDigitChars 10 text 0) else none

/-- Read an unsigned number up to the limit, with an optional plus sign. -/
def parseNat (limit : Nat) (text : List Char) : Option Nat :=
  (digits (match text with
    | '+' :: rest => rest
    | _ => text)).filter fun value => decide (value ≤ limit)

def signed : List Char → Option Int
  | '-' :: rest => (digits rest).map fun value => -Int.ofNat value
  | '+' :: rest => (digits rest).map Int.ofNat
  | text => (digits text).map Int.ofNat

/-- Read a signed number between the bounds, with an optional sign. -/
def parseInt (low high : Int) (text : List Char) : Option Int :=
  (signed text).filter fun value => decide (low ≤ value ∧ value ≤ high)

def formatNat (value : Nat) : List Char := Nat.toDigits 10 value

/-- Written with at least `width` digits. -/
def formatPadded (width value : Nat) : List Char :=
  List.replicate (width - (formatNat value).length) '0' ++ formatNat value

def formatInt : Int → List Char
  | .ofNat value => formatNat value
  | .negSucc value => '-' :: formatNat (value + 1)

variable {letter : Char}

theorem isDigit_of_mem_formatNat {value : Nat} (member : letter ∈ formatNat value) :
    letter.isDigit = true :=
  Nat.isDigit_of_mem_toDigits (by decide) (by decide) member

theorem isDigit_of_mem_formatPadded {width value : Nat} (member : letter ∈ formatPadded width value) :
    letter.isDigit = true := by
  rcases List.mem_append.mp member with zero | digit
  · rw [(List.mem_replicate.mp zero).2]
    decide
  · exact isDigit_of_mem_formatNat digit

theorem digits_formatPadded (width value : Nat) : digits (formatPadded width value) = some value := by
  have nonempty : formatPadded width value ≠ [] :=
    List.append_ne_nil_of_right_ne_nil _ Nat.toDigits_ne_nil
  unfold digits
  rw [if_pos ⟨nonempty, List.all_eq_true.mpr fun _ => isDigit_of_mem_formatPadded⟩]
  unfold formatPadded formatNat
  rw [Nat.ofDigitChars_append, Nat.ofDigitChars_replicate_zero]
  simp [Nat.ofDigitChars_toDigits]

theorem digits_formatNat (value : Nat) : digits (formatNat value) = some value := by
  have padded := digits_formatPadded 0 value
  rwa [formatPadded, Nat.zero_sub] at padded

theorem head_of_digits {text : List Char} (allDigits : ∀ letter ∈ text, letter.isDigit = true)
    (first : Char) (rest : List Char) (starts : text = first :: rest) :
    first ≠ '+' ∧ first ≠ '-' := by
  have digit := allDigits first (starts ▸ List.mem_cons_self)
  constructor
  · rintro rfl
    exact absurd digit (by decide)
  · rintro rfl
    exact absurd digit (by decide)

theorem parseNat_formatPadded {limit value : Nat} (fits : value ≤ limit) (width : Nat) :
    parseNat limit (formatPadded width value) = some value := by
  have allDigits : ∀ letter ∈ formatPadded width value, letter.isDigit = true :=
    fun _ => isDigit_of_mem_formatPadded
  have unsigned := head_of_digits allDigits
  unfold parseNat
  split
  next rest starts => exact absurd rfl (unsigned _ rest starts).1
  next =>
    rw [digits_formatPadded]
    simp [fits]

theorem signed_formatInt (value : Int) : signed (formatInt value) = some value := by
  cases value with
  | ofNat count =>
    have allDigits : ∀ letter ∈ formatNat count, letter.isDigit = true :=
      fun _ => isDigit_of_mem_formatNat
    have unsigned := head_of_digits allDigits
    show signed (formatNat count) = _
    unfold signed
    split
    next rest starts => exact absurd rfl (unsigned _ rest starts).2
    next rest starts => exact absurd rfl (unsigned _ rest starts).1
    next =>
      rw [digits_formatNat]
      rfl
  | negSucc count =>
    show (digits (formatNat (count + 1))).map _ = _
    rw [digits_formatNat]
    rfl

theorem parseInt_formatInt {low high value : Int} (above : low ≤ value) (below : value ≤ high) :
    parseInt low high (formatInt value) = some value := by
  unfold parseInt
  rw [signed_formatInt]
  simp [above, below]

theorem not_mem_formatInt (value : Int) (notDigit : letter.isDigit = false) (notSign : letter ≠ '-') :
    letter ∉ formatInt value := by
  intro member
  have digit : letter.isDigit = true := by
    cases value with
    | ofNat count => exact isDigit_of_mem_formatNat member
    | negSucc count =>
      rcases List.mem_cons.mp member with sign | digit
      · exact absurd sign notSign
      · exact isDigit_of_mem_formatNat digit
  rw [notDigit] at digit
  cases digit

end Decimal

namespace Text

/-- `rsplit_once`: the parts before and after the last separator. -/
def rsplitOnce (separator : Char) : List Char → Option (List Char × List Char)
  | [] => none
  | letter :: rest =>
    match rsplitOnce separator rest with
    | some (left, right) => some (letter :: left, right)
    | none => if letter = separator then some ([], rest) else none

theorem rsplitOnce_eq_none {separator : Char} {text : List Char} (absent : separator ∉ text) :
    rsplitOnce separator text = none := by
  induction text with
  | nil => rfl
  | cons letter rest ih =>
    obtain ⟨different, absent⟩ := List.ne_and_not_mem_of_not_mem_cons absent
    rw [rsplitOnce, ih absent]
    exact if_neg (Ne.symm different)

/-- A key is split where it was joined when the last part does not contain the separator. -/
theorem rsplitOnce_append {separator : Char} {right : List Char} (absent : separator ∉ right)
    (left : List Char) : rsplitOnce separator (left ++ separator :: right) = some (left, right) := by
  induction left with
  | nil =>
    rw [List.nil_append, rsplitOnce, rsplitOnce_eq_none absent]
    exact if_pos rfl
  | cons letter rest ih => rw [List.cons_append, rsplitOnce, ih]

end Text
