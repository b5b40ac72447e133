import Mathlib.Data.Nat.Digits.Lemmas

/-!
# Numerals

Numbers are printed with capital letters for the digits above nine, and read with checked
arithmetic, which fails as soon as an intermediate result does not fit. Reading accepts digits of
either case, leading zeros and one plus sign, so every printed number that fits is read back.
-/

namespace WindowCaster.Foundation.Numerals

/-! ## Printing and reading -/

/-- The digit with this value, as a capital letter above nine. -/
def upperDigit (digit : ℕ) : Char :=
  if digit < 10 then Char.ofNat ('0'.toNat + digit) else Char.ofNat ('A'.toNat + (digit - 10))

def lowerDigit (digit : ℕ) : Char :=
  if digit < 10 then Char.ofNat ('0'.toNat + digit) else Char.ofNat ('a'.toNat + (digit - 10))

/-- The digits of a number, the most significant one first; zero has one digit. -/
def upperDigits (radix n : ℕ) : List Char :=
  if n = 0 then ['0'] else (Nat.digits radix n).reverse.map upperDigit

/-- The value of a digit or letter. -/
def digitValue (char : Char) : Option ℕ :=
  if '0' ≤ char ∧ char ≤ '9' then some (char.toNat - '0'.toNat)
  else if 'a' ≤ char ∧ char ≤ 'z' then some (char.toNat - 'a'.toNat + 10)
  else if 'A' ≤ char ∧ char ≤ 'Z' then some (char.toNat - 'A'.toNat + 10)
  else none

/-- `char::to_digit` -/
def toDigit (radix : ℕ) (char : Char) : Option ℕ :=
  (digitValue char).filter fun digit ↦ digit < radix

/-- The value, if it is below the bound of the integer type. -/
def checked (bound value : ℕ) : Option ℕ := if value < bound then some value else none

/-- The loop of `from_str_radix` with its two checked operations. -/
def accumulate (radix bound : ℕ) (result : ℕ) : List Char → Option ℕ
  | [] => some result
  | char :: rest => do
    let digit ← toDigit radix char
    let product ← checked bound (result * radix)
    let sum ← checked bound (product + digit)
    accumulate radix bound sum rest

/-- `from_str_radix` of an unsigned type -/
def fromStrRadix (radix bound : ℕ) : List Char → Option ℕ
  | [] => none
  | ['+'] => none
  | ['-'] => none
  | '+' :: digits => accumulate radix bound 0 digits
  | digits => accumulate radix bound 0 digits

/-- The character is a digit of this value, in either case. -/
def IsDigit (radix : ℕ) (char : Char) (digit : ℕ) : Prop :=
  digit < radix ∧ (char = upperDigit digit ∨ char = lowerDigit digit)

/-- The characters are digits, the most significant one first, and have this value. -/
def Denotes (radix : ℕ) (chars : List Char) (value : ℕ) : Prop :=
  ∃ digits, List.Forall₂ (IsDigit radix) chars digits ∧ Nat.ofDigits radix digits.reverse = value

/-- An optional plus sign and at least one digit. -/
def IsNumeral (radix : ℕ) (text : List Char) (value : ℕ) : Prop :=
  ∃ sign digits, text = sign ++ digits ∧ (sign = [] ∨ sign = ['+']) ∧ digits ≠ [] ∧
    Denotes radix digits value

/-- At least one digit behind an optional sign. -/
def IsInteger (radix : ℕ) (text : List Char) (value : ℤ) : Prop :=
  ∃ sign digits magnitude, text = sign ++ digits ∧ digits ≠ [] ∧ Denotes radix digits magnitude ∧
    ((sign = [] ∨ sign = ['+']) ∧ value = magnitude ∨ sign = ['-'] ∧ value = -magnitude)

/-! ## Digits -/

variable {radix bound : ℕ}

theorem digitValue_upperDigit : ∀ digit < 36, digitValue (upperDigit digit) = some digit := by
  decide

theorem digitValue_lowerDigit : ∀ digit < 36, digitValue (lowerDigit digit) = some digit := by
  decide

/-- A character of one of the three ranges is determined by its distance from the first one. -/
theorem eq_ofNat_of_le {first char : Char} (h : first ≤ char) :
    char = Char.ofNat (first.toNat + (char.toNat - first.toNat)) := by
  have hle : first.toNat ≤ char.toNat := h
  rw [Nat.add_sub_cancel' hle, Char.ofNat_toNat]

theorem eq_of_digitValue {char : Char} {digit : ℕ} (h : digitValue char = some digit) :
    char = upperDigit digit ∨ char = lowerDigit digit := by
  unfold digitValue at h
  split at h
  · next hrange =>
    obtain rfl := Option.some.inj h
    have hlt : char.toNat - '0'.toNat < 10 := by
      have hle : char.toNat ≤ '9'.toNat := hrange.2
      have hnine : '9'.toNat = '0'.toNat + 9 := rfl
      omega
    left
    rw [upperDigit, if_pos hlt]
    exact eq_ofNat_of_le hrange.1
  split at h
  · next hrange =>
    obtain rfl := Option.some.inj h
    right
    rw [lowerDigit, if_neg (by omega), Nat.add_sub_cancel]
    exact eq_ofNat_of_le hrange.1
  split at h
  · next hrange =>
    obtain rfl := Option.some.inj h
    left
    rw [upperDigit, if_neg (by omega), Nat.add_sub_cancel]
    exact eq_ofNat_of_le hrange.1
  · cases h

/-- `to_digit` reads exactly the digits of either case. -/
theorem toDigit_eq_some_iff (h : radix ≤ 36) {char : Char} {digit : ℕ} :
    toDigit radix char = some digit ↔ IsDigit radix char digit := by
  rw [toDigit, Option.filter_eq_some_iff, decide_eq_true_iff, and_comm, IsDigit, and_congr_right_iff]
  intro hlt
  constructor
  · exact eq_of_digitValue
  · rintro (rfl | rfl)
    · exact digitValue_upperDigit digit (by omega)
    · exact digitValue_lowerDigit digit (by omega)

/-! ## What is read -/

@[simp]
theorem checked_eq_some_iff {value result : ℕ} :
    checked bound value = some result ↔ value < bound ∧ value = result := by
  simp [checked]

/-- The rest of the digits after `result`, as one number. -/
theorem ofDigits_append_cons (digits : List ℕ) (digit result : ℕ) :
    Nat.ofDigits radix (digits.reverse ++ [result * radix + digit]) =
      Nat.ofDigits radix ((digit :: digits).reverse ++ [result]) := by
  rw [List.reverse_cons, List.append_assoc, List.singleton_append, Nat.ofDigits_append,
    Nat.ofDigits_append, Nat.ofDigits_singleton, Nat.ofDigits_cons, Nat.ofDigits_singleton,
    mul_comm result, add_comm digit]

theorem le_ofDigits_append (h : 0 < radix) (digits : List ℕ) (result : ℕ) :
    result ≤ Nat.ofDigits radix (digits ++ [result]) := by
  rw [Nat.ofDigits_append, Nat.ofDigits_singleton]
  calc
    result ≤ radix ^ digits.length * result := Nat.le_mul_of_pos_left _ (Nat.pow_pos h)
    _ ≤ _ := Nat.le_add_left _ _

/-- The checks pass exactly if the final value fits, because the value only grows. -/
theorem accumulate_eq_some_iff (h : 0 < radix) (hle : radix ≤ 36) {result value : ℕ}
    (hresult : result < bound) (chars : List Char) : accumulate radix bound result chars = some value ↔
      value < bound ∧ ∃ digits, List.Forall₂ (IsDigit radix) chars digits ∧
        Nat.ofDigits radix (digits.reverse ++ [result]) = value := by
  induction chars generalizing result with
  | nil =>
    constructor
    · rintro ⟨⟩
      exact ⟨hresult, [], .nil, Nat.ofDigits_singleton⟩
    · rintro ⟨-, digits, hdigits, rfl⟩
      cases hdigits
      rw [accumulate, List.reverse_nil, List.nil_append, Nat.ofDigits_singleton]
  | cons char chars ih =>
    constructor
    · intro hread
      rw [accumulate] at hread
      obtain ⟨digit, hdigit, hread⟩ := Option.bind_eq_some_iff.1 hread
      obtain ⟨product, hproduct, hread⟩ := Option.bind_eq_some_iff.1 hread
      obtain ⟨sum, hsum, hread⟩ := Option.bind_eq_some_iff.1 hread
      obtain ⟨-, rfl⟩ := checked_eq_some_iff.1 hproduct
      obtain ⟨hlt, rfl⟩ := checked_eq_some_iff.1 hsum
      obtain ⟨hvalue, digits, hdigits, hrest⟩ := (ih hlt).1 hread
      rw [ofDigits_append_cons] at hrest
      exact ⟨hvalue, digit :: digits, .cons ((toDigit_eq_some_iff hle).1 hdigit) hdigits, hrest⟩
    · rintro ⟨hvalue, digits, hdigits, hrest⟩
      cases hdigits with
      | @cons _ digit _ digits hdigit hdigits =>
        rw [← ofDigits_append_cons] at hrest
        have hsum : result * radix + digit < bound := by
          apply Nat.lt_of_le_of_lt _ hvalue
          rw [← hrest]
          exact le_ofDigits_append h _ _
        have hproduct : result * radix < bound := Nat.lt_of_le_of_lt (Nat.le_add_right _ _) hsum
        rw [accumulate, (toDigit_eq_some_iff hle).2 hdigit]
        simp only [Option.bind_eq_bind, Option.bind_some, checked, if_pos hproduct, if_pos hsum]
        exact (ih hsum).2 ⟨hvalue, digits, hdigits, hrest⟩

theorem accumulate_zero_eq_some_iff (h : 0 < radix) (hle : radix ≤ 36) (hbound : 0 < bound)
    {value : ℕ} (chars : List Char) :
    accumulate radix bound 0 chars = some value ↔ value < bound ∧ Denotes radix chars value := by
  rw [accumulate_eq_some_iff h hle hbound]
  simp only [Nat.ofDigits_append_zero, Denotes]

theorem toDigit_plus : toDigit radix '+' = none := rfl

theorem toDigit_minus : toDigit radix '-' = none := rfl

theorem isSome_toDigit_of_mem (hle : radix ≤ 36) {chars : List Char} {value : ℕ}
    (h : Denotes radix chars value) {char : Char} (hmem : char ∈ chars) :
    (toDigit radix char).isSome := by
  obtain ⟨digits, hdigits, -⟩ := h
  induction hdigits with
  | nil => cases hmem
  | cons hdigit _ ih =>
    obtain rfl | hmem := List.mem_cons.1 hmem
    · rw [(toDigit_eq_some_iff hle).2 hdigit, Option.isSome_some]
    · exact ih hmem

theorem not_denotes_cons (hle : radix ≤ 36) {char : Char} (h : toDigit radix char = none)
    (chars : List Char) (value : ℕ) : ¬Denotes radix (char :: chars) value := by
  intro hdenotes
  have hsome := isSome_toDigit_of_mem hle hdenotes List.mem_cons_self
  rw [h] at hsome
  cases hsome

/-- A text without a sign is a numeral if it has digits only. -/
theorem isNumeral_iff_of_ne_plus {char : Char} (h : char ≠ '+') {chars : List Char} {value : ℕ} :
    IsNumeral radix (char :: chars) value ↔ Denotes radix (char :: chars) value := by
  constructor
  · rintro ⟨sign, digits, htext, rfl | rfl, -, hdenotes⟩
    · rwa [htext]
    · exact absurd (List.cons_eq_cons.1 htext).1 h
  · intro hdenotes
    exact ⟨[], _, rfl, .inl rfl, List.cons_ne_nil _ _, hdenotes⟩

theorem isNumeral_plus_iff (hle : radix ≤ 36) {chars : List Char} {value : ℕ} :
    IsNumeral radix ('+' :: chars) value ↔ chars ≠ [] ∧ Denotes radix chars value := by
  constructor
  · rintro ⟨sign, digits, htext, rfl | rfl, hne, hdenotes⟩
    · rw [List.nil_append] at htext
      rw [← htext] at hdenotes
      exact absurd hdenotes (not_denotes_cons hle toDigit_plus _ _)
    · rw [(List.cons_eq_cons.1 htext).2]
      exact ⟨hne, hdenotes⟩
  · rintro ⟨hne, hdenotes⟩
    exact ⟨['+'], chars, rfl, .inr rfl, hne, hdenotes⟩

/-- `from_str_radix` accepts exactly the numerals whose value fits. -/
theorem fromStrRadix_eq_some_iff (h : 0 < radix) (hle : radix ≤ 36) (hbound : 0 < bound)
    {text : List Char} {value : ℕ} : fromStrRadix radix bound text = some value ↔
      IsNumeral radix text value ∧ value < bound := by
  rw [and_comm]
  unfold fromStrRadix
  split
  · refine iff_of_false (by simp) ?_
    rintro ⟨-, sign, digits, htext, -, hne, -⟩
    exact hne (List.append_eq_nil_iff.1 htext.symm).2
  · rw [isNumeral_plus_iff hle]
    simp
  · rw [isNumeral_iff_of_ne_plus (by decide)]
    simp [not_denotes_cons hle toDigit_minus]
  · next digits hne _ =>
    rw [accumulate_zero_eq_some_iff h hle hbound, isNumeral_plus_iff hle]
    simp_all
  · next hnil _ _ hplus =>
    rw [accumulate_zero_eq_some_iff h hle hbound]
    cases text with
    | nil => exact absurd rfl hnil
    | cons char chars =>
      rw [isNumeral_iff_of_ne_plus]
      rintro rfl
      exact hplus chars rfl

/-! ## What is printed -/

theorem denotes_upperDigits (hradix : 1 < radix) (n : ℕ) : Denotes radix (upperDigits radix n) n := by
  unfold upperDigits
  split
  · next hn =>
    have hzero : IsDigit radix '0' 0 := ⟨by omega, .inl rfl⟩
    refine ⟨[0], .cons hzero .nil, ?_⟩
    rw [hn, List.reverse_singleton, Nat.ofDigits_singleton]
  · refine ⟨(Nat.digits radix n).reverse, ?_, ?_⟩
    · rw [List.forall₂_map_left_iff, List.forall₂_same]
      intro digit hdigit
      exact ⟨Nat.digits_lt_base hradix (List.mem_reverse.1 hdigit), .inl rfl⟩
    · rw [List.reverse_reverse, Nat.ofDigits_digits]

theorem upperDigits_ne_nil (radix n : ℕ) : upperDigits radix n ≠ [] := by
  unfold upperDigits
  split
  · exact List.cons_ne_nil _ _
  · next hn => simpa [Nat.digits_eq_nil_iff_eq_zero] using hn

theorem isNumeral_upperDigits (hradix : 1 < radix) (n : ℕ) :
    IsNumeral radix (upperDigits radix n) n :=
  ⟨[], _, rfl, .inl rfl, upperDigits_ne_nil radix n, denotes_upperDigits hradix n⟩

end WindowCaster.Foundation.Numerals
