import Mathlib.Data.List.TakeWhile
import WindowCaster.Foundation.Numerals

/-!
# The port on the command line

The server reads its port with `std::stoi` and keeps the low sixteen bits. White space in front,
anything behind the digits and every value of an `int` are accepted, so the server takes more than
the client, which wants a number below `2 ^ 16` and nothing else. Where the client accepts a text,
the server reads the same port, and both have the same one without a text.
-/

namespace WindowCaster.Server.Arguments

open Foundation.Numerals

/-! ## The code -/

/-- The exceptions that `std::stoi` throws. -/
inductive Failure
  | invalidArgument
  | outOfRange
  deriving DecidableEq

/-- `isspace` -/
def isSpace (char : Char) : Bool := char == ' ' || ('\t' ≤ char && char ≤ '\r')

def isDigit (char : Char) : Bool := (toDigit 10 char).isSome

/-- Whether there is a minus sign, and what follows the sign. -/
def splitSign : List Char → Bool × List Char
  | '-' :: rest => (true, rest)
  | '+' :: rest => (false, rest)
  | rest => (false, rest)

/-- The value of the digits as an `int`. -/
def convert (negative : Bool) (digits : List Char) : Except Failure Int32 :=
  match accumulate 10 (if negative then 2 ^ 31 + 1 else 2 ^ 31) 0 digits with
  | none => .error .outOfRange
  | some magnitude => .ok (Int32.ofInt (if negative then -magnitude else magnitude))

/-- `std::stoi`, which does not look at what follows the digits. -/
def stoi (text : List Char) : Except Failure Int32 :=
  let (negative, rest) := splitSign (text.dropWhile isSpace)
  let digits := rest.takeWhile isDigit
  if digits = [] then .error .invalidArgument else convert negative digits

/-- The port in `main`. -/
def port (argv : List (List Char)) : Except Failure UInt16 :=
  match argv with
  | _ :: text :: _ => (stoi text).map fun value ↦ value.toUInt32.toUInt16
  | _ => .ok 12345

/-- `default_value` of the client's `--port` -/
def defaultValue : List Char := ['1', '2', '3', '4', '5']

/-- `Cli::port`, from what stands behind `--port`: the default value is read like any other. -/
def cliPort (parsePort : List Char → Option UInt16) (argument : Option (List Char)) : Option UInt16 :=
  parsePort (argument.getD defaultValue)

/-! ## What is read -/

theorem convert_eq_ok_iff {negative : Bool} {digits : List Char} {value : Int32} :
    convert negative digits = .ok value ↔ ∃ magnitude, Denotes 10 digits magnitude ∧
      value.toInt = if negative then -(magnitude : ℤ) else magnitude := by
  have hbound : 0 < if negative then 2 ^ 31 + 1 else 2 ^ 31 := by
    split <;> decide
  have hlower := value.le_toInt
  have hupper := value.toInt_lt
  unfold convert
  constructor
  · intro h
    split at h
    · cases h
    · next magnitude hread =>
      obtain ⟨hlt, hdenotes⟩ :=
        (accumulate_zero_eq_some_iff (by decide) (by decide) hbound digits).1 hread
      refine ⟨magnitude, hdenotes, ?_⟩
      cases h
      cases negative with
      | false => exact Int32.toInt_ofInt_of_le (by simp) (by simpa using hlt)
      | true => exact Int32.toInt_ofInt_of_le (by simp at hlt ⊢; omega) (by simp; omega)
  · rintro ⟨magnitude, hdenotes, hvalue⟩
    have hlt : magnitude < if negative then 2 ^ 31 + 1 else 2 ^ 31 := by
      cases negative with
      | false => simp at hvalue ⊢; omega
      | true => simp at hvalue ⊢; omega
    rw [(accumulate_zero_eq_some_iff (by decide) (by decide) hbound digits).2 ⟨hlt, hdenotes⟩]
    dsimp only
    rw [← hvalue, Int32.ofInt_toInt]

/-- A sign that `splitSign` takes off. -/
def IsSign (sign : List Char) : Prop := sign = [] ∨ sign = ['+'] ∨ sign = ['-']

theorem splitSign_eq (text : List Char) :
    ∃ sign, IsSign sign ∧ text = sign ++ (splitSign text).2 ∧
      (splitSign text).1 = decide (sign = ['-']) := by
  unfold splitSign
  split
  · exact ⟨['-'], .inr (.inr rfl), rfl, rfl⟩
  · exact ⟨['+'], .inr (.inl rfl), rfl, rfl⟩
  · exact ⟨[], .inl rfl, rfl, rfl⟩

theorem splitSign_append {sign digits : List Char} (hsign : IsSign sign) (hne : digits ≠ [])
    (hdigits : ∀ char ∈ digits, isDigit char) (rest : List Char) :
    splitSign (sign ++ (digits ++ rest)) = (decide (sign = ['-']), digits ++ rest) := by
  obtain rfl | rfl | rfl := hsign
  · obtain ⟨digit, digits, rfl⟩ := List.exists_cons_of_ne_nil hne
    have hdigit := hdigits digit List.mem_cons_self
    have hplus : digit ≠ '+' := by
      rintro rfl
      exact absurd hdigit (by decide)
    have hminus : digit ≠ '-' := by
      rintro rfl
      exact absurd hdigit (by decide)
    simp [splitSign, hplus, hminus]
  · rfl
  · rfl

theorem not_isSpace_of_isDigit {char : Char} (h : isDigit char) : ¬ isSpace char := by
  obtain ⟨digit, hdigit⟩ := Option.isSome_iff_exists.1 h
  obtain ⟨hlt, rfl | rfl⟩ := (toDigit_eq_some_iff (by decide)).1 hdigit
  · revert digit
    decide
  · revert digit
    decide

/-- White space is skipped up to the sign or the first digit. -/
theorem dropWhile_isSpace {spaces sign digits : List Char} (hspaces : ∀ char ∈ spaces, isSpace char)
    (hsign : IsSign sign) (hne : digits ≠ []) (hdigits : ∀ char ∈ digits, isDigit char)
    (rest : List Char) :
    (spaces ++ (sign ++ (digits ++ rest))).dropWhile isSpace = sign ++ (digits ++ rest) := by
  rw [List.dropWhile_append_of_pos hspaces]
  obtain rfl | rfl | rfl := hsign
  · obtain ⟨digit, digits, rfl⟩ := List.exists_cons_of_ne_nil hne
    exact List.dropWhile_cons_of_neg (not_isSpace_of_isDigit (hdigits digit List.mem_cons_self))
  · exact List.dropWhile_cons_of_neg (by decide)
  · exact List.dropWhile_cons_of_neg (by decide)

theorem takeWhile_isDigit {digits rest : List Char} (hdigits : ∀ char ∈ digits, isDigit char)
    (hrest : ∀ char ∈ rest.head?, ¬ isDigit char) : (digits ++ rest).takeWhile isDigit = digits := by
  rw [List.takeWhile_append_of_pos hdigits]
  cases rest with
  | nil => rw [List.takeWhile_nil, List.append_nil]
  | cons char rest => rw [List.takeWhile_cons_of_neg (hrest char rfl), List.append_nil]

/-- `std::stoi` reads the integer behind the white space, as long as there are digits. -/
theorem stoi_eq_ok_iff {text : List Char} {value : Int32} : stoi text = .ok value ↔
    ∃ spaces integer rest, text = spaces ++ integer ++ rest ∧ (∀ char ∈ spaces, isSpace char) ∧
      IsInteger 10 integer value.toInt ∧ ∀ char ∈ rest.head?, ¬ isDigit char := by
  constructor
  · intro h
    obtain ⟨sign, hsign, htext, hnegative⟩ := splitSign_eq (text.dropWhile isSpace)
    set rest := (splitSign (text.dropWhile isSpace)).2
    have hstoi : stoi text = if rest.takeWhile isDigit = [] then .error .invalidArgument
        else convert (splitSign (text.dropWhile isSpace)).1 (rest.takeWhile isDigit) := rfl
    rw [hstoi, hnegative] at h
    split at h
    · cases h
    · next hne =>
      obtain ⟨magnitude, hdenotes, hvalue⟩ := convert_eq_ok_iff.1 h
      refine ⟨text.takeWhile isSpace, sign ++ rest.takeWhile isDigit, rest.dropWhile isDigit, ?_,
        fun char hmem ↦ List.mem_takeWhile_imp hmem,
        ⟨sign, _, magnitude, rfl, hne, hdenotes, ?_⟩, ?_⟩
      · calc
          _ = text.takeWhile isSpace ++ text.dropWhile isSpace := List.takeWhile_append_dropWhile.symm
          _ = _ := by rw [htext, List.append_assoc, List.append_assoc, List.takeWhile_append_dropWhile]
      · obtain rfl | rfl | rfl := hsign
        · exact .inl ⟨.inl rfl, hvalue⟩
        · exact .inl ⟨.inr rfl, hvalue⟩
        · exact .inr ⟨rfl, hvalue⟩
      · intro char hmem
        have hnot := List.head?_dropWhile_not isDigit rest
        rw [Option.mem_def.1 hmem] at hnot
        simpa using hnot
  · rintro ⟨spaces, _, rest, rfl, hspaces, ⟨sign, digits, magnitude, rfl, hne, hdenotes, hvalue⟩, hrest⟩
    have hdigits : ∀ char ∈ digits, isDigit char := fun char hmem ↦
      isSome_toDigit_of_mem (by decide) hdenotes hmem
    have hsign : IsSign sign := by
      obtain ⟨rfl | rfl, -⟩ | ⟨rfl, -⟩ := hvalue
      · exact .inl rfl
      · exact .inr (.inl rfl)
      · exact .inr (.inr rfl)
    have hread : stoi (spaces ++ (sign ++ (digits ++ rest))) =
        convert (decide (sign = ['-'])) digits := by
      unfold stoi
      rw [dropWhile_isSpace hspaces hsign hne hdigits, splitSign_append hsign hne hdigits]
      dsimp only
      rw [takeWhile_isDigit hdigits hrest, if_neg hne]
    rw [List.append_assoc, List.append_assoc, hread, convert_eq_ok_iff]
    refine ⟨magnitude, hdenotes, ?_⟩
    obtain ⟨rfl | rfl, hvalue⟩ | ⟨rfl, hvalue⟩ := hvalue
    · exact hvalue
    · exact hvalue
    · exact hvalue

/-! ## The two programs -/

/-- `static_cast<uint16_t>` keeps the low bits. -/
theorem toNat_cast (value : Int32) :
    (value.toUInt32.toUInt16.toNat : ℤ) = value.toInt % 2 ^ 16 := by
  have hbits : value.toInt = (value.toUInt32.toNat : ℤ).bmod (2 ^ 32) :=
    BitVec.toInt_eq_toNat_bmod value.toBitVec
  rw [hbits, Int.bmod_def, UInt32.toNat_toUInt16]
  omega

theorem port_eq_ok_iff {program text : List Char} {result : UInt16} :
    port [program, text] = .ok result ↔
      ∃ value, stoi text = .ok value ∧ (result.toNat : ℤ) = value.toInt % 2 ^ 16 := by
  have hcast (value : Int32) : value.toUInt32.toUInt16 = result ↔
      (result.toNat : ℤ) = value.toInt % 2 ^ 16 := by
    rw [← toNat_cast, Int.natCast_inj, UInt16.toNat_inj, eq_comm]
  rw [port]
  cases stoi text with
  | error failure => simp [Except.map]
  | ok value => simp [Except.map, hcast]

/-- What the client relies on when it reads a port: the texts that are accepted are the integers in
the range of a port, with their value. -/
def ReadsPorts (parsePort : List Char → Option UInt16) : Prop :=
  ∀ text port, parsePort text = some port ↔ IsInteger 10 text port.toNat

/-- A port text that the client accepts is read as the same port by the server, which reads every
text with an integer at its front, modulo `2 ^ 16`; and without an argument both have 12345. -/
theorem ports_agree (parsePort : List Char → Option UInt16) (hparse : ReadsPorts parsePort)
    (program : List Char) :
    (∀ text result, cliPort parsePort (some text) = some result →
      port [program, text] = .ok result) ∧
    (∀ text result, port [program, text] = .ok result ↔
      ∃ spaces integer rest value, text = spaces ++ integer ++ rest ∧
        (∀ char ∈ spaces, isSpace char) ∧ IsInteger 10 integer value ∧
        (∀ char ∈ rest.head?, ¬ isDigit char) ∧ -2 ^ 31 ≤ value ∧ value < 2 ^ 31 ∧
        (result.toNat : ℤ) = value % 2 ^ 16) ∧
    cliPort parsePort none = some 12345 ∧ port [program] = .ok 12345 := by
  have hport (text : List Char) (result : UInt16) : port [program, text] = .ok result ↔
      ∃ spaces integer rest value, text = spaces ++ integer ++ rest ∧
        (∀ char ∈ spaces, isSpace char) ∧ IsInteger 10 integer value ∧
        (∀ char ∈ rest.head?, ¬ isDigit char) ∧ -2 ^ 31 ≤ value ∧ value < 2 ^ 31 ∧
        (result.toNat : ℤ) = value % 2 ^ 16 := by
    rw [port_eq_ok_iff]
    constructor
    · rintro ⟨value, hread, hresult⟩
      obtain ⟨spaces, integer, rest, htext, hspaces, hinteger, hrest⟩ := stoi_eq_ok_iff.1 hread
      exact ⟨spaces, integer, rest, value.toInt, htext, hspaces, hinteger, hrest, value.le_toInt,
        value.toInt_lt, hresult⟩
    · rintro ⟨spaces, integer, rest, value, htext, hspaces, hinteger, hrest, hlower, hupper, hresult⟩
      have hvalue : (Int32.ofInt value).toInt = value := Int32.toInt_ofInt_of_le hlower hupper
      refine ⟨Int32.ofInt value, stoi_eq_ok_iff.2 ?_, by rw [hvalue, hresult]⟩
      exact ⟨spaces, integer, rest, htext, hspaces, by rwa [hvalue], hrest⟩
  refine ⟨fun text result haccepted ↦ (hport text result).2 ?_, hport, ?_, rfl⟩
  · have hbound := result.toNat_lt
    refine ⟨[], text, [], result.toNat, by simp, by simp, (hparse text result).1 haccepted, by simp, ?_⟩
    omega
  · have hdenotes : Denotes 10 defaultValue 12345 :=
      ((accumulate_zero_eq_some_iff (by decide) (by decide) (by decide) defaultValue).1
        (show accumulate 10 (2 ^ 16) 0 defaultValue = some 12345 by decide)).2
    exact (hparse defaultValue 12345).2
      ⟨[], defaultValue, 12345, rfl, by decide, hdenotes, .inl ⟨.inl rfl, rfl⟩⟩

/-- A parser of ports that reads a 64-bit integer and then looks at its range. -/
def parseRanged : List Char → Option UInt16
  | '-' :: digits =>
    if digits = [] then none
    else (accumulate 10 (2 ^ 63 + 1) 0 digits).bind fun magnitude ↦
      if magnitude = 0 then some 0 else none
  | text => (fromStrRadix 10 (2 ^ 63) text).bind fun value ↦
      if value < 2 ^ 16 then some (UInt16.ofNat value) else none

/-- A text that starts with a sign is no numeral of digits alone. -/
theorem parseRanged_of_isNumeral {text : List Char} {value : ℕ} (h : IsNumeral 10 text value)
    (hvalue : value < 2 ^ 16) : parseRanged text = some (UInt16.ofNat value) := by
  have hread : fromStrRadix 10 (2 ^ 63) text = some value :=
    (fromStrRadix_eq_some_iff (by decide) (by decide) (by decide)).2 ⟨h, by omega⟩
  unfold parseRanged
  split
  · next digits =>
    obtain ⟨sign, rest, htext, rfl | rfl, hne, hdenotes⟩ := h
    · obtain rfl : '-' :: digits = rest := htext
      exact absurd (isSome_toDigit_of_mem (by decide) hdenotes List.mem_cons_self) (by decide)
    · exact absurd (List.cons_eq_cons.1 htext).1 (by decide)
  · rw [hread, Option.bind_some, if_pos hvalue]

theorem readsPorts_parseRanged : ReadsPorts parseRanged := by
  intro text port
  constructor
  · intro hread
    unfold parseRanged at hread
    split at hread
    · next digits =>
      split at hread
      · cases hread
      · next hne =>
        obtain ⟨magnitude, hdigits, hzero⟩ := Option.bind_eq_some_iff.1 hread
        have hdenotes :=
          ((accumulate_zero_eq_some_iff (by decide) (by decide) (by decide) digits).1 hdigits).2
        split at hzero
        · next hmagnitude =>
          obtain rfl := Option.some.inj hzero
          exact ⟨['-'], digits, magnitude, rfl, hne, hdenotes, .inr ⟨rfl, by simp [hmagnitude]⟩⟩
        · cases hzero
    · next text =>
      obtain ⟨value, htext, hsmall⟩ := Option.bind_eq_some_iff.1 hread
      obtain ⟨⟨sign, digits, hsplit, hsign, hne, hdenotes⟩, -⟩ :=
        (fromStrRadix_eq_some_iff (by decide) (by decide) (by decide)).1 htext
      split at hsmall
      · next hlt =>
        obtain rfl := Option.some.inj hsmall
        refine ⟨sign, digits, value, hsplit, hne, hdenotes, .inl ⟨hsign, ?_⟩⟩
        rw [UInt16.toNat_ofNat_of_lt' hlt]
      · cases hsmall
  · rintro ⟨sign, digits, magnitude, rfl, hne, hdenotes, ⟨hsign, hvalue⟩ | ⟨rfl, hvalue⟩⟩
    · obtain rfl : port.toNat = magnitude := Int.natCast_inj.1 hvalue
      have hread := parseRanged_of_isNumeral ⟨sign, digits, rfl, hsign, hne, hdenotes⟩ port.toNat_lt
      rwa [UInt16.ofNat_toNat] at hread
    · have hbound := port.toNat_lt
      obtain rfl : magnitude = 0 := by omega
      have hport : port = 0 := UInt16.toNat_inj.1 (by simpa using hvalue)
      have hread : accumulate 10 (2 ^ 63 + 1) 0 digits = some 0 :=
        (accumulate_zero_eq_some_iff (by decide) (by decide) (by decide) digits).2
          ⟨by decide, hdenotes⟩
      rw [List.singleton_append, parseRanged, if_neg hne, hread, Option.bind_some, if_pos rfl, hport]

theorem ports_agree_plus : port [['s'], ['+', '0', '8', '0']] = .ok 80 :=
  (ports_agree parseRanged readsPorts_parseRanged ['s']).1 _ 80 (by decide)

end WindowCaster.Server.Arguments
