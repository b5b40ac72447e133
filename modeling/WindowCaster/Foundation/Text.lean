import Mathlib.Algebra.Ring.Nat
import Mathlib.Data.List.Basic

/-!
# Byte strings and text

Strings and their UTF-8 bytes, with a reader that rejects what is not well formed and one that
replaces it, and UTF-16 units, whose decoding turns a surrogate without its partner into the
replacement character. Decoding undoes the encoding, and a decoded text needs at most three bytes for
each unit.
-/

namespace WindowCaster.Foundation.Text

abbrev Bytes := List UInt8

/-! ## UTF-8 -/

/-- The bytes of a string. -/
def utf8 (text : String) : Bytes := text.toByteArray.data.toList

/-- The string with these bytes, if they are well formed. -/
def readUtf8 (bytes : Bytes) : Option String := String.fromUTF8? ⟨bytes.toArray⟩

@[simp]
theorem readUtf8_utf8 (text : String) : readUtf8 (utf8 text) = some text := by
  have hbytes : (⟨(utf8 text).toArray⟩ : ByteArray) = text.toByteArray := by
    simp [utf8]
  simp [readUtf8, hbytes, String.fromUTF8?, text.isValidUTF8, String.fromUTF8]

@[simp]
theorem utf8_empty : utf8 "" = [] := by
  simp [utf8]

theorem utf8_eq_nil {text : String} : utf8 text = [] ↔ text = "" := by
  constructor
  · intro h
    have hread := readUtf8_utf8 text
    rw [h, ← utf8_empty, readUtf8_utf8] at hread
    exact (Option.some.inj hread).symm
  · rintro rfl
    exact utf8_empty

theorem utf8_ofList (chars : List Char) :
    utf8 (String.ofList chars) = chars.flatMap String.utf8EncodeChar := by
  simp [utf8, List.utf8Encode]

/-! ## Bytes that may not be well formed -/

def isContinuation (byte : UInt8) : Bool := 0x80 ≤ byte && byte < 0xC0

/-- The number of bytes that a first byte announces; no character begins with any other byte. -/
def utf8CharWidth (first : UInt8) : ℕ :=
  if first < 0x80 then 1
  else if 0xC2 ≤ first && first < 0xE0 then 2
  else if 0xE0 ≤ first && first < 0xF0 then 3
  else if 0xF0 ≤ first && first < 0xF5 then 4
  else 0

/-- No overlong forms, no surrogates, nothing above `0x10FFFF`. -/
def isSecond (first second : UInt8) : Bool :=
  if first = 0xE0 then 0xA0 ≤ second && second < 0xC0
  else if first = 0xED then 0x80 ≤ second && second < 0xA0
  else if first = 0xF0 then 0x90 ≤ second && second < 0xC0
  else if first = 0xF4 then 0x80 ≤ second && second < 0x90
  else isContinuation second

/-- How many of the next bytes go on with a character that has this first byte. -/
def continued (first : UInt8) : Bytes → ℕ
  | [] => 0
  | second :: rest =>
    if 2 ≤ utf8CharWidth first && isSecond first second then
      1 + ((rest.take (utf8CharWidth first - 2)).takeWhile isContinuation).length
    else 0

/-- The characters of the bytes; each beginning of a character that is not finished becomes one
replacement character. -/
def lossyChars : Bytes → List Char
  | [] => []
  | first :: rest =>
    let count := continued first rest
    let text := if count + 1 = utf8CharWidth first then readUtf8 (first :: rest.take count) else none
    text.elim [Char.ofNat 0xFFFD] String.toList ++ lossyChars (rest.drop count)
termination_by bytes => bytes.length
decreasing_by
  rw [List.length_drop, List.length_cons]
  omega

/-- `String::from_utf8_lossy` -/
def fromUtf8Lossy (bytes : Bytes) : String :=
  (readUtf8 bytes).getD (String.ofList (lossyChars bytes))

@[simp]
theorem fromUtf8Lossy_utf8 (text : String) : fromUtf8Lossy (utf8 text) = text := by
  rw [fromUtf8Lossy, readUtf8_utf8, Option.getD_some]

/-! ## UTF-16 -/

def isHighSurrogate (unit : UInt16) : Bool := 0xD800 ≤ unit.toNat && unit.toNat < 0xDC00

def isLowSurrogate (unit : UInt16) : Bool := 0xDC00 ≤ unit.toNat && unit.toNat < 0xE000

/-- The character of a unit that is not part of a pair. -/
def decodeUnit (unit : UInt16) : Char :=
  if isHighSurrogate unit || isLowSurrogate unit then Char.ofNat 0xFFFD else Char.ofNat unit.toNat

def decodePair (high low : UInt16) : Char :=
  Char.ofNat (0x10000 + (high.toNat - 0xD800) * 0x400 + (low.toNat - 0xDC00))

def decodeUtf16 : List UInt16 → List Char
  | [] => []
  | [unit] => [decodeUnit unit]
  | high :: low :: rest =>
    if isHighSurrogate high && isLowSurrogate low then decodePair high low :: decodeUtf16 rest
    else decodeUnit high :: decodeUtf16 (low :: rest)

/-- One unit, or a surrogate pair above `0xFFFF`. -/
def encodeUtf16Char (char : Char) : List UInt16 :=
  if char.toNat < 0x10000 then [UInt16.ofNat char.toNat]
  else [UInt16.ofNat (0xD800 + (char.toNat - 0x10000) / 0x400),
    UInt16.ofNat (0xDC00 + (char.toNat - 0x10000) % 0x400)]

/-- The units of a text; the texts written like this are the well-formed ones. -/
def encodeUtf16 (text : List Char) : List UInt16 := text.flatMap encodeUtf16Char

theorem decodeUtf16_cons {unit : UInt16} (h : isHighSurrogate unit = false) (rest : List UInt16) :
    decodeUtf16 (unit :: rest) = decodeUnit unit :: decodeUtf16 rest := by
  cases rest with
  | nil => rfl
  | cons low rest => rw [decodeUtf16, h, Bool.false_and, if_neg Bool.false_ne_true]

theorem decodeUtf16_encodeUtf16Char (char : Char) (rest : List UInt16) :
    decodeUtf16 (encodeUtf16Char char ++ rest) = char :: decodeUtf16 rest := by
  have hvalid : char.toNat < 0xD800 ∨ 0xDFFF < char.toNat ∧ char.toNat < 0x110000 := char.valid
  unfold encodeUtf16Char
  split
  · next hunit =>
    have htoNat : (UInt16.ofNat char.toNat).toNat = char.toNat := by
      rw [UInt16.toNat_ofNat']
      omega
    have hhigh : isHighSurrogate (UInt16.ofNat char.toNat) = false := by
      simp only [isHighSurrogate, htoNat, Bool.and_eq_false_iff, decide_eq_false_iff_not]
      omega
    have hlow : isLowSurrogate (UInt16.ofNat char.toNat) = false := by
      simp only [isLowSurrogate, htoNat, Bool.and_eq_false_iff, decide_eq_false_iff_not]
      omega
    rw [List.singleton_append, decodeUtf16_cons hhigh, decodeUnit, hhigh, hlow, Bool.or_false,
      if_neg Bool.false_ne_true, htoNat, Char.ofNat_toNat]
  · next hpair =>
    have hhigh : (UInt16.ofNat (0xD800 + (char.toNat - 0x10000) / 0x400)).toNat =
        0xD800 + (char.toNat - 0x10000) / 0x400 := by
      rw [UInt16.toNat_ofNat']
      omega
    have hlow : (UInt16.ofNat (0xDC00 + (char.toNat - 0x10000) % 0x400)).toNat =
        0xDC00 + (char.toNat - 0x10000) % 0x400 := by
      rw [UInt16.toNat_ofNat']
      omega
    have hsurrogates : (isHighSurrogate (UInt16.ofNat (0xD800 + (char.toNat - 0x10000) / 0x400)) &&
        isLowSurrogate (UInt16.ofNat (0xDC00 + (char.toNat - 0x10000) % 0x400))) = true := by
      simp only [isHighSurrogate, isLowSurrogate, hhigh, hlow, Bool.and_eq_true, decide_eq_true_eq]
      omega
    have hvalue : 0x10000 + (0xD800 + (char.toNat - 0x10000) / 0x400 - 0xD800) * 0x400 +
        (0xDC00 + (char.toNat - 0x10000) % 0x400 - 0xDC00) = char.toNat := by
      omega
    rw [List.cons_append, List.singleton_append, decodeUtf16, if_pos hsurrogates, decodePair, hhigh,
      hlow, hvalue, Char.ofNat_toNat]

@[simp]
theorem decodeUtf16_encodeUtf16 (text : List Char) : decodeUtf16 (encodeUtf16 text) = text := by
  induction text with
  | nil => rfl
  | cons char text ih =>
    calc
      _ = decodeUtf16 (encodeUtf16Char char ++ encodeUtf16 text) := by
        rw [encodeUtf16, List.flatMap_cons, encodeUtf16]
      _ = char :: text := by rw [decodeUtf16_encodeUtf16Char, ih]

theorem utf8Size_decodeUnit (unit : UInt16) : (decodeUnit unit).utf8Size ≤ 3 := by
  have hunit := unit.toNat_lt
  have hvalue : (decodeUnit unit).toNat ≤ 0xFFFF := by
    unfold decodeUnit
    split
    · decide
    · by_cases hvalid : unit.toNat.isValidChar
      · rw [Char.ofNat, dif_pos hvalid]
        change unit.toNat ≤ 0xFFFF
        omega
      · rw [Char.ofNat, dif_neg hvalid]
        decide
  have hsize : (decodeUnit unit).utf8Size ≠ 4 := by
    rw [ne_eq, Char.utf8Size_eq_four_iff, UInt32.lt_iff_toNat_lt]
    exact Nat.not_lt.2 hvalue
  have hfour := (decodeUnit unit).utf8Size_le_four
  omega

/-- Only a pair, which takes two units, can need four bytes. -/
theorem length_utf8_decodeUtf16 (units : List UInt16) :
    (utf8 (String.ofList (decodeUtf16 units))).length ≤ 3 * units.length := by
  rw [utf8_ofList]
  fun_induction decodeUtf16 units with
  | case1 => simp
  | case2 unit =>
    have hunit := utf8Size_decodeUnit unit
    simpa using hunit
  | case3 high low rest hpair ih =>
    have hfour := (decodePair high low).utf8Size_le_four
    simp only [List.flatMap_cons, List.length_append, String.length_utf8EncodeChar,
      List.length_cons] at ih ⊢
    omega
  | case4 high low rest hpair ih =>
    have hunit := utf8Size_decodeUnit high
    simp only [List.flatMap_cons, List.length_append, String.length_utf8EncodeChar,
      List.length_cons] at ih ⊢
    omega

end WindowCaster.Foundation.Text
