import WindowCaster.Protocol.Extended

/-!
# Sizes and bytes of single fields

The generated serializer computes the size of a message before it writes it. Sizes come from a
closed formula in the position of the leading bit, bytes from a loop that takes seven bits at a
time; strings have a fast path for a buffer with enough room. Here both are put side by side for
every kind of field: up to the limit of an `int`, the size is the number of bytes written, and the
bytes are those of the wire format. What the library has in compiled code only is a parameter, with
its documented behaviour as a law.
-/

namespace WindowCaster.Protocol.CodedOutput

open Foundation.StreamDecoder.Decoder Foundation.ProtobufWire Messages
open Extended (UnknownField encodeUnknown)
open Foundation.Text (Bytes)

/-! ## `CodedOutputStream` -/

/-- `absl::countl_zero` of an unsigned value of the given width. -/
def countlZero (width value : ℕ) : ℕ := if value = 0 then width else width - 1 - Nat.log2 value

/-- The position of the leading bit, that of zero being taken as that of one. -/
def log2value (width value : ℕ) : ℕ := width - 1 - countlZero width (value ||| 1)

/-- `VarintSize32` and `VarintSize64` -/
def varintSize (width value : ℕ) : ℕ := (log2value width value * 9 + 73) / 64

def varintSizePlusOne (width value : ℕ) : ℕ := (log2value width value * 9 + 73 + 64) / 64

/-- The loop behind every `WriteVarint`; a value of either width is given by its number, and the
target by the bytes written so far. -/
def unsafeVarint (value : ℕ) (target : Bytes) : Bytes :=
  if 0x80 ≤ value then unsafeVarint (value >>> 7) (target ++ [UInt8.ofNat (value ||| 0x80)])
  else target ++ [UInt8.ofNat value]
termination_by value
decreasing_by
  rw [Nat.shiftRight_eq_div_pow]
  omega

/-! ## `WireFormatLite` -/

/-- Of a longer value the formula sees the lower 32 bits of the length. -/
def lengthDelimitedSize (length : ℕ) : ℕ := length + varintSize 32 (length % 2 ^ 32)

def bytesSize (value : Bytes) : ℕ := lengthDelimitedSize value.length

def uint32SizePlusOne (value : UInt32) : ℕ := varintSizePlusOne 32 value.toNat

def uint64SizePlusOne (value : UInt64) : ℕ := varintSizePlusOne 64 value.toNat

def writeTagToArray (number wireType : ℕ) (target : Bytes) : Bytes :=
  unsafeVarint (number <<< 3 ||| wireType) target

def writeUInt32ToArray (number : ℕ) (value : UInt32) (target : Bytes) : Bytes :=
  unsafeVarint value.toNat (writeTagToArray number 0 target)

def writeUInt64ToArray (number : ℕ) (value : UInt64) (target : Bytes) : Bytes :=
  unsafeVarint value.toNat (writeTagToArray number 0 target)

def writeBoolToArray (number : ℕ) (value : Bool) (target : Bytes) : Bytes :=
  unsafeVarint (if value then 1 else 0) (writeTagToArray number 0 target)

def tagSize (tag : ℕ) : ℕ :=
  if tag < 2 ^ 7 then 1
  else if tag < 2 ^ 14 then 2
  else if tag < 2 ^ 21 then 3
  else if tag < 2 ^ 28 then 4
  else 5

/-- `ToCachedSize`: `static_cast<int>` of a `size_t` -/
def toCachedSize (size : ℕ) : Int32 := (UInt32.ofNat size).toInt32

/-- Two sizes are the same, or both too large for an `int`. -/
def Agrees (size length : ℕ) : Prop := size = length ∨ 2 ^ 31 ≤ size ∧ 2 ^ 31 ≤ length

/-! ## `InternalMetadata`

The set of unknown fields is made when it is needed first, and stays. -/

structure InternalMetadata where
  container : Option (List UnknownField)

namespace InternalMetadata

def haveUnknownFields (metadata : InternalMetadata) : Bool := metadata.container.isSome

def unknownFields (metadata : InternalMetadata) : List UnknownField := metadata.container.getD []

def mergeFrom (this other : InternalMetadata) : InternalMetadata :=
  if other.haveUnknownFields then ⟨some (this.unknownFields ++ other.unknownFields)⟩ else this

def clear (metadata : InternalMetadata) : InternalMetadata :=
  if metadata.haveUnknownFields then ⟨some []⟩ else metadata

@[simp]
theorem unknownFields_mergeFrom (this other : InternalMetadata) :
    (this.mergeFrom other).unknownFields = this.unknownFields ++ other.unknownFields := by
  obtain ⟨_ | fields⟩ := other <;> simp [mergeFrom, haveUnknownFields, unknownFields]

@[simp]
theorem unknownFields_clear (metadata : InternalMetadata) : metadata.clear.unknownFields = [] := by
  obtain ⟨_ | fields⟩ := metadata <;> rfl

end InternalMetadata

/-! ## The compiled library -/

/-- The parts of the library that are compiled elsewhere, and the buffer: `room` is the distance
from a position to the end of the current buffer. A function that computes a size also gives the
one that it leaves in the object. -/
structure Runtime where
  room : Bytes → ℤ
  writeStringMaybeAliasedOutline : ℕ → Bytes → Bytes → Bytes
  internalWriteMessage : ℕ → (Bytes → Bytes) → Int32 → Bytes → Bytes
  maybeComputeUnknownFieldsSize : InternalMetadata → ℕ → ℕ × Int32
  internalSerializeUnknownFieldsToArray : List UnknownField → Bytes → Bytes
  zeroFieldsByteSizeLong : InternalMetadata → ℕ × Int32
  zeroFieldsInternalSerialize : InternalMetadata → Bytes → Bytes
  serializeToString : {Object : Type} → (Object → ℕ × Object) → (Object → Bytes → Bytes) → Object →
    Option Bytes × Object

/-- What the compiled parts are documented to do. -/
structure Runtime.Lawful (runtime : Runtime) : Prop where
  /-- The tag, the length and the bytes of a string. -/
  outline : ∀ number value target, value.length < 2 ^ 31 →
    runtime.writeStringMaybeAliasedOutline number value target =
      unsafeVarint value.length (writeTagToArray number 2 target) ++ value
  /-- The tag, the cached size as an unsigned number and the body of a submessage. -/
  message : ∀ number serialize cachedSize target,
    runtime.internalWriteMessage number serialize cachedSize target =
      serialize (unsafeVarint cachedSize.toUInt32.toNat (writeTagToArray number 2 target))
  /-- The size of the known fields and that of the unknown ones, together. -/
  unknownSize : ∀ metadata size, ∃ unknownSize,
    Agrees unknownSize (encodeUnknown metadata.unknownFields).length ∧
      runtime.maybeComputeUnknownFieldsSize metadata size =
        (size + unknownSize, toCachedSize (size + unknownSize))
  unknown : ∀ fields target, (encodeUnknown fields).length < 2 ^ 31 →
    runtime.internalSerializeUnknownFieldsToArray fields target = target ++ encodeUnknown fields
  /-- A message without fields has its unknown ones only. -/
  zeroFieldsSize : ∀ metadata, ∃ size,
    Agrees size (encodeUnknown metadata.unknownFields).length ∧
      runtime.zeroFieldsByteSizeLong metadata = (size, toCachedSize size)
  zeroFields : ∀ metadata target, (encodeUnknown metadata.unknownFields).length < 2 ^ 31 →
    runtime.zeroFieldsInternalSerialize metadata target =
      target ++ encodeUnknown metadata.unknownFields
  /-- The sizes are computed first, and one beyond that of an `int` is refused. -/
  refuses : ∀ {Object : Type} (byteSizeLong : Object → ℕ × Object) internalSerialize object,
    2 ^ 31 - 1 < (byteSizeLong object).1 →
      runtime.serializeToString byteSizeLong internalSerialize object =
        (none, (byteSizeLong object).2)
  /-- What is written into a buffer of the computed size, provided that it fills the buffer. -/
  fills : ∀ {Object : Type} (byteSizeLong : Object → ℕ × Object) internalSerialize object bytes,
    (byteSizeLong object).1 ≤ 2 ^ 31 - 1 → (byteSizeLong object).1 = bytes.length →
      (∀ target, internalSerialize (byteSizeLong object).2 target = target ++ bytes) →
      runtime.serializeToString byteSizeLong internalSerialize object =
        (some bytes, (byteSizeLong object).2)

/-- Short strings are copied directly if the buffer has room for them. -/
def Runtime.writeStringMaybeAliased (runtime : Runtime) (number : ℕ) (value target : Bytes) : Bytes :=
  if 128 ≤ value.length ∨
      runtime.room target + 16 - tagSize (number <<< 3) - 1 < value.length then
    runtime.writeStringMaybeAliasedOutline number value target
  else unsafeVarint (number <<< 3 ||| 2) target ++ [UInt8.ofNat value.length] ++ value

/-! ## The statements for one field

A field with its default value takes no part in either pass. -/

def bytesFieldSize (value : Bytes) : ℕ := if value = [] then 0 else 1 + bytesSize value

def uint32FieldSize (value : UInt32) : ℕ := if value = 0 then 0 else uint32SizePlusOne value

def uint64FieldSize (value : UInt64) : ℕ := if value = 0 then 0 else uint64SizePlusOne value

def boolFieldSize (value : Bool) : ℕ := if value then 2 else 0

/-- The size of a submessage is that of its body with a tag and a length before it. -/
def messageFieldSize (size : ℕ) : ℕ := 1 + lengthDelimitedSize size

def writeBytesField (runtime : Runtime) (number : ℕ) (value target : Bytes) : Bytes :=
  if value = [] then target else runtime.writeStringMaybeAliased number value target

def writeUInt32Field (number : ℕ) (value : UInt32) (target : Bytes) : Bytes :=
  if value = 0 then target else writeUInt32ToArray number value target

def writeUInt64Field (number : ℕ) (value : UInt64) (target : Bytes) : Bytes :=
  if value = 0 then target else writeUInt64ToArray number value target

def writeBoolField (number : ℕ) (value : Bool) (target : Bytes) : Bytes :=
  if value then writeBoolToArray number value target else target

/-! ## Varints -/

theorem or_eq_add (value : ℕ) : UInt8.ofNat (value ||| 0x80) = UInt8.ofNat (value % 128 + 128) := by
  have hlow : (value ||| 0x80) % 2 ^ 7 = value % 2 ^ 7 := by
    rw [Nat.or_mod_two_pow]
    simp
  have hbit : (value ||| 0x80) / 2 ^ 7 % 2 = 1 := by
    rw [Nat.or_div_two_pow]
    exact Nat.or_mod_two_eq_one.2 (.inr rfl)
  apply UInt8.toNat_inj.1
  rw [UInt8.toNat_ofNat', UInt8.toNat_ofNat']
  omega

/-- The loop writes the groups of the wire format. -/
theorem unsafeVarint_groups {groups value : ℕ} (hvalue : value < 128 ^ (groups + 1)) (target : Bytes) :
    unsafeVarint value target = target ++ varintGroups groups value := by
  induction groups generalizing value target with
  | zero =>
    have hsmall : ¬ 0x80 ≤ value := by simpa using hvalue
    rw [unsafeVarint, if_neg hsmall, varintGroups]
  | succ groups ih =>
    rw [unsafeVarint, varintGroups]
    by_cases hsmall : value < 128
    · rw [if_neg (by omega), if_pos hsmall]
    · have hhigh : value / 128 < 128 ^ (groups + 1) := by
        rw [Nat.div_lt_iff_lt_mul (by decide)]
        simpa [Nat.pow_succ] using hvalue
      have hshift : value >>> 7 = value / 128 := Nat.shiftRight_eq_div_pow value 7
      rw [if_pos (by omega), if_neg hsmall, hshift, ih hhigh, or_eq_add, List.append_assoc]
      rfl

theorem unsafeVarint_eq {value : ℕ} (hvalue : value < 2 ^ 64) (target : Bytes) :
    unsafeVarint value target = target ++ varint (UInt64.ofNat value) := by
  have hnumber : (UInt64.ofNat value).toNat = value := by
    rw [UInt64.toNat_ofNat']
    omega
  rw [varint, hnumber]
  exact unsafeVarint_groups (by omega) target

/-! ## Sizes of varints -/

theorem log2_or_one (value : ℕ) (hvalue : value ≠ 0) : Nat.log2 (value ||| 1) = Nat.log2 value := by
  have hne : value ||| 1 ≠ 0 := by
    have hle := Nat.left_le_or (n := value) (m := 1)
    omega
  rw [Nat.log2_eq_iff hne]
  have hlog := (Nat.log2_eq_iff hvalue).1 rfl
  have hone : 1 < 2 ^ (Nat.log2 value + 1) := Nat.one_lt_two_pow (by omega)
  exact ⟨Nat.le_trans hlog.1 Nat.left_le_or, Nat.or_lt_two_pow hlog.2 hone⟩

theorem log2_div_128 {value : ℕ} (hvalue : 128 ≤ value) :
    Nat.log2 value = Nat.log2 (value / 128) + 7 := by
  have hhigh : value / 128 ≠ 0 := by omega
  have hlog := (Nat.log2_eq_iff hhigh).1 rfl
  rw [Nat.log2_eq_iff (by omega), Nat.pow_add, Nat.add_right_comm, Nat.pow_add]
  omega

theorem length_varintGroups {groups value : ℕ} (hvalue : value < 128 ^ (groups + 1)) :
    (varintGroups groups value).length = Nat.log2 (value ||| 1) / 7 + 1 := by
  have hshort {value : ℕ} (hsmall : value < 128) : Nat.log2 (value ||| 1) < 7 := by
    have hor : value ||| 1 < 2 ^ 7 := Nat.or_lt_two_pow (by omega) (by decide)
    have hne : value ||| 1 ≠ 0 := by
      have hle := Nat.right_le_or (n := value) (m := 1)
      omega
    exact (Nat.log2_lt hne).2 hor
  induction groups generalizing value with
  | zero =>
    have hlog : Nat.log2 (value ||| 1) < 7 := hshort (by simpa using hvalue)
    simp only [varintGroups, List.length_singleton]
    omega
  | succ groups ih =>
    rw [varintGroups]
    by_cases hsmall : value < 128
    · have hlog := hshort hsmall
      rw [if_pos hsmall, List.length_singleton]
      omega
    · have hhigh : value / 128 < 128 ^ (groups + 1) := by
        rw [Nat.div_lt_iff_lt_mul (by decide)]
        simpa [Nat.pow_succ] using hvalue
      have hlog : Nat.log2 (value ||| 1) = Nat.log2 (value / 128 ||| 1) + 7 := by
        rw [log2_or_one value (by omega), log2_or_one (value / 128) (by omega)]
        exact log2_div_128 (by omega)
      rw [if_neg hsmall, List.length_cons, ih hhigh, hlog]
      omega

theorem log2value_eq {width value : ℕ} (hwidth : 0 < width) (hvalue : value < 2 ^ width) :
    log2value width value = Nat.log2 (value ||| 1) ∧ Nat.log2 (value ||| 1) < width := by
  have hne : value ||| 1 ≠ 0 := by
    have hle := Nat.right_le_or (n := value) (m := 1)
    omega
  have hlog : Nat.log2 (value ||| 1) < width :=
    (Nat.log2_lt hne).2 (Nat.or_lt_two_pow hvalue (Nat.one_lt_two_pow (by omega)))
  refine ⟨?_, hlog⟩
  rw [log2value, countlZero, if_neg hne]
  omega

/-- The multiplication by 9 and the shift by 6 divide by 7, as far as leading bits go. -/
theorem varintSize_eq (width : ℕ) {value : ℕ} (hwidth : 0 < width ∧ width ≤ 64) (hvalue : value < 2 ^ width) :
    varintSize width value = (varint (UInt64.ofNat value)).length := by
  obtain ⟨hlog, hbound⟩ := log2value_eq hwidth.1 hvalue
  have hword : value < 2 ^ 64 := Nat.lt_of_lt_of_le hvalue (Nat.pow_le_pow_right (by decide) hwidth.2)
  have hnumber : (UInt64.ofNat value).toNat = value := by
    rw [UInt64.toNat_ofNat']
    omega
  rw [varintSize, hlog, varint, hnumber, length_varintGroups (by omega)]
  omega

theorem varintSizePlusOne_eq (width value : ℕ) :
    varintSizePlusOne width value = 1 + varintSize width value := by
  unfold varintSizePlusOne varintSize
  omega

/-! ## Sizes of fields -/

theorem Agrees.add {size length size' length' : ℕ} (h : Agrees size length)
    (h' : Agrees size' length') : Agrees (size + size') (length + length') := by
  unfold Agrees at *
  omega

theorem Agrees.iff {size length : ℕ} (h : Agrees size length) :
    size ≤ 2 ^ 31 - 1 ↔ length ≤ 2 ^ 31 - 1 := by
  unfold Agrees at h
  omega

theorem Agrees.eq {size length : ℕ} (h : Agrees size length) (hlength : length < 2 ^ 31) :
    size = length := by
  unfold Agrees at h
  omega

theorem length_tag {number wireType : ℕ} (hnumber : number < 16) (htype : wireType < 8) :
    (varint (UInt64.ofNat (8 * number + wireType))).length = 1 := by
  have htag : (UInt64.ofNat (8 * number + wireType)).toNat = 8 * number + wireType := by
    rw [UInt64.toNat_ofNat']
    omega
  rw [varint, htag, varintGroups, if_pos (by omega), List.length_singleton]

theorem length_body_singleton (field : Field) : (body [field]).length = field.encode.length := by
  simp [body, encodeAll]

section Numbered

variable {number : ℕ} (hnumber : number < 16)
include hnumber

theorem length_lengthDelimited (value : Bytes) :
    (Field.encode ⟨number, .lengthDelimited value⟩).length =
      1 + (varint (UInt64.ofNat value.length)).length + value.length := by
  have htag := length_tag hnumber (by decide : 2 < 8)
  simp only [Field.encode, Value.wireType, Value.encode, List.length_append, htag]
  omega

theorem agrees_message {size : ℕ} {input : Bytes} (h : Agrees size input.length) :
    Agrees (messageFieldSize size) (body (messageField number input)).length := by
  rw [messageField, length_body_singleton, length_lengthDelimited hnumber, messageFieldSize,
    lengthDelimitedSize]
  obtain rfl | ⟨hsize, hlength⟩ := h
  · by_cases hfits : input.length < 2 ^ 32
    · have hformula := varintSize_eq 32 ⟨by decide, by decide⟩ hfits
      rw [Nat.mod_eq_of_lt hfits, hformula]
      exact .inl (by omega)
    · exact .inr ⟨by omega, by omega⟩
  · exact .inr ⟨by omega, by omega⟩

theorem agrees_bytes (value : Bytes) :
    Agrees (bytesFieldSize value) (body (bytesField number value)).length := by
  unfold bytesFieldSize bytesField
  split
  · exact .inl rfl
  · exact agrees_message hnumber (.inl rfl)

theorem length_uint64 (value : UInt64) (hvalue : value ≠ 0) :
    (body (uint64Field number value)).length = 1 + (varint value).length := by
  have htag := length_tag hnumber (by decide : 0 < 8)
  rw [uint64Field, if_neg hvalue, length_body_singleton]
  simp only [Field.encode, Value.wireType, Value.encode, List.length_append, htag]

theorem agrees_uint64 (value : UInt64) :
    Agrees (uint64FieldSize value) (body (uint64Field number value)).length := by
  refine .inl ?_
  by_cases hvalue : value = 0
  · rw [uint64FieldSize, if_pos hvalue, uint64Field, if_pos hvalue]
    rfl
  · have hformula := varintSize_eq 64 ⟨by decide, by decide⟩ value.toNat_lt
    rw [UInt64.ofNat_toNat] at hformula
    rw [uint64FieldSize, if_neg hvalue, uint64SizePlusOne, varintSizePlusOne_eq, hformula,
      length_uint64 hnumber value hvalue]

theorem agrees_uint32 (value : UInt32) :
    Agrees (uint32FieldSize value) (body (uint32Field number value)).length := by
  refine .inl ?_
  by_cases hvalue : value = 0
  · rw [uint32FieldSize, if_pos hvalue, hvalue]
    rfl
  · have hformula := varintSize_eq 32 ⟨by decide, by decide⟩ value.toNat_lt
    have hword : UInt64.ofNat value.toNat = value.toUInt64 := by simp
    have hne : value.toUInt64 ≠ 0 := by
      intro hzero
      exact hvalue (UInt32.toNat_inj.1 (congrArg UInt64.toNat hzero))
    rw [uint32FieldSize, if_neg hvalue, uint32SizePlusOne, varintSizePlusOne_eq, hformula, hword,
      uint32Field, length_uint64 hnumber _ hne]

theorem agrees_bool (value : Bool) :
    Agrees (boolFieldSize value) (body (boolField number value)).length := by
  have htag := length_tag hnumber (by decide : 0 < 8)
  refine .inl ?_
  cases value with
  | false => rfl
  | true =>
    rw [boolField, if_pos rfl, length_body_singleton]
    simp only [Field.encode, Value.wireType, Value.encode, List.length_append, htag]
    rfl

end Numbered

/-! ## Bytes of fields -/

theorem shiftLeft_or {number wireType : ℕ} (htype : wireType < 8) :
    number <<< 3 ||| wireType = 8 * number + wireType := by
  rw [Nat.shiftLeft_eq, Nat.mul_comm, ← Nat.two_pow_add_eq_or_of_lt (by omega) number]

theorem writeTagToArray_eq {number wireType : ℕ} (hnumber : number < 16) (htype : wireType < 8)
    (target : Bytes) :
    writeTagToArray number wireType target =
      target ++ varint (UInt64.ofNat (8 * number + wireType)) := by
  rw [writeTagToArray, shiftLeft_or htype, unsafeVarint_eq (by omega)]

section Numbered

variable {number : ℕ} (hnumber : number < 16)
include hnumber

theorem writeUInt64Field_eq (value : UInt64) (target : Bytes) :
    writeUInt64Field number value target = target ++ body (uint64Field number value) := by
  unfold writeUInt64Field uint64Field
  split
  · exact (List.append_nil target).symm
  · rw [writeUInt64ToArray, unsafeVarint_eq value.toNat_lt, UInt64.ofNat_toNat,
      writeTagToArray_eq hnumber (by decide), List.append_assoc]
    simp [body, encodeAll, Field.encode, Value.wireType, Value.encode]

theorem writeUInt32Field_eq (value : UInt32) (target : Bytes) :
    writeUInt32Field number value target = target ++ body (uint32Field number value) := by
  have hfield := writeUInt64Field_eq hnumber value.toUInt64 target
  rw [uint32Field, ← hfield, writeUInt32Field, writeUInt64Field]
  have hzero : value = 0 ↔ value.toUInt64 = 0 := by
    rw [← UInt32.toNat_inj, ← UInt64.toNat_inj]
    rfl
  simp only [hzero]
  rfl

theorem writeBoolField_eq (value : Bool) (target : Bytes) :
    writeBoolField number value target = target ++ body (boolField number value) := by
  cases value with
  | false => exact (List.append_nil target).symm
  | true =>
    rw [writeBoolField, if_pos rfl, writeBoolToArray, unsafeVarint_eq (by decide),
      writeTagToArray_eq hnumber (by decide), List.append_assoc, boolField, if_pos rfl]
    simp [body, encodeAll, Field.encode, Value.wireType, Value.encode]

theorem lengthDelimited_eq (value target : Bytes) (hlength : value.length < 2 ^ 31) :
    unsafeVarint value.length (writeTagToArray number 2 target) ++ value =
      target ++ body (messageField number value) := by
  rw [unsafeVarint_eq (by omega), writeTagToArray_eq hnumber (by decide)]
  simp [messageField, body, encodeAll, Field.encode, Value.wireType, Value.encode]

/-- With room for it or without, a string is written the same way. -/
theorem writeBytesField_eq {runtime : Runtime} (hruntime : runtime.Lawful) (value target : Bytes)
    (hlength : value.length < 2 ^ 31) :
    writeBytesField runtime number value target = target ++ body (bytesField number value) := by
  unfold writeBytesField bytesField
  split
  · exact (List.append_nil target).symm
  have hfield := lengthDelimited_eq hnumber value target hlength
  rw [messageField] at hfield
  rw [Runtime.writeStringMaybeAliased]
  split
  · rw [hruntime.outline number value target hlength, hfield]
  · next hshort =>
    have hsize : ¬ 0x80 ≤ value.length := fun h ↦ hshort (.inl h)
    rw [← hfield, unsafeVarint.eq_def value.length, if_neg hsize]
    rfl

/-- A submessage, once its cached size is the size of its body. -/
theorem internalWriteMessage_eq {runtime : Runtime} (hruntime : runtime.Lawful)
    {serialize : Bytes → Bytes} {cachedSize : Int32} {input : Bytes} (target : Bytes)
    (hserialize : ∀ target, serialize target = target ++ input)
    (hcached : cachedSize.toUInt32.toNat = input.length) (hlength : input.length < 2 ^ 31) :
    runtime.internalWriteMessage number serialize cachedSize target =
      target ++ body (messageField number input) := by
  rw [hruntime.message, hserialize, hcached]
  exact lengthDelimited_eq hnumber input target hlength

end Numbered

theorem toNat_toCachedSize {size : ℕ} (hsize : size < 2 ^ 32) :
    (toCachedSize size).toUInt32.toNat = size := by
  rw [toCachedSize, UInt32.toUInt32_toInt32, UInt32.toNat_ofNat']
  omega

end WindowCaster.Protocol.CodedOutput
