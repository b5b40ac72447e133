import WindowCaster.Foundation.StreamDecoder
import WindowCaster.Foundation.Text

/-!
# The protobuf wire format

A message on the wire is a sequence of fields, each a varint tag (field number and wire type)
followed by the value. The reader of single fields is a stream decoder, so a message body is
drained into its fields, and the fields that an encoder wrote are read back. Groups, which proto3
does not have, are rejected.
-/

namespace WindowCaster.Foundation.ProtobufWire

open StreamDecoder StreamDecoder.Decoder Text

/-! ## Varints -/

/-- Seven bits at a time, least significant first; the last group has no continuation bit. -/
def varintGroups : ℕ → ℕ → Bytes
  | 0, value => [UInt8.ofNat value]
  | groups + 1, value =>
    if value < 128 then [UInt8.ofNat value]
    else UInt8.ofNat (value % 128 + 128) :: varintGroups groups (value / 128)

/-- A 64-bit value takes at most ten groups. -/
def varint (value : UInt64) : Bytes := varintGroups 9 value.toNat

def readGroups : ℕ → Bytes → Option (ℕ × Bytes)
  | 0, _ => none
  | _, [] => none
  | groups + 1, byte :: rest =>
    if byte.toNat < 128 then some (byte.toNat, rest)
    else (readGroups groups rest).map fun read ↦ (byte.toNat - 128 + 128 * read.1, read.2)

/-- At most ten bytes; bits beyond the 64th are dropped. -/
def readVarint (input : Bytes) : Option (UInt64 × Bytes) :=
  (readGroups 10 input).map fun read ↦ (UInt64.ofNat read.1, read.2)

theorem readGroups_varintGroups {groups value : ℕ} (hvalue : value < 128 ^ (groups + 1))
    (rest : Bytes) :
    readGroups (groups + 1) (varintGroups groups value ++ rest) = some (value, rest) := by
  induction groups generalizing value with
  | zero =>
    have hsmall : value < 128 := by simpa using hvalue
    have hbyte : (UInt8.ofNat value).toNat = value := by
      rw [UInt8.toNat_ofNat']
      omega
    simp [varintGroups, readGroups, hbyte, hsmall]
  | succ groups ih =>
    by_cases hsmall : value < 128
    · have hbyte : (UInt8.ofNat value).toNat = value := by
        rw [UInt8.toNat_ofNat']
        omega
      simp [varintGroups, readGroups, hbyte, hsmall]
    · have hbyte : (UInt8.ofNat (value % 128 + 128)).toNat = value % 128 + 128 := by
        rw [UInt8.toNat_ofNat']
        omega
      have hhigh : value / 128 < 128 ^ (groups + 1) := by
        rw [Nat.div_lt_iff_lt_mul (by decide)]
        simpa [Nat.pow_succ] using hvalue
      have hsplit : value % 128 + 128 - 128 + 128 * (value / 128) = value := by omega
      rw [varintGroups, if_neg hsmall, List.cons_append, readGroups, if_neg (by omega), ih hhigh,
        hbyte, Option.map_some, hsplit]

theorem readVarint_varint (value : UInt64) (rest : Bytes) :
    readVarint (varint value ++ rest) = some (value, rest) := by
  have hvalue := value.toNat_lt
  rw [readVarint, varint, readGroups_varintGroups (by omega)]
  simp

/-- Reading takes a nonempty piece off the front and does not look at what follows it. -/
def Takes {α : Type} (read : Bytes → Option (α × Bytes)) : Prop :=
  ∀ {input value rest}, read input = some (value, rest) →
    ∃ piece, piece ≠ [] ∧ input = piece ++ rest ∧ ∀ more, read (piece ++ more) = some (value, more)

theorem takes_readGroups (groups : ℕ) : Takes (readGroups groups) := by
  induction groups with
  | zero =>
    intro input value rest h
    simp [readGroups] at h
  | succ groups ih =>
    intro input value rest h
    match input with
    | [] => simp [readGroups] at h
    | byte :: input =>
      by_cases hlast : byte.toNat < 128
      · simp only [readGroups, if_pos hlast, Option.some.injEq, Prod.mk.injEq] at h
        obtain ⟨rfl, rfl⟩ := h
        exact ⟨[byte], by simp, rfl, fun more ↦ by simp [readGroups, hlast]⟩
      · simp only [readGroups, if_neg hlast, Option.map_eq_some_iff] at h
        obtain ⟨⟨high, left⟩, hread, heq⟩ := h
        obtain ⟨rfl, rfl⟩ := Prod.mk.inj heq
        obtain ⟨piece, -, rfl, hpiece⟩ := ih hread
        refine ⟨byte :: piece, by simp, rfl, fun more ↦ ?_⟩
        simp [readGroups, hlast, hpiece more]

theorem takes_readVarint : Takes readVarint := by
  intro input value rest h
  obtain ⟨⟨number, left⟩, hread, heq⟩ := Option.map_eq_some_iff.1 h
  obtain ⟨rfl, rfl⟩ := Prod.mk.inj heq
  obtain ⟨piece, hne, rfl, hpiece⟩ := takes_readGroups 10 hread
  exact ⟨piece, hne, rfl, fun more ↦ by simp [readVarint, hpiece more]⟩

/-! ## Fields -/

inductive Value
  | varint (value : UInt64)
  | fixed64 (bytes : Bytes)
  | lengthDelimited (bytes : Bytes)
  | fixed32 (bytes : Bytes)
  deriving DecidableEq

structure Field where
  number : ℕ
  value : Value
  deriving DecidableEq

/-- The fields an encoder may write: a legal number and a value of the size its type has. -/
def Field.Valid (field : Field) : Prop :=
  0 < field.number ∧ field.number < 2 ^ 29 ∧
    match field.value with
    | .varint _ => True
    | .fixed64 bytes => bytes.length = 8
    | .lengthDelimited bytes => bytes.length < 2 ^ 31
    | .fixed32 bytes => bytes.length = 4

def Value.wireType : Value → ℕ
  | .varint _ => 0
  | .fixed64 _ => 1
  | .lengthDelimited _ => 2
  | .fixed32 _ => 5

def Value.encode : Value → Bytes
  | .varint value => ProtobufWire.varint value
  | .fixed64 bytes => bytes
  | .lengthDelimited bytes => ProtobufWire.varint (UInt64.ofNat bytes.length) ++ bytes
  | .fixed32 bytes => bytes

def Field.encode (field : Field) : Bytes :=
  varint (UInt64.ofNat (8 * field.number + field.value.wireType)) ++ field.value.encode

/-- A given number of raw bytes. -/
def readBytes (count : ℕ) (input : Bytes) : Option (Bytes × Bytes) :=
  if count ≤ input.length then some (input.take count, input.drop count) else none

/-- The value of a field of this wire type; a length is limited as the format demands. -/
def readValue (wireType : ℕ) (input : Bytes) : Option (Value × Bytes) :=
  match wireType with
  | 0 => (readVarint input).map fun read ↦ (.varint read.1, read.2)
  | 1 => (readBytes 8 input).map fun read ↦ (.fixed64 read.1, read.2)
  | 2 => (readVarint input).bind fun length ↦
      if length.1.toNat < 2 ^ 31 then
        (readBytes length.1.toNat length.2).map fun read ↦ (.lengthDelimited read.1, read.2)
      else none
  | 5 => (readBytes 4 input).map fun read ↦ (.fixed32 read.1, read.2)
  | _ => none

def readField (input : Bytes) : Option (Field × Bytes) :=
  (readVarint input).bind fun tag ↦
    if 8 ≤ tag.1.toNat ∧ tag.1.toNat < 2 ^ 32 then
      (readValue (tag.1.toNat % 8) tag.2).map fun read ↦ (⟨tag.1.toNat / 8, read.1⟩, read.2)
    else none

theorem readBytes_append {count : ℕ} {bytes : Bytes} (h : bytes.length = count) (rest : Bytes) :
    readBytes count (bytes ++ rest) = some (bytes, rest) := by
  subst h
  simp [readBytes]

theorem readValue_encode {field : Field} (hvalid : field.Valid) (rest : Bytes) :
    readValue field.value.wireType (field.value.encode ++ rest) = some (field.value, rest) := by
  obtain ⟨number, value⟩ := field
  obtain ⟨-, -, hvalue⟩ := hvalid
  cases value with
  | varint value => simp [readValue, Value.wireType, Value.encode, readVarint_varint]
  | fixed64 bytes => simp [readValue, Value.wireType, Value.encode, readBytes_append hvalue]
  | lengthDelimited bytes =>
    have hlength : (UInt64.ofNat bytes.length).toNat = bytes.length := by
      rw [UInt64.toNat_ofNat']
      simp only at hvalue
      omega
    have hread := readBytes_append hlength.symm rest
    simp only [readValue, Value.wireType, Value.encode, List.append_assoc, readVarint_varint,
      Option.bind_some, hread, Option.map_some]
    rw [if_pos (by rw [hlength]; exact hvalue)]
  | fixed32 bytes => simp [readValue, Value.wireType, Value.encode, readBytes_append hvalue]

/-- A valid field is read back, whatever follows it. -/
theorem readField_encode {field : Field} (hvalid : field.Valid) (rest : Bytes) :
    readField (field.encode ++ rest) = some (field, rest) := by
  have htype : field.value.wireType < 8 := by cases field.value <;> simp [Value.wireType]
  have hnumber := hvalid.1
  have hbound := hvalid.2.1
  have htag : (UInt64.ofNat (8 * field.number + field.value.wireType)).toNat =
      8 * field.number + field.value.wireType := by
    rw [UInt64.toNat_ofNat']
    omega
  have hmod : (8 * field.number + field.value.wireType) % 8 = field.value.wireType := by omega
  have hdiv : (8 * field.number + field.value.wireType) / 8 = field.number := by omega
  rw [readField, Field.encode, List.append_assoc, readVarint_varint, Option.bind_some]
  simp only [htag, hmod, hdiv]
  rw [if_pos (by omega), readValue_encode hvalid]
  rfl

theorem takes_readBytes (count : ℕ) {input bytes rest : Bytes}
    (h : readBytes count input = some (bytes, rest)) :
    input = bytes ++ rest ∧ ∀ more, readBytes count (bytes ++ more) = some (bytes, more) := by
  unfold readBytes at h
  split at h
  · next hcount =>
    simp only [Option.some.injEq, Prod.mk.injEq] at h
    obtain ⟨rfl, rfl⟩ := h
    exact ⟨(List.take_append_drop _ _).symm, fun more ↦ readBytes_append (by simp [hcount]) more⟩
  · simp at h

theorem readValue_eq_some {wireType : ℕ} {input rest : Bytes} {value : Value}
    (h : readValue wireType input = some (value, rest)) :
    ∃ piece, input = piece ++ rest ∧
      ∀ more, readValue wireType (piece ++ more) = some (value, more) := by
  unfold readValue at h
  split at h
  · obtain ⟨⟨number, left⟩, hread, heq⟩ := Option.map_eq_some_iff.1 h
    obtain ⟨rfl, rfl⟩ := Prod.mk.inj heq
    obtain ⟨piece, -, rfl, hpiece⟩ := takes_readVarint hread
    exact ⟨piece, rfl, fun more ↦ by simp [readValue, hpiece more]⟩
  · obtain ⟨⟨bytes, left⟩, hread, heq⟩ := Option.map_eq_some_iff.1 h
    obtain ⟨rfl, rfl⟩ := Prod.mk.inj heq
    obtain ⟨rfl, hpiece⟩ := takes_readBytes 8 hread
    exact ⟨bytes, rfl, fun more ↦ by simp [readValue, hpiece more]⟩
  · obtain ⟨⟨length, left⟩, hlength, h⟩ := Option.bind_eq_some_iff.1 h
    simp only at h
    split at h
    · next hlimit =>
      obtain ⟨⟨bytes, left'⟩, hread, heq⟩ := Option.map_eq_some_iff.1 h
      obtain ⟨rfl, rfl⟩ := Prod.mk.inj heq
      obtain ⟨piece, -, rfl, hpiece⟩ := takes_readVarint hlength
      obtain ⟨rfl, hbytes⟩ := takes_readBytes _ hread
      refine ⟨piece ++ bytes, by simp, fun more ↦ ?_⟩
      simp only [readValue, List.append_assoc, hpiece (bytes ++ more), Option.bind_some,
        hbytes more, Option.map_some]
      rw [if_pos hlimit]
    · simp at h
  · obtain ⟨⟨bytes, left⟩, hread, heq⟩ := Option.map_eq_some_iff.1 h
    obtain ⟨rfl, rfl⟩ := Prod.mk.inj heq
    obtain ⟨rfl, hpiece⟩ := takes_readBytes 4 hread
    exact ⟨bytes, rfl, fun more ↦ by simp [readValue, hpiece more]⟩
  · simp at h

theorem takes_readField : Takes readField := by
  intro input field rest h
  obtain ⟨⟨tag, left⟩, htag, h⟩ := Option.bind_eq_some_iff.1 h
  simp only at h
  split at h
  · next hrange =>
    obtain ⟨⟨value, left'⟩, hvalue, heq⟩ := Option.map_eq_some_iff.1 h
    obtain ⟨rfl, rfl⟩ := Prod.mk.inj heq
    obtain ⟨first, hne, rfl, hfirst⟩ := takes_readVarint htag
    obtain ⟨second, rfl, hsecond⟩ := readValue_eq_some hvalue
    refine ⟨first ++ second, by simp [hne], by simp, fun more ↦ ?_⟩
    simp only [readField, List.append_assoc, hfirst (second ++ more), Option.bind_some,
      hsecond more, Option.map_some]
    rw [if_pos hrange]
  · simp at h

/-- The reader of single fields, as a stream decoder. -/
def fieldDecoder : Decoder UInt8 Field where
  next := readField
  shrinks := by
    intro input field rest h
    obtain ⟨piece, hne, rfl, -⟩ := takes_readField h
    have hpiece := List.length_pos_iff.2 hne
    rw [List.length_append]
    omega
  stable := by
    intro input field rest more h
    obtain ⟨piece, -, rfl, hpiece⟩ := takes_readField h
    rw [List.append_assoc]
    exact hpiece _

/-- The fields of a message body; the body must consist of complete fields. -/
def parseFields (body : Bytes) : Option (List Field) :=
  match fieldDecoder.drain body with
  | (fields, []) => some fields
  | (_, _ :: _) => none

theorem parseFields_encodeAll {fields : List Field} (hvalid : ∀ field ∈ fields, field.Valid) :
    parseFields (encodeAll Field.encode fields) = some fields := by
  have hdrain := fieldDecoder.drain_encodeAll_append Field.encode [] fun field hfield rest ↦
    readField_encode (hvalid field hfield) rest
  have hnil : fieldDecoder.drain [] = ([], []) := fieldDecoder.drain_of_none rfl
  rw [List.append_nil, hnil, List.append_nil] at hdrain
  rw [parseFields, hdrain]

theorem length_varintGroups_le (groups value : ℕ) :
    (varintGroups groups value).length ≤ groups + 1 := by
  induction groups generalizing value with
  | zero => simp [varintGroups]
  | succ groups ih =>
    unfold varintGroups
    split
    · simp
    · simpa using ih (value / 128)

/-- A varint field takes at most twenty bytes, and so does the header of a longer one. -/
theorem length_encode_varint_le (number : ℕ) (value : UInt64) :
    (Field.encode ⟨number, .varint value⟩).length ≤ 20 := by
  have htag := length_varintGroups_le 9
  simp only [Field.encode, Value.encode, varint, List.length_append]
  have hnumber := htag (UInt64.ofNat (8 * number + (Value.varint value).wireType)).toNat
  have hvalue := htag value.toNat
  omega

theorem length_encode_lengthDelimited_le (number : ℕ) (bytes : Bytes) :
    (Field.encode ⟨number, .lengthDelimited bytes⟩).length ≤ 20 + bytes.length := by
  have htag := length_varintGroups_le 9
  simp only [Field.encode, Value.encode, varint, List.length_append]
  have hnumber := htag (UInt64.ofNat (8 * number + (Value.lengthDelimited bytes).wireType)).toNat
  have hlength := htag (UInt64.ofNat bytes.length).toNat
  omega

/-- A body is at least as long as each length-delimited value in it. -/
theorem length_le_of_mem {fields : List Field} (number : ℕ) {bytes : Bytes}
    (h : ⟨number, .lengthDelimited bytes⟩ ∈ fields) :
    bytes.length ≤ (encodeAll Field.encode fields).length := by
  induction fields with
  | nil => simp at h
  | cons field fields ih =>
    rw [encodeAll_cons, List.length_append]
    rcases List.mem_cons.1 h with rfl | h
    · simp only [Field.encode, Value.encode, List.length_append]
      omega
    · have hrest := ih h
      omega

end WindowCaster.Foundation.ProtobufWire
