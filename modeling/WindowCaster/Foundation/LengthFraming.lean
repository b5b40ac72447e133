import Mathlib.Data.List.Basic
import Mathlib.Tactic.Ring
import WindowCaster.Foundation.StreamDecoder
import WindowCaster.Foundation.Text

/-!
# Frames with a little-endian length in front

A frame is a 32-bit length, least significant byte first, followed by that many bytes. The decoder
takes a bound on the length it accepts, at most `2 ^ 32`, so that a receiver which handles only
shorter frames is an instance. On payloads below the bound the decoder undoes the encoder, and a
stream is always the frames read from it followed by what is left.
-/

namespace WindowCaster.Foundation.LengthFraming

open StreamDecoder Text

/-! ## The length field -/

/-- The four bytes of a 32-bit number, least significant first. -/
def le32 (value : UInt32) : Bytes :=
  [UInt8.ofNat value.toNat, UInt8.ofNat (value.toNat / 2 ^ 8), UInt8.ofNat (value.toNat / 2 ^ 16),
    UInt8.ofNat (value.toNat / 2 ^ 24)]

/-- The 32-bit number in the first four bytes; missing bytes count as zero. -/
def readLe32 (input : Bytes) : UInt32 :=
  UInt32.ofNat (input[0]?.elim 0 UInt8.toNat + 2 ^ 8 * input[1]?.elim 0 UInt8.toNat +
    2 ^ 16 * input[2]?.elim 0 UInt8.toNat + 2 ^ 24 * input[3]?.elim 0 UInt8.toNat)

@[simp]
theorem length_le32 (value : UInt32) : (le32 value).length = 4 := rfl

theorem readLe32_cons (a b c d : UInt8) (rest : Bytes) :
    (readLe32 (a :: b :: c :: d :: rest)).toNat =
      a.toNat + 2 ^ 8 * b.toNat + 2 ^ 16 * c.toNat + 2 ^ 24 * d.toNat := by
  have ha := a.toNat_lt
  have hb := b.toNat_lt
  have hc := c.toNat_lt
  have hd := d.toNat_lt
  simp only [readLe32, List.getElem?_cons_zero, List.getElem?_cons_succ, Option.elim_some,
    UInt32.toNat_ofNat']
  omega

@[simp]
theorem readLe32_le32_append (value : UInt32) (rest : Bytes) :
    readLe32 (le32 value ++ rest) = value := by
  have hvalue := value.toNat_lt
  apply UInt32.toNat_inj.1
  simp only [le32, List.cons_append, List.nil_append, readLe32_cons, UInt8.toNat_ofNat']
  omega

/-- Only the first four bytes matter. -/
theorem readLe32_append {input : Bytes} (hlength : 4 ≤ input.length) (rest : Bytes) :
    readLe32 (input ++ rest) = readLe32 input := by
  match input, hlength with
  | a :: b :: c :: d :: input, _ => rfl

/-- The four bytes are determined by the number they hold. -/
theorem le32_readLe32 {input : Bytes} (hlength : 4 ≤ input.length) :
    le32 (readLe32 input) = input.take 4 := by
  match input, hlength with
  | a :: b :: c :: d :: input, _ =>
    have ha := a.toNat_lt
    have hb := b.toNat_lt
    have hc := c.toNat_lt
    have hd := d.toNat_lt
    have hbyte (n : ℕ) (byte : UInt8) (h : n % 2 ^ 8 = byte.toNat) : UInt8.ofNat n = byte := by
      apply UInt8.toNat_inj.1
      rw [UInt8.toNat_ofNat', h]
    simp only [le32, readLe32_cons, List.take_succ_cons, List.take_zero, List.cons.injEq, and_true]
    refine ⟨hbyte _ _ ?_, hbyte _ _ ?_, hbyte _ _ ?_, hbyte _ _ ?_⟩ <;> omega

/-! ## Frames -/

/-- A payload with its length in front; the length is taken modulo `2 ^ 32`. -/
def frame (payload : Bytes) : Bytes := le32 (UInt32.ofNat payload.length) ++ payload

@[simp]
theorem length_frame (payload : Bytes) : (frame payload).length = 4 + payload.length := by
  simp [frame]

theorem frame_injective {first second : Bytes} (h : frame first = frame second) : first = second :=
  (List.append_inj h rfl).2

/-- The front of the input is a frame with a length below the bound. -/
def HasFrame (limit : ℕ) (input : Bytes) : Prop :=
  4 ≤ input.length ∧ (readLe32 input).toNat < limit ∧ 4 + (readLe32 input).toNat ≤ input.length

instance (limit : ℕ) (input : Bytes) : Decidable (HasFrame limit input) := by
  unfold HasFrame
  infer_instance

def readFrame (limit : ℕ) (input : Bytes) : Option (Bytes × Bytes) :=
  if HasFrame limit input then
    some ((input.drop 4).take (readLe32 input).toNat, input.drop (4 + (readLe32 input).toNat))
  else none

theorem readFrame_eq_none {limit : ℕ} {input : Bytes} :
    readFrame limit input = none ↔ ¬ HasFrame limit input := by
  simp [readFrame]

theorem readFrame_eq_some {limit : ℕ} {input payload rest : Bytes} :
    readFrame limit input = some (payload, rest) ↔
      HasFrame limit input ∧ payload = (input.drop 4).take (readLe32 input).toNat ∧
        rest = input.drop (4 + (readLe32 input).toNat) := by
  unfold readFrame
  split <;> simp_all [eq_comm]

/-- What is read is a frame of the encoder: nothing of the input is lost or changed. -/
theorem eq_frame_append {limit : ℕ} {input payload rest : Bytes}
    (h : readFrame limit input = some (payload, rest)) :
    payload.length < limit ∧ payload.length = (readLe32 input).toNat ∧
      input = frame payload ++ rest := by
  obtain ⟨⟨hfour, hlimit, hlength⟩, rfl, rfl⟩ := readFrame_eq_some.1 h
  have hpayload : ((input.drop 4).take (readLe32 input).toNat).length = (readLe32 input).toNat := by
    rw [List.length_take, List.length_drop]
    omega
  refine ⟨by rwa [hpayload], hpayload, ?_⟩
  rw [frame, hpayload, UInt32.ofNat_toNat, ← List.drop_drop, List.append_assoc]
  calc
    input = input.take 4 ++ input.drop 4 := (List.take_append_drop 4 input).symm
    _ = le32 (readLe32 input) ++ input.drop 4 := by rw [le32_readLe32 hfour]
    _ = _ := by rw [List.take_append_drop]

/-- A frame of the encoder is read back, whatever follows it. -/
theorem readFrame_frame_append {limit : ℕ} (hlimit : limit ≤ 2 ^ 32) {payload : Bytes}
    (hpayload : payload.length < limit) (rest : Bytes) :
    readFrame limit (frame payload ++ rest) = some (payload, rest) := by
  have hread : (readLe32 (frame payload ++ rest)).toNat = payload.length := by
    rw [frame, List.append_assoc, readLe32_le32_append, UInt32.toNat_ofNat']
    exact Nat.mod_eq_of_lt (by omega)
  rw [readFrame_eq_some, HasFrame, hread]
  refine ⟨⟨by simp; omega, hpayload, by simp⟩, ?_, ?_⟩
  · rw [frame, List.append_assoc, List.drop_left' (length_le32 _), List.take_left]
  · rw [← length_frame, List.drop_left]

/-- The decoder of frames whose length is below the bound. -/
def decoder (limit : ℕ) (hlimit : limit ≤ 2 ^ 32) : Decoder UInt8 Bytes where
  next := readFrame limit
  shrinks := by
    intro input payload rest h
    obtain ⟨-, -, rfl⟩ := eq_frame_append h
    rw [List.length_append, length_frame]
    omega
  stable := by
    intro input payload rest more h
    obtain ⟨hpayload, -, rfl⟩ := eq_frame_append h
    rw [List.append_assoc]
    exact readFrame_frame_append hlimit hpayload _

/-- Frames inside frames are the first of them. -/
theorem isPrefix_of_encodeAll_frame {first second : List Bytes}
    (hfirst : ∀ payload ∈ first, payload.length < 2 ^ 32)
    (hsecond : ∀ payload ∈ second, payload.length < 2 ^ 32)
    (h : Decoder.encodeAll frame first <+: Decoder.encodeAll frame second) : first <+: second := by
  refine (decoder (2 ^ 32) (Nat.le_refl _)).isPrefix_of_encodeAll frame ?_ ?_ h
  · intro payload hmem rest
    exact readFrame_frame_append (Nat.le_refl _) (hfirst payload hmem) rest
  · intro payload hmem rest
    exact readFrame_frame_append (Nat.le_refl _) (hsecond payload hmem) rest

end WindowCaster.Foundation.LengthFraming
