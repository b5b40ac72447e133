import Mathlib.Data.List.Induction
import WindowCaster.Foundation.LengthFraming
import WindowCaster.Client.Network

/-!
# The framing loop of `ListenThread`

`pending` collects the bytes of a connection, and after every `recv` a loop cuts complete messages
off its front. The test for a complete message adds in 32 bits, the iterators it protects add in 64
bits, so one pass through the body has three ends: it waits for more data, it takes a message, or
it forms an iterator past the end, where C++ gives the program no meaning.

The abstract counterpart is the decoder of frames shorter than `2 ^ 32 - 4` bytes. The loop follows
it on every stream, whatever the chunks, and goes out of range exactly where that decoder stops at
a length it does not accept.
-/

namespace WindowCaster.Server.Framing

open Foundation.Interaction Foundation.StreamDecoder Foundation.StreamDecoder.Decoder
open Foundation.LengthFraming Foundation.Text

/-! ## The code -/

/-- `std::memcpy(&msgLen, &pending[0], 4)` on a little-endian machine. -/
def msgLen (pending : Bytes) : UInt32 := readLe32 pending

/-- `pending.size() < 4 + msgLen`, where `int + uint32_t` is a 32-bit sum. -/
def tooShort (pending : Bytes) : Prop := pending.length < (4 + msgLen pending).toNat

instance (pending : Bytes) : Decidable (tooShort pending) := by
  unfold tooShort
  infer_instance

/-- How one pass through the body of `while (true)` ends. -/
inductive Pass
  | needMore
  | message (oneProtoMsg pending : Bytes)
  | outOfRange
  deriving DecidableEq

/-- `begin() + 4 + msgLen` is computed in 64 bits; past `end()` it is not an iterator. -/
def framingPass (pending : Bytes) : Pass :=
  if pending.length < 4 then .needMore
  else if tooShort pending then .needMore
  else if pending.length < 4 + (msgLen pending).toNat then .outOfRange
  else .message ((pending.drop 4).take (msgLen pending).toNat)
    (pending.drop (4 + (msgLen pending).toNat))

theorem framingPass_eq_message {pending oneProtoMsg rest : Bytes} :
    framingPass pending = .message oneProtoMsg rest ↔
      4 + (msgLen pending).toNat ≤ pending.length ∧ ¬ tooShort pending ∧
        oneProtoMsg = (pending.drop 4).take (msgLen pending).toNat ∧
        rest = pending.drop (4 + (msgLen pending).toNat) := by
  unfold framingPass
  constructor
  · intro h
    split_ifs at h with hfour hshort hrange
    simp only [Pass.message.injEq] at h
    exact ⟨by omega, hshort, h.1.symm, h.2.symm⟩
  · rintro ⟨hlength, hshort, rfl, rfl⟩
    rw [if_neg (by omega), if_neg hshort, if_neg (by omega)]

theorem framingPass_shrinks {pending oneProtoMsg rest : Bytes}
    (h : framingPass pending = .message oneProtoMsg rest) : rest.length < pending.length := by
  obtain ⟨hlength, -, -, rfl⟩ := framingPass_eq_message.1 h
  rw [List.length_drop]
  omega

/-- What a connection has come to: the messages handed to `messageHandler`, the buffer, and whether
the program went out of range. -/
structure Received where
  delivered : List Bytes
  pending : Bytes
  undefined : Bool
  deriving DecidableEq

/-- The loop over `pending`. It is a total function because a message always shortens the buffer. -/
def frameLoop (pending : Bytes) : Received :=
  match _h : framingPass pending with
  | .needMore => ⟨[], pending, false⟩
  | .outOfRange => ⟨[], pending, true⟩
  | .message oneProtoMsg rest =>
    { frameLoop rest with delivered := oneProtoMsg :: (frameLoop rest).delivered }
termination_by pending.length
decreasing_by all_goals exact framingPass_shrinks _h

/-- One `recv` that returned data; after undefined behaviour there is nothing to say. -/
def receive (received : Received) (chunk : Bytes) : Received :=
  if received.undefined then received
  else { frameLoop (received.pending ++ chunk) with
    delivered := received.delivered ++ (frameLoop (received.pending ++ chunk)).delivered }

/-- A connection on which `recv` returned these chunks. -/
def receiveAll (chunks : List Bytes) : Received := chunks.foldl receive ⟨[], [], false⟩

@[simp]
theorem receiveAll_nil : receiveAll [] = ⟨[], [], false⟩ := rfl

@[simp]
theorem receiveAll_concat (chunks : List Bytes) (chunk : Bytes) :
    receiveAll (chunks ++ [chunk]) = receive (receiveAll chunks) chunk := by
  simp [receiveAll]

/-- `recv` is called with a buffer of 4096 bytes. -/
def IsChunk (chunk : Bytes) : Prop := 1 ≤ chunk.length ∧ chunk.length ≤ 4096

instance (chunk : Bytes) : Decidable (IsChunk chunk) := by
  unfold IsChunk
  infer_instance

/-- The contents of `pending` with which the body of the loop starts after the last chunk. -/
inductive LoopHead : List Bytes → Bytes → Prop
  | received (chunks : List Bytes) (chunk : Bytes) : (receiveAll chunks).undefined = false →
      LoopHead (chunks ++ [chunk]) ((receiveAll chunks).pending ++ chunk)
  | again {chunks : List Bytes} {pending oneProtoMsg rest : Bytes} : LoopHead chunks pending →
      framingPass pending = .message oneProtoMsg rest → LoopHead chunks rest

theorem frameLoop_of_needMore {pending : Bytes} (h : framingPass pending = .needMore) :
    frameLoop pending = ⟨[], pending, false⟩ := by
  rw [frameLoop]
  split <;> simp_all

theorem frameLoop_of_outOfRange {pending : Bytes} (h : framingPass pending = .outOfRange) :
    frameLoop pending = ⟨[], pending, true⟩ := by
  rw [frameLoop]
  split <;> simp_all

theorem frameLoop_of_message {pending oneProtoMsg rest : Bytes}
    (h : framingPass pending = .message oneProtoMsg rest) :
    frameLoop pending =
      { frameLoop rest with delivered := oneProtoMsg :: (frameLoop rest).delivered } := by
  rw [frameLoop]
  split <;> simp_all

/-! ## The abstract decoder -/

/-- The lengths for which the 32-bit sum `4 + msgLen` does not wrap around. -/
def lengthLimit : ℕ := 2 ^ 32 - 4

/-- Frames with a length below the limit, the ones the loop can handle. -/
def grammar : Decoder UInt8 Bytes := decoder lengthLimit (by decide)

/-- The messages in a byte stream. This mentions neither the chunks nor the code. -/
def messagesIn (stream : Bytes) : List Bytes := (grammar.drain stream).1

/-- The bytes of a stream after its last complete message. -/
def residue (stream : Bytes) : Bytes := (grammar.drain stream).2

/-- A length prefix from which on the sum wraps around stands at the front. -/
def Oversize (input : Bytes) : Prop := 4 ≤ input.length ∧ lengthLimit ≤ (msgLen input).toNat

instance (input : Bytes) : Decidable (Oversize input) := by
  unfold Oversize
  infer_instance

/-- A complete frame, in the sense of the format, stands at the front. -/
def HoldsFrame (input : Bytes) : Prop :=
  4 ≤ input.length ∧ 4 + (msgLen input).toNat ≤ input.length

theorem grammar_next (input : Bytes) : grammar.next input = readFrame lengthLimit input := rfl

theorem messagesIn_of_none {stream : Bytes} (h : grammar.next stream = none) :
    messagesIn stream = [] := by
  rw [messagesIn, drain_of_none _ h]

theorem residue_of_none {stream : Bytes} (h : grammar.next stream = none) :
    residue stream = stream := by
  rw [residue, drain_of_none _ h]

theorem messagesIn_of_frame {stream message rest : Bytes}
    (h : grammar.next stream = some (message, rest)) :
    messagesIn stream = message :: messagesIn rest := by
  rw [messagesIn, drain_of_some _ h]
  rfl

theorem residue_of_frame {stream message rest : Bytes}
    (h : grammar.next stream = some (message, rest)) : residue stream = residue rest := by
  rw [residue, drain_of_some _ h]
  rfl

theorem next_residue (stream : Bytes) : grammar.next (residue stream) = none :=
  grammar.next_drain_snd stream

theorem messagesIn_append (stream more : Bytes) :
    messagesIn (stream ++ more) = messagesIn stream ++ messagesIn (residue stream ++ more) := by
  rw [messagesIn, drain_append]
  rfl

theorem residue_append (stream more : Bytes) :
    residue (stream ++ more) = residue (residue stream ++ more) := by
  rw [residue, drain_append]
  rfl

theorem tooShort_iff {pending : Bytes} (h : (msgLen pending).toNat < lengthLimit) :
    tooShort pending ↔ pending.length < 4 + (msgLen pending).toNat := by
  have hsum : (4 + msgLen pending).toNat = 4 + (msgLen pending).toNat := by
    rw [UInt32.toNat_add]
    exact Nat.mod_eq_of_lt (by simp [lengthLimit] at h ⊢; omega)
  rw [tooShort, hsum]

/-- On an oversize prefix the sum is below four, and the test lets every buffer through. -/
theorem not_tooShort {pending : Bytes} (h : Oversize pending) : ¬ tooShort pending := by
  obtain ⟨hfour, hlimit⟩ := h
  have hlt := (msgLen pending).toNat_lt
  have hsum : (4 + msgLen pending).toNat < 4 := by
    rw [UInt32.toNat_add]
    simp [lengthLimit] at hlimit ⊢
    omega
  rw [tooShort]
  omega

theorem framingPass_of_frame {pending oneProtoMsg rest : Bytes}
    (h : grammar.next pending = some (oneProtoMsg, rest)) :
    framingPass pending = .message oneProtoMsg rest := by
  obtain ⟨⟨hfour, hlimit, hlength⟩, hmessage, hrest⟩ := readFrame_eq_some.1 h
  refine framingPass_eq_message.2 ⟨hlength, ?_, hmessage, hrest⟩
  rw [tooShort_iff hlimit]
  exact Nat.not_lt.2 hlength

theorem framingPass_of_none {pending : Bytes} (h : grammar.next pending = none)
    (hsize : ¬ Oversize pending) : framingPass pending = .needMore := by
  have hframe : ¬ HasFrame lengthLimit pending := readFrame_eq_none.1 h
  by_cases hfour : pending.length < 4
  · rw [framingPass, if_pos hfour]
  · have hlimit : (msgLen pending).toNat < lengthLimit := by
      by_contra hge
      exact hsize ⟨by omega, by omega⟩
    have hshort : pending.length < 4 + (msgLen pending).toNat := by
      by_contra hge
      exact hframe ⟨by omega, hlimit, by rw [msgLen] at hge; omega⟩
    rw [framingPass, if_neg hfour, if_pos ((tooShort_iff hlimit).2 hshort)]

theorem framingPass_of_oversize {pending : Bytes} (hsize : Oversize pending)
    (hlength : pending.length < 4 + (msgLen pending).toNat) :
    framingPass pending = .outOfRange := by
  rw [framingPass, if_neg (by have := hsize.1; omega), if_neg (not_tooShort hsize), if_pos hlength]

/-! ## The loop follows the decoder -/

/-- What bounds the buffer at every loop head. An oversize prefix can only appear with the last
chunk, so the buffer is then far too short for the length it announces. -/
def Bounded (pending : Bytes) : Prop :=
  pending.length < 4 + 4096 ∨
    4 ≤ pending.length ∧ (msgLen pending).toNat < lengthLimit ∧
      pending.length < 4 + (msgLen pending).toNat + 4096

theorem Bounded.length_lt {pending : Bytes} (h : Bounded pending) (hsize : Oversize pending) :
    pending.length < 4 + (msgLen pending).toNat := by
  obtain ⟨hfour, hlimit⟩ := hsize
  rcases h with h | ⟨-, hlt, -⟩
  · simp [lengthLimit] at hlimit
    omega
  · omega

/-- Taking a message leaves at most the bytes of the last chunk. -/
theorem Bounded.rest {pending oneProtoMsg rest : Bytes} (h : Bounded pending)
    (hpass : framingPass pending = .message oneProtoMsg rest) : Bounded rest := by
  obtain ⟨hlength, -, -, rfl⟩ := framingPass_eq_message.1 hpass
  left
  rw [List.length_drop]
  rcases h with h | ⟨-, -, h⟩ <;> omega

/-- A buffer without a complete frame stays bounded when one more chunk arrives. -/
theorem bounded_append {pending chunk : Bytes} (hnext : grammar.next pending = none)
    (hsize : ¬ Oversize pending) (hchunk : IsChunk chunk) : Bounded (pending ++ chunk) := by
  have hupper := hchunk.2
  rw [Bounded, List.length_append]
  by_cases hfour : 4 ≤ pending.length
  · have hlimit : (msgLen pending).toNat < lengthLimit := by
      by_contra hge
      exact hsize ⟨hfour, Nat.not_lt.1 hge⟩
    have hframe : ¬ HasFrame lengthLimit pending := readFrame_eq_none.1 hnext
    have hlength : pending.length < 4 + (msgLen pending).toNat := by
      by_contra hge
      exact hframe ⟨hfour, hlimit, Nat.not_lt.1 hge⟩
    have hmsgLen : msgLen (pending ++ chunk) = msgLen pending := readLe32_append hfour chunk
    right
    rw [hmsgLen]
    exact ⟨by omega, hlimit, by omega⟩
  · left
    omega

/-- One run of the loop takes the complete frames off the buffer, and goes out of range when the
buffer then starts with an oversize prefix. -/
theorem frameLoop_eq {pending : Bytes} (h : Bounded pending) :
    frameLoop pending =
      ⟨messagesIn pending, residue pending, decide (Oversize (residue pending))⟩ := by
  induction pending using grammar.drain_induction with
  | hnone pending hnext =>
    rw [messagesIn_of_none hnext, residue_of_none hnext]
    by_cases hsize : Oversize pending
    · rw [frameLoop_of_outOfRange (framingPass_of_oversize hsize (h.length_lt hsize)),
        decide_eq_true hsize]
    · rw [frameLoop_of_needMore (framingPass_of_none hnext hsize), decide_eq_false hsize]
  | hsome pending oneProtoMsg rest hnext ih =>
    have hpass := framingPass_of_frame hnext
    rw [frameLoop_of_message hpass, ih (h.rest hpass), messagesIn_of_frame hnext,
      residue_of_frame hnext]

/-- The decoder never gets past an oversize prefix. -/
theorem next_of_oversize {input : Bytes} (hsize : Oversize input) (more : Bytes) :
    grammar.next (input ++ more) = none := by
  rw [grammar_next, readFrame_eq_none]
  rintro ⟨-, hlimit, -⟩
  rw [readLe32_append hsize.1] at hlimit
  exact absurd hsize.2 (Nat.not_le.2 hlimit)

theorem oversize_append {input : Bytes} (hsize : Oversize input) (more : Bytes) :
    Oversize (input ++ more) := by
  refine ⟨by rw [List.length_append]; have := hsize.1; omega, ?_⟩
  rw [msgLen, readLe32_append hsize.1]
  exact hsize.2

/-- The whole connection, whatever the chunks: the messages are those of the byte stream, and the
program is in range as long as no oversize prefix has come to the front. -/
theorem receiveAll_eq {chunks : List Bytes} (hchunks : ∀ chunk ∈ chunks, IsChunk chunk) :
    (receiveAll chunks).delivered = messagesIn chunks.flatten ∧
      (receiveAll chunks).undefined = decide (Oversize (residue chunks.flatten)) ∧
      ((receiveAll chunks).undefined = false →
        (receiveAll chunks).pending = residue chunks.flatten) := by
  induction chunks using List.reverseRecOn with
  | nil =>
    have hnil : grammar.next [] = none := by decide
    simp [messagesIn_of_none hnil, residue_of_none hnil, Oversize]
  | append_singleton chunks chunk ih =>
    obtain ⟨hdelivered, hundefined, hpending⟩ := ih fun other hother ↦
      hchunks other (List.mem_append_left _ hother)
    have hchunk : IsChunk chunk := hchunks chunk (by simp)
    rw [receiveAll_concat, List.flatten_concat, messagesIn_append, residue_append, receive]
    by_cases hsize : Oversize (residue chunks.flatten)
    · rw [decide_eq_true hsize] at hundefined
      have hnone := next_of_oversize hsize chunk
      rw [if_pos hundefined, messagesIn_of_none hnone, residue_of_none hnone, List.append_nil]
      refine ⟨hdelivered, ?_, ?_⟩
      · rw [hundefined, decide_eq_true (oversize_append hsize chunk)]
      · intro hfalse
        rw [hundefined] at hfalse
        exact absurd hfalse (by decide)
    · rw [decide_eq_false hsize] at hundefined
      have hbounded := bounded_append (next_residue _) hsize hchunk
      rw [if_neg (by rw [hundefined]; decide), hpending hundefined, frameLoop_eq hbounded,
        hdelivered]
      exact ⟨rfl, rfl, fun _ ↦ rfl⟩

/-- While the program is in range, every loop head is bounded. -/
theorem LoopHead.bounded {chunks : List Bytes} {pending : Bytes} (h : LoopHead chunks pending)
    (hchunks : ∀ chunk ∈ chunks, IsChunk chunk) : Bounded pending := by
  induction h with
  | received chunks chunk hundefined =>
    obtain ⟨-, hsize, hpending⟩ := receiveAll_eq fun other hother ↦
      hchunks other (List.mem_append_left _ hother)
    rw [hpending hundefined]
    rw [hundefined, eq_comm, decide_eq_false_iff_not] at hsize
    exact bounded_append (next_residue _) hsize (hchunks chunk (by simp))
  | again _ hpass ih => exact (ih hchunks).rest hpass

/-- From every loop head the decoder comes to the residue of what has been received. -/
theorem LoopHead.residue_eq {chunks : List Bytes} {pending : Bytes} (h : LoopHead chunks pending)
    (hchunks : ∀ chunk ∈ chunks, IsChunk chunk) : residue pending = residue chunks.flatten := by
  induction h with
  | received chunks chunk hundefined =>
    obtain ⟨-, -, hpending⟩ := receiveAll_eq fun other hother ↦
      hchunks other (List.mem_append_left _ hother)
    rw [hpending hundefined, List.flatten_concat, ← residue_append]
  | @again chunks pending oneProtoMsg rest hhead hpass ih =>
    rw [← ih hchunks]
    cases hnext : grammar.next pending with
    | some read =>
      obtain ⟨item, rest'⟩ := read
      have hsame := (framingPass_of_frame hnext).symm.trans hpass
      simp only [Pass.message.injEq] at hsame
      obtain ⟨-, rfl⟩ := hsame
      exact (residue_of_frame hnext).symm
    | none =>
      by_cases hsize : Oversize pending
      · have hlength := (hhead.bounded hchunks).length_lt hsize
        rw [framingPass_of_oversize hsize hlength] at hpass
        exact absurd hpass (by simp)
      · rw [framingPass_of_none hnext hsize] at hpass
        exact absurd hpass (by simp)

/-- The loop meets the residue of the stream: the last pass starts with it. -/
theorem LoopHead.to_residue {chunks : List Bytes} {pending : Bytes} (h : LoopHead chunks pending) :
    LoopHead chunks (residue pending) := by
  induction pending using grammar.drain_induction with
  | hnone pending hnext => rwa [residue_of_none hnext]
  | hsome pending oneProtoMsg rest hnext ih =>
    rw [residue_of_frame hnext]
    exact ih (h.again (framingPass_of_frame hnext))

end WindowCaster.Server.Framing
