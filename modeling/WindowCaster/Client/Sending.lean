import WindowCaster.Client.Network

/-!
# Sequences of sent messages

`send_message` writes the length of a slice as a `u32` and then the whole slice. Below `2 ^ 32` bytes
this is a frame. A longer slice is not refused: its first bytes go out as a frame of the remainder
of the length, and the receiver takes the others for the beginning of the next frame.
-/

namespace WindowCaster.Client.Sending

open Foundation.Interaction Foundation.LengthFraming Foundation.StreamDecoder Foundation.Text Network

/-- A call of `send_message` on an open connection. -/
structure SendCall where
  message : Bytes
  trace : List (Event Tcp)
  sent : Bool
  runs : (NetworkClient.sendMessage ⟨true⟩ message).Runs trace sent

/-- The bytes that a sequence of calls has written. -/
def stream (calls : List SendCall) : Bytes := written (calls.flatMap SendCall.trace)

theorem stream_cons (call : SendCall) (calls : List SendCall) :
    stream (call :: calls) = written call.trace ++ stream calls := by
  simp [stream]

/-- A length in 32 bits and that many bytes, over and over. -/
def grammar : Decoder UInt8 Bytes := decoder (2 ^ 32) le_rfl

/-- What a sequence of slices may expect of the calls that send them, whatever the stream does: if
all return `Ok`, the slices are read back, and a slice that is too long for the format is refused
with nothing written. -/
structure Faithful (messages : List Bytes) : Prop where
  decodes : ∀ calls : List SendCall, calls.map SendCall.message = messages →
    (∀ call ∈ calls, call.sent = true) → grammar.drain (stream calls) = (messages, [])
  refuses : ∀ calls : List SendCall, calls.map SendCall.message = messages →
    ∀ call ∈ calls, 2 ^ 32 ≤ call.message.length → call.sent = false ∧ written call.trace = []

/-! ## Calls that return `Ok` -/

/-- The call on a stream that takes everything. -/
def accepted (message : Bytes) : SendCall where
  message := message
  trace := [⟨.writeAll (le32 (UInt32.ofNat message.length)), true⟩, ⟨.writeAll message, true⟩]
  sent := true
  runs := ⟨true, _, rfl, true, _, rfl, rfl, rfl⟩

theorem stream_of_sent {calls : List SendCall} (hsent : ∀ call ∈ calls, call.sent = true) :
    stream calls = Decoder.encodeAll frame (calls.map SendCall.message) := by
  induction calls with
  | nil => rfl
  | cons call calls ih =>
    rw [List.forall_mem_cons] at hsent
    have hruns := call.runs
    rw [hsent.1] at hruns
    calc
      stream (call :: calls) = written call.trace ++ stream calls := stream_cons call calls
      _ = frame call.message ++ stream calls := by rw [written_of_sendMessage hruns]
      _ = _ := by rw [ih hsent.2, List.map_cons, Decoder.encodeAll_cons]

theorem grammar_nil : grammar.drain [] = ([], []) := grammar.drain_of_none rfl

/-- Frames are read back as what was framed exactly if all lengths fit into the length field. -/
theorem drain_frames_iff (messages : List Bytes) :
    grammar.drain (Decoder.encodeAll frame messages) = (messages, []) ↔
      ∀ message ∈ messages, message.length < 2 ^ 32 := by
  constructor
  · intro hdrain
    have hread : ∀ message ∈ (grammar.drain (Decoder.encodeAll frame messages)).1,
        message.length < 2 ^ 32 :=
      grammar.forall_mem_drain (fun h ↦ (eq_frame_append h).1) _
    rwa [hdrain] at hread
  · intro hshort
    have hdrain := grammar.drain_encodeAll_append frame [] fun message hmem rest ↦
      readFrame_frame_append le_rfl (hshort message hmem) rest
    simpa only [List.append_nil, grammar_nil] using hdrain

/-- The same for a run of calls that all return `Ok`. -/
theorem drain_stream_iff {calls : List SendCall} (hsent : ∀ call ∈ calls, call.sent = true) :
    grammar.drain (stream calls) = (calls.map SendCall.message, []) ↔
      ∀ message ∈ calls.map SendCall.message, message.length < 2 ^ 32 := by
  rw [stream_of_sent hsent]
  exact drain_frames_iff _

/-! ## A slice that is too long -/

/-- A frame announces the remainder of the length. -/
theorem frame_eq_append (message : Bytes) :
    frame message = frame (message.take (message.length % 2 ^ 32)) ++
      message.drop (message.length % 2 ^ 32) := by
  have hlength : (message.take (message.length % 2 ^ 32)).length = message.length % 2 ^ 32 := by
    rw [List.length_take]
    exact min_eq_left (Nat.mod_le _ _)
  have hannounced : UInt32.ofNat (message.length % 2 ^ 32) = UInt32.ofNat message.length := by
    apply UInt32.toNat_inj.1
    rw [UInt32.toNat_ofNat', UInt32.toNat_ofNat', Nat.mod_mod]
  calc
    frame message = le32 (UInt32.ofNat message.length) ++
        (message.take (message.length % 2 ^ 32) ++ message.drop (message.length % 2 ^ 32)) := by
      rw [List.take_append_drop, frame]
    _ = _ := by rw [frame, hlength, hannounced, List.append_assoc]

/-- The receiver takes the bytes behind the remainder for the beginning of the next frame. -/
theorem drain_frame_append (message rest : Bytes) :
    grammar.drain (frame message ++ rest) =
      (message.take (message.length % 2 ^ 32) ::
          (grammar.drain (message.drop (message.length % 2 ^ 32) ++ rest)).1,
        (grammar.drain (message.drop (message.length % 2 ^ 32) ++ rest)).2) := by
  rw [frame_eq_append, List.append_assoc]
  apply grammar.drain_of_some
  apply readFrame_frame_append le_rfl
  rw [List.length_take]
  exact (Nat.min_le_left _ _).trans_lt (Nat.mod_lt _ (by decide))

/-- Zeros are read as empty messages. -/
theorem drain_zeros (count : ℕ) :
    grammar.drain (List.replicate (4 * count) 0) = (List.replicate count [], []) := by
  have hframes : List.replicate (4 * count) 0 = Decoder.encodeAll frame (List.replicate count []) := by
    induction count with
    | zero => rfl
    | succ count ih =>
      rw [Nat.mul_succ, Nat.add_comm, List.replicate_add, ih]
      rfl
  rw [hframes]
  apply (drain_frames_iff _).2
  intro message hmem
  rw [List.eq_of_mem_replicate hmem]
  decide

/-- Zeros whose number is a multiple of `2 ^ 32` are announced as an empty message. -/
theorem drain_stream_zeros (count : ℕ) (hcount : 4 * count % 2 ^ 32 = 0) :
    grammar.drain (stream [accepted (List.replicate (4 * count) 0)]) =
      (List.replicate (count + 1) [], []) := by
  have hstream : stream [accepted (List.replicate (4 * count) 0)] =
      frame (List.replicate (4 * count) 0) ++ [] := stream_of_sent (List.forall_mem_singleton.2 rfl)
  rw [hstream, drain_frame_append, List.length_replicate, hcount, List.take_zero, List.drop_zero,
    List.append_nil, drain_zeros]
  rfl

/-! ## Sequences of calls -/

/-- The calls for a sequence of slices are faithful exactly if every slice is shorter than `2 ^ 32`
bytes. -/
theorem faithful_iff (messages : List Bytes) :
    Faithful messages ↔ ∀ message ∈ messages, message.length < 2 ^ 32 := by
  constructor
  · intro hfaithful
    have hsent : ∀ call ∈ messages.map accepted, call.sent = true := by
      intro call hcall
      obtain ⟨message, -, rfl⟩ := List.mem_map.1 hcall
      rfl
    have hmessages : (messages.map accepted).map SendCall.message = messages := by
      rw [List.map_map]
      exact List.map_id messages
    have hdrain := hfaithful.decodes _ hmessages hsent
    rw [← hmessages]
    apply (drain_stream_iff hsent).1
    rw [hdrain, hmessages]
  · intro hshort
    constructor
    · rintro calls rfl hsent
      exact (drain_stream_iff hsent).2 hshort
    · rintro calls rfl call hcall hlong
      have hlength := hshort call.message (List.mem_map_of_mem hcall)
      exact absurd hlength (Nat.not_lt.2 hlong)

/-- One slice of `2 ^ 32` zeros, accepted by the stream: the call returns `Ok`, and what arrives is
read as `2 ^ 30 + 1` empty messages. -/
theorem not_faithful_zeros :
    (accepted (List.replicate (2 ^ 32) 0)).sent = true ∧
      grammar.drain (stream [accepted (List.replicate (2 ^ 32) 0)]) =
        (List.replicate (2 ^ 30 + 1) [], []) ∧
      ¬ Faithful [List.replicate (2 ^ 32) 0] := by
  have hdrain : grammar.drain (stream [accepted (List.replicate (2 ^ 32) 0)]) =
      (List.replicate (2 ^ 30 + 1) [], []) := by
    have hcount : 2 ^ 32 = 4 * 2 ^ 30 := by norm_num
    rw [hcount]
    exact drain_stream_zeros _ (by norm_num)
  refine ⟨rfl, hdrain, fun hfaithful ↦ ?_⟩
  have hread := hfaithful.decodes [accepted (List.replicate (2 ^ 32) 0)] rfl
    (List.forall_mem_singleton.2 rfl)
  have hlength := congrArg (fun read ↦ read.1.length) (hdrain.symm.trans hread)
  rw [List.length_replicate, List.length_singleton] at hlength
  exact absurd hlength (by decide)

end WindowCaster.Client.Sending
