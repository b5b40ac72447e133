import WindowCaster.Foundation.Interaction
import WindowCaster.Foundation.LengthFraming

/-!
# The client's connection

`NetworkClient` sends and receives length-prefixed messages over one stream. The stream offers two
calls, `write_all` and `read_exact`, either of which may fail; a failure ends the function with an
error, written here as `false` and `none`.
-/

namespace WindowCaster.Client.Network

open Foundation.Interaction Foundation.LengthFraming Foundation.Text

inductive Call
  | writeAll (bytes : Bytes)
  | readExact (length : ℕ)

/-- `write_all` reports success; a successful `read_exact` fills its whole buffer. -/
abbrev Call.Answer : Call → Type
  | .writeAll _ => Bool
  | .readExact length => Option { bytes : Bytes // bytes.length = length }

abbrev Tcp : Interface := ⟨Call, Call.Answer⟩

def writeAll (bytes : Bytes) : Program Tcp Bool := .perform (I := Tcp) (.writeAll bytes)

def readExact (length : ℕ) : Program Tcp (Option { bytes : Bytes // bytes.length = length }) :=
  .perform (I := Tcp) (.readExact length)

@[simp]
theorem runs_writeAll {bytes : Bytes} {trace : List (Event Tcp)} {sent : Bool} :
    (writeAll bytes).Runs trace sent ↔ trace = [⟨.writeAll bytes, sent⟩] :=
  Program.runs_perform (I := Tcp)

@[simp]
theorem runs_readExact {length : ℕ} {trace : List (Event Tcp)}
    {read : Option { bytes : Bytes // bytes.length = length }} :
    (readExact length).Runs trace read ↔ trace = [⟨.readExact length, read⟩] :=
  Program.runs_perform (I := Tcp)

structure NetworkClient where
  connected : Bool

namespace NetworkClient

/-- The length goes out as `message.len() as u32`, the slice as it is. -/
def sendMessage (client : NetworkClient) (message : Bytes) : Program Tcp Bool :=
  if client.connected then do
    let len := UInt32.ofNat message.length
    if ← writeAll (le32 len) then writeAll message else pure false
  else pure false

def receiveMessage (client : NetworkClient) : Program Tcp (Option Bytes) :=
  if client.connected then do
    match ← readExact 4 with
    | none => pure none
    | some lenBytes =>
      let len := (readLe32 lenBytes.val).toNat
      return (← readExact len).map Subtype.val
  else pure none

end NetworkClient

/-- The bytes that the successful writes of a run put on the stream. -/
def written : List (Event Tcp) → Bytes
  | [] => []
  | ⟨.writeAll bytes, true⟩ :: rest => bytes ++ written rest
  | _ :: rest => written rest

@[simp]
theorem written_append (first second : List (Event Tcp)) :
    written (first ++ second) = written first ++ written second := by
  induction first with
  | nil => rfl
  | cons event first ih =>
    obtain ⟨call, answer⟩ := event
    cases call with
    | writeAll bytes => cases answer <;> simp [written, ih]
    | readExact length => simp [written, ih]

/-- A call that returns without an error has written exactly one frame. -/
theorem written_of_sendMessage {client : NetworkClient} {message : Bytes} {trace : List (Event Tcp)}
    (h : (client.sendMessage message).Runs trace true) : written trace = frame message := by
  cases hconnected : client.connected with
  | false => simp [NetworkClient.sendMessage, hconnected] at h
  | true =>
    simp only [NetworkClient.sendMessage, hconnected, if_true, Program.runs_bind, runs_writeAll] at h
    obtain ⟨first, second, sent, rfl, rfl, hsecond⟩ := h
    cases sent with
    | false => simp at hsecond
    | true =>
      rw [if_pos rfl, runs_writeAll] at hsecond
      simp [hsecond, written, frame]

/-- A call that returns a message has read one length field and that many bytes. -/
theorem trace_of_receiveMessage {client : NetworkClient} {message : Bytes}
    {trace : List (Event Tcp)} (h : client.receiveMessage.Runs trace (some message)) :
    ∃ (lenBytes : { bytes : Bytes // bytes.length = 4 })
      (hmessage : message.length = (readLe32 lenBytes.val).toNat),
      trace = [⟨.readExact 4, some lenBytes⟩,
        ⟨.readExact (readLe32 lenBytes.val).toNat, some ⟨message, hmessage⟩⟩] := by
  cases hconnected : client.connected with
  | false => simp [NetworkClient.receiveMessage, hconnected] at h
  | true =>
    simp only [NetworkClient.receiveMessage, hconnected, if_true, Program.runs_bind,
      runs_readExact] at h
    obtain ⟨first, second, lenBytes, rfl, rfl, hsecond⟩ := h
    cases lenBytes with
    | none => simp at hsecond
    | some lenBytes =>
      simp only [Program.runs_bind, runs_readExact, Program.runs_pure] at hsecond
      obtain ⟨first, second, bytes, rfl, rfl, rfl, hmessage⟩ := hsecond
      cases bytes with
      | none => simp at hmessage
      | some bytes =>
        obtain rfl : message = bytes.val := by simpa using hmessage
        exact ⟨lenBytes, bytes.property, rfl⟩

/-- A connection whose writes succeed takes every message. -/
theorem exists_runs_sendMessage (message : Bytes) :
    ∃ trace, (NetworkClient.sendMessage ⟨true⟩ message).Runs trace true :=
  ⟨_, true, _, rfl, true, _, rfl, rfl, rfl⟩

/-- The bytes that the successful reads of a run took from the stream. -/
def taken : List (Event Tcp) → Bytes
  | [] => []
  | ⟨.readExact _, some bytes⟩ :: rest => bytes.val ++ taken rest
  | _ :: rest => taken rest

@[simp]
theorem taken_append (first second : List (Event Tcp)) :
    taken (first ++ second) = taken first ++ taken second := by
  induction first with
  | nil => rfl
  | cons event first ih =>
    obtain ⟨call, answer⟩ := event
    cases call with
    | writeAll bytes => simp [taken, ih]
    | readExact length => cases answer <;> simp [taken, ih]

theorem taken_of_sendMessage {client : NetworkClient} {message : Bytes} {trace : List (Event Tcp)}
    {sent : Bool} (h : (client.sendMessage message).Runs trace sent) : taken trace = [] := by
  cases hconnected : client.connected with
  | false =>
    simp only [NetworkClient.sendMessage, hconnected, Bool.false_eq_true, if_false,
      Program.runs_pure] at h
    simp [h, taken]
  | true =>
    simp only [NetworkClient.sendMessage, hconnected, if_true, Program.runs_bind, runs_writeAll] at h
    obtain ⟨first, second, begun, rfl, rfl, hsecond⟩ := h
    cases begun with
    | false => simp_all [taken]
    | true =>
      rw [if_pos rfl, runs_writeAll] at hsecond
      simp [hsecond, taken]

/-- Where the stream brings one frame, the message is its content. -/
theorem eq_of_receiveMessage {client : NetworkClient} {message payload : Bytes}
    {trace : List (Event Tcp)} (h : client.receiveMessage.Runs trace (some message))
    (htaken : taken trace = frame payload) : message = payload := by
  obtain ⟨lenBytes, hmessage, rfl⟩ := trace_of_receiveMessage h
  have hlength : lenBytes.val.length = (le32 (UInt32.ofNat payload.length)).length :=
    lenBytes.property
  simp only [taken, List.append_nil, frame] at htaken
  exact (List.append_inj htaken hlength).2

/-- A connection on which one frame arrives returns its content. -/
theorem exists_runs_receiveMessage {payload : Bytes} (hlength : payload.length < 2 ^ 32) :
    ∃ trace, (NetworkClient.receiveMessage ⟨true⟩).Runs trace (some payload) ∧
      taken trace = frame payload := by
  have hpayload : payload.length = (readLe32 (le32 (UInt32.ofNat payload.length))).toNat := by
    have hread := readLe32_le32_append (UInt32.ofNat payload.length) []
    rw [List.append_nil] at hread
    rw [hread, UInt32.toNat_ofNat', Nat.mod_eq_of_lt hlength]
  refine ⟨_, ⟨some ⟨le32 (UInt32.ofNat payload.length), rfl⟩, _, rfl, some ⟨payload, hpayload⟩, _, rfl,
    rfl, rfl⟩, ?_⟩
  simp [taken, frame]

theorem written_of_receiveMessage {client : NetworkClient} {message : Bytes}
    {trace : List (Event Tcp)} (h : client.receiveMessage.Runs trace (some message)) :
    written trace = [] := by
  obtain ⟨lenBytes, hmessage, rfl⟩ := trace_of_receiveMessage h
  simp [written]

end WindowCaster.Client.Network
