import WindowCaster.Foundation.LengthFraming
import WindowCaster.Server.Win32

/-!
# `SendMessage`

A response goes out in two calls of `send`, the length first. Each call either fails with nothing
transmitted or transmits some of the bytes it was given, and the function looks only for failure.
The stream of a connection therefore stays framed exactly when every successful call takes all its
bytes and nothing is sent any more after a call that did not.
-/

namespace WindowCaster.Server.Sending

open Foundation.Interaction Foundation.StreamDecoder.Decoder Foundation.LengthFraming
open Foundation.Text Win32

/-- `static_cast<uint32_t>(message.size())`, copied byte by byte on a little-endian machine. -/
def lenPrefix (message : Bytes) : Bytes := le32 (UInt32.ofNat message.length)

/-- `static_cast<int>(message.size())` -/
def contentLength (message : Bytes) : Int32 := toLong (UInt64.ofNat message.length)

def sendMessage (clientSocket : Socket) (message : Bytes) : Program Os Bool := do
  if clientSocket = none then return false
  let bytesSent : Option ℕ ← os (.send clientSocket (lenPrefix message) 4)
  if bytesSent = none then return false
  let bytesSent : Option ℕ ← os (.send clientSocket message (contentLength message))
  if bytesSent = none then return false
  return true

/-! ## What a run puts on the connection -/

/-- A successful `send` of `count` bytes transmits the first `count` bytes of its buffer. -/
def transmitted : Event Os → Bytes
  | ⟨.send _ buffer _, some count⟩ => buffer.take count
  | _ => []

def written (trace : List (Event Os)) : Bytes := trace.flatMap transmitted

/-- The outcomes Winsock allows: failure, or a count from one to the requested length. -/
def AllowedSend : Event Os → Prop
  | ⟨.send _ _ length, some count⟩ =>
    (count : ℤ) ≤ length.toInt ∧ (1 ≤ count ∨ length.toInt = 0)
  | _ => True

instance (event : Event Os) : Decidable (AllowedSend event) := by
  unfold AllowedSend
  split <;> infer_instance

@[simp]
theorem written_nil : written [] = [] := rfl

@[simp]
theorem written_cons (event : Event Os) (trace : List (Event Os)) :
    written (event :: trace) = transmitted event ++ written trace := rfl

@[simp]
theorem written_append (first second : List (Event Os)) :
    written (first ++ second) = written first ++ written second :=
  List.flatMap_append

/-- One call of `SendMessage` on an open connection: its trace is determined by the outcomes. -/
theorem runs_sendMessage {socket : ℕ} {message : Bytes} {trace : List (Event Os)} {sent : Bool} :
    (sendMessage (some socket) message).Runs trace sent ↔
      trace = [⟨.send (some socket) (lenPrefix message) 4, none⟩] ∧ sent = false ∨
      (∃ first, trace = [⟨.send (some socket) (lenPrefix message) 4, some first⟩,
        ⟨.send (some socket) message (contentLength message), none⟩] ∧ sent = false) ∨
      ∃ first second, trace = [⟨.send (some socket) (lenPrefix message) 4, some first⟩,
        ⟨.send (some socket) message (contentLength message), some second⟩] ∧ sent = true := by
  simp only [sendMessage, reduceCtorEq, if_false, Program.runs_bind, runs_os]
  constructor
  · rintro ⟨_, _, first, rfl, rfl, h⟩
    cases first with
    | none => simp_all
    | some first =>
      simp only [reduceCtorEq, if_false, Program.runs_bind, runs_os] at h
      obtain ⟨_, _, second, rfl, rfl, h⟩ := h
      cases second <;> simp_all
  · rintro (⟨rfl, rfl⟩ | ⟨first, rfl, rfl⟩ | ⟨first, second, rfl, rfl⟩)
    · exact ⟨_, [], none, rfl, rfl, by simp⟩
    · exact ⟨_, _, some first, rfl, rfl, by simp [Program.runs_bind]⟩
    · exact ⟨_, _, some first, rfl, rfl, by simp [Program.runs_bind]⟩

/-! ## The stream of a connection -/

/-- One call of `SendMessage`: what it was given, what happened and what it returned. -/
structure SendCall where
  message : Bytes
  trace : List (Event Os)
  sent : Bool

/-- These calls were made one after the other on one open connection. -/
def OnConnection (socket : ℕ) (calls : List SendCall) : Prop :=
  ∀ call ∈ calls, (sendMessage (some socket) call.message).Runs call.trace call.sent ∧
    ∀ event ∈ call.trace, AllowedSend event

/-- The bytes on the connection are at all times a prefix of the frames of the messages, a call
returns `true` exactly when its frame is complete, and nothing follows an incomplete frame. -/
structure Framed (calls : List SendCall) : Prop where
  atAllTimes : ∀ earlier call later events rest, calls = earlier ++ call :: later →
    call.trace = events ++ rest →
    written (earlier.flatMap SendCall.trace) ++ written events <+:
      encodeAll frame ((earlier ++ [call]).map SendCall.message)
  returns : ∀ call ∈ calls, (call.sent = true ↔ written call.trace = frame call.message)
  stops : ∀ earlier call later, calls = earlier ++ call :: later →
    written call.trace ≠ frame call.message → ∀ other ∈ later, written other.trace = []

/-- The outcomes of the calls of `send` in a trace. -/
def outcomes (trace : List (Event Os)) : List (Option ℕ) :=
  trace.filterMap fun
    | ⟨.send _ _ _, outcome⟩ => some outcome
    | _ => none

/-- Both calls of `send` took everything they were given. -/
def Whole (call : SendCall) : Prop :=
  outcomes call.trace = [some 4, some call.message.length]

/-- A call whose return value is right: it was whole, or a call of `send` failed before the frame
was complete. The frame of an empty message is complete with its length. -/
def Clean (call : SendCall) : Prop :=
  Whole call ∨ outcomes call.trace = [none] ∨
    ∃ first, outcomes call.trace = [some first, none] ∧ (first = 4 → call.message ≠ [])

theorem contentLength_le (message : Bytes) : (contentLength message).toInt ≤ message.length := by
  rw [contentLength, toInt_toLong, UInt64.toNat_ofNat', Int.bmod_def]
  split <;> omega

theorem frame_eq_lenPrefix (message : Bytes) : frame message = lenPrefix message ++ message := rfl

theorem allowedSend_lenPrefix {socket : Socket} {buffer : Bytes} {first : ℕ}
    (h : AllowedSend ⟨.send socket buffer 4, some first⟩) : 1 ≤ first ∧ first ≤ 4 := by
  have hfour : (4 : Int32).toInt = 4 := by decide
  simp only [AllowedSend, hfour] at h
  omega

/-- What the outcomes of one call say about the bytes it wrote. -/
theorem written_of_outcomes {socket : ℕ} {call : SendCall}
    (hruns : (sendMessage (some socket) call.message).Runs call.trace call.sent)
    (hallowed : ∀ event ∈ call.trace, AllowedSend event) :
    outcomes call.trace = [none] ∧ written call.trace = [] ∧ call.sent = false ∨
    (∃ first, outcomes call.trace = [some first, none] ∧ (1 ≤ first ∧ first ≤ 4) ∧
      written call.trace = (lenPrefix call.message).take first ∧ call.sent = false) ∨
    ∃ first second, outcomes call.trace = [some first, some second] ∧ (1 ≤ first ∧ first ≤ 4) ∧
      second ≤ call.message.length ∧
      written call.trace = (lenPrefix call.message).take first ++ call.message.take second ∧
      call.sent = true := by
  obtain ⟨htrace, hsent⟩ | ⟨first, htrace, hsent⟩ | ⟨first, second, htrace, hsent⟩ :=
    runs_sendMessage.1 hruns
  · exact .inl ⟨by simp [htrace, outcomes], by simp [htrace, transmitted], hsent⟩
  · have hfirst := allowedSend_lenPrefix (hallowed _ (htrace ▸ List.mem_cons_self))
    exact .inr (.inl ⟨first, by simp [htrace, outcomes], hfirst, by simp [htrace, transmitted], hsent⟩)
  · have hfirst := allowedSend_lenPrefix (hallowed _ (htrace ▸ List.mem_cons_self))
    have hsecond : AllowedSend
        ⟨.send (some socket) call.message (contentLength call.message), some second⟩ :=
      hallowed _ (htrace ▸ List.mem_cons_of_mem _ List.mem_cons_self)
    have hlength : second ≤ call.message.length := by
      have hbound := contentLength_le call.message
      have hcount := hsecond.1
      omega
    exact .inr (.inr ⟨first, second, by simp [htrace, outcomes], hfirst, hlength,
      by simp [htrace, transmitted], hsent⟩)

theorem take_append_take_eq_frame {message : Bytes} {first second : ℕ} (hfirst : first ≤ 4)
    (hsecond : second ≤ message.length) :
    (lenPrefix message).take first ++ message.take second = frame message ↔
      first = 4 ∧ second = message.length := by
  have hlength : (lenPrefix message).length = 4 := length_le32 _
  constructor
  · intro h
    have hlen := congrArg List.length h
    rw [List.length_append, List.length_take, List.length_take, hlength, length_frame] at hlen
    omega
  · rintro ⟨rfl, rfl⟩
    rw [List.take_length, ← hlength, List.take_length, frame_eq_lenPrefix]

section Call

variable {socket : ℕ} {call : SendCall}
  (hruns : (sendMessage (some socket) call.message).Runs call.trace call.sent)
  (hallowed : ∀ event ∈ call.trace, AllowedSend event)

include hruns hallowed

/-- A call is clean exactly when it returns `true` for a complete frame and for no other. -/
theorem clean_iff : Clean call ↔ (call.sent = true ↔ written call.trace = frame call.message) := by
  rcases written_of_outcomes hruns hallowed with ⟨ho, hw, hs⟩ | ⟨first, ho, hf, hw, hs⟩ |
    ⟨first, second, ho, hf, hsecond, hw, hs⟩
  · have hne : [] ≠ frame call.message := by simp [frame, le32]
    simp [Clean, Whole, ho, hw, hs, hne]
  · have hframe := take_append_take_eq_frame hf.2 (Nat.zero_le call.message.length)
    rw [List.take_zero, List.append_nil, eq_comm (a := 0), List.length_eq_zero_iff] at hframe
    simp [Clean, Whole, ho, hw, hs, hframe]
  · simp [Clean, Whole, ho, hw, hs, take_append_take_eq_frame hf.2 hsecond]

theorem whole_iff (hclean : Clean call) : Whole call ↔ written call.trace = frame call.message := by
  have hsent := (clean_iff hruns hallowed).1 hclean
  rw [← hsent]
  rcases written_of_outcomes hruns hallowed with ⟨ho, -, hs⟩ | ⟨first, ho, -, -, hs⟩ |
    ⟨first, second, ho, hf, hsecond, hw, hs⟩
  · simp [Whole, ho, hs]
  · simp [Whole, ho, hs]
  · have hwhole := (take_append_take_eq_frame hf.2 hsecond).1 (hw ▸ hsent.1 hs)
    simp [Whole, ho, hs, hwhole]

theorem written_isPrefix_frame (hclean : Clean call) : written call.trace <+: frame call.message := by
  rcases written_of_outcomes hruns hallowed with ⟨-, hw, -⟩ | ⟨first, -, -, hw, -⟩ |
    ⟨first, second, -, -, -, -, hs⟩
  · exact hw ▸ List.nil_prefix
  · rw [hw, frame_eq_lenPrefix]
    exact (List.take_prefix ..).trans (List.prefix_append ..)
  · have hwhole : written call.trace = frame call.message :=
      ((clean_iff hruns hallowed).1 hclean).1 hs
    exact hwhole ▸ List.prefix_rfl

theorem written_eq_nil_iff : written call.trace = [] ↔ outcomes call.trace = [none] := by
  have hnonempty (first : ℕ) (h : 1 ≤ first) : (lenPrefix call.message).take first ≠ [] := by
    simp [lenPrefix, le32]
    omega
  rcases written_of_outcomes hruns hallowed with ⟨ho, hw, -⟩ | ⟨first, ho, hf, hw, -⟩ |
    ⟨first, second, ho, hf, -, hw, -⟩
  · simp [ho, hw]
  · simp [ho, hw, hnonempty first hf.1]
  · simp only [ho, hw, List.append_eq_nil_iff, hnonempty first hf.1]
    simp

end Call

theorem written_flatMap_eq_nil {calls : List SendCall} (h : ∀ call ∈ calls, written call.trace = []) :
    written (calls.flatMap SendCall.trace) = [] := by
  induction calls with
  | nil => rfl
  | cons call calls ih =>
    obtain ⟨hcall, hrest⟩ := List.forall_mem_cons.1 h
    calc
      _ = written call.trace ++ written (calls.flatMap SendCall.trace) := by
        rw [List.flatMap_cons, written_append]
      _ = [] := by rw [hcall, ih hrest, List.nil_append]

/-- After an incomplete frame nothing more is sent. -/
def StopsAfterIncomplete (calls : List SendCall) : Prop :=
  ∀ earlier call later, calls = earlier ++ call :: later → ¬ Whole call →
    ∀ other ∈ later, outcomes other.trace = [none]

theorem StopsAfterIncomplete.tail {call : SendCall} {calls : List SendCall}
    (h : StopsAfterIncomplete (call :: calls)) : StopsAfterIncomplete calls :=
  fun earlier other later heq ↦ h (call :: earlier) other later (by rw [heq, List.cons_append])

/-- Clean calls put a prefix of their frames on the connection, at every moment. -/
theorem written_isPrefix {socket : ℕ} {calls : List SendCall} (hcalls : OnConnection socket calls)
    (hclean : ∀ call ∈ calls, Clean call) (hstops : StopsAfterIncomplete calls)
    (earlier later : List SendCall) (call : SendCall) (events rest : List (Event Os))
    (heq : calls = earlier ++ call :: later) (htrace : call.trace = events ++ rest) :
    written (earlier.flatMap SendCall.trace) ++ written events <+:
      encodeAll frame ((earlier ++ [call]).map SendCall.message) := by
  induction earlier generalizing calls with
  | nil =>
    have hmem : call ∈ calls := by simp [heq]
    have hcall := written_isPrefix_frame (hcalls call hmem).1 (hcalls call hmem).2 (hclean call hmem)
    rw [htrace, written_append] at hcall
    simpa using (List.prefix_append _ _).trans hcall
  | cons first earlier ih =>
    obtain ⟨calls, rfl⟩ : ∃ tail, calls = first :: tail := ⟨_, heq⟩
    obtain ⟨hfirst, htail⟩ := List.forall_mem_cons.1 hcalls
    obtain ⟨hfirstClean, htailClean⟩ := List.forall_mem_cons.1 hclean
    have heq' : calls = earlier ++ call :: later := by simpa using heq
    by_cases hwhole : Whole first
    · have hinit := ih htail htailClean hstops.tail heq'
      rw [List.flatMap_cons, written_append, (whole_iff hfirst.1 hfirst.2 hfirstClean).1 hwhole]
      simpa using hinit
    · have hsilent : ∀ other ∈ calls, written other.trace = [] := fun other hother ↦
        (written_eq_nil_iff (htail other hother).1 (htail other hother).2).2
          (hstops [] first calls rfl hwhole other hother)
      have hearlier := written_flatMap_eq_nil fun other hother ↦
        hsilent other (heq' ▸ List.mem_append_left _ hother)
      have hevents : written events = [] := by
        have hnone := hsilent call (by simp [heq'])
        rw [htrace, written_append] at hnone
        exact (List.append_eq_nil_iff.1 hnone).1
      have hinit := written_isPrefix_frame hfirst.1 hfirst.2 hfirstClean
      rw [List.flatMap_cons, written_append, hearlier, hevents]
      simpa using hinit.trans (List.prefix_append _ _)

/-- The stream of a connection stays framed exactly when every call is clean and, after a call that
was not whole, every further call fails at its first `send`. -/
theorem framed_iff (socket : ℕ) (calls : List SendCall) (hcalls : OnConnection socket calls) :
    Framed calls ↔ (∀ call ∈ calls, Clean call) ∧ StopsAfterIncomplete calls := by
  constructor
  · intro h
    have hclean : ∀ call ∈ calls, Clean call := fun call hcall ↦
      (clean_iff (hcalls call hcall).1 (hcalls call hcall).2).2 (h.returns call hcall)
    refine ⟨hclean, fun earlier call later heq hwhole other hother ↦ ?_⟩
    have hcall : call ∈ calls := by simp [heq]
    have hmem : other ∈ calls := by simp [heq, hother]
    rw [whole_iff (hcalls call hcall).1 (hcalls call hcall).2 (hclean call hcall)] at hwhole
    exact (written_eq_nil_iff (hcalls other hmem).1 (hcalls other hmem).2).1
      (h.stops earlier call later heq hwhole other hother)
  · rintro ⟨hclean, hstops⟩
    refine ⟨fun earlier call later events rest ↦
      written_isPrefix hcalls hclean hstops earlier later call events rest, fun call hcall ↦
      (clean_iff (hcalls call hcall).1 (hcalls call hcall).2).1 (hclean call hcall), ?_⟩
    intro earlier call later heq hincomplete other hother
    have hcall : call ∈ calls := by simp [heq]
    have hmem : other ∈ calls := by simp [heq, hother]
    have hwhole := whole_iff (hcalls call hcall).1 (hcalls call hcall).2 (hclean call hcall)
    rw [ne_eq, ← hwhole] at hincomplete
    exact (written_eq_nil_iff (hcalls other hmem).1 (hcalls other hmem).2).2
      (hstops earlier call later heq hincomplete other hother)

/-- Two responses that both go out whole. -/
theorem framed_two_whole :
    Framed
      [⟨[7], [⟨.send (some 1) (lenPrefix [7]) 4, some 4⟩, ⟨.send (some 1) [7] 1, some 1⟩], true⟩,
        ⟨[], [⟨.send (some 1) (lenPrefix []) 4, some 4⟩, ⟨.send (some 1) [] 0, some 0⟩], true⟩] := by
  refine (framed_iff 1 _ ?_).2 ⟨?_, ?_⟩
  · refine List.forall_mem_cons.2 ⟨⟨?_, by decide⟩, List.forall_mem_cons.2 ⟨⟨?_, by decide⟩, by simp⟩⟩
    · exact runs_sendMessage.2 (.inr (.inr ⟨4, 1, rfl, rfl⟩))
    · exact runs_sendMessage.2 (.inr (.inr ⟨4, 0, rfl, rfl⟩))
  · simp [Clean, Whole, outcomes]
  · intro earlier call later heq hincomplete
    have hmem : call ∈ earlier ++ call :: later := by simp
    rw [← heq] at hmem
    refine absurd ?_ hincomplete
    simp only [List.mem_cons, List.not_mem_nil, or_false] at hmem
    rcases hmem with rfl | rfl <;> rfl

/-- The body of the first response fails, the second response goes out: the client takes the length
of the second response for the body of the first. -/
theorem not_framed_after_failed_body :
    ∃ calls, OnConnection 1 calls ∧ calls.map SendCall.message = [[1], [2]] ∧
      calls.map (fun call ↦ outcomes call.trace) = [[some 4, none], [some 4, some 1]] ∧
      ¬ Framed calls := by
  refine ⟨[⟨[1], [⟨.send (some 1) (lenPrefix [1]) 4, some 4⟩, ⟨.send (some 1) [1] 1, none⟩], false⟩,
    ⟨[2], [⟨.send (some 1) (lenPrefix [2]) 4, some 4⟩, ⟨.send (some 1) [2] 1, some 1⟩], true⟩],
    ?_, rfl, rfl, fun h ↦ ?_⟩
  · refine List.forall_mem_cons.2 ⟨⟨?_, by decide⟩, List.forall_mem_cons.2 ⟨⟨?_, by decide⟩, by simp⟩⟩
    · exact runs_sendMessage.2 (.inr (.inl ⟨4, rfl, rfl⟩))
    · exact runs_sendMessage.2 (.inr (.inr ⟨4, 1, rfl, rfl⟩))
  · exact absurd (h.atAllTimes [_] _ [] _ [] rfl (List.append_nil _).symm) (by decide)

end WindowCaster.Server.Sending
