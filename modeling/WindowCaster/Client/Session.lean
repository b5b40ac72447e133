import WindowCaster.Client.Main

/-!
# The client's side of the conversation

Every command follows one pattern: write a request, read an answer, parse it, go on with the next
request. Only the request that ends a video is not answered. `Script` describes a program by this
pattern, stage by stage, together with the requests that are still to come; `Sends` is the
corresponding judgement for a part of a program.
-/

namespace WindowCaster.Client.Session

open Foundation.Interaction Foundation.LengthFraming Foundation.Text
open Protocol.Messages Protocol.Readers Network Requests Video Main

variable {α β : Type}

/-- What the next call of a client is for: the length of a request or the end, the content of a
request, the length of an answer or the end, the content of an answer. -/
inductive Stage
  | request
  | content (message : Bytes)
  | length
  | body (length : ℕ)

/-- The program is at this stage, and the listed requests follow, if all calls succeed and every
answer parses. -/
inductive Script (codec : Codec) : Stage → Program Tcp α → List ClientRequest → Prop
  | stop {result : α} : Script codec .request (.done result) []
  | request {request : ClientRequest} {message : Bytes} {requests : List ClientRequest}
      {next : Bool → Program Tcp α} (hwrite : codec.writeToBytes request = some message)
      (hnext : Script codec (.content message) (next true) requests) :
      Script codec .request (.ask (.writeAll (le32 (UInt32.ofNat message.length))) next)
        (request :: requests)
  | content {message : Bytes} {requests : List ClientRequest} {next : Bool → Program Tcp α}
      (hnext : Script codec .length (next true) requests) :
      Script codec (.content message) (.ask (.writeAll message) next) requests
  | leave {result : α} : Script codec .length (.done result) []
  | length {requests : List ClientRequest}
      {next : Option { bytes : Bytes // bytes.length = 4 } → Program Tcp α}
      (hnext : ∀ lenBytes, Script codec (.body (readLe32 lenBytes.val).toNat)
        (next (some lenBytes)) requests) :
      Script codec .length (.ask (.readExact 4) next) requests
  | body {length : ℕ} {requests : List ClientRequest}
      {next : Option { bytes : Bytes // bytes.length = length } → Program Tcp α}
      (hnext : ∀ bytes, (codec.parseFromBytes bytes.val).isSome →
        Script codec .request (next (some bytes)) requests) :
      Script codec (.body length) (.ask (.readExact length) next) requests

/-- The program sends these requests, one after the other with their answers, and then returns a
value with this property. -/
def Sends (codec : Codec) (program : Program Tcp α) (requests : List ClientRequest)
    (post : α → Prop) : Prop :=
  ∀ (β : Type) (after : α → Program Tcp β) (rest : List ClientRequest),
    (∀ value, post value → Script codec .request (after value) rest) →
    Script codec .request (program >>= after) (requests ++ rest)

theorem sends_pure {codec : Codec} {value : α} {post : α → Prop} (h : post value) :
    Sends codec (pure value) [] post := by
  intro β after rest hafter
  rw [pure_bind]
  exact hafter value h

theorem Sends.bind {codec : Codec} {program : Program Tcp α} {after : α → Program Tcp β}
    {first second : List ClientRequest} {middle : α → Prop} {post : β → Prop}
    (h : Sends codec program first middle)
    (hafter : ∀ value, middle value → Sends codec (after value) second post) :
    Sends codec (program >>= after) (first ++ second) post := by
  intro γ last rest hlast
  rw [bind_assoc, List.append_assoc]
  apply h
  intro value hvalue
  exact hafter value hvalue γ last rest hlast

theorem Sends.script {codec : Codec} {program : Program Tcp α} {requests : List ClientRequest}
    {post : α → Prop} (h : Sends codec program requests post) :
    Script codec .request program requests := by
  have hscript := h α pure [] fun value _ ↦ .stop
  rwa [bind_pure, List.append_nil] at hscript

/-- An exchange sends its request and returns an answer. -/
theorem sends_exchange {codec : Codec} {request : ClientRequest} {message : Bytes}
    (hwrite : codec.writeToBytes request = some message) :
    Sends codec (exchange codec ⟨true⟩ message) [request] fun response ↦ response.isSome := by
  intro β after rest hafter
  refine .request hwrite (.content (.length fun lenBytes ↦ .body fun bytes hparse ↦ ?_))
  exact hafter _ hparse

/-! ## The requests of a command -/

section Requests

variable {Packet Frame : Type} (codec : Codec) (hwnd : UInt64) (input : Input Packet Frame)

/-- The request, if it can be written. -/
def writable (request : ClientRequest) : Option ClientRequest :=
  (codec.writeToBytes request).map fun _ ↦ request

/-- The request for a frame, if it can be scaled and written. -/
def pictureRequest (picture : Frame) : Option ClientRequest :=
  (input.scale picture).bind fun frameData ↦
    writable codec (videoFrameRequest hwnd frameData input.width input.height)

/-- The requests for these frames up to the first one that fails, and whether none fails. -/
def frameRequests : List Frame → List ClientRequest × Bool
  | [] => ([], true)
  | picture :: pictures =>
    match pictureRequest codec hwnd input picture with
    | none => ([], false)
    | some request => (request :: (frameRequests pictures).1, (frameRequests pictures).2)

/-- The requests while these packets of the chosen stream go into the decoder. -/
def packetRequests : List Packet → input.decoder.State → List ClientRequest × Bool
  | [], _ => ([], true)
  | packet :: packets, state =>
    match input.decoder.sendPacket state packet with
    | none => ([], false)
    | some ready =>
      let frames := frameRequests codec hwnd input (input.decoder.drain ready).1
      let rest := packetRequests packets (input.decoder.drain ready).2
      if frames.2 then (frames.1 ++ rest.1, rest.2) else frames

/-- The requests of a video: those of its frames, and the one that ends it. -/
def videoRequests : List ClientRequest :=
  let frames := packetRequests codec hwnd input (input.chosen input.packets) input.decoder.start
  let ending := writable codec (videoFrameRequest hwnd [] input.width input.height)
  if frames.2 then frames.1 ++ ending.toList else frames.1

/-- The requests of a command, all of them if nothing fails before they are sent. -/
def requests : Command Packet Frame → List ClientRequest
  | .list => (writable codec ⟨some .getWindowList⟩).toList
  | .image (some hwnd) (some img) => (writable codec (imageRenderRequest hwnd img)).toList
  | .image _ _ => []
  | .video (some hwnd) (some input) => videoRequests codec hwnd input
  | .video _ _ => []

end Requests

/-! ## The commands follow the pattern -/

section Commands

variable {Packet Frame : Type} {codec : Codec} {hwnd : UInt64} {input : Input Packet Frame}

theorem writable_eq_some {request request' : ClientRequest} :
    writable codec request = some request' ↔
      request' = request ∧ ∃ message, codec.writeToBytes request = some message := by
  cases h : codec.writeToBytes request <;> simp [writable, h, eq_comm]

theorem writable_eq_none {request : ClientRequest} :
    writable codec request = none ↔ codec.writeToBytes request = none :=
  Option.map_eq_none_iff

/-- A frame without a request ends the video with an error. -/
theorem renderFrame_of_none {picture : Frame} (h : pictureRequest codec hwnd input picture = none) :
    renderFrame codec ⟨true⟩ hwnd input picture = pure false := by
  have hnone : frameRequest codec hwnd input picture = none := by
    cases hscale : input.scale picture with
    | none => simp [frameRequest, hscale]
    | some frameData =>
      rw [pictureRequest, hscale, Option.bind_some, writable_eq_none] at h
      simp [frameRequest, hscale, createVideoFrameRequest, h]
  rw [renderFrame, hnone]

/-- A frame with a request is an exchange. -/
theorem sends_renderFrame {picture : Frame} {request : ClientRequest}
    (h : pictureRequest codec hwnd input picture = some request) :
    Sends codec (renderFrame codec ⟨true⟩ hwnd input picture) [request] fun sent ↦ sent = true := by
  obtain ⟨frameData, hscale, hrequest⟩ := Option.bind_eq_some_iff.1 h
  obtain ⟨rfl, message, hwrite⟩ := writable_eq_some.1 hrequest
  have hsome : frameRequest codec hwnd input picture = some message := by
    simp [frameRequest, hscale, createVideoFrameRequest, hwrite]
  rw [renderFrame, hsome]
  apply (sends_exchange hwrite).bind
  intro response hresponse
  exact sends_pure hresponse

theorem sends_renderAvailable (codec : Codec) (hwnd : UInt64) (state : input.decoder.State) :
    Sends codec (renderAvailable codec ⟨true⟩ hwnd input state)
      (frameRequests codec hwnd input (input.decoder.drain state).1).1 fun drained ↦
        drained = if (frameRequests codec hwnd input (input.decoder.drain state).1).2 then
          some (input.decoder.drain state).2 else none := by
  induction state using input.decoder.drain_induction with
  | hnone state hnone =>
    rw [renderAvailable_of_none hnone, input.decoder.drain_of_none hnone]
    exact sends_pure rfl
  | hsome state picture next hsome ih =>
    rw [renderAvailable_of_some hsome, input.decoder.drain_of_some hsome, frameRequests]
    cases hrequest : pictureRequest codec hwnd input picture with
    | none =>
      rw [renderFrame_of_none hrequest, pure_bind]
      exact sends_pure rfl
    | some request =>
      apply (sends_renderFrame hrequest).bind
      rintro sent rfl
      exact ih

theorem sends_renderPackets (codec : Codec) (hwnd : UInt64) (packets : List (ℕ × Packet))
    (state : input.decoder.State) :
    Sends codec (renderPackets codec ⟨true⟩ hwnd input packets state)
      (packetRequests codec hwnd input (input.chosen packets) state).1 fun last ↦
        last.isSome = (packetRequests codec hwnd input (input.chosen packets) state).2 := by
  induction packets generalizing state with
  | nil => exact sends_pure rfl
  | cons packet packets ih =>
    obtain ⟨index, packet⟩ := packet
    rw [renderPackets]
    by_cases hindex : index = input.videoStreamIndex
    · rw [if_pos hindex, input.chosen_cons_of_eq hindex, packetRequests]
      cases input.decoder.sendPacket state packet with
      | none => exact sends_pure rfl
      | some ready =>
        have havailable := sends_renderAvailable codec hwnd ready
        dsimp only
        cases hframes : (frameRequests codec hwnd input (input.decoder.drain ready).1).2 with
        | false =>
          rw [hframes] at havailable
          rw [if_neg Bool.false_ne_true, hframes, ← List.append_nil (frameRequests _ _ _ _).1]
          apply havailable.bind
          rintro _ rfl
          exact sends_pure rfl
        | true =>
          rw [hframes] at havailable
          rw [if_pos rfl]
          apply havailable.bind
          rintro _ rfl
          exact ih _
    · rw [if_neg hindex, input.chosen_cons_of_ne hindex]
      exact ih state

/-- A request that nobody waits for is the last one. -/
theorem script_sendMessage {request : ClientRequest} {message : Bytes}
    (hwrite : codec.writeToBytes request = some message) :
    Script codec .request (NetworkClient.sendMessage ⟨true⟩ message) [request] :=
  .request hwrite (.content .leave)

theorem script_renderVideo (hwnd : UInt64) (input : Input Packet Frame) :
    Script codec .request (renderVideo codec ⟨true⟩ hwnd input) (videoRequests codec hwnd input) := by
  have hpackets :=
    sends_renderPackets codec hwnd input.packets input.decoder.start
  unfold videoRequests
  dsimp only
  cases hframes : (packetRequests codec hwnd input (input.chosen input.packets)
      input.decoder.start).2 with
  | false =>
    rw [hframes] at hpackets
    rw [if_neg Bool.false_ne_true, ← List.append_nil (packetRequests _ _ _ _ _).1]
    apply hpackets
    intro last hlast
    rw [Option.isSome_eq_false_iff, Option.isNone_iff_eq_none] at hlast
    rw [hlast]
    exact .stop
  | true =>
    rw [hframes] at hpackets
    rw [if_pos rfl]
    apply hpackets
    intro last hlast
    obtain ⟨last, rfl⟩ := Option.isSome_iff_exists.1 hlast
    simp only [endRequest, createVideoFrameRequest, writable]
    cases hwrite : codec.writeToBytes (videoFrameRequest hwnd [] input.width input.height) with
    | none => exact .stop
    | some message => exact script_sendMessage hwrite

theorem sends_runImage (hwnd : UInt64) (img : RgbImage) :
    Sends codec (runImage codec ⟨true⟩ (some hwnd) (some img))
      (writable codec (imageRenderRequest hwnd img)).toList fun _ ↦ True := by
  simp only [runImage, createImageRenderRequest_some, writable]
  cases hwrite : codec.writeToBytes (imageRenderRequest hwnd img) with
  | none => exact sends_pure trivial
  | some message =>
    apply (sends_exchange hwrite).bind
    intro response _
    exact sends_pure trivial

theorem sends_runList (manager : WindowManager) :
    Sends codec (runList codec ⟨true⟩ manager)
      (writable codec ⟨some .getWindowList⟩).toList fun _ ↦ True := by
  simp only [runList, createGetWindowListRequest, writable]
  cases hwrite : codec.writeToBytes ⟨some .getWindowList⟩ with
  | none => exact sends_pure trivial
  | some message =>
    apply (sends_exchange hwrite).bind
    intro response _
    cases response with
    | none => exact sends_pure trivial
    | some resp =>
      dsimp only
      split <;> exact sends_pure trivial

/-- Every command follows the pattern, with its own requests. -/
theorem script_main (command : Command Packet Frame) :
    Script codec .request (main codec ⟨true⟩ command) (requests codec command) := by
  match command with
  | .list =>
    rw [requests, ← List.append_nil (writable codec _).toList]
    apply sends_runList
    intro listed _
    exact .stop
  | .image (some hwnd) (some img) => exact (sends_runImage hwnd img).script
  | .image (some hwnd) none => exact .stop
  | .image none opened => cases opened <;> exact .stop
  | .video (some hwnd) (some input) => exact script_renderVideo hwnd input
  | .video (some hwnd) none => exact .stop
  | .video none input => cases input <;> exact .stop

/-! ## What is requested -/

theorem frameData_of_mem_frameRequests {pictures : List Frame} {request : ClientRequest}
    (h : request ∈ (frameRequests codec hwnd input pictures).1) :
    ∃ frameData,
      writable codec (videoFrameRequest hwnd frameData input.width input.height) = some request := by
  induction pictures with
  | nil => cases h
  | cons picture pictures ih =>
    rw [frameRequests] at h
    cases hpicture : pictureRequest codec hwnd input picture with
    | none =>
      rw [hpicture] at h
      cases h
    | some first =>
      rw [hpicture] at h
      obtain rfl | h := List.mem_cons.1 h
      · obtain ⟨frameData, -, hwritable⟩ := Option.bind_eq_some_iff.1 hpicture
        exact ⟨frameData, hwritable⟩
      · exact ih h

theorem frameData_of_mem_packetRequests {packets : List Packet} {state : input.decoder.State}
    {request : ClientRequest} (h : request ∈ (packetRequests codec hwnd input packets state).1) :
    ∃ frameData,
      writable codec (videoFrameRequest hwnd frameData input.width input.height) = some request := by
  induction packets generalizing state with
  | nil => cases h
  | cons packet packets ih =>
    rw [packetRequests] at h
    cases hready : input.decoder.sendPacket state packet with
    | none =>
      rw [hready] at h
      cases h
    | some ready =>
      rw [hready] at h
      dsimp only at h
      split at h
      · obtain h | h := List.mem_append.1 h
        · exact frameData_of_mem_frameRequests h
        · exact ih h
      · exact frameData_of_mem_frameRequests h

/-- The requests of a video are frames for its window, the empty one included. -/
theorem frameData_of_mem_videoRequests {request : ClientRequest}
    (h : request ∈ videoRequests codec hwnd input) :
    ∃ frameData,
      writable codec (videoFrameRequest hwnd frameData input.width input.height) = some request := by
  unfold videoRequests at h
  dsimp only at h
  split at h
  · obtain h | h := List.mem_append.1 h
    · exact frameData_of_mem_packetRequests h
    · exact ⟨[], Option.mem_toList.1 h⟩
  · exact frameData_of_mem_packetRequests h

/-- All requests can be written. -/
theorem write_of_mem_requests {command : Command Packet Frame} {request : ClientRequest}
    (h : request ∈ requests codec command) : ∃ message, codec.writeToBytes request = some message := by
  have hwrite {request' : ClientRequest} (hwritable : writable codec request' = some request) :
      ∃ message, codec.writeToBytes request = some message := by
    obtain ⟨rfl, hwrite⟩ := writable_eq_some.1 hwritable
    exact hwrite
  match command with
  | .list => exact hwrite (Option.mem_toList.1 h)
  | .image (some hwnd) (some img) => exact hwrite (Option.mem_toList.1 h)
  | .image (some hwnd) none => cases h
  | .image none opened => cases opened <;> cases h
  | .video none input => cases input <;> cases h
  | .video (some hwnd) none => cases h
  | .video (some hwnd) (some input) =>
    obtain ⟨frameData, hwritable⟩ := frameData_of_mem_videoRequests h
    exact hwrite hwritable

end Commands

end WindowCaster.Client.Session
