import WindowCaster.Client.Session
import WindowCaster.Foundation.Monitoring

/-!
# The client against any server

What the client does must not depend on the good will of the other side. A monitor follows the calls
of a command: the messages of its requests go out one after the other, each as its length and its
content; behind each of them an answer comes in as its length and as many bytes; and after a call
that fails, or an answer that does not parse, there are no more calls. The command reports success
exactly if that has not happened and it could make its requests.
-/

namespace WindowCaster.Client.Conduct

open Foundation.Interaction Foundation.LengthFraming Foundation.Monitoring Foundation.Text
open Protocol.Messages Protocol.Readers Network Requests Video Main Session

variable {α β : Type}

/-- What the next call of a client is for. `left` are the messages that have not been begun. -/
inductive Expected
  | request (left : List Bytes)
  | content (message : Bytes) (left : List Bytes)
  | length (left : List Bytes)
  | body (length : ℕ) (left : List Bytes)
  /-- a call has failed or an answer did not parse -/
  | stopped
  deriving DecidableEq

/-- What the calls on a connection carry and in which order they come, whatever they are answered
with. -/
def conduct (codec : Codec) : Monitor Tcp Expected
  | .request (message :: left), ⟨.writeAll bytes, sent⟩ =>
    if bytes = le32 (UInt32.ofNat message.length) then
      some (if sent then .content message left else .stopped)
    else none
  | .content message left, ⟨.writeAll bytes, sent⟩ =>
    if bytes = message then some (if sent then .length left else .stopped) else none
  | .length left, ⟨.readExact length, answer⟩ =>
    if length = 4 then
      some (answer.elim .stopped fun bytes ↦ .body (readLe32 bytes.val).toNat left)
    else none
  | .body length left, ⟨.readExact length', answer⟩ =>
    if length' = length then
      some (answer.elim .stopped fun bytes ↦
        if (codec.parseFromBytes bytes.val).isSome then .request left else .stopped)
    else none
  | _, _ => none

/-- Every run of the program between two requests is followed to its end. Either these messages have
gone out, each of them has been answered and the value is good, or the client has stopped and the
value is bad. -/
def Conducts (codec : Codec) (program : Program Tcp α) (messages : List Bytes)
    (good bad : α → Prop) : Prop :=
  ∀ left, program.Obeys (fun _ ↦ True) (conduct codec) (.request (messages ++ left)) fun last value ↦
    last = .request left ∧ good value ∨ last = .stopped ∧ bad value

theorem conducts_pure {codec : Codec} {value : α} {good bad : α → Prop} (h : good value) :
    Conducts codec (pure value) [] good bad :=
  fun _ ↦ Program.obeys_pure (.inl ⟨rfl, h⟩)

/-- A value that is bad is passed on without a call. -/
theorem Conducts.bind {codec : Codec} {program : Program Tcp α} {after : α → Program Tcp β}
    {first second : List Bytes} {good bad : α → Prop} {good' bad' : β → Prop}
    (h : Conducts codec program first good bad)
    (hgood : ∀ value, good value → Conducts codec (after value) second good' bad')
    (hbad : ∀ value, bad value → ∃ value', after value = pure value' ∧ bad' value') :
    Conducts codec (program >>= after) (first ++ second) good' bad' := by
  intro left
  rw [List.append_assoc]
  apply (h (second ++ left)).bind
  rintro last value (⟨rfl, hvalue⟩ | ⟨rfl, hvalue⟩)
  · exact hgood value hvalue left
  · obtain ⟨value', hafter, hvalue'⟩ := hbad value hvalue
    rw [hafter]
    exact Program.obeys_pure (.inr ⟨rfl, hvalue'⟩)

/-- What follows makes no call. -/
theorem Conducts.result {codec : Codec} {program : Program Tcp α} {after : α → Program Tcp β}
    {messages : List Bytes} {good bad : α → Prop} {good' bad' : β → Prop}
    (h : Conducts codec program messages good bad)
    (hgood : ∀ value, good value → ∃ value', after value = pure value' ∧ good' value')
    (hbad : ∀ value, bad value → ∃ value', after value = pure value' ∧ bad' value') :
    Conducts codec (program >>= after) messages good' bad' := by
  rw [← List.append_nil messages]
  refine h.bind (fun value hvalue ↦ ?_) hbad
  obtain ⟨value', hafter, hvalue'⟩ := hgood value hvalue
  rw [hafter]
  exact conducts_pure hvalue'

/-! ## The connection -/

section Connection

variable {codec : Codec}

/-- The next message goes out whole, or the client stops. -/
theorem obeys_sendMessage (message : Bytes) (left : List Bytes) :
    (NetworkClient.sendMessage ⟨true⟩ message).Obeys (fun _ ↦ True) (conduct codec)
      (.request (message :: left)) fun last sent ↦
        last = .length left ∧ sent = true ∨ last = .stopped ∧ sent = false := by
  have hwriteLength : (writeAll (le32 (UInt32.ofNat message.length))).Obeys (fun _ ↦ True)
      (conduct codec) (.request (message :: left)) fun last sent ↦
        last = if sent then .content message left else .stopped := by
    apply Program.obeys_perform
    intro sent _
    exact ⟨_, if_pos rfl, rfl⟩
  rw [NetworkClient.sendMessage, if_pos rfl]
  refine hwriteLength.bind fun last sent hlast ↦ ?_
  cases sent with
  | false => exact Program.obeys_pure (.inr ⟨hlast, rfl⟩)
  | true =>
    rw [if_pos rfl] at hlast ⊢
    apply Program.obeys_perform
    intro sent _
    refine ⟨_, by rw [hlast]; exact if_pos rfl, ?_⟩
    cases sent with
    | false => exact .inr ⟨rfl, rfl⟩
    | true => exact .inl ⟨rfl, rfl⟩

/-- An answer comes in whole, or the client stops. -/
theorem obeys_receiveMessage (left : List Bytes) :
    (NetworkClient.receiveMessage ⟨true⟩).Obeys (fun _ ↦ True) (conduct codec) (.length left)
      fun last message ↦ last = .stopped ∧ message = none ∨ ∃ bytes, message = some bytes ∧
        last = if (codec.parseFromBytes bytes).isSome then .request left else .stopped := by
  have hreadLength : (readExact 4).Obeys (fun _ ↦ True) (conduct codec) (.length left)
      fun last answer ↦ last =
        answer.elim .stopped fun bytes ↦ .body (readLe32 bytes.val).toNat left := by
    apply Program.obeys_perform
    intro answer _
    exact ⟨_, rfl, rfl⟩
  rw [NetworkClient.receiveMessage, if_pos rfl]
  refine hreadLength.bind fun last lenBytes hlast ↦ ?_
  cases lenBytes with
  | none => exact Program.obeys_pure (.inl ⟨hlast, rfl⟩)
  | some lenBytes =>
    have hreadContent : (readExact (readLe32 lenBytes.val).toNat).Obeys (fun _ ↦ True)
        (conduct codec) last fun last' answer ↦ last' = answer.elim .stopped fun bytes ↦
          if (codec.parseFromBytes bytes.val).isSome then .request left else .stopped := by
      apply Program.obeys_perform
      intro answer _
      rw [hlast]
      exact ⟨_, if_pos rfl, rfl⟩
    refine hreadContent.bind fun last' answer hlast' ↦ ?_
    cases answer with
    | none => exact Program.obeys_pure (.inl ⟨hlast', rfl⟩)
    | some bytes => exact Program.obeys_pure (.inr ⟨bytes.val, rfl, hlast'⟩)

theorem conducts_exchange (codec : Codec) (message : Bytes) :
    Conducts codec (exchange codec ⟨true⟩ message) [message] (fun response ↦ response.isSome)
      fun response ↦ response = none := by
  intro left
  refine (obeys_sendMessage message left).bind ?_
  rintro last sent (⟨rfl, rfl⟩ | ⟨rfl, rfl⟩)
  · refine (obeys_receiveMessage left).bind ?_
    rintro last message (⟨rfl, rfl⟩ | ⟨bytes, rfl, hlast⟩)
    · exact Program.obeys_pure (.inr ⟨rfl, rfl⟩)
    · apply Program.obeys_pure
      rw [hlast, parseServerResponse]
      cases codec.parseFromBytes bytes with
      | none => exact .inr ⟨rfl, rfl⟩
      | some response => exact .inl ⟨rfl, rfl⟩
  · exact Program.obeys_pure (.inr ⟨rfl, rfl⟩)

end Connection

/-! ## The commands -/

section Commands

variable {Packet Frame : Type} {codec : Codec} {hwnd : UInt64} {input : Input Packet Frame}

/-- The messages that requests are written to. -/
def messages (codec : Codec) (requests : List ClientRequest) : List Bytes :=
  requests.filterMap codec.writeToBytes

theorem messages_append (codec : Codec) (first second : List ClientRequest) :
    messages codec (first ++ second) = messages codec first ++ messages codec second :=
  List.filterMap_append

theorem messages_cons (codec : Codec) (request : ClientRequest) (requests : List ClientRequest) :
    messages codec (request :: requests) = messages codec [request] ++ messages codec requests :=
  messages_append codec [request] requests

theorem messages_of_write {request : ClientRequest} {message : Bytes}
    (hwrite : codec.writeToBytes request = some message) : messages codec [request] = [message] :=
  List.filterMap_cons_some hwrite

/-- A request that cannot be written has no message. -/
theorem messages_writable (request : ClientRequest) :
    messages codec (writable codec request).toList = (codec.writeToBytes request).toList := by
  cases hwrite : codec.writeToBytes request <;> simp [messages, writable, hwrite]

theorem conducts_renderFrame {picture : Frame} {request : ClientRequest}
    (h : pictureRequest codec hwnd input picture = some request) :
    Conducts codec (renderFrame codec ⟨true⟩ hwnd input picture) (messages codec [request])
      (fun sent ↦ sent = true) fun sent ↦ sent = false := by
  obtain ⟨frameData, hscale, hrequest⟩ := Option.bind_eq_some_iff.1 h
  obtain ⟨rfl, message, hwrite⟩ := writable_eq_some.1 hrequest
  have hsome : frameRequest codec hwnd input picture = some message := by
    simp [frameRequest, hscale, createVideoFrameRequest, hwrite]
  rw [renderFrame, hsome, messages_of_write hwrite]
  apply (conducts_exchange codec message).result
  · intro response hresponse
    exact ⟨response.isSome, rfl, hresponse⟩
  · rintro response rfl
    exact ⟨false, rfl, rfl⟩

theorem conducts_renderAvailable (codec : Codec) (hwnd : UInt64) (state : input.decoder.State) :
    Conducts codec (renderAvailable codec ⟨true⟩ hwnd input state)
      (messages codec (frameRequests codec hwnd input (input.decoder.drain state).1).1)
      (fun drained ↦ drained =
        if (frameRequests codec hwnd input (input.decoder.drain state).1).2 then
          some (input.decoder.drain state).2 else none)
      fun drained ↦ drained = none := by
  induction state using input.decoder.drain_induction with
  | hnone state hnone =>
    rw [renderAvailable_of_none hnone, input.decoder.drain_of_none hnone]
    exact conducts_pure rfl
  | hsome state picture next hsome ih =>
    rw [renderAvailable_of_some hsome, input.decoder.drain_of_some hsome, frameRequests]
    cases hrequest : pictureRequest codec hwnd input picture with
    | none =>
      rw [renderFrame_of_none hrequest, pure_bind]
      exact conducts_pure rfl
    | some request =>
      dsimp only
      rw [messages_cons]
      apply (conducts_renderFrame hrequest).bind
      · rintro sent rfl
        exact ih
      · rintro sent rfl
        exact ⟨none, rfl, rfl⟩

theorem conducts_renderPackets (codec : Codec) (hwnd : UInt64) (packets : List (ℕ × Packet))
    (state : input.decoder.State) :
    Conducts codec (renderPackets codec ⟨true⟩ hwnd input packets state)
      (messages codec (packetRequests codec hwnd input (input.chosen packets) state).1)
      (fun last ↦ last.isSome = (packetRequests codec hwnd input (input.chosen packets) state).2)
      fun last ↦ last = none := by
  induction packets generalizing state with
  | nil => exact conducts_pure rfl
  | cons packet packets ih =>
    obtain ⟨index, packet⟩ := packet
    rw [renderPackets]
    by_cases hindex : index = input.videoStreamIndex
    · rw [if_pos hindex, input.chosen_cons_of_eq hindex, packetRequests]
      cases input.decoder.sendPacket state packet with
      | none => exact conducts_pure rfl
      | some ready =>
        have havailable := conducts_renderAvailable codec hwnd ready
        dsimp only
        cases hframes : (frameRequests codec hwnd input (input.decoder.drain ready).1).2 with
        | false =>
          rw [hframes] at havailable
          rw [if_neg Bool.false_ne_true, hframes]
          apply havailable.result
          · rintro _ rfl
            exact ⟨none, rfl, rfl⟩
          · rintro _ rfl
            exact ⟨none, rfl, rfl⟩
        | true =>
          rw [hframes] at havailable
          rw [if_pos rfl, messages_append]
          apply havailable.bind
          · rintro _ rfl
            exact ih _
          · rintro _ rfl
            exact ⟨none, rfl, rfl⟩
    · rw [if_neg hindex, input.chosen_cons_of_ne hindex]
      exact ih state

/-- All requests of the command can be made; for a video this includes the one that ends it. -/
def ready (codec : Codec) : Command Packet Frame → Bool
  | .list => (codec.writeToBytes ⟨some .getWindowList⟩).isSome
  | .image (some hwnd) (some img) => (codec.writeToBytes (imageRenderRequest hwnd img)).isSome
  | .image _ _ => false
  | .video (some hwnd) (some input) =>
    (packetRequests codec hwnd input (input.chosen input.packets) input.decoder.start).2 &&
      (codec.writeToBytes (videoFrameRequest hwnd [] input.width input.height)).isSome
  | .video _ _ => false

/-- The requests whose answers the command waits for: all of them but the one that ends a video. -/
def awaited (codec : Codec) : Command Packet Frame → List ClientRequest
  | .video (some hwnd) (some input) =>
    (packetRequests codec hwnd input (input.chosen input.packets) input.decoder.start).1
  | command => requests codec command

/-- Where a command leaves the connection if no call fails: with no message left, and behind the one
that ends a video in front of an answer. -/
def farewell (codec : Codec) (command : Command Packet Frame) : Expected :=
  match command with
  | .video _ _ => if ready codec command then .length [] else .request []
  | _ => .request []

/-- The one request that is not answered is the one that ends a video. -/
theorem farewell_cases (codec : Codec) (command : Command Packet Frame) :
    farewell codec command = .request [] ∧ requests codec command = awaited codec command ∨
      farewell codec command = .length [] ∧
        ∃ ending, requests codec command = awaited codec command ++ [ending] := by
  match command with
  | .list | .image _ _ => exact .inl ⟨rfl, rfl⟩
  | .video none input => cases input <;> exact .inl ⟨rfl, rfl⟩
  | .video (some hwnd) none => exact .inl ⟨rfl, rfl⟩
  | .video (some hwnd) (some input) =>
    cases hframes : (packetRequests codec hwnd input (input.chosen input.packets)
        input.decoder.start).2 with
    | false => exact .inl (by simp [farewell, ready, awaited, requests, videoRequests, hframes])
    | true =>
      cases hwrite : codec.writeToBytes (videoFrameRequest hwnd [] input.width input.height) with
      | none =>
        left
        simp [farewell, ready, awaited, requests, videoRequests, writable, hframes, hwrite]
      | some message =>
        right
        simp [farewell, ready, awaited, requests, videoRequests, writable, hframes, hwrite]

theorem conducts_runList (manager : WindowManager) :
    Conducts codec (runList codec ⟨true⟩ manager)
      (messages codec (writable codec ⟨some .getWindowList⟩).toList)
      (fun listed ↦ listed.isSome = (codec.writeToBytes ⟨some .getWindowList⟩).isSome)
      fun listed ↦ listed = none := by
  simp only [runList, createGetWindowListRequest, messages_writable]
  cases hwrite : codec.writeToBytes ⟨some .getWindowList⟩ with
  | none => exact conducts_pure rfl
  | some message =>
    apply (conducts_exchange codec message).result
    · intro response hresponse
      obtain ⟨resp, rfl⟩ := Option.isSome_iff_exists.1 hresponse
      cases hlist : resp.windowList with
      | none => exact ⟨some manager, by simp [hlist], rfl⟩
      | some list => exact ⟨some (manager.updateWindows list.windows), by simp [hlist], rfl⟩
    · rintro response rfl
      exact ⟨none, rfl, rfl⟩

theorem conducts_runImage (hwnd : UInt64) (img : RgbImage) :
    Conducts codec (runImage codec ⟨true⟩ (some hwnd) (some img))
      (messages codec (writable codec (imageRenderRequest hwnd img)).toList)
      (fun sent ↦ sent = (codec.writeToBytes (imageRenderRequest hwnd img)).isSome)
      fun sent ↦ sent = false := by
  simp only [runImage, createImageRenderRequest_some, messages_writable]
  cases hwrite : codec.writeToBytes (imageRenderRequest hwnd img) with
  | none => exact conducts_pure rfl
  | some message =>
    apply (conducts_exchange codec message).result
    · intro response hresponse
      exact ⟨response.isSome, rfl, hresponse⟩
    · rintro response rfl
      exact ⟨false, rfl, rfl⟩

/-- The end of a video is not answered. -/
theorem obeys_renderVideo (hwnd : UInt64) (input : Input Packet Frame) :
    (renderVideo codec ⟨true⟩ hwnd input).Obeys (fun _ ↦ True) (conduct codec)
      (.request (messages codec (videoRequests codec hwnd input))) fun last sent ↦
        last = .stopped ∧ sent = false ∨
          sent = ready codec (.video (some hwnd) (some input)) ∧
            last = if sent then .length [] else .request [] := by
  have hpackets := conducts_renderPackets codec hwnd input.packets input.decoder.start
  unfold videoRequests ready
  dsimp only
  cases hframes : (packetRequests codec hwnd input (input.chosen input.packets)
      input.decoder.start).2 with
  | false =>
    rw [hframes] at hpackets
    have hall := hpackets []
    rw [List.append_nil] at hall
    rw [if_neg Bool.false_ne_true]
    refine hall.bind ?_
    rintro last state (⟨rfl, hstate⟩ | ⟨rfl, rfl⟩)
    · rw [Option.isSome_eq_false_iff, Option.isNone_iff_eq_none] at hstate
      rw [hstate]
      exact Program.obeys_pure (.inr ⟨rfl, rfl⟩)
    · exact Program.obeys_pure (.inl ⟨rfl, rfl⟩)
  | true =>
    rw [hframes] at hpackets
    rw [if_pos rfl, messages_append, messages_writable]
    refine (hpackets _).bind ?_
    rintro last state (⟨rfl, hstate⟩ | ⟨rfl, rfl⟩)
    · obtain ⟨state, rfl⟩ := Option.isSome_iff_exists.1 hstate
      simp only [endRequest, createVideoFrameRequest]
      cases codec.writeToBytes (videoFrameRequest hwnd [] input.width input.height) with
      | none => exact Program.obeys_pure (.inr ⟨rfl, rfl⟩)
      | some message =>
        refine (obeys_sendMessage message []).mono ?_
        rintro last sent (⟨rfl, rfl⟩ | ⟨rfl, rfl⟩)
        · exact .inr ⟨rfl, rfl⟩
        · exact .inl ⟨rfl, rfl⟩
    · exact Program.obeys_pure (.inl ⟨rfl, rfl⟩)

theorem obeys_main (codec : Codec) (command : Command Packet Frame) :
    (main codec ⟨true⟩ command).Obeys (fun _ ↦ True) (conduct codec)
      (.request (messages codec (requests codec command))) fun last result ↦
        last = .stopped ∧ result = false ∨
          last = farewell codec command ∧ result = ready codec command := by
  have hconducts {program : Program Tcp Bool} {messages : List Bytes} {success : Bool}
      (h : Conducts codec program messages (fun sent ↦ sent = success) fun sent ↦ sent = false) :
      program.Obeys (fun _ ↦ True) (conduct codec) (.request messages) fun last result ↦
        last = .stopped ∧ result = false ∨ last = .request [] ∧ result = success := by
    have hall := h []
    rw [List.append_nil] at hall
    exact hall.mono fun last result hlast ↦ hlast.symm
  match command with
  | .list =>
    apply hconducts
    apply (conducts_runList .new).result
    · intro listed hlisted
      exact ⟨listed.isSome, rfl, hlisted⟩
    · rintro listed rfl
      exact ⟨false, rfl, rfl⟩
  | .image (some hwnd) (some img) => exact hconducts (conducts_runImage hwnd img)
  | .image (some hwnd) none => exact Program.obeys_pure (.inr ⟨rfl, rfl⟩)
  | .image none opened => cases opened <;> exact Program.obeys_pure (.inr ⟨rfl, rfl⟩)
  | .video (some hwnd) none => exact Program.obeys_pure (.inr ⟨rfl, rfl⟩)
  | .video none input => cases input <;> exact Program.obeys_pure (.inr ⟨rfl, rfl⟩)
  | .video (some hwnd) (some input) =>
    refine (obeys_renderVideo hwnd input).mono fun last result hlast ↦ ?_
    obtain hstopped | ⟨rfl, hlast⟩ := hlast
    · exact .inl hstopped
    · exact .inr ⟨hlast, rfl⟩

/-- For every command and all answers of the other side: the requests of the command go out in their
order, each as the length of its message and the message, and behind each of them its answer is read
before the next one goes out; there are no calls after a failure; the command reports success exactly
if nothing has failed and all its requests could be made; and then all of them have gone out and it
has had all the answers that it waits for. -/
theorem main_conduct (codec : Codec) (command : Command Packet Frame) (trace : List (Event Tcp))
    (result : Bool) (hruns : (main codec ⟨true⟩ command).Runs trace result) :
    ∃ last, (conduct codec).follow (.request (messages codec (requests codec command))) trace =
        some last ∧
      (last = .stopped ∧ result = false ∨
        last = farewell codec command ∧ result = ready codec command) :=
  obeys_main codec command trace result hruns fun _ _ ↦ trivial

/-- A client that asks for the windows and reads the answer that there are none. -/
theorem main_conduct_list :
    ∃ trace : List (Event Tcp), (main wire ⟨true⟩ (.list : Command Unit Unit)).Runs trace true ∧
      written trace = frame [10, 0] ∧ taken trace = frame [18, 0] ∧
      ∃ last, (conduct wire).follow
          (.request (messages wire (requests wire (.list : Command Unit Unit)))) trace = some last ∧
        (last = .stopped ∧ true = false ∨
          last = farewell wire (.list : Command Unit Unit) ∧
            true = ready wire (.list : Command Unit Unit)) := by
  have hparse : wire.parseFromBytes [18, 0] = some ⟨none, some ⟨[]⟩⟩ := wire_lawful.response rfl
  obtain ⟨trace, hexchange, htaken⟩ := exists_runs_exchange hparse (by decide) [10, 0]
  have hruns : (main wire ⟨true⟩ (.list : Command Unit Unit)).Runs trace true := by
    have hlist : (runList wire ⟨true⟩ .new).Runs trace (some (WindowManager.new.updateWindows [])) :=
      Program.runs_bind.2 ⟨trace, [], _, by simp, hexchange, rfl, rfl⟩
    exact Program.runs_bind.2 ⟨trace, [], _, by simp, hlist, rfl, rfl⟩
  exact ⟨trace, hruns, written_of_exchange hexchange, htaken,
    main_conduct wire (.list : Command Unit Unit) trace true hruns⟩

end Commands

end WindowCaster.Client.Conduct
