import WindowCaster.Client.Requests

/-!
# `VideoRenderer`

The packets of the chosen stream go into a decoder, and after each of them the decoder is asked for
frames until it has none. Every frame becomes a request and waits for its answer; an empty request
ends the video. The decoder is any machine with FFmpeg's two calls, which may keep frames back until
it is told that no packets follow. The client never tells it, so the frames that are still inside
when the packets end are the ones that are lost.
-/

namespace WindowCaster.Client.Video

open Foundation.Interaction Foundation.LengthFraming Foundation.Text
open Foundation.StreamDecoder.Decoder (encodeAll encodeAll_cons encodeAll_append)
open Protocol.Readers Network Requests

/-- A decoder with FFmpeg's calls. A call that fails returns `none`; between two packets it has only
finitely many frames to give. -/
structure Decoder (Packet Frame : Type) where
  State : Type
  start : State
  sendPacket : State → Packet → Option State
  sendEof : State → State
  receiveFrame : State → Option (Frame × State)
  held : State → ℕ
  held_receiveFrame : ∀ {state frame state'}, receiveFrame state = some (frame, state') →
    held state' < held state

/-- What FFmpeg makes of a video file. `scale` runs the scaler on a frame and takes the bytes of
plane 0. -/
structure Input (Packet Frame : Type) where
  packets : List (ℕ × Packet)
  videoStreamIndex : ℕ
  width : UInt32
  height : UInt32
  decoder : Decoder Packet Frame
  scale : Frame → Option Bytes

variable {Packet Frame : Type}

/-- What the steps before the first packet come to: FFmpeg, the file, its video stream or its decoder
fails, or only the scaler does, or none of them. -/
inductive Opening (Packet Frame : Type)
  | failed
  | unscaled (width height : UInt32)
  | opened (input : Input Packet Frame)

def Opening.input : Opening Packet Frame → Option (Input Packet Frame)
  | .failed | .unscaled _ _ => none
  | .opened input => some input

/-! ## The code -/

section Code

variable (codec : Codec) (client : NetworkClient) (hwnd : UInt64) (input : Input Packet Frame)

/-- The request for one frame. -/
def frameRequest (frame : Frame) : Option Bytes := do
  let frameData ← input.scale frame
  createVideoFrameRequest codec hwnd frameData input.width input.height

/-- The request that ends the video. -/
def endRequest : Option Bytes := createVideoFrameRequest codec hwnd [] input.width input.height

/-- The body of the inner loop; a status in the answer is only looked at for a warning. -/
def renderFrame (frame : Frame) : Program Tcp Bool :=
  match frameRequest codec hwnd input frame with
  | none => pure false
  | some request => do
    let response ← exchange codec client request
    return response.isSome

/-- `while decoder.receive_frame(&mut receive_frame).is_ok()` -/
def renderAvailable (state : input.decoder.State) : Program Tcp (Option input.decoder.State) :=
  match _h : input.decoder.receiveFrame state with
  | none => pure (some state)
  | some (frame, state') => do
    if ← renderFrame codec client hwnd input frame then renderAvailable state' else pure none
termination_by input.decoder.held state
decreasing_by exact input.decoder.held_receiveFrame _h

/-- The loop over the packets of all streams. -/
def renderPackets : List (ℕ × Packet) → input.decoder.State →
    Program Tcp (Option input.decoder.State)
  | [], state => pure (some state)
  | (index, packet) :: packets, state =>
    if index = input.videoStreamIndex then
      match input.decoder.sendPacket state packet with
      | none => pure none
      | some state => do
        match ← renderAvailable codec client hwnd input state with
        | none => pure none
        | some state => renderPackets packets state
    else renderPackets packets state

def renderVideo : Program Tcp Bool := do
  match ← renderPackets codec client hwnd input input.packets input.decoder.start with
  | none => pure false
  | some _ =>
    match endRequest codec hwnd input with
    | none => pure false
    | some request => client.sendMessage request

end Code

/-! ## What a decoder produces -/

namespace Decoder

variable (decoder : Decoder Packet Frame)

/-- All the frames the decoder has to give, and the state in which it has no more. -/
def drain (state : decoder.State) : List Frame × decoder.State :=
  match _h : decoder.receiveFrame state with
  | none => ([], state)
  | some (frame, state') => (frame :: (drain state').1, (drain state').2)
termination_by decoder.held state
decreasing_by all_goals exact decoder.held_receiveFrame _h

theorem drain_of_none {state : decoder.State} (h : decoder.receiveFrame state = none) :
    decoder.drain state = ([], state) := by
  rw [drain]
  split <;> simp_all

theorem drain_of_some {state state' : decoder.State} {frame : Frame}
    (h : decoder.receiveFrame state = some (frame, state')) :
    decoder.drain state = (frame :: (decoder.drain state').1, (decoder.drain state').2) := by
  rw [drain]
  split <;> simp_all

/-- Induction along the frames that the decoder gives out. -/
@[elab_as_elim]
theorem drain_induction {motive : decoder.State → Prop} (state : decoder.State)
    (hnone : ∀ state, decoder.receiveFrame state = none → motive state)
    (hsome : ∀ state frame state', decoder.receiveFrame state = some (frame, state') →
      motive state' → motive state) : motive state := by
  induction state using Decoder.drain.induct decoder with
  | case1 state h => exact hnone state h
  | case2 state frame state' h ih => exact hsome state frame state' h ih

/-- The frames given out while the packets are sent, and the state after the last packet. -/
def decode : List Packet → decoder.State → Option (List Frame × decoder.State)
  | [], state => some ([], state)
  | packet :: packets, state => do
    let ready ← decoder.sendPacket state packet
    let (frames, last) ← decode packets (decoder.drain ready).2
    return ((decoder.drain ready).1 ++ frames, last)

theorem decode_singleton {packet : Packet} {state ready : decoder.State}
    (h : decoder.sendPacket state packet = some ready) :
    decoder.decode [packet] state = some (decoder.drain ready) := by
  simp [decode, h]

end Decoder

namespace Input

variable (input : Input Packet Frame)

/-- The packets of the chosen stream. -/
def chosen (packets : List (ℕ × Packet)) : List Packet :=
  (packets.filter fun packet ↦ packet.1 = input.videoStreamIndex).map Prod.snd

/-- The frames that only come out after the end of the stream has been signalled. -/
def heldBack : List Frame :=
  match input.decoder.decode (input.chosen input.packets) input.decoder.start with
  | none => []
  | some (_, last) => (input.decoder.drain (input.decoder.sendEof last)).1

/-- All the frames of the chosen stream, in output order. -/
def produced : Option (List Frame) := do
  let (frames, last) ← input.decoder.decode (input.chosen input.packets) input.decoder.start
  return frames ++ (input.decoder.drain (input.decoder.sendEof last)).1

/-- The frames that come out in time come first. -/
theorem produced_eq {frames : List Frame} {last : input.decoder.State}
    (h : input.decoder.decode (input.chosen input.packets) input.decoder.start =
      some (frames, last)) : input.produced = some (frames ++ input.heldBack) := by
  simp [produced, heldBack, h]

theorem chosen_cons_of_eq {index : ℕ} (h : index = input.videoStreamIndex) (packet : Packet)
    (packets : List (ℕ × Packet)) :
    input.chosen ((index, packet) :: packets) = packet :: input.chosen packets := by
  simp [chosen, h]

theorem chosen_cons_of_ne {index : ℕ} (h : index ≠ input.videoStreamIndex) (packet : Packet)
    (packets : List (ℕ × Packet)) :
    input.chosen ((index, packet) :: packets) = input.chosen packets := by
  simp [chosen, h]

end Input

/-! ## What the client sends -/

section Sent

variable {codec : Codec} {client : NetworkClient} {hwnd : UInt64} {input : Input Packet Frame}
  {trace : List (Event Tcp)}

theorem written_of_renderFrame {picture : Frame}
    (h : (renderFrame codec client hwnd input picture).Runs trace true) :
    ∃ request, frameRequest codec hwnd input picture = some request ∧
      written trace = frame request := by
  unfold renderFrame at h
  cases hrequest : frameRequest codec hwnd input picture with
  | none => simp [hrequest] at h
  | some request =>
    rw [hrequest] at h
    obtain ⟨first, second, response, rfl, hexchange, hdone⟩ := Program.runs_bind.1 h
    obtain ⟨rfl, hsome⟩ := Program.runs_pure.1 hdone
    obtain ⟨response, rfl⟩ := Option.isSome_iff_exists.1 hsome.symm
    exact ⟨request, rfl, by rw [List.append_nil, written_of_exchange hexchange]⟩

theorem renderAvailable_of_none {state : input.decoder.State}
    (h : input.decoder.receiveFrame state = none) :
    renderAvailable codec client hwnd input state = pure (some state) := by
  rw [renderAvailable]
  split <;> simp_all

theorem renderAvailable_of_some {state state' : input.decoder.State} {picture : Frame}
    (h : input.decoder.receiveFrame state = some (picture, state')) :
    renderAvailable codec client hwnd input state = (do
      if ← renderFrame codec client hwnd input picture then
        renderAvailable codec client hwnd input state'
      else pure none) := by
  rw [renderAvailable]
  split <;> simp_all

/-- The inner loop sends the frames the decoder has to give, once each and in their order. -/
theorem written_of_renderAvailable {state state' : input.decoder.State}
    (h : (renderAvailable codec client hwnd input state).Runs trace (some state')) :
    state' = (input.decoder.drain state).2 ∧
      ∃ requests, (input.decoder.drain state).1.mapM (frameRequest codec hwnd input) = some requests ∧
        written trace = encodeAll frame requests := by
  induction state using input.decoder.drain_induction generalizing trace with
  | hnone state hnone =>
    rw [renderAvailable_of_none hnone] at h
    rw [input.decoder.drain_of_none hnone]
    obtain ⟨rfl, hstate⟩ := h
    exact ⟨Option.some.inj hstate, [], rfl, rfl⟩
  | hsome state picture next hsome ih =>
    rw [renderAvailable_of_some hsome] at h
    rw [input.decoder.drain_of_some hsome]
    obtain ⟨first, second, sent, rfl, hfirst, hrest⟩ := Program.runs_bind.1 h
    cases sent with
    | false => simp at hrest
    | true =>
      obtain ⟨request, hrequest, hwritten⟩ := written_of_renderFrame hfirst
      obtain ⟨hstate, requests, hrequests, hrest⟩ := ih hrest
      refine ⟨hstate, request :: requests, ?_, ?_⟩
      · simp [List.mapM_cons, hrequest, hrequests]
      · rw [written_append, hwritten, hrest, encodeAll_cons]

/-- The outer loop sends the frames that come out while the packets of the chosen stream go in. -/
theorem written_of_renderPackets {packets : List (ℕ × Packet)} {state last : input.decoder.State}
    (h : (renderPackets codec client hwnd input packets state).Runs trace (some last)) :
    ∃ frames requests, input.decoder.decode (input.chosen packets) state = some (frames, last) ∧
      frames.mapM (frameRequest codec hwnd input) = some requests ∧
      written trace = encodeAll frame requests := by
  induction packets generalizing state trace with
  | nil =>
    obtain ⟨rfl, hstate⟩ := h
    obtain rfl := Option.some.inj hstate
    exact ⟨[], [], rfl, rfl, rfl⟩
  | cons packet packets ih =>
    obtain ⟨index, packet⟩ := packet
    rw [renderPackets] at h
    by_cases hindex : index = input.videoStreamIndex
    · rw [if_pos hindex] at h
      cases hsend : input.decoder.sendPacket state packet with
      | none => simp [hsend] at h
      | some ready =>
        rw [hsend] at h
        obtain ⟨first, second, drained, rfl, hfirst, hrest⟩ := Program.runs_bind.1 h
        cases drained with
        | none => simp at hrest
        | some drained =>
          obtain ⟨rfl, requests, hrequests, hwritten⟩ := written_of_renderAvailable hfirst
          obtain ⟨frames, requests', hdecode, hrequests', hwritten'⟩ := ih hrest
          refine ⟨(input.decoder.drain ready).1 ++ frames, requests ++ requests', ?_, ?_, ?_⟩
          · rw [input.chosen_cons_of_eq hindex]
            simp [Decoder.decode, hsend, hdecode]
          · simp [List.mapM_append, hrequests, hrequests']
          · rw [written_append, hwritten, hwritten', encodeAll_append]
    · rw [if_neg hindex] at h
      rw [input.chosen_cons_of_ne hindex]
      exact ih h

/-- The run sent all the frames of the video, once each and in output order, and then the request
that ends it. -/
def AllSent (codec : Codec) (hwnd : UInt64) (input : Input Packet Frame)
    (trace : List (Event Tcp)) : Prop :=
  ∃ frames requests ending, input.produced = some frames ∧
    frames.mapM (frameRequest codec hwnd input) = some requests ∧
    endRequest codec hwnd input = some ending ∧
    written trace = encodeAll frame (requests ++ [ending])

/-- A run without an error sends the frames that come out while the packets are read, and the end. -/
theorem written_of_renderVideo (h : (renderVideo codec client hwnd input).Runs trace true) :
    ∃ frames last requests ending,
      input.decoder.decode (input.chosen input.packets) input.decoder.start = some (frames, last) ∧
      frames.mapM (frameRequest codec hwnd input) = some requests ∧
      endRequest codec hwnd input = some ending ∧
      written trace = encodeAll frame (requests ++ [ending]) := by
  obtain ⟨first, second, last, rfl, hpackets, hrest⟩ := Program.runs_bind.1 h
  cases last with
  | none => simp at hrest
  | some last =>
    obtain ⟨frames, requests, hdecode, hrequests, hwritten⟩ := written_of_renderPackets hpackets
    cases hending : endRequest codec hwnd input with
    | none => simp [hending] at hrest
    | some ending =>
      simp only [hending] at hrest
      refine ⟨frames, last, requests, ending, hdecode, hrequests, rfl, ?_⟩
      rw [written_append, hwritten, written_of_sendMessage hrest, encodeAll_append]
      simp

/-- What is sent beyond the frames that came out in time would take more bytes than were written. -/
theorem heldBack_eq_nil_of_allSent (hruns : (renderVideo codec client hwnd input).Runs trace true)
    (hsent : AllSent codec hwnd input trace) : input.heldBack = [] := by
  obtain ⟨frames, last, requests, ending, hdecode, hrequests, hending, hwritten⟩ :=
    written_of_renderVideo hruns
  obtain ⟨_, requests', ending', hproduced, hrequests', hending', hwritten'⟩ := hsent
  obtain rfl := Option.some.inj (hending.symm.trans hending')
  obtain rfl := Option.some.inj ((input.produced_eq hdecode).symm.trans hproduced)
  cases hheld : input.heldBack with
  | nil => rfl
  | cons picture rest =>
    simp only [hheld, List.mapM_append, hrequests, List.mapM_cons, Option.bind_eq_bind,
      Option.bind_some, Option.pure_def, Option.bind_eq_some_iff, Option.some.injEq] at hrequests'
    obtain ⟨_, ⟨request, -, more, -, rfl⟩, rfl⟩ := hrequests'
    have hlength := congrArg List.length (hwritten.symm.trans hwritten')
    simp only [encodeAll_append, encodeAll_cons, List.length_append, length_frame] at hlength
    omega

/-- In a run without an error all the frames are sent exactly when the decoder keeps none back. -/
theorem allSent_iff (codec : Codec) (client : NetworkClient) (hwnd : UInt64)
    (input : Input Packet Frame) (trace : List (Event Tcp))
    (hruns : (renderVideo codec client hwnd input).Runs trace true) :
    AllSent codec hwnd input trace ↔ input.heldBack = [] := by
  refine ⟨heldBack_eq_nil_of_allSent hruns, fun hnone ↦ ?_⟩
  obtain ⟨frames, last, requests, ending, hdecode, hrequests, hending, hwritten⟩ :=
    written_of_renderVideo hruns
  have hproduced := input.produced_eq hdecode
  rw [hnone, List.append_nil] at hproduced
  exact ⟨frames, requests, ending, hproduced, hrequests, hending, hwritten⟩

end Sent

/-! ## Runs without an error -/

section Complete

variable {codec : Codec} {hwnd : UInt64} {input : Input Packet Frame}
  {response : Protocol.Messages.ServerResponse String} (hparse : codec.parseFromBytes [] = some response)

include hparse

theorem exists_runs_renderFrame {picture : Frame}
    (h : (frameRequest codec hwnd input picture).isSome) :
    ∃ trace, (renderFrame codec ⟨true⟩ hwnd input picture).Runs trace true := by
  obtain ⟨request, hrequest⟩ := Option.isSome_iff_exists.1 h
  obtain ⟨trace, hexchange, -⟩ := exists_runs_exchange hparse (by simp) request
  refine ⟨trace, ?_⟩
  rw [renderFrame, hrequest]
  exact Program.runs_bind.2 ⟨trace, [], some response, by simp, hexchange, rfl, rfl⟩

theorem exists_runs_renderAvailable {state : input.decoder.State}
    (h : ∀ picture ∈ (input.decoder.drain state).1, (frameRequest codec hwnd input picture).isSome) :
    ∃ trace, (renderAvailable codec ⟨true⟩ hwnd input state).Runs trace
      (some (input.decoder.drain state).2) := by
  induction state using input.decoder.drain_induction with
  | hnone state hnone =>
    rw [renderAvailable_of_none hnone, input.decoder.drain_of_none hnone]
    exact ⟨[], rfl, rfl⟩
  | hsome state picture next hsome ih =>
    rw [input.decoder.drain_of_some hsome] at h ⊢
    obtain ⟨hpicture, hrest⟩ := List.forall_mem_cons.1 h
    obtain ⟨first, hfirst⟩ := exists_runs_renderFrame hparse hpicture
    obtain ⟨second, hsecond⟩ := ih hrest
    rw [renderAvailable_of_some hsome]
    exact ⟨_, Program.runs_bind.2 ⟨first, second, true, rfl, hfirst, hsecond⟩⟩

theorem exists_runs_renderPackets {packets : List (ℕ × Packet)} {state last : input.decoder.State}
    {frames : List Frame}
    (hdecode : input.decoder.decode (input.chosen packets) state = some (frames, last))
    (h : ∀ picture ∈ frames, (frameRequest codec hwnd input picture).isSome) :
    ∃ trace, (renderPackets codec ⟨true⟩ hwnd input packets state).Runs trace (some last) := by
  induction packets generalizing state frames with
  | nil =>
    obtain ⟨-, rfl⟩ := Prod.mk.inj (Option.some.inj hdecode)
    exact ⟨[], rfl, rfl⟩
  | cons packet packets ih =>
    obtain ⟨index, packet⟩ := packet
    rw [renderPackets]
    by_cases hindex : index = input.videoStreamIndex
    · rw [if_pos hindex]
      rw [input.chosen_cons_of_eq hindex, Decoder.decode] at hdecode
      obtain ⟨ready, hsend, hdecode⟩ := Option.bind_eq_some_iff.1 hdecode
      obtain ⟨⟨frames', last'⟩, hrest, hdone⟩ := Option.bind_eq_some_iff.1 hdecode
      obtain ⟨rfl, rfl⟩ := Prod.mk.inj (Option.some.inj hdone)
      rw [List.forall_mem_append] at h
      obtain ⟨first, hfirst⟩ := exists_runs_renderAvailable hparse h.1
      obtain ⟨second, hsecond⟩ := ih hrest h.2
      rw [hsend]
      exact ⟨_, Program.runs_bind.2 ⟨first, second, _, rfl, hfirst, hsecond⟩⟩
    · rw [if_neg hindex]
      rw [input.chosen_cons_of_ne hindex] at hdecode
      exact ih hdecode h

/-- A video whose frames and end have requests can be sent without an error. -/
theorem exists_runs_renderVideo {frames : List Frame} {last : input.decoder.State}
    (hdecode : input.decoder.decode (input.chosen input.packets) input.decoder.start =
      some (frames, last))
    (h : ∀ picture ∈ frames, (frameRequest codec hwnd input picture).isSome)
    (hending : (endRequest codec hwnd input).isSome) :
    ∃ trace, (renderVideo codec ⟨true⟩ hwnd input).Runs trace true := by
  obtain ⟨first, hfirst⟩ := exists_runs_renderPackets hparse hdecode h
  obtain ⟨ending, hending⟩ := Option.isSome_iff_exists.1 hending
  obtain ⟨second, hsecond⟩ := exists_runs_sendMessage ending
  refine ⟨_, Program.runs_bind.2 ⟨first, second, some last, rfl, hfirst, ?_⟩⟩
  simpa only [hending] using hsecond

end Complete

/-- A decoder whose packets are its frames. Until the end of the stream it gives a frame out only
while it holds more than `delay` of them. -/
def delaying (delay : ℕ) : Decoder Bytes Bytes where
  State := List Bytes × Bool
  start := ([], false)
  sendPacket state packet := some (state.1 ++ [packet], state.2)
  sendEof state := (state.1, true)
  receiveFrame
    | ([], _) => none
    | (frame :: frames, ended) =>
      if ended = true ∨ delay ≤ frames.length then some (frame, (frames, ended)) else none
  held state := state.1.length
  held_receiveFrame := by
    rintro ⟨_ | ⟨first, frames⟩, ended⟩ frame state' h
    · simp at h
    · obtain ⟨-, hnext⟩ := Option.ite_none_right_eq_some.1 h
      obtain ⟨-, rfl⟩ := Prod.mk.inj (Option.some.inj hnext)
      simp

/-- A video of one frame with one pixel. -/
def oneFrame (delay : ℕ) : Input Bytes Bytes :=
  ⟨[(0, [9, 9, 9])], 0, 1, 1, delaying delay, some⟩

theorem decode_oneFrame (delay : ℕ) :
    (oneFrame delay).decoder.decode ((oneFrame delay).chosen (oneFrame delay).packets)
      (oneFrame delay).decoder.start = some ((delaying delay).drain ([[9, 9, 9]], false)) :=
  (delaying delay).decode_singleton rfl

theorem drain_oneFrame {delay : ℕ} {ended : Bool} (h : ended = true ∨ delay = 0) :
    (delaying delay).drain ([[9, 9, 9]], ended) = ([[9, 9, 9]], ([], ended)) := by
  have hfirst : (delaying delay).receiveFrame ([[9, 9, 9]], ended) =
      some ([9, 9, 9], ([], ended)) := if_pos (h.imp_right Nat.le_of_eq)
  have hrest : (delaying delay).receiveFrame ([], ended) = none := rfl
  rw [Decoder.drain_of_some _ hfirst, Decoder.drain_of_none _ hrest]
  rfl

theorem drain_oneFrame_of_delay (delay : ℕ) :
    (delaying (delay + 1)).drain ([[9, 9, 9]], false) = ([], ([[9, 9, 9]], false)) :=
  Decoder.drain_of_none _ (by simp [delaying])

/-- The single frame and the end of the video both have requests. -/
theorem exists_runs_oneFrame (delay : ℕ) :
    ∃ trace, (renderVideo wire ⟨true⟩ 1 (oneFrame delay)).Runs trace true := by
  have hrequest (frameData : Bytes) (hsmall : frameData.length ≤ 3) :
      (createVideoFrameRequest wire 1 frameData 1 1).isSome := by
    obtain ⟨request, hwrite, -⟩ := writeToBytes_renderRequest 1 (.video ⟨frameData, 1, 1⟩)
      (by simp only [Protocol.Messages.Content.data]; omega)
    exact Option.isSome_iff_exists.2 ⟨request, hwrite⟩
  refine exists_runs_renderVideo parseFromBytes_nil (decode_oneFrame delay) ?_ (hrequest [] (by simp))
  intro picture hpicture
  cases delay with
  | zero =>
    rw [drain_oneFrame (.inr rfl)] at hpicture
    obtain rfl := List.mem_singleton.1 hpicture
    exact hrequest [9, 9, 9] (Nat.le_refl 3)
  | succ delay =>
    rw [drain_oneFrame_of_delay] at hpicture
    cases hpicture

theorem heldBack_without_delay : (oneFrame 0).heldBack = [] := by
  have hrest : (delaying 0).drain ([], true) = ([], ([], true)) := Decoder.drain_of_none _ rfl
  rw [Input.heldBack, decode_oneFrame, drain_oneFrame (.inr rfl)]
  exact congrArg Prod.fst hrest

theorem allSent_without_delay :
    ∃ trace, (renderVideo wire ⟨true⟩ 1 (oneFrame 0)).Runs trace true ∧
      AllSent wire 1 (oneFrame 0) trace := by
  obtain ⟨trace, hruns⟩ := exists_runs_oneFrame 0
  exact ⟨trace, hruns, (allSent_iff wire ⟨true⟩ 1 (oneFrame 0) trace hruns).2 heldBack_without_delay⟩

/-- A decoder that works one frame behind: the video has one frame, and the client sends none. -/
theorem not_allSent_with_delay :
    ∃ trace, (renderVideo wire ⟨true⟩ 1 (oneFrame 1)).Runs trace true ∧
      (oneFrame 1).produced = some [[9, 9, 9]] ∧ ¬ AllSent wire 1 (oneFrame 1) trace := by
  obtain ⟨trace, hruns⟩ := exists_runs_oneFrame 1
  have hdecode := decode_oneFrame 1
  rw [drain_oneFrame_of_delay] at hdecode
  have hheld : (oneFrame 1).heldBack = [[9, 9, 9]] := by
    rw [Input.heldBack, hdecode]
    exact congrArg Prod.fst (drain_oneFrame (.inl rfl))
  refine ⟨trace, hruns, by rw [Input.produced_eq _ hdecode, hheld]; rfl, fun hsent ↦ ?_⟩
  simpa [hheld] using heldBack_eq_nil_of_allSent hruns hsent

end WindowCaster.Client.Video
