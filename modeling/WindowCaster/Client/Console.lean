import WindowCaster.Client.Conduct
import WindowCaster.Client.Window
import WindowCaster.Client.WindowHandles

/-!
# What the client writes

`main` with its console: the client writes what it is about to draw, how much it has sent, the list
of the windows, and what the server has answered. Without the lines it is the client of `Main`.
Whatever fails, and whatever the server answers, the lines are the transcript of the answers that
have been read, apart from those that tell how much has been sent.
-/

namespace WindowCaster.Client.Console

open Foundation.CaseMapping Foundation.Interaction Foundation.Text
open Protocol.Messages Protocol.Readers Main Session Conduct Window WindowHandles
open Network (Tcp NetworkClient)
open Requests (RgbImage parseServerResponse createGetWindowListRequest createImageRenderRequest)
open Video (Input Opening frameRequest endRequest)

/-! ## The code -/

/-- A line on the standard output, or one of a level of `tracing` that is shown. `sent` stands for
`Sent {} bytes`, and the text that a library gives for the failure of a video is left out. -/
inductive Line
  | println (text : String)
  | sent (len : UInt32)
  | info (text : String)
  | warn (text : String)
  | error (text : String)
  | videoRenderingFailed
  deriving DecidableEq

/-- The subcommands with their arguments; `file` is the path as it is displayed. -/
inductive Commands (Packet Frame : Type)
  | list (filter : Option String) (verbose : Bool)
  | image (hwnd file : String) (opened : Option RgbImage)
  | video (hwnd file : String) (opening : Opening Packet Frame)

/-- The program has the lines that have been written as its state. -/
abbrev Printing := StateT (List Line) (Program Tcp)

def print (lines : List Line) : Printing Unit := modify (· ++ lines)

section Lines

variable (data : CaseData)

/-- `Commands::List` after the answer. -/
def listLines (filter : Option String) (verbose : Bool) (resp : ServerResponse String) : List Line :=
  match resp.windowList with
  | some windowListMsg =>
    (listWindows data (WindowManager.new.updateWindows windowListMsg.windows) filter verbose).map
      .println
  | none =>
    match resp.status with
    | some statusMsg =>
      if statusMsg.success then []
      else [.error ("Image rendering failed: " ++ fromUtf8Lossy statusMsg.message)]
    | none => [.error "Unexpected server response: neither window_list nor status is set."]

/-- `Commands::Image` after the answer. -/
def imageLines (serverResponse : ServerResponse String) : List Line :=
  match serverResponse.status with
  | some status =>
    if status.success then [.info "Image rendering succeeded"]
    else [.error ("Image rendering failed: " ++ fromUtf8Lossy status.message)]
  | none => [.error "Received an unexpected server response (no status)"]

/-- The inner loop of `render_video` after the answer. -/
def frameLines (frameIndex : UInt32) (serverResponse : ServerResponse String) : List Line :=
  match serverResponse.status with
  | some status =>
    if status.success then []
    else [.warn ("Failed to render frame " ++ toString frameIndex.toNat ++ ": " ++
      fromUtf8Lossy status.message)]
  | none => [.warn "Server response has no status field"]

/-- What `render_video` tells as soon as there is a decoder. -/
def dimensions (width height : UInt32) : Line :=
  .info ("Video dimensions: " ++ toString width.toNat ++ "x" ++ toString height.toNat)

end Lines

variable {Packet Frame : Type}

section Code

variable (codec : Codec) (client : NetworkClient) (data : CaseData)

def sendMessage (message : Bytes) : Printing Bool := do
  if client.connected then
    let sent ← client.sendMessage message
    print (if sent then [.sent (UInt32.ofNat message.length)] else [])
    return sent
  else
    print [.error "Not connected to server"]
    return false

def receiveMessage : Printing (Option Bytes) := do
  if client.connected then client.receiveMessage
  else
    print [.error "Not connected to server"]
    return none

/-- The three calls around a request whose answer matters. -/
def exchange (request : Bytes) : Printing (Option (ServerResponse String)) := do
  if ← sendMessage client request then
    match ← receiveMessage client with
    | none => pure none
    | some response => pure (parseServerResponse codec response)
  else pure none

def runList (filter : Option String) (verbose : Bool) : Printing Bool :=
  match createGetWindowListRequest codec with
  | none => pure false
  | some request => do
    match ← exchange codec client request with
    | none => pure false
    | some resp =>
      print (listLines data filter verbose resp)
      return true

def runImage (hwnd file : String) (opened : Option RgbImage) : Printing Bool :=
  match parseHwnd hwnd with
  | none => pure false
  | some hwnd => do
    print [.info ("Rendering image " ++ file ++ " to window " ++ handleText hwnd)]
    match createImageRenderRequest codec hwnd opened with
    | none => pure false
    | some request =>
      match ← exchange codec client request with
      | none => pure false
      | some serverResponse =>
        print (imageLines serverResponse)
        return true

section Video

variable (hwnd : UInt64) (input : Input Packet Frame)

def renderFrame (frameIndex : UInt32) (frame : Frame) : Printing Bool :=
  match frameRequest codec hwnd input frame with
  | none => pure false
  | some request => do
    match ← exchange codec client request with
    | none => pure false
    | some serverResponse =>
      print (frameLines frameIndex serverResponse)
      return true

/-- `frame_index` counts the frames of all packets. -/
def renderAvailable (frameIndex : UInt32) (state : input.decoder.State) :
    Printing (Option (UInt32 × input.decoder.State)) :=
  match _h : input.decoder.receiveFrame state with
  | none => pure (some (frameIndex, state))
  | some (frame, state') => do
    if ← renderFrame codec client hwnd input frameIndex frame then
      renderAvailable (frameIndex + 1) state'
    else pure none
termination_by input.decoder.held state
decreasing_by exact input.decoder.held_receiveFrame _h

def renderPackets : List (ℕ × Packet) → UInt32 → input.decoder.State →
    Printing (Option (UInt32 × input.decoder.State))
  | [], frameIndex, state => pure (some (frameIndex, state))
  | (index, packet) :: packets, frameIndex, state =>
    if index = input.videoStreamIndex then
      match input.decoder.sendPacket state packet with
      | none => pure none
      | some state => do
        match ← renderAvailable codec client hwnd input frameIndex state with
        | none => pure none
        | some (frameIndex, state) => renderPackets packets frameIndex state
    else renderPackets packets frameIndex state

def renderVideo : Printing Bool := do
  print [dimensions input.width input.height]
  match ← renderPackets codec client hwnd input input.packets 0 input.decoder.start with
  | none => pure false
  | some _ =>
    match endRequest codec hwnd input with
    | none => pure false
    | some request => sendMessage client request

end Video

/-- `render_video` with the steps before the first packet. -/
def renderOpening (hwnd : UInt64) : Opening Packet Frame → Printing Bool
  | .failed => pure false
  | .unscaled width height => do
    print [dimensions width height]
    return false
  | .opened input => renderVideo codec client hwnd input

def runVideo (hwnd file : String) (opening : Opening Packet Frame) : Printing Bool :=
  match parseHwnd hwnd with
  | none => pure false
  | some hwnd => do
    print [.info ("Rendering video " ++ file ++ " to window " ++ handleText hwnd)]
    if ← renderOpening codec client hwnd opening then
      print [.info "Video rendering completed"]
      return true
    else
      print [.videoRenderingFailed]
      return false

/-- `main` after `connect` -/
def main : Commands Packet Frame → Printing Bool
  | .list filter verbose => runList codec client data filter verbose
  | .image hwnd file opened => runImage codec client hwnd file opened
  | .video hwnd file opening => runVideo codec client hwnd file opening

end Code

/-! ## Without the lines -/

/-- The command without what only concerns the console. -/
def Commands.command : Commands Packet Frame → Command Packet Frame
  | .list _ _ => .list
  | .image hwnd _ opened => .image (parseHwnd hwnd) opened
  | .video hwnd _ opening => .video (parseHwnd hwnd) opening.input

section Erasure

variable {α α' β β' : Type}

/-- Whatever has been written before: the program makes the same calls as the one without a console,
and its value stands for the other one. -/
def Erases (printing : Printing α) (value : α → β) (program : Program Tcp β) : Prop :=
  ∀ lines, (fun result ↦ value result.1) <$> printing.run lines = program

theorem erases_pure {result : α} {value : α → β} {result' : β} (h : value result = result') :
    Erases (pure result) value (pure result') := by
  intro lines
  rw [← h]
  rfl

theorem erases_lift (program : Program Tcp α) : Erases (liftM program) id program := by
  intro lines
  simp

theorem Erases.bind {printing : Printing α} {after : α → Printing β} {value : α → α'}
    {value' : β → β'} {program : Program Tcp α'} {after' : α' → Program Tcp β'}
    (h : Erases printing value program)
    (hafter : ∀ result, Erases (after result) value' (after' (value result))) :
    Erases (printing >>= after) value' (program >>= after') := by
  intro lines
  rw [← h lines, StateT.run_bind, map_bind, bind_map_left]
  congr 1
  funext result
  exact hafter result.1 result.2

theorem Erases.print {printing : Printing α} {value : α → β} {program : Program Tcp β}
    (h : Erases printing value program) (new : List Line) :
    Erases (print new >>= fun _ ↦ printing) value program := by
  intro lines
  exact h (lines ++ new)

variable {codec : Codec} {client : NetworkClient} {data : CaseData} {hwnd : UInt64}
  {input : Input Packet Frame}

theorem erases_sendMessage (message : Bytes) :
    Erases (sendMessage client message) id (client.sendMessage message) := by
  cases hconnected : client.connected with
  | true =>
    rw [sendMessage, if_pos hconnected]
    have hpure (sent : Bool) : Erases (pure sent) id (pure sent) := erases_pure rfl
    have hbind := (erases_lift (client.sendMessage message)).bind fun sent ↦
      (hpure sent).print (if sent then [.sent (UInt32.ofNat message.length)] else [])
    rwa [bind_pure] at hbind
  | false =>
    have hnone : ¬ client.connected := ne_true_of_eq_false hconnected
    rw [sendMessage, NetworkClient.sendMessage, if_neg hnone, if_neg hnone]
    exact (erases_pure rfl).print _

theorem erases_receiveMessage : Erases (receiveMessage client) id client.receiveMessage := by
  cases hconnected : client.connected with
  | true =>
    rw [receiveMessage, if_pos hconnected]
    exact erases_lift _
  | false =>
    have hnone : ¬ client.connected := ne_true_of_eq_false hconnected
    rw [receiveMessage, NetworkClient.receiveMessage, if_neg hnone, if_neg hnone]
    exact (erases_pure rfl).print _

theorem erases_exchange (request : Bytes) :
    Erases (exchange codec client request) id (Requests.exchange codec client request) := by
  apply (erases_sendMessage request).bind
  intro sent
  cases sent with
  | false => exact erases_pure rfl
  | true =>
    apply erases_receiveMessage.bind
    intro response
    cases response with
    | none => exact erases_pure rfl
    | some response => exact erases_pure rfl

theorem erases_runList (filter : Option String) (verbose : Bool) :
    Erases (runList codec client data filter verbose) id
      (Main.runList codec client .new >>= fun listed ↦ pure listed.isSome) := by
  unfold runList Main.runList
  cases createGetWindowListRequest codec with
  | none => exact erases_pure rfl
  | some request =>
    dsimp only
    rw [bind_assoc]
    apply (erases_exchange request).bind
    intro response
    cases response with
    | none => exact erases_pure rfl
    | some resp =>
      dsimp only [id_eq]
      split <;> exact (erases_pure rfl).print _

theorem erases_runImage (hwnd file : String) (opened : Option RgbImage) :
    Erases (runImage codec client hwnd file opened) id
      (Main.runImage codec client (parseHwnd hwnd) opened) := by
  unfold runImage Main.runImage
  cases parseHwnd hwnd with
  | none => exact erases_pure rfl
  | some hwnd =>
    dsimp only
    apply Erases.print
    cases createImageRenderRequest codec hwnd opened with
    | none => exact erases_pure rfl
    | some request =>
      apply (erases_exchange request).bind
      intro response
      cases response with
      | none => exact erases_pure rfl
      | some response => exact (erases_pure rfl).print _

theorem erases_renderFrame (frameIndex : UInt32) (picture : Frame) :
    Erases (renderFrame codec client hwnd input frameIndex picture) id
      (Video.renderFrame codec client hwnd input picture) := by
  unfold renderFrame Video.renderFrame
  cases frameRequest codec hwnd input picture with
  | none => exact erases_pure rfl
  | some request =>
    apply (erases_exchange request).bind
    intro response
    cases response with
    | none => exact erases_pure rfl
    | some response => exact (erases_pure rfl).print _

theorem renderAvailable_of_none {state : input.decoder.State}
    (h : input.decoder.receiveFrame state = none) (frameIndex : UInt32) :
    renderAvailable codec client hwnd input frameIndex state = pure (some (frameIndex, state)) := by
  rw [renderAvailable]
  split <;> simp_all

theorem renderAvailable_of_some {state state' : input.decoder.State} {picture : Frame}
    (h : input.decoder.receiveFrame state = some (picture, state')) (frameIndex : UInt32) :
    renderAvailable codec client hwnd input frameIndex state =
      renderFrame codec client hwnd input frameIndex picture >>= fun sent ↦
        if sent then renderAvailable codec client hwnd input (frameIndex + 1) state'
        else pure none := by
  rw [renderAvailable]
  split <;> simp_all

theorem erases_renderAvailable (frameIndex : UInt32) (state : input.decoder.State) :
    Erases (renderAvailable codec client hwnd input frameIndex state) (Option.map Prod.snd)
      (Video.renderAvailable codec client hwnd input state) := by
  induction state using input.decoder.drain_induction generalizing frameIndex with
  | hnone state hnone =>
    rw [renderAvailable_of_none hnone, Video.renderAvailable_of_none hnone]
    exact erases_pure rfl
  | hsome state picture next hsome ih =>
    rw [renderAvailable_of_some hsome, Video.renderAvailable_of_some hsome]
    apply (erases_renderFrame frameIndex picture).bind
    intro sent
    cases sent with
    | false => exact erases_pure rfl
    | true => exact ih _

theorem erases_renderPackets (packets : List (ℕ × Packet)) (frameIndex : UInt32)
    (state : input.decoder.State) :
    Erases (renderPackets codec client hwnd input packets frameIndex state) (Option.map Prod.snd)
      (Video.renderPackets codec client hwnd input packets state) := by
  induction packets generalizing frameIndex state with
  | nil => exact erases_pure rfl
  | cons packet packets ih =>
    obtain ⟨index, packet⟩ := packet
    rw [renderPackets, Video.renderPackets]
    by_cases hindex : index = input.videoStreamIndex
    · rw [if_pos hindex, if_pos hindex]
      cases input.decoder.sendPacket state packet with
      | none => exact erases_pure rfl
      | some ready =>
        apply (erases_renderAvailable frameIndex ready).bind
        intro drained
        cases drained with
        | none => exact erases_pure rfl
        | some drained => exact ih _ _
    · rw [if_neg hindex, if_neg hindex]
      exact ih _ _

theorem erases_renderVideo (hwnd : UInt64) (input : Input Packet Frame) :
    Erases (renderVideo codec client hwnd input) id (Video.renderVideo codec client hwnd input) := by
  unfold renderVideo Video.renderVideo
  apply Erases.print
  apply (erases_renderPackets input.packets 0 input.decoder.start).bind
  intro last
  cases last with
  | none => exact erases_pure rfl
  | some last =>
    dsimp only [Option.map_some]
    cases endRequest codec hwnd input with
    | none => exact erases_pure rfl
    | some request => exact erases_sendMessage request

theorem erases_renderOpening (hwnd : UInt64) (opening : Opening Packet Frame) :
    Erases (renderOpening codec client hwnd opening) id
      (Main.runVideo codec client (some hwnd) opening.input) := by
  cases opening with
  | failed => exact erases_pure rfl
  | unscaled width height => exact (erases_pure rfl).print _
  | opened input => exact erases_renderVideo hwnd input

theorem erases_runVideo (hwnd file : String) (opening : Opening Packet Frame) :
    Erases (runVideo codec client hwnd file opening) id
      (Main.runVideo codec client (parseHwnd hwnd) opening.input) := by
  unfold runVideo
  cases parseHwnd hwnd with
  | none => exact erases_pure rfl
  | some hwnd =>
    dsimp only
    apply Erases.print
    rw [← bind_pure (Main.runVideo codec client (some hwnd) opening.input)]
    apply (erases_renderOpening hwnd opening).bind
    intro sent
    cases sent with
    | false => exact (erases_pure rfl).print _
    | true => exact (erases_pure rfl).print _

/-- Without its lines the client is the one of `Main`. -/
theorem erases_main (command : Commands Packet Frame) :
    Erases (main codec client data command) id (Main.main codec client command.command) := by
  cases command with
  | list filter verbose => exact erases_runList filter verbose
  | image hwnd file opened => exact erases_runImage hwnd file opened
  | video hwnd file opening => exact erases_runVideo hwnd file opening

/-- The requests are those of the client without a console. -/
theorem script_of_map {stage : Stage} {program : Program Tcp α} {value : α → β}
    {requests : List ClientRequest} (h : Script codec stage (value <$> program) requests) :
    Script codec stage program requests := by
  induction program generalizing stage requests with
  | done result =>
    cases h with
    | stop => exact .stop
    | leave => exact .leave
  | ask call next ih =>
    change Script codec stage (.ask call fun answer ↦ value <$> next answer) requests at h
    cases h with
    | request hwrite hnext => exact .request hwrite (ih _ hnext)
    | content hnext => exact .content (ih _ hnext)
    | length hnext => exact .length fun lenBytes ↦ ih _ (hnext lenBytes)
    | body hnext => exact .body fun bytes hparse ↦ ih _ (hnext bytes hparse)

theorem script_main (command : Commands Packet Frame) :
    Script codec .request ((main codec ⟨true⟩ data command).run [])
      (requests codec command.command) := by
  apply script_of_map
  rw [erases_main command []]
  exact Session.script_main command.command

theorem obeys_main (command : Commands Packet Frame) :
    ((main codec ⟨true⟩ data command).run []).Obeys (fun _ ↦ True) (conduct codec)
      (.request (messages codec (requests codec command.command))) fun last result ↦
        last = .stopped ∧ result.1 = false ∨
          last = farewell codec command.command ∧ result.1 = ready codec command.command := by
  have herases : Prod.fst <$> (main codec ⟨true⟩ data command).run [] =
      Main.main codec ⟨true⟩ command.command := erases_main command []
  have hobeys := Conduct.obeys_main codec command.command
  rw [← herases] at hobeys
  exact hobeys.of_map

end Erasure

/-! ## The transcript -/

/-- The messages that have been read; `awaiting` says that the length of the next one has, too. -/
structure Heard where
  awaiting : Bool
  received : List Bytes

def Heard.note (heard : Heard) : Event Tcp → Heard
  | ⟨.readExact _, some bytes⟩ =>
    ⟨!heard.awaiting, if heard.awaiting then heard.received ++ [bytes.val] else heard.received⟩
  | _ => heard

def hear (heard : Heard) (trace : List (Event Tcp)) : Heard := trace.foldl Heard.note heard

theorem hear_append (heard : Heard) (first second : List (Event Tcp)) :
    hear heard (first ++ second) = hear (hear heard first) second :=
  List.foldl_append

/-- Other than that so much has been sent. -/
def Line.tells : Line → Bool
  | .sent _ => false
  | .println _ | .info _ | .warn _ | .error _ | .videoRenderingFailed => true

/-- The lines but for those that tell how much has been sent. -/
def told (lines : List Line) : List Line := lines.filter Line.tells

theorem told_append (first second : List Line) : told (first ++ second) = told first ++ told second :=
  List.filter_append ..

theorem told_of_tells {lines : List Line} (h : ∀ line ∈ lines, line.tells) : told lines = lines :=
  List.filter_eq_self.2 h

@[simp]
theorem told_info (text : String) : told [.info text] = [.info text] := rfl

@[simp]
theorem told_dimensions (width height : UInt32) :
    told [dimensions width height] = [dimensions width height] := rfl

@[simp]
theorem told_videoRenderingFailed :
    told [.videoRenderingFailed] = [.videoRenderingFailed] := rfl

@[simp]
theorem told_listLines (data : CaseData) (filter : Option String) (verbose : Bool)
    (resp : ServerResponse String) :
    told (listLines data filter verbose resp) = listLines data filter verbose resp := by
  apply told_of_tells
  intro line hline
  unfold listLines at hline
  split at hline
  · obtain ⟨text, -, rfl⟩ := List.mem_map.1 hline
    rfl
  · split at hline
    · split at hline <;> simp_all [Line.tells]
    · simp_all [Line.tells]

@[simp]
theorem told_imageLines (response : ServerResponse String) :
    told (imageLines response) = imageLines response := by
  apply told_of_tells
  intro line hline
  unfold imageLines at hline
  split at hline
  · split at hline <;> simp_all [Line.tells]
  · simp_all [Line.tells]

@[simp]
theorem told_frameLines (frameIndex : UInt32) (response : ServerResponse String) :
    told (frameLines frameIndex response) = frameLines frameIndex response := by
  apply told_of_tells
  intro line hline
  unfold frameLines at hline
  split at hline
  · split at hline <;> simp_all [Line.tells]
  · simp_all [Line.tells]

/-- The lines for the answers to the frames from this one on. -/
def frameTranscript : UInt32 → List (ServerResponse String) → List Line
  | _, [] => []
  | frameIndex, response :: responses =>
    frameLines frameIndex response ++ frameTranscript (frameIndex + 1) responses

/-- The sizes of a video, if the opening gets as far as that. -/
def openingLines : Opening Packet Frame → List Line
  | .failed => []
  | .unscaled width height => [dimensions width height]
  | .opened input => [dimensions input.width input.height]

/-- What a command tells that has read these answers. -/
def transcript (data : CaseData) :
    Commands Packet Frame → List (ServerResponse String) → Bool → List Line
  | .list filter verbose, responses, _ => responses.flatMap (listLines data filter verbose)
  | .image hwnd file _, responses, _ =>
    match parseHwnd hwnd with
    | none => []
    | some hwnd =>
      .info ("Rendering image " ++ file ++ " to window " ++ handleText hwnd) ::
        responses.flatMap imageLines
  | .video hwnd file opening, responses, result =>
    match parseHwnd hwnd with
    | none => []
    | some hwnd =>
      .info ("Rendering video " ++ file ++ " to window " ++ handleText hwnd) ::
        (openingLines opening ++ (frameTranscript 0 responses ++
          [if result then .info "Video rendering completed" else .videoRenderingFailed]))

section Transcript

variable {α β : Type}

/-- In every run, what the new lines tell fits the answers that have been read and the result. A
length without its message is only left behind by a program that has stopped. -/
def Writes (codec : Codec) (printing : Printing α) (stopped : α → Prop)
    (post : List (ServerResponse String) → List Line → α → Prop) : Prop :=
  ∀ received lines, (printing.run lines).Ensures fun trace result ↦ ∃ answers new awaiting,
    hear ⟨false, received⟩ trace = ⟨awaiting, received ++ answers⟩ ∧ result.2 = lines ++ new ∧
      post (answers.filterMap codec.parseFromBytes) (told new) result.1 ∧
      (awaiting = true → stopped result.1)

/-- Nothing is read any more. -/
def Ends (printing : Printing α) (stopped : α → Prop) : Prop :=
  ∃ result new, (∀ lines, printing.run lines = pure (result, lines ++ new)) ∧ stopped result

variable {codec : Codec} {stopped : α → Prop}
  {post : List (ServerResponse String) → List Line → α → Prop}

theorem ends_pure {result : α} (h : stopped result) : Ends (pure result) stopped := by
  refine ⟨result, [], fun lines ↦ ?_, h⟩
  rw [List.append_nil]
  rfl

theorem ends_print {result : α} (h : stopped result) (new : List Line) :
    Ends (print new >>= fun _ ↦ pure result) stopped :=
  ⟨result, new, fun _ ↦ rfl, h⟩

theorem writes_pure {result : α} (h : post [] [] result) :
    Writes codec (pure result) stopped post :=
  fun received lines ↦ Program.ensures_pure.2
    ⟨[], [], false, by simp [hear], by simp, h, by simp⟩

theorem Writes.print {printing : Printing α} {new : List Line}
    (h : Writes codec printing stopped fun responses after result ↦
      post responses (told new ++ after) result) :
    Writes codec (Console.print new >>= fun _ ↦ printing) stopped post := by
  intro received lines trace result hruns
  obtain ⟨answers, after, awaiting, hheard, hlines, hpost, hstopped⟩ :=
    h received (lines ++ new) trace result hruns
  refine ⟨answers, new ++ after, awaiting, hheard, ?_, ?_, hstopped⟩
  · rw [hlines, List.append_assoc]
  · rwa [told_append]

theorem Writes.mono {printing : Printing α}
    {post' : List (ServerResponse String) → List Line → α → Prop}
    (h : Writes codec printing stopped post)
    (hpost : ∀ responses new result, post responses new result → post' responses new result) :
    Writes codec printing stopped post' := by
  intro received lines trace result hruns
  obtain ⟨answers, new, awaiting, hheard, hlines, hresult, hstopped⟩ :=
    h received lines trace result hruns
  exact ⟨answers, new, awaiting, hheard, hlines, hpost _ _ _ hresult, hstopped⟩

theorem Writes.bind {printing : Printing α} {after : α → Printing β} {stopped' : β → Prop}
    {post' : List (ServerResponse String) → List Line → β → Prop}
    (h : Writes codec printing stopped post)
    (hafter : ∀ responses new result, post responses new result →
      Writes codec (after result) stopped' fun more new' result' ↦
        post' (responses ++ more) (new ++ new') result')
    (hstopped : ∀ result, stopped result → Ends (after result) stopped') :
    Writes codec (printing >>= after) stopped' post' := by
  intro received lines
  rw [StateT.run_bind, Program.ensures_bind]
  refine (h received lines).mono ?_
  rintro first ⟨result, written⟩ ⟨answers, new, awaiting, hheard, rfl, hpost, hends⟩ second last hsecond
  cases awaiting with
  | false =>
    obtain ⟨answers', new', awaiting, hheard', hlines, hpost', hends'⟩ :=
      hafter _ _ _ hpost (received ++ answers) (lines ++ new) second last hsecond
    refine ⟨answers ++ answers', new ++ new', awaiting, ?_, ?_, ?_, hends'⟩
    · rw [hear_append, hheard, hheard', List.append_assoc]
    · rw [hlines, List.append_assoc]
    · rwa [List.filterMap_append, told_append]
  | true =>
    -- nothing follows, so what is promised for further answers holds for none
    obtain ⟨result', new', hrun, hresult'⟩ := hstopped _ (hends rfl)
    obtain ⟨answers', new'', awaiting, hheard', hlines, hpost', -⟩ :=
      hafter _ _ _ hpost (received ++ answers) (lines ++ new) second last hsecond
    rw [hrun] at hsecond
    obtain ⟨rfl, rfl⟩ := hsecond
    obtain rfl : new' = new'' := List.append_cancel_left hlines
    obtain ⟨-, rfl⟩ : awaiting = false ∧ answers' = [] := by simpa [hear] using hheard'
    refine ⟨answers, new ++ new', true, by rwa [List.append_nil], by simp, ?_, fun _ ↦ hresult'⟩
    rw [told_append]
    simpa using hpost'

/-- A call without the console. -/
theorem writes_lift {program : Program Tcp α}
    (h : ∀ received, program.Ensures fun trace result ↦ ∃ answers awaiting,
      hear ⟨false, received⟩ trace = ⟨awaiting, received ++ answers⟩ ∧
        post (answers.filterMap codec.parseFromBytes) [] result ∧
        (awaiting = true → stopped result)) :
    Writes codec (liftM program) stopped post := by
  intro received lines
  change (program >>= fun result ↦ pure (result, lines)).Ensures _
  refine Program.ensures_bind.2 ((h received).mono ?_)
  rintro trace result ⟨answers, awaiting, hheard, hpost, hstopped⟩
  refine Program.ensures_pure.2 ⟨answers, [], awaiting, ?_, ?_, hpost, hstopped⟩
  · rwa [List.append_nil]
  · rw [List.append_nil]

theorem hear_sendMessage (message : Bytes) :
    (NetworkClient.sendMessage ⟨true⟩ message).Ensures fun trace _ ↦
      ∀ heard, hear heard trace = heard := by
  rintro trace result ⟨begun, rest, rfl, hrest⟩ heard
  cases begun with
  | false =>
    obtain ⟨rfl, rfl⟩ := hrest
    rfl
  | true =>
    obtain ⟨sent, rest, rfl, rfl, rfl⟩ := hrest
    rfl

theorem hear_receiveMessage :
    (NetworkClient.receiveMessage ⟨true⟩).Ensures fun trace message ↦ ∀ received, ∃ awaiting,
      hear ⟨false, received⟩ trace = ⟨awaiting, received ++ message.toList⟩ ∧
        (awaiting = true → message = none) := by
  rintro trace result ⟨lenBytes, rest, rfl, hrest⟩ received
  cases lenBytes with
  | none =>
    obtain ⟨rfl, rfl⟩ := hrest
    exact ⟨false, by simp [hear, Heard.note], by simp⟩
  | some lenBytes =>
    obtain ⟨bytes, rest, rfl, rfl, rfl⟩ := hrest
    cases bytes with
    | none => exact ⟨true, by simp [hear, Heard.note], by simp⟩
    | some bytes => exact ⟨false, by simp [hear, Heard.note], by simp⟩

theorem writes_sendMessage {stopped : Bool → Prop} (message : Bytes) :
    Writes codec (sendMessage ⟨true⟩ message) stopped fun responses new _ ↦
      responses = [] ∧ new = [] := by
  have hcall : Writes codec (liftM (NetworkClient.sendMessage ⟨true⟩ message)) (fun _ ↦ False)
      fun responses new _ ↦ responses = [] ∧ new = [] := by
    apply writes_lift
    intro received
    refine (hear_sendMessage message).mono fun trace result hheard ↦ ?_
    exact ⟨[], false, by rw [hheard, List.append_nil], ⟨rfl, rfl⟩, by simp⟩
  apply hcall.bind
  · rintro _ _ sent ⟨rfl, rfl⟩
    apply Writes.print
    exact writes_pure ⟨rfl, by cases sent <;> rfl⟩
  · rintro _ ⟨⟩

theorem writes_receiveMessage :
    Writes codec (receiveMessage ⟨true⟩) (fun message ↦ message = none) fun responses new message ↦
      responses = message.toList.filterMap codec.parseFromBytes ∧ new = [] := by
  apply writes_lift
  intro received
  refine hear_receiveMessage.mono fun trace message hheard ↦ ?_
  obtain ⟨awaiting, hheard, hstopped⟩ := hheard received
  exact ⟨message.toList, awaiting, hheard, ⟨rfl, rfl⟩, hstopped⟩

/-- What is returned is the one answer that has been read. -/
theorem writes_exchange (request : Bytes) :
    Writes codec (exchange codec ⟨true⟩ request) (fun response ↦ response = none)
      fun responses new response ↦ responses = response.toList ∧ new = [] := by
  have hsend : Writes codec (sendMessage ⟨true⟩ request) (fun _ ↦ False)
      fun responses new _ ↦ responses = [] ∧ new = [] := writes_sendMessage request
  apply hsend.bind
  · rintro _ _ sent ⟨rfl, rfl⟩
    cases sent with
    | false => exact writes_pure ⟨rfl, rfl⟩
    | true =>
      apply writes_receiveMessage.bind
      · rintro _ _ message ⟨rfl, rfl⟩
        cases message with
        | none => exact writes_pure ⟨rfl, rfl⟩
        | some message =>
          refine writes_pure ⟨?_, rfl⟩
          rw [parseServerResponse]
          cases hparse : codec.parseFromBytes message <;> simp [hparse]
      · rintro _ rfl
        exact ends_pure rfl
  · rintro _ ⟨⟩

section Commands

variable {data : CaseData} {hwnd : UInt64} {input : Input Packet Frame}

theorem writes_runList (filter : Option String) (verbose : Bool) :
    Writes codec (runList codec ⟨true⟩ data filter verbose) (fun result ↦ result = false)
      fun responses new result ↦
        new = transcript data (.list filter verbose : Commands Packet Frame) responses result := by
  unfold runList
  cases createGetWindowListRequest codec with
  | none => exact writes_pure rfl
  | some request =>
    apply (writes_exchange request).bind
    · rintro _ _ response ⟨rfl, rfl⟩
      cases response with
      | none => exact writes_pure rfl
      | some resp =>
        apply Writes.print
        exact writes_pure (by simp [transcript])
    · rintro _ rfl
      exact ends_pure rfl

theorem writes_runImage (hwnd file : String) (opened : Option RgbImage) :
    Writes codec (runImage codec ⟨true⟩ hwnd file opened) (fun result ↦ result = false)
      fun responses new result ↦
        new = transcript data (.image hwnd file opened : Commands Packet Frame) responses result := by
  simp only [runImage, transcript]
  cases parseHwnd hwnd with
  | none => exact writes_pure rfl
  | some hwnd =>
    apply Writes.print
    cases createImageRenderRequest codec hwnd opened with
    | none => exact writes_pure rfl
    | some request =>
      apply (writes_exchange request).bind
      · rintro _ _ response ⟨rfl, rfl⟩
        cases response with
        | none => exact writes_pure rfl
        | some response =>
          apply Writes.print
          exact writes_pure (by simp)
      · rintro _ rfl
        exact ends_pure rfl

theorem writes_renderFrame (frameIndex : UInt32) (picture : Frame) :
    Writes codec (renderFrame codec ⟨true⟩ hwnd input frameIndex picture) (fun sent ↦ sent = false)
      fun responses new sent ↦ new = responses.flatMap (frameLines frameIndex) ∧
        responses.length = sent.toNat := by
  unfold renderFrame
  cases frameRequest codec hwnd input picture with
  | none => exact writes_pure ⟨rfl, rfl⟩
  | some request =>
    apply (writes_exchange request).bind
    · rintro _ _ response ⟨rfl, rfl⟩
      cases response with
      | none => exact writes_pure ⟨rfl, rfl⟩
      | some response =>
        apply Writes.print
        exact writes_pure (by simp)
    · rintro _ rfl
      exact ends_pure rfl

theorem frameTranscript_append (frameIndex : UInt32) (first second : List (ServerResponse String)) :
    frameTranscript frameIndex (first ++ second) =
      frameTranscript frameIndex first ++
        frameTranscript (frameIndex + UInt32.ofNat first.length) second := by
  induction first generalizing frameIndex with
  | nil => simp [frameTranscript]
  | cons response first ih =>
    rw [List.cons_append, frameTranscript, ih, frameTranscript, List.append_assoc, List.length_cons,
      UInt32.ofNat_add, UInt32.add_assoc, UInt32.add_comm 1]
    rfl

/-- The frames of one packet are numbered on from those of the packets before. -/
theorem writes_renderAvailable (frameIndex : UInt32) (state : input.decoder.State) :
    Writes codec (renderAvailable codec ⟨true⟩ hwnd input frameIndex state)
      (fun drained ↦ drained = none) fun responses new drained ↦
        new = frameTranscript frameIndex responses ∧
          ∀ reached ∈ drained, reached.1 = frameIndex + UInt32.ofNat responses.length := by
  induction state using input.decoder.drain_induction generalizing frameIndex with
  | hnone state hnone =>
    rw [renderAvailable_of_none hnone]
    exact writes_pure ⟨rfl, by simp⟩
  | hsome state picture next hsome ih =>
    rw [renderAvailable_of_some hsome]
    apply (writes_renderFrame frameIndex picture).bind
    · rintro responses new sent ⟨rfl, hlength⟩
      cases sent with
      | false =>
        obtain rfl := List.length_eq_zero_iff.1 hlength
        exact writes_pure ⟨rfl, by simp⟩
      | true =>
        obtain ⟨response, rfl⟩ := List.length_eq_one_iff.1 hlength
        refine (ih (frameIndex + 1)).mono ?_
        rintro more new drained ⟨rfl, hreached⟩
        refine ⟨by simp [frameTranscript], fun reached hmem ↦ ?_⟩
        rw [hreached reached hmem, List.singleton_append, List.length_cons, UInt32.ofNat_add,
          UInt32.add_assoc, UInt32.add_comm 1]
        rfl
    · rintro _ rfl
      exact ends_pure rfl

theorem writes_renderPackets (packets : List (ℕ × Packet)) (frameIndex : UInt32)
    (state : input.decoder.State) :
    Writes codec (renderPackets codec ⟨true⟩ hwnd input packets frameIndex state)
      (fun last ↦ last = none) fun responses new _ ↦ new = frameTranscript frameIndex responses := by
  induction packets generalizing frameIndex state with
  | nil => exact writes_pure rfl
  | cons packet packets ih =>
    obtain ⟨index, packet⟩ := packet
    rw [renderPackets]
    by_cases hindex : index = input.videoStreamIndex
    · rw [if_pos hindex]
      cases input.decoder.sendPacket state packet with
      | none => exact writes_pure rfl
      | some ready =>
        apply (writes_renderAvailable frameIndex ready).bind
        · rintro responses _ drained ⟨rfl, hreached⟩
          cases drained with
          | none =>
            refine writes_pure ?_
            rw [List.append_nil, List.append_nil]
          | some drained =>
            obtain ⟨reached, state⟩ := drained
            obtain rfl : reached = _ := hreached _ rfl
            refine (ih _ state).mono ?_
            rintro more _ last rfl
            rw [frameTranscript_append]
        · rintro _ rfl
          exact ends_pure rfl
    · rw [if_neg hindex]
      exact ih _ _

theorem writes_renderVideo (hwnd : UInt64) (input : Input Packet Frame) :
    Writes codec (renderVideo codec ⟨true⟩ hwnd input) (fun sent ↦ sent = false)
      fun responses new _ ↦ new =
        dimensions input.width input.height :: frameTranscript 0 responses := by
  unfold renderVideo
  apply Writes.print
  apply (writes_renderPackets input.packets 0 input.decoder.start).bind
  · rintro responses _ last rfl
    cases last with
    | none => exact writes_pure (by simp)
    | some last =>
      dsimp only
      cases endRequest codec hwnd input with
      | none => exact writes_pure (by simp)
      | some request =>
        refine (writes_sendMessage request).mono ?_
        rintro _ _ sent ⟨rfl, rfl⟩
        simp
  · rintro _ rfl
    exact ends_pure rfl

theorem writes_renderOpening (hwnd : UInt64) (opening : Opening Packet Frame) :
    Writes codec (renderOpening codec ⟨true⟩ hwnd opening) (fun sent ↦ sent = false)
      fun responses new _ ↦ new = openingLines opening ++ frameTranscript 0 responses := by
  cases opening with
  | failed => exact writes_pure rfl
  | unscaled width height =>
    apply Writes.print
    exact writes_pure (by simp [openingLines, frameTranscript])
  | opened input => exact writes_renderVideo hwnd input

theorem writes_runVideo (hwnd file : String) (opening : Opening Packet Frame) :
    Writes codec (runVideo codec ⟨true⟩ hwnd file opening) (fun result ↦ result = false)
      fun responses new result ↦ new = transcript data (.video hwnd file opening) responses result := by
  simp only [runVideo, transcript]
  cases parseHwnd hwnd with
  | none => exact writes_pure rfl
  | some hwnd =>
    apply Writes.print
    apply (writes_renderOpening hwnd opening).bind
    · rintro responses _ sent rfl
      cases sent with
      | false =>
        apply Writes.print
        exact writes_pure (by simp)
      | true =>
        apply Writes.print
        exact writes_pure (by simp)
    · rintro _ rfl
      rw [if_neg Bool.false_ne_true]
      apply ends_print
      rfl

theorem writes_main (command : Commands Packet Frame) :
    Writes codec (main codec ⟨true⟩ data command) (fun result ↦ result = false)
      fun responses new result ↦ new = transcript data command responses result := by
  cases command with
  | list filter verbose => exact writes_runList filter verbose
  | image hwnd file opened => exact writes_runImage hwnd file opened
  | video hwnd file opening => exact writes_runVideo hwnd file opening

/-- What the lines of a run tell is the transcript of the answers that it has read. -/
theorem transcript_of_runs {command : Commands Packet Frame} {trace : List (Event Tcp)}
    {result : Bool} {lines : List Line}
    (hruns : ((main codec ⟨true⟩ data command).run []).Runs trace (result, lines)) :
    told lines = transcript data command
      ((hear ⟨false, []⟩ trace).received.filterMap codec.parseFromBytes) result := by
  obtain ⟨answers, new, awaiting, hheard, hlines, hnew, -⟩ :=
    writes_main command [] [] trace (result, lines) hruns
  obtain rfl : lines = new := hlines
  rw [hheard]
  exact hnew

end Commands

end Transcript

end WindowCaster.Client.Console
