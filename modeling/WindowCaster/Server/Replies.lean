import WindowCaster.Server.Handling

/-!
# One reply to a message

Every request that parses gets exactly one response, with the member that belongs to it, and the
response is always small enough to be serialized. A message that does not parse gets none, unlike a
request of unknown type, which is told so.
-/

namespace WindowCaster.Server.Replies

open Foundation.Interaction Foundation.LengthFraming Foundation.Text Win32 Sending
open Protocol.Messages Protocol.Readers WindowManagement Rendering Handling

/-! ## Only `SendMessage` sends -/

def Silent (event : Event Os) : Prop := transmitted event = []

theorem written_of_silent {trace : List (Event Os)} (h : ∀ event ∈ trace, Silent event) :
    written trace = [] :=
  List.flatMap_eq_nil_iff.2 h

theorem silent_of_housekeeping {event : Event Os} (h : Renderer.Housekeeping event) :
    Silent event := by
  obtain ⟨call, answer⟩ := event
  cases call <;> simp_all [Renderer.Housekeeping, Silent, transmitted]

theorem silent_of_inspecting {event : Event Os} (h : Inspecting event) : Silent event := by
  obtain ⟨call, answer⟩ := event
  cases call <;> simp_all [Inspecting, Silent, transmitted]

theorem keeps_initializeFor (renderer : Renderer) (hwnd : Hwnd) :
    (renderer.initializeFor hwnd).Keeps Silent := by
  refine (Renderer.keeps_initializeFor renderer hwnd).mono fun event h ↦ ?_
  obtain ⟨call, answer⟩ := event
  cases call <;> simp_all [Renderer.Initializing, Renderer.Housekeeping, Silent, transmitted]

theorem keeps_renderImageFrame (renderer : Renderer) (imageData : Bytes) (width height : UInt64) :
    (renderer.renderImageFrame imageData width height).Keeps Silent := by
  have hcreate : (renderer.createCompatibleBitmap width height).Keeps Silent := by
    unfold Renderer.createCompatibleBitmap
    split
    · exact Program.keeps_pure _
    split
    · exact Program.keeps_pure _
    refine Program.keeps_bind ((Renderer.keeps_deleteBitmap _).mono fun _ ↦ silent_of_housekeeping)
      fun _ ↦ keeps_os_bind (fun _ ↦ rfl) fun bitmap ↦ ?_
    split
    · exact Program.keeps_pure _
    · exact keeps_os_bind (fun _ ↦ rfl) fun _ ↦ Program.keeps_pure _
  unfold Renderer.renderImageFrame
  split
  · exact Program.keeps_pure _
  apply Program.keeps_bind hcreate
  rintro ⟨created, renderer⟩
  dsimp only
  split
  · exact Program.keeps_pure _
  refine keeps_os_bind (fun _ ↦ rfl) fun copied ↦ ?_
  split
  · exact Program.keeps_pure _
  · exact keeps_os_bind (fun _ ↦ rfl) fun _ ↦ keeps_os_bind (fun _ ↦ rfl) fun _ ↦
      keeps_os_bind (fun _ ↦ rfl) fun _ ↦ keeps_os_bind (fun _ ↦ rfl) fun _ ↦ Program.keeps_pure _

theorem keeps_clear (renderer : Renderer) : renderer.clear.Keeps Silent := by
  refine (Renderer.keeps_clear renderer).mono fun event h ↦ ?_
  obtain ⟨call, answer⟩ := event
  cases call <;> simp_all [Renderer.Clearing, Silent, transmitted]

theorem keeps_validateAndInitialize (server : WindowCasterServer) (hwnd : Hwnd) (status : Status) :
    (server.validateAndInitialize hwnd status).Keeps Silent := by
  apply Program.keeps_bind ((inspects_isWindowValid _).mono fun _ ↦ silent_of_inspecting)
  intro valid
  split
  · exact Program.keeps_pure _
  apply Program.keeps_bind (keeps_initializeFor _ _)
  rintro ⟨ready, renderer⟩
  dsimp only
  split <;> exact Program.keeps_pure _

theorem keeps_dispatch (server : WindowCasterServer) (request : ClientRequest) :
    (server.dispatch request).Keeps Silent := by
  obtain ⟨_ | _ | command | command⟩ := request
  · exact Program.keeps_pure _
  · have hlist := (inspects_enumerateWindows server.windowManager).mono fun _ ↦ silent_of_inspecting
    have hwindow (window : WindowManagement.WindowInfo) :
        (WindowCasterServer.addWindow window).Keeps Silent :=
      WindowCasterServer.keeps_addWindow (fun _ _ _ ↦ rfl) window
    exact Program.keeps_bind hlist fun _ ↦ Program.keeps_bind (Program.keeps_mapM hwindow _) fun _ ↦
      Program.keeps_pure _
  · apply Program.keeps_bind (keeps_validateAndInitialize _ _ _)
    rintro ⟨ready, status, server⟩
    dsimp only
    split
    · exact Program.keeps_pure _
    split
    · exact Program.keeps_bind (keeps_renderImageFrame _ _ _ _) fun _ ↦ Program.keeps_pure _
    · exact Program.keeps_bind (keeps_renderImageFrame _ _ _ _) fun _ ↦ Program.keeps_pure _
    · exact Program.keeps_pure _
  · apply Program.keeps_bind (keeps_validateAndInitialize _ _ _)
    rintro ⟨ready, status, server⟩
    dsimp only
    split
    · exact Program.keeps_pure _
    · exact Program.keeps_bind (keeps_clear _) fun _ ↦ Program.keeps_pure _

/-! ## The response to a request -/

/-- The response has the one member that belongs to the request. -/
def Answers {Text : Type} (request : ClientRequest) (response : ServerResponse Text) : Prop :=
  if request.request = some .getWindowList then response.status = none ∧ response.windowList.isSome
  else response.status.isSome ∧ response.windowList = none

/-- The entry of the response for a window, as text. -/
def entry (window : WindowManagement.WindowInfo) : Protocol.Messages.WindowInfo String :=
  ⟨window.handle, converted window.title, converted window.className⟩

theorem length_converted_le (text : List UInt16) :
    (utf8 (converted text)).length ≤ 3 * text.length + 1 := by
  have htext := length_utf8_decodeUtf16 text
  have hzero : (String.utf8EncodeChar (Char.ofNat 0)).length = 1 := by decide
  rw [utf8_ofList] at htext
  rw [converted, utf8_ofList, List.flatMap_append, List.flatMap_singleton, List.length_append, hzero]
  omega

section Conversion

/-- Conversions go as documented. -/
def Converting (allowed : Event Os → Prop) : Prop :=
  ∀ text size answer, allowed ⟨.wideCharToMultiByte text size, answer⟩ →
    Documented ⟨.wideCharToMultiByte text size, answer⟩

theorem converting_documented : Converting Documented := fun _ _ _ ↦ id

variable {allowed : Event Os → Prop} (hallowed : Converting allowed)
include hallowed

theorem returns_toUtf8 (text : List UInt16) : (WindowCasterServer.toUtf8 text).Returns allowed
    fun bytes ↦ bytes = utf8 (converted text) := by
  have hsize : (os (.wideCharToMultiByte text 0)).Returns allowed
      fun first ↦ first.1 = (utf8 (converted text)).length :=
    returns_os.2 fun _ hdocumented ↦ (hallowed _ _ _ hdocumented).1 rfl
  refine hsize.bind ?_
  rintro ⟨size, _⟩ rfl
  have hbytes : (os (.wideCharToMultiByte text (utf8 (converted text)).length)).Returns allowed
      fun second ↦ second.2.val = utf8 (converted text) :=
    returns_os.2 fun _ hdocumented ↦ (hallowed _ _ _ hdocumented).2 rfl
  exact hbytes.bind fun _ hsecond ↦ Program.returns_pure.2 hsecond

theorem returns_addWindow (window : WindowManagement.WindowInfo) :
    (WindowCasterServer.addWindow window).Returns allowed fun info ↦
      info = (entry window).map utf8 := by
  refine (returns_toUtf8 hallowed window.title).bind ?_
  rintro title rfl
  refine (returns_toUtf8 hallowed window.className).bind ?_
  rintro className rfl
  exact Program.returns_pure.2 rfl

end Conversion

/-- The windows are enumerated, and then their texts are converted. -/
theorem runs_handleGetWindowList (server : WindowCasterServer) :
    server.handleGetWindowList.Ensures fun trace result ↦ ∃ listing conversion windows infos,
      trace = listing ++ conversion ∧
      (enumerateWindows server.windowManager).Runs listing (windows, result.2.windowManager) ∧
      (windows.mapM WindowCasterServer.addWindow).Runs conversion infos ∧
      result.1 = ⟨none, some ⟨infos⟩⟩ ∧ windows = (readings trace).map Reading.info := by
  rintro trace result hruns
  obtain ⟨listing, rest, ⟨windows, manager⟩, rfl, hlisting, hrest⟩ := Program.runs_bind.1 hruns
  obtain ⟨conversion, last, infos, rfl, hconversion, rfl, rfl⟩ := Program.runs_bind.1 hrest
  refine ⟨listing, conversion, windows, infos, by rw [List.append_nil], hlisting, hconversion, rfl, ?_⟩
  have hunlisted : ∀ event ∈ conversion, Unlisted event :=
    Program.keeps_mapM (WindowCasterServer.keeps_addWindow fun _ _ _ ↦ trivial) windows _ _
      hconversion
  rw [List.append_nil, readings, readingsFrom_append, readingsFrom_eq_nil hunlisted, List.append_nil]
  exact readings_enumerateWindows _ _ _ hlisting ⟨0, []⟩

/-- The windows whose texts the calls have read, each text converted. -/
def listing (trace : List (Event Os)) : List (Protocol.Messages.WindowInfo String) :=
  (readings trace).map fun reading ↦ entry reading.info

/-- The response lists them. -/
theorem listed_handleGetWindowList (server : WindowCasterServer) :
    server.handleGetWindowList.Ensures fun trace result ↦ (∀ event ∈ trace, Documented event) →
      result.1 = ServerResponse.map utf8 ⟨none, some ⟨listing trace⟩⟩ := by
  intro trace result hruns hos
  obtain ⟨first, conversion, windows, infos, rfl, -, hconversion, hresult, hwindows⟩ :=
    runs_handleGetWindowList server trace result hruns
  obtain rfl : infos = windows.map fun window ↦ (entry window).map utf8 :=
    Program.Returns.mapM (returns_addWindow converting_documented) windows _ _ hconversion
      fun event hevent ↦ hos event (List.mem_append_right first hevent)
  rw [hresult, hwindows, listing]
  simp [ServerResponse.map, WindowList.map]

/-- The texts of a listed window fit into the buffers they were read with. -/
def Bounded (window : WindowManagement.WindowInfo) : Prop :=
  window.title.length < 256 ∧ window.className.length < 256

theorem returns_enumerateWindows (manager : WindowManager) :
    (enumerateWindows manager).Returns Documented fun result ↦
      result.1.length ≤ 2 ^ 16 ∧ ∀ window ∈ result.1, Bounded window := by
  have hlist : (os .enumWindows).Returns Documented fun windows ↦ windows.length ≤ 2 ^ 16 :=
    returns_os.2 fun _ hdocumented ↦ hdocumented
  refine hlist.bind fun windows hwindows ↦ ?_
  -- the list grows by at most one entry with every window
  refine (Program.Returns.foldlM (fun before manager ↦
    manager.windowList.length ≤ before.length ∧ ∀ window ∈ manager.windowList, Bounded window)
    (by simp) ?_ windows).bind fun manager ⟨hlength, hbounded⟩ ↦
      Program.returns_pure.2 ⟨Nat.le_trans hlength hwindows, hbounded⟩
  intro before hwnd manager ⟨hlength, hbounded⟩
  refine (Program.returns_trivial (isWindowValid hwnd)).bind fun valid _ ↦ ?_
  split
  · refine Program.returns_pure.2 ⟨?_, hbounded⟩
    simp
    omega
  · have htitle : (os (.getWindowText hwnd 256)).Returns Documented
        fun title ↦ title.units.length ≤ 255 := returns_os.2 fun _ hdocumented ↦ hdocumented
    have hclass : (os (.getClassName hwnd 256)).Returns Documented
        fun className ↦ className.units.length ≤ 255 := returns_os.2 fun _ hdocumented ↦ hdocumented
    refine htitle.bind fun title htitle ↦ hclass.bind fun className hclass ↦
      Program.returns_pure.2 ⟨by simpa using hlength, ?_⟩
    intro window hwindow
    rcases List.mem_append.1 hwindow with hwindow | hwindow
    · exact hbounded window hwindow
    · obtain rfl := List.mem_singleton.1 hwindow
      exact ⟨Nat.lt_succ_of_le htitle, Nat.lt_succ_of_le hclass⟩

/-- What a handler returns for a request: a response of text, with the right member, that is not
too long to be serialized. -/
def Reply (request : ClientRequest) (response : ServerResponse Bytes) : Prop :=
  response.encode.length ≤ 2 ^ 31 - 1 ∧
    ∃ text : ServerResponse String, response = text.map utf8 ∧ Answers request text

theorem reply_status {request : ClientRequest} {status : Status}
    (hrequest : request.request ≠ some .getWindowList) (hmessage : status.message.length ≤ 64) :
    Reply request ⟨some status, none⟩ := by
  have hlength := length_statusResponse_le status
  refine ⟨by omega, ⟨some status, none⟩, rfl, ?_⟩
  simp [Answers, hrequest]

theorem reply_windowList {windows : List WindowManagement.WindowInfo} (hlength : windows.length ≤ 2 ^ 16)
    (hbounded : ∀ window ∈ windows, Bounded window) :
    Reply ⟨some .getWindowList⟩
      ⟨none, some ⟨windows.map fun window ↦ (entry window).map utf8⟩⟩ := by
  have hentry : ∀ info ∈ windows.map fun window ↦ (entry window).map utf8,
      info.title.length + info.className.length ≤ 1532 := by
    intro info hinfo
    obtain ⟨window, hwindow, rfl⟩ := List.mem_map.1 hinfo
    obtain ⟨htitle, hclass⟩ := hbounded window hwindow
    have htitle' := length_converted_le window.title
    have hclass' := length_converted_le window.className
    simp only [Protocol.Messages.WindowInfo.map, entry]
    omega
  have hresponse := length_windowListResponse_le ⟨_⟩ hentry
  rw [List.length_map] at hresponse
  refine ⟨by omega, ⟨none, some ⟨windows.map entry⟩⟩, ?_, ?_⟩
  · simp [ServerResponse.map, WindowList.map]
  · simp [Answers]

theorem returns_handleGetWindowList (server : WindowCasterServer) :
    server.handleGetWindowList.Returns Documented fun result ↦
      Reply ⟨some .getWindowList⟩ result.1 := by
  refine (returns_enumerateWindows server.windowManager).bind ?_
  rintro ⟨windows, manager⟩ ⟨hlength, hbounded⟩
  refine (Program.Returns.mapM (returns_addWindow converting_documented) windows).bind ?_
  rintro infos rfl
  exact Program.returns_pure.2 (reply_windowList hlength hbounded)

theorem returns_validateAndInitialize (server : WindowCasterServer) (hwnd : Hwnd) (status : Status)
    (hstatus : status.message.length ≤ 64) :
    (server.validateAndInitialize hwnd status).Returns Documented fun result ↦
      result.2.1.message.length ≤ 64 := by
  have hinvalid : (utf8 "Invalid window handle").length ≤ 64 := by decide
  have hfailed : (utf8 "Renderer initialization failed").length ≤ 64 := by decide
  refine (Program.returns_trivial _).bind fun valid _ ↦ ?_
  split
  · exact Program.returns_pure.2 hinvalid
  refine (Program.returns_trivial _).bind ?_
  rintro ⟨ready, renderer⟩ -
  dsimp only
  split
  · exact Program.returns_pure.2 hfailed
  · exact Program.returns_pure.2 hstatus

theorem length_finish_le {status : Status} (hstatus : status.message.length ≤ 64) (success : Bool) :
    (WindowCasterServer.handleRenderCommand.finish status success).message.length ≤ 64 := by
  have hfailed : (utf8 "Render failed").length ≤ 64 := by decide
  cases success with
  | false => exact hfailed
  | true => exact hstatus

/-- Whatever the request and the state, the handler returns a response to it. -/
theorem returns_dispatch (server : WindowCasterServer) (request : ClientRequest) :
    (server.dispatch request).Returns Documented fun result ↦ Reply request result.1 := by
  have hempty : (⟨false, []⟩ : Status).message.length ≤ 64 := by decide
  obtain ⟨_ | _ | command | command⟩ := request
  · exact Program.returns_pure.2 (reply_status (by simp) (by decide))
  · exact returns_handleGetWindowList server
  · refine (returns_validateAndInitialize server _ _ hempty).bind ?_
    rintro ⟨ready, status, server⟩ hstatus
    dsimp only
    split
    · exact Program.returns_pure.2 (reply_status (by simp) hstatus)
    split
    · exact (Program.returns_trivial _).bind fun _ _ ↦
        Program.returns_pure.2 (reply_status (by simp) (length_finish_le hstatus _))
    · exact (Program.returns_trivial _).bind fun _ _ ↦
        Program.returns_pure.2 (reply_status (by simp) (length_finish_le hstatus _))
    · exact Program.returns_pure.2 (reply_status (by simp) (by decide))
  · refine (returns_validateAndInitialize server _ _ hempty).bind ?_
    rintro ⟨ready, status, server⟩ hstatus
    dsimp only
    split
    · exact Program.returns_pure.2 (reply_status (by simp) hstatus)
    · exact (Program.returns_trivial _).bind fun _ _ ↦
        Program.returns_pure.2 (reply_status (by simp) hstatus)

/-! ## The messages of a connection -/

/-- The handler's runs on the messages of one connection, one after the other. -/
inductive Handles (codec : Codec) (socket : ℕ) :
    WindowCasterServer → List (Bytes × List (Event Os)) → Prop
  | nil {server : WindowCasterServer} : Handles codec socket server []
  | cons {server server' : WindowCasterServer} {message : Bytes} {trace : List (Event Os)}
      {rest : List (Bytes × List (Event Os))} :
      (server.handleMessage codec (some socket) message).Runs trace server' →
      Handles codec socket server' rest → Handles codec socket server ((message, trace) :: rest)

/-- A successful `send` takes its whole buffer. -/
def SendSucceeds : Event Os → Prop
  | ⟨.send _ buffer _, outcome⟩ => outcome = some buffer.length
  | _ => True

/-- Exactly one response frame was written for the message, with a window list if the message asks
for one and with a status otherwise. -/
def OneReply (codec : Codec) (message : Bytes) (trace : List (Event Os)) : Prop :=
  ∃ response : ServerResponse Bytes, written trace = frame response.encode ∧
    if codec.parseFromString message = some ⟨some .getWindowList⟩ then
      response.status = none ∧ response.windowList.isSome
    else response.status.isSome ∧ response.windowList = none

theorem written_of_sendSucceeds {socket : ℕ} {message : Bytes} {trace : List (Event Os)} {sent : Bool}
    (hruns : (sendMessage (some socket) message).Runs trace sent)
    (hsends : ∀ event ∈ trace, SendSucceeds event) : written trace = frame message := by
  obtain ⟨rfl, -⟩ | ⟨first, rfl, -⟩ | ⟨first, second, rfl, -⟩ := runs_sendMessage.1 hruns
  · simp [SendSucceeds] at hsends
  · simp [SendSucceeds] at hsends
  · simp only [SendSucceeds, List.forall_mem_cons, Option.some.injEq] at hsends
    obtain ⟨rfl, rfl, -⟩ := hsends
    simp [transmitted, frame_eq_lenPrefix]

/-- A message that does not parse has no response. -/
theorem eq_none_of_runs_respond {codec : Codec} {server server' : WindowCasterServer} {message : Bytes}
    {trace : List (Event Os)} {answer : Option Bytes} (hparse : codec.parseFromString message = none)
    (hruns : (server.respond codec message).Runs trace (answer, server')) :
    trace = [] ∧ answer = none := by
  rw [WindowCasterServer.respond, hparse] at hruns
  obtain ⟨rfl, hanswer⟩ := hruns
  exact ⟨rfl, (Prod.mk.inj hanswer).1⟩

/-- A message that parses has one: what the handler returns for the request can be serialized. -/
theorem reply_of_runs_respond {codec : Codec} {server server' : WindowCasterServer} {message : Bytes}
    {trace : List (Event Os)} {answer : Option Bytes} {request : ClientRequest}
    (hparse : codec.parseFromString message = some request)
    (hruns : (server.respond codec message).Runs trace (answer, server'))
    (hos : ∀ event ∈ trace, Documented event) :
    ∃ response, (server.dispatch request).Runs trace (response, server') ∧
      Reply request response ∧ answer = some response.encode := by
  rw [WindowCasterServer.respond, hparse] at hruns
  obtain ⟨dispatched, _, ⟨response, server⟩, rfl, hdispatch, hdone⟩ := Program.runs_bind.1 hruns
  obtain ⟨rfl, hanswer⟩ := hdone
  obtain ⟨rfl, rfl⟩ := Prod.mk.inj hanswer
  rw [List.append_nil] at hos ⊢
  have hreply := returns_dispatch _ _ _ _ hdispatch hos
  exact ⟨response, hdispatch, hreply, serializeToString_eq_some.2 ⟨hreply.1, rfl⟩⟩

/-- One message: a reply if it parses, and silence if it does not. -/
theorem written_handleMessage {codec : Codec} {socket : ℕ} {server server' : WindowCasterServer}
    {message : Bytes} {trace : List (Event Os)}
    (hruns : (server.handleMessage codec (some socket) message).Runs trace server')
    (hos : ∀ event ∈ trace, Documented event ∧ SendSucceeds event) :
    (codec.parseFromString message = none ∧ written trace = []) ∨
      ∃ request response, codec.parseFromString message = some request ∧
        Reply request response ∧ written trace = frame response.encode := by
  obtain ⟨first, second, ⟨answer, server⟩, rfl, hrespond, hsend⟩ := Program.runs_bind.1 hruns
  rw [List.forall_mem_append] at hos
  cases hparse : codec.parseFromString message with
  | none =>
    obtain ⟨rfl, rfl⟩ := eq_none_of_runs_respond hparse hrespond
    obtain ⟨rfl, -⟩ := hsend
    exact .inl ⟨rfl, rfl⟩
  | some request =>
    obtain ⟨response, hdispatch, hreply, rfl⟩ :=
      reply_of_runs_respond hparse hrespond fun event hevent ↦ (hos.1 event hevent).1
    obtain ⟨sending, _, sent, rfl, hsending, hdone⟩ := Program.runs_bind.1 hsend
    obtain ⟨rfl, -⟩ := hdone
    rw [List.append_nil] at hos ⊢
    have hsilent := written_of_silent (keeps_dispatch _ _ _ _ hdispatch)
    have hwritten := written_of_sendSucceeds hsending fun event hevent ↦ (hos.2 event hevent).2
    refine .inr ⟨request, response, rfl, hreply, ?_⟩
    rw [written_append, hsilent, hwritten, List.nil_append]

theorem oneReply_iff_parses {codec : Codec} {socket : ℕ} {server server' : WindowCasterServer}
    {message : Bytes} {trace : List (Event Os)}
    (hruns : (server.handleMessage codec (some socket) message).Runs trace server')
    (hos : ∀ event ∈ trace, Documented event ∧ SendSucceeds event) :
    OneReply codec message trace ↔ (codec.parseFromString message).isSome := by
  obtain ⟨hparse, hwritten⟩ | ⟨request, response, hparse, ⟨-, text, rfl, hanswers⟩, hwritten⟩ :=
    written_handleMessage hruns hos
  · simp [OneReply, hparse, hwritten, frame, le32]
  · refine iff_of_true ⟨text.map utf8, hwritten, ?_⟩ (by simp [hparse])
    obtain ⟨request⟩ := request
    simpa [hparse, Answers, ServerResponse.map] using hanswers

/-- On a connection whose sends succeed, every message gets exactly one reply of the right kind if
and only if every message parses. -/
theorem replies_iff (codec : Codec) (socket : ℕ) (server : WindowCasterServer)
    (steps : List (Bytes × List (Event Os))) (hsteps : Handles codec socket server steps)
    (hos : ∀ step ∈ steps, ∀ event ∈ step.2, Documented event ∧ SendSucceeds event) :
    (∀ step ∈ steps, OneReply codec step.1 step.2) ↔
      ∀ step ∈ steps, (codec.parseFromString step.1).isSome := by
  induction hsteps with
  | nil => simp
  | cons hruns _ ih =>
    obtain ⟨hstep, hrest⟩ := List.forall_mem_cons.1 hos
    rw [List.forall_mem_cons, List.forall_mem_cons, ih hrest, oneReply_iff_parses hruns hstep]

/-- A client asks for the windows, and then draws one red pixel in the window it has found. -/
theorem oneReply_list_and_image :
    ∃ first second, Handles wire 1 .new
        [([10, 0], first), ([18, 13, 8, 1, 18, 9, 10, 3, 255, 0, 0, 16, 1, 24, 1], second)] ∧
      ⟨.enumWindows, [1]⟩ ∈ first ∧ ⟨.stretchBlt 2 0 0 640 480 3 0 0 1 1, true⟩ ∈ second ∧
      OneReply wire [10, 0] first ∧
      OneReply wire [18, 13, 8, 1, 18, 9, 10, 3, 255, 0, 0, 16, 1, 24, 1] second := by
  have hlist : wire.parseFromString [10, 0] = some ⟨some .getWindowList⟩ :=
    wire_lawful.request rfl (by decide)
  have himage : wire.parseFromString [18, 13, 8, 1, 18, 9, 10, 3, 255, 0, 0, 16, 1, 24, 1] =
      some ⟨some (.renderCommand ⟨1, some (.image ⟨[255, 0, 0], 1, 1⟩)⟩)⟩ :=
    wire_lawful.request rfl (by decide)
  have hos (call : Call) : Documented ⟨call, granting call⟩ ∧ SendSucceeds ⟨call, granting call⟩ :=
    ⟨documented_granting call, by cases call <;> first | exact trivial | rfl⟩
  let first := (WindowCasterServer.new.handleMessage wire (some 1) [10, 0]).simulate
    (fun _ ↦ granting) []
  let second := (first.2.handleMessage wire (some 1)
    [18, 13, 8, 1, 18, 9, 10, 3, 255, 0, 0, 16, 1, 24, 1]).simulate (fun _ ↦ granting) []
  have hhandles : Handles wire 1 .new [([10, 0], first.1),
      ([18, 13, 8, 1, 18, 9, 10, 3, 255, 0, 0, 16, 1, 24, 1], second.1)] :=
    .cons (Program.runs_simulate _ _ _) (.cons (Program.runs_simulate _ _ _) .nil)
  have henumerates : first.1[0]? = some ⟨.enumWindows, [1]⟩ := by
    simp only [first, WindowCasterServer.handleMessage, WindowCasterServer.respond, hlist]
    rfl
  have hserver : first.2 = ⟨⟨[⟨1, [87], [87]⟩]⟩, .new⟩ := by
    simp only [first, WindowCasterServer.handleMessage, WindowCasterServer.respond, hlist]
    rfl
  have hstretched : second.1[19]? = some ⟨.stretchBlt 2 0 0 640 480 3 0 0 1 1, true⟩ := by
    simp only [second, WindowCasterServer.handleMessage, WindowCasterServer.respond, himage, hserver]
    rfl
  have hreplies := (replies_iff wire 1 .new _ hhandles ?_).2 ?_
  · exact ⟨first.1, second.1, hhandles, List.mem_of_getElem? henumerates,
      List.mem_of_getElem? hstretched, hreplies ([10, 0], first.1) List.mem_cons_self,
      hreplies (_, second.1) (List.mem_cons_of_mem _ List.mem_cons_self)⟩
  · simp only [List.forall_mem_cons, List.not_mem_nil, false_imp_iff, implies_true, and_true]
    exact ⟨Program.forall_mem_simulate hos _ _, Program.forall_mem_simulate hos _ _⟩
  · simp [hlist, himage]

/-- The single byte `FF` is not a message: the server stays silent, and a client that reads one
response to each request waits for ever. -/
theorem not_oneReply_unparsable :
    Handles wire 1 .new [([0xFF], [])] ∧ ¬ OneReply wire [0xFF] [] := by
  have hfields : Foundation.ProtobufWire.parseFields [0xFF] = none := by
    rw [Foundation.ProtobufWire.parseFields,
      Foundation.StreamDecoder.Decoder.drain_of_none _ (by rfl)]
  have hparse : wire.parseFromString [0xFF] = none := by
    simp [wire, merge, hfields]
  have hruns : (WindowCasterServer.new.handleMessage wire (some 1) [0xFF]).Runs [] .new := by
    rw [WindowCasterServer.handleMessage, WindowCasterServer.respond, hparse]
    exact ⟨rfl, rfl⟩
  refine ⟨.cons hruns .nil, ?_⟩
  rintro ⟨response, hwritten, -⟩
  simp [frame, le32] at hwritten

end WindowCaster.Server.Replies
