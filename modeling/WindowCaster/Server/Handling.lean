import WindowCaster.Foundation.Transition
import WindowCaster.Protocol.Readers
import WindowCaster.Server.Sending
import WindowCaster.Server.WindowManagement
import WindowCaster.Server.Rendering

/-!
# `WindowCasterServer`

From the bytes of one message to the bytes of its response: parse the request, dispatch on its
kind, let the window manager and the renderer do the work, serialize the response. A message that
does not parse, and a response that cannot be serialized, end the handler without a response.
-/

namespace WindowCaster.Server.Handling

open Foundation.Interaction Foundation.Text Foundation.Transition Win32
open Protocol.Messages Protocol.Readers WindowManagement Rendering Sending

/-- The application objects; the socket side is modelled with the listening thread. -/
structure WindowCasterServer where
  windowManager : WindowManager
  renderer : Renderer
  deriving DecidableEq

namespace WindowCasterServer

/-- The state after the constructor. -/
def new : WindowCasterServer := ⟨⟨[]⟩, Renderer.new⟩

def validateAndInitialize (server : WindowCasterServer) (hwnd : Hwnd) (status : Status) :
    Program Os (Bool × Status × WindowCasterServer) := do
  let valid ← isWindowValid hwnd
  if !valid then return (false, ⟨false, utf8 "Invalid window handle"⟩, server)
  let (ready, renderer) ← server.renderer.initializeFor hwnd
  if !ready then
    return (false, ⟨false, utf8 "Renderer initialization failed"⟩, { server with renderer })
  return (true, status, { server with renderer })

/-- Two calls of `WideCharToMultiByte`: the size comes from the first, the bytes from the second.
The string keeps its size, so a terminating zero that was counted becomes part of it. -/
def toUtf8 (text : List UInt16) : Program Os Bytes := do
  let (size, _) : ℕ × { buffer : Bytes // buffer.length = 0 } ← os (.wideCharToMultiByte text 0)
  let (_, buffer) : ℕ × { buffer : Bytes // buffer.length = size } ←
    os (.wideCharToMultiByte text size)
  return buffer.val

def addWindow (window : WindowManagement.WindowInfo) :
    Program Os (Protocol.Messages.WindowInfo Bytes) := do
  let title ← toUtf8 window.title
  let className ← toUtf8 window.className
  return ⟨window.handle, title, className⟩

def handleGetWindowList (server : WindowCasterServer) :
    Program Os (ServerResponse Bytes × WindowCasterServer) := do
  let (windows, windowManager) ← enumerateWindows server.windowManager
  let windows ← windows.mapM addWindow
  return (⟨none, some ⟨windows⟩⟩, { server with windowManager })

def handleRenderCommand (server : WindowCasterServer) (command : RenderCommand) :
    Program Os (ServerResponse Bytes × WindowCasterServer) := do
  let (ready, status, server) ← server.validateAndInitialize command.targetWindow ⟨false, []⟩
  if !ready then return (⟨some status, none⟩, server)
  match command.content with
  | some (.image image) =>
    let (success, renderer) ← server.renderer.renderImageFrame image.data
      image.width.toUInt64 image.height.toUInt64
    return (⟨some (finish status success), none⟩, { server with renderer })
  | some (.video video) =>
    let (success, renderer) ← server.renderer.renderVideoFrame video.frameData
      video.width.toUInt64 video.height.toUInt64
    return (⟨some (finish status success), none⟩, { server with renderer })
  | none => return (⟨some ⟨false, utf8 "Unknown render content type"⟩, none⟩, server)
where
  /-- The statements after the switch. -/
  finish (status : Status) (success : Bool) : Status :=
    if success then { status with success } else ⟨success, utf8 "Render failed"⟩

def handleStopRender (server : WindowCasterServer) (command : StopRender) :
    Program Os (ServerResponse Bytes × WindowCasterServer) := do
  let (ready, status, server) ← server.validateAndInitialize command.targetWindow ⟨false, []⟩
  if !ready then return (⟨some status, none⟩, server)
  server.renderer.clear
  return (⟨some { status with success := true }, none⟩, server)

/-- The switch of `HandleMessage`. -/
def dispatch (server : WindowCasterServer) (request : ClientRequest) :
    Program Os (ServerResponse Bytes × WindowCasterServer) :=
  match request.request with
  | some .getWindowList => server.handleGetWindowList
  | some (.renderCommand command) => server.handleRenderCommand command
  | some (.stopRender command) => server.handleStopRender command
  | none => pure (⟨some ⟨false, utf8 "Unknown request type"⟩, none⟩, server)

/-- `HandleMessage` up to the call of `SendMessage`: the bytes to send, if there are any. -/
def respond (codec : Codec) (server : WindowCasterServer) (message : Bytes) :
    Program Os (Option Bytes × WindowCasterServer) := do
  match codec.parseFromString message with
  | none => return (none, server)
  | some request =>
    let (response, server) ← server.dispatch request
    return (response.serializeToString, server)

/-- `HandleMessage`; what `SendMessage` returns is not looked at. -/
def handleMessage (codec : Codec) (clientSocket : Socket) (server : WindowCasterServer)
    (message : Bytes) : Program Os WindowCasterServer := do
  let (response, server) ← server.respond codec message
  match response with
  | none => return server
  | some responseStr =>
    let _ ← sendMessage clientSocket responseStr
    return server

/-- Only conversions are needed to add a window to the response. -/
theorem keeps_addWindow {allowed : Event Os → Prop}
    (h : ∀ text size answer, allowed ⟨.wideCharToMultiByte text size, answer⟩)
    (window : WindowManagement.WindowInfo) : (addWindow window).Keeps allowed := by
  have htext (text : List UInt16) : (toUtf8 text).Keeps allowed :=
    keeps_os_bind (h _ _) fun _ ↦ keeps_os_bind (h _ _) fun _ ↦ Program.keeps_pure _
  exact Program.keeps_bind (htext _) fun _ ↦ Program.keeps_bind (htext _) fun _ ↦
    Program.keeps_pure _

end WindowCasterServer

/-! ## One message after the other -/

/-- One run of the handler: the message, the calls of the system, and the response. -/
structure Handled where
  message : Bytes
  trace : List (Event Os)
  response : Option Bytes

/-- The messages that one server handles, whichever clients they come from: the socket plays no
part before the response is sent. -/
def handlings (codec : Codec) : Machine WindowCasterServer Handled where
  start server := server = .new
  step server handled server' :=
    (server.respond codec handled.message).Runs handled.trace (handled.response, server')

section Served

variable (codec : Codec) (answers : (call : Call) → call.Answer) (server : WindowCasterServer)
  (message : Bytes)

/-- A message handled on a system that always answers a call in the same way. -/
def served : Handled × WindowCasterServer :=
  let result := (server.respond codec message).simulate (fun _ ↦ answers) []
  (⟨message, result.1, result.2.1⟩, result.2.2)

theorem runs_served :
    (server.respond codec message).Runs (served codec answers server message).1.trace
      ((served codec answers server message).1.response, (served codec answers server message).2) := by
  have hruns := (server.respond codec message).runs_simulate (fun _ ↦ answers) []
  exact hruns

theorem step_served :
    (handlings codec).step server (served codec answers server message).1
      (served codec answers server message).2 :=
  runs_served codec answers server message

theorem forall_mem_served {allowed : Event Os → Prop} (h : ∀ call, allowed ⟨call, answers call⟩) :
    ∀ event ∈ (served codec answers server message).1.trace, allowed event :=
  Program.forall_mem_simulate h [] _

end Served

end WindowCaster.Server.Handling
