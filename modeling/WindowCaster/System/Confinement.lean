import WindowCaster.Client.WindowHandles
import WindowCaster.Server.PixelReads
import WindowCaster.Server.Targeting
import WindowCaster.System.Clients

/-!
# Only windows that are named, only pictures of their own

A client is started with a command and, if it draws, with the text of a window handle. Whatever the
server does while it handles a message belongs to one of the clients: the policy of the accesses
holds for the window that this client has named, and the pixels that are drawn are those of one of
its own requests. A client that asks for the windows touches none.
-/

namespace WindowCaster.System.Confinement

open Foundation.Interaction Foundation.Monitoring Foundation.Transition
open Protocol.Messages Protocol.Readers
open Client.Main Client.Session Client.WindowHandles
open Server.Handling Server.PixelReads Server.Targeting Server.Win32
open Server.WindowManagement (Inspecting)
open Channels Lockstep Clients

/-! ## What a client is started with -/

inductive CommandLine (Packet Frame : Type)
  | list
  | draw (arguments : Arguments Packet Frame)

namespace CommandLine

variable {Packet Frame : Type} {codec : Codec} {request : ClientRequest}

def command : CommandLine Packet Frame → Command Packet Frame
  | .list => .list
  | .draw arguments => arguments.command

/-- The window that is named, if the text can be read. -/
def window : CommandLine Packet Frame → Option UInt64
  | .list => none
  | .draw arguments => parseHwnd arguments.hwnd

/-- Without a window nothing is requested. -/
theorem requests_of_parseHwnd_none {arguments : Arguments Packet Frame}
    (h : parseHwnd arguments.hwnd = none) : requests codec arguments.command = [] := by
  cases arguments with
  | image argument opened =>
    rw [Arguments.hwnd] at h
    rw [Arguments.command, h]
    rfl
  | video argument input =>
    rw [Arguments.hwnd] at h
    rw [Arguments.command, h]
    rfl

theorem renderCommand_of_mem_requests {arguments : Arguments Packet Frame} {hwnd : UInt64}
    (h : parseHwnd arguments.hwnd = some hwnd) (hmem : request ∈ requests codec arguments.command) :
    ∃ content, request = ⟨some (.renderCommand ⟨hwnd, some content⟩)⟩ := by
  cases arguments with
  | image argument opened =>
    rw [Arguments.hwnd] at h
    rw [Arguments.command, h] at hmem
    cases opened with
    | none => cases hmem
    | some img =>
      obtain ⟨rfl, -⟩ := writable_eq_some.1 (Option.mem_toList.1 hmem)
      exact ⟨_, rfl⟩
  | video argument input =>
    rw [Arguments.hwnd] at h
    rw [Arguments.command, h] at hmem
    cases input with
    | none => cases hmem
    | some input =>
      obtain ⟨frameData, hwritable⟩ := frameData_of_mem_videoRequests hmem
      obtain ⟨rfl, -⟩ := writable_eq_some.1 hwritable
      exact ⟨_, rfl⟩

/-- Requests are for the windows, or to draw in the window that is named. -/
theorem request_cases (line : CommandLine Packet Frame)
    (hmem : request ∈ requests codec line.command) :
    (line.window = none ∧ request = ⟨some .getWindowList⟩) ∨
      ∃ hwnd content, line.window = some hwnd ∧
        request = ⟨some (.renderCommand ⟨hwnd, some content⟩)⟩ := by
  cases line with
  | list =>
    obtain ⟨rfl, -⟩ := writable_eq_some.1 (Option.mem_toList.1 hmem)
    exact .inl ⟨rfl, rfl⟩
  | draw arguments =>
    cases hwindow : parseHwnd arguments.hwnd with
    | none =>
      have hnone : requests codec arguments.command = [] := requests_of_parseHwnd_none hwindow
      rw [command, hnone] at hmem
      cases hmem
    | some hwnd =>
      obtain ⟨content, rfl⟩ := renderCommand_of_mem_requests hwindow hmem
      exact .inr ⟨hwnd, content, hwindow, rfl⟩

theorem target_eq_window (line : CommandLine Packet Frame)
    (hmem : request ∈ requests codec line.command) : target request = line.window := by
  obtain ⟨hwindow, rfl⟩ | ⟨hwnd, content, hwindow, rfl⟩ := line.request_cases hmem
  · exact hwindow.symm
  · exact hwindow.symm

end CommandLine

/-! ## What is done for it -/

/-- The picture that a request carries. -/
def picture (request : ClientRequest) : Option Content :=
  match request.request with
  | some (.renderCommand command) => command.content
  | some .getWindowList | some (.stopRender _) | none => none

/-- The calls for a message keep to this window, but for what earlier messages have left, and draw
this picture. -/
structure Confined (codec : Codec) (before : List Handled) (window : Option Hwnd)
    (content : Option Content) (trace : List (Event Os)) : Prop
    extends Kept codec before window trace where
  pictures : ∀ read ∈ pixelReads trace, content.map Content.read = some read

variable {server server' : WindowCasterServer} {response : ServerResponse Foundation.Text.Bytes}
  {trace : List (Event Os)}

theorem pixelReads_of_getWindowList
    (hruns : server.handleGetWindowList.Runs trace (response, server')) : pixelReads trace = [] := by
  have hinspects (event : Event Os) (hevent : Inspecting event) :
      pixelRead event = none := by
    obtain ⟨call, answer⟩ := event
    cases call <;> simp_all [Inspecting, pixelRead]
  exact List.filterMap_eq_nil_iff.2
    (keeps_handleGetWindowList server hinspects (fun _ _ _ ↦ rfl) trace _ hruns)

theorem pictures_of_renderCommand {command : RenderCommand}
    (hruns : (server.handleRenderCommand command).Runs trace (response, server')) :
    ∀ read ∈ pixelReads trace, command.content.map Content.read = some read := by
  obtain ⟨-, hnone, -⟩ | ⟨-, -, content, hcontent, hread⟩ :=
    ensures_handleRenderCommand _ _ _ _ hruns
  · simp [hnone]
  · simp [hcontent, hread]

theorem pictures_of_dispatch {Packet Frame : Type} {codec : Codec} {request : ClientRequest}
    (line : CommandLine Packet Frame) (hmem : request ∈ requests codec line.command)
    (hruns : (server.dispatch request).Runs trace (response, server')) :
    ∀ read ∈ pixelReads trace, (picture request).map Content.read = some read := by
  obtain ⟨-, rfl⟩ | ⟨hwnd, content, -, rfl⟩ := line.request_cases hmem
  · simp [pixelReads_of_getWindowList hruns]
  · exact pictures_of_renderCommand hruns

/-! ## Runs of the system -/

end WindowCaster.System.Confinement
