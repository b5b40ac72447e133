import WindowCaster.Server.Diagnosis
import WindowCaster.System.Confinement
import WindowCaster.System.Outcomes

/-!
# What a client is told

A client that draws reads one status for each picture. Whatever the system refuses and however many
clients there are: the status tells which of the checks for this picture has failed, and it is a
success exactly if `SetDIBits` has taken lines of this picture and `StretchBlt` has succeeded after
it.
-/

namespace WindowCaster.System.Reports

open Foundation.Interaction Foundation.Text Foundation.Transition
open Protocol.Messages Protocol.Readers Client.Conduct Client.Session
open Server.Diagnosis Server.Handling Server.PixelReads Server.Replies Server.Win32
open Channels Lockstep Clients Confinement

/-- The bytes are the status of this run of the handler. A success means that this picture has been
shown, and no other one has been taken. -/
structure Tells (codec : Codec) (command : RenderCommand) (content : Content)
    (trace : List (Event Os)) (answer : Bytes) : Prop where
  parses : codec.parseFromBytes answer = some ⟨some (status (.renderCommand command) trace), none⟩
  shown : (status (.renderCommand command) trace).success = shows (Content.read content) trace
  drawn : shows (Content.read content) trace = true → pixelReads trace = [Content.read content]

/-- A status that fits into a response is read as it was written. -/
theorem parse_status {codec : Codec} (hcodec : codec.Lawful) {request : ClientRequest}
    {status : Status} (hreply : Reply request ⟨some status, none⟩) :
    codec.parseFromBytes (ServerResponse.encode ⟨some status, none⟩) = some ⟨some status, none⟩ := by
  apply hcodec.response
  exact serializeToString_eq_some.2 ⟨hreply.1, rfl⟩

theorem tells_of_serves {codec : Codec} (hcodec : codec.Lawful) {hwnd : UInt64} {content : Content}
    {step : Handled} {answer : Bytes}
    (hserves : Serves codec ⟨some (.renderCommand ⟨hwnd, some content⟩)⟩ step)
    (hanswer : step.response = some answer) :
    Tells codec ⟨hwnd, some content⟩ content step.trace answer := by
  obtain ⟨-, -, server, server', response, hruns, hreply, hresponse, -⟩ := hserves
  have hcomplete : Complete (.renderCommand ⟨hwnd, some content⟩) := rfl
  obtain ⟨rfl, hshown⟩ := reported_of_dispatch hcomplete hruns
  obtain rfl := Option.some.inj (hresponse.symm.trans hanswer)
  have hshows : step.trace.any stretches = shows (Content.read content) step.trace :=
    shows_handleRenderCommand server rfl _ _ hruns
  have hsuccess : (status (.renderCommand ⟨hwnd, some content⟩) step.trace).success =
      shows (Content.read content) step.trace := (success_status hshown).trans hshows
  refine ⟨parse_status hcodec hreply, hsuccess, fun hstretched ↦ ?_⟩
  obtain ⟨-, -, message, hfailed⟩ | ⟨-, -, content', hcontent, hread⟩ :=
    Server.PixelReads.ensures_handleRenderCommand _ _ _ _ hruns
  · -- a failure is not a success
    obtain hstatus := Option.some.inj (congrArg ServerResponse.status hfailed)
    rw [hstatus, hstretched] at hsuccess
    cases hsuccess
  · obtain rfl := Option.some.inj hcontent
    exact hread

end WindowCaster.System.Reports
