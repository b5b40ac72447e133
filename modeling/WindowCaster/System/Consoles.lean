import WindowCaster.Client.Console
import WindowCaster.System.Listing
import WindowCaster.System.Reports

/-!
# What the user reads

The lines that a client writes come from the answers it has read, and these come from the calls that
the server has made for its requests. So the user of a client reads what the system has done: the
windows whose texts have been read, or of each picture whether it has been shown and, if not, why.
-/

namespace WindowCaster.System.Consoles

open Foundation.CaseMapping Foundation.Interaction Foundation.Text Foundation.Transition
open Protocol.Messages Protocol.Readers
open Client.Conduct Client.Console Client.Session Client.Window Client.WindowHandles
open Server.Diagnosis Server.Handling Server.PixelReads Server.Replies Server.Win32
open Channels Conversation Lockstep Clients Outcomes Confinement Listing Reports

/-! ## What the lines should be -/

/-- A request that is answered, and the calls that the server has made for it. -/
structure Deed where
  request : ClientRequest
  trace : List (Event Os)

namespace Deed

/-- `SetDIBits` has taken lines of the picture of this request, and `StretchBlt` has succeeded
after it. -/
def shown (deed : Deed) : Bool :=
  match deed.request.request with
  | some (.renderCommand ⟨_, some content⟩) => shows (Content.read content) deed.trace
  | _ => false

/-- Why the picture has not been shown. -/
def reason (deed : Deed) : String :=
  if deed.trace.any startsDrawing then "Render failed"
  else if 2 ≤ deed.trace.countP asksForWindow then "Renderer initialization failed"
  else "Invalid window handle"

def imageLine (deed : Deed) : Line :=
  if deed.shown then .info "Image rendering succeeded"
  else .error ("Image rendering failed: " ++ deed.reason)

/-- Nothing is written about a frame that has been shown. -/
def frameWarnings : UInt32 → List Deed → List Line
  | _, [] => []
  | frameIndex, deed :: deeds =>
    (if deed.shown then []
      else [.warn ("Failed to render frame " ++ toString frameIndex.toNat ++ ": " ++ deed.reason)]) ++
      frameWarnings (frameIndex + 1) deeds

end Deed

variable {Packet Frame : Type}

/-- What a client should tell whose requests have been served so. -/
def Accounts (data : CaseData) (command : Commands Packet Frame) (deeds : List Deed) (result : Bool)
    (lines : List Line) : Prop :=
  match command with
  | .list filter verbose =>
    lines = deeds.flatMap fun deed ↦
      (listWindows data ⟨listing deed.trace⟩ filter verbose).map .println
  | .image hwnd file _ =>
    match parseHwnd hwnd with
    | none => lines = []
    | some hwnd =>
      lines = .info ("Rendering image " ++ file ++ " to window " ++ handleText hwnd) ::
        deeds.map Deed.imageLine
  | .video hwnd file opening =>
    match parseHwnd hwnd with
    | none => lines = []
    | some hwnd =>
      lines = .info ("Rendering video " ++ file ++ " to window " ++ handleText hwnd) ::
        (openingLines opening ++ (Deed.frameWarnings 0 deeds ++
          [if result then .info "Video rendering completed" else .videoRenderingFailed]))

/-- The requests that a command waits for, with the calls of the handler. -/
def deedsOf (codec : Codec) (command : Commands Packet Frame) (handled : List Handled) : List Deed :=
  List.zipWith (fun request step ↦ ⟨request, step.trace⟩) (awaited codec command.command) handled

/-! ## The answers of the server -/

/-- The answer to a request of a client. -/
def Deed.answer (deed : Deed) : ServerResponse String :=
  if deed.request = ⟨some .getWindowList⟩ then ⟨none, some ⟨listing deed.trace⟩⟩
  else ⟨some ⟨deed.shown, if deed.shown then [] else utf8 deed.reason⟩, none⟩

theorem answer_of_list {deed : Deed} (h : deed.request = ⟨some .getWindowList⟩) :
    deed.answer = ⟨none, some ⟨listing deed.trace⟩⟩ := if_pos h

theorem answer_of_draws {deed : Deed} {hwnd : UInt64} {content : Content}
    (h : deed.request = ⟨some (.renderCommand ⟨hwnd, some content⟩)⟩) :
    deed.answer = ⟨some ⟨deed.shown, if deed.shown then [] else utf8 deed.reason⟩, none⟩ :=
  if_neg (by simp [h])

/-- The command as one without the console, with what it draws in. -/
def Commands.line : Commands Packet Frame → CommandLine Packet Frame
  | .list _ _ => .list
  | .image hwnd _ opened => .draw (.image hwnd opened)
  | .video hwnd _ opening => .draw (.video hwnd opening.input)

theorem Commands.command_line (command : Commands Packet Frame) :
    (Commands.line command).command = command.command := by
  cases command <;> rfl

/-- Requests are for the windows, or to draw in the window that is named. -/
theorem request_cases {codec : Codec} {command : Commands Packet Frame} {request : ClientRequest}
    (hmem : request ∈ awaited codec command.command) :
    ((Commands.line command).window = none ∧ request = ⟨some .getWindowList⟩) ∨
      ∃ hwnd content, (Commands.line command).window = some hwnd ∧
        request = ⟨some (.renderCommand ⟨hwnd, some content⟩)⟩ := by
  refine @CommandLine.request_cases _ _ codec _ _ ?_
  rw [Commands.command_line]
  obtain ⟨-, hrequests⟩ | ⟨-, ending, hrequests⟩ := farewell_cases codec command.command
  · rwa [hrequests]
  · rw [hrequests]
    exact List.mem_append_left _ hmem

theorem status_eq {deed : Deed} {hwnd : UInt64} {content : Content}
    (h : deed.request = ⟨some (.renderCommand ⟨hwnd, some content⟩)⟩)
    (hsuccess : (status (.renderCommand ⟨hwnd, some content⟩) deed.trace).success = deed.shown) :
    (⟨some (status (.renderCommand ⟨hwnd, some content⟩) deed.trace), none⟩ : ServerResponse String) =
      deed.answer := by
  rw [answer_of_draws h, ← hsuccess, Deed.reason, status]
  cases deed.trace.any startsDrawing with
  | true =>
    rw [if_pos rfl, if_pos rfl, drawingStatus]
    cases deed.trace.any stretches <;> simp
  | false =>
    rw [if_neg Bool.false_ne_true, if_neg Bool.false_ne_true]
    split <;> simp

/-- The answer tells what has been done, whatever kind of request it is an answer to. -/
theorem parse_of_serves {codec : Codec} (hcodec : codec.Lawful) {command : Commands Packet Frame}
    {deed : Deed} (hmem : deed.request ∈ awaited codec command.command) {step : Handled}
    (hstep : step.trace = deed.trace) (hserves : Serves codec deed.request step)
    (hos : ∀ event ∈ step.trace, Documented event) {answer : Bytes}
    (hanswer : step.response = some answer) : codec.parseFromBytes answer = some deed.answer := by
  obtain ⟨-, hrequest⟩ | ⟨hwnd, content, -, hrequest⟩ := request_cases hmem
  · obtain ⟨-, -, server, server', response, hruns, hreply, hresponse, -⟩ := hserves
    rw [hrequest] at hruns
    obtain rfl := Option.some.inj (hresponse.symm.trans hanswer)
    have hlisted := listed_handleGetWindowList server _ _ hruns hos
    rw [answer_of_list hrequest, ← hstep]
    apply hcodec.response
    rw [← hlisted]
    exact serializeToString_eq_some.2 ⟨hreply.1, rfl⟩
  · rw [hrequest] at hserves
    have htells := tells_of_serves hcodec hserves hanswer
    have hshown : deed.shown = shows (Content.read content) deed.trace := by
      rw [Deed.shown, hrequest]
    rw [hstep] at htells
    rw [htells.parses, status_eq hrequest (htells.shown.trans hshown.symm)]

/-- What is read in one list is found, item by item, in the other. -/
theorem filterMap_eq_map {α β γ : Type} {read : α → Option γ} {value : β → γ} {items : List α}
    {deeds : List β} (hlength : items.length = deeds.length)
    (h : ∀ (k : ℕ) item deed, items[k]? = some item → deeds[k]? = some deed →
      read item = some (value deed)) : items.filterMap read = deeds.map value := by
  induction items generalizing deeds with
  | nil =>
    obtain rfl := List.length_eq_zero_iff.1 hlength.symm
    rfl
  | cons item items ih =>
    cases deeds with
    | nil => cases hlength
    | cons deed deeds =>
      rw [List.filterMap_cons_some (h 0 item deed rfl rfl), List.map_cons]
      congr 1
      exact ih (Nat.succ.inj hlength) fun k item deed hitem hdeed ↦ h (k + 1) item deed hitem hdeed

theorem getElem?_requests {codec : Codec} {command : Client.Main.Command Packet Frame} {k : ℕ}
    {request : ClientRequest} (hk : (awaited codec command)[k]? = some request) :
    (requests codec command)[k]? = some request := by
  obtain ⟨-, hrequests⟩ | ⟨-, ending, hrequests⟩ := farewell_cases codec command
  · rwa [hrequests]
  · rw [hrequests]
    exact getElem?_of_isPrefix (List.prefix_append _ _) hk

/-- The answers that have been read are those to what has been done. -/
theorem filterMap_received {α : Type} {codec : Codec} (hcodec : codec.Lawful)
    {command : Commands Packet Frame} {setup : Setup} {plan : Plan} {state : Channels.State α}
    {log : Log} (h : InStep codec setup plan state log) (hplanned : Planned codec plan)
    (hplan : plan.map Prod.fst = requests codec command.command)
    (hlength : log.received.length = (awaited codec command.command).length) :
    log.received.filterMap codec.parseFromBytes = (deedsOf codec command log.handled).map Deed.answer := by
  have hhandled : log.received.length ≤ log.handled.length :=
    h.received.length_le.trans (List.length_filterMap_le _ _)
  apply filterMap_eq_map
  · rw [deedsOf, List.length_zipWith]
    omega
  intro k answer deed hanswer hdeed
  obtain ⟨request, step, hrequest, hstep, rfl⟩ := List.getElem?_zipWith_eq_some.1 hdeed
  obtain ⟨step', hstep', hresponse⟩ := h.response_of_received hanswer
  obtain rfl := Option.some.inj (hstep'.symm.trans hstep)
  obtain ⟨request', hrequest', hserves⟩ := h.serves hcodec hplanned hstep
  rw [hplan, getElem?_requests hrequest] at hrequest'
  obtain rfl := Option.some.inj hrequest'
  exact parse_of_serves hcodec (List.mem_of_getElem? hrequest) rfl hserves (h.documented hstep)
    hresponse

theorem mem_awaited_of_mem_deedsOf {codec : Codec} {command : Commands Packet Frame}
    {handled : List Handled} {deed : Deed} (hmem : deed ∈ deedsOf codec command handled) :
    deed.request ∈ awaited codec command.command := by
  obtain ⟨k, hk⟩ := List.getElem?_of_mem hmem
  obtain ⟨request, step, hrequest, -, rfl⟩ := List.getElem?_zipWith_eq_some.1 hk
  exact List.mem_of_getElem? hrequest

/-- On a desktop that does not change meanwhile, the windows are those of the desktop. -/
theorem listing_of_mem_deedsOf {α : Type} {codec : Codec} (hcodec : codec.Lawful)
    {command : Commands Packet Frame} {setup : Setup} {plan : Plan} {state : Channels.State α}
    {log : Log} (h : InStep codec setup plan state log) (hplanned : Planned codec plan)
    (hplan : plan.map Prod.fst = requests codec command.command) {deed : Deed}
    (hmem : deed ∈ deedsOf codec command log.handled)
    (hrequest : deed.request = ⟨some .getWindowList⟩) {desktop : Desktop}
    (hanswers : ∀ event ∈ deed.trace, desktop.Answers event) :
    listing deed.trace = desktop.arriving := by
  obtain ⟨k, hk⟩ := List.getElem?_of_mem hmem
  obtain ⟨request, step, hawaited, hstep, rfl⟩ := List.getElem?_zipWith_eq_some.1 hk
  obtain rfl : request = ⟨some .getWindowList⟩ := hrequest
  obtain ⟨request', hrequest', -, -, server, server', response, hruns, -⟩ :=
    h.serves hcodec hplanned hstep
  rw [hplan, getElem?_requests hawaited] at hrequest'
  obtain rfl := Option.some.inj hrequest'
  exact Desktop.returns_listing server _ _ hruns hanswers

/-! ## The lines -/

theorem listLines_answer {data : CaseData} {filter : Option String} {verbose : Bool} {deed : Deed}
    (h : deed.request = ⟨some .getWindowList⟩) : listLines data filter verbose deed.answer =
      (listWindows data ⟨listing deed.trace⟩ filter verbose).map .println := by
  rw [answer_of_list h]
  rfl

theorem imageLines_answer {deed : Deed} {hwnd : UInt64} {content : Content}
    (h : deed.request = ⟨some (.renderCommand ⟨hwnd, some content⟩)⟩) :
    imageLines deed.answer = [deed.imageLine] := by
  rw [answer_of_draws h, imageLines, Deed.imageLine]
  cases deed.shown <;> simp

theorem frameTranscript_answer {deeds : List Deed} (h : ∀ deed ∈ deeds, ∃ hwnd content,
      deed.request = ⟨some (.renderCommand ⟨hwnd, some content⟩)⟩) (frameIndex : UInt32) :
    frameTranscript frameIndex (deeds.map Deed.answer) = Deed.frameWarnings frameIndex deeds := by
  induction deeds generalizing frameIndex with
  | nil => rfl
  | cons deed deeds ih =>
    obtain ⟨⟨hwnd, content, hrequest⟩, hrest⟩ := List.forall_mem_cons.1 h
    rw [List.map_cons, frameTranscript, Deed.frameWarnings, ih hrest, answer_of_draws hrequest,
      frameLines]
    cases deed.shown <;> simp

/-- The transcript of the answers is the account of what has been done. -/
theorem accounts_of_transcript {codec : Codec} {data : CaseData} {command : Commands Packet Frame}
    {deeds : List Deed} (hdeeds : ∀ deed ∈ deeds, deed.request ∈ awaited codec command.command)
    (result : Bool) : Accounts data command deeds result
      (transcript data command (deeds.map Deed.answer) result) := by
  have hdraws {hwnd : UInt64} (hwindow : (Commands.line command).window = some hwnd) :
      ∀ deed ∈ deeds, ∃ hwnd content, deed.request = ⟨some (.renderCommand ⟨hwnd, some content⟩)⟩ := by
    intro deed hmem
    obtain ⟨hnone, -⟩ | ⟨target, content, -, hrequest⟩ := request_cases (hdeeds deed hmem)
    · cases hnone.symm.trans hwindow
    · exact ⟨target, content, hrequest⟩
  cases command with
  | list filter verbose =>
    simp only [Accounts, transcript, List.flatMap_map]
    refine List.flatMap_congr fun deed hmem ↦ ?_
    obtain ⟨-, hrequest⟩ | ⟨hwnd, -, hwindow, -⟩ := request_cases (hdeeds deed hmem)
    · exact listLines_answer hrequest
    · cases hwindow
  | image hwnd file opened =>
    simp only [Accounts, transcript]
    cases hparse : parseHwnd hwnd with
    | none => rfl
    | some target =>
      have hlines : (deeds.map Deed.answer).flatMap imageLines = deeds.map Deed.imageLine := by
        rw [List.flatMap_map, List.map_eq_flatMap]
        refine List.flatMap_congr fun deed hmem ↦ ?_
        obtain ⟨_, _, hrequest⟩ := hdraws hparse deed hmem
        exact imageLines_answer hrequest
      rw [hlines]
  | video hwnd file opening =>
    simp only [Accounts, transcript]
    cases hparse : parseHwnd hwnd with
    | none => rfl
    | some target => rw [frameTranscript_answer (hdraws hparse)]

/-! ## The client -/

section Together

variable {ι : Type} [DecidableEq ι]

/-- What a client has heard is what its log says. -/
theorem hear_callsOf (i : ι) (labels : List (Label ι)) :
    hear ⟨false, []⟩ (callsOf i labels) = ⟨(logOf i labels).awaiting, (logOf i labels).received⟩ := by
  induction labels using List.reverseRecOn with
  | nil => rfl
  | append_singleton labels label ih =>
    rw [callsOf_concat, logOf_concat]
    cases label with
    | idle => exact ih
    | client j label =>
      rw [noteCallFor, noteFor]
      split
      · cases label with
        | returned event =>
          rw [noteCall, hear_append, ih]
          obtain ⟨call, answer⟩ := event
          cases call with
          | writeAll bytes => rfl
          | readExact length => cases answer <;> rfl
        | _ => exact ih
      · exact ih

theorem done_of_final [Fintype ι] {codec : Codec} (hcodec : codec.Lawful) {data : CaseData}
    {network : Network ι} {commands : ι → Commands Packet Frame}
    (hsize : ∀ i, ∀ request ∈ requests codec (commands i).command, ∀ message,
      codec.writeToBytes request = some message → message.length < 2 ^ 31)
    {labels : List (Label ι)} {state : State ι (Bool × List Line)}
    (hrun : (machine codec network fun i ↦
      (main codec ⟨true⟩ data (commands i)).run []).Run labels state)
    (hfinal : ∀ label next, ¬ Step codec network state label next) (i : ι) :
    ∃ result lines, (state.peers i).client = .done (result, lines) := by
  obtain ⟨plans, hplans, hinv⟩ :=
    exists_invariant hcodec hsize (fun i ↦ script_main (commands i)) hrun
  obtain ⟨-, hclosed⟩ := Completion.left_of_final hcodec (fun i ↦ (hplans i).1) hinv hfinal i
  obtain ⟨⟨result, lines⟩, hdone⟩ := (hinv.inStep i).closed hclosed
  exact ⟨result, lines, hdone⟩

end Together

end WindowCaster.System.Consoles
