import WindowCaster.Server.Arguments
import WindowCaster.Server.HandleAccounting
import WindowCaster.Server.Lifecycle

/-!
# The server process

`main` from the command line to the exit code: the port is read, the objects are constructed, the
server is started and stopped when a signal has arrived, and the objects are destroyed in reverse
order. The listening thread works on the renderer until `Stop` has joined it, and the renderer is
destroyed after that, so the handles of all messages are released before the process ends. The C
runtime takes the handler of Ctrl+C back when it calls it: a second Ctrl+C ends the process at once,
wherever it is.
-/

namespace WindowCaster.Server.Process

open Foundation.Interaction Foundation.Monitoring Foundation.Text Foundation.Transition
open Protocol.Messages Protocol.Readers
open Win32 WindowManagement Rendering RendererCalls Handling HandleAccounting Arguments Lifecycle

/-! ## Handling a message -/

theorem ignores_inspecting {ledger : Ledger} (event : Event Os) (h : Inspecting event) :
    audit ledger event = some ledger := by
  obtain ⟨call, answer⟩ := event
  cases call <;> simp_all [Inspecting, audit]

section Handler

variable {server : WindowCasterServer} (hnested : Nested server.renderer)

include hnested

theorem obeys_validateAndInitialize (hwnd : Hwnd) (status : Status) :
    (server.validateAndInitialize hwnd status).Obeys ReleaseSucceeds audit
      (holdings server.renderer) fun ledger result ↦ Balanced ledger result.2.2.renderer := by
  have hinspects : (isWindowValid hwnd).Obeys ReleaseSucceeds audit (holdings server.renderer)
      fun last _ ↦ last = holdings server.renderer :=
    (inspects_isWindowValid hwnd).obeys ignores_inspecting
  refine hinspects.bind ?_
  rintro _ valid rfl
  cases valid with
  | false => exact Program.obeys_pure ⟨rfl, hnested⟩
  | true =>
    refine (obeys_initializeFor hnested hwnd).bind ?_
    rintro ledger ⟨ready, renderer⟩ ⟨hbalanced, -⟩
    cases ready with
    | false => exact Program.obeys_pure hbalanced
    | true => exact Program.obeys_pure hbalanced

theorem obeys_handleRenderCommand (command : RenderCommand) :
    (server.handleRenderCommand command).Obeys ReleaseSucceeds audit (holdings server.renderer)
      fun ledger result ↦ Balanced ledger result.2.renderer := by
  refine (obeys_validateAndInitialize hnested command.targetWindow _).bind ?_
  rintro _ ⟨ready, status, server⟩ ⟨rfl, hnested⟩
  cases ready with
  | false => exact Program.obeys_pure ⟨rfl, hnested⟩
  | true =>
    dsimp only
    cases command.content with
    | none => exact Program.obeys_pure ⟨rfl, hnested⟩
    | some content =>
      cases content with
      | image image =>
        refine (obeys_renderImageFrame hnested _ _ _).bind ?_
        intro ledger result hbalanced
        exact Program.obeys_pure hbalanced
      | video video =>
        refine (obeys_renderImageFrame hnested _ _ _).bind ?_
        intro ledger result hbalanced
        exact Program.obeys_pure hbalanced

theorem obeys_handleStopRender (command : StopRender) :
    (server.handleStopRender command).Obeys ReleaseSucceeds audit (holdings server.renderer)
      fun ledger result ↦ Balanced ledger result.2.renderer := by
  refine (obeys_validateAndInitialize hnested command.targetWindow _).bind ?_
  rintro _ ⟨ready, status, server⟩ ⟨rfl, hnested⟩
  cases ready with
  | false => exact Program.obeys_pure ⟨rfl, hnested⟩
  | true =>
    refine (obeys_clear server.renderer).bind ?_
    rintro _ _ rfl
    exact Program.obeys_pure ⟨rfl, hnested⟩

theorem obeys_handleGetWindowList :
    server.handleGetWindowList.Obeys ReleaseSucceeds audit (holdings server.renderer)
      fun ledger result ↦ Balanced ledger result.2.renderer := by
  have henumerates : (enumerateWindows server.windowManager).Obeys ReleaseSucceeds audit
      (holdings server.renderer) fun last _ ↦ last = holdings server.renderer :=
    (inspects_enumerateWindows _).obeys ignores_inspecting
  refine henumerates.bind ?_
  rintro _ ⟨windows, windowManager⟩ rfl
  have hconverts : (windows.mapM WindowCasterServer.addWindow).Obeys ReleaseSucceeds audit
      (holdings server.renderer) fun last _ ↦ last = holdings server.renderer :=
    (Program.keeps_mapM (WindowCasterServer.keeps_addWindow fun _ _ _ ↦ rfl) windows).obeys
      fun _ hevent ↦ hevent
  refine hconverts.bind ?_
  rintro _ _ rfl
  exact Program.obeys_pure ⟨rfl, hnested⟩

/-- Whatever a message asks for, the books stay in order. -/
theorem obeys_respond (codec : Codec) (message : Bytes) :
    (server.respond codec message).Obeys ReleaseSucceeds audit (holdings server.renderer)
      fun ledger result ↦ Balanced ledger result.2.renderer := by
  unfold WindowCasterServer.respond
  cases codec.parseFromString message with
  | none => exact Program.obeys_pure ⟨rfl, hnested⟩
  | some request =>
    have hdispatch : (server.dispatch request).Obeys ReleaseSucceeds audit
        (holdings server.renderer) fun ledger result ↦ Balanced ledger result.2.renderer := by
      obtain ⟨request⟩ := request
      match request with
      | some .getWindowList => exact obeys_handleGetWindowList hnested
      | some (.renderCommand command) => exact obeys_handleRenderCommand hnested command
      | some (.stopRender command) => exact obeys_handleStopRender hnested command
      | none => exact Program.obeys_pure ⟨rfl, hnested⟩
    refine hdispatch.bind ?_
    intro ledger result hbalanced
    exact Program.obeys_pure hbalanced

end Handler

/-! ## The listening thread, up to the end of `Stop` -/

/-- The calls for a message; the thread makes no others on windows and their contexts. -/
def threadCalls : Shutdown.Label → List (Event Os)
  | .thread (.handled _ trace _) => trace
  | _ => []

theorem server_step {codec : Codec} {state state' : Shutdown.State} {label : Shutdown.Label}
    (h : Shutdown.Step codec state label state') :
    (∃ message response, (state.thread.server.respond codec message).Runs (threadCalls label)
        (response, state'.thread.server)) ∨
      threadCalls label = [] ∧ state'.thread.server = state.thread.server := by
  cases h with
  | thread h hpermits =>
    cases h with
    | noResponse h hruns => exact .inl ⟨_, _, hruns⟩
    | response h hruns => exact .inl ⟨_, _, hruns⟩
    | _ => exact .inr ⟨rfl, rfl⟩
  | _ => exact .inr ⟨rfl, rfl⟩

theorem balanced_stop {codec : Codec} {initial state : Shutdown.State} {ledger : Ledger}
    (hinitial : Balanced ledger initial.thread.server.renderer) {labels : List Shutdown.Label}
    (hrun : (Shutdown.machine codec initial).Run labels state)
    (hreleases : ∀ event ∈ labels.flatMap threadCalls, ReleaseSucceeds event) :
    ∃ last, audit.follow ledger (labels.flatMap threadCalls) = some last ∧
      Balanced last state.thread.server.renderer := by
  refine hrun.follow (fun ledger state ↦ Balanced ledger state.thread.server.renderer) ?_ ?_ hreleases
  · rintro _ rfl
    exact hinitial
  · rintro before state label state' ⟨rfl, hnested⟩ hstep hallowed
    obtain ⟨message, response, hruns⟩ | ⟨hnone, hserver⟩ := server_step hstep
    · exact obeys_respond hnested codec message _ _ hruns hallowed
    · rw [hnone, hserver]
      exact ⟨_, rfl, rfl, hnested⟩

/-! ## `main` -/

/-- `STATUS_CONTROL_C_EXIT` -/
def statusControlCExit : UInt32 := 0xC000013A

inductive Phase
  | registering
  | reading
  | constructing (port : UInt16)
  | starting (server : NetworkServer)
  /-- The loop that sleeps until there is a signal. -/
  | waiting (server : NetworkServer)
  /-- The objects are destroyed in this and the next two phases, and the exit code is known. -/
  | destroying (server : NetworkServer) (code : UInt32)
  | releasing (renderer : Renderer) (code : UInt32)
  | shuttingDown (code : UInt32)
  | exited (code : UInt32)

/-- How far the work of a phase has come that is cut off. -/
inductive Unfinished
  | nothing
  | start (trace : List (Event Winsock))
  /-- The thread and `Stop`, and the calls for the message that is being handled. -/
  | stop (labels : List Shutdown.Label) (trace : List (Event Os))
  | cleanup (trace : List (Event Os))

/-- The calls for the message that the thread is handling. -/
def HandlingBegun (codec : Codec) (thread : ListenThread.State) (trace : List (Event Os)) : Prop :=
  trace = [] ∨ ∃ message, thread.point = .handling message ∧
    (thread.server.respond codec message).Begins trace

inductive Underway (codec : Codec) : Phase → Unfinished → Prop
  | nothing {phase : Phase} : Underway codec phase .nothing
  | starting {server : NetworkServer} {trace : List (Event Winsock)} (h : server.start.Begins trace) :
      Underway codec (.starting server) (.start trace)
  | waiting {server : NetworkServer} {labels : List Shutdown.Label} {stopping : Shutdown.State}
      {trace : List (Event Os)} (hrun : (Shutdown.machine codec server.shutdown).Run labels stopping)
      (hhandling : HandlingBegun codec stopping.thread trace) :
      Underway codec (.waiting server) (.stop labels trace)
  | destroying {server : NetworkServer} {code : UInt32} {labels : List Shutdown.Label}
      {stopping : Shutdown.State} {trace : List (Event Os)}
      (hrun : (Shutdown.machine codec server.shutdown).Run labels stopping)
      (hhandling : HandlingBegun codec stopping.thread trace) :
      Underway codec (.destroying server code) (.stop labels trace)
  | releasing {renderer : Renderer} {code : UInt32} {trace : List (Event Os)}
      (h : (destroy renderer).Begins trace) : Underway codec (.releasing renderer code) (.cleanup trace)

/-- `registered` says that `signalHandler` is the one to be called, and `signalled` that
`gSignalStatus` is not zero. -/
structure State where
  phase : Phase
  registered : Bool
  signalled : Bool
  gdiplusToken : UInt64

inductive Label
  | tau
  /-- `std::signal` -/
  | registration (succeeded : Bool)
  /-- Ctrl+C, and `signalHandler` is called. -/
  | signal
  /-- Ctrl+C, which is left to the system. -/
  | terminated (unfinished : Unfinished)
  | sleep
  | gdiplusStartup (succeeded : Bool) (token : UInt64)
  | network (label : Lifecycle.Label)
  | cleanup (trace : List (Event Os))
  | gdiplusShutdown (token : UInt64)

inductive Step (codec : Codec) (argv : List (List Char)) : State → Label → State → Prop
  | registration {state : State} {succeeded : Bool} (h : state.phase = .registering) :
      Step codec argv state (.registration succeeded)
        { state with phase := .reading, registered := succeeded }
  | signal {state : State} (hrunning : ∀ code, state.phase ≠ .exited code)
      (hregistered : state.registered = true) :
      Step codec argv state .signal { state with registered := false, signalled := true }
  | terminated {state : State} {unfinished : Unfinished}
      (hrunning : ∀ code, state.phase ≠ .exited code) (hregistered : state.registered = false)
      (hunderway : Underway codec state.phase unfinished) :
      Step codec argv state (.terminated unfinished)
        { state with phase := .exited statusControlCExit }
  | misread {state : State} {failure : Failure} (h : state.phase = .reading)
      (hport : port argv = .error failure) : Step codec argv state .tau { state with phase := .exited 1 }
  | read {state : State} {port : UInt16} (h : state.phase = .reading)
      (hport : Arguments.port argv = .ok port) :
      Step codec argv state .tau { state with phase := .constructing port }
  -- the constructor of `Renderer` throws
  | notConstructed {state : State} {port : UInt16} {token : UInt64}
      (h : state.phase = .constructing port) :
      Step codec argv state (.gdiplusStartup false token) { state with phase := .exited 1 }
  | constructed {state : State} {port : UInt16} {token : UInt64}
      (h : state.phase = .constructing port) :
      Step codec argv state (.gdiplusStartup true token)
        { state with phase := .starting (.new port), gdiplusToken := token }
  | notStarted {state : State} {server server' : NetworkServer} {trace : List (Event Winsock)}
      (h : state.phase = .starting server)
      (hstart : Lifecycle.Step codec server (.start server trace false server') server') :
      Step codec argv state (.network (.start server trace false server'))
        { state with phase := .destroying server' 1 }
  | started {state : State} {server server' : NetworkServer} {trace : List (Event Winsock)}
      (h : state.phase = .starting server)
      (hstart : Lifecycle.Step codec server (.start server trace true server') server') :
      Step codec argv state (.network (.start server trace true server'))
        { state with phase := .waiting server' }
  | sleep {state : State} {server : NetworkServer} (h : state.phase = .waiting server)
      (hquiet : state.signalled = false) : Step codec argv state .sleep state
  | stopped {state : State} {server server' : NetworkServer} {labels : List Shutdown.Label}
      (h : state.phase = .waiting server) (hsignal : state.signalled = true)
      (hstop : Lifecycle.Step codec server (.stop server labels) server') :
      Step codec argv state (.network (.stop server labels))
        { state with phase := .destroying server' 0 }
  | destroyed {state : State} {server server' : NetworkServer} {code : UInt32}
      {labels : List Shutdown.Label} (h : state.phase = .destroying server code)
      (hstop : Lifecycle.Step codec server (.stop server labels) server') :
      Step codec argv state (.network (.stop server labels))
        { state with phase := .releasing server'.application.renderer code }
  | released {state : State} {renderer : Renderer} {code : UInt32} {trace : List (Event Os)}
      (h : state.phase = .releasing renderer code) (hruns : (destroy renderer).Runs trace ()) :
      Step codec argv state (.cleanup trace) { state with phase := .shuttingDown code }
  | shutdown {state : State} {code : UInt32} (h : state.phase = .shuttingDown code)
      (htoken : state.gdiplusToken ≠ 0) :
      Step codec argv state (.gdiplusShutdown state.gdiplusToken) { state with phase := .exited code }
  | noShutdown {state : State} {code : UInt32} (h : state.phase = .shuttingDown code)
      (htoken : state.gdiplusToken = 0) :
      Step codec argv state .tau { state with phase := .exited code }

def machine (codec : Codec) (argv : List (List Char)) : Machine State Label where
  start state := state = ⟨.registering, false, false, 0⟩
  step := Step codec argv

/-! ## What the process holds -/

/-- The calls on windows and their contexts, by the listening thread and by the destructor. -/
def osCalls : Label → List (Event Os)
  | .network (.stop _ labels) => labels.flatMap threadCalls
  | .terminated (.stop labels trace) => labels.flatMap threadCalls ++ trace
  | .cleanup trace | .terminated (.cleanup trace) => trace
  | _ => []

/-- The handles that are live in a phase. -/
def Books (ledger : Ledger) : Phase → Prop
  | .starting server => ledger = .empty ∧ ∃ port, server = .new port
  | .waiting server | .destroying server _ => Balanced ledger server.application.renderer
  | .releasing renderer _ => Balanced ledger renderer
  | .registering | .reading | .constructing _ | .shuttingDown _ => ledger = .empty
  | .exited code => code ≠ statusControlCExit → ledger = .empty

variable {codec : Codec} {argv : List (List Char)} {state state' : State} {label : Label}
  {labels : List Label}

/-- `Start` does not touch the objects behind the handler. -/
theorem application_of_start {port : UInt16} {trace : List (Event Winsock)} {started : Bool}
    {server' : NetworkServer}
    (h : Lifecycle.Step codec (.new port) (.start (.new port) trace started server') server') :
    server'.application = .new := by
  have hsettled : Settled (.new port) := ⟨rfl, rfl, rfl⟩
  cases h with
  | start hruns => cases ensures_start hsettled _ _ hruns <;> rfl

theorem balanced_of_stop {server server' : NetworkServer} {ledger : Ledger}
    (hbalanced : Balanced ledger server.application.renderer) {labels : List Shutdown.Label}
    (h : Lifecycle.Step codec server (.stop server labels) server')
    (hreleases : ∀ event ∈ labels.flatMap threadCalls, ReleaseSucceeds event) :
    ∃ last, audit.follow ledger (labels.flatMap threadCalls) = some last ∧
      Balanced last server'.application.renderer := by
  cases h with
  | stop hrun hreturned => exact balanced_stop hbalanced hrun hreleases

theorem releaseSucceeds_granting (call : Win32.Call) : ReleaseSucceeds ⟨call, granting call⟩ := by
  cases call <;> first | exact trivial | rfl

theorem exists_releaseSucceeds (call : Win32.Call) : ∃ answer, ReleaseSucceeds ⟨call, answer⟩ :=
  ⟨granting call, releaseSucceeds_granting call⟩

/-- Also when the process ends while a message is handled. -/
theorem follow_of_handlingBegun {thread : ListenThread.State} {ledger : Ledger}
    (hbalanced : Balanced ledger thread.server.renderer) {trace : List (Event Os)}
    (h : HandlingBegun codec thread trace) (hreleases : ∀ event ∈ trace, ReleaseSucceeds event) :
    ∃ last, audit.follow ledger trace = some last := by
  obtain rfl | ⟨message, -, hbegins⟩ := h
  · exact ⟨ledger, rfl⟩
  · obtain ⟨rfl, hnested⟩ := hbalanced
    exact (obeys_respond hnested codec message).follow_of_begins exists_releaseSucceeds hbegins
      hreleases

theorem follow_of_cutOff {server : NetworkServer} {ledger : Ledger}
    (hbalanced : Balanced ledger server.application.renderer) {labels : List Shutdown.Label}
    {stopping : Shutdown.State} {trace : List (Event Os)}
    (hrun : (Shutdown.machine codec server.shutdown).Run labels stopping)
    (hhandling : HandlingBegun codec stopping.thread trace)
    (hreleases : ∀ event ∈ labels.flatMap threadCalls ++ trace, ReleaseSucceeds event) :
    ∃ last, audit.follow ledger (labels.flatMap threadCalls ++ trace) = some last := by
  rw [List.forall_mem_append] at hreleases
  obtain ⟨middle, hmiddle, hbalanced⟩ := balanced_stop hbalanced hrun hreleases.1
  obtain ⟨last, hlast⟩ := follow_of_handlingBegun hbalanced hhandling hreleases.2
  exact ⟨last, by rw [Monitor.follow_append, hmiddle, Option.bind_some, hlast]⟩

theorem obeys_destroy {renderer : Renderer} (hnested : Nested renderer) :
    (destroy renderer).Obeys ReleaseSucceeds audit (holdings renderer) fun ledger _ ↦
      ledger = .empty := by
  refine (obeys_cleanup hnested).bind ?_
  rintro _ _ ⟨-, rfl⟩
  exact Program.obeys_pure rfl

theorem follow_of_underway {ledger : Ledger} {phase : Phase} (hbooks : Books ledger phase)
    {unfinished : Unfinished} (hunderway : Underway codec phase unfinished)
    (hreleases : ∀ event ∈ osCalls (.terminated unfinished), ReleaseSucceeds event) :
    ∃ last, audit.follow ledger (osCalls (.terminated unfinished)) = some last := by
  cases hunderway with
  | nothing | starting h => exact ⟨ledger, rfl⟩
  | waiting hrun hhandling | destroying hrun hhandling =>
    exact follow_of_cutOff hbooks hrun hhandling hreleases
  | releasing h =>
    obtain ⟨rfl, hnested⟩ := hbooks
    exact (obeys_destroy hnested).follow_of_begins exists_releaseSucceeds h hreleases

theorem books_step {ledger : Ledger} (hbooks : Books ledger state.phase)
    (hstep : Step codec argv state label state')
    (hreleases : ∀ event ∈ osCalls label, ReleaseSucceeds event) :
    ∃ last, audit.follow ledger (osCalls label) = some last ∧ Books last state'.phase := by
  cases hstep with
  | signal _ _ => exact ⟨ledger, rfl, hbooks⟩
  | sleep h hquiet => exact ⟨ledger, rfl, hbooks⟩
  | terminated _ _ hunderway =>
    obtain ⟨last, hlast⟩ := follow_of_underway hbooks hunderway hreleases
    exact ⟨last, hlast, fun hcode ↦ absurd rfl hcode⟩
  | registration h | read h hport =>
    rw [h] at hbooks
    exact ⟨ledger, rfl, hbooks⟩
  | misread h hport | notConstructed h | shutdown h htoken | noShutdown h htoken =>
    rw [h] at hbooks
    exact ⟨ledger, rfl, fun _ ↦ hbooks⟩
  | constructed h =>
    rw [h] at hbooks
    exact ⟨ledger, rfl, hbooks, _, rfl⟩
  | notStarted h hstart | started h hstart =>
    rw [h] at hbooks
    obtain ⟨rfl, port, rfl⟩ := hbooks
    refine ⟨.empty, rfl, ?_⟩
    rw [Books, application_of_start hstart]
    exact ⟨rfl, nested_new⟩
  | stopped h hsignal hstop | destroyed h hstop =>
    rw [h] at hbooks
    exact balanced_of_stop hbooks hstop hreleases
  | released h hruns =>
    rw [h] at hbooks
    obtain ⟨rfl, hnested⟩ := hbooks
    exact obeys_destroy hnested _ () hruns hreleases

/-! ## What the process reports -/

/-- A call of `Start` that succeeds. -/
def Starts : Label → Prop
  | .network (.start _ _ true _) => True
  | _ => False

/-- The code tells whether the server was started; if it was, a signal has stopped it. -/
def Completes (labels : List Label) (code : UInt32) : Prop :=
  code = 0 ∧ .signal ∈ labels ∧ (∃ label ∈ labels, Starts label) ∨
    code = 1 ∧ ∀ label ∈ labels, ¬ Starts label

/-- Ctrl+C is left to the system: the handler has not been registered, or it has been called. -/
def Unhandled (labels : List Label) : Prop := .signal ∈ labels ∨ .registration true ∉ labels

/-- The exit code: that of `main`, or that of Ctrl+C if it was left to the system. -/
def Reports (labels : List Label) (code : UInt32) : Prop :=
  Completes labels code ∨
    code = statusControlCExit ∧ ∃ before unfinished, labels = before ++ [.terminated unfinished] ∧
      Unhandled before

def ReportsIn (labels : List Label) : Phase → Prop
  | .registering | .reading | .constructing _ | .starting _ => ∀ label ∈ labels, ¬ Starts label
  | .waiting _ => ∃ label ∈ labels, Starts label
  | .destroying _ code | .releasing _ code | .shuttingDown code => Completes labels code
  | .exited code => Reports labels code

/-- A step that starts nothing keeps what has been reported. -/
theorem Completes.concat {code : UInt32} (h : Completes labels code) (hlabel : ¬ Starts label) :
    Completes (labels ++ [label]) code := by
  obtain ⟨hcode, hsignal, start, hmem, hstarts⟩ | ⟨hcode, hnone⟩ := h
  · exact .inl ⟨hcode, List.mem_append_left _ hsignal, start, List.mem_append_left _ hmem, hstarts⟩
  · exact .inr ⟨hcode, List.forall_mem_append.2 ⟨hnone, List.forall_mem_singleton.2 hlabel⟩⟩

/-- A token that `GdiplusStartup` handed out. -/
def startupToken : Label → Option UInt64
  | .gdiplusStartup true token => some token
  | _ => none

def shutdownToken : Label → Option UInt64
  | .gdiplusShutdown token => some token
  | _ => none

/-- Start-ups and shutdowns of GDI+ in a phase. -/
def TokensIn (labels : List Label) (token : UInt64) : Phase → Prop
  | .registering | .reading | .constructing _ =>
    labels.filterMap startupToken = [] ∧ labels.filterMap shutdownToken = []
  | .starting _ | .waiting _ | .destroying _ _ | .releasing _ _ | .shuttingDown _ =>
    labels.filterMap startupToken = [token] ∧ labels.filterMap shutdownToken = []
  | .exited code => code ≠ statusControlCExit →
    (labels.filterMap startupToken).filter (· ≠ 0) = labels.filterMap shutdownToken

/-- The server that is going to be started has the port of the command line. -/
def PortIn (argv : List (List Char)) : Phase → Prop
  | .constructing port => Arguments.port argv = .ok port
  | .starting server => Arguments.port argv = .ok server.port
  | .registering | .reading | .waiting _ | .destroying _ _ | .releasing _ _ | .shuttingDown _
  | .exited _ => True

/-- The port that a socket is bound to. -/
def boundPort : Event Winsock → Option UInt16
  | ⟨.bind _ port, _⟩ => some port
  | _ => none

/-- The calls of `Start`. -/
def startCalls : Label → List (Event Winsock)
  | .network (.start _ trace _ _) | .terminated (.start trace) => trace
  | _ => []

/-- Sockets are bound to the port of the command line. -/
def BindsPort (argv : List (List Char)) (label : Label) : Prop :=
  ∀ event ∈ startCalls label, ∀ port ∈ boundPort event, Arguments.port argv = .ok port

structure Invariant (argv : List (List Char)) (labels : List Label) (state : State) : Prop where
  signalled : state.signalled = true → .signal ∈ labels
  registering : state.phase = .registering → .registration true ∉ labels
  registered : state.registered = false → Unhandled labels
  reports : ReportsIn labels state.phase
  tokens : TokensIn labels state.gdiplusToken state.phase
  port : PortIn argv state.phase
  binds : ∀ label ∈ labels, BindsPort argv label

/-- `Start` binds to the port of the server. -/
theorem keeps_start (server : NetworkServer) :
    server.start.Keeps fun event ↦ ∀ port ∈ boundPort event, port = server.port := by
  have hquiet {call : Lifecycle.Call} {α : Type} {after : call.Answer → Program Winsock α}
      (hcall : ∀ answer, boundPort ⟨call, answer⟩ = none)
      (hafter : ∀ answer, (after answer).Keeps fun event ↦
        ∀ port ∈ boundPort event, port = server.port) :
      (winsock call >>= after).Keeps fun event ↦ ∀ port ∈ boundPort event, port = server.port :=
    Program.keeps_bind (Program.keeps_perform.2 fun answer ↦ by simp [hcall]) hafter
  have hgiveUp (server' : NetworkServer) : server'.giveUp.Keeps fun event ↦
      ∀ port ∈ boundPort event, port = server.port := by
    refine Program.keeps_bind ?_ fun _ ↦ Program.keeps_pure _
    refine Program.keeps_bind ?_ fun _ ↦ Program.keeps_bind ?_ fun _ ↦
      hquiet (fun _ ↦ rfl) fun _ ↦ Program.keeps_pure _
    · unfold NetworkServer.closeServerSocket
      split
      · exact Program.keeps_pure _
      · exact hquiet (fun _ ↦ rfl) fun _ ↦ Program.keeps_pure _
    · unfold NetworkServer.closeClientSocket
      split
      · exact Program.keeps_pure _
      · exact hquiet (fun _ ↦ rfl) fun _ ↦ Program.keeps_pure _
  unfold NetworkServer.start
  split
  · exact Program.keeps_pure _
  refine hquiet (fun _ ↦ rfl) fun initialized ↦ ?_
  split
  · exact Program.keeps_pure _
  refine hquiet (fun _ ↦ rfl) fun serverSocket ↦ ?_
  dsimp only
  split
  · exact Program.keeps_pure _
  refine hquiet (fun _ ↦ rfl) fun reused ↦ ?_
  split
  · exact hgiveUp _
  refine Program.keeps_bind (Program.keeps_perform.2 fun answer ↦ ?_) fun bound ↦ ?_
  · simp [boundPort]
  split
  · exact hgiveUp _
  refine hquiet (fun _ ↦ rfl) fun listening ↦ ?_
  split
  · exact hgiveUp _
  · exact Program.keeps_pure _

theorem forall_not_starts (h : ∀ label ∈ labels, ¬ Starts label) (hlabel : ¬ Starts label) :
    ∀ past ∈ labels ++ [label], ¬ Starts past :=
  List.forall_mem_append.2 ⟨h, List.forall_mem_singleton.2 hlabel⟩

theorem ReportsIn.concat {phase : Phase} (h : ReportsIn labels phase) (hlabel : ¬ Starts label)
    (hrunning : ∀ code, phase ≠ .exited code) : ReportsIn (labels ++ [label]) phase := by
  cases phase with
  | registering | reading | constructing port | starting server => exact forall_not_starts h hlabel
  | waiting server =>
    obtain ⟨start, hmem, hstarts⟩ := h
    exact ⟨start, List.mem_append_left _ hmem, hstarts⟩
  | destroying server code | releasing renderer code | shuttingDown code =>
    exact Completes.concat h hlabel
  | exited code => exact absurd rfl (hrunning code)

theorem reports_step (hsignalled : state.signalled = true → .signal ∈ labels)
    (hregistered : state.registered = false → Unhandled labels)
    (hreports : ReportsIn labels state.phase) (hstep : Step codec argv state label state') :
    ReportsIn (labels ++ [label]) state'.phase := by
  cases hstep with
  | signal hrunning _ => exact hreports.concat id hrunning
  | sleep h hquiet =>
    refine hreports.concat id fun code ↦ ?_
    rw [h]
    exact Phase.noConfusion
  | terminated _ hunregistered _ => exact .inr ⟨rfl, _, _, rfl, hregistered hunregistered⟩
  | misread h hport | notConstructed h =>
    rw [h] at hreports
    exact .inl (.inr ⟨rfl, forall_not_starts hreports id⟩)
  | notStarted h hstart =>
    rw [h] at hreports
    exact .inr ⟨rfl, forall_not_starts hreports id⟩
  | registration h | read h hport | constructed h =>
    rw [h] at hreports
    exact forall_not_starts hreports id
  | started h hstart => exact ⟨_, List.mem_append_right _ (List.mem_singleton_self _), trivial⟩
  | stopped h hsignal hstop =>
    rw [h] at hreports
    obtain ⟨start, hmem, hstarts⟩ := hreports
    exact .inl ⟨rfl, List.mem_append_left _ (hsignalled hsignal), start,
      List.mem_append_left _ hmem, hstarts⟩
  | destroyed h hstop | released h hruns =>
    rw [h] at hreports
    exact Completes.concat hreports id
  | shutdown h htoken | noShutdown h htoken =>
    rw [h] at hreports
    exact .inl (Completes.concat hreports id)

/-- GDI+ is started up once and shut down once, if it handed out a token. -/
theorem tokens_step (htokens : TokensIn labels state.gdiplusToken state.phase)
    (hstep : Step codec argv state label state') :
    TokensIn (labels ++ [label]) state'.gdiplusToken state'.phase := by
  have hquiet {label : Label} {token : UInt64} {phase : Phase} (h : TokensIn labels token phase)
      (hstartup : startupToken label = none) (hshutdown : shutdownToken label = none) :
      TokensIn (labels ++ [label]) token phase := by
    have hstartups : (labels ++ [label]).filterMap startupToken = labels.filterMap startupToken := by
      simp [hstartup]
    have hshutdowns : (labels ++ [label]).filterMap shutdownToken = labels.filterMap shutdownToken := by
      simp [hshutdown]
    cases phase with
    | _ => simpa only [TokensIn, hstartups, hshutdowns] using h
  cases hstep with
  | signal hrunning _ => exact hquiet htokens rfl rfl
  | sleep h hsleep => exact hquiet htokens rfl rfl
  | terminated _ _ _ => exact fun hcode ↦ absurd rfl hcode
  | registration h | read h hport | notStarted h hstart | started h hstart | stopped h hsignal hstop
  | destroyed h hstop | released h hruns =>
    rw [h] at htokens
    exact hquiet htokens rfl rfl
  | misread h hport | notConstructed h =>
    rw [h] at htokens
    rw [TokensIn, List.filterMap_append, List.filterMap_append, htokens.1, htokens.2]
    exact fun _ ↦ rfl
  | constructed h =>
    rw [h] at htokens
    rw [TokensIn, List.filterMap_append, List.filterMap_append, htokens.1, htokens.2]
    exact ⟨rfl, rfl⟩
  | shutdown h htoken =>
    rw [h] at htokens
    rw [TokensIn, List.filterMap_append, List.filterMap_append, htokens.1, htokens.2]
    exact fun _ ↦ List.filter_cons_of_pos (by simpa using htoken)
  | noShutdown h htoken =>
    rw [h] at htokens
    rw [TokensIn, List.filterMap_append, List.filterMap_append, htokens.1, htokens.2, htoken]
    exact fun _ ↦ rfl

theorem port_step (hport : PortIn argv state.phase) (hstep : Step codec argv state label state') :
    PortIn argv state'.phase := by
  cases hstep with
  | signal hrunning _ => exact hport
  | sleep h hsleep => exact hport
  | read h hread => exact hread
  | constructed h =>
    rw [h] at hport
    exact hport
  | _ => exact trivial

theorem binds_step (hport : PortIn argv state.phase) (hstep : Step codec argv state label state') :
    BindsPort argv label := by
  cases hstep with
  | notStarted h hstart | started h hstart =>
    rw [h] at hport
    cases hstart with
    | start hruns =>
      intro event hevent port hbound
      rw [keeps_start _ _ _ hruns event hevent port hbound]
      exact hport
  | terminated _ _ hunderway =>
    generalize state.phase = phase at hport hunderway
    cases hunderway with
    | starting h =>
      obtain ⟨rest, result, hruns⟩ := h
      intro event hevent port hbound
      rw [keeps_start _ _ _ hruns event (List.mem_append_left _ hevent) port hbound]
      exact hport
    | _ => exact fun _ hevent ↦ absurd hevent List.not_mem_nil
  | _ => exact fun _ hevent ↦ absurd hevent List.not_mem_nil

theorem not_mem_concat {last label : Label} (h : label ∉ labels) (hlast : last ≠ label) :
    label ∉ labels ++ [last] := by
  simp [h, hlast.symm]

theorem registering_step (hregistering : state.phase = .registering → .registration true ∉ labels)
    (hstep : Step codec argv state label state') (h : state'.phase = .registering) :
    .registration true ∉ labels ++ [label] := by
  cases hstep with
  | signal _ _ | sleep _ _ => exact not_mem_concat (hregistering h) Label.noConfusion
  | _ => exact Phase.noConfusion h

/-- The handler is in place from its registration to the first Ctrl+C. -/
theorem registered_step (hregistering : state.phase = .registering → .registration true ∉ labels)
    (hregistered : state.registered = false → Unhandled labels)
    (hstep : Step codec argv state label state') (h : state'.registered = false) :
    Unhandled (labels ++ [label]) := by
  have hquiet (hlabel : label ≠ .registration true) (h : Unhandled labels) :
      Unhandled (labels ++ [label]) :=
    h.imp (List.mem_append_left _) fun hnot ↦ not_mem_concat hnot hlabel
  cases hstep with
  | signal _ _ => exact .inl (List.mem_append_right _ (List.mem_singleton_self _))
  | registration hphase =>
    obtain rfl := h
    exact .inr (not_mem_concat (hregistering hphase) (by simp))
  | _ => exact hquiet Label.noConfusion (hregistered h)

theorem invariant_run (hrun : (machine codec argv).Run labels state) :
    Invariant argv labels state := by
  apply hrun.invariant fun labels state ↦ Invariant argv labels state
  · rintro _ rfl
    exact ⟨by simp, by simp, by simp [Unhandled], by simp [ReportsIn], ⟨rfl, rfl⟩, trivial, by simp⟩
  · intro labels state label state' hinv hstep
    have hsignalled : state'.signalled = true → .signal ∈ labels ++ [label] := by
      intro h
      cases hstep with
      | signal _ _ => exact List.mem_append_right _ (List.mem_singleton_self _)
      | _ => exact List.mem_append_left _ (hinv.signalled h)
    refine ⟨hsignalled, registering_step hinv.registering hstep,
      registered_step hinv.registering hinv.registered hstep,
      reports_step hinv.signalled hinv.registered hinv.reports hstep, tokens_step hinv.tokens hstep,
      port_step hinv.port hstep, ?_⟩
    rw [List.forall_mem_append]
    exact ⟨hinv.binds, by simpa using binds_step hinv.port hstep⟩

end WindowCaster.Server.Process
