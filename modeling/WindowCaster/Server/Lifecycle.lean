import WindowCaster.Server.Shutdown

/-!
# Starting and stopping `NetworkServer`

Any sequence of `Start` and `Stop`, from the constructor to the destructor. `Start` is the program
of its Winsock calls, and `Stop` a complete run of the two parties, from the point at which `Start`
created the thread. Whether Winsock is started up is recorded nowhere, so the clean-ups match the
start-ups only if every `Stop`, and the destructor as well, finds the server running.
-/

namespace WindowCaster.Server.Lifecycle

open Foundation.Interaction Foundation.Transition Protocol.Readers Win32 Handling

/-! ## `Start` -/

inductive Call
  | wsaStartup
  | socket
  | setsockoptReuseAddr (socket : Socket)
  | bind (socket : Socket) (port : UInt16)
  | listen (socket : Socket)
  | closesocket (socket : Socket)
  | wsaCleanup

/-- Whether the call succeeds, and for `socket` what it returns. -/
abbrev Call.Answer : Call → Type
  | .socket => Socket
  | .wsaStartup | .setsockoptReuseAddr _ | .bind _ _ | .listen _ | .closesocket _
  | .wsaCleanup => Bool

abbrev Winsock : Interface := ⟨Call, Call.Answer⟩

def winsock (call : Call) : Program Winsock call.Answer := .perform (I := Winsock) call

theorem ensures_winsock_bind {call : Call} {α : Type} {after : call.Answer → Program Winsock α}
    {post : List (Event Winsock) → α → Prop} : (winsock call >>= after).Ensures post ↔
      ∀ answer, (after answer).Ensures fun rest ↦ post (⟨call, answer⟩ :: rest) := by
  refine Program.ensures_bind.trans ?_
  exact Program.ensures_perform (I := Winsock)

/-- `joinable` tells whether `listenThread` holds a thread; `application` stands for the objects
behind the message handler. -/
structure NetworkServer where
  port : UInt16
  running : Bool
  serverSocket : Socket
  clientSocket : Socket
  joinable : Bool
  application : WindowCasterServer

namespace NetworkServer

def new (port : UInt16) : NetworkServer := ⟨port, false, none, none, false, .new⟩

def closeServerSocket (server : NetworkServer) : Program Winsock NetworkServer :=
  if server.serverSocket = none then pure server
  else do
    let _ : Bool ← winsock (.closesocket server.serverSocket)
    return { server with serverSocket := none }

def closeClientSocket (server : NetworkServer) : Program Winsock NetworkServer :=
  if server.clientSocket = none then pure server
  else do
    let _ : Bool ← winsock (.closesocket server.clientSocket)
    return { server with clientSocket := none }

def cleanup (server : NetworkServer) : Program Winsock NetworkServer := do
  let server ← server.closeServerSocket
  let server ← server.closeClientSocket
  let _ : Bool ← winsock .wsaCleanup
  return server

def initializeWSA : Program Winsock Bool := winsock .wsaStartup

/-- The failure exit of the steps behind `socket`. -/
def giveUp (server : NetworkServer) : Program Winsock (Bool × NetworkServer) := do
  let server ← server.cleanup
  return (false, server)

def start (server : NetworkServer) : Program Winsock (Bool × NetworkServer) := do
  if server.running then return (true, server)
  let initialized ← initializeWSA
  if !initialized then return (false, server)
  let serverSocket : Socket ← winsock .socket
  let server := { server with serverSocket }
  if serverSocket = none then return (false, server)
  let reused : Bool ← winsock (.setsockoptReuseAddr server.serverSocket)
  if !reused then server.giveUp else
  let bound : Bool ← winsock (.bind server.serverSocket server.port)
  if !bound then server.giveUp else
  let listening : Bool ← winsock (.listen server.serverSocket)
  if !listening then server.giveUp else
  return (true, { server with running := true, joinable := true })

/-! ## `Stop` -/

/-- The state in which `Stop` is called. What the thread has done since it was created is part of
the run of the two parties. -/
def shutdown (server : NetworkServer) : Shutdown.State where
  thread := ⟨server.running, server.serverSocket, server.clientSocket,
    if server.joinable then .outerTest else .returned, [], server.application⟩
  caller := .notCalled
  joinable := server.joinable
  network := ⟨server.serverSocket, [], []⟩

/-- The members when `Stop` has returned. -/
def stopped (server : NetworkServer) (state : Shutdown.State) : NetworkServer where
  port := server.port
  running := state.thread.running
  serverSocket := state.thread.serverSocket
  clientSocket := state.thread.clientSocket
  joinable := state.joinable
  application := state.thread.server

end NetworkServer

/-- A call, with the members before it and, for `Start`, after it. -/
inductive Label
  | start (before : NetworkServer) (trace : List (Event Winsock)) (started : Bool)
      (after : NetworkServer)
  | stop (before : NetworkServer) (labels : List Shutdown.Label)

inductive Step (codec : Codec) : NetworkServer → Label → NetworkServer → Prop
  | start {server server' : NetworkServer} {trace : List (Event Winsock)} {started : Bool}
      (hruns : server.start.Runs trace (started, server')) :
      Step codec server (.start server trace started server') server'
  | stop {server : NetworkServer} {labels : List Shutdown.Label} {state : Shutdown.State}
      (hrun : (Shutdown.machine codec server.shutdown).Run labels state)
      (hreturned : state.caller = .returned) :
      Step codec server (.stop server labels) (server.stopped state)

def machine (codec : Codec) (port : UInt16) : Machine NetworkServer Label where
  start server := server = .new port
  step := Step codec

/-! ## Balance -/

/-- A successful start-up or a clean-up. -/
inductive Wsa
  | startup
  | cleanup
  deriving DecidableEq

def wsaEvent : Event Winsock → Option Wsa
  | ⟨.wsaStartup, true⟩ => some .startup
  | ⟨.wsaCleanup, _⟩ => some .cleanup
  | _ => none

def stopEvent : Shutdown.Label → Option Wsa
  | .wsaCleanup => some .cleanup
  | _ => none

def opened : Event Winsock → Option ℕ
  | ⟨.socket, socket⟩ => socket
  | _ => none

def closed : Event Winsock → Option Socket
  | ⟨.closesocket socket, _⟩ => some socket
  | _ => none

def Label.wsa : Label → List Wsa
  | .start _ trace _ _ => trace.filterMap wsaEvent
  | .stop _ labels => labels.filterMap stopEvent

/-- The number of start-ups that are not cleaned up yet; there is no next number for a clean-up
without a start-up. -/
def settle : ℕ → Wsa → Option ℕ
  | unmatched, .startup => some (unmatched + 1)
  | 0, .cleanup => none
  | unmatched + 1, .cleanup => some unmatched

def settleAll (unmatched : ℕ) (labels : List Label) : Option ℕ :=
  (labels.flatMap Label.wsa).foldlM settle unmatched

/-- A `Start` that fails has cleaned up what it started up, has closed the sockets it opened, and
leaves the members as they were. -/
def FailsCleanly : Label → Prop
  | .start before trace false after =>
    (trace.filterMap wsaEvent).count .startup = (trace.filterMap wsaEvent).count .cleanup ∧
      trace.filterMap closed = (trace.filterMap opened).map some ∧
      after.serverSocket = before.serverSocket ∧ after.clientSocket = before.clientSocket
  | _ => True

/-- Over a whole life, no clean-up comes without its start-up and none is missing at the end. -/
def Balanced (labels : List Label) : Prop :=
  settleAll 0 labels = some 0 ∧ ∀ label ∈ labels, FailsCleanly label

/-- `socket` does not fail, and `Stop` finds the server running. -/
def Orderly : Label → Prop
  | .start _ trace _ _ => ⟨.socket, none⟩ ∉ trace
  | .stop before _ => before.running = true

/-! ## One call -/

/-- Between two calls: a server that runs has a listening socket and a thread, and one that does
not has neither sockets nor a thread. The client socket is the thread's own affair. -/
def Settled (server : NetworkServer) : Prop :=
  server.clientSocket = none ∧
    if server.running then server.joinable = true ∧ server.serverSocket ≠ none
    else server.joinable = false ∧ server.serverSocket = none

/-- The failure exit closes the one socket and cleans up. -/
theorem ensures_giveUp {server : NetworkServer} {serverSocket : ℕ}
    (hserver : server.serverSocket = none) (hclient : server.clientSocket = none) :
    ({ server with serverSocket := some serverSocket } : NetworkServer).giveUp.Ensures
      fun trace result ↦ trace.filterMap wsaEvent = [.cleanup] ∧
        trace.filterMap closed = [some serverSocket] ∧ trace.filterMap opened = [] ∧
        ⟨.socket, none⟩ ∉ trace ∧ result = (false, server) := by
  obtain ⟨port, running, _, _, joinable, application⟩ := server
  obtain rfl := hserver
  obtain rfl := hclient
  have hcalls : (NetworkServer.mk port running (some serverSocket) none joinable application).giveUp =
      (winsock (.closesocket (some serverSocket)) >>= fun _ ↦ winsock .wsaCleanup >>= fun _ ↦
        pure (false, ⟨port, running, none, none, joinable, application⟩)) := rfl
  rw [hcalls, ensures_winsock_bind]
  intro closing
  rw [ensures_winsock_bind]
  intro cleaning
  exact Program.ensures_pure.2 ⟨rfl, rfl, rfl, by simp, rfl⟩

/-- What `Start` may do on a settled server. -/
inductive Outcome (server : NetworkServer) :
    List (Event Winsock) → Bool → NetworkServer → Prop
  | alreadyRunning (hrunning : server.running = true) : Outcome server [] true server
  | failed {trace : List (Event Winsock)} (hrunning : server.running = false)
      (hsocket : ⟨.socket, none⟩ ∉ trace)
      (hwsa : trace.filterMap wsaEvent = [] ∨ trace.filterMap wsaEvent = [.startup, .cleanup])
      (hclosed : trace.filterMap closed = (trace.filterMap opened).map some) :
      Outcome server trace false server
  | noSocket (hrunning : server.running = false) :
      Outcome server [⟨.wsaStartup, true⟩, ⟨.socket, none⟩] false server
  | started {trace : List (Event Winsock)} {serverSocket : ℕ} (hrunning : server.running = false)
      (hsocket : ⟨.socket, none⟩ ∉ trace) (hwsa : trace.filterMap wsaEvent = [.startup]) :
      Outcome server trace true
        { server with running := true, serverSocket := some serverSocket, joinable := true }

theorem ensures_start {server : NetworkServer} (hsettled : Settled server) :
    server.start.Ensures fun trace result ↦ Outcome server trace result.1 result.2 := by
  by_cases hrunning : server.running = true
  · rw [NetworkServer.start, if_pos hrunning]
    exact Program.ensures_pure.2 (.alreadyRunning hrunning)
  rw [NetworkServer.start, if_neg hrunning]
  rw [Bool.not_eq_true] at hrunning
  obtain ⟨hclient, hmembers⟩ := hsettled
  have hserver : server.serverSocket = none := by
    rw [hrunning] at hmembers
    exact hmembers.2
  have hsame : ({ server with serverSocket := none } : NetworkServer) = server := by
    rw [← hserver]
  refine ensures_winsock_bind.2 fun initialized ↦ ?_
  cases initialized with
  | false => exact Program.ensures_pure.2 (.failed hrunning (by simp) (.inl rfl) rfl)
  | true =>
    refine ensures_winsock_bind.2 fun serverSocket ↦ ?_
    cases serverSocket with
    | none =>
      refine Program.ensures_pure.2 ?_
      rw [hsame]
      exact .noSocket hrunning
    | some serverSocket =>
      -- the three steps behind `socket` share their failure exit
      have hgiveUp (before : List (Event Winsock)) (hsocket : ⟨.socket, none⟩ ∉ before)
          (hwsa : before.filterMap wsaEvent = [.startup])
          (hopened : before.filterMap opened = [serverSocket])
          (hclosed : before.filterMap closed = []) :
          ({ server with serverSocket := some serverSocket } : NetworkServer).giveUp.Ensures
            fun rest result ↦ Outcome server (before ++ rest) result.1 result.2 := by
        refine (ensures_giveUp hserver hclient).mono ?_
        rintro rest _ ⟨hwsa', hclosed', hopened', hsocket', rfl⟩
        refine .failed hrunning (by simp [hsocket, hsocket']) (.inr ?_) ?_
        · rw [List.filterMap_append, hwsa, hwsa', List.singleton_append]
        · rw [List.filterMap_append, List.filterMap_append, hopened, hopened', hclosed, hclosed']
          rfl
      refine ensures_winsock_bind.2 fun reused ↦ ?_
      cases reused with
      | false => exact hgiveUp [⟨.wsaStartup, true⟩, ⟨.socket, some serverSocket⟩,
          ⟨.setsockoptReuseAddr (some serverSocket), false⟩] (by simp) rfl rfl rfl
      | true =>
        refine ensures_winsock_bind.2 fun bound ↦ ?_
        cases bound with
        | false => exact hgiveUp [⟨.wsaStartup, true⟩, ⟨.socket, some serverSocket⟩,
            ⟨.setsockoptReuseAddr (some serverSocket), true⟩,
            ⟨.bind (some serverSocket) server.port, false⟩] (by simp) rfl rfl rfl
        | true =>
          refine ensures_winsock_bind.2 fun listening ↦ ?_
          cases listening with
          | false => exact hgiveUp [⟨.wsaStartup, true⟩, ⟨.socket, some serverSocket⟩,
              ⟨.setsockoptReuseAddr (some serverSocket), true⟩,
              ⟨.bind (some serverSocket) server.port, true⟩,
              ⟨.listen (some serverSocket), false⟩] (by simp) rfl rfl rfl
          | true => exact Program.ensures_pure.2 (.started hrunning (by simp) rfl)

theorem stopEvent_step {codec : Codec} {state state' : Shutdown.State} {label : Shutdown.Label}
    (h : Shutdown.Step codec state label state') :
    (stopEvent label = none ∧ (state'.caller = .returned ↔ state.caller = .returned)) ∨
      stopEvent label = some .cleanup ∧ state.caller ≠ .returned ∧ state'.caller = .returned := by
  cases h with
  | thread h hpermits => exact .inl ⟨rfl, Iff.rfl⟩
  | testServer h | testClient h | testJoinable h =>
    refine .inl ⟨rfl, ?_⟩
    dsimp only
    split <;> simp [h]
  | wsaCleanup h => exact .inr ⟨rfl, by simp [h], rfl⟩
  | stop h | loadServer h | closeServer h | resetServer h | loadClient h | closeClient h
  | resetClient h | join h hreturned => exact .inl ⟨rfl, by simp [h]⟩

/-- A call of `Stop` that has returned has cleaned up once. -/
theorem stopEvents_run {codec : Codec} {initial state : Shutdown.State} {labels : List Shutdown.Label}
    (hinitial : initial.caller = .notCalled)
    (hrun : (Shutdown.machine codec initial).Run labels state) :
    labels.filterMap stopEvent = if state.caller = .returned then [.cleanup] else [] := by
  refine hrun.invariant (fun labels state ↦
    labels.filterMap stopEvent = if state.caller = .returned then [.cleanup] else []) ?_ ?_
  · rintro state rfl
    simp [hinitial]
  · intro labels state label state' ih hstep
    rw [List.filterMap_append, ih]
    obtain ⟨hquiet, hcaller⟩ | ⟨hcleanup, hcaller, hreturned⟩ := stopEvent_step hstep
    · simp [hquiet, hcaller]
    · simp [hcleanup, hcaller, hreturned]

theorem invariant_shutdown {server : NetworkServer} (hsettled : Settled server) :
    Shutdown.Invariant server.shutdown where
  point := by
    have hclosed : Shutdown.Network.AllClosed ⟨server.serverSocket, [], []⟩ := by
      simp [Shutdown.Network.AllClosed]
    cases hjoinable : server.joinable with
    | true => simpa [NetworkServer.shutdown, hjoinable] using ⟨hsettled.1, hclosed⟩
    | false => simpa [NetworkServer.shutdown, hjoinable] using ⟨hsettled.1, hclosed⟩
  server := .inl rfl
  caller := rfl
  joinable hjoinable := if_neg (Bool.eq_false_iff.1 hjoinable)
  joined := by simp [NetworkServer.shutdown]

/-- The number of start-ups a settled server owes a clean-up. -/
def unmatched (server : NetworkServer) : ℕ := if server.running then 1 else 0

variable {codec : Codec} {server server' : NetworkServer} {label : Label}

theorem settled_step (hsettled : Settled server) (hstep : Step codec server label server') :
    Settled server' := by
  cases hstep with
  | start hruns =>
    have houtcome := ensures_start hsettled _ _ hruns
    cases houtcome with
    | alreadyRunning | failed | noSocket => exact hsettled
    | started => exact ⟨hsettled.1, rfl, by simp⟩
  | stop hrun hreturned =>
    have hinv := Shutdown.invariant_run (invariant_shutdown hsettled) hrun
    obtain ⟨-, hrunning, hserver, hclient, hjoinable⟩ := hinv.of_returned hreturned
    refine ⟨hclient, ?_⟩
    rw [NetworkServer.stopped, hrunning]
    exact ⟨hjoinable, hserver⟩

/-- An orderly call fails cleanly and keeps the count; any other either does not fail cleanly or
cleans up without a start-up. -/
theorem balance_step (hsettled : Settled server) (hstep : Step codec server label server') :
    (Orderly label ∧ FailsCleanly label ∧
        settleAll (unmatched server) [label] = some (unmatched server')) ∨
      ¬ Orderly label ∧ (¬ FailsCleanly label ∨ settleAll (unmatched server) [label] = none) := by
  cases hstep with
  | start hruns =>
    have houtcome := ensures_start hsettled _ _ hruns
    cases houtcome with
    | alreadyRunning hrunning => exact .inl ⟨List.not_mem_nil, trivial, rfl⟩
    | failed hrunning hsocket hwsa hclosed =>
      refine .inl ⟨hsocket, ⟨?_, hclosed, rfl, rfl⟩, ?_⟩
      · obtain hwsa | hwsa := hwsa <;> rw [hwsa] <;> rfl
      · obtain hwsa | hwsa := hwsa <;> simp [settleAll, Label.wsa, hwsa, settle, unmatched]
    | noSocket hrunning =>
      refine .inr ⟨by simp [Orderly], .inl ?_⟩
      rintro ⟨hcount, -⟩
      exact absurd hcount (by decide)
    | started hrunning hsocket hwsa =>
      refine .inl ⟨hsocket, trivial, ?_⟩
      simp [settleAll, Label.wsa, hwsa, settle, unmatched, hrunning]
  | stop hrun hreturned =>
    have hcleanup := stopEvents_run rfl hrun
    rw [if_pos hreturned] at hcleanup
    have hinv := Shutdown.invariant_run (invariant_shutdown hsettled) hrun
    have hstopped := (hinv.of_returned hreturned).2.1
    cases hrunning : server.running with
    | true =>
      refine .inl ⟨hrunning, trivial, ?_⟩
      simp [settleAll, Label.wsa, hcleanup, settle, unmatched, hrunning, NetworkServer.stopped, hstopped]
    | false =>
      refine .inr ⟨by simp [Orderly, hrunning], .inr ?_⟩
      simp [settleAll, Label.wsa, hcleanup, settle, unmatched, hrunning]

/-! ## A whole life -/

variable {port : UInt16} {labels : List Label}

theorem settleAll_concat (count : ℕ) (labels : List Label) (label : Label) :
    settleAll count (labels ++ [label]) =
      (settleAll count labels).bind fun next ↦ settleAll next [label] := by
  calc
    _ = (labels.flatMap Label.wsa ++ [label].flatMap Label.wsa).foldlM settle count := by
      rw [settleAll, List.flatMap_append]
    _ = _ := List.foldlM_append

/-- As long as all calls are orderly, the books are right; after the first that is not, they are
wrong for good. -/
theorem balance_run (hrun : (machine codec port).Run labels server) :
    Settled server ∧
      ((∀ label ∈ labels, Orderly label) ∧ (∀ label ∈ labels, FailsCleanly label) ∧
          settleAll 0 labels = some (unmatched server) ∨
        ¬ (∀ label ∈ labels, Orderly label) ∧
          (¬ (∀ label ∈ labels, FailsCleanly label) ∨ settleAll 0 labels = none)) := by
  induction hrun with
  | start h =>
    obtain rfl := h
    exact ⟨⟨rfl, rfl, rfl⟩, .inl ⟨by simp, by simp, rfl⟩⟩
  | @next labels server server' label _ hstep ih =>
    obtain ⟨hsettled, hbooks⟩ := ih
    refine ⟨settled_step hsettled hstep, ?_⟩
    simp only [List.forall_mem_append, List.forall_mem_singleton, settleAll_concat]
    obtain ⟨horderly, hfails, hcount⟩ | ⟨horderly, hwrong⟩ := hbooks
    · rw [hcount, Option.bind_some]
      obtain ⟨horderly', hfails', hcount'⟩ | ⟨horderly', hwrong'⟩ := balance_step hsettled hstep
      · exact .inl ⟨⟨horderly, horderly'⟩, ⟨hfails, hfails'⟩, hcount'⟩
      · exact .inr ⟨fun h ↦ horderly' h.2, hwrong'.imp_left fun hfails' h ↦ hfails' h.2⟩
    · refine .inr ⟨fun h ↦ horderly h.1, hwrong.imp (fun hfails h ↦ hfails h.1) fun hcount ↦ ?_⟩
      rw [hcount, Option.bind_none]

theorem running_of_stop {stopping : List Shutdown.Label} (hsettled : Settled server)
    (hstep : Step codec server (.stop server stopping) server') : server'.running = false := by
  cases hstep with
  | stop hrun hreturned =>
    exact ((Shutdown.invariant_run (invariant_shutdown hsettled) hrun).of_returned hreturned).2.1

/-- Over any sequence of `Start` and `Stop`, ended by the destructor: the start-ups and clean-ups of
Winsock balance and every failing `Start` leaves things as they were, if and only if no `Start`
fails at `socket` and every `Stop`, the destructor's included, finds the server running. -/
theorem balanced_iff (codec : Codec) (port : UInt16) (labels : List Label)
    (server destroyed : NetworkServer) (stopping : List Shutdown.Label)
    (hrun : (machine codec port).Run labels server)
    (hdestroy : Step codec server (.stop server stopping) destroyed) :
    Balanced (labels ++ [.stop server stopping]) ↔
      ∀ label ∈ labels ++ [.stop server stopping], Orderly label := by
  have hrunning := running_of_stop (balance_run hrun).1 hdestroy
  obtain ⟨-, ⟨horderly, hfails, hcount⟩ | ⟨horderly, hwrong⟩⟩ := balance_run (hrun.next hdestroy)
  · rw [unmatched, hrunning] at hcount
    exact iff_of_true ⟨hcount, hfails⟩ horderly
  · refine iff_of_false (fun hbalanced ↦ ?_) horderly
    obtain hfails | hcount := hwrong
    · exact hfails hbalanced.2
    · exact absurd (hbalanced.1.symm.trans hcount) (by simp)

/-! ### Two lives -/

/-- The members after a first `Start` that succeeds with socket 0. -/
def listening : NetworkServer := ⟨12345, true, some 0, none, true, .new⟩

def firstStart : List (Event Winsock) :=
  [⟨.wsaStartup, true⟩, ⟨.socket, some 0⟩, ⟨.setsockoptReuseAddr (some 0), true⟩,
    ⟨.bind (some 0) 12345, true⟩, ⟨.listen (some 0), true⟩]

def firstStop : List Shutdown.Label :=
  [.tau, .tau, .tau, .closesocket (some 0), .tau, .tau, .tau, .thread .tau, .join, .wsaCleanup]

theorem step_firstStart :
    Step wire (.new 12345) (.start (.new 12345) firstStart true listening) listening :=
  .start ⟨_, _, rfl, _, _, rfl, _, _, rfl, _, _, rfl, _, _, rfl, rfl, rfl⟩

theorem step_firstStop : Step wire listening (.stop listening firstStop) (.new 12345) := by
  have hrun : (Shutdown.machine wire listening.shutdown).Run firstStop _ :=
    (Machine.Run.start rfl).path (Shutdown.path_beforeClient wire 0)
  exact .stop hrun rfl

/-- A server that is started and then destroyed. -/
theorem balanced_started :
    Balanced [.start (.new 12345) firstStart true listening, .stop listening firstStop] := by
  refine (balanced_iff wire 12345 _ listening (.new 12345) firstStop
    ((Machine.Run.start rfl).next step_firstStart) step_firstStop).2 ?_
  simp [Orderly, firstStart, listening]

/-- What `main` does: `Start`, `Stop`, and then the destructor, which stops once more. -/
theorem not_balanced_main :
    ∃ server destroyed stopping, (machine wire 12345).Run
        [.start (.new 12345) firstStart true listening, .stop listening firstStop] server ∧
      Step wire server (.stop server stopping) destroyed ∧
      ¬ Balanced [.start (.new 12345) firstStart true listening, .stop listening firstStop,
        .stop server stopping] := by
  have hpath : (Shutdown.machine wire (NetworkServer.new 12345).shutdown).Path
      (NetworkServer.new 12345).shutdown [.tau, .tau, .tau, .tau, .wsaCleanup]
      ⟨⟨false, none, none, .returned, [], .new⟩, .returned, false, ⟨none, [], []⟩⟩ :=
    .cons (.stop rfl) <| .cons (.testServer rfl) <| .cons (.testClient rfl) <|
    .cons (.testJoinable rfl) <| .cons (.wsaCleanup rfl) .nil
  refine ⟨.new 12345, _, _, ((Machine.Run.start rfl).next step_firstStart).next step_firstStop,
    .stop ((Machine.Run.start rfl).path hpath) rfl, ?_⟩
  rintro ⟨hcount, -⟩
  exact absurd hcount (by decide)

end WindowCaster.Server.Lifecycle
