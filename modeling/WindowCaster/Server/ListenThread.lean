import WindowCaster.Foundation.Transition
import WindowCaster.Server.Framing
import WindowCaster.Server.Handling

/-!
# `ListenThread`

The thread that accepts clients one after the other, cuts the bytes of a client into messages and
runs the handler on them. A step is one statement, and every read and write of the members that the
thread shares with `Stop` is a step of its own. The calls of the sockets are labels that carry the
outcome, so a run of the thread is a run against any behaviour of the network.
-/

namespace WindowCaster.Server.ListenThread

open Foundation.Interaction Foundation.Transition Foundation.Text
open Protocol.Readers Win32 Sending Handling Framing

/-- Where the thread is. A socket in a point has been read from a member and is about to be used. -/
inductive Point
  /-- `while (running)` -/
  | outerTest
  | loadServerSocket
  | accepting (socket : Socket)
  /-- `if (running)`, for a line on the console, and `continue` -/
  | acceptFailed
  | testExisting (newClient : ℕ)
  | loadExisting (newClient : ℕ)
  | closingExisting (newClient : ℕ) (socket : Socket)
  | assign (newClient : ℕ)
  /-- `while (running && clientSocket != INVALID_SOCKET)`, in two reads -/
  | innerTestRunning
  | innerTestClient
  | loadForRecv
  | receiving (socket : Socket)
  | framing
  | handling (oneProtoMsg : Bytes)
  /-- `SendMessage`, with the test, the prefix and the content -/
  | testForSend (message : Bytes)
  | loadForLength (message : Bytes)
  | sendingLength (message : Bytes) (socket : Socket)
  | loadForContent (message : Bytes)
  | sendingContent (message : Bytes) (socket : Socket)
  /-- behind the inner loop -/
  | loadForClose
  | closing (socket : Socket)
  | reset
  | clear
  | returned
  /-- an iterator past the end was formed: nothing is known about what follows -/
  | undefined
  deriving DecidableEq

/-- The members of `NetworkServer` that the thread uses, its own variables, and the application that
the message handler belongs to. -/
structure State where
  running : Bool
  serverSocket : Socket
  clientSocket : Socket
  point : Point
  pending : Bytes
  server : WindowCasterServer

/-- What can be observed of a step. `recv` ends with data, with an orderly close, which is written
as no data, or with an error. -/
inductive Label
  | tau
  | accept (socket newClient : Socket)
  | recv (socket : Socket) (outcome : Option Bytes)
  | deliver (oneProtoMsg : Bytes)
  | handled (oneProtoMsg : Bytes) (trace : List (Event Os)) (response : Option Bytes)
  | send (socket : Socket) (buffer : Bytes) (length : Int32) (bytesSent : Option ℕ)
  | closesocket (socket : Socket)

namespace State

def goto (state : State) (point : Point) : State := { state with point }

section Projections

variable (state : State) (point : Point)

@[simp] theorem goto_running : (state.goto point).running = state.running := rfl

@[simp] theorem goto_clientSocket : (state.goto point).clientSocket = state.clientSocket := rfl

@[simp] theorem goto_point : (state.goto point).point = point := rfl

@[simp] theorem goto_pending : (state.goto point).pending = state.pending := rfl

end Projections

/-- The state in which `Start` creates the thread. -/
def start (listening : ℕ) : State :=
  ⟨true, some listening, none, .outerTest, [], .new⟩

end State

/-- One statement of the thread. -/
inductive Step (codec : Codec) : State → Label → State → Prop
  | outerTest {state : State} (h : state.point = .outerTest) :
      Step codec state .tau (state.goto (if state.running then .loadServerSocket else .returned))
  | loadServerSocket {state : State} (h : state.point = .loadServerSocket) :
      Step codec state .tau (state.goto (.accepting state.serverSocket))
  | accepted {state : State} {socket : Socket} {newClient : ℕ}
      (h : state.point = .accepting socket) :
      Step codec state (.accept socket (some newClient)) (state.goto (.testExisting newClient))
  | notAccepted {state : State} {socket : Socket} (h : state.point = .accepting socket) :
      Step codec state (.accept socket none) (state.goto .acceptFailed)
  | acceptFailed {state : State} (h : state.point = .acceptFailed) :
      Step codec state .tau (state.goto .outerTest)
  | testExisting {state : State} {newClient : ℕ} (h : state.point = .testExisting newClient) :
      Step codec state .tau (state.goto
        (if state.clientSocket = none then .assign newClient else .loadExisting newClient))
  | loadExisting {state : State} {newClient : ℕ} (h : state.point = .loadExisting newClient) :
      Step codec state .tau (state.goto (.closingExisting newClient state.clientSocket))
  | closeExisting {state : State} {newClient : ℕ} {socket : Socket}
      (h : state.point = .closingExisting newClient socket) :
      Step codec state (.closesocket socket) (state.goto (.assign newClient))
  | assign {state : State} {newClient : ℕ} (h : state.point = .assign newClient) :
      Step codec state .tau { state.goto .innerTestRunning with clientSocket := some newClient }
  | innerTestRunning {state : State} (h : state.point = .innerTestRunning) :
      Step codec state .tau (state.goto
        (if state.running then .innerTestClient else .loadForClose))
  | innerTestClient {state : State} (h : state.point = .innerTestClient) :
      Step codec state .tau (state.goto
        (if state.clientSocket = none then .loadForClose else .loadForRecv))
  | loadForRecv {state : State} (h : state.point = .loadForRecv) :
      Step codec state .tau (state.goto (.receiving state.clientSocket))
  | received {state : State} {socket : Socket} {chunk : Bytes}
      (h : state.point = .receiving socket) (hchunk : IsChunk chunk) :
      Step codec state (.recv socket (some chunk))
        { state.goto .framing with pending := state.pending ++ chunk }
  | disconnected {state : State} {socket : Socket} (h : state.point = .receiving socket) :
      Step codec state (.recv socket (some [])) (state.goto .loadForClose)
  | receiveFailed {state : State} {socket : Socket} (h : state.point = .receiving socket) :
      Step codec state (.recv socket none) (state.goto .loadForClose)
  | needMore {state : State} (h : state.point = .framing)
      (hpass : framingPass state.pending = .needMore) :
      Step codec state .tau (state.goto .innerTestRunning)
  | outOfRange {state : State} (h : state.point = .framing)
      (hpass : framingPass state.pending = .outOfRange) :
      Step codec state .tau (state.goto .undefined)
  | deliver {state : State} {oneProtoMsg rest : Bytes} (h : state.point = .framing)
      (hpass : framingPass state.pending = .message oneProtoMsg rest) :
      Step codec state (.deliver oneProtoMsg)
        { state.goto (.handling oneProtoMsg) with pending := rest }
  | noResponse {state : State} {oneProtoMsg : Bytes} {trace : List (Event Os)}
      {server : WindowCasterServer} (h : state.point = .handling oneProtoMsg)
      (hruns : (state.server.respond codec oneProtoMsg).Runs trace (none, server)) :
      Step codec state (.handled oneProtoMsg trace none) { state.goto .framing with server }
  | response {state : State} {oneProtoMsg responseStr : Bytes} {trace : List (Event Os)}
      {server : WindowCasterServer} (h : state.point = .handling oneProtoMsg)
      (hruns : (state.server.respond codec oneProtoMsg).Runs trace (some responseStr, server)) :
      Step codec state (.handled oneProtoMsg trace (some responseStr))
        { state.goto (.testForSend responseStr) with server }
  | testForSend {state : State} {message : Bytes} (h : state.point = .testForSend message) :
      Step codec state .tau (state.goto
        (if state.clientSocket = none then .framing else .loadForLength message))
  | loadForLength {state : State} {message : Bytes} (h : state.point = .loadForLength message) :
      Step codec state .tau (state.goto (.sendingLength message state.clientSocket))
  | lengthSent {state : State} {message : Bytes} {socket : Socket} {count : ℕ}
      (h : state.point = .sendingLength message socket) :
      Step codec state (.send socket (lenPrefix message) 4 (some count))
        (state.goto (.loadForContent message))
  | lengthFailed {state : State} {message : Bytes} {socket : Socket}
      (h : state.point = .sendingLength message socket) :
      Step codec state (.send socket (lenPrefix message) 4 none) (state.goto .framing)
  | loadForContent {state : State} {message : Bytes} (h : state.point = .loadForContent message) :
      Step codec state .tau (state.goto (.sendingContent message state.clientSocket))
  | contentSent {state : State} {message : Bytes} {socket : Socket} {bytesSent : Option ℕ}
      (h : state.point = .sendingContent message socket) :
      Step codec state (.send socket message (contentLength message) bytesSent)
        (state.goto .framing)
  | loadForClose {state : State} (h : state.point = .loadForClose) :
      Step codec state .tau (state.goto (.closing state.clientSocket))
  | close {state : State} {socket : Socket} (h : state.point = .closing socket) :
      Step codec state (.closesocket socket) (state.goto .reset)
  | reset {state : State} (h : state.point = .reset) :
      Step codec state .tau { state.goto .clear with clientSocket := none }
  | clear {state : State} (h : state.point = .clear) :
      Step codec state .tau { state.goto .outerTest with pending := [] }

/-- The thread alone: nothing else writes to the members it reads. -/
def machine (codec : Codec) (listening : ℕ) : Machine State Label where
  start state := state = .start listening
  step := Step codec

/-! ## The messages that have been handled -/

/-- The runs of the handler, the latest last. -/
def recordHandled (handled : List Handled) : Label → List Handled
  | .handled oneProtoMsg trace response => handled ++ [⟨oneProtoMsg, trace, response⟩]
  | _ => handled

theorem recordHandled_append (first second : List Handled) (label : Label) :
    recordHandled (first ++ second) label = first ++ recordHandled second label := by
  cases label with
  | handled message trace response => exact List.append_assoc _ _ _
  | _ => rfl

def handledOf (labels : List Label) : List Handled := labels.foldl recordHandled []

/-- The state of the server only changes while a message is handled. -/
theorem run_recordHandled {codec : Codec} {state state' : State} {label : Label}
    (hstep : Step codec state label state') {handled : List Handled}
    (hrun : (handlings codec).Run handled state.server) :
    (handlings codec).Run (recordHandled handled label) state'.server := by
  cases hstep with
  | noResponse _ hruns | response _ hruns => exact hrun.next hruns
  | _ => exact hrun

theorem run_handledOf {codec : Codec} {listening : ℕ} {labels : List Label} {state : State}
    (hrun : (machine codec listening).Run labels state) :
    (handlings codec).Run (handledOf labels) state.server := by
  refine hrun.invariant (fun labels state ↦ (handlings codec).Run (handledOf labels) state.server) ?_ ?_
  · rintro _ rfl
    exact .start rfl
  · intro labels state label state' hinv hstep
    rw [handledOf, List.foldl_concat]
    exact run_recordHandled hstep hinv

/-! ## Stretches of a run -/

section Stretches

variable {codec : Codec} (listening newClient : ℕ) (server : WindowCasterServer)

/-- Between two clients. -/
def State.idle : State := ⟨true, some listening, none, .outerTest, [], server⟩

/-- In front of `recv`, with nothing left over. -/
def State.connected : State :=
  ⟨true, some listening, some newClient, .receiving (some newClient), [], server⟩

theorem path_accept : (machine codec listening).Path (.idle listening server)
    [.tau, .tau, .accept (some listening) (some newClient), .tau, .tau, .tau, .tau, .tau]
    (.connected listening newClient server) :=
  .cons (.outerTest rfl) <| .cons (.loadServerSocket rfl) <| .cons (.accepted rfl) <|
  .cons (.testExisting rfl) <| .cons (.assign rfl) <| .cons (.innerTestRunning rfl) <|
  .cons (.innerTestClient rfl) <| .cons (.loadForRecv rfl) .nil

variable {listening newClient server}

/-- A message is handled, and both sends of its response succeed. -/
theorem path_answer {state : State} {message response : Bytes} {socket : ℕ} {trace : List (Event Os)}
    (hpoint : state.point = .handling message) (hsocket : state.clientSocket = some socket)
    (hruns : (state.server.respond codec message).Runs trace (some response, server)) :
    (machine codec listening).Path state
      [.handled message trace (some response), .tau, .tau,
        .send (some socket) (lenPrefix response) 4 (some 4), .tau,
        .send (some socket) response (contentLength response) (some response.length)]
      { state.goto .framing with server } := by
  obtain ⟨running, serverSocket, _, _, pending, before⟩ := state
  obtain rfl := hpoint
  obtain rfl := hsocket
  exact .cons (.response rfl hruns) <| .cons (.testForSend rfl) <| .cons (.loadForLength rfl) <|
    .cons (.lengthSent rfl) <| .cons (.loadForContent rfl) <| .cons (.contentSent rfl) .nil

theorem path_disconnected {pending : Bytes} : (machine codec listening).Path
    { State.connected listening newClient server with pending }
    [.recv (some newClient) (some []), .tau, .closesocket (some newClient), .tau, .tau]
    (.idle listening server) :=
  .cons (.disconnected rfl) <| .cons (.loadForClose rfl) <| .cons (.close rfl) <|
  .cons (.reset rfl) <| .cons (.clear rfl) .nil

/-- Nothing of the bytes is left to be framed. -/
theorem path_needMore {pending : Bytes} (hpass : framingPass pending = .needMore) :
    (machine codec listening).Path
      ⟨true, some listening, some newClient, .framing, pending, server⟩ [.tau, .tau, .tau, .tau]
      { State.connected listening newClient server with pending } :=
  .cons (.needMore rfl hpass) <| .cons (.innerTestRunning rfl) <| .cons (.innerTestClient rfl) <|
  .cons (.loadForRecv rfl) .nil

/-- The client sends the frame of one message at once, and reads the response. -/
theorem path_exchange {chunk message response : Bytes} {trace : List (Event Os)}
    {server' : WindowCasterServer} (hchunk : IsChunk chunk)
    (hpass : framingPass chunk = .message message [])
    (hruns : (server.respond codec message).Runs trace (some response, server')) :
    (machine codec listening).Path (.connected listening newClient server)
      ([.recv (some newClient) (some chunk), .deliver message] ++
        [.handled message trace (some response), .tau, .tau,
          .send (some newClient) (lenPrefix response) 4 (some 4), .tau,
          .send (some newClient) response (contentLength response) (some response.length)] ++
        [.tau, .tau, .tau, .tau])
      (.connected listening newClient server') := by
  have hnothing : framingPass [] = .needMore := by decide
  have hdelivered : (machine codec listening).Path (.connected listening newClient server)
      [.recv (some newClient) (some chunk), .deliver message]
      ⟨true, some listening, some newClient, .handling message, [], server⟩ :=
    .cons (.received rfl hchunk) <| .cons (.deliver rfl hpass) .nil
  exact (hdelivered.append (path_answer rfl rfl hruns)).append (path_needMore hnothing)

end Stretches

end WindowCaster.Server.ListenThread
