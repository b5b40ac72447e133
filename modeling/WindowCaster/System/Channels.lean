import WindowCaster.Client.Session
import WindowCaster.Server.Isolation

/-!
# One client and the server

The client's program and the listening thread run side by side, joined by two channels of bounded
capacity. Writing and reading a channel happens in pieces of any size that there is room for, so a
call of either side may take many steps. A call of `send` returns when all its bytes are on the
channel, as it does on a blocking socket, and sockets fail only after the client has closed its end.
-/

namespace WindowCaster.System.Channels

open Foundation.Interaction Foundation.Transition Foundation.Text Protocol.Readers
open Client.Network Server Server.Win32 Server.Sending Server.Handling Server.Isolation
open Server.ListenThread (Point recordHandled)

/-- The sockets and the capacities of the channels from and to the client. -/
structure Setup where
  listening : ℕ
  socket : ℕ
  upCapacity : ℕ
  downCapacity : ℕ
  upCapacity_pos : 0 < upCapacity
  downCapacity_pos : 0 < downCapacity

/-- `moved` holds the bytes of the client's current call that have already been written or read,
`queued` those of the server's current call of `send`. -/
structure State (α : Type) where
  client : Program Tcp α
  moved : Bytes
  clientOpen : Bool
  up : Bytes
  down : Bytes
  queued : Bytes
  accepted : Bool
  thread : ListenThread.State

inductive Label
  | write (chunk : Bytes)
  | read (chunk : Bytes)
  | returned (event : Event Tcp)
  | close
  | queue (chunk : Bytes)
  | thread (label : ListenThread.Label)

/-- The socket and the bytes of the call of `send` that the thread is in. -/
def sending : Point → Option (Socket × Bytes)
  | .sendingLength message socket => some (socket, lenPrefix message)
  | .sendingContent message socket => some (socket, message)
  | _ => none

/-- The steps of the thread that do not touch a channel. The system answers the calls of a handler
as it is documented to. -/
def Internal : ListenThread.Label → Prop
  | .tau | .deliver _ | .closesocket _ => True
  | .handled _ trace _ => ∀ event ∈ trace, Documented event
  | .accept _ _ | .recv _ _ | .send _ _ _ _ => False

variable {α : Type}

inductive Step (codec : Codec) (setup : Setup) : State α → Label → State α → Prop
  | write {state : State α} {bytes chunk : Bytes} {next : Bool → Program Tcp α}
      (h : state.client = .ask (.writeAll bytes) next) (hchunk : chunk ≠ [])
      (hpart : state.moved ++ chunk <+: bytes)
      (hroom : state.up.length + chunk.length ≤ setup.upCapacity) :
      Step codec setup state (.write chunk)
        { state with moved := state.moved ++ chunk, up := state.up ++ chunk }
  | written {state : State α} {next : Bool → Program Tcp α}
      (h : state.client = .ask (.writeAll state.moved) next) :
      Step codec setup state (.returned ⟨.writeAll state.moved, true⟩)
        { state with client := next true, moved := [] }
  | read {state : State α} {length : ℕ} {chunk rest : Bytes}
      {next : Option { bytes : Bytes // bytes.length = length } → Program Tcp α}
      (h : state.client = .ask (.readExact length) next) (hchunk : chunk ≠ [])
      (hdown : state.down = chunk ++ rest) (hpart : state.moved.length + chunk.length ≤ length) :
      Step codec setup state (.read chunk)
        { state with moved := state.moved ++ chunk, down := rest }
  | readDone {state : State α} {length : ℕ}
      {next : Option { bytes : Bytes // bytes.length = length } → Program Tcp α}
      (h : state.client = .ask (.readExact length) next) (hall : state.moved.length = length) :
      Step codec setup state (.returned ⟨.readExact length, some ⟨state.moved, hall⟩⟩)
        { state with client := next (some ⟨state.moved, hall⟩), moved := [] }
  | close {state : State α} {result : α} (h : state.client = .done result)
      (hopen : state.clientOpen = true) :
      Step codec setup state .close { state with clientOpen := false }
  | accept {state : State α} {thread : ListenThread.State} (hnew : state.accepted = false)
      (hthread : ListenThread.Step codec state.thread
        (.accept (some setup.listening) (some setup.socket)) thread) :
      Step codec setup state (.thread (.accept (some setup.listening) (some setup.socket)))
        { state with thread, accepted := true }
  | recv {state : State α} {chunk rest : Bytes} {thread : ListenThread.State}
      (hchunk : chunk ≠ []) (hup : state.up = chunk ++ rest)
      (hthread : ListenThread.Step codec state.thread
        (.recv (some setup.socket) (some chunk)) thread) :
      Step codec setup state (.thread (.recv (some setup.socket) (some chunk)))
        { state with thread, up := rest }
  | recvEnd {state : State α} {thread : ListenThread.State} (hclosed : state.clientOpen = false)
      (hup : state.up = [])
      (hthread : ListenThread.Step codec state.thread
        (.recv (some setup.socket) (some [])) thread) :
      Step codec setup state (.thread (.recv (some setup.socket) (some []))) { state with thread }
  | recvError {state : State α} {thread : ListenThread.State} (hclosed : state.clientOpen = false)
      (hthread : ListenThread.Step codec state.thread (.recv (some setup.socket) none) thread) :
      Step codec setup state (.thread (.recv (some setup.socket) none)) { state with thread }
  | queue {state : State α} {buffer chunk : Bytes}
      (h : sending state.thread.point = some (some setup.socket, buffer)) (hchunk : chunk ≠ [])
      (hpart : state.queued ++ chunk <+: buffer)
      (hroom : state.down.length + chunk.length ≤ setup.downCapacity) :
      Step codec setup state (.queue chunk)
        { state with queued := state.queued ++ chunk, down := state.down ++ chunk }
  | sent {state : State α} {length : Int32} {thread : ListenThread.State}
      (hthread : ListenThread.Step codec state.thread
        (.send (some setup.socket) state.queued length (some state.queued.length)) thread) :
      Step codec setup state
        (.thread (.send (some setup.socket) state.queued length (some state.queued.length)))
        { state with thread, queued := [] }
  | sentAfterClose {state : State α} {buffer : Bytes} {length : Int32} {bytesSent : Option ℕ}
      {thread : ListenThread.State} (hclosed : state.clientOpen = false)
      (hthread : ListenThread.Step codec state.thread
        (.send (some setup.socket) buffer length bytesSent) thread) :
      Step codec setup state (.thread (.send (some setup.socket) buffer length bytesSent))
        { state with thread, queued := [] }
  | internal {state : State α} {label : ListenThread.Label} {thread : ListenThread.State}
      (hthread : ListenThread.Step codec state.thread label thread) (hinternal : Internal label) :
      Step codec setup state (.thread label) { state with thread }

def start (setup : Setup) (client : Program Tcp α) : State α :=
  ⟨client, [], true, [], [], [], false, .start setup.listening⟩

def machine (codec : Codec) (setup : Setup) (client : Program Tcp α) : Machine (State α) Label where
  start state := state = start setup client
  step := Step codec setup

/-! ## What a run has done -/

/-- What can be read off the labels of a run. `awaiting` says that the client has read the length of
an answer and not yet its content, `received` lists the answers it has read. -/
structure Log where
  sent : Bytes
  read : Bytes
  awaiting : Bool
  received : List Bytes
  output : Bytes
  connections : List Connection
  handled : List Handled

namespace Log

def empty : Log := ⟨[], [], false, [], [], [], []⟩

/-- `receive_message` reads twice: the first time a length, the second time a message. -/
def noteReturned (log : Log) : Event Tcp → Log
  | ⟨.readExact _, some bytes⟩ =>
    { log with
      awaiting := !log.awaiting
      received := if log.awaiting then log.received ++ [bytes.val] else log.received }
  | _ => log

def note (log : Log) : Label → Log
  | .write chunk => { log with sent := log.sent ++ chunk }
  | .read chunk => { log with read := log.read ++ chunk }
  | .returned event => log.noteReturned event
  | .close => log
  | .queue chunk => { log with output := log.output ++ chunk }
  | .thread label =>
    { log with
      connections := record log.connections label
      handled := recordHandled log.handled label }

variable (log : Log)

/-- The bytes that the thread has received. -/
def taken : Bytes := log.connections.flatMap Connection.stream

/-- The messages that have gone to the handler. -/
def delivered : List Bytes := log.connections.flatMap Connection.delivered

/-- The responses of the handler. -/
def answers : List Bytes := log.handled.filterMap Handled.response

end Log

def log (labels : List Label) : Log := labels.foldl .note .empty

@[simp]
theorem log_concat (labels : List Label) (label : Label) :
    log (labels ++ [label]) = (log labels).note label := by
  simp [log]

end WindowCaster.System.Channels
