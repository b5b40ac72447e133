import WindowCaster.Server.ListenThread

/-!
# `Stop` while the listening thread runs

The caller of `Stop` and the listening thread share `running`, `serverSocket` and `clientSocket`
without a lock; every read and every write is a step of its own. A call on a socket that has been
closed fails, also when it was waiting already. The invariant says of every pair of points which
sockets can still be open.
-/

namespace WindowCaster.Server.Shutdown

open Foundation.Interaction Foundation.Transition Protocol.Readers Win32

/-- The sockets that were handed out, and those that were passed to `closesocket`. -/
structure Network where
  listening : Socket
  accepted : List ℕ
  closed : List ℕ
  deriving DecidableEq

namespace Network

variable (network : Network)

def Open (socket : ℕ) : Prop :=
  (some socket = network.listening ∨ socket ∈ network.accepted) ∧ socket ∉ network.closed

def close : Socket → Network
  | none => network
  | some socket => { network with closed := socket :: network.closed }

/-- The thread's calls: `accept`, `recv` and `send` succeed on open sockets only, and a socket that
`accept` returns has not been used before. -/
def Permits : ListenThread.Label → Prop
  | .accept socket (some newClient) =>
    (∃ listening, socket = some listening ∧ network.Open listening) ∧
      some newClient ≠ network.listening ∧ newClient ∉ network.accepted ∧
      newClient ∉ network.closed
  | .recv socket (some _) | .send socket _ _ (some _) =>
    ∃ client, socket = some client ∧ network.Open client
  | _ => True

def note : ListenThread.Label → Network
  | .accept _ (some newClient) => { network with accepted := newClient :: network.accepted }
  | .closesocket socket => network.close socket
  | _ => network

end Network

/-- Where the caller of `Stop` is. -/
inductive Caller
  | notCalled
  | testServer
  | loadServer
  | closingServer (socket : Socket)
  | resetServer
  | testClient
  | loadClient
  | closingClient (socket : Socket)
  | resetClient
  /-- `if (listenThread.joinable())` -/
  | testJoinable
  | joining
  | cleaningUp
  | returned
  deriving DecidableEq

/-- The members are kept with the thread, which reads them all. -/
structure State where
  thread : ListenThread.State
  caller : Caller
  joinable : Bool
  network : Network

inductive Label
  | thread (label : ListenThread.Label)
  | tau
  | closesocket (socket : Socket)
  | join
  | wsaCleanup

/-- The state after a successful `Start`. -/
def State.started (listening : ℕ) : State :=
  ⟨.start listening, .notCalled, true, ⟨some listening, [], []⟩⟩

/-- One statement of either party. -/
inductive Step (codec : Codec) : State → Label → State → Prop
  | thread {state : State} {label : ListenThread.Label} {thread : ListenThread.State}
      (h : ListenThread.Step codec state.thread label thread)
      (hpermits : state.network.Permits label) :
      Step codec state (.thread label)
        { state with thread, network := state.network.note label }
  | stop {state : State} (h : state.caller = .notCalled) :
      Step codec state .tau
        { state with caller := .testServer, thread := { state.thread with running := false } }
  | testServer {state : State} (h : state.caller = .testServer) :
      Step codec state .tau { state with
        caller := if state.thread.serverSocket = none then .testClient else .loadServer }
  | loadServer {state : State} (h : state.caller = .loadServer) :
      Step codec state .tau { state with caller := .closingServer state.thread.serverSocket }
  | closeServer {state : State} {socket : Socket} (h : state.caller = .closingServer socket) :
      Step codec state (.closesocket socket)
        { state with caller := .resetServer, network := state.network.close socket }
  | resetServer {state : State} (h : state.caller = .resetServer) :
      Step codec state .tau
        { state with caller := .testClient, thread := { state.thread with serverSocket := none } }
  | testClient {state : State} (h : state.caller = .testClient) :
      Step codec state .tau { state with
        caller := if state.thread.clientSocket = none then .testJoinable else .loadClient }
  | loadClient {state : State} (h : state.caller = .loadClient) :
      Step codec state .tau { state with caller := .closingClient state.thread.clientSocket }
  | closeClient {state : State} {socket : Socket} (h : state.caller = .closingClient socket) :
      Step codec state (.closesocket socket)
        { state with caller := .resetClient, network := state.network.close socket }
  | resetClient {state : State} (h : state.caller = .resetClient) :
      Step codec state .tau
        { state with caller := .testJoinable, thread := { state.thread with clientSocket := none } }
  | testJoinable {state : State} (h : state.caller = .testJoinable) :
      Step codec state .tau
        { state with caller := if state.joinable then .joining else .cleaningUp }
  | join {state : State} (h : state.caller = .joining) (hreturned : state.thread.point = .returned) :
      Step codec state .join { state with caller := .cleaningUp, joinable := false }
  | wsaCleanup {state : State} (h : state.caller = .cleaningUp) :
      Step codec state .wsaCleanup { state with caller := .returned }

/-- One call of `Stop`, from a given state on. -/
def machine (codec : Codec) (initial : State) : Machine State Label where
  start state := state = initial
  step := Step codec

/-! ## What the thread still holds -/

namespace Network

variable (network : Network)

def AllClosed : Prop := ∀ socket ∈ network.accepted, socket ∈ network.closed

def AllClosedBut (client : ℕ) : Prop :=
  ∀ socket ∈ network.accepted, socket ≠ client → socket ∈ network.closed

/-- The thread serves this client. `clientSocket` names it until `Stop` resets the member, which
it does only after it has closed the socket. -/
structure Serves (clientSocket : Socket) (client : ℕ) : Prop where
  accepted : client ∈ network.accepted
  others : network.AllClosedBut client
  member : clientSocket = some client ∨ clientSocket = none ∧ client ∈ network.closed

/-- A socket that the thread has read from `clientSocket`. -/
def Loaded (client : ℕ) (socket : Socket) : Prop :=
  socket = some client ∨ socket = none ∧ client ∈ network.closed

end Network

/-- The sockets that can be open while the thread is at a point. -/
def AtPoint (network : Network) (clientSocket : Socket) : ListenThread.Point → Prop
  | .outerTest | .loadServerSocket | .acceptFailed | .clear | .returned =>
    clientSocket = none ∧ network.AllClosed
  | .accepting socket =>
    clientSocket = none ∧ network.AllClosed ∧ (socket = network.listening ∨ socket = none)
  | .testExisting newClient | .assign newClient =>
    clientSocket = none ∧ newClient ∈ network.accepted ∧ network.AllClosedBut newClient
  | .loadExisting _ | .closingExisting _ _ => False
  | .innerTestRunning | .innerTestClient | .loadForRecv | .framing | .handling _ | .testForSend _
  | .loadForLength _ | .loadForContent _ | .loadForClose | .undefined =>
    ∃ client, network.Serves clientSocket client
  | .receiving socket | .sendingLength _ socket | .sendingContent _ socket | .closing socket =>
    ∃ client, network.Serves clientSocket client ∧ network.Loaded client socket
  | .reset => network.AllClosed

/-- Past the test of `running` in the inner loop: the thread will use its client again. -/
def Deep : ListenThread.Point → Prop
  | .innerTestClient | .loadForRecv | .receiving _ | .framing | .handling _ | .testForSend _
  | .loadForLength _ | .sendingLength _ _ | .loadForContent _ | .sendingContent _ _
  | .undefined => True
  | _ => False

/-- From here the thread accepts no further client once `running` is false. -/
def Committed : ListenThread.Point → Prop
  | .loadServerSocket | .accepting _ | .testExisting _ | .loadExisting _ | .closingExisting _ _
  | .assign _ => False
  | _ => True

/-- The socket that the call waits for. -/
def blockedOn : ListenThread.Point → Socket
  | .accepting socket | .receiving socket | .sendingLength _ socket | .sendingContent _ socket => socket
  | _ => none

namespace Network

variable {network : Network} {clientSocket : Socket} {client : ℕ}

theorem AllClosedBut.allClosed (h : network.AllClosedBut client) (hclient : client ∈ network.closed) :
    network.AllClosed := by
  intro socket hsocket
  by_cases heq : socket = client
  · rwa [heq]
  · exact h socket hsocket heq

theorem Serves.loaded (h : network.Serves clientSocket client) :
    network.Loaded client clientSocket := h.member

theorem Serves.allClosed_of_none (h : network.Serves none client) : network.AllClosed := by
  obtain hmember | ⟨-, hclosed⟩ := h.member
  · exact absurd hmember (by simp)
  · exact h.others.allClosed hclosed

/-! ### Closing a socket -/

@[simp]
theorem close_accepted (socket : Socket) : (network.close socket).accepted = network.accepted := by
  cases socket <;> rfl

@[simp]
theorem close_listening (socket : Socket) : (network.close socket).listening = network.listening := by
  cases socket <;> rfl

theorem mem_close {socket : ℕ} (closing : Socket) (h : socket ∈ network.closed) :
    socket ∈ (network.close closing).closed := by
  cases closing with
  | none => exact h
  | some closing => exact List.mem_cons_of_mem closing h

theorem mem_close_self (socket : ℕ) : socket ∈ (network.close (some socket)).closed :=
  List.mem_cons_self

theorem AllClosed.close (h : network.AllClosed) (socket : Socket) : (network.close socket).AllClosed := by
  intro other hother
  rw [close_accepted] at hother
  exact mem_close socket (h other hother)

theorem AllClosedBut.close (h : network.AllClosedBut client) (socket : Socket) :
    (network.close socket).AllClosedBut client := by
  intro other hother hne
  rw [close_accepted] at hother
  exact mem_close socket (h other hother hne)

theorem Loaded.close {held : Socket} (h : network.Loaded client held) (socket : Socket) :
    (network.close socket).Loaded client held :=
  h.imp_right fun ⟨hnone, hclosed⟩ ↦ ⟨hnone, mem_close socket hclosed⟩

theorem Serves.close (h : network.Serves clientSocket client) (socket : Socket) :
    (network.close socket).Serves clientSocket client where
  accepted := by rw [close_accepted]; exact h.accepted
  others := h.others.close socket
  member := Loaded.close h.member socket

/-- Closing what was loaded closes the client. -/
theorem Serves.allClosed_close {socket : Socket} (h : network.Serves clientSocket client)
    (hloaded : network.Loaded client socket) : (network.close socket).AllClosed := by
  apply (h.others.close socket).allClosed
  obtain rfl | ⟨-, hclosed⟩ := hloaded
  · exact mem_close_self client
  · exact mem_close socket hclosed

end Network

/-! ## Steps of the thread -/

variable {codec : Codec} {network : Network} {state state' : ListenThread.State}
  {label : ListenThread.Label}

/-- The thread writes neither of the two members. -/
theorem members_of_step (h : ListenThread.Step codec state label state') :
    state'.running = state.running ∧ state'.serverSocket = state.serverSocket := by
  cases h <;> exact ⟨rfl, rfl⟩

theorem atPoint_step (hpoint : AtPoint network state.clientSocket state.point)
    (hserver : state.serverSocket = network.listening ∨ state.serverSocket = none)
    (hpermits : network.Permits label) (h : ListenThread.Step codec state label state') :
    AtPoint (network.note label) state'.clientSocket state'.point := by
  cases h with
  | outerTest h =>
    rw [h] at hpoint
    rw [ListenThread.State.goto_point]
    split <;> exact hpoint
  | loadServerSocket h =>
    rw [h] at hpoint
    exact ⟨hpoint.1, hpoint.2, hserver⟩
  | accepted h =>
    rw [h] at hpoint
    refine ⟨hpoint.1, List.mem_cons_self, ?_⟩
    intro socket hsocket hne
    exact hpoint.2.1 socket ((List.mem_cons.1 hsocket).resolve_left hne)
  | notAccepted h =>
    rw [h] at hpoint
    exact ⟨hpoint.1, hpoint.2.1⟩
  | acceptFailed h =>
    rw [h] at hpoint
    exact hpoint
  | testExisting h =>
    rw [h] at hpoint
    rw [if_pos hpoint.1]
    exact hpoint
  | loadExisting h | closeExisting h =>
    rw [h] at hpoint
    exact hpoint.elim
  | assign h =>
    rw [h] at hpoint
    exact ⟨_, hpoint.2.1, hpoint.2.2, .inl rfl⟩
  | innerTestRunning h | innerTestClient h | testForSend h =>
    rw [h] at hpoint
    rw [ListenThread.State.goto_point]
    split <;> exact hpoint
  | loadForRecv h | loadForLength h | loadForContent h | loadForClose h =>
    rw [h] at hpoint
    obtain ⟨client, hserves⟩ := hpoint
    exact ⟨client, hserves, hserves.loaded⟩
  | received h hchunk | disconnected h | receiveFailed h | lengthSent h | lengthFailed h
  | contentSent h =>
    rw [h] at hpoint
    obtain ⟨client, hserves, -⟩ := hpoint
    exact ⟨client, hserves⟩
  | needMore h hpass | outOfRange h hpass | deliver h hpass | noResponse h hruns
  | response h hruns =>
    rw [h] at hpoint
    exact hpoint
  | close h =>
    rw [h] at hpoint
    obtain ⟨client, hserves, hloaded⟩ := hpoint
    exact hserves.allClosed_close hloaded
  | reset h =>
    rw [h] at hpoint
    exact ⟨rfl, hpoint⟩
  | clear h =>
    rw [h] at hpoint
    exact hpoint

theorem committed_step (hrunning : state.running = false) (hcommitted : Committed state.point)
    (h : ListenThread.Step codec state label state') : Committed state'.point := by
  cases h with
  | outerTest h =>
    rw [hrunning]
    exact trivial
  | loadServerSocket h | accepted h | notAccepted h | testExisting h | loadExisting h
  | closeExisting h | assign h =>
    rw [h] at hcommitted
    exact hcommitted.elim
  | innerTestRunning h | innerTestClient h | testForSend h =>
    rw [ListenThread.State.goto_point]
    split <;> exact trivial
  | _ => exact trivial

/-- Once `running` is false, the thread does not pass its test any more. -/
theorem deep_of_step (hrunning : state.running = false) (hdeep : Deep state'.point)
    (h : ListenThread.Step codec state label state') : Deep state.point := by
  cases h with
  | outerTest h | innerTestRunning h =>
    rw [hrunning] at hdeep
    exact hdeep.elim
  | testExisting h =>
    rw [ListenThread.State.goto_point] at hdeep
    split at hdeep <;> exact hdeep.elim
  | innerTestClient h | loadForRecv h | received h | disconnected h | receiveFailed h | needMore h
  | outOfRange h | deliver h | noResponse h | response h | testForSend h | loadForLength h
  | lengthSent h | lengthFailed h | loadForContent h | contentSent h =>
    rw [h]
    exact trivial
  | _ => exact hdeep.elim

theorem committed_of_deep {point : ListenThread.Point} (h : Deep point) : Committed point := by
  cases point <;> first | exact trivial | exact h.elim

namespace Network

@[simp]
theorem note_listening (label : ListenThread.Label) : (network.note label).listening = network.listening := by
  unfold note
  split
  · rfl
  · exact close_listening _
  · rfl

theorem mem_note {socket : ℕ} (label : ListenThread.Label) (h : socket ∈ network.closed) :
    socket ∈ (network.note label).closed := by
  unfold note
  split
  · exact h
  · exact mem_close _ h
  · exact h

/-- Only `accept` hands out sockets, and the thread is not there. -/
theorem note_accepted (hcommitted : Committed state.point)
    (h : ListenThread.Step codec state label state') :
    (network.note label).accepted = network.accepted := by
  cases h with
  | accepted h =>
    rw [h] at hcommitted
    exact hcommitted.elim
  | closeExisting h | close h => exact close_accepted _
  | _ => rfl

theorem AllClosed.note (hall : network.AllClosed) (hcommitted : Committed state.point)
    (h : ListenThread.Step codec state label state') : (network.note label).AllClosed := by
  intro socket hsocket
  rw [note_accepted hcommitted h] at hsocket
  exact mem_note label (hall socket hsocket)

end Network

/-! ## The invariant -/

namespace Network

def ServerClosed (network : Network) : Prop :=
  ∀ listening, network.listening = some listening → listening ∈ network.closed

theorem ServerClosed.close (h : network.ServerClosed) (socket : Socket) :
    (network.close socket).ServerClosed := by
  intro listening hlistening
  rw [close_listening] at hlistening
  exact mem_close socket (h listening hlistening)

theorem ServerClosed.note (h : network.ServerClosed) (label : ListenThread.Label) :
    (network.note label).ServerClosed := by
  intro listening hlistening
  rw [note_listening] at hlistening
  exact mem_note label (h listening hlistening)

end Network

/-- How far `Stop` has come, and what the thread cannot do any more. -/
def AtCaller (network : Network) (thread : ListenThread.State) : Caller → Prop
  | .notCalled => thread.serverSocket = network.listening
  | .testServer | .loadServer =>
    thread.running = false ∧ thread.serverSocket = network.listening
  | .closingServer socket =>
    thread.running = false ∧ thread.serverSocket = network.listening ∧ socket = network.listening
  | .resetServer => thread.running = false ∧ network.ServerClosed
  | .testClient =>
    thread.running = false ∧ network.ServerClosed ∧ thread.serverSocket = none
  | .loadClient =>
    thread.running = false ∧ network.ServerClosed ∧ thread.serverSocket = none ∧
      Committed thread.point
  | .closingClient socket =>
    thread.running = false ∧ network.ServerClosed ∧ thread.serverSocket = none ∧
      Committed thread.point ∧
      ∀ client ∈ network.accepted, client ∈ network.closed ∨ socket = some client
  | .resetClient =>
    thread.running = false ∧ network.ServerClosed ∧ thread.serverSocket = none ∧
      Committed thread.point ∧ network.AllClosed
  | .testJoinable | .joining =>
    thread.running = false ∧ network.ServerClosed ∧ thread.serverSocket = none ∧
      (Deep thread.point → network.AllClosed)
  | .cleaningUp | .returned =>
    thread.running = false ∧ network.ServerClosed ∧ thread.serverSocket = none ∧
      thread.point = .returned

structure Invariant (state : State) : Prop where
  point : AtPoint state.network state.thread.clientSocket state.thread.point
  server : state.thread.serverSocket = state.network.listening ∨ state.thread.serverSocket = none
  caller : AtCaller state.network state.thread state.caller
  joinable : state.joinable = false → state.thread.point = .returned
  joined : state.caller = .cleaningUp ∨ state.caller = .returned → state.joinable = false

/-- A thread that has returned takes no step. -/
theorem not_step_returned (h : ListenThread.Step codec state label state') :
    state.point ≠ .returned := by
  intro hreturned
  cases h <;> simp_all

theorem atCaller_thread {caller : Caller} (hcaller : AtCaller network state caller)
    (h : ListenThread.Step codec state label state') :
    AtCaller (network.note label) state' caller := by
  obtain ⟨hrunning, hserver⟩ := members_of_step h
  cases caller with
  | notCalled => exact (hserver.trans hcaller).trans (Network.note_listening label).symm
  | testServer | loadServer =>
    obtain ⟨hstopped, hlistening⟩ := hcaller
    exact ⟨hrunning.trans hstopped, (hserver.trans hlistening).trans (Network.note_listening label).symm⟩
  | closingServer socket =>
    obtain ⟨hstopped, hlistening, hsocket⟩ := hcaller
    exact ⟨hrunning.trans hstopped, (hserver.trans hlistening).trans (Network.note_listening label).symm,
      hsocket.trans (Network.note_listening label).symm⟩
  | resetServer =>
    obtain ⟨hstopped, hclosed⟩ := hcaller
    exact ⟨hrunning.trans hstopped, hclosed.note label⟩
  | testClient =>
    obtain ⟨hstopped, hclosed, hnone⟩ := hcaller
    exact ⟨hrunning.trans hstopped, hclosed.note label, hserver.trans hnone⟩
  | loadClient =>
    obtain ⟨hstopped, hclosed, hnone, hcommitted⟩ := hcaller
    exact ⟨hrunning.trans hstopped, hclosed.note label, hserver.trans hnone,
      committed_step hstopped hcommitted h⟩
  | closingClient socket =>
    obtain ⟨hstopped, hclosed, hnone, hcommitted, hclients⟩ := hcaller
    refine ⟨hrunning.trans hstopped, hclosed.note label, hserver.trans hnone,
      committed_step hstopped hcommitted h, ?_⟩
    intro client hclient
    rw [Network.note_accepted hcommitted h] at hclient
    exact (hclients client hclient).imp_left (Network.mem_note label)
  | resetClient =>
    obtain ⟨hstopped, hclosed, hnone, hcommitted, hall⟩ := hcaller
    exact ⟨hrunning.trans hstopped, hclosed.note label, hserver.trans hnone,
      committed_step hstopped hcommitted h, hall.note hcommitted h⟩
  | testJoinable | joining =>
    obtain ⟨hstopped, hclosed, hnone, hdeep⟩ := hcaller
    refine ⟨hrunning.trans hstopped, hclosed.note label, hserver.trans hnone, fun hdeep' ↦ ?_⟩
    have hpoint : Deep state.point := deep_of_step hstopped hdeep' h
    exact (hdeep hpoint).note (committed_of_deep hpoint) h
  | cleaningUp | returned => exact absurd hcaller.2.2.2 (not_step_returned h)

/-! ## Steps of the caller -/

section Caller

variable {clientSocket : Socket} {point : ListenThread.Point}

theorem AtPoint.close (h : AtPoint network clientSocket point) (socket : Socket) :
    AtPoint (network.close socket) clientSocket point := by
  cases point with
  | outerTest | loadServerSocket | acceptFailed | clear | returned => exact ⟨h.1, h.2.close socket⟩
  | accepting listening =>
    refine ⟨h.1, h.2.1.close socket, ?_⟩
    rw [Network.close_listening]
    exact h.2.2
  | testExisting newClient | assign newClient =>
    refine ⟨h.1, ?_, h.2.2.close socket⟩
    rw [Network.close_accepted]
    exact h.2.1
  | loadExisting newClient | closingExisting newClient listening => exact h.elim
  | innerTestRunning | innerTestClient | loadForRecv | framing | handling | testForSend
  | loadForLength | loadForContent | loadForClose | undefined =>
    obtain ⟨client, hserves⟩ := h
    exact ⟨client, hserves.close socket⟩
  | receiving | sendingLength | sendingContent | closing =>
    obtain ⟨client, hserves, hloaded⟩ := h
    exact ⟨client, hserves.close socket, hloaded.close socket⟩
  | reset => exact Network.AllClosed.close h socket

/-- A client that the caller saw is the one being served, so no other is being accepted. -/
theorem AtPoint.committed (h : AtPoint network clientSocket point) (hclient : clientSocket ≠ none) :
    Committed point := by
  cases point with
  | loadServerSocket | accepting socket | testExisting newClient | assign newClient =>
    exact absurd h.1 hclient
  | loadExisting newClient | closingExisting newClient socket => exact h.elim
  | _ => exact trivial

/-- Without a member to go by, a thread deep in its loop has lost its socket to `Stop`. -/
theorem AtPoint.allClosed_of_deep (h : AtPoint network none point) (hdeep : Deep point) :
    network.AllClosed := by
  cases point with
  | innerTestClient | loadForRecv | framing | handling | testForSend | loadForLength
  | loadForContent | undefined =>
    obtain ⟨client, hserves⟩ := h
    exact hserves.allClosed_of_none
  | receiving | sendingLength | sendingContent =>
    obtain ⟨client, hserves, -⟩ := h
    exact hserves.allClosed_of_none
  | _ => exact hdeep.elim

theorem AtPoint.closed_or_member (h : AtPoint network clientSocket point)
    (hcommitted : Committed point) :
    ∀ client ∈ network.accepted, client ∈ network.closed ∨ clientSocket = some client := by
  have hserving (hserves : ∃ client, network.Serves clientSocket client) :
      ∀ client ∈ network.accepted, client ∈ network.closed ∨ clientSocket = some client := by
    obtain ⟨client, hserves⟩ := hserves
    intro other hother
    by_cases heq : other = client
    · rw [heq]
      exact hserves.member.symm.imp_left And.right
    · exact .inl (hserves.others other hother heq)
  cases point with
  | outerTest | acceptFailed | clear | returned => exact fun client hclient ↦ .inl (h.2 client hclient)
  | innerTestRunning | innerTestClient | loadForRecv | framing | handling | testForSend
  | loadForLength | loadForContent | loadForClose | undefined => exact hserving h
  | receiving | sendingLength | sendingContent | closing =>
    obtain ⟨client, hserves, -⟩ := h
    exact hserving ⟨client, hserves⟩
  | reset => exact fun client hclient ↦ .inl (h client hclient)
  | loadServerSocket | accepting | testExisting | loadExisting | closingExisting | assign =>
    exact hcommitted.elim

/-- The member is reset only when the client is closed. -/
theorem AtPoint.resetClient (h : AtPoint network clientSocket point) (hcommitted : Committed point)
    (hall : network.AllClosed) : AtPoint network none point := by
  have hserving {client : ℕ} (hserves : network.Serves clientSocket client) :
      network.Serves none client :=
    ⟨hserves.accepted, hserves.others, .inr ⟨rfl, hall client hserves.accepted⟩⟩
  cases point with
  | outerTest | acceptFailed | clear | returned => exact ⟨rfl, hall⟩
  | innerTestRunning | innerTestClient | loadForRecv | framing | handling | testForSend
  | loadForLength | loadForContent | loadForClose | undefined =>
    obtain ⟨client, hserves⟩ := h
    exact ⟨client, hserving hserves⟩
  | receiving | sendingLength | sendingContent | closing =>
    obtain ⟨client, hserves, hloaded⟩ := h
    exact ⟨client, hserving hserves, hloaded⟩
  | reset => exact hall
  | loadServerSocket | accepting | testExisting | loadExisting | closingExisting | assign =>
    exact hcommitted.elim

end Caller

/-- Every statement of either party keeps the invariant. -/
theorem invariant_step {state state' : State} {label : Label} (hinv : Invariant state)
    (hstep : Step codec state label state') : Invariant state' := by
  obtain ⟨hpoint, hserver, hcaller, hjoinable, hjoined⟩ := hinv
  cases hstep with
  | thread h hpermits =>
    refine ⟨atPoint_step hpoint hserver hpermits h, ?_, atCaller_thread hcaller h, fun hnone ↦ ?_,
      hjoined⟩
    · rw [Network.note_listening, (members_of_step h).2]
      exact hserver
    · exact absurd (hjoinable hnone) (not_step_returned h)
  | stop h =>
    rw [h] at hcaller
    exact ⟨hpoint, hserver, ⟨rfl, hcaller⟩, hjoinable, by simp⟩
  | testServer h =>
    rw [h] at hcaller
    refine ⟨hpoint, hserver, ?_, hjoinable, ?_⟩
    · dsimp only
      split
      · next hnone =>
        refine ⟨hcaller.1, fun listening hlistening ↦ ?_, hnone⟩
        rw [← hcaller.2, hnone] at hlistening
        exact absurd hlistening (by simp)
      · exact hcaller
    · dsimp only
      split <;> simp
  | loadServer h =>
    rw [h] at hcaller
    exact ⟨hpoint, hserver, ⟨hcaller.1, hcaller.2, hcaller.2⟩, hjoinable, by simp⟩
  | closeServer h =>
    rw [h] at hcaller
    obtain ⟨hstopped, hlistening, rfl⟩ := hcaller
    refine ⟨hpoint.close _, ?_, ⟨hstopped, fun listening hlistening ↦ ?_⟩, hjoinable, by simp⟩
    · rw [Network.close_listening]
      exact hserver
    · rw [Network.close_listening] at hlistening
      rw [hlistening]
      exact Network.mem_close_self listening
  | resetServer h =>
    rw [h] at hcaller
    exact ⟨hpoint, .inr rfl, ⟨hcaller.1, hcaller.2, rfl⟩, hjoinable, by simp⟩
  | testClient h =>
    rw [h] at hcaller
    obtain ⟨hstopped, hclosed, hnone⟩ := hcaller
    refine ⟨hpoint, hserver, ?_, hjoinable, ?_⟩
    · dsimp only
      split
      · next hclient =>
        rw [hclient] at hpoint
        exact ⟨hstopped, hclosed, hnone, hpoint.allClosed_of_deep⟩
      · next hclient => exact ⟨hstopped, hclosed, hnone, hpoint.committed hclient⟩
    · dsimp only
      split <;> simp
  | loadClient h =>
    rw [h] at hcaller
    obtain ⟨hstopped, hclosed, hnone, hcommitted⟩ := hcaller
    exact ⟨hpoint, hserver, ⟨hstopped, hclosed, hnone, hcommitted,
      hpoint.closed_or_member hcommitted⟩, hjoinable, by simp⟩
  | @closeClient socket h =>
    rw [h] at hcaller
    obtain ⟨hstopped, hclosed, hnone, hcommitted, hclients⟩ := hcaller
    refine ⟨hpoint.close _, ?_, ⟨hstopped, hclosed.close _, hnone, hcommitted, ?_⟩, hjoinable, by simp⟩
    · rw [Network.close_listening]
      exact hserver
    · intro client hclient
      rw [Network.close_accepted] at hclient
      obtain hdone | rfl := hclients client hclient
      · exact Network.mem_close socket hdone
      · exact Network.mem_close_self client
  | resetClient h =>
    rw [h] at hcaller
    obtain ⟨hstopped, hclosed, hnone, hcommitted, hall⟩ := hcaller
    exact ⟨hpoint.resetClient hcommitted hall, hserver, ⟨hstopped, hclosed, hnone, fun _ ↦ hall⟩,
      hjoinable, by simp⟩
  | testJoinable h =>
    rw [h] at hcaller
    obtain ⟨hstopped, hclosed, hnone, hdeep⟩ := hcaller
    cases hthread : state.joinable with
    | false =>
      exact ⟨hpoint, hserver, ⟨hstopped, hclosed, hnone, hjoinable hthread⟩,
        fun _ ↦ hjoinable hthread, fun _ ↦ rfl⟩
    | true => exact ⟨hpoint, hserver, ⟨hstopped, hclosed, hnone, hdeep⟩, by simp, by simp⟩
  | join h hreturned =>
    rw [h] at hcaller
    obtain ⟨hstopped, hclosed, hnone, -⟩ := hcaller
    exact ⟨hpoint, hserver, ⟨hstopped, hclosed, hnone, hreturned⟩, fun _ ↦ hreturned, fun _ ↦ rfl⟩
  | wsaCleanup h =>
    rw [h] at hcaller
    exact ⟨hpoint, hserver, hcaller, hjoinable, fun _ ↦ hjoined (.inl h)⟩

theorem invariant_run {initial state : State} {labels : List Label} (hinitial : Invariant initial)
    (hrun : (machine codec initial).Run labels state) : Invariant state := by
  refine hrun.invariant (fun _ ↦ Invariant) ?_ ?_
  · rintro state rfl
    exact hinitial
  · intro labels state label state' hinv hstep
    exact invariant_step hinv hstep

theorem invariant_started (listening : ℕ) : Invariant (.started listening) where
  point := ⟨rfl, by simp [Network.AllClosed, State.started]⟩
  server := .inl rfl
  caller := rfl
  joinable := by simp [State.started]
  joined := by simp [State.started]

/-! ## Stopping -/

/-- A call that the thread may be in while the caller waits for it is not on an open socket. -/
theorem Invariant.not_open_of_joining {state : State} (h : Invariant state)
    (hjoining : state.caller = .joining) {socket : ℕ}
    (hblocked : blockedOn state.thread.point = some socket) : ¬ state.network.Open socket := by
  rintro ⟨-, hopen⟩
  have hcaller := h.caller
  rw [hjoining] at hcaller
  obtain ⟨-, hserver, -, hdeep⟩ := hcaller
  have hpoint := h.point
  generalize state.thread.point = point at hblocked hdeep hpoint
  cases point with
  | accepting held =>
    obtain rfl : held = some socket := hblocked
    exact hopen (hserver socket (hpoint.2.2.resolve_right (by simp)).symm)
  | receiving held | sendingLength message held | sendingContent message held =>
    obtain rfl : held = some socket := hblocked
    obtain ⟨client, hserves, hloaded⟩ := hpoint
    obtain rfl : socket = client := by simpa [Network.Loaded] using hloaded
    exact hopen (hdeep trivial socket hserves.accepted)
  | _ => exact absurd hblocked (by simp [blockedOn])

/-- The state in which `Stop` leaves the members. -/
theorem Invariant.of_returned {state : State} (h : Invariant state)
    (hreturned : state.caller = .returned) :
    (state.network.ServerClosed ∧ state.network.AllClosed) ∧ state.thread.running = false ∧
      state.thread.serverSocket = none ∧ state.thread.clientSocket = none ∧
      state.joinable = false := by
  have hcaller := h.caller
  rw [hreturned] at hcaller
  obtain ⟨hstopped, hserver, hnone, hpoint⟩ := hcaller
  have hidle := h.point
  rw [hpoint] at hidle
  exact ⟨⟨hserver, hidle.2⟩, hstopped, hnone, hidle.1, h.joined (.inr hreturned)⟩

/-- What the network knows about a run: the listening socket stays the same, and every socket that
`accept` returned is among the accepted ones. -/
theorem network_step {state state' : State} {label : Label} (h : Step codec state label state') :
    state'.network.listening = state.network.listening ∧
      (∀ client ∈ state.network.accepted, client ∈ state'.network.accepted) ∧
      ∀ server client, label = .thread (.accept server (some client)) →
        client ∈ state'.network.accepted := by
  cases h with
  | @thread label thread h hpermits =>
    refine ⟨Network.note_listening label, ?_, ?_⟩
    · intro client hclient
      dsimp only [Network.note]
      split
      · exact List.mem_cons_of_mem _ hclient
      · rwa [Network.close_accepted]
      · exact hclient
    · intro server client hlabel
      obtain rfl := Label.thread.inj hlabel
      exact List.mem_cons_self
  | closeServer h | closeClient h => simp
  | _ => simp

theorem network_run {initial state : State} {labels : List Label}
    (hrun : (machine codec initial).Run labels state) :
    state.network.listening = initial.network.listening ∧
      ∀ server client, Label.thread (.accept server (some client)) ∈ labels →
        client ∈ state.network.accepted := by
  refine hrun.invariant (fun labels state ↦ state.network.listening = initial.network.listening ∧
    ∀ server client, Label.thread (.accept server (some client)) ∈ labels →
      client ∈ state.network.accepted) ?_ ?_
  · rintro state rfl
    simp
  · intro labels state label state' ⟨hlistening, haccepted⟩ hstep
    obtain ⟨hsame, hkept, hnew⟩ := network_step hstep
    refine ⟨hsame.trans hlistening, fun server client hmem ↦ ?_⟩
    obtain hmem | hmem := List.mem_append.1 hmem
    · exact hkept client (haccepted server client hmem)
    · exact hnew server client (List.mem_singleton.1 hmem).symm

/-- Whatever order the steps of the two parties come in, and whatever clients come and send: while
`Stop` waits for the thread, the thread waits for no open socket, and when `Stop` has returned, the
listening socket and every socket that `accept` has returned are closed. -/
theorem stop_completes (codec : Codec) (listening : ℕ) (labels : List Label) (state : State)
    (hrun : (machine codec (.started listening)).Run labels state) :
    (state.caller = .joining → ∀ socket, blockedOn state.thread.point = some socket →
      ¬ state.network.Open socket) ∧
    (state.caller = .returned → listening ∈ state.network.closed ∧
      ∀ server client, Label.thread (.accept server (some client)) ∈ labels →
        client ∈ state.network.closed) := by
  have hinv := invariant_run (invariant_started listening) hrun
  obtain ⟨hlistening, haccepted⟩ := network_run hrun
  refine ⟨fun hjoining socket hblocked ↦ hinv.not_open_of_joining hjoining hblocked, ?_⟩
  intro hreturned
  obtain ⟨⟨hserver, hclients⟩, -⟩ := hinv.of_returned hreturned
  exact ⟨hserver listening hlistening,
    fun server client hmem ↦ hclients client (haccepted server client hmem)⟩

/-! ## Stretches of a run -/

/-- `Stop` before the first client. -/
theorem path_beforeClient (codec : Codec) (listening : ℕ) :
    (machine codec (.started listening)).Path (.started listening)
      [.tau, .tau, .tau, .closesocket (some listening), .tau, .tau, .tau, .thread .tau, .join,
        .wsaCleanup]
      ⟨⟨false, none, none, .returned, [], .new⟩, .returned, false,
        ⟨some listening, [], [listening]⟩⟩ :=
  .cons (.stop rfl) <| .cons (.testServer rfl) <| .cons (.loadServer rfl) <|
  .cons (.closeServer rfl) <| .cons (.resetServer rfl) <| .cons (.testClient rfl) <|
  .cons (.testJoinable rfl) <| .cons (.thread (.outerTest rfl) trivial) <|
  .cons (.join rfl rfl) <| .cons (.wsaCleanup rfl) .nil

/-- The network permits these steps of the thread one after the other. -/
def Network.PermitsAll : Network → List ListenThread.Label → Prop
  | _, [] => True
  | network, label :: labels => network.Permits label ∧ (network.note label).PermitsAll labels

/-- The thread goes on as if it were alone. -/
theorem path_thread {initial : State} {listening : ℕ} {thread thread' : ListenThread.State}
    {labels : List ListenThread.Label}
    (hpath : (ListenThread.machine codec listening).Path thread labels thread') (caller : Caller)
    (joinable : Bool) (network : Network) (hpermits : network.PermitsAll labels) :
    (machine codec initial).Path ⟨thread, caller, joinable, network⟩ (labels.map .thread)
      ⟨thread', caller, joinable, labels.foldl .note network⟩ := by
  induction hpath generalizing network with
  | nil => exact .nil
  | cons hstep _ ih => exact .cons (.thread hstep hpermits.1) (ih _ hpermits.2)

section Connected

variable (codec : Codec) (initial : State) (listening client : ℕ)
  (server : Handling.WindowCasterServer)

/-- The thread waits for its client. -/
def State.connected : State :=
  ⟨.connected listening client server, .notCalled, true, ⟨some listening, [client], []⟩⟩

/-- `Stop` has closed the socket for which the thread still waits. -/
def State.cutOff : State :=
  ⟨⟨false, none, none, .receiving (some client), [], server⟩, .joining, true,
    ⟨some listening, [client], [client, listening]⟩⟩

theorem path_cutOff :
    (machine codec initial).Path (.connected listening client server)
      [.tau, .tau, .tau, .closesocket (some listening), .tau, .tau, .tau, .closesocket (some client),
        .tau, .tau]
      (.cutOff listening client server) :=
  .cons (.stop rfl) <| .cons (.testServer rfl) <| .cons (.loadServer rfl) <|
  .cons (.closeServer rfl) <| .cons (.resetServer rfl) <| .cons (.testClient rfl) <|
  .cons (.loadClient rfl) <| .cons (.closeClient rfl) <| .cons (.resetClient rfl) <|
  .cons (.testJoinable rfl) .nil

theorem path_joined :
    (machine codec initial).Path (.cutOff listening client server)
      [.thread (.recv (some client) none), .thread .tau, .thread (.closesocket none), .thread .tau,
        .thread .tau, .thread .tau, .join, .wsaCleanup]
      ⟨⟨false, none, none, .returned, [], server⟩, .returned, false,
        ⟨some listening, [client], [client, listening]⟩⟩ :=
  .cons (.thread (.receiveFailed rfl) trivial) <| .cons (.thread (.loadForClose rfl) trivial) <|
  .cons (.thread (.close rfl) trivial) <| .cons (.thread (.reset rfl) trivial) <|
  .cons (.thread (.clear rfl) trivial) <| .cons (.thread (.outerTest rfl) trivial) <|
  .cons (.join rfl rfl) <| .cons (.wsaCleanup rfl) .nil

end Connected

/-- `Stop` closes the socket of a client for which the thread waits, waits for the thread, and ends. -/
theorem stop_completes_connected :
    ∃ labels more waiting state, (machine wire (.started 0)).Run labels waiting ∧
      waiting.caller = .joining ∧ blockedOn waiting.thread.point = some 7 ∧
      ¬ waiting.network.Open 7 ∧ (machine wire (.started 0)).Run (labels ++ more) state ∧
      state.caller = .returned ∧ 0 ∈ state.network.closed ∧ 7 ∈ state.network.closed := by
  have haccept : (machine wire (.started 0)).Path (.started 0) _ (.connected 0 7 .new) :=
    path_thread (ListenThread.path_accept 0 7 .new) .notCalled true ⟨some 0, [], []⟩
      (by simp [Network.PermitsAll, Network.Permits, Network.Open, Network.note])
  have hwaiting := ((Machine.Run.start rfl).path haccept).path (path_cutOff wire _ 0 7 .new)
  have hrun := hwaiting.path (path_joined wire _ 0 7 .new)
  obtain ⟨hlistening, hclients⟩ := (stop_completes wire 0 _ _ hrun).2 rfl
  exact ⟨_, _, _, _, hwaiting, rfl, rfl, (stop_completes wire 0 _ _ hwaiting).1 rfl 7 rfl, hrun, rfl,
    hlistening, hclients (some 0) 7 (by simp)⟩

end WindowCaster.Server.Shutdown
