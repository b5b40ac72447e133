import WindowCaster.Server.ListenThread

/-!
# One connection at a time

The buffer, the pending bytes and the client socket outlive a connection. The history of a run
splits its calls by the connection they belong to, and the invariant says what the thread keeps of
the current connection at every point. Between two connections it keeps nothing, so what is
delivered for a connection depends on its own bytes alone.
-/

namespace WindowCaster.Server.Isolation

open Foundation.Transition Foundation.Text Protocol.Readers Win32 Framing ListenThread

/-- What happened on one connection: the chunks that `recv` returned, the messages that went to the
handler, and the sockets that `recv`, `send` and `closesocket` were called with. -/
structure Connection where
  socket : ℕ
  chunks : List Bytes
  delivered : List Bytes
  sockets : List Socket
  deriving DecidableEq

/-- The data that a call of `recv` returned, if there is any. -/
def received : Option Bytes → List Bytes
  | some (byte :: bytes) => [byte :: bytes]
  | _ => []

namespace Connection

def opened (socket : ℕ) : Connection := ⟨socket, [], [], []⟩

def note (connection : Connection) : Label → Connection
  | .recv socket outcome =>
    { connection with
      chunks := connection.chunks ++ received outcome
      sockets := connection.sockets ++ [socket] }
  | .deliver oneProtoMsg =>
    { connection with delivered := connection.delivered ++ [oneProtoMsg] }
  | .send socket _ _ _ | .closesocket socket =>
    { connection with sockets := connection.sockets ++ [socket] }
  | .tau | .accept _ _ | .handled _ _ _ => connection

/-- The bytes received on the connection. -/
def stream (connection : Connection) : Bytes := connection.chunks.flatten

/-- The calls of the connection used its own socket. -/
def Owned (connection : Connection) : Prop :=
  (∀ chunk ∈ connection.chunks, IsChunk chunk) ∧
    ∀ socket ∈ connection.sockets, socket = some connection.socket

/-- What has been delivered, together with what the loop is still going to deliver from `pending`,
is what the chunks of the connection amount to. -/
def Tracks (connection : Connection) (pending : Bytes) : Prop :=
  connection.Owned ∧ receiveAll connection.chunks =
    { frameLoop pending with delivered := connection.delivered ++ (frameLoop pending).delivered }

/-- All that will ever be delivered for the connection has been delivered. -/
def Finished (connection : Connection) : Prop :=
  connection.Owned ∧ connection.delivered = (receiveAll connection.chunks).delivered

end Connection

/-- The connections of a run, the latest first. -/
def record (connections : List Connection) : Label → List Connection
  | .accept _ (some newClient) => .opened newClient :: connections
  | label => connections.modifyHead (·.note label)

def history (labels : List Label) : List Connection := labels.foldl record []

@[simp]
theorem history_concat (labels : List Label) (label : Label) :
    history (labels ++ [label]) = record (history labels) label := by
  simp [history]

@[simp]
theorem record_tau (connections : List Connection) : record connections .tau = connections := by
  cases connections <;> rfl

@[simp]
theorem record_notAccepted (connections : List Connection) (socket : Socket) :
    record connections (.accept socket none) = connections := by
  cases connections <;> rfl

@[simp]
theorem record_handled (connections : List Connection) (oneProtoMsg trace response) :
    record connections (.handled oneProtoMsg trace response) = connections := by
  cases connections <;> rfl

/-! ## Single connections -/

namespace Connection

variable {connection : Connection} {pending : Bytes}

theorem tracks_opened (socket : ℕ) : (opened socket).Tracks [] := by
  have hnone : framingPass [] = .needMore := by decide
  refine ⟨⟨by simp [opened], by simp [opened]⟩, ?_⟩
  rw [frameLoop_of_needMore hnone]
  rfl

theorem Tracks.finished (h : connection.Tracks pending) (hpass : framingPass pending = .needMore) :
    connection.Finished := by
  obtain ⟨howned, htracks⟩ := h
  rw [frameLoop_of_needMore hpass, List.append_nil] at htracks
  exact ⟨howned, by rw [htracks]⟩

@[simp]
theorem note_socket (label : Label) : (connection.note label).socket = connection.socket := by
  cases label <;> rfl

/-- A call on the connection's own socket that brings no data changes nothing else. -/
theorem Tracks.call (h : connection.Tracks pending) :
    Tracks { connection with sockets := connection.sockets ++ [some connection.socket] } pending :=
  ⟨⟨h.1.1, List.forall_mem_append.2 ⟨h.1.2, by simp⟩⟩, h.2⟩

theorem Tracks.send (h : connection.Tracks pending) (buffer : Bytes) (length : Int32)
    (bytesSent : Option ℕ) :
    (connection.note (.send (some connection.socket) buffer length bytesSent)).Tracks pending :=
  h.call

theorem Tracks.closesocket (h : connection.Tracks pending) :
    (connection.note (.closesocket (some connection.socket))).Tracks pending :=
  h.call

theorem Tracks.endOfStream (h : connection.Tracks pending) {outcome : Option Bytes}
    (houtcome : received outcome = []) :
    (connection.note (.recv (some connection.socket) outcome)).Tracks pending := by
  simpa only [note, houtcome, List.append_nil] using h.call

/-- A chunk is appended to the pending bytes only where no message is left in them. -/
theorem Tracks.recv (h : connection.Tracks pending) (hpass : framingPass pending = .needMore)
    {chunk : Bytes} (hchunk : IsChunk chunk) :
    (connection.note (.recv (some connection.socket) (some chunk))).Tracks (pending ++ chunk) := by
  have hdata : received (some chunk) = [chunk] := by
    match chunk, hchunk with
    | byte :: bytes, _ => rfl
  obtain ⟨⟨hchunks, hsockets⟩, htracks⟩ := h
  rw [frameLoop_of_needMore hpass, List.append_nil] at htracks
  refine ⟨⟨?_, ?_⟩, ?_⟩
  · simp only [note, hdata]
    exact List.forall_mem_append.2 ⟨hchunks, by simpa using hchunk⟩
  · exact List.forall_mem_append.2 ⟨hsockets, by simp⟩
  · simp only [note, hdata]
    rw [receiveAll_concat, htracks, receive, if_neg Bool.false_ne_true]

/-- A message that is delivered moves from the pending bytes to the delivered messages. -/
theorem Tracks.deliver (h : connection.Tracks pending) {oneProtoMsg rest : Bytes}
    (hpass : framingPass pending = .message oneProtoMsg rest) :
    (connection.note (.deliver oneProtoMsg)).Tracks rest := by
  obtain ⟨howned, htracks⟩ := h
  refine ⟨howned, ?_⟩
  rw [frameLoop_of_message hpass] at htracks
  simp only [note]
  rw [htracks]
  simp

end Connection

/-! ## The invariant -/

/-- Nothing is kept of the connections, which are all over. -/
def Idle (clientSocket : Socket) (pending : Bytes) (connections : List Connection) : Prop :=
  clientSocket = none ∧ pending = [] ∧ ∀ connection ∈ connections, connection.Finished

/-- A client has been accepted on this socket and nothing has happened on the connection. -/
def Accepted (newClient : ℕ) (clientSocket : Socket) (pending : Bytes)
    (connections : List Connection) : Prop :=
  clientSocket = none ∧ pending = [] ∧ ∃ earlier, connections = .opened newClient :: earlier ∧
    ∀ other ∈ earlier, other.Finished

/-- The latest connection is being served, and the earlier ones are over. -/
def Serving (clientSocket : Socket) (pending : Bytes) (connections : List Connection) : Prop :=
  ∃ connection earlier, connections = connection :: earlier ∧
    clientSocket = some connection.socket ∧ connection.Tracks pending ∧
    ∀ other ∈ earlier, other.Finished

def AtPoint (clientSocket : Socket) (pending : Bytes) (connections : List Connection) :
    Point → Prop
  | .outerTest | .loadServerSocket | .accepting _ | .acceptFailed =>
    Idle clientSocket pending connections
  | .testExisting newClient | .assign newClient =>
    Accepted newClient clientSocket pending connections
  | .innerTestRunning | .innerTestClient | .loadForRecv | .loadForClose | .reset =>
    Serving clientSocket pending connections ∧ framingPass pending = .needMore
  | .receiving socket | .closing socket =>
    Serving clientSocket pending connections ∧ framingPass pending = .needMore ∧
      socket = clientSocket
  | .framing | .handling _ | .testForSend _ | .loadForLength _ | .loadForContent _ =>
    Serving clientSocket pending connections
  | .sendingLength _ socket | .sendingContent _ socket =>
    Serving clientSocket pending connections ∧ socket = clientSocket
  | .clear => clientSocket = none ∧ ∀ connection ∈ connections, connection.Finished
  | .undefined => Serving clientSocket pending connections ∧ framingPass pending = .outOfRange
  | .loadExisting _ | .closingExisting _ _ | .returned => False

def Invariant (connections : List Connection) (state : State) : Prop :=
  state.running = true ∧ AtPoint state.clientSocket state.pending connections state.point

theorem Serving.record {clientSocket : Socket} {pending pending' : Bytes}
    {connections : List Connection} {label : Label} (h : Serving clientSocket pending connections)
    (hnew : ∀ socket newClient, label ≠ .accept socket (some newClient))
    (hlatest : ∀ connection : Connection, connection.Tracks pending →
      clientSocket = some connection.socket → (connection.note label).Tracks pending') :
    Serving clientSocket pending' (record connections label) := by
  obtain ⟨connection, earlier, rfl, hsocket, htracks, hfinished⟩ := h
  have hrecord : Isolation.record (connection :: earlier) label = connection.note label :: earlier := by
    unfold Isolation.record
    split
    · exact absurd rfl (hnew _ _)
    · rfl
  exact ⟨connection.note label, earlier, hrecord, by simpa using hsocket,
    hlatest connection htracks hsocket, hfinished⟩

/-- Every statement keeps the invariant, whatever the network answers. -/
theorem invariant_step {codec : Codec} {connections : List Connection} {state state' : State}
    {label : Label} (hinv : Invariant connections state) (hstep : Step codec state label state') :
    Invariant (record connections label) state' := by
  obtain ⟨hrunning, hpoint⟩ := hinv
  cases hstep with
  | outerTest h | loadServerSocket h | acceptFailed h | innerTestRunning h | loadForRecv h
  | loadForLength h | loadForContent h | loadForClose h =>
    rw [h] at hpoint
    simp_all [Invariant, AtPoint]
  | innerTestClient h | testForSend h =>
    rw [h] at hpoint
    rw [record_tau]
    refine ⟨hrunning, ?_⟩
    rw [State.goto_point]
    split <;> exact hpoint
  | accepted h =>
    rw [h] at hpoint
    obtain ⟨hclient, hpending, hfinished⟩ := hpoint
    exact ⟨hrunning, hclient, hpending, connections, rfl, hfinished⟩
  | notAccepted h =>
    rw [h] at hpoint
    rw [record_notAccepted]
    exact ⟨hrunning, hpoint⟩
  | testExisting h =>
    rw [h] at hpoint
    rw [record_tau, if_pos hpoint.1]
    exact ⟨hrunning, hpoint⟩
  | loadExisting h | closeExisting h =>
    rw [h] at hpoint
    exact hpoint.elim
  | assign h =>
    rw [h] at hpoint
    obtain ⟨-, hpending, earlier, rfl, hfinished⟩ := hpoint
    have hpass : framingPass state.pending = .needMore := by
      rw [hpending]
      decide
    rw [record_tau]
    refine ⟨hrunning, ⟨_, earlier, rfl, rfl, ?_, hfinished⟩, hpass⟩
    simpa only [State.goto_pending, hpending] using Connection.tracks_opened _
  | received h hchunk =>
    rw [h] at hpoint
    obtain ⟨hserving, hpass, rfl⟩ := hpoint
    refine ⟨hrunning, hserving.record (by simp) fun connection htracks hsocket ↦ ?_⟩
    rw [hsocket]
    exact htracks.recv hpass hchunk
  | disconnected h | receiveFailed h =>
    rw [h] at hpoint
    obtain ⟨hserving, hpass, rfl⟩ := hpoint
    refine ⟨hrunning, hserving.record (by simp) fun connection htracks hsocket ↦ ?_, hpass⟩
    rw [hsocket]
    exact htracks.endOfStream rfl
  | needMore h hpass | outOfRange h hpass =>
    rw [h] at hpoint
    rw [record_tau]
    exact ⟨hrunning, hpoint, hpass⟩
  | deliver h hpass =>
    rw [h] at hpoint
    exact ⟨hrunning, Serving.record hpoint (by simp) fun connection htracks _ ↦ htracks.deliver hpass⟩
  | noResponse h hruns | response h hruns =>
    rw [h] at hpoint
    rw [record_handled]
    exact ⟨hrunning, hpoint⟩
  | lengthSent h | lengthFailed h | contentSent h =>
    rw [h] at hpoint
    obtain ⟨hserving, rfl⟩ := hpoint
    refine ⟨hrunning, hserving.record (by simp) fun connection htracks hsocket ↦ ?_⟩
    rw [hsocket]
    exact htracks.send _ _ _
  | close h =>
    rw [h] at hpoint
    obtain ⟨hserving, hpass, rfl⟩ := hpoint
    refine ⟨hrunning, hserving.record (by simp) fun connection htracks hsocket ↦ ?_, hpass⟩
    rw [hsocket]
    exact htracks.closesocket
  | reset h =>
    rw [h] at hpoint
    obtain ⟨⟨connection, earlier, rfl, -, htracks, hfinished⟩, hpass⟩ := hpoint
    rw [record_tau]
    exact ⟨hrunning, rfl, List.forall_mem_cons.2 ⟨htracks.finished hpass, hfinished⟩⟩
  | clear h =>
    rw [h] at hpoint
    rw [record_tau]
    exact ⟨hrunning, hpoint.1, rfl, hpoint.2⟩

theorem invariant_run {codec : Codec} {listening : ℕ} {labels : List Label} {state : State}
    (h : (machine codec listening).Run labels state) : Invariant (history labels) state := by
  refine h.invariant (fun labels ↦ Invariant (history labels)) ?_ ?_
  · rintro state rfl
    exact ⟨rfl, rfl, rfl, by simp [history]⟩
  · intro labels state label state' hinv hstep
    rw [history_concat]
    exact invariant_step hinv hstep

/-! ## Isolation -/

namespace Connection

variable {connection : Connection}

theorem Finished.delivered_eq (h : connection.Finished) :
    connection.delivered = messagesIn connection.stream := by
  obtain ⟨⟨hchunks, -⟩, hdelivered⟩ := h
  rw [hdelivered, (receiveAll_eq hchunks).1]
  rfl

theorem Tracks.messagesIn_eq {pending : Bytes} (h : connection.Tracks pending) :
    messagesIn connection.stream = connection.delivered ++ (frameLoop pending).delivered := by
  obtain ⟨⟨hchunks, -⟩, htracks⟩ := h
  rw [stream, ← (receiveAll_eq hchunks).1, htracks]

/-- The thread goes out of range only where the connection's own bytes lead to an oversize prefix. -/
theorem Tracks.oversize {pending : Bytes} (h : connection.Tracks pending)
    (hpass : framingPass pending = .outOfRange) : Oversize (residue connection.stream) := by
  obtain ⟨⟨hchunks, -⟩, htracks⟩ := h
  rw [frameLoop_of_outOfRange hpass] at htracks
  have hundefined := (receiveAll_eq hchunks).2.1
  rw [htracks] at hundefined
  exact of_decide_eq_true hundefined.symm

/-- What one connection may show: its calls use its own socket, and its deliveries are messages of
its own bytes, from the first one on. -/
def Isolated (connection : Connection) : Prop :=
  (∀ socket ∈ connection.sockets, socket = some connection.socket) ∧
    connection.delivered <+: messagesIn connection.stream

theorem Finished.isolated (h : connection.Finished) : connection.Isolated :=
  ⟨h.1.2, h.delivered_eq ▸ List.prefix_rfl⟩

theorem Tracks.isolated {pending : Bytes} (h : connection.Tracks pending) : connection.Isolated :=
  ⟨h.1.2, by rw [h.messagesIn_eq]; exact List.prefix_append _ _⟩

end Connection

/-- Only the latest connection can be unfinished. -/
theorem Invariant.finished_or_tracks {connections : List Connection} {state : State}
    (h : Invariant connections state) :
    (∀ connection ∈ connections, connection.Finished) ∨
      ∃ latest earlier, connections = latest :: earlier ∧ latest.Tracks state.pending ∧
        ∀ other ∈ earlier, other.Finished := by
  have hserving (hserving : Serving state.clientSocket state.pending connections) :
      ∃ latest earlier, connections = latest :: earlier ∧ latest.Tracks state.pending ∧
        ∀ other ∈ earlier, other.Finished := by
    obtain ⟨latest, earlier, rfl, -, htracks, hfinished⟩ := hserving
    exact ⟨latest, earlier, rfl, htracks, hfinished⟩
  obtain ⟨-, hpoint⟩ := h
  generalize state.point = point at hpoint
  cases point with
  | outerTest | loadServerSocket | accepting socket | acceptFailed => exact .inl hpoint.2.2
  | testExisting newClient | assign newClient =>
    obtain ⟨-, hpending, earlier, rfl, hfinished⟩ := hpoint
    rw [hpending]
    exact .inr ⟨_, earlier, rfl, Connection.tracks_opened newClient, hfinished⟩
  | innerTestRunning | innerTestClient | loadForRecv | receiving socket | loadForClose
  | closing socket | reset | sendingLength message socket | sendingContent message socket
  | undefined => exact .inr (hserving hpoint.1)
  | framing | handling message | testForSend message | loadForLength message
  | loadForContent message => exact .inr (hserving hpoint)
  | clear => exact .inl hpoint.2
  | loadExisting newClient | closingExisting newClient socket | returned => exact hpoint.elim

namespace Invariant

variable {connections : List Connection} {state : State} {connection : Connection}

theorem at_accept (h : Invariant connections state) {socket : Socket}
    (hpoint : state.point = .accepting socket) :
    Idle state.clientSocket state.pending connections := by
  simpa only [hpoint, AtPoint] using h.2

/-- Between two chunks nothing is left to deliver. -/
theorem delivered_at_recv (h : Invariant connections state) {socket : Socket}
    (hpoint : state.point = .receiving socket) (hmem : connection ∈ connections) :
    connection.delivered = messagesIn connection.stream := by
  obtain ⟨-, hserving⟩ := h
  rw [hpoint] at hserving
  obtain ⟨⟨latest, earlier, rfl, -, htracks, hfinished⟩, hpass, -⟩ := hserving
  obtain rfl | hmem := List.mem_cons.1 hmem
  · exact (htracks.finished hpass).delivered_eq
  · exact (hfinished connection hmem).delivered_eq

theorem isolated (h : Invariant connections state) (hmem : connection ∈ connections) :
    connection.Isolated := by
  obtain hfinished | ⟨latest, earlier, rfl, htracks, hfinished⟩ := h.finished_or_tracks
  · exact (hfinished connection hmem).isolated
  · obtain rfl | hmem := List.mem_cons.1 hmem
    · exact htracks.isolated
    · exact (hfinished connection hmem).isolated

theorem delivered_of_earlier (h : Invariant connections state) (hmem : connection ∈ connections.tail) :
    connection.delivered = messagesIn connection.stream := by
  obtain hfinished | ⟨latest, earlier, rfl, -, hfinished⟩ := h.finished_or_tracks
  · exact (hfinished connection (List.mem_of_mem_tail hmem)).delivered_eq
  · exact (hfinished connection hmem).delivered_eq

theorem oversize_of_undefined (h : Invariant connections state) (hpoint : state.point = .undefined) :
    ∃ latest, connections.head? = some latest ∧ Oversize (residue latest.stream) := by
  obtain ⟨-, hserving⟩ := h
  rw [hpoint] at hserving
  obtain ⟨⟨latest, earlier, rfl, -, htracks, -⟩, hpass⟩ := hserving
  exact ⟨latest, rfl, htracks.oversize hpass⟩

end Invariant

/-- In every run, whatever clients come and however their connections end: the thread goes to
`accept` with nothing left of them; the messages delivered for a connection are those of its own
bytes, and all of them once the next client is there or the thread waits for more; no call for one
connection uses the socket of another; and the thread goes out of range only on account of the
bytes of the connection it serves. -/
theorem connections_isolated (codec : Codec) (listening : ℕ) (labels : List Label) (state : State)
    (hrun : (machine codec listening).Run labels state) :
    (∀ socket, state.point = .accepting socket → state.clientSocket = none ∧ state.pending = []) ∧
    (∀ connection ∈ history labels, connection.Isolated) ∧
    (∀ connection ∈ (history labels).tail, connection.delivered = messagesIn connection.stream) ∧
    (∀ socket, state.point = .receiving socket →
      ∀ connection ∈ history labels, connection.delivered = messagesIn connection.stream) ∧
    (∀ socket, state.point = .accepting socket →
      ∀ connection ∈ history labels, connection.delivered = messagesIn connection.stream) ∧
    (state.point = .undefined → ∃ latest, (history labels).head? = some latest ∧
      Oversize (residue latest.stream)) := by
  have hinv := invariant_run hrun
  refine ⟨fun socket hpoint ↦ ?_, fun connection ↦ hinv.isolated,
    fun connection ↦ hinv.delivered_of_earlier,
    fun socket hpoint connection ↦ hinv.delivered_at_recv hpoint,
    fun socket hpoint connection hmem ↦ ?_, hinv.oversize_of_undefined⟩
  · exact ⟨(hinv.at_accept hpoint).1, (hinv.at_accept hpoint).2.1⟩
  · exact ((hinv.at_accept hpoint).2.2 connection hmem).delivered_eq

/-- A client sends one byte of a frame and leaves; the next one asks for the windows and is answered. -/
theorem connections_isolated_cut_frame :
    ∃ labels state, (machine wire 0).Run labels state ∧ state.point = .receiving (some 8) ∧
      history labels = [⟨8, [[2, 0, 0, 0, 10, 0]], [[10, 0]], [some 8, some 8, some 8]⟩,
        ⟨7, [[1]], [], [some 7, some 7, some 7]⟩] ∧
      ∀ connection ∈ history labels,
        connection.Isolated ∧ connection.delivered = messagesIn connection.stream := by
  have hparse : wire.parseFromString [10, 0] = some ⟨some .getWindowList⟩ :=
    wire_lawful.request rfl (by decide)
  have hruns := Handling.runs_served wire granting .new [10, 0]
  obtain ⟨response, hresponse⟩ :
      ∃ response, (Handling.served wire granting .new [10, 0]).1.response = some response := by
    simp only [Handling.served, Handling.WindowCasterServer.respond, hparse]
    exact ⟨_, rfl⟩
  rw [hresponse] at hruns
  have hcut : framingPass [1] = .needMore := by decide
  have hpass : framingPass [2, 0, 0, 0, 10, 0] = .message [10, 0] [] := by decide
  have hreceived : (machine wire 0).Path (.connected 0 7 .new) [.recv (some 7) (some [1])]
      ⟨true, some 0, some 7, .framing, [1], .new⟩ := .cons (.received rfl (by decide)) .nil
  have hrun := ((((((Machine.Run.start rfl).path (path_accept 0 7 .new)).path hreceived).path
    (path_needMore hcut)).path path_disconnected).path (path_accept 0 8 .new)).path
      (path_exchange (by decide) hpass hruns)
  obtain ⟨-, hisolated, -, hdelivered, -⟩ := connections_isolated wire 0 _ _ hrun
  exact ⟨_, _, hrun, rfl, rfl, fun connection hmem ↦
    ⟨hisolated connection hmem, hdelivered (some 8) rfl connection hmem⟩⟩

end WindowCaster.Server.Isolation
