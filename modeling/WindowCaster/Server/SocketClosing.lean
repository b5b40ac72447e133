import Mathlib.Data.List.Nodup
import WindowCaster.Server.Shutdown

/-!
# Every socket closed once

The end of the inner loop closes whatever `clientSocket` names then, without a test. As long as
`Stop` finds no client, that is the socket of the thread's own client, and no socket is closed
twice. When `Stop` does find one, both parties close it.
-/

namespace WindowCaster.Server.SocketClosing

open Foundation.Transition Protocol.Readers Win32 Shutdown

/-- The sockets passed to `closesocket`, by either party. -/
def closes : Label → List Socket
  | .thread (.closesocket socket) | .closesocket socket => [socket]
  | _ => []

def closings (labels : List Label) : List Socket := labels.flatMap closes

@[simp]
theorem closings_concat (labels : List Label) (label : Label) :
    closings (labels ++ [label]) = closings labels ++ closes label := by
  simp [closings]

/-- `Stop` tests `clientSocket` only while the thread has no client. -/
def TestsIdle (state : State) (_ : Label) (state' : State) : Prop :=
  state.caller = .testClient → state'.caller ≠ .testClient → state.thread.clientSocket = none

/-! ## The invariant -/

/-- The closings so far are those the network has seen, each of an open socket. -/
def Once (labels : List Label) (network : Network) : Prop :=
  closings labels = network.closed.reverse.map some ∧ network.closed.Nodup

/-- The client is not closed yet, and it is not the listening socket. -/
def Unclosed (network : Network) (client : ℕ) : Prop :=
  client ∉ network.closed ∧ some client ≠ network.listening

/-- Nobody but the thread closes its client. -/
def AtPoint (network : Network) (clientSocket : Socket) : ListenThread.Point → Prop
  | .testExisting newClient | .assign newClient => clientSocket = none ∧ Unclosed network newClient
  | .loadExisting _ | .closingExisting _ _ => False
  | .innerTestRunning | .innerTestClient | .loadForRecv | .receiving _ | .framing | .handling _
  | .testForSend _ | .loadForLength _ | .sendingLength _ _ | .loadForContent _
  | .sendingContent _ _ | .loadForClose | .undefined =>
    ∃ client, clientSocket = some client ∧ Unclosed network client
  | .closing socket =>
    ∃ client, clientSocket = some client ∧ socket = some client ∧ Unclosed network client
  | .reset => True
  | .outerTest | .loadServerSocket | .accepting _ | .acceptFailed | .clear | .returned =>
    clientSocket = none

def ListeningOpen (network : Network) : Prop :=
  ∃ listening, network.listening = some listening ∧ listening ∉ network.closed

def AtCaller (network : Network) (serverSocket : Socket) : Caller → Prop
  | .notCalled | .testServer | .loadServer =>
    serverSocket = network.listening ∧ ListeningOpen network
  | .closingServer socket => socket = network.listening ∧ ListeningOpen network
  | .loadClient | .closingClient _ | .resetClient => False
  | _ => True

structure Invariant (labels : List Label) (state : State) : Prop where
  once : Once labels state.network
  point : AtPoint state.network state.thread.clientSocket state.thread.point
  caller : AtCaller state.network state.thread.serverSocket state.caller

/-! ## Steps -/

variable {codec : Codec} {network : Network} {labels : List Label}

theorem Once.quiet (h : Once labels network) {label : Label} (hquiet : closes label = []) :
    Once (labels ++ [label]) network := by
  rwa [Once, closings_concat, hquiet, List.append_nil]

theorem Once.close (h : Once labels network) {label : Label} {socket : ℕ}
    (hlabel : closes label = [some socket]) (hopen : socket ∉ network.closed) :
    Once (labels ++ [label]) (network.close (some socket)) := by
  obtain ⟨hclosings, hnodup⟩ := h
  refine ⟨?_, List.nodup_cons.2 ⟨hopen, hnodup⟩⟩
  calc
    _ = closings labels ++ closes label := closings_concat labels label
    _ = network.closed.reverse.map some ++ [some socket] := by rw [hclosings, hlabel]
    _ = _ := by simp [Network.close]

section Thread

variable {thread thread' : ListenThread.State} {label : ListenThread.Label}

theorem atPoint_step (hpoint : AtPoint network thread.clientSocket thread.point)
    (hpermits : network.Permits label) (h : ListenThread.Step codec thread label thread') :
    AtPoint (network.note label) thread'.clientSocket thread'.point := by
  cases h with
  | outerTest h =>
    rw [h] at hpoint
    rw [ListenThread.State.goto_point]
    split <;> exact hpoint
  | accepted h =>
    rw [h] at hpoint
    obtain ⟨-, hne, -, hclosed⟩ := hpermits
    exact ⟨hpoint, hclosed, hne⟩
  | testExisting h =>
    rw [h] at hpoint
    rw [if_pos hpoint.1]
    exact hpoint
  | loadExisting h | closeExisting h =>
    rw [h] at hpoint
    exact hpoint.elim
  | assign h =>
    rw [h] at hpoint
    exact ⟨_, rfl, hpoint.2⟩
  | innerTestRunning h | innerTestClient h | testForSend h =>
    rw [h] at hpoint
    rw [ListenThread.State.goto_point]
    split <;> exact hpoint
  | loadForClose h =>
    rw [h] at hpoint
    obtain ⟨client, hclient, hunclosed⟩ := hpoint
    exact ⟨client, hclient, hclient, hunclosed⟩
  | close h => exact trivial
  | reset h => exact rfl
  | loadServerSocket h | notAccepted h | acceptFailed h | loadForRecv h | received h
  | disconnected h | receiveFailed h | needMore h | outOfRange h | deliver h | noResponse h
  | response h | loadForLength h | lengthSent h | lengthFailed h | loadForContent h | contentSent h
  | clear h =>
    rw [h] at hpoint
    exact hpoint

/-- The thread closes nothing but its own client. -/
theorem closes_of_step (hpoint : AtPoint network thread.clientSocket thread.point)
    (h : ListenThread.Step codec thread label thread') :
    (closes (.thread label) = [] ∧ (network.note label).closed = network.closed) ∨
      ∃ client, label = .closesocket (some client) ∧ Unclosed network client := by
  cases h with
  | closeExisting h =>
    rw [h] at hpoint
    exact hpoint.elim
  | close h =>
    rw [h] at hpoint
    obtain ⟨client, -, rfl, hunclosed⟩ := hpoint
    exact .inr ⟨client, rfl, hunclosed⟩
  | _ => exact .inl ⟨rfl, rfl⟩

end Thread

theorem Unclosed.close {client socket : ℕ} (h : Unclosed network client) (hne : client ≠ socket) :
    Unclosed (network.close (some socket)) client := by
  obtain ⟨hclosed, hlistening⟩ := h
  refine ⟨?_, hlistening⟩
  simpa [Network.close, hne] using hclosed

/-- Closing the listening socket does not touch the client. -/
theorem AtPoint.close {clientSocket : Socket} {point : ListenThread.Point} {listening : ℕ}
    (h : AtPoint network clientSocket point) (hlistening : network.listening = some listening) :
    AtPoint (network.close (some listening)) clientSocket point := by
  have hclose {client : ℕ} (hunclosed : Unclosed network client) :
      Unclosed (network.close (some listening)) client := by
    apply hunclosed.close
    rintro rfl
    exact hunclosed.2 hlistening.symm
  cases point with
  | testExisting newClient | assign newClient => exact h.imp_right hclose
  | innerTestRunning | innerTestClient | loadForRecv | receiving | framing | handling
  | testForSend | loadForLength | sendingLength | loadForContent | sendingContent | loadForClose
  | undefined =>
    obtain ⟨client, hclient, hunclosed⟩ := h
    exact ⟨client, hclient, hclose hunclosed⟩
  | closing socket =>
    obtain ⟨client, hclient, hsocket, hunclosed⟩ := h
    exact ⟨client, hclient, hsocket, hclose hunclosed⟩
  | _ => exact h

theorem ListeningOpen.of_closed_eq {other : Network} (h : ListeningOpen network)
    (hlistening : other.listening = network.listening) (hclosed : other.closed = network.closed) :
    ListeningOpen other := by
  obtain ⟨listening, heq, hopen⟩ := h
  exact ⟨listening, hlistening.trans heq, by rwa [hclosed]⟩

theorem ListeningOpen.close {client : ℕ} (h : ListeningOpen network) (hclient : Unclosed network client) :
    ListeningOpen (network.close (some client)) := by
  obtain ⟨listening, heq, hopen⟩ := h
  refine ⟨listening, heq, ?_⟩
  have hne : listening ≠ client := by
    rintro rfl
    exact hclient.2 heq.symm
  simpa [Network.close, hne] using hopen

/-- What the caller relies on survives, if the listening socket stays open. -/
theorem AtCaller.of_open {other : Network} {serverSocket serverSocket' : Socket} {caller : Caller}
    (h : AtCaller network serverSocket caller) (hserver : serverSocket' = serverSocket)
    (hlistening : other.listening = network.listening)
    (hopen : ListeningOpen network → ListeningOpen other) : AtCaller other serverSocket' caller := by
  cases caller with
  | notCalled | testServer | loadServer =>
    exact ⟨(hserver.trans h.1).trans hlistening.symm, hopen h.2⟩
  | closingServer socket => exact ⟨h.1.trans hlistening.symm, hopen h.2⟩
  | loadClient | closingClient | resetClient => exact h.elim
  | _ => exact trivial

theorem invariant_thread {state : State} {label : ListenThread.Label} {thread : ListenThread.State}
    (hinv : Invariant labels state) (h : ListenThread.Step codec state.thread label thread)
    (hpermits : state.network.Permits label) :
    Invariant (labels ++ [.thread label])
      { state with thread, network := state.network.note label } := by
  obtain ⟨honce, hpoint, hcaller⟩ := hinv
  have hserver := (members_of_step h).2
  have hpoint' := atPoint_step hpoint hpermits h
  obtain ⟨hquiet, hclosed⟩ | ⟨client, rfl, hunclosed⟩ := closes_of_step hpoint h
  · have honce' : Once labels (state.network.note label) := by
      rwa [Once, hclosed]
    refine ⟨honce'.quiet hquiet, hpoint', ?_⟩
    apply hcaller.of_open hserver (Network.note_listening label)
    intro hopen
    exact hopen.of_closed_eq (Network.note_listening label) hclosed
  · refine ⟨honce.close rfl hunclosed.1, hpoint', ?_⟩
    apply hcaller.of_open hserver (Network.close_listening _)
    intro hopen
    exact hopen.close hunclosed

theorem invariant_step {state state' : State} {label : Label} (hinv : Invariant labels state)
    (hstep : Step codec state label state') (hidle : TestsIdle state label state') :
    Invariant (labels ++ [label]) state' := by
  cases hstep with
  | thread h hpermits => exact invariant_thread hinv h hpermits
  | stop h =>
    obtain ⟨honce, hpoint, hcaller⟩ := hinv
    rw [h] at hcaller
    exact ⟨honce.quiet rfl, hpoint, hcaller⟩
  | testServer h =>
    obtain ⟨honce, hpoint, hcaller⟩ := hinv
    rw [h] at hcaller
    refine ⟨honce.quiet rfl, hpoint, ?_⟩
    dsimp only
    split
    · exact trivial
    · exact hcaller
  | loadServer h =>
    obtain ⟨honce, hpoint, hcaller⟩ := hinv
    rw [h] at hcaller
    exact ⟨honce.quiet rfl, hpoint, hcaller⟩
  | closeServer h =>
    obtain ⟨honce, hpoint, hcaller⟩ := hinv
    rw [h] at hcaller
    obtain ⟨rfl, listening, hlistening, hopen⟩ := hcaller
    rw [hlistening]
    exact ⟨honce.close rfl hopen, hpoint.close hlistening, trivial⟩
  | testClient h =>
    obtain ⟨honce, hpoint, -⟩ := hinv
    refine ⟨honce.quiet rfl, hpoint, ?_⟩
    have hnone : state.thread.clientSocket = none := by
      apply hidle h
      dsimp only
      split <;> simp
    rw [if_pos hnone]
    exact trivial
  | loadClient h | closeClient h | resetClient h =>
    have hcaller := hinv.caller
    rw [h] at hcaller
    exact hcaller.elim
  | testJoinable h =>
    obtain ⟨honce, hpoint, -⟩ := hinv
    refine ⟨honce.quiet rfl, hpoint, ?_⟩
    dsimp only
    split <;> exact trivial
  | resetServer h | join h hreturned | wsaCleanup h =>
    obtain ⟨honce, hpoint, -⟩ := hinv
    exact ⟨honce.quiet rfl, hpoint, trivial⟩

theorem invariant_run {listening : ℕ} {state : State}
    (hrun : ((machine codec (.started listening)).restrict TestsIdle).Run labels state) :
    Invariant labels state := by
  refine hrun.invariant Invariant ?_ ?_
  · rintro state rfl
    exact ⟨⟨rfl, List.nodup_nil⟩, rfl, rfl, listening, rfl, List.not_mem_nil⟩
  · intro labels state label state' hinv ⟨hstep, hidle⟩
    exact invariant_step hinv hstep hidle

/-! ## Closing once -/

/-- In every run in which `Stop` tests `clientSocket` only while there is no client: no call of
`closesocket` is given `INVALID_SOCKET`, and no two are given the same socket. -/
theorem closed_once (codec : Codec) (listening : ℕ) (labels : List Label) (state : State)
    (hrun : ((machine codec (.started listening)).restrict TestsIdle).Run labels state) :
    none ∉ closings labels ∧ (closings labels).Nodup := by
  obtain ⟨hclosings, hnodup⟩ := (invariant_run hrun).once
  rw [hclosings]
  refine ⟨by simp, ?_⟩
  exact (List.nodup_reverse.2 hnodup).map (Option.some_injective ℕ)

/-- A client has come and gone when `Stop` is called. -/
theorem closed_once_left :
    ∃ labels state, ((machine wire (.started 0)).restrict TestsIdle).Run labels state ∧
      state.caller = .returned ∧ closings labels = [some 7, some 0] ∧ none ∉ closings labels ∧
      (closings labels).Nodup := by
  let visit : List ListenThread.Label :=
    [.tau, .tau, .accept (some 0) (some 7), .tau, .tau, .tau, .tau, .tau, .recv (some 7) (some []), .tau,
      .closesocket (some 7), .tau, .tau]
  have hclient : ((machine wire (.started 0)).restrict TestsIdle).Path (.started 0)
      (visit.map .thread) ⟨.idle 0 .new, .notCalled, true, ⟨some 0, [7], [7]⟩⟩ := by
    refine (path_thread ((ListenThread.path_accept 0 7 .new).append ListenThread.path_disconnected)
      .notCalled true ⟨some 0, [], []⟩
      (by simp [Network.PermitsAll, Network.Permits, Network.Open, Network.note])).restrict ?_
    intro label hlabel before after hstep hcaller hmoved
    obtain ⟨label, -, rfl⟩ := List.mem_map.1 hlabel
    cases hstep with
    | thread _ _ => exact absurd hcaller hmoved
  have hstop : ((machine wire (.started 0)).restrict TestsIdle).Path
      ⟨.idle 0 .new, .notCalled, true, ⟨some 0, [7], [7]⟩⟩
      [.tau, .tau, .tau, .closesocket (some 0), .tau, .tau, .tau, .thread .tau, .join, .wsaCleanup]
      ⟨⟨false, none, none, .returned, [], .new⟩, .returned, false, ⟨some 0, [7], [0, 7]⟩⟩ :=
    .cons ⟨.stop rfl, by simp [TestsIdle]⟩ <|
    .cons ⟨.testServer rfl, by simp [TestsIdle]⟩ <|
    .cons ⟨.loadServer rfl, by simp [TestsIdle, ListenThread.State.idle]⟩ <|
    .cons ⟨.closeServer rfl, by simp [TestsIdle]⟩ <|
    .cons ⟨.resetServer rfl, by simp [TestsIdle]⟩ <|
    .cons ⟨.testClient rfl, fun _ _ ↦ rfl⟩ <|
    .cons ⟨.testJoinable rfl, by simp [TestsIdle, ListenThread.State.idle]⟩ <|
    .cons ⟨.thread (.outerTest rfl) trivial, by simp [TestsIdle]⟩ <|
    .cons ⟨.join rfl rfl, by simp [TestsIdle]⟩ <|
    .cons ⟨.wsaCleanup rfl, by simp [TestsIdle]⟩ .nil
  have hrun := ((Machine.Run.start rfl).path hclient).path hstop
  obtain ⟨hnone, hnodup⟩ := closed_once wire 0 _ _ hrun
  exact ⟨_, _, hrun, rfl, rfl, hnone, hnodup⟩

/-- The thread waits for its client when `Stop` closes the client. If the thread reads the member
after `Stop` has reset it, it closes `INVALID_SOCKET`; if it reads it before, it closes the socket
a second time. -/
theorem not_closed_once :
    (∃ labels state, (machine wire (.started 0)).Run labels state ∧
      closings labels = [some 0, some 7, none]) ∧
    ∃ labels state, (machine wire (.started 0)).Run labels state ∧
      closings labels = [some 0, some 7, some 7] := by
  let receiving : ListenThread.State := ⟨true, some 0, some 7, .receiving (some 7), [], .new⟩
  have hclient : (machine wire (.started 0)).Path (.started 0)
      [.thread .tau, .thread .tau, .thread (.accept (some 0) (some 7)), .thread .tau, .thread .tau,
        .thread .tau, .thread .tau, .thread .tau]
      ⟨receiving, .notCalled, true, ⟨some 0, [7], []⟩⟩ :=
    .cons (.thread (.outerTest rfl) trivial) <| .cons (.thread (.loadServerSocket rfl) trivial) <|
    .cons (.thread (.accepted rfl) (by simp [Network.Permits, Network.Open, Network.note, State.started])) <|
    .cons (.thread (.testExisting rfl) trivial) <| .cons (.thread (.assign rfl) trivial) <|
    .cons (.thread (.innerTestRunning rfl) trivial) <|
    .cons (.thread (.innerTestClient rfl) trivial) <|
    .cons (.thread (.loadForRecv rfl) trivial) .nil
  have hstop : (machine wire (.started 0)).Path ⟨receiving, .notCalled, true, ⟨some 0, [7], []⟩⟩
      [.tau, .tau, .tau, .closesocket (some 0), .tau, .tau, .tau]
      ⟨⟨false, none, some 7, .receiving (some 7), [], .new⟩, .closingClient (some 7), true,
        ⟨some 0, [7], [0]⟩⟩ :=
    .cons (.stop rfl) <| .cons (.testServer rfl) <| .cons (.loadServer rfl) <|
    .cons (.closeServer rfl) <| .cons (.resetServer rfl) <| .cons (.testClient rfl) <|
    .cons (.loadClient rfl) .nil
  have hrun := ((Machine.Run.start rfl).path hclient).path hstop
  constructor
  · have hend : (machine wire (.started 0)).Path
        ⟨⟨false, none, some 7, .receiving (some 7), [], .new⟩, .closingClient (some 7), true,
          ⟨some 0, [7], [0]⟩⟩
        [.closesocket (some 7), .tau, .thread (.recv (some 7) none), .thread .tau,
          .thread (.closesocket none)]
        ⟨⟨false, none, none, .reset, [], .new⟩, .testJoinable, true, ⟨some 0, [7], [7, 0]⟩⟩ :=
      .cons (.closeClient rfl) <| .cons (.resetClient rfl) <|
      .cons (.thread (.receiveFailed rfl) trivial) <|
      .cons (.thread (.loadForClose rfl) trivial) <| .cons (.thread (.close rfl) trivial) .nil
    exact ⟨_, _, hrun.path hend, rfl⟩
  · have hend : (machine wire (.started 0)).Path
        ⟨⟨false, none, some 7, .receiving (some 7), [], .new⟩, .closingClient (some 7), true,
          ⟨some 0, [7], [0]⟩⟩
        [.closesocket (some 7), .thread (.recv (some 7) none), .thread .tau,
          .thread (.closesocket (some 7))]
        ⟨⟨false, none, some 7, .reset, [], .new⟩, .resetClient, true, ⟨some 0, [7], [7, 7, 0]⟩⟩ :=
      .cons (.closeClient rfl) <| .cons (.thread (.receiveFailed rfl) trivial) <|
      .cons (.thread (.loadForClose rfl) trivial) <| .cons (.thread (.close rfl) trivial) .nil
    exact ⟨_, _, hrun.path hend, rfl⟩

end WindowCaster.Server.SocketClosing
