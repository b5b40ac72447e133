import Mathlib.Logic.Function.Basic
import WindowCaster.System.Progress

/-!
# Many clients and the server

Any number of clients run side by side with one listening thread. Each of them is joined to the
thread by channels of its own, as a single client is, and the thread serves the client it has
accepted last. A client that is not being served, because it has not been accepted yet or has been
served before, is beside a thread that waits in `accept`: it can fill its channel and no more.
-/

namespace WindowCaster.System.Clients

open Foundation.Interaction Foundation.Text Foundation.Transition Protocol.Readers
open Client.Network Server Server.Handling Channels Conversation Service Lockstep
open Server.ListenThread (recordHandled recordHandled_append)

/-- The sockets of the connections and the capacities of their channels. -/
structure Network (ι : Type) where
  listening : ℕ
  socket : ι → ℕ
  upCapacity : ι → ℕ
  downCapacity : ι → ℕ
  upCapacity_pos : ∀ i, 0 < upCapacity i
  downCapacity_pos : ∀ i, 0 < downCapacity i

def Network.setup {ι : Type} (network : Network ι) (i : ι) : Setup where
  listening := network.listening
  socket := network.socket i
  upCapacity := network.upCapacity i
  downCapacity := network.downCapacity i
  upCapacity_pos := network.upCapacity_pos i
  downCapacity_pos := network.downCapacity_pos i

/-- A client and its channels: the state of one connection without the thread. -/
structure Peer (α : Type) where
  client : Program Tcp α
  moved : Bytes
  clientOpen : Bool
  up : Bytes
  down : Bytes
  queued : Bytes
  accepted : Bool

namespace Peer

variable {α : Type}

def beside (peer : Peer α) (thread : ListenThread.State) : Channels.State α :=
  ⟨peer.client, peer.moved, peer.clientOpen, peer.up, peer.down, peer.queued, peer.accepted, thread⟩

def of (state : Channels.State α) : Peer α :=
  ⟨state.client, state.moved, state.clientOpen, state.up, state.down, state.queued, state.accepted⟩

@[simp]
theorem of_beside_thread (state : Channels.State α) : (of state).beside state.thread = state := rfl

end Peer

/-- `current` is the client that has been accepted last. -/
structure State (ι α : Type) where
  peers : ι → Peer α
  current : Option ι
  thread : ListenThread.State

/-- A thread that waits in `accept`. -/
def waiting (listening : ℕ) : ListenThread.State :=
  ⟨true, some listening, none, .accepting (some listening), [], .new⟩

variable {ι α : Type} [DecidableEq ι]

/-- The thread as this client knows it. -/
def State.threadOf (state : State ι α) (network : Network ι) (i : ι) : ListenThread.State :=
  if state.current = some i then state.thread else waiting network.listening

/-- One client beside the thread. -/
def State.view (state : State ι α) (network : Network ι) (i : ι) : Channels.State α :=
  (state.peers i).beside (state.threadOf network i)

/-- A step of the thread before the first client, or one that belongs to a client. -/
inductive Label (ι : Type)
  | idle
  | client (i : ι) (label : Channels.Label)

/-- The step accepts a client. -/
def Accepts : Channels.Label → Prop
  | .thread (.accept _ _) => True
  | _ => False

inductive Step (codec : Codec) (network : Network ι) : State ι α → Label ι → State ι α → Prop
  | idle {state : State ι α} {thread : ListenThread.State} (hnone : state.current = none)
      (hthread : ListenThread.Step codec state.thread .tau thread) :
      Step codec network state .idle { state with thread }
  | accept {state : State ι α} {i : ι} {thread : ListenThread.State}
      (hnew : (state.peers i).accepted = false)
      (hthread : ListenThread.Step codec state.thread
        (.accept (some network.listening) (some (network.socket i))) thread) :
      Step codec network state
        (.client i (.thread (.accept (some network.listening) (some (network.socket i)))))
        { peers := Function.update state.peers i { state.peers i with accepted := true }
          current := some i
          thread }
  | client {state : State ι α} {i : ι} {label : Channels.Label} {next : Channels.State α}
      (hstep : Channels.Step codec (network.setup i) (state.view network i) label next)
      (hlabel : ¬ Accepts label) :
      Step codec network state (.client i label)
        { state with
          peers := Function.update state.peers i (Peer.of next)
          thread := if state.current = some i then next.thread else state.thread }

/-- The clients have been started, and so has the thread. -/
def start (network : Network ι) (clients : ι → Program Tcp α) : State ι α where
  peers i := ⟨clients i, [], true, [], [], [], false⟩
  current := none
  thread := .start network.listening

def machine (codec : Codec) (network : Network ι) (clients : ι → Program Tcp α) :
    Machine (State ι α) (Label ι) where
  start state := state = start network clients
  step := Step codec network

/-! ## What a run has done -/

/-- The log of one client. -/
def noteFor (i : ι) (log : Log) : Label ι → Log
  | .idle => log
  | .client j label => if j = i then log.note label else log

def logOf (i : ι) (labels : List (Label ι)) : Log := labels.foldl (noteFor i) .empty

@[simp]
theorem logOf_concat (i : ι) (labels : List (Label ι)) (label : Label ι) :
    logOf i (labels ++ [label]) = noteFor i (logOf i labels) label := by
  simp [logOf]

/-- The clients in the order in which they have been accepted. -/
def noteOrder (order : List ι) : Label ι → List ι
  | .client i (.thread (.accept _ _)) => order ++ [i]
  | _ => order

def orderOf (labels : List (Label ι)) : List ι := labels.foldl noteOrder []

/-- All runs of the handler, the latest last. -/
def noteHandled (handled : List Handled) : Label ι → List Handled
  | .client _ (.thread label) => recordHandled handled label
  | _ => handled

def handledOf (labels : List (Label ι)) : List Handled := labels.foldl noteHandled []

omit [DecidableEq ι] in
@[simp]
theorem orderOf_concat (labels : List (Label ι)) (label : Label ι) :
    orderOf (labels ++ [label]) = noteOrder (orderOf labels) label := by
  simp [orderOf]

omit [DecidableEq ι] in
@[simp]
theorem handledOf_concat (labels : List (Label ι)) (label : Label ι) :
    handledOf (labels ++ [label]) = noteHandled (handledOf labels) label := by
  simp [handledOf]

/-! ## The views -/

section Views

variable {codec : Codec} {network : Network ι} {state : State ι α} {i : ι}

theorem threadOf_current (h : state.current = some i) : state.threadOf network i = state.thread :=
  if_pos h

theorem threadOf_other (h : state.current ≠ some i) :
    state.threadOf network i = waiting network.listening := if_neg h

omit [DecidableEq ι] in
/-- A thread in `accept` does nothing else. -/
theorem accept_of_accepting {thread thread' : ListenThread.State} {label : ListenThread.Label}
    {socket : Win32.Socket} (hstep : ListenThread.Step codec thread label thread')
    (hpoint : thread.point = .accepting socket) : ∃ newClient, label = .accept socket newClient := by
  cases hstep with
  | accepted h | notAccepted h =>
    rw [hpoint] at h
    cases h
    exact ⟨_, rfl⟩
  | _ => simp_all

omit [DecidableEq ι] in
/-- Beside a thread in `accept`, only the client moves. -/
theorem thread_eq_of_accepting {setup : Setup} {view next : Channels.State α} {socket : Win32.Socket}
    {label : Channels.Label} (hstep : Channels.Step codec setup view label next)
    (hpoint : view.thread.point = .accepting socket) (hlabel : ¬ Accepts label) :
    next.thread = view.thread ∧ ∀ inner, label ≠ .thread inner := by
  have hnever {inner : ListenThread.Label} {thread' : ListenThread.State}
      (hthread : ListenThread.Step codec view.thread inner thread')
      (hinner : ¬ Accepts (.thread inner)) : False := by
    obtain ⟨newClient, rfl⟩ := accept_of_accepting hthread hpoint
    exact hinner trivial
  cases hstep with
  | write | written | read | readDone | close | queue => exact ⟨rfl, fun _ ↦ Channels.Label.noConfusion⟩
  | accept _ hthread | recv _ _ hthread | recvEnd _ _ hthread | recvError _ hthread | sent hthread
  | sentAfterClose _ hthread | internal hthread => exact (hnever hthread hlabel).elim

/-- A step of a client changes its own view and no other. -/
theorem view_client {label : Channels.Label} {next : Channels.State α}
    (hstep : Channels.Step codec (network.setup i) (state.view network i) label next)
    (hlabel : ¬ Accepts label) (j : ι) :
    State.view { state with
      peers := Function.update state.peers i (Peer.of next)
      thread := if state.current = some i then next.thread else state.thread } network j =
        if j = i then next else state.view network j := by
  by_cases hcurrent : state.current = some i
  · obtain rfl | hj := eq_or_ne j i
    · simp [State.view, State.threadOf, hcurrent]
    · have hother : i ≠ j := hj.symm
      simp [State.view, State.threadOf, hcurrent, hj, hother]
  · have hwaiting : (state.view network i).thread = waiting network.listening :=
      threadOf_other hcurrent
    have hpoint : (state.view network i).thread.point = .accepting (some network.listening) := by
      rw [hwaiting]
      rfl
    have hnext := (thread_eq_of_accepting hstep hpoint hlabel).1.trans hwaiting
    obtain rfl | hj := eq_or_ne j i
    · simp only [State.view, State.threadOf, if_neg hcurrent, Function.update_self, if_true]
      rw [← hnext, Peer.of_beside_thread]
    · simp [State.view, State.threadOf, hcurrent, hj]

theorem view_accept (thread : ListenThread.State) (j : ι) :
    State.view ⟨Function.update state.peers i { state.peers i with accepted := true }, some i, thread⟩
        network j =
      if j = i then ({ state.peers i with accepted := true } : Peer α).beside thread
      else (state.peers j).beside (waiting network.listening) := by
  obtain rfl | hj := eq_or_ne j i
  · simp [State.view, State.threadOf]
  · have hother : i ≠ j := hj.symm
    simp [State.view, State.threadOf, hj, hother]

end Views

/-! ## The server's own state -/

section Server

variable {codec : Codec} {setup : Setup} {plan : Plan} {view : Channels.State α} {log : Log}

omit [DecidableEq ι] in
/-- What the handler keeps between two messages is of no account for the two sides. -/
theorem inStep_with_server (h : InStep codec setup plan view log)
    (server : Handling.WindowCasterServer) :
    InStep codec setup plan { view with thread := { view.thread with server } } log where
  client := h.client
  closed := h.closed
  upstream := h.upstream
  downstream := h.downstream
  server := ⟨h.server.isolated, h.server.opened, h.server.listening, h.server.inside,
    h.server.delivered, h.server.answered, h.server.accounts⟩
  received := h.received

omit [DecidableEq ι] in
/-- Between two clients the thread keeps nothing but the handler's state. -/
theorem thread_eq_waiting (h : InStep codec setup plan view log) {socket : Win32.Socket}
    (hpoint : view.thread.point = .accepting socket) :
    view.thread = { waiting setup.listening with server := view.thread.server } := by
  obtain ⟨hrunning, hidle⟩ := h.server.isolated
  obtain ⟨hserverSocket, hlistening⟩ := h.server.listening
  obtain rfl := hlistening socket hpoint
  rw [hpoint] at hidle
  obtain ⟨hclient, hpending, -⟩ := hidle
  calc
    _ = (⟨view.thread.running, view.thread.serverSocket, view.thread.clientSocket,
      view.thread.point, view.thread.pending, view.thread.server⟩ : ListenThread.State) := rfl
    _ = _ := by rw [hrunning, hserverSocket, hclient, hpoint, hpending, waiting]

end Server

/-- The server handles one message after the other, whichever clients they come from. -/
theorem run_handledOf {codec : Codec} {network : Network ι} {clients : ι → Program Tcp α}
    {labels : List (Label ι)} {state : State ι α}
    (hrun : (machine codec network clients).Run labels state) :
    (handlings codec).Run (handledOf labels) state.thread.server := by
  refine hrun.invariant
    (fun labels state ↦ (handlings codec).Run (handledOf labels) state.thread.server) ?_ ?_
  · rintro _ rfl
    exact .start rfl
  intro labels state label next hinv hstep
  rw [handledOf_concat]
  cases hstep with
  | idle _ hthread | accept _ hthread => exact ListenThread.run_recordHandled hthread hinv
  | @client i label next hstep hlabel =>
    by_cases hcurrent : state.current = some i
    · have hview : (state.view network i).thread = state.thread := threadOf_current hcurrent
      rw [← hview] at hinv
      simp only [if_pos hcurrent]
      cases hstep with
      | write | written | read | readDone | close | queue => exact hinv
      | accept _ hthread | recv _ _ hthread | recvEnd _ _ hthread | recvError _ hthread
      | sent hthread | sentAfterClose _ hthread | internal hthread =>
        exact ListenThread.run_recordHandled hthread hinv
    · have hpoint : (state.view network i).thread.point = .accepting (some network.listening) := by
        rw [show (state.view network i).thread = waiting network.listening from
          threadOf_other hcurrent]
        rfl
      have hother := (thread_eq_of_accepting hstep hpoint hlabel).2
      simp only [if_neg hcurrent]
      cases label with
      | thread inner => exact absurd rfl (hother inner)
      | _ => exact hinv

/-! ## The invariant -/

/-- Every client is in step with the thread as it knows it. The clients that have been accepted are
served one after the other: all but the last one have left. -/
structure Invariant (codec : Codec) (network : Network ι) (plans : ι → Plan) (state : State ι α)
    (labels : List (Label ι)) : Prop where
  inStep : ∀ i, InStep codec (network.setup i) (plans i) (state.view network i) (logOf i labels)
  early : state.current = none → state.thread = .start network.listening ∨
    state.thread = (ListenThread.State.start network.listening).goto .loadServerSocket ∨
      state.thread = waiting network.listening
  last : (orderOf labels).getLast? = state.current
  nodup : (orderOf labels).Nodup
  mem_order : ∀ i, i ∈ orderOf labels ↔ (state.peers i).accepted = true
  left : ∀ i, (state.peers i).accepted = true → state.current ≠ some i →
    (state.peers i).clientOpen = false
  handled : handledOf labels = (orderOf labels).flatMap fun i ↦ (logOf i labels).handled

omit [DecidableEq ι] in
/-- A client that is beside a thread in `accept` has not been accepted yet or has left. -/
theorem closed_of_accepting {codec : Codec} {setup : Setup} {plan : Plan}
    {view : Channels.State α} {log : Log} (h : InStep codec setup plan view log)
    {socket : Win32.Socket} (hpoint : view.thread.point = .accepting socket)
    (haccepted : view.accepted = true) : view.clientOpen = false := by
  apply Bool.of_not_eq_true
  intro hopen
  have hinside := h.server.inside hopen haccepted
  rw [hpoint] at hinside
  exact hinside trivial

omit [DecidableEq ι] in
/-- No handler has run for a client that has not been accepted. -/
theorem handled_eq_nil {codec : Codec} {setup : Setup} {plan : Plan} {view : Channels.State α}
    {log : Log} (h : InStep codec setup plan view log) (hnew : view.accepted = false) :
    log.handled = [] := by
  have hdelivered := h.server.delivered
  obtain ⟨-, hnone⟩ | ⟨connection, haccepted, -, -⟩ := h.server.connections_eq
  · rw [hnone, List.flatMap_nil] at hdelivered
    exact List.map_eq_nil_iff.1 (List.append_eq_nil_iff.1 hdelivered.symm).1
  · rw [hnew] at haccepted
    cases haccepted

omit [DecidableEq ι] in
/-- Before the first client. -/
theorem inStep_waiting {codec : Codec} {setup : Setup} {plan : Plan} (hcodec : codec.Lawful)
    (hplanned : Planned codec plan) {client : Program Tcp α}
    (hscript : Client.Session.Script codec .request client (plan.map Prod.fst)) :
    InStep codec setup plan ⟨client, [], true, [], [], [], false, waiting setup.listening⟩ .empty := by
  have hrun : (Channels.machine codec setup client).Run [.thread .tau, .thread .tau]
      ⟨client, [], true, [], [], [], false, waiting setup.listening⟩ :=
    (Machine.Run.start rfl).path <| .cons (.internal (.outerTest rfl) trivial) <|
      .cons (.internal (.loadServerSocket rfl) trivial) .nil
  exact inStep_run hcodec hplanned hscript hrun

section Steps

variable {codec : Codec} {network : Network ι} {plans : ι → Plan} {state : State ι α}
  {labels : List (Label ι)}

theorem invariant_idle (h : Invariant codec network plans state labels)
    {thread : ListenThread.State} (hnone : state.current = none)
    (hthread : ListenThread.Step codec state.thread .tau thread) :
    Invariant codec network plans { state with thread } (labels ++ [.idle]) where
  inStep i := by
    have hview := h.inStep i
    rw [State.view, threadOf_other (by simp [hnone])] at hview ⊢
    rwa [logOf_concat]
  early _ := by
    obtain hat | hat | hat := h.early hnone
    · rw [hat] at hthread
      cases hthread with
      | outerTest => exact .inr (.inl rfl)
      | _ => simp_all [ListenThread.State.start]
    · rw [hat] at hthread
      cases hthread with
      | loadServerSocket => exact .inr (.inr rfl)
      | _ => simp_all
    · rw [hat] at hthread
      obtain ⟨newClient, haccept⟩ := accept_of_accepting hthread rfl
      cases haccept
  last := by
    rw [orderOf_concat]
    exact h.last
  nodup := by
    rw [orderOf_concat]
    exact h.nodup
  mem_order i := by
    rw [orderOf_concat]
    exact h.mem_order i
  left := h.left
  handled := by
    simp only [handledOf_concat, orderOf_concat, logOf_concat]
    exact h.handled

theorem invariant_accept (hcodec : codec.Lawful) (hplanned : ∀ i, Planned codec (plans i))
    (h : Invariant codec network plans state labels) {i : ι} {thread : ListenThread.State}
    (hnew : (state.peers i).accepted = false)
    (hthread : ListenThread.Step codec state.thread
      (.accept (some network.listening) (some (network.socket i))) thread) :
    Invariant codec network plans
      { peers := Function.update state.peers i { state.peers i with accepted := true }
        current := some i
        thread }
      (labels ++
        [.client i (.thread (.accept (some network.listening) (some (network.socket i))))]) := by
  obtain ⟨hpoint, hgoto⟩ : state.thread.point = .accepting (some network.listening) ∧
      thread = state.thread.goto (.testExisting (network.socket i)) := by
    cases hthread with
    | accepted hat => exact ⟨hat, rfl⟩
  -- the thread is the one that all clients know, up to the state of the handler
  have hwaiting : state.thread =
      { waiting network.listening with server := state.thread.server } := by
    cases hcurrent : state.current with
    | none =>
      obtain hat | hat | hat := h.early hcurrent
      · simp [hat, ListenThread.State.start] at hpoint
      · simp [hat] at hpoint
      · rw [hat]
    | some j =>
      have hview := h.inStep j
      rw [State.view, threadOf_current hcurrent] at hview
      exact thread_eq_waiting hview hpoint
  have hclosed : ∀ j, (state.peers j).accepted = true → (state.peers j).clientOpen = false := by
    intro j haccepted
    have hat : (state.view network j).thread.point = .accepting (some network.listening) := by
      by_cases hcurrent : state.current = some j
      · rwa [State.view, threadOf_current hcurrent]
      · rw [State.view, threadOf_other hcurrent]
        rfl
    exact closed_of_accepting (h.inStep j) hat haccepted
  have hnotMem : i ∉ orderOf labels := by
    rw [h.mem_order, hnew]
    exact Bool.false_ne_true
  have hcurrent : state.current ≠ some i := by
    rw [← h.last]
    intro hlast
    exact hnotMem (List.mem_of_getLast? hlast)
  constructor
  · intro j
    have hview := h.inStep j
    rw [view_accept, logOf_concat]
    obtain rfl | hj := eq_or_ne j i
    · rw [State.view, threadOf_other hcurrent] at hview
      have hstep := inStep_step hcodec (hplanned j) hview (.accept hnew (.accepted rfl))
      have hserver := inStep_with_server hstep state.thread.server
      rw [if_pos rfl, noteFor, if_pos rfl, hgoto, hwaiting]
      exact hserver
    · rw [if_neg hj, noteFor, if_neg hj.symm]
      by_cases hj' : state.current = some j
      · rw [State.view, threadOf_current hj', hwaiting] at hview
        exact inStep_with_server hview .new
      · rwa [State.view, threadOf_other hj'] at hview
  · intro hnone
    cases hnone
  · rw [orderOf_concat, noteOrder, List.getLast?_concat]
  · rw [orderOf_concat, noteOrder, List.nodup_append]
    refine ⟨h.nodup, by simp, ?_⟩
    rintro j hj _ hi rfl
    obtain rfl := List.mem_singleton.1 hi
    exact hnotMem hj
  · intro j
    rw [orderOf_concat, noteOrder, List.mem_append, List.mem_singleton, h.mem_order]
    obtain rfl | hj := eq_or_ne j i
    · simp
    · simp [hj]
  · intro j haccepted hother
    have hj : j ≠ i := by
      rintro rfl
      exact hother rfl
    simp only [Function.update_of_ne hj] at haccepted ⊢
    exact hclosed j haccepted
  · have hothers : ∀ j ∈ orderOf labels,
        (logOf j (labels ++ [.client i (.thread (.accept (some network.listening)
          (some (network.socket i))))])).handled = (logOf j labels).handled := by
      intro j hj
      have hij : i ≠ j := by
        rintro rfl
        exact hnotMem hj
      rw [logOf_concat, noteFor, if_neg hij]
    have hnone : (logOf i labels).handled = [] := handled_eq_nil (h.inStep i) hnew
    rw [handledOf_concat, orderOf_concat, noteOrder, List.flatMap_append,
      List.flatMap_congr hothers, ← h.handled]
    simp [noteHandled, recordHandled, noteFor, Log.note, hnone]

omit [DecidableEq ι] in
/-- Accepting is the only step that lets a client in, and no step opens its end again. -/
theorem accepted_of_step {setup : Setup} {view next : Channels.State α} {label : Channels.Label}
    (hstep : Channels.Step codec setup view label next) (hlabel : ¬ Accepts label) :
    next.accepted = view.accepted ∧ (view.clientOpen = false → next.clientOpen = false) := by
  cases hstep with
  | accept => exact absurd trivial hlabel
  | close => exact ⟨rfl, fun _ ↦ rfl⟩
  | _ => exact ⟨rfl, id⟩

omit [DecidableEq ι] in
theorem noteOrder_of_not_accepts (order : List ι) (i : ι) {label : Channels.Label}
    (hlabel : ¬ Accepts label) : noteOrder order (.client i label) = order := by
  unfold noteOrder
  split
  · next h =>
    cases h
    exact absurd trivial hlabel
  · rfl

omit [DecidableEq ι] in
theorem handled_noteReturned (log : Log) (event : Event Tcp) :
    (log.noteReturned event).handled = log.handled := by
  unfold Log.noteReturned
  split <;> rfl

theorem handled_client (h : Invariant codec network plans state labels) {i : ι}
    {label : Channels.Label} {next : Channels.State α}
    (hstep : Channels.Step codec (network.setup i) (state.view network i) label next)
    (hlabel : ¬ Accepts label) : noteHandled (handledOf labels) (.client i label) =
      (orderOf labels).flatMap fun j ↦ (noteFor j (logOf j labels) (.client i label)).handled := by
  match label, hstep, hlabel with
  | .thread inner, hstep, hlabel =>
    have hcurrent : state.current = some i := by
      by_contra hother
      have hpoint : (state.view network i).thread.point = .accepting (some network.listening) := by
        rw [State.view, threadOf_other hother]
        rfl
      exact (thread_eq_of_accepting hstep hpoint hlabel).2 inner rfl
    obtain ⟨past, horder⟩ := List.getLast?_eq_some_iff.1 (h.last.trans hcurrent)
    have hnodup := h.nodup
    rw [horder, List.nodup_append] at hnodup
    have hpast : ∀ j ∈ past, (noteFor j (logOf j labels) (.client i (.thread inner))).handled =
        (logOf j labels).handled := by
      intro j hj
      rw [noteFor, if_neg (hnodup.2.2 j hj i (by simp)).symm]
    calc
      _ = recordHandled ((past ++ [i]).flatMap fun j ↦ (logOf j labels).handled) inner := by
        rw [noteHandled, h.handled, horder]
      _ = past.flatMap (fun j ↦ (logOf j labels).handled) ++
          recordHandled (logOf i labels).handled inner := by
        rw [List.flatMap_append, List.flatMap_singleton, recordHandled_append]
      _ = _ := by
        rw [horder, List.flatMap_append, List.flatMap_singleton, List.flatMap_congr hpast, noteFor,
          if_pos rfl, Log.note]
  | .write _, _, _ | .read _, _, _ | .close, _, _ | .queue _, _, _ | .returned _, _, _ =>
    rw [noteHandled, h.handled]
    · apply List.flatMap_congr
      intro j _
      rw [noteFor]
      split
      · simp only [Log.note, handled_noteReturned]
      · rfl
    · simp

theorem invariant_client (hcodec : codec.Lawful) (hplanned : ∀ i, Planned codec (plans i))
    (h : Invariant codec network plans state labels) {i : ι} {label : Channels.Label}
    {next : Channels.State α}
    (hstep : Channels.Step codec (network.setup i) (state.view network i) label next)
    (hlabel : ¬ Accepts label) :
    Invariant codec network plans
      { state with
        peers := Function.update state.peers i (Peer.of next)
        thread := if state.current = some i then next.thread else state.thread }
      (labels ++ [.client i label]) := by
  obtain ⟨haccepted, hclosed⟩ := accepted_of_step hstep hlabel
  constructor
  · intro j
    rw [view_client hstep hlabel, logOf_concat, noteFor]
    obtain rfl | hj := eq_or_ne j i
    · rw [if_pos rfl, if_pos rfl]
      exact inStep_step hcodec (hplanned j) (h.inStep j) hstep
    · rw [if_neg hj, if_neg hj.symm]
      exact h.inStep j
  · intro hnone
    have hother : state.current ≠ some i := by simp_all
    rw [if_neg hother]
    exact h.early hnone
  · rw [orderOf_concat, noteOrder_of_not_accepts _ _ hlabel]
    exact h.last
  · rw [orderOf_concat, noteOrder_of_not_accepts _ _ hlabel]
    exact h.nodup
  · intro j
    rw [orderOf_concat, noteOrder_of_not_accepts _ _ hlabel, h.mem_order]
    obtain rfl | hj := eq_or_ne j i
    · simp only [Function.update_self]
      exact Eq.congr haccepted.symm rfl
    · simp only [Function.update_of_ne hj]
  · intro j
    obtain rfl | hj := eq_or_ne j i
    · simp only [Function.update_self]
      intro hnext hother
      exact hclosed (h.left j (haccepted.symm.trans hnext) hother)
    · simp only [Function.update_of_ne hj]
      exact h.left j
  · simp only [handledOf_concat, orderOf_concat, logOf_concat, noteOrder_of_not_accepts _ _ hlabel]
    exact handled_client h hstep hlabel

end Steps

/-- Every step of any of the clients or of the thread keeps all clients in step. -/
theorem invariant_run {codec : Codec} {network : Network ι} {plans : ι → Plan}
    (hcodec : codec.Lawful) (hplanned : ∀ i, Planned codec (plans i)) {clients : ι → Program Tcp α}
    (hscript : ∀ i, Client.Session.Script codec .request (clients i) ((plans i).map Prod.fst))
    {labels : List (Label ι)} {state : State ι α}
    (h : (machine codec network clients).Run labels state) :
    Invariant codec network plans state labels := by
  apply h.invariant fun labels state ↦ Invariant codec network plans state labels
  · rintro state rfl
    constructor
    · intro i
      exact inStep_waiting hcodec (hplanned i) (hscript i)
    · intro _
      exact .inl rfl
    · rfl
    · exact List.nodup_nil
    · simp [orderOf, start]
    · simp [start]
    · rfl
  · intro labels state label state' hinv hstep
    cases hstep with
    | idle hnone hthread => exact invariant_idle hinv hnone hthread
    | accept hnew hthread => exact invariant_accept hcodec hplanned hinv hnew hthread
    | client hstep hlabel => exact invariant_client hcodec hplanned hinv hstep hlabel

/-! ## Every client has the answers to its own requests -/

omit [DecidableEq ι] in
/-- The plans of clients that carry out these commands. -/
theorem exists_plans {Packet Frame : Type} {codec : Codec}
    (commands : ι → Client.Main.Command Packet Frame)
    (hsize : ∀ i, ∀ request ∈ Client.Session.requests codec (commands i), ∀ message,
      codec.writeToBytes request = some message → message.length < 2 ^ 31) :
    ∃ plans : ι → Plan, ∀ i, Planned codec (plans i) ∧
      (plans i).map Prod.fst = Client.Session.requests codec (commands i) := by
  have hwrite (i : ι) : ∀ request ∈ Client.Session.requests codec (commands i),
      ∃ message, codec.writeToBytes request = some message :=
    fun _ ↦ Client.Session.write_of_mem_requests
  choose plans hplanned hrequests _ using fun i ↦ Progress.exists_plan (hwrite i) (hsize i)
  exact ⟨plans, fun i ↦ ⟨hplanned i, hrequests i⟩⟩

/-- Clients with the requests of these commands have plans with which the invariant holds. -/
theorem exists_invariant {Packet Frame : Type} {codec : Codec} (hcodec : codec.Lawful)
    {network : Network ι} {commands : ι → Client.Main.Command Packet Frame}
    (hsize : ∀ i, ∀ request ∈ Client.Session.requests codec (commands i), ∀ message,
      codec.writeToBytes request = some message → message.length < 2 ^ 31)
    {clients : ι → Program Tcp α}
    (hscript : ∀ i, Client.Session.Script codec .request (clients i)
      (Client.Session.requests codec (commands i)))
    {labels : List (Label ι)} {state : State ι α}
    (hrun : (machine codec network clients).Run labels state) :
    ∃ plans : ι → Plan,
      (∀ i, Planned codec (plans i) ∧
        (plans i).map Prod.fst = Client.Session.requests codec (commands i)) ∧
      Invariant codec network plans state labels := by
  obtain ⟨plans, hplans⟩ := exists_plans commands hsize
  refine ⟨plans, hplans, invariant_run hcodec (fun i ↦ (hplans i).1) (fun i ↦ ?_) hrun⟩
  rw [(hplans i).2]
  exact hscript i

end WindowCaster.System.Clients
