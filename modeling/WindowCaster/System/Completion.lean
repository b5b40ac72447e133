import Mathlib.Algebra.Order.BigOperators.Group.Finset
import WindowCaster.Foundation.Termination
import WindowCaster.System.Clients

/-!
# Every session comes to its end

A call of a client moves a bounded number of bytes, and what the thread has to send is bounded by
the messages in the bytes that it has been sent. So between two answers to the clients only finitely
many steps are possible, and a client has finitely many calls to make. Together with the absence of
deadlocks this means that every order of the steps serves every client, whatever the others do.
-/

namespace WindowCaster.System.Completion

open Foundation.Interaction Foundation.Termination Foundation.Text Foundation.Transition
open Protocol.Readers Client.Network Server Channels Conversation Service Lockstep Progress Clients
open Server.ListenThread (Point)
open Server.Sending

variable {α : Type}

/-! ## What is left to do -/

/-- The bytes that the client's current call is still going to write. -/
def unwritten : Program Tcp α → Bytes → ℕ
  | .ask (.writeAll bytes) _, moved => bytes.length - moved.length
  | _, _ => 0

/-- The bytes that the client's current call is still going to read. -/
def unread : Program Tcp α → Bytes → ℕ
  | .ask (.readExact length) _, moved => length - moved.length
  | _, _ => 0

/-- The bytes of the current response that have not been put on the channel. -/
def unsent : Point → Bytes → ℕ
  | .testForSend message, _ | .loadForLength message, _ => 4 + message.length
  | .sendingLength message _, queued => 4 - queued.length + message.length
  | .loadForContent message, _ => message.length
  | .sendingContent message _, queued => message.length - queued.length
  | _, _ => 0

/-- How far the thread is from `accept`, if it sends and receives nothing more. -/
def distance : Point → ℕ
  | .testForSend _ => 16
  | .loadForLength _ => 15
  | .sendingLength _ _ => 14
  | .loadForContent _ => 13
  | .sendingContent _ _ => 12
  | .framing => 11
  | .testExisting _ => 14
  | .loadExisting _ => 13
  | .closingExisting _ _ => 12
  | .assign _ => 11
  | .innerTestRunning => 10
  | .innerTestClient => 9
  | .loadForRecv => 8
  | .receiving _ => 7
  | .loadForClose => 6
  | .closing _ => 5
  | .reset => 4
  | .clear => 3
  | .acceptFailed => 3
  | .outerTest => 2
  | .loadServerSocket => 1
  | .accepting _ | .handling _ | .returned | .undefined => 0

/-- The bytes in which the thread can still find messages, and the message it is handling. -/
def work (state : Channels.State α) : ℕ :=
  unwritten state.client state.moved + state.up.length + state.thread.pending.length +
    (current state.thread.point).length

/-- A byte that the thread receives may take it back to the beginning of its inner loop. -/
def effort (state : Channels.State α) : ℕ :=
  16 * unwritten state.client state.moved + unread state.client state.moved + 8 * state.up.length +
    unsent state.thread.point state.queued + distance state.thread.point

/-- The ways in which a step goes down. -/
inductive Descends (state' state : Channels.State α) : Prop
  | client (hdown : Prod.Lex Program.Continues (· < ·) (state'.client, state'.clientOpen)
      (state.client, state.clientOpen)) (haccepted : state'.accepted = state.accepted)
  | work (hclient : (state'.client, state'.clientOpen) = (state.client, state.clientOpen))
      (haccepted : state'.accepted = state.accepted) (hwork : work state' < work state)
  | effort (hclient : (state'.client, state'.clientOpen) = (state.client, state.clientOpen))
      (haccepted : state'.accepted = state.accepted) (hwork : work state' = work state)
      (heffort : effort state' < effort state)

section Thread

variable {codec : Codec} {thread thread' : ListenThread.State} {label : ListenThread.Label}

/-- A step of the thread that neither accepts nor touches a channel takes a message out of the bytes
that are pending, or shortens the way of the thread. -/
theorem internal_descends (hinternal : Internal label)
    (hstep : ListenThread.Step codec thread label thread') (queued : Bytes) :
    thread'.pending.length + (current thread'.point).length <
        thread.pending.length + (current thread.point).length ∨
      thread'.pending.length + (current thread'.point).length =
          thread.pending.length + (current thread.point).length ∧
        unsent thread'.point queued + distance thread'.point <
          unsent thread.point queued + distance thread.point := by
  cases hstep with
  | accepted | notAccepted | received | disconnected | receiveFailed | lengthSent | lengthFailed
  | contentSent => exact hinternal.elim
  | deliver hat hpass =>
    left
    obtain ⟨hlength, -, -, rfl⟩ := Framing.framingPass_eq_message.1 hpass
    simp only [ListenThread.State.goto_point, hat, current, List.length_drop, List.length_nil,
      List.length_singleton]
    omega
  | noResponse hat | response hat =>
    left
    simp [hat, current]
  | outerTest hat | testExisting hat | innerTestRunning hat | innerTestClient hat
  | testForSend hat =>
    right
    simp only [ListenThread.State.goto_point, ListenThread.State.goto_pending, hat]
    split <;> simp [current, unsent, distance]
  | loadForLength hat =>
    right
    simp only [ListenThread.State.goto_point, ListenThread.State.goto_pending, hat, current, unsent,
      distance, true_and]
    omega
  | loadForContent hat =>
    right
    simp only [ListenThread.State.goto_point, ListenThread.State.goto_pending, hat, current, unsent,
      distance, true_and]
    omega
  | clear hat =>
    cases hpending : thread.pending with
    | nil =>
      right
      simp [hat, current, unsent, distance]
    | cons byte bytes =>
      left
      simp [hat, current]
  | loadServerSocket hat | acceptFailed hat | loadExisting hat | closeExisting hat | assign hat
  | loadForRecv hat | needMore hat _ | outOfRange hat _ | loadForClose hat | close hat
  | reset hat =>
    right
    simp [hat, current, unsent, distance]

/-- A call of `send` that returns brings the thread nearer to `accept`. -/
theorem send_descends {socket : Win32.Socket} {buffer : Bytes} {length : Int32}
    {bytesSent : Option ℕ} (queued : Bytes)
    (hstep : ListenThread.Step codec thread (.send socket buffer length bytesSent) thread') :
    thread'.pending.length + (current thread'.point).length =
        thread.pending.length + (current thread.point).length ∧
      unsent thread'.point [] + distance thread'.point <
        unsent thread.point queued + distance thread.point := by
  cases hstep with
  | lengthSent hat | lengthFailed hat | contentSent hat =>
    simp only [ListenThread.State.goto_point, ListenThread.State.goto_pending, hat, current, unsent,
      distance, true_and]
    omega

/-- A call of `recv` without data ends the connection. -/
theorem recv_descends {socket : Win32.Socket} {outcome : Option Bytes}
    (hnothing : outcome = none ∨ outcome = some []) (queued : Bytes)
    (hstep : ListenThread.Step codec thread (.recv socket outcome) thread') :
    thread'.pending.length + (current thread'.point).length =
        thread.pending.length + (current thread.point).length ∧
      unsent thread'.point queued + distance thread'.point <
        unsent thread.point queued + distance thread.point := by
  cases hstep with
  | received hat hchunk =>
    obtain hnone | hnone := hnothing
    · cases hnone
    · obtain rfl := Option.some.inj hnone
      simp [Framing.IsChunk] at hchunk
  | disconnected hat | receiveFailed hat => simp [hat, current, unsent, distance]

end Thread

/-- Every step that is not an `accept` goes down. -/
theorem descends {codec : Codec} {setup : Setup} {state state' : Channels.State α}
    {label : Channels.Label} (hstep : Channels.Step codec setup state label state')
    (hlabel : ¬ Accepts label) : Descends state' state := by
  cases hstep with
  | write hclient hchunk hpart hroom =>
    have hlength := hpart.length_le
    have hmore := List.length_pos_iff.2 hchunk
    rw [List.length_append] at hlength
    refine .effort rfl rfl ?_ ?_
    · simp only [work, hclient, unwritten, List.length_append]
      omega
    · simp only [effort, hclient, unwritten, unread, List.length_append]
      omega
  | written hclient =>
    refine .client (.left _ _ ?_) rfl
    rw [hclient]
    exact ⟨_, _, true, rfl, rfl⟩
  | read hclient hchunk hdown hpart =>
    have hmore := List.length_pos_iff.2 hchunk
    refine .effort rfl rfl ?_ ?_
    · simp only [work, hclient, unwritten]
    · simp only [effort, hclient, unwritten, unread, List.length_append]
      omega
  | readDone hclient hall =>
    refine .client (.left _ _ ?_) rfl
    rw [hclient]
    exact ⟨_, _, some ⟨state.moved, hall⟩, rfl, rfl⟩
  | close hclient hopen =>
    refine .client ?_ rfl
    rw [hopen]
    exact .right _ Bool.false_lt_true
  | accept => exact absurd trivial hlabel
  | recv hchunk hup hthread =>
    have hmore := List.length_pos_iff.2 hchunk
    cases hthread with
    | received hat _ =>
      refine .effort rfl rfl ?_ ?_
      · simp only [work, hat, hup, current, ListenThread.State.goto_point, List.length_append]
        omega
      · simp only [effort, hat, hup, unsent, distance, ListenThread.State.goto_point,
          List.length_append]
        omega
    | disconnected => exact absurd rfl hchunk
  | recvEnd _ _ hthread =>
    obtain ⟨hwork, heffort⟩ := recv_descends (.inr rfl) state.queued hthread
    refine .effort rfl rfl ?_ ?_
    · simp only [work]
      omega
    · simp only [effort]
      omega
  | recvError _ hthread =>
    obtain ⟨hwork, heffort⟩ := recv_descends (.inl rfl) state.queued hthread
    refine .effort rfl rfl ?_ ?_
    · simp only [work]
      omega
    · simp only [effort]
      omega
  | queue hsending hchunk hpart hroom =>
    have hlength := hpart.length_le
    have hmore := List.length_pos_iff.2 hchunk
    rw [List.length_append] at hlength
    refine .effort rfl rfl rfl ?_
    cases hat : state.thread.point with
    | sendingLength message client =>
      rw [hat] at hsending
      obtain ⟨-, rfl⟩ := Prod.mk.inj (Option.some.inj hsending)
      rw [lenPrefix, Foundation.LengthFraming.length_le32] at hlength
      simp only [effort, hat, unsent, List.length_append]
      omega
    | sendingContent message client =>
      rw [hat] at hsending
      obtain ⟨-, rfl⟩ := Prod.mk.inj (Option.some.inj hsending)
      simp only [effort, hat, unsent, List.length_append]
      omega
    | _ =>
      rw [hat] at hsending
      cases hsending
  | sent hthread =>
    obtain ⟨hwork, heffort⟩ := send_descends state.queued hthread
    refine .effort rfl rfl ?_ ?_
    · simp only [work]
      omega
    · simp only [effort]
      omega
  | sentAfterClose _ hthread =>
    obtain ⟨hwork, heffort⟩ := send_descends state.queued hthread
    refine .effort rfl rfl ?_ ?_
    · simp only [work]
      omega
    · simp only [effort]
      omega
  | internal hthread hinternal =>
    obtain hwork | ⟨hwork, heffort⟩ := internal_descends hinternal hthread state.queued
    · refine .work rfl rfl ?_
      simp only [work]
      omega
    · refine .effort rfl rfl ?_ ?_
      · simp only [work]
        omega
      · simp only [effort]
        omega

/-! ## All clients together -/

section Together

variable {ι : Type} [DecidableEq ι] [Fintype ι] (network : Network ι)

/-- The calls that a client still has before it, and whether it has left. -/
def programs (state : Clients.State ι α) (i : ι) : Program Tcp α × Bool :=
  ((state.peers i).client, (state.peers i).clientOpen)

/-- The clients that have not been accepted. -/
def waitingClients (state : Clients.State ι α) : ℕ :=
  ∑ i, if (state.peers i).accepted then 0 else 1

/-- The work for all clients, and that of a thread without a client. -/
def totalWork (state : Clients.State ι α) : ℕ :=
  ∑ i, work (state.view network i) +
    if state.current = none then state.thread.pending.length + (current state.thread.point).length
    else 0

def totalEffort (state : Clients.State ι α) : ℕ :=
  ∑ i, effort (state.view network i) +
    if state.current = none then unsent state.thread.point [] + distance state.thread.point else 0

def rank (state : Clients.State ι α) : (ι → Program Tcp α × Bool) × ℕ × ℕ × ℕ :=
  (programs state, waitingClients state, totalWork network state, totalEffort network state)

/-- Programs first, then clients that wait, then work, then effort. -/
def Below : (ι → Program Tcp α × Bool) × ℕ × ℕ × ℕ → (ι → Program Tcp α × Bool) × ℕ × ℕ × ℕ → Prop :=
  Prod.Lex (OneDown (Prod.Lex Program.Continues (· < ·)))
    (Prod.Lex (· < ·) (Prod.Lex (· < ·) (· < ·)))

omit [DecidableEq ι] in
theorem wellFounded_below : WellFounded (Below (ι := ι) (α := α)) :=
  (wellFounded_oneDown (Program.wellFounded_continues.prod_lex wellFounded_lt)).prod_lex
    (wellFounded_lt.prod_lex (wellFounded_lt.prod_lex wellFounded_lt))

variable {network} {codec : Codec} {state : Clients.State ι α}

theorem below_idle {thread : ListenThread.State} (hnone : state.current = none)
    (hthread : ListenThread.Step codec state.thread .tau thread) :
    Below (rank network { state with thread }) (rank network state) := by
  have hviews (i : ι) : State.view { state with thread } network i = state.view network i := by
    rw [State.view, State.view, threadOf_other (by simp [hnone]), threadOf_other (by simp [hnone])]
  have hprograms : programs { state with thread } = programs state := rfl
  rw [rank, rank, hprograms]
  refine .right _ (.right _ ?_)
  simp only [totalWork, totalEffort, hviews, if_pos hnone]
  have htau : Internal .tau := trivial
  obtain hwork | ⟨hwork, heffort⟩ := internal_descends htau hthread []
  · exact .left _ _ (Nat.add_lt_add_left hwork _)
  · rw [hwork]
    exact .right _ (Nat.add_lt_add_left heffort _)

theorem below_accept {i : ι} (thread : ListenThread.State) (hnew : (state.peers i).accepted = false) :
    Below (rank network
      ⟨Function.update state.peers i { state.peers i with accepted := true }, some i, thread⟩)
      (rank network state) := by
  have hprograms : programs
      ⟨Function.update state.peers i { state.peers i with accepted := true }, some i, thread⟩ =
        programs state := by
    funext j
    obtain rfl | hj := eq_or_ne j i
    · simp [programs]
    · simp [programs, hj]
  rw [rank, rank, hprograms]
  refine .right _ (.left _ _ ?_)
  apply Finset.sum_lt_sum
  · intro j _
    obtain rfl | hj := eq_or_ne j i
    · simp
    · simp [hj]
  · exact ⟨i, Finset.mem_univ i, by simp [hnew]⟩

omit [DecidableEq ι] in
theorem sum_lt_sum_of_one {values' values : ι → ℕ} {i : ι} (hdown : values' i < values i)
    (hothers : ∀ j, j ≠ i → values' j = values j) : ∑ j, values' j < ∑ j, values j := by
  apply Finset.sum_lt_sum
  · intro j _
    obtain rfl | hj := eq_or_ne j i
    · exact hdown.le
    · exact (hothers j hj).le
  · exact ⟨i, Finset.mem_univ i, hdown⟩

theorem below_client {i : ι} {label : Channels.Label} {next : Channels.State α}
    (hstep : Channels.Step codec (network.setup i) (state.view network i) label next)
    (hlabel : ¬ Accepts label) :
    Below (rank network { state with
      peers := Function.update state.peers i (Peer.of next)
      thread := if state.current = some i then next.thread else state.thread })
      (rank network state) := by
  have hview := view_client hstep hlabel
  have hpeers {j : ι} (hj : j ≠ i) : Function.update state.peers i (Peer.of next) j = state.peers j :=
    Function.update_of_ne hj _ _
  have hidle (value : ListenThread.State → ℕ) :
      (if state.current = none then
        value (if state.current = some i then next.thread else state.thread) else 0) =
      if state.current = none then value state.thread else 0 := by
    by_cases hnone : state.current = none
    · rw [if_pos hnone, if_pos hnone, if_neg (by simp [hnone])]
    · rw [if_neg hnone, if_neg hnone]
  have hsum {value : Channels.State α → ℕ} (hdown : value next < value (state.view network i)) :
      ∑ j, value (if j = i then next else state.view network j) <
        ∑ j, value (state.view network j) := by
    apply sum_lt_sum_of_one
    · rwa [if_pos rfl]
    · intro j hj
      rw [if_neg hj]
  -- a step that leaves the client where it is leaves all clients where they are
  have hsame (hclient : (next.client, next.clientOpen) = programs state i)
      (haccepted : next.accepted = (state.peers i).accepted) :
      programs { state with
        peers := Function.update state.peers i (Peer.of next)
        thread := if state.current = some i then next.thread else state.thread } = programs state ∧
      waitingClients { state with
        peers := Function.update state.peers i (Peer.of next)
        thread := if state.current = some i then next.thread else state.thread } =
          waitingClients state := by
    constructor
    · funext j
      obtain rfl | hj := eq_or_ne j i
      · rw [← hclient, programs]
        simp only [Function.update_self]
        rfl
      · simp only [programs, hpeers hj]
    · apply Finset.sum_congr rfl
      intro j _
      obtain rfl | hj := eq_or_ne j i
      · simp only [Function.update_self]
        rw [← haccepted]
        rfl
      · simp only [hpeers hj]
  cases descends hstep hlabel with
  | client hdown haccepted =>
    refine .left _ _ ⟨i, ?_, fun j hj ↦ ?_⟩
    · simp only [programs, Function.update_self]
      exact hdown
    · simp only [programs, hpeers hj]
  | work hclient haccepted hwork =>
    obtain ⟨hprograms, hwaiting⟩ := hsame hclient haccepted
    rw [rank, rank, hprograms, hwaiting]
    refine .right _ (.right _ (.left _ _ ?_))
    simp only [totalWork, hview]
    rw [hidle fun thread ↦ thread.pending.length + (current thread.point).length]
    exact Nat.add_lt_add_right (hsum hwork) _
  | effort hclient haccepted hwork heffort =>
    obtain ⟨hprograms, hwaiting⟩ := hsame hclient haccepted
    have hwork' : ∑ j, work (if j = i then next else state.view network j) =
        ∑ j, work (state.view network j) := by
      apply Finset.sum_congr rfl
      intro j _
      obtain rfl | hj := eq_or_ne j i
      · rw [if_pos rfl, hwork]
      · rw [if_neg hj]
    rw [rank, rank, hprograms, hwaiting]
    simp only [totalWork, totalEffort, hview]
    rw [hidle fun thread ↦ thread.pending.length + (current thread.point).length,
      hidle fun thread ↦ unsent thread.point [] + distance thread.point, hwork']
    exact .right _ (.right _ (.right _ (Nat.add_lt_add_right (hsum heffort) _)))

/-- Whatever the clients are, the system takes finitely many steps from any of its states. -/
theorem terminates (codec : Codec) (network : Network ι) (clients : ι → Program Tcp α) :
    (Clients.machine codec network clients).Terminates := by
  apply Machine.terminates_of_rank wellFounded_below (rank network)
  intro state label state' hstep
  cases hstep with
  | idle hnone hthread => exact below_idle hnone hthread
  | accept hnew hthread => exact below_accept _ hnew
  | client hstep hlabel => exact below_client hstep hlabel

end Together

/-! ## Where the system stops -/

section Final

variable {ι : Type} [DecidableEq ι] {network : Network ι} {codec : Codec} {plans : ι → Plan}
  {state : Clients.State ι α} {labels : List (Clients.Label ι)}

omit [DecidableEq ι] in
/-- A client is accepted only once. -/
theorem not_accepts_of_accepted {setup : Setup} {view next : Channels.State α}
    {label : Channels.Label} (hstep : Channels.Step codec setup view label next)
    (haccepted : view.accepted = true) : ¬ Accepts label := by
  cases hstep with
  | accept hnew => exact absurd haccepted (ne_true_of_eq_false hnew)
  | @internal inner _ _ hinternal =>
    cases inner with
    | accept => exact hinternal.elim
    | _ => exact id
  | _ => exact id

/-- The thread only stops in `accept`. -/
theorem accepting_of_final (hcodec : codec.Lawful) (hplanned : ∀ i, Planned codec (plans i))
    (h : Clients.Invariant codec network plans state labels)
    (hfinal : ∀ label next, ¬ Clients.Step codec network state label next) :
    state.thread.point = .accepting (some network.listening) := by
  cases hcurrent : state.current with
  | none =>
    obtain hat | hat | hat := h.early hcurrent
    · have hstep : ListenThread.Step codec state.thread .tau _ := .outerTest (by rw [hat]; rfl)
      exact absurd (.idle hcurrent hstep) (hfinal _ _)
    · have hstep : ListenThread.Step codec state.thread .tau _ := .loadServerSocket (by rw [hat]; rfl)
      exact absurd (.idle hcurrent hstep) (hfinal _ _)
    · rw [hat]
      rfl
  | some i =>
    have hview := h.inStep i
    have haccepted : (state.view network i).accepted = true := by
      apply (h.mem_order i).1
      apply List.mem_of_getLast?
      rw [h.last, hcurrent]
    have hdisabled : ¬ Enabled codec (network.setup i) (state.view network i) := by
      rintro ⟨label, next, hstep⟩
      exact hfinal _ _ (.client hstep (not_accepts_of_accepted hstep haccepted))
    have hclosed : (state.view network i).clientOpen = false := by
      apply Bool.of_not_eq_true
      intro hopen
      exact hdisabled (enabled_of_open hcodec (hplanned i) hview hopen)
    obtain ⟨socket, hpoint⟩ : ∃ socket, (state.view network i).thread.point = .accepting socket := by
      by_contra hnone
      exact hdisabled (enabled_of_closed (hplanned i) hview hclosed fun socket hpoint ↦
        hnone ⟨socket, hpoint⟩)
    obtain rfl := hview.server.listening.2 socket hpoint
    rwa [State.view, threadOf_current hcurrent] at hpoint

/-- Where no step is possible, every client has been accepted and has left. -/
theorem left_of_final (hcodec : codec.Lawful) (hplanned : ∀ i, Planned codec (plans i))
    (h : Clients.Invariant codec network plans state labels)
    (hfinal : ∀ label next, ¬ Clients.Step codec network state label next) (i : ι) :
    (state.peers i).accepted = true ∧ (state.peers i).clientOpen = false := by
  have hpoint := accepting_of_final hcodec hplanned h hfinal
  have haccepted : (state.peers i).accepted = true := by
    apply Bool.of_not_eq_false
    intro hnew
    exact hfinal _ _ (.accept hnew (.accepted hpoint))
  refine ⟨haccepted, ?_⟩
  by_cases hcurrent : state.current = some i
  · have hview : (state.view network i).thread.point = .accepting (some network.listening) := by
      rwa [State.view, threadOf_current hcurrent]
    exact closed_of_accepting (h.inStep i) hview haccepted
  · exact h.left i haccepted hcurrent

end Final

end WindowCaster.System.Completion
