import WindowCaster.Client.Conduct
import WindowCaster.System.Completion

/-!
# What every client ends with

The calls that a client has made are the beginning of a run of its program, so what is known of the
client against any server holds here too. This server never gives it a reason to stop: all calls
succeed and every answer parses. So a client ends with the answers to all its requests, but for the
one that ends a video, and it reports success exactly if it could make its requests.
-/

namespace WindowCaster.System.Outcomes

open Foundation.Interaction Foundation.Monitoring Foundation.Text Foundation.Transition
open Protocol.Readers Client.Network Client.Conduct
open Channels Conversation Lockstep Clients Completion

variable {α : Type}

/-- The calls that have returned to the client. -/
def noteCall (calls : List (Event Tcp)) : Channels.Label → List (Event Tcp)
  | .returned event => calls ++ [event]
  | _ => calls

/-- What the client expects fits what it has received: of its messages, all but those that are left
and the current one have been answered. -/
def Matches (total : ℕ) (log : Log) : Expected → Prop
  | .request left => log.received.length + left.length = total ∧ log.awaiting = false
  | .content _ left | .length left =>
    log.received.length + left.length + 1 = total ∧ log.awaiting = false
  | .body _ left => log.received.length + left.length + 1 = total ∧ log.awaiting = true
  | .stopped => False

/-- The client is on a run of its program, and nothing has made it stop. -/
structure OnCourse (codec : Codec) (messages : List Bytes) (program client : Program Tcp α)
    (log : Log) (calls : List (Event Tcp)) : Prop where
  run : ∀ rest result, client.Runs rest result → program.Runs (calls ++ rest) result
  expects : ∃ stage, (conduct codec).follow (.request messages) calls = some stage ∧
    Matches messages.length log stage

/-- No other calls and no other answers. -/
theorem OnCourse.of_eq {codec : Codec} {messages : List Bytes} {program client : Program Tcp α}
    {log log' : Log} {calls : List (Event Tcp)}
    (h : OnCourse codec messages program client log calls)
    (hreceived : log'.received = log.received) (hawaiting : log'.awaiting = log.awaiting) :
    OnCourse codec messages program client log' calls := by
  obtain ⟨stage, hfollow, hmatches⟩ := h.expects
  refine ⟨h.run, stage, hfollow, ?_⟩
  cases stage with
  | stopped => exact hmatches
  | _ =>
    simp only [Matches, hreceived, hawaiting]
    exact hmatches

/-- A call that the client makes is one that the monitor allows. -/
theorem OnCourse.next {codec : Codec} {messages : List Bytes} {program : Program Tcp α}
    {call : Tcp.Call} {next : Tcp.Answer call → Program Tcp α} {log : Log}
    {calls : List (Event Tcp)} (h : OnCourse codec messages program (.ask call next) log calls)
    (hconduct : ∀ trace result, program.Runs trace result →
      ∃ last, (conduct codec).follow (.request messages) trace = some last)
    (answer : Tcp.Answer call) :
    (∀ rest result, (next answer).Runs rest result →
      program.Runs (calls ++ [⟨call, answer⟩] ++ rest) result) ∧
    ∃ stage stage', (conduct codec).follow (.request messages) calls = some stage ∧
      Matches messages.length log stage ∧ conduct codec stage ⟨call, answer⟩ = some stage' ∧
        (conduct codec).follow (.request messages) (calls ++ [⟨call, answer⟩]) = some stage' := by
  have hruns (rest : List (Event Tcp)) (result : α) (hrest : (next answer).Runs rest result) :
      program.Runs (calls ++ [⟨call, answer⟩] ++ rest) result := by
    rw [List.append_assoc]
    exact h.run _ _ ⟨answer, rest, rfl, hrest⟩
  refine ⟨hruns, ?_⟩
  obtain ⟨stage, hfollow, hmatches⟩ := h.expects
  have hanswer (call : Tcp.Call) : ∃ answer : Tcp.Answer call, True := by
    cases call with
    | writeAll bytes => exact ⟨false, trivial⟩
    | readExact length => exact ⟨none, trivial⟩
  obtain ⟨rest, result, hrest, -⟩ :=
    Program.exists_runs (fun _ ↦ True) (fun call ↦ hanswer call) (next answer)
  obtain ⟨last, hlast⟩ := hconduct _ _ (hruns rest result hrest)
  have hsingle : (conduct codec).follow (.request messages) (calls ++ [⟨call, answer⟩]) =
      conduct codec stage ⟨call, answer⟩ := by
    simp [Monitor.follow_append, hfollow]
  rw [Monitor.follow_append, hsingle] at hlast
  obtain ⟨stage', hstage', -⟩ := Option.bind_eq_some_iff.1 hlast
  exact ⟨stage, stage', hfollow, hmatches, hstage', hsingle.trans hstage'⟩

/-- A write that succeeds leads on. -/
theorem matches_written {codec : Codec} {total : ℕ} {log : Log} {stage stage' : Expected}
    {bytes : Bytes} (h : Matches total log stage)
    (hstage : conduct codec stage ⟨.writeAll bytes, true⟩ = some stage') :
    Matches total (log.note (.returned ⟨.writeAll bytes, true⟩)) stage' := by
  cases stage with
  | request left =>
    cases left with
    | nil => cases hstage
    | cons message left =>
      simp only [conduct, if_true, Option.ite_none_right_eq_some, Option.some.injEq] at hstage
      obtain ⟨-, rfl⟩ := hstage
      exact h
  | content message left =>
    simp only [conduct, if_true, Option.ite_none_right_eq_some, Option.some.injEq] at hstage
    obtain ⟨-, rfl⟩ := hstage
    exact h
  | length left | body length left | stopped => cases hstage

/-- A read that succeeds leads on, if what has been read as an answer parses. -/
theorem matches_read {codec : Codec} {total : ℕ} {log : Log} {stage stage' : Expected} {length : ℕ}
    {bytes : { bytes : Bytes // bytes.length = length }} (h : Matches total log stage)
    (hparse : log.awaiting = true → (codec.parseFromBytes bytes.val).isSome)
    (hstage : conduct codec stage ⟨.readExact length, some bytes⟩ = some stage') :
    Matches total (log.note (.returned ⟨.readExact length, some bytes⟩)) stage' := by
  cases stage with
  | length left =>
    simp only [conduct, Option.ite_none_right_eq_some, Option.some.injEq] at hstage
    obtain ⟨-, rfl⟩ := hstage
    obtain ⟨hcount, hawaiting⟩ := h
    simp [Matches, Log.note, Log.noteReturned, hcount, hawaiting]
  | body length' left =>
    obtain ⟨hcount, hawaiting⟩ := h
    simp only [conduct, Option.ite_none_right_eq_some, Option.some.injEq, Option.elim_some,
      hparse hawaiting, if_true] at hstage
    obtain ⟨-, rfl⟩ := hstage
    simp only [Matches, Log.note, Log.noteReturned, hawaiting, if_true, List.length_append,
      List.length_singleton, Bool.not_true, and_true]
    omega
  | request left => cases left <;> cases hstage
  | content message left | stopped => cases hstage

/-- Beside this server every step keeps the client on its course. -/
theorem onCourse_step {codec : Codec} {setup : Setup} {plan : Plan} (hcodec : codec.Lawful)
    {messages : List Bytes} {program : Program Tcp α}
    (hconduct : ∀ trace result, program.Runs trace result →
      ∃ last, (conduct codec).follow (.request messages) trace = some last)
    {view next : Channels.State α} {log : Log} {calls : List (Event Tcp)} {label : Channels.Label}
    (hview : InStep codec setup plan view log)
    (h : OnCourse codec messages program view.client log calls)
    (hstep : Channels.Step codec setup view label next) :
    OnCourse codec messages program next.client (log.note label) (noteCall calls label) := by
  cases hstep with
  | written hclient =>
    rw [hclient] at h
    obtain ⟨hruns, stage, stage', -, hmatches, hstage, hfollow⟩ := h.next hconduct true
    exact ⟨hruns, stage', hfollow, matches_written hmatches hstage⟩
  | readDone hclient hall =>
    have hparse (hawaiting : log.awaiting = true) : (codec.parseFromBytes view.moved).isSome := by
      have hread := hview.answer_read hcodec hclient hall hawaiting
      exact (hview.answer hcodec (hread.subset (by simp))).2
    rw [hclient] at h
    obtain ⟨hruns, stage, stage', -, hmatches, hstage, hfollow⟩ :=
      h.next hconduct (some ⟨view.moved, hall⟩)
    exact ⟨hruns, stage', hfollow, matches_read hmatches hparse hstage⟩
  | _ => exact h.of_eq rfl rfl

/-- Every request has a message. -/
theorem length_messages {Packet Frame : Type} (codec : Codec)
    (command : Client.Main.Command Packet Frame) :
    (messages codec (Client.Session.requests codec command)).length =
      (Client.Session.requests codec command).length := by
  apply List.filterMap_length_eq_length.2
  intro request hmem
  obtain ⟨message, hwrite⟩ := Client.Session.write_of_mem_requests hmem
  rw [hwrite]
  rfl

/-- Only the request that ends a video is not answered. -/
theorem received_of_matches {Packet Frame : Type} {codec : Codec}
    {command : Client.Main.Command Packet Frame} {log : Log}
    (h : Matches (messages codec (Client.Session.requests codec command)).length log
      (farewell codec command)) :
    log.received.length = (awaited codec command).length := by
  rw [length_messages] at h
  obtain ⟨hfarewell, hrequests⟩ | ⟨hfarewell, ending, hrequests⟩ := farewell_cases codec command
  · rw [hfarewell, hrequests] at h
    exact h.1
  · rw [hfarewell, hrequests, List.length_append] at h
    exact Nat.succ.inj h.1

/-- Where the program is over, it has had the answers that it waits for. -/
theorem OnCourse.of_done {Packet Frame : Type} {codec : Codec}
    {command : Client.Main.Command Packet Frame} {program : Program Tcp α} {log : Log}
    {calls : List (Event Tcp)} {value : α} {result : α → Bool}
    (h : OnCourse codec (messages codec (Client.Session.requests codec command)) program
      (.done value) log calls)
    (hobeys : program.Obeys (fun _ ↦ True) (conduct codec)
      (.request (messages codec (Client.Session.requests codec command))) fun last value ↦
        last = .stopped ∧ result value = false ∨
          last = farewell codec command ∧ result value = ready codec command) :
    program.Runs calls value ∧ result value = ready codec command ∧
      log.received.length = (awaited codec command).length := by
  have hruns := h.run [] value ⟨rfl, rfl⟩
  rw [List.append_nil] at hruns
  refine ⟨hruns, ?_⟩
  obtain ⟨last, hfollow, hlast⟩ := hobeys calls value hruns fun _ _ ↦ trivial
  obtain ⟨stage, hfollow', hmatches⟩ := h.expects
  obtain rfl := Option.some.inj (hfollow.symm.trans hfollow')
  obtain ⟨rfl, -⟩ | ⟨rfl, hresult⟩ := hlast
  · exact hmatches.elim
  · exact ⟨hresult, received_of_matches hmatches⟩

/-! ## All clients -/

section Together

variable {ι : Type} [DecidableEq ι]

/-- The calls of one of the clients. -/
def noteCallFor (i : ι) (calls : List (Event Tcp)) : Clients.Label ι → List (Event Tcp)
  | .idle => calls
  | .client j label => if j = i then noteCall calls label else calls

def callsOf (i : ι) (labels : List (Clients.Label ι)) : List (Event Tcp) :=
  labels.foldl (noteCallFor i) []

@[simp]
theorem callsOf_concat (i : ι) (labels : List (Clients.Label ι)) (label : Clients.Label ι) :
    callsOf i (labels ++ [label]) = noteCallFor i (callsOf i labels) label := by
  simp [callsOf]

theorem onCourse_run {codec : Codec} {network : Network ι} {plans : ι → Plan}
    (hcodec : codec.Lawful) (hplanned : ∀ i, Planned codec (plans i)) {clients : ι → Program Tcp α}
    (hscript : ∀ i, Client.Session.Script codec .request (clients i) ((plans i).map Prod.fst))
    {messages : ι → List Bytes} (hconduct : ∀ i trace result, (clients i).Runs trace result →
      ∃ last, (conduct codec).follow (.request (messages i)) trace = some last)
    {labels : List (Clients.Label ι)} {state : Clients.State ι α}
    (h : (Clients.machine codec network clients).Run labels state) (i : ι) :
    OnCourse codec (messages i) (clients i) (state.peers i).client (logOf i labels)
      (callsOf i labels) := by
  induction h with
  | start hstart =>
    obtain rfl := hstart
    exact ⟨fun _ _ ↦ id, .request (messages i), rfl, Nat.zero_add _, rfl⟩
  | next hrun hstep ih =>
    have hinv := invariant_run hcodec hplanned hscript hrun
    rw [logOf_concat, callsOf_concat]
    cases hstep with
    | idle => exact ih
    | @accept j _ _ _ =>
      rw [noteCallFor, noteFor]
      obtain rfl | hj := eq_or_ne j i
      · rw [if_pos rfl, if_pos rfl]
        simp only [Function.update_self]
        exact ih.of_eq rfl rfl
      · rw [if_neg hj, if_neg hj]
        simp only [Function.update_of_ne hj.symm]
        exact ih
    | @client j _ _ hclient _ =>
      rw [noteCallFor, noteFor]
      obtain rfl | hj := eq_or_ne j i
      · rw [if_pos rfl, if_pos rfl]
        simp only [Function.update_self]
        exact onCourse_step hcodec (hconduct j) (hinv.inStep j) ih hclient
      · rw [if_neg hj, if_neg hj]
        simp only [Function.update_of_ne hj.symm]
        exact ih

/-- Clients that send the requests of these commands keep the invariant and stay on their course. -/
theorem exists_onCourse {Packet Frame : Type} {codec : Codec} (hcodec : codec.Lawful)
    {network : Network ι} {commands : ι → Client.Main.Command Packet Frame}
    (hsize : ∀ i, ∀ request ∈ Client.Session.requests codec (commands i), ∀ message,
      codec.writeToBytes request = some message → message.length < 2 ^ 31)
    {clients : ι → Program Tcp α}
    (hscript : ∀ i, Client.Session.Script codec .request (clients i)
      (Client.Session.requests codec (commands i)))
    {post : ι → Expected → α → Prop}
    (hobeys : ∀ i, (clients i).Obeys (fun _ ↦ True) (conduct codec)
      (.request (messages codec (Client.Session.requests codec (commands i)))) (post i))
    {labels : List (Clients.Label ι)} {state : Clients.State ι α}
    (hrun : (Clients.machine codec network clients).Run labels state) :
    ∃ plans : ι → Plan,
      (∀ i, Planned codec (plans i) ∧
        (plans i).map Prod.fst = Client.Session.requests codec (commands i)) ∧
      Invariant codec network plans state labels ∧
      ∀ i, OnCourse codec (messages codec (Client.Session.requests codec (commands i))) (clients i)
        (state.peers i).client (logOf i labels) (callsOf i labels) := by
  obtain ⟨plans, hplans, hinv⟩ := exists_invariant hcodec hsize hscript hrun
  refine ⟨plans, hplans, hinv, ?_⟩
  apply onCourse_run hcodec (fun i ↦ (hplans i).1) _ _ hrun
  · intro i
    rw [(hplans i).2]
    exact hscript i
  · intro i trace value hruns
    obtain ⟨last, hfollow, -⟩ := hobeys i trace value hruns fun _ _ ↦ trivial
    exact ⟨last, hfollow⟩

/-- Where no step is possible every client has left, with all its answers. -/
theorem outcome_of_final {Packet Frame : Type} [Fintype ι] {codec : Codec} (hcodec : codec.Lawful)
    {network : Network ι} {commands : ι → Client.Main.Command Packet Frame}
    (hsize : ∀ i, ∀ request ∈ Client.Session.requests codec (commands i), ∀ message,
      codec.writeToBytes request = some message → message.length < 2 ^ 31)
    {labels : List (Clients.Label ι)} {state : Clients.State ι Bool}
    (hrun : (Clients.machine codec network fun i ↦
      Client.Main.main codec ⟨true⟩ (commands i)).Run labels state)
    (hfinal : ∀ label next, ¬ Clients.Step codec network state label next) (i : ι) :
    (state.peers i).accepted = true ∧ (state.peers i).clientOpen = false ∧
      (state.peers i).client = .done (ready codec (commands i)) ∧
      (logOf i labels).received.length = (awaited codec (commands i)).length := by
  have hobeys (i : ι) := obeys_main codec (commands i)
  obtain ⟨plans, hplans, hinv, hcourse⟩ := exists_onCourse hcodec hsize
    (fun i ↦ Client.Session.script_main (commands i)) hobeys hrun
  obtain ⟨haccepted, hclosed⟩ := left_of_final hcodec (fun i ↦ (hplans i).1) hinv hfinal i
  refine ⟨haccepted, hclosed, ?_⟩
  obtain ⟨result, hdone⟩ := (hinv.inStep i).closed hclosed
  have hended := hcourse i
  rw [show (state.peers i).client = .done result from hdone] at hended
  obtain ⟨-, rfl, hreceived⟩ := hended.of_done (hobeys i)
  exact ⟨hdone, hreceived⟩

end Together

end WindowCaster.System.Outcomes
