import WindowCaster.System.Service

/-!
# The two sides in step

The client's log and the thread's log are joined by the bytes that are on the two channels. What the
thread takes off its channel are frames of the planned requests, so it handles these requests and no
others; what the client reads are frames of the responses, so every answer it reads is the response
to its own request. The invariant is preserved by every step of either side.
-/

namespace WindowCaster.System.Lockstep

open Foundation.Interaction Foundation.LengthFraming Foundation.Text Foundation.Transition
open Foundation.StreamDecoder.Decoder (encodeAll encodeAll_append)
open Protocol.Readers Client.Network Server.Isolation Server.Win32 Server.Handling Server.Replies
open Channels Conversation Service
open Server.ListenThread (recordHandled)
open Protocol.Messages hiding Status

variable {α : Type}

/-- The bytes that are on a channel have been written by one side and not been read by the other. -/
structure InStep (codec : Codec) (setup : Setup) (plan : Plan) (state : State α) (log : Log) :
    Prop where
  client : ClientAt codec plan state.client state.moved log
  closed : state.clientOpen = false → ∃ result, state.client = .done result
  upstream : log.sent = log.taken ++ state.up
  downstream : state.clientOpen = true → log.output = log.read ++ state.down
  server : ServerAt codec setup state.accepted state.clientOpen state.queued state.thread
    log.connections log.output log.handled
  received : log.received <+: log.answers

theorem getElem?_of_isPrefix {β : Type} {first second : List β} (h : first <+: second) {k : ℕ}
    {item : β} (hk : first[k]? = some item) : second[k]? = some item := by
  obtain ⟨more, rfl⟩ := h
  obtain ⟨hlength, -⟩ := List.getElem?_eq_some_iff.1 hk
  rw [List.getElem?_append_left hlength, hk]

/-- A step of the thread adds to the answers, and takes nothing from them. -/
theorem answers_isPrefix (log : Log) (label : Server.ListenThread.Label) :
    log.answers <+: (log.note (.thread label)).answers := by
  cases label with
  | handled message trace response =>
    simp only [Log.answers, Log.note, recordHandled, List.filterMap_append]
    exact List.prefix_append _ _
  | _ => exact List.prefix_rfl

theorem taken_note {log : Log} {label : Server.ListenThread.Label}
    (hlength : log.connections.length ≤ 1)
    (hnew : ∀ socket newClient, label ≠ .accept socket (some newClient))
    (hrecv : ∀ socket outcome, label = .recv socket outcome → received outcome = []) :
    (log.note (.thread label)).taken = log.taken :=
  stream_step hlength hnew hrecv

namespace InStep

variable {codec : Codec} {setup : Setup} {plan : Plan} {state : State α} {log : Log}

/-! ## What passes over the channels -/

theorem taken_isPrefix (hplanned : Planned codec plan) (h : InStep codec setup plan state log) :
    log.taken <+: encodeAll frame (plan.map Prod.snd) := by
  apply List.IsPrefix.trans _ (h.client.sent_isPrefix hplanned)
  rw [h.upstream]
  exact List.prefix_append _ _

/-- The thread delivers the messages of the plan, from the first one on. -/
theorem delivered_isPrefix (hplanned : Planned codec plan) (h : InStep codec setup plan state log) :
    log.delivered <+: plan.map Prod.snd :=
  h.server.delivered_isPrefix (fun _ ↦ hplanned.length_lt) (h.taken_isPrefix hplanned)

theorem handled_isPrefix (hplanned : Planned codec plan) (h : InStep codec setup plan state log) :
    log.handled.map Handled.message <+: plan.map Prod.snd := by
  apply List.IsPrefix.trans _ (h.delivered_isPrefix hplanned)
  rw [Log.delivered, h.server.delivered]
  exact List.prefix_append _ _

theorem parses (hcodec : codec.Lawful) (hplanned : Planned codec plan)
    (h : InStep codec setup plan state log) {message : Bytes} (hmem : message ∈ log.delivered) :
    (codec.parseFromString message).isSome := by
  obtain ⟨step, hstep, rfl⟩ := List.mem_map.1 ((h.delivered_isPrefix hplanned).subset hmem)
  obtain ⟨hwrite, hlength⟩ := hplanned step hstep
  rw [hcodec.request hwrite hlength]
  rfl

/-- Every answer is a response that the client can parse. -/
theorem answer (hcodec : codec.Lawful) (h : InStep codec setup plan state log) {answer : Bytes}
    (hmem : answer ∈ log.answers) :
    answer.length < 2 ^ 31 ∧ (codec.parseFromBytes answer).isSome := by
  obtain ⟨step, hstep, hanswer⟩ := List.mem_filterMap.1 hmem
  exact (h.server.answered step hstep).answer hcodec hanswer

theorem clientOpen_of_ask (h : InStep codec setup plan state log) {call : Tcp.Call}
    {next : Tcp.Answer call → Program Tcp α} (hclient : state.client = .ask call next) :
    state.clientOpen = true := by
  apply Bool.of_not_eq_false
  intro hclosed
  obtain ⟨result, hdone⟩ := h.closed hclosed
  rw [hdone] at hclient
  cases hclient

/-- The message that the client has read whole is the next answer. -/
theorem answer_read (hcodec : codec.Lawful) (h : InStep codec setup plan state log) {length : ℕ}
    {next : Option { bytes : Bytes // bytes.length = length } → Program Tcp α}
    (hclient : state.client = .ask (.readExact length) next) (hall : state.moved.length = length)
    (hawait : log.awaiting = true) : log.received ++ [state.moved] <+: log.answers := by
  obtain ⟨hread, hlength⟩ := h.client.read_eq_of_awaiting hclient hall hawait
  have hopen := h.clientOpen_of_ask hclient
  have hanswer {answer : Bytes} (hmem : answer ∈ log.answers) : answer.length < 2 ^ 32 :=
    Nat.lt_trans (h.answer hcodec hmem).1 (by decide)
  apply isPrefix_of_encodeAll_frame
  · intro payload hmem
    obtain hmem | hmem := List.mem_append.1 hmem
    · exact hanswer (h.received.subset hmem)
    · rwa [List.mem_singleton.1 hmem]
  · intro payload hmem
    exact hanswer hmem
  · have hsent : log.read <+: log.output := by
      rw [h.downstream hopen]
      exact List.prefix_append _ _
    rw [← hread]
    exact hsent.trans (h.server.accounts hopen).output_isPrefix

/-! ## The steps -/

variable {state' : State α} {label : Label}

theorem write (h : InStep codec setup plan state log) {bytes chunk : Bytes}
    {next : Bool → Program Tcp α} (hclient : state.client = .ask (.writeAll bytes) next)
    (hpart : state.moved ++ chunk <+: bytes) :
    InStep codec setup plan { state with moved := state.moved ++ chunk, up := state.up ++ chunk }
      (log.note (.write chunk)) where
  client := h.client.write hclient hpart
  closed := h.closed
  upstream := by
    change log.sent ++ chunk = log.taken ++ (state.up ++ chunk)
    rw [h.upstream, List.append_assoc]
  downstream := h.downstream
  server := h.server
  received := h.received

theorem written (hplanned : Planned codec plan) (h : InStep codec setup plan state log)
    {next : Bool → Program Tcp α} (hclient : state.client = .ask (.writeAll state.moved) next) :
    InStep codec setup plan { state with client := next true, moved := [] }
      (log.note (.returned ⟨.writeAll state.moved, true⟩)) where
  client := h.client.written hplanned hclient
  closed hclosed := absurd hclosed (ne_false_of_eq_true (h.clientOpen_of_ask hclient))
  upstream := h.upstream
  downstream := h.downstream
  server := h.server
  received := h.received

theorem read (h : InStep codec setup plan state log) {length : ℕ} {chunk rest : Bytes}
    {next : Option { bytes : Bytes // bytes.length = length } → Program Tcp α}
    (hclient : state.client = .ask (.readExact length) next) (hdown : state.down = chunk ++ rest)
    (hpart : state.moved.length + chunk.length ≤ length) :
    InStep codec setup plan { state with moved := state.moved ++ chunk, down := rest }
      (log.note (.read chunk)) where
  client := h.client.read hclient hpart
  closed := h.closed
  upstream := h.upstream
  downstream hopen := by
    change log.output = log.read ++ chunk ++ rest
    rw [h.downstream hopen, hdown, List.append_assoc]
  server := h.server
  received := h.received

theorem readDone (hcodec : codec.Lawful) (h : InStep codec setup plan state log) {length : ℕ}
    {next : Option { bytes : Bytes // bytes.length = length } → Program Tcp α}
    (hclient : state.client = .ask (.readExact length) next) (hall : state.moved.length = length) :
    InStep codec setup plan
      { state with client := next (some ⟨state.moved, hall⟩), moved := [] }
      (log.note (.returned ⟨.readExact length, some ⟨state.moved, hall⟩⟩)) where
  client := by
    apply h.client.readDone hclient hall
    intro hawait
    have hread := h.answer_read hcodec hclient hall hawait
    exact (h.answer hcodec (hread.subset (by simp))).2
  closed hclosed := absurd hclosed (ne_false_of_eq_true (h.clientOpen_of_ask hclient))
  upstream := h.upstream
  downstream := h.downstream
  server := h.server
  received := by
    change (if log.awaiting then log.received ++ [state.moved] else log.received) <+: log.answers
    split
    · exact h.answer_read hcodec hclient hall ‹_›
    · exact h.received

theorem close (h : InStep codec setup plan state log) {result : α}
    (hclient : state.client = .done result) :
    InStep codec setup plan { state with clientOpen := false } (log.note .close) where
  client := h.client
  closed _ := ⟨result, hclient⟩
  upstream := h.upstream
  downstream hopen := absurd hopen Bool.false_ne_true
  server := h.server.close
  received := h.received

theorem queue (h : InStep codec setup plan state log) {socket : Socket} {buffer chunk : Bytes}
    (hsending : sending state.thread.point = some (socket, buffer))
    (hpart : state.queued ++ chunk <+: buffer) :
    InStep codec setup plan
      { state with queued := state.queued ++ chunk, down := state.down ++ chunk }
      (log.note (.queue chunk)) where
  client := h.client.of_eq rfl rfl rfl rfl
  closed := h.closed
  upstream := h.upstream
  downstream hopen := by
    change log.output ++ chunk = log.read ++ (state.down ++ chunk)
    rw [h.downstream hopen, List.append_assoc]
  server := h.server.queue hsending hpart
  received := h.received

theorem thread (h : InStep codec setup plan state log) {label : Server.ListenThread.Label}
    {accepted : Bool} {queued up : Bytes} {thread : Server.ListenThread.State}
    (hserver : ServerAt codec setup accepted state.clientOpen queued thread
      (record log.connections label) log.output (recordHandled log.handled label))
    (hup : log.taken ++ state.up = (log.note (.thread label)).taken ++ up) :
    InStep codec setup plan { state with accepted, queued, thread, up }
      (log.note (.thread label)) where
  client := h.client.of_eq rfl rfl rfl rfl
  closed := h.closed
  upstream := h.upstream.trans hup
  downstream := h.downstream
  server := hserver
  received := h.received.trans (answers_isPrefix log label)

end InStep

variable {codec : Codec} {setup : Setup} {plan : Plan}

/-- Every step of the client, of the thread and of the channels keeps the two sides in step. -/
theorem inStep_step (hcodec : codec.Lawful) (hplanned : Planned codec plan)
    {state state' : State α} {log : Log} {label : Label} (h : InStep codec setup plan state log)
    (hstep : Step codec setup state label state') : InStep codec setup plan state' (log.note label) := by
  have hlength := h.server.length_connections_le
  cases hstep with
  | write hclient _ hpart _ => exact h.write hclient hpart
  | written hclient => exact h.written hplanned hclient
  | read hclient _ hdown hpart => exact h.read hclient hdown hpart
  | readDone hclient hall => exact h.readDone hcodec hclient hall
  | close hclient _ => exact h.close hclient
  | queue hsending _ hpart _ => exact h.queue hsending hpart
  | accept hnew hthread =>
    have hserver := h.server
    rw [hnew] at hserver
    have hnone : log.connections = [] := by simpa using hserver.opened
    apply h.thread (hserver.accept hthread)
    simp [Log.taken, Log.note, hnone, record, Connection.opened, Connection.stream]
  | recv hchunk hup hthread =>
    obtain ⟨byte, bytes, rfl⟩ := List.exists_cons_of_ne_nil hchunk
    apply h.thread (h.server.step (by simp) (by simp) (by simp [received]) (by simp) hthread)
    rw [hup, ← List.append_assoc]
    exact congrArg (· ++ _) (h.server.stream_recv hchunk hthread).symm
  | recvEnd hclosed _ hthread =>
    apply h.thread (h.server.step (by simp) (by simp) (by simp [hclosed]) (by simp) hthread)
    exact congrArg (· ++ _) (taken_note hlength (by simp) (by simp [received])).symm
  | recvError hclosed hthread =>
    apply h.thread (h.server.step (by simp) (by simp) (by simp [hclosed]) (by simp) hthread)
    exact congrArg (· ++ _) (taken_note hlength (by simp) (by simp [received])).symm
  | sent hthread =>
    apply h.thread
    · apply h.server.send _ hthread
      intro hopen
      exact accounts_sent (h.server.accounts hopen) hthread
    · exact congrArg (· ++ _) (taken_note hlength (by simp) (by simp)).symm
  | sentAfterClose hclosed hthread =>
    apply h.thread
    · apply h.server.send _ hthread
      intro hopen
      exact absurd hopen (ne_true_of_eq_false hclosed)
    · exact congrArg (· ++ _) (taken_note hlength (by simp) (by simp)).symm
  | @internal label _ hthread hinternal =>
    -- the label is none of those that touch a channel
    have haccept : ∀ socket newClient, label ≠ .accept socket newClient := by
      rintro socket newClient rfl
      exact hinternal
    have hsend : ∀ socket buffer length bytesSent, label ≠ .send socket buffer length bytesSent := by
      rintro socket buffer length bytesSent rfl
      exact hinternal
    have hrecv : ∀ socket outcome, label ≠ .recv socket outcome := by
      rintro socket outcome rfl
      exact hinternal
    apply h.thread (h.server.step haccept hsend (fun _ _ _ hlabel ↦ absurd hlabel (hrecv _ _)) _
      hthread)
    · exact congrArg (· ++ _) (taken_note hlength (fun _ _ ↦ haccept _ _)
        fun _ _ hlabel ↦ absurd hlabel (hrecv _ _)).symm
    · rintro message trace response rfl
      exact ⟨h.parses hcodec hplanned (h.server.mem_delivered hthread), hinternal⟩

theorem inStep_run (hcodec : codec.Lawful) (hplanned : Planned codec plan) {client : Program Tcp α}
    (hscript : Client.Session.Script codec .request client (plan.map Prod.fst)) {labels : List Label}
    {state : State α} (h : (machine codec setup client).Run labels state) :
    InStep codec setup plan state (log labels) := by
  apply h.invariant fun labels state ↦ InStep codec setup plan state (log labels)
  · rintro state rfl
    exact {
      client := .request [] plan rfl hscript (fits_nil client) rfl rfl rfl rfl
      closed := fun hclosed ↦ absurd hclosed (ne_false_of_eq_true rfl)
      upstream := rfl
      downstream := fun _ ↦ rfl
      server := {
        isolated := ⟨rfl, rfl, rfl, by simp [log, Log.empty]⟩
        opened := rfl
        listening := ⟨rfl, fun socket hpoint ↦ by cases hpoint⟩
        inside := fun _ haccepted ↦ absurd haccepted Bool.false_ne_true
        delivered := rfl
        answered := by simp [log, Log.empty]
        accounts := fun _ ↦ ⟨rfl, rfl⟩ }
      received := List.prefix_rfl }
  · intro labels state label state' hinv hstep
    rw [log_concat]
    exact inStep_step hcodec hplanned hinv hstep

/-! ## Requests and answers -/

/-- The handler ran on this very request, and its response is a reply to it that parses. -/
def Serves (codec : Codec) (request : ClientRequest) (step : Handled) : Prop :=
  codec.writeToBytes request = some step.message ∧
    codec.parseFromString step.message = some request ∧
    ∃ (server server' : WindowCasterServer) (response : ServerResponse Bytes),
      (server.dispatch request).Runs step.trace (response, server') ∧ Reply request response ∧
        step.response = some response.encode ∧ (codec.parseFromBytes response.encode).isSome

namespace InStep

variable {state : State α} {log : Log}

/-- The `k`-th run of the handler serves the `k`-th request. -/
theorem serves (hcodec : codec.Lawful) (hplanned : Planned codec plan)
    (h : InStep codec setup plan state log) {k : ℕ} {step : Handled}
    (hk : log.handled[k]? = some step) :
    ∃ request, (plan.map Prod.fst)[k]? = some request ∧ Serves codec request step := by
  have hmessage : (log.handled.map Handled.message)[k]? = some step.message := by
    rw [List.getElem?_map, hk]
    rfl
  have hplan := getElem?_of_isPrefix (h.handled_isPrefix hplanned) hmessage
  rw [List.getElem?_map, Option.map_eq_some_iff] at hplan
  obtain ⟨⟨request, message⟩, hk', rfl⟩ := hplan
  obtain ⟨hwrite, hlength⟩ := hplanned _ (List.mem_of_getElem? hk')
  have hparse := hcodec.request hwrite hlength
  have hanswered := h.server.answered step (List.mem_of_getElem? hk)
  have hparsed {answer : Bytes} (hanswer : step.response = some answer) :
      (codec.parseFromBytes answer).isSome := (hanswered.answer hcodec hanswer).2
  obtain ⟨request', server, server', response, hparse', hdispatch, hreply, hresponse, -⟩ := hanswered
  obtain rfl := Option.some.inj (hparse.symm.trans hparse')
  refine ⟨request, ?_, hwrite, hparse, server, server', response, hdispatch, hreply, hresponse,
    hparsed hresponse⟩
  rw [List.getElem?_map, hk']
  rfl

/-- The system has answered the calls of the handler as it is documented to. -/
theorem documented (h : InStep codec setup plan state log) {k : ℕ} {step : Handled}
    (hk : log.handled[k]? = some step) : ∀ event ∈ step.trace, Documented event := by
  obtain ⟨-, -, -, -, -, -, -, -, hos⟩ := h.server.answered step (List.mem_of_getElem? hk)
  exact hos

/-- The `k`-th answer is the response of the `k`-th run of the handler. -/
theorem response_of_received (h : InStep codec setup plan state log) {k : ℕ} {answer : Bytes}
    (hk : log.received[k]? = some answer) :
    ∃ step, log.handled[k]? = some step ∧ step.response = some answer := by
  have hanswer := getElem?_of_isPrefix h.received hk
  have hresponse : (log.handled.map Handled.response)[k]? = some (some answer) := by
    rw [h.server.map_response, List.getElem?_map]
    exact congrArg (Option.map some) hanswer
  rw [List.getElem?_map, Option.map_eq_some_iff] at hresponse
  exact hresponse

end InStep

end WindowCaster.System.Lockstep
