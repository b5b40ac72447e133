import WindowCaster.System.Lockstep

/-!
# No deadlock

A thread that is not in a call of the sockets can always go on, and so can a client with room to
write into or bytes to read. In the states that remain, one side would wait for the other: the
thread in `recv` while the client waits for an answer, or the thread in `send` while the client
writes. Neither is possible when the two sides are in step.
-/

namespace WindowCaster.System.Progress

open Foundation.Interaction Foundation.LengthFraming Foundation.StreamDecoder.Decoder
open Foundation.Text Foundation.Transition Protocol.Readers Client.Network Server.Win32
open Server.Handling Server.Sending Channels Conversation Service Lockstep
open Server.ListenThread (Point)

variable {α : Type}

/-- Some step is possible. -/
def Enabled (codec : Codec) (setup : Setup) (state : State α) : Prop :=
  ∃ label state', Step codec setup state label state'

/-- The thread is in a call of the sockets, or has stopped. -/
def Blocking : Point → Prop
  | .accepting _ | .receiving _ | .sendingLength _ _ | .sendingContent _ _ | .returned
  | .undefined => True
  | _ => False

section Sides

variable {codec : Codec} {setup : Setup} {state : State α}

/-- Outside the calls of the sockets, the thread can always go on. -/
theorem enabled_of_not_blocking (h : ¬ Blocking state.thread.point) : Enabled codec setup state := by
  cases hat : state.thread.point with
  | outerTest => exact ⟨_, _, .internal (.outerTest hat) trivial⟩
  | loadServerSocket => exact ⟨_, _, .internal (.loadServerSocket hat) trivial⟩
  | acceptFailed => exact ⟨_, _, .internal (.acceptFailed hat) trivial⟩
  | testExisting newClient => exact ⟨_, _, .internal (.testExisting hat) trivial⟩
  | loadExisting newClient => exact ⟨_, _, .internal (.loadExisting hat) trivial⟩
  | closingExisting newClient socket => exact ⟨_, _, .internal (.closeExisting hat) trivial⟩
  | assign newClient => exact ⟨_, _, .internal (.assign hat) trivial⟩
  | innerTestRunning => exact ⟨_, _, .internal (.innerTestRunning hat) trivial⟩
  | innerTestClient => exact ⟨_, _, .internal (.innerTestClient hat) trivial⟩
  | loadForRecv => exact ⟨_, _, .internal (.loadForRecv hat) trivial⟩
  | framing =>
    cases hpass : Server.Framing.framingPass state.thread.pending with
    | needMore => exact ⟨_, _, .internal (.needMore hat hpass) trivial⟩
    | outOfRange => exact ⟨_, _, .internal (.outOfRange hat hpass) trivial⟩
    | message oneProtoMsg rest => exact ⟨_, _, .internal (.deliver hat hpass) trivial⟩
  | handling oneProtoMsg =>
    obtain ⟨trace, ⟨response, server⟩, hruns, hdocumented⟩ :=
      Program.exists_runs Documented exists_documented (state.thread.server.respond codec oneProtoMsg)
    cases response with
    | none => exact ⟨_, _, .internal (.noResponse hat hruns) hdocumented⟩
    | some response => exact ⟨_, _, .internal (.response hat hruns) hdocumented⟩
  | testForSend message => exact ⟨_, _, .internal (.testForSend hat) trivial⟩
  | loadForLength message => exact ⟨_, _, .internal (.loadForLength hat) trivial⟩
  | loadForContent message => exact ⟨_, _, .internal (.loadForContent hat) trivial⟩
  | loadForClose => exact ⟨_, _, .internal (.loadForClose hat) trivial⟩
  | closing socket => exact ⟨_, _, .internal (.close hat) trivial⟩
  | reset => exact ⟨_, _, .internal (.reset hat) trivial⟩
  | clear => exact ⟨_, _, .internal (.clear hat) trivial⟩
  | _ =>
    rw [hat] at h
    exact absurd trivial h

/-- A prefix that is not the whole list can be extended by one item. -/
theorem exists_concat_isPrefix {β : Type} {part whole : List β} (h : part <+: whole)
    (hmore : part ≠ whole) : ∃ item, part ++ [item] <+: whole := by
  obtain ⟨rest, rfl⟩ := h
  match rest, hmore with
  | [], hmore => exact absurd (List.append_nil part).symm hmore
  | item :: rest, _ =>
    refine ⟨item, rest, ?_⟩
    rw [List.append_assoc, List.singleton_append]

/-- A client that writes goes on as long as there is room. -/
theorem enabled_of_writing {bytes : Bytes} {next : Bool → Program Tcp α}
    (h : state.client = .ask (.writeAll bytes) next) (hfits : state.moved <+: bytes)
    (hroom : state.moved ≠ bytes → state.up.length < setup.upCapacity) :
    Enabled codec setup state := by
  by_cases hall : state.moved = bytes
  · rw [← hall] at h
    exact ⟨_, _, .written h⟩
  · obtain ⟨byte, hpart⟩ := exists_concat_isPrefix hfits hall
    exact ⟨_, _, .write h (List.cons_ne_nil byte []) hpart (hroom hall)⟩

/-- A client that reads goes on as long as there is something to read. -/
theorem enabled_of_reading {length : ℕ}
    {next : Option { bytes : Bytes // bytes.length = length } → Program Tcp α}
    (h : state.client = .ask (.readExact length) next) (hfits : state.moved.length ≤ length)
    (hdown : state.moved.length ≠ length → state.down ≠ []) : Enabled codec setup state := by
  by_cases hall : state.moved.length = length
  · exact ⟨_, _, .readDone h hall⟩
  · obtain ⟨byte, rest, hbyte⟩ := List.exists_cons_of_ne_nil (hdown hall)
    have hpart : state.moved.length + [byte].length ≤ length := by
      rw [List.length_singleton]
      omega
    exact ⟨_, _, .read h (List.cons_ne_nil byte []) hbyte hpart⟩

/-- A thread in `recv` goes on as long as there is something to receive. -/
theorem enabled_of_receiving (h : state.thread.point = .receiving (some setup.socket))
    (hup : state.up ≠ []) : Enabled codec setup state := by
  obtain ⟨byte, rest, hbyte⟩ := List.exists_cons_of_ne_nil hup
  have hchunk : Server.Framing.IsChunk [byte] := by simp [Server.Framing.IsChunk]
  exact ⟨_, _, .recv (List.cons_ne_nil byte []) hbyte (.received h hchunk)⟩

/-- A call of `send` may end with any outcome. -/
theorem exists_send {thread : Server.ListenThread.State} {socket : Socket} {buffer : Bytes}
    (h : sending thread.point = some (socket, buffer)) (bytesSent : Option ℕ) :
    ∃ length thread',
      Server.ListenThread.Step codec thread (.send socket buffer length bytesSent) thread' := by
  cases hat : thread.point with
  | sendingLength message client =>
    rw [hat] at h
    obtain ⟨rfl, rfl⟩ := Prod.mk.inj (Option.some.inj h)
    cases bytesSent with
    | none => exact ⟨_, _, .lengthFailed hat⟩
    | some count => exact ⟨_, _, .lengthSent hat⟩
  | sendingContent message client =>
    rw [hat] at h
    obtain ⟨rfl, rfl⟩ := Prod.mk.inj (Option.some.inj h)
    exact ⟨_, _, .contentSent hat⟩
  | _ =>
    rw [hat] at h
    cases h

/-- A thread in `send` goes on as long as there is room. -/
theorem enabled_of_sending {buffer : Bytes}
    (h : sending state.thread.point = some (some setup.socket, buffer))
    (hfits : state.queued <+: buffer) (hroom : state.down.length < setup.downCapacity) :
    Enabled codec setup state := by
  by_cases hall : state.queued = buffer
  · obtain ⟨length, thread, hstep⟩ := exists_send h (some buffer.length)
    rw [← hall] at hstep
    exact ⟨_, _, .sent hstep⟩
  · obtain ⟨byte, hpart⟩ := exists_concat_isPrefix hfits hall
    exact ⟨_, _, .queue h (List.cons_ne_nil byte []) hpart hroom⟩

end Sides

/-! ## Both sides together -/

section Together

variable {codec : Codec} {setup : Setup} {plan : Plan} {state : State α} {log : Log}

/-- While the thread waits in `recv`, a client that reads has an answer on its channel. -/
theorem down_ne_nil_at_recv (hcodec : codec.Lawful) (hplanned : Planned codec plan)
    (h : InStep codec setup plan state log) {length : ℕ}
    {next : Option { bytes : Bytes // bytes.length = length } → Program Tcp α}
    (hclient : state.client = .ask (.readExact length) next) (hmore : state.moved.length ≠ length)
    {socket : Socket} (hpoint : state.thread.point = .receiving socket) (hup : state.up = []) :
    state.down ≠ [] := by
  intro hdown
  have hopen := h.clientOpen_of_ask hclient
  obtain ⟨⟨messages, hmessages, hsent, hcount⟩, hcomplete⟩ := h.client.reading hclient
  -- everything that was sent has been handled, and everything that was answered has been read
  have htaken : log.taken = encodeAll frame messages := by
    rw [← hsent, h.upstream, hup, List.append_nil]
  have hhandled := h.server.handled_at_recv
    (fun message hmem ↦ hplanned.length_lt (hmessages.subset hmem)) htaken hpoint
  have hanswers : log.answers.length = log.received.length + 1 := by
    calc
      _ = log.handled.length := h.server.length_responses
      _ = messages.length := by rw [← hhandled, List.length_map]
      _ = log.received.length + 1 := hcount
  have haccounts := h.server.accounts hopen
  rw [hpoint] at haccounts
  have hread : log.read = encodeAll frame log.answers := by
    calc
      _ = log.read ++ state.down := by rw [hdown, List.append_nil]
      _ = log.output := (h.downstream hopen).symm
      _ = encodeAll frame log.answers := haccounts.2
  -- so the client has the whole of the answer that it waits for
  obtain ⟨rest, hrest⟩ := h.received
  obtain ⟨answer, rfl⟩ : ∃ answer, rest = [answer] := by
    rw [← List.length_eq_one_iff]
    rw [← hrest, List.length_append] at hanswers
    omega
  have hanswer : answer.length < 2 ^ 31 := (h.answer hcodec (by simp [← hrest])).1
  rw [← hrest] at hread
  exact hmore (hcomplete answer (by omega) hread)

/-- While the client is in the middle of a request, nothing is on its channel. -/
theorem down_eq_nil_of_writing (h : InStep codec setup plan state log) (hplanned : Planned codec plan)
    {bytes : Bytes} {next : Bool → Program Tcp α}
    (hclient : state.client = .ask (.writeAll bytes) next) (hmore : state.moved ≠ bytes) :
    state.down = [] := by
  have hopen := h.clientOpen_of_ask hclient
  obtain ⟨hread, hsent⟩ := h.client.writing hclient hmore
  -- no request is handled beyond those that have been answered
  have hhandled : (log.handled.map Handled.message).length ≤ log.received.length := by
    apply hsent _ (h.handled_isPrefix hplanned)
    rw [h.upstream]
    exact h.server.encodeAll_handled_isPrefix.trans (List.prefix_append _ _)
  have hanswers : log.answers.length ≤ log.received.length := by
    calc
      _ = log.handled.length := h.server.length_responses
      _ = (log.handled.map Handled.message).length := (List.length_map _).symm
      _ ≤ log.received.length := hhandled
  have hall : log.received = log.answers := h.received.eq_of_length_le hanswers
  -- so all that has been put on the channel has been read
  have hlength : (log.read ++ state.down).length ≤ log.read.length := by
    calc
      _ = log.output.length := by rw [h.downstream hopen]
      _ ≤ (encodeAll frame log.answers).length :=
        (h.server.accounts hopen).output_isPrefix.length_le
      _ = log.read.length := by rw [hread, hall]
  rw [List.length_append] at hlength
  apply List.eq_nil_of_length_eq_zero
  omega

/-- The client goes on if it has room to write into and, when it reads, something to read. -/
theorem enabled_of_client (h : InStep codec setup plan state log) (hopen : state.clientOpen = true)
    (hwrite : ∀ bytes next, state.client = .ask (.writeAll bytes) next → state.moved ≠ bytes →
      state.up.length < setup.upCapacity)
    (hread : ∀ length next, state.client = .ask (.readExact length) next →
      state.moved.length ≠ length → state.down ≠ []) : Enabled codec setup state := by
  have hfits := h.client.fits
  match hclient : state.client with
  | .done result => exact ⟨_, _, .close hclient hopen⟩
  | .ask (.writeAll bytes) next =>
    rw [hclient] at hfits
    exact enabled_of_writing hclient hfits (hwrite bytes next hclient)
  | .ask (.readExact length) next =>
    rw [hclient] at hfits
    exact enabled_of_reading hclient hfits (hread length next hclient)

/-- The thread goes on, unless it is in a call of the sockets. -/
theorem enabled_or_calling (hplanned : Planned codec plan) (h : InStep codec setup plan state log) :
    Enabled codec setup state ∨ state.thread.point = .accepting (some setup.listening) ∨
      state.thread.point = .receiving (some setup.socket) ∨
        ∃ buffer, sending state.thread.point = some (some setup.socket, buffer) := by
  have hsocket := @h.server.socket_eq
  cases hat : state.thread.point with
  | accepting socket =>
    obtain rfl := h.server.listening.2 socket hat
    exact .inr (.inl rfl)
  | receiving socket =>
    obtain rfl := hsocket (.inl hat)
    exact .inr (.inr (.inl rfl))
  | sendingLength message socket | sendingContent message socket =>
    obtain rfl := hsocket (.inr ⟨_, by rw [hat]; rfl⟩)
    exact .inr (.inr (.inr ⟨_, rfl⟩))
  | returned =>
    have hnever := h.server.isolated.2
    rw [hat] at hnever
    exact hnever.elim
  | undefined =>
    have htaken := h.taken_isPrefix hplanned
    exact absurd hat (h.server.point_ne_undefined (fun _ ↦ hplanned.length_lt) htaken)
  | _ =>
    apply Or.inl
    apply enabled_of_not_blocking
    rw [hat]
    exact id

/-- As long as the client's end is open, some step is possible. -/
theorem enabled_of_open (hcodec : codec.Lawful) (hplanned : Planned codec plan)
    (h : InStep codec setup plan state log) (hopen : state.clientOpen = true) :
    Enabled codec setup state := by
  obtain henabled | hat | hat | ⟨buffer, hat⟩ := enabled_or_calling hplanned h
  · exact henabled
  · cases haccepted : state.accepted with
    | false => exact ⟨_, _, .accept haccepted (.accepted hat)⟩
    | true =>
      have hinside := h.server.inside hopen haccepted
      rw [hat] at hinside
      exact absurd trivial hinside
  · by_cases hup : state.up = []
    · apply enabled_of_client h hopen
      · intro bytes next _ _
        rw [hup]
        exact setup.upCapacity_pos
      · intro length next hclient hmore
        exact down_ne_nil_at_recv hcodec hplanned h hclient hmore hat hup
    · exact enabled_of_receiving hat hup
  · by_cases hroom : state.down.length < setup.downCapacity
    · exact enabled_of_sending hat ((h.server.accounts hopen).queued_isPrefix hat) hroom
    · have hdown : state.down ≠ [] := by
        intro hnone
        rw [hnone] at hroom
        exact hroom setup.downCapacity_pos
      apply enabled_of_client h hopen
      · intro bytes next hclient hmore
        exact absurd (down_eq_nil_of_writing h hplanned hclient hmore) hdown
      · intro length next _ _
        exact hdown

/-- After the client has left, some step is possible until the thread waits for the next client. -/
theorem enabled_of_closed (hplanned : Planned codec plan) (h : InStep codec setup plan state log)
    (hclosed : state.clientOpen = false)
    (hpoint : ∀ socket, state.thread.point ≠ .accepting socket) : Enabled codec setup state := by
  obtain henabled | hat | hat | ⟨buffer, hat⟩ := enabled_or_calling hplanned h
  · exact henabled
  · exact absurd hat (hpoint _)
  · exact ⟨_, _, .recvError hclosed (.receiveFailed hat)⟩
  · obtain ⟨length, thread, hstep⟩ := exists_send hat none
    exact ⟨_, _, .sentAfterClose hclosed hstep⟩

end Together

/-! ## Lockstep -/

/-- Requests that can be written, and to messages within the limit, form a plan. -/
theorem exists_plan {codec : Codec} {requests : List Protocol.Messages.ClientRequest}
    (hwrite : ∀ request ∈ requests, ∃ message, codec.writeToBytes request = some message)
    (hsize : ∀ request ∈ requests, ∀ message, codec.writeToBytes request = some message →
      message.length < 2 ^ 31) :
    ∃ plan, Planned codec plan ∧ plan.map Prod.fst = requests ∧
      requests.mapM codec.writeToBytes = some (plan.map Prod.snd) := by
  induction requests with
  | nil => exact ⟨[], by simp [Planned], rfl, rfl⟩
  | cons request requests ih =>
    obtain ⟨⟨message, hmessage⟩, hrest⟩ := List.forall_mem_cons.1 hwrite
    obtain ⟨hshort, hshorter⟩ := List.forall_mem_cons.1 hsize
    obtain ⟨plan, hplanned, rfl, hmessages⟩ := ih hrest hshorter
    refine ⟨(request, message) :: plan, ?_, rfl, ?_⟩
    · exact List.forall_mem_cons.2 ⟨⟨hmessage, hshort message hmessage⟩, hplanned⟩
    · rw [List.mapM_cons, hmessage, hmessages]
      rfl

/-- In every run of a command against the server, with channels of any capacity: the bytes written
are those of the command's requests; the `k`-th answer is the response to the `k`-th request; the
`k`-th run of the handler is on the `k`-th request as the client put it in, with a response that
parses; and some step is possible until the client has left and the thread waits for the next
one. -/
theorem lockstep {Packet Frame : Type} (codec : Codec) (hcodec : codec.Lawful) (setup : Setup)
    (command : Client.Main.Command Packet Frame)
    (hsize : ∀ request ∈ Client.Session.requests codec command, ∀ message,
      codec.writeToBytes request = some message → message.length < 2 ^ 31)
    (labels : List Label) (state : State Bool)
    (hrun : (machine codec setup (Client.Main.main codec ⟨true⟩ command)).Run labels state) :
    (∃ messages, (Client.Session.requests codec command).mapM codec.writeToBytes = some messages ∧
      (log labels).sent <+: encodeAll frame messages) ∧
    (∀ (k : ℕ) answer, (log labels).received[k]? = some answer → ∃ request step,
      (Client.Session.requests codec command)[k]? = some request ∧
        (log labels).handled[k]? = some step ∧ Serves codec request step ∧
          step.response = some answer) ∧
    (∀ (k : ℕ) step, (log labels).handled[k]? = some step → ∃ request,
      (Client.Session.requests codec command)[k]? = some request ∧ Serves codec request step) ∧
    (state.clientOpen = true ∨ (∀ socket, state.thread.point ≠ .accepting socket) →
      Enabled codec setup state) := by
  obtain ⟨plan, hplanned, hplan, hmessages⟩ :=
    exists_plan (fun _ ↦ Client.Session.write_of_mem_requests) hsize
  have hscript : Client.Session.Script codec .request _ _ := Client.Session.script_main command
  rw [← hplan] at hscript
  have hinv := inStep_run hcodec hplanned hscript hrun
  rw [← hplan]
  refine ⟨⟨plan.map Prod.snd, hplan ▸ hmessages, hinv.client.sent_isPrefix hplanned⟩, ?_, ?_, ?_⟩
  · intro k answer hk
    obtain ⟨step, hstep, hresponse⟩ := hinv.response_of_received hk
    obtain ⟨request, hrequest, hserves⟩ := hinv.serves hcodec hplanned hstep
    exact ⟨request, step, hrequest, hstep, hserves, hresponse⟩
  · intro k step hk
    exact hinv.serves hcodec hplanned hk
  · intro hwaiting
    cases hopen : state.clientOpen with
    | true => exact enabled_of_open hcodec hplanned hinv hopen
    | false =>
      obtain hnever | hpoint := hwaiting
      · exact absurd hnever (ne_true_of_eq_false hopen)
      · exact enabled_of_closed hplanned hinv hopen hpoint

/-- The calls of a client that asks for the windows, up to the one for the content of the answer. -/
theorem main_list : ∃ first second third fourth,
    Client.Main.main wire ⟨true⟩ (.list : Client.Main.Command Unit Unit) =
        .ask (.writeAll [2, 0, 0, 0]) first ∧
      first true = .ask (.writeAll [10, 0]) second ∧ second true = .ask (.readExact 4) third ∧
      third (some ⟨[2, 0, 0, 0], rfl⟩) = .ask (.readExact 2) fourth :=
  ⟨_, _, _, _, rfl, rfl, rfl, rfl⟩

theorem runs_respond_list :
    (Server.Handling.WindowCasterServer.new.respond wire [10, 0]).Runs [⟨.enumWindows, []⟩]
      (some [18, 0], .new) := by
  have hparse : wire.parseFromString [10, 0] = some ⟨some .getWindowList⟩ :=
    wire_lawful.request rfl (by decide)
  rw [Server.Handling.WindowCasterServer.respond, hparse]
  exact ⟨[], [], rfl, rfl, rfl⟩

/-- One request for the windows: the answer is the list, which is empty. -/
theorem lockstep_list :
    ∃ (setup : Setup) (labels : List Label) (state : State Bool),
      (machine wire setup (Client.Main.main wire ⟨true⟩
        (.list : Client.Main.Command Unit Unit))).Run labels state ∧
      (log labels).received = [[18, 0]] ∧ Enabled wire setup state := by
  have hpass : Server.Framing.framingPass [2, 0, 0, 0, 10, 0] = .message [10, 0] [] := by decide
  let setup : Setup := ⟨1, 2, 6, 6, by decide, by decide⟩
  obtain ⟨first, second, third, fourth, hfirst, hsecond, hthird, hfourth⟩ := main_list
  let thread (client : Socket) (point : Point) : Server.ListenThread.State :=
    ⟨true, some 1, client, point, [], .new⟩
  let program := Client.Main.main wire ⟨true⟩ (.list : Client.Main.Command Unit Unit)
  have hrequest : (machine wire setup program).Path (start setup program)
      [.write [2, 0, 0, 0], .returned ⟨.writeAll [2, 0, 0, 0], true⟩, .write [10, 0],
        .returned ⟨.writeAll [10, 0], true⟩]
      ⟨second true, [], true, [2, 0, 0, 0, 10, 0], [], [], false, thread none .outerTest⟩ :=
    .cons (.write hfirst (List.cons_ne_nil _ _) ⟨[], rfl⟩ (Nat.le_of_ble_eq_true rfl)) <|
    .cons (.written hfirst) <|
    .cons (.write hsecond (List.cons_ne_nil _ _) ⟨[], rfl⟩ (Nat.le_of_ble_eq_true rfl)) <|
    .cons (.written hsecond) .nil
  have haccept : (machine wire setup program).Path
      ⟨second true, [], true, [2, 0, 0, 0, 10, 0], [], [], false, thread none .outerTest⟩
      [.thread .tau, .thread .tau, .thread (.accept (some 1) (some 2)), .thread .tau, .thread .tau,
        .thread .tau, .thread .tau, .thread .tau]
      ⟨second true, [], true, [2, 0, 0, 0, 10, 0], [], [], true,
        thread (some 2) (.receiving (some 2))⟩ :=
    .cons (.internal (.outerTest rfl) trivial) <|
    .cons (.internal (.loadServerSocket rfl) trivial) <|
    .cons (.accept rfl (.accepted rfl)) <|
    .cons (.internal (.testExisting rfl) trivial) <|
    .cons (.internal (.assign rfl) trivial) <|
    .cons (.internal (.innerTestRunning rfl) trivial) <|
    .cons (.internal (.innerTestClient rfl) trivial) <|
    .cons (.internal (.loadForRecv rfl) trivial) .nil
  have hanswer : (machine wire setup program).Path
      ⟨second true, [], true, [2, 0, 0, 0, 10, 0], [], [], true,
        thread (some 2) (.receiving (some 2))⟩
      [.thread (.recv (some 2) (some [2, 0, 0, 0, 10, 0])), .thread (.deliver [10, 0]),
        .thread (.handled [10, 0] [⟨.enumWindows, []⟩] (some [18, 0])), .thread .tau, .thread .tau,
        .queue [2, 0, 0, 0], .thread (.send (some 2) [2, 0, 0, 0] 4 (some 4)), .thread .tau,
        .queue [18, 0], .thread (.send (some 2) [18, 0] 2 (some 2))]
      ⟨second true, [], true, [], [2, 0, 0, 0, 18, 0], [], true, thread (some 2) .framing⟩ :=
    .cons (.recv (List.cons_ne_nil _ _) rfl (.received rfl (by decide))) <|
    .cons (.internal (.deliver rfl hpass) trivial) <|
    .cons (.internal (.response rfl runs_respond_list) (by simp [Internal, Documented])) <|
    .cons (.internal (.testForSend rfl) trivial) <|
    .cons (.internal (.loadForLength rfl) trivial) <|
    .cons (.queue rfl (List.cons_ne_nil _ _) ⟨[], rfl⟩ (Nat.le_of_ble_eq_true rfl)) <|
    .cons (.sent (@Server.ListenThread.Step.lengthSent _ _ [18, 0] _ _ rfl)) <|
    .cons (.internal (.loadForContent rfl) trivial) <|
    .cons (.queue rfl (List.cons_ne_nil _ _) ⟨[], rfl⟩ (Nat.le_of_ble_eq_true rfl)) <|
    .cons (.sent (.contentSent rfl)) .nil
  have hread : (machine wire setup program).Path
      ⟨second true, [], true, [], [2, 0, 0, 0, 18, 0], [], true, thread (some 2) .framing⟩
      [.read [2, 0, 0, 0], .returned ⟨.readExact 4, some ⟨[2, 0, 0, 0], rfl⟩⟩, .read [18, 0],
        .returned ⟨.readExact 2, some ⟨[18, 0], rfl⟩⟩]
      ⟨fourth (some ⟨[18, 0], rfl⟩), [], true, [], [], [], true, thread (some 2) .framing⟩ :=
    .cons (.read hthird (List.cons_ne_nil _ _) rfl (Nat.le_of_ble_eq_true rfl)) <|
    .cons (.readDone hthird rfl) <|
    .cons (.read hfourth (List.cons_ne_nil _ _) rfl (Nat.le_of_ble_eq_true rfl)) <|
    .cons (.readDone hfourth rfl) .nil
  have hrun := ((((Machine.Run.start rfl).path hrequest).path haccept).path hanswer).path hread
  have hlockstep := lockstep wire wire_lawful setup .list (by decide) _ _ hrun
  exact ⟨setup, _, _, hrun, rfl, hlockstep.2.2.2 (.inl rfl)⟩

end WindowCaster.System.Progress
