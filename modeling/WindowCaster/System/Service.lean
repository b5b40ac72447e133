import WindowCaster.Server.FramingExactness
import WindowCaster.Server.Replies
import WindowCaster.System.Conversation

/-!
# Where the thread is

The thread accepts one connection, handles the messages of its bytes one after the other and sends a
response for each. As long as the client's end is open it stays with the connection, and the bytes
it has put on the channel are the frames of its responses, up to the call it is in.
-/

namespace WindowCaster.System.Service

open Foundation.Interaction Foundation.LengthFraming Foundation.Text
open Foundation.StreamDecoder.Decoder (encodeAll encodeAll_append encodeAll_concat)
open Protocol.Messages Protocol.Readers Server.Handling Server.Replies Server.Sending
open Server.Isolation Server.Win32 Channels
open Server.ListenThread (Point recordHandled)

/-- The message that the handler is running on. -/
def current : Point → List Bytes
  | .handling oneProtoMsg => [oneProtoMsg]
  | _ => []

/-- The thread is not in its inner loop, or is about to leave it. -/
def Outside : Point → Prop
  | .outerTest | .loadServerSocket | .accepting _ | .acceptFailed | .loadForClose | .closing _
  | .reset | .clear => True
  | _ => False

/-- The thread waits for clients on this socket. -/
def Listening (setup : Setup) (thread : Server.ListenThread.State) : Prop :=
  thread.serverSocket = some setup.listening ∧
    ∀ socket, thread.point = .accepting socket → socket = some setup.listening

/-- The message was a request, and the response is the reply to it. -/
def Answered (codec : Codec) (step : Handled) : Prop :=
  ∃ (request : ClientRequest) (server server' : WindowCasterServer) (response : ServerResponse Bytes),
    codec.parseFromString step.message = some request ∧
      (server.dispatch request).Runs step.trace (response, server') ∧ Reply request response ∧
      step.response = some response.encode ∧ ∀ event ∈ step.trace, Documented event

/-- A response can be parsed by the client. -/
theorem Answered.answer {codec : Codec} (hcodec : codec.Lawful) {step : Handled}
    (h : Answered codec step) {answer : Bytes} (hanswer : step.response = some answer) :
    answer.length < 2 ^ 31 ∧ (codec.parseFromBytes answer).isSome := by
  obtain ⟨request, server, server', _, -, -, ⟨hlength, text, rfl, -⟩, hresponse, -⟩ := h
  obtain rfl := Option.some.inj (hanswer.symm.trans hresponse)
  have hserialize := serializeToString_eq_some.2 ⟨hlength, rfl⟩
  rw [hcodec.response hserialize]
  exact ⟨by omega, rfl⟩

/-- What has been put on the channel, when `queued` comes from the current call of `send`: all
responses, or all but the last one and what has been sent of it. -/
def Accounts (queued : Bytes) (answers : List Bytes) (output : Bytes) : Point → Prop
  | .testForSend message | .loadForLength message =>
    queued = [] ∧ ∃ before, answers = before ++ [message] ∧ output = encodeAll frame before
  | .sendingLength message _ =>
    queued <+: lenPrefix message ∧
      ∃ before, answers = before ++ [message] ∧ output = encodeAll frame before ++ queued
  | .loadForContent message =>
    queued = [] ∧
      ∃ before, answers = before ++ [message] ∧
        output = encodeAll frame before ++ lenPrefix message
  | .sendingContent message _ =>
    queued <+: message ∧
      ∃ before, answers = before ++ [message] ∧
        output = encodeAll frame before ++ (lenPrefix message ++ queued)
  | _ => queued = [] ∧ output = encodeAll frame answers

/-- At most one connection has been opened, and the handler has run on its messages in their order.
As long as the client's end is open, the thread stays with it, and the accounts hold. -/
structure ServerAt (codec : Codec) (setup : Setup) (accepted clientOpen : Bool) (queued : Bytes)
    (thread : Server.ListenThread.State) (connections : List Connection) (output : Bytes)
    (handled : List Handled) : Prop where
  isolated : Invariant connections thread
  opened : connections.map Connection.socket = if accepted then [setup.socket] else []
  listening : Listening setup thread
  inside : clientOpen = true → accepted = true → ¬ Outside thread.point
  delivered : connections.flatMap Connection.delivered =
    handled.map Handled.message ++ current thread.point
  answered : ∀ step ∈ handled, Answered codec step
  accounts : clientOpen = true →
    Accounts queued (handled.filterMap Handled.response) output thread.point

theorem Accounts.output_isPrefix {queued output : Bytes} {answers : List Bytes} {point : Point}
    (h : Accounts queued answers output point) : output <+: encodeAll frame answers := by
  have hsending {before : List Bytes} {message part : Bytes} (hanswers : answers = before ++ [message])
      (hpart : part <+: frame message) : encodeAll frame before ++ part <+: encodeAll frame answers := by
    rw [hanswers, encodeAll_concat, List.prefix_append_right_inj]
    exact hpart
  cases point with
  | testForSend message | loadForLength message =>
    obtain ⟨-, before, hanswers, rfl⟩ := h
    simpa using hsending hanswers List.nil_prefix
  | sendingLength message client =>
    obtain ⟨hqueued, before, hanswers, rfl⟩ := h
    exact hsending hanswers (hqueued.trans (List.prefix_append _ _))
  | loadForContent message =>
    obtain ⟨-, before, hanswers, rfl⟩ := h
    exact hsending hanswers (List.prefix_append _ _)
  | sendingContent message client =>
    obtain ⟨hqueued, before, hanswers, rfl⟩ := h
    apply hsending hanswers
    rw [frame_eq_lenPrefix, List.prefix_append_right_inj]
    exact hqueued
  | _ =>
    obtain ⟨-, rfl⟩ := h
    exact List.prefix_rfl

theorem Accounts.queued_isPrefix {queued output : Bytes} {answers : List Bytes} {point : Point}
    {socket : Server.Win32.Socket} {buffer : Bytes} (h : Accounts queued answers output point)
    (hsending : sending point = some (socket, buffer)) : queued <+: buffer := by
  cases point with
  | sendingLength message client | sendingContent message client =>
    obtain ⟨-, rfl⟩ := Prod.mk.inj (Option.some.inj hsending)
    exact h.1
  | _ => cases hsending

/-! ## The steps of the thread -/

section Steps

variable {codec : Codec} {setup : Setup} {accepted clientOpen : Bool} {queued : Bytes}
  {thread thread' : Server.ListenThread.State} {connections : List Connection} {output : Bytes}
  {handled : List Handled} {label : Server.ListenThread.Label}

/-- As long as there is one connection, every call belongs to it. -/
theorem record_eq_map (hlength : connections.length ≤ 1)
    (hnew : ∀ socket newClient, label ≠ .accept socket (some newClient)) :
    record connections label = connections.map (·.note label) := by
  have hrecord : record connections label = connections.modifyHead (·.note label) := by
    unfold record
    split
    · exact absurd rfl (hnew _ _)
    · rfl
  rw [hrecord]
  match connections, hlength with
  | [], _ => rfl
  | [connection], _ => rfl

theorem ServerAt.length_connections_le
    (h : ServerAt codec setup accepted clientOpen queued thread connections output handled) :
    connections.length ≤ 1 := by
  have hlength := congrArg List.length h.opened
  rw [List.length_map] at hlength
  rw [hlength]
  cases accepted <;> simp

theorem map_socket_note (connections : List Connection) (label : Server.ListenThread.Label) :
    (connections.map (·.note label)).map Connection.socket = connections.map Connection.socket := by
  rw [List.map_map]
  apply List.map_congr_left
  intro connection _
  exact connection.note_socket label

/-- The listening socket stays, and `accept` is called with it. -/
theorem listening_step (h : Listening setup thread)
    (hstep : Server.ListenThread.Step codec thread label thread') : Listening setup thread' := by
  obtain ⟨hsocket, haccepting⟩ := h
  cases hstep with
  | loadServerSocket h =>
    refine ⟨hsocket, ?_⟩
    intro socket hpoint
    obtain rfl := Point.accepting.inj hpoint
    exact hsocket
  | outerTest h | testExisting h | innerTestRunning h | innerTestClient h | testForSend h =>
    refine ⟨hsocket, fun socket hpoint ↦ ?_⟩
    rw [Server.ListenThread.State.goto_point] at hpoint
    split at hpoint <;> cases hpoint
  | _ => exact ⟨hsocket, fun socket hpoint ↦ by cases hpoint⟩

/-- The inner loop is left only when `recv` brings no data. -/
theorem inside_step (hinv : Invariant connections thread) (h : ¬ Outside thread.point)
    (hrecv : ∀ socket chunk, label = .recv socket chunk → received chunk ≠ [])
    (hstep : Server.ListenThread.Step codec thread label thread') : ¬ Outside thread'.point := by
  obtain ⟨hrunning, hpoint⟩ := hinv
  cases hstep with
  | outerTest hat | loadServerSocket hat | acceptFailed hat | loadForClose hat | close hat
  | reset hat | clear hat | accepted hat | notAccepted hat =>
    rw [hat] at h
    exact absurd trivial h
  -- both tests of the inner loop succeed: nobody stops the thread, and the client has its socket
  | innerTestRunning hat =>
    rw [Server.ListenThread.State.goto_point, if_pos hrunning]
    exact id
  | innerTestClient hat =>
    rw [hat] at hpoint
    obtain ⟨⟨connection, earlier, -, hsocket, -⟩, -⟩ := hpoint
    rw [Server.ListenThread.State.goto_point, if_neg (by simp [hsocket])]
    exact id
  | testExisting hat | testForSend hat =>
    rw [Server.ListenThread.State.goto_point]
    split <;> exact id
  | disconnected hat => exact absurd rfl (hrecv _ _ rfl)
  | receiveFailed hat => exact absurd rfl (hrecv _ _ rfl)
  | _ => exact id

/-- What has been delivered has been handled, up to the message that the handler is running on. -/
theorem delivered_step (hlength : connections.length ≤ 1) (hinv : Invariant connections thread)
    (h : connections.flatMap Connection.delivered =
      handled.map Handled.message ++ current thread.point)
    (hnew : ∀ socket newClient, label ≠ .accept socket (some newClient))
    (hstep : Server.ListenThread.Step codec thread label thread') :
    (record connections label).flatMap Connection.delivered =
      (recordHandled handled label).map Handled.message ++ current thread'.point := by
  rw [record_eq_map hlength hnew, List.flatMap_map]
  cases hstep with
  | deliver hat hpass =>
    rw [hat] at h
    have hserving := hinv.2
    rw [hat] at hserving
    obtain ⟨connection, earlier, rfl, -⟩ := hserving
    obtain rfl : earlier = [] := by simpa using hlength
    simpa [Connection.note, recordHandled, current] using h
  | noResponse hat | response hat =>
    rw [hat] at h
    simpa [Connection.note, recordHandled, current] using h
  | accepted hat => exact absurd rfl (hnew _ _)
  | outerTest hat | testExisting hat | innerTestRunning hat | innerTestClient hat
  | testForSend hat =>
    rw [hat] at h
    rw [Server.ListenThread.State.goto_point]
    split <;> exact h
  | _ hat =>
    rw [hat] at h
    exact h

theorem stream_note {connection : Connection}
    (hrecv : ∀ socket outcome, label = .recv socket outcome → received outcome = []) :
    (connection.note label).stream = connection.stream := by
  cases label with
  | recv socket outcome =>
    simp [Connection.note, Connection.stream, hrecv socket outcome rfl]
  | _ => rfl

/-- Only a call of `recv` that brings data takes bytes off the channel. -/
theorem stream_step (hlength : connections.length ≤ 1)
    (hnew : ∀ socket newClient, label ≠ .accept socket (some newClient))
    (hrecv : ∀ socket outcome, label = .recv socket outcome → received outcome = []) :
    (record connections label).flatMap Connection.stream =
      connections.flatMap Connection.stream := by
  rw [record_eq_map hlength hnew, List.flatMap_map]
  congr 1
  funext connection
  exact stream_note hrecv

/-- Nothing goes onto the channel outside the calls of `send`. -/
theorem accounts_step (hinv : Invariant connections thread)
    (h : Accounts queued (handled.filterMap Handled.response) output thread.point)
    (hsend : ∀ socket buffer length bytesSent, label ≠ .send socket buffer length bytesSent)
    (hstep : Server.ListenThread.Step codec thread label thread') :
    Accounts queued ((recordHandled handled label).filterMap Handled.response) output
      thread'.point := by
  cases hstep with
  | lengthSent hat | lengthFailed hat | contentSent hat => exact absurd rfl (hsend _ _ _ _)
  | noResponse hat =>
    rw [hat] at h
    simpa [recordHandled, Accounts] using h
  | response hat =>
    rw [hat] at h
    simp only [recordHandled, List.filterMap_append, Server.ListenThread.State.goto_point]
    exact ⟨h.1, _, rfl, h.2⟩
  | testForSend hat =>
    -- a connection that is being served has a socket, so the response is sent
    have hserving := hinv.2
    rw [hat] at h hserving
    obtain ⟨connection, earlier, -, hsocket, -⟩ := hserving
    rw [Server.ListenThread.State.goto_point, if_neg (by simp [hsocket])]
    exact h
  | loadForLength hat | loadForContent hat =>
    rw [hat] at h
    obtain ⟨rfl, before, hanswers, hbefore⟩ := h
    refine ⟨List.nil_prefix, before, hanswers, ?_⟩
    rw [List.append_nil]
    exact hbefore
  | outerTest hat | testExisting hat | innerTestRunning hat | innerTestClient hat =>
    rw [hat] at h
    rw [Server.ListenThread.State.goto_point]
    split <;> exact h
  | _ hat =>
    rw [hat] at h
    exact h

/-- A call of `send` returns when its buffer is on the channel. -/
theorem accounts_sent {answers : List Bytes} {socket : Server.Win32.Socket} {length : Int32}
    {count : ℕ} (h : Accounts queued answers output thread.point)
    (hstep : Server.ListenThread.Step codec thread (.send socket queued length (some count)) thread') :
    Accounts [] answers output thread'.point := by
  generalize hlabel : Server.ListenThread.Label.send socket queued length (some count) = label
    at hstep
  cases hstep with
  | lengthSent hat =>
    injection hlabel with _ hqueued
    rw [hat, hqueued] at h
    exact ⟨rfl, h.2⟩
  | contentSent hat =>
    injection hlabel with _ hqueued
    rw [hat, hqueued] at h
    obtain ⟨-, before, rfl, rfl⟩ := h
    refine ⟨rfl, ?_⟩
    rw [← frame_eq_lenPrefix, encodeAll_concat]
  | _ => cases hlabel

/-- A call of `send` may put its buffer on the channel in pieces. -/
theorem accounts_queue {answers : List Bytes} {point : Point} {socket : Server.Win32.Socket}
    {buffer chunk : Bytes} (h : Accounts queued answers output point)
    (hsending : sending point = some (socket, buffer)) (hpart : queued ++ chunk <+: buffer) :
    Accounts (queued ++ chunk) answers (output ++ chunk) point := by
  cases point with
  | sendingLength message client =>
    obtain ⟨-, rfl⟩ := Prod.mk.inj (Option.some.inj hsending)
    obtain ⟨-, before, hanswers, rfl⟩ := h
    exact ⟨hpart, before, hanswers, List.append_assoc _ _ _⟩
  | sendingContent message client =>
    obtain ⟨-, rfl⟩ := Prod.mk.inj (Option.some.inj hsending)
    obtain ⟨-, before, hanswers, rfl⟩ := h
    refine ⟨hpart, before, hanswers, ?_⟩
    simp only [List.append_assoc]
  | _ => cases hsending

/-- A message that parses is answered. -/
theorem answered_step (h : ∀ step ∈ handled, Answered codec step)
    (hhandled : ∀ oneProtoMsg trace response, label = .handled oneProtoMsg trace response →
      (codec.parseFromString oneProtoMsg).isSome ∧ ∀ event ∈ trace, Documented event)
    (hstep : Server.ListenThread.Step codec thread label thread') :
    ∀ step ∈ recordHandled handled label, Answered codec step := by
  have hnew {server server' : WindowCasterServer} {message : Bytes} {trace : List (Event Os)}
      {response : Option Bytes} (hlabel : label = .handled message trace response)
      (hruns : (server.respond codec message).Runs trace (response, server')) :
      ∀ step ∈ handled ++ [⟨message, trace, response⟩], Answered codec step := by
    obtain ⟨hparse, hdocumented⟩ := hhandled _ _ _ hlabel
    obtain ⟨request, hrequest⟩ := Option.isSome_iff_exists.1 hparse
    obtain ⟨reply, hdispatch, hreply, rfl⟩ := reply_of_runs_respond hrequest hruns hdocumented
    refine List.forall_mem_append.2 ⟨h, ?_⟩
    rw [List.forall_mem_singleton]
    exact ⟨request, server, server', reply, hrequest, hdispatch, hreply, rfl, hdocumented⟩
  cases hstep with
  | noResponse hat hruns => exact hnew rfl hruns
  | response hat hruns => exact hnew rfl hruns
  | _ => exact h

end Steps

/-! ## The invariant of the thread -/

namespace ServerAt

variable {codec : Codec} {setup : Setup} {accepted clientOpen : Bool} {queued : Bytes}
  {thread thread' : Server.ListenThread.State} {connections : List Connection} {output : Bytes}
  {handled : List Handled} {label : Server.ListenThread.Label}

/-- The steps that neither accept a client nor send. -/
theorem step (h : ServerAt codec setup accepted clientOpen queued thread connections output handled)
    (haccept : ∀ socket newClient, label ≠ .accept socket newClient)
    (hsend : ∀ socket buffer length bytesSent, label ≠ .send socket buffer length bytesSent)
    (hrecv : clientOpen = true → ∀ socket chunk, label = .recv socket chunk → received chunk ≠ [])
    (hhandled : ∀ oneProtoMsg trace response, label = .handled oneProtoMsg trace response →
      (codec.parseFromString oneProtoMsg).isSome ∧ ∀ event ∈ trace, Documented event)
    (hstep : Server.ListenThread.Step codec thread label thread') :
    ServerAt codec setup accepted clientOpen queued thread' (record connections label) output
      (recordHandled handled label) where
  isolated := invariant_step h.isolated hstep
  opened := by
    rw [record_eq_map h.length_connections_le fun _ _ ↦ haccept _ _, map_socket_note, h.opened]
  listening := listening_step h.listening hstep
  inside hopen haccepted := inside_step h.isolated (h.inside hopen haccepted) (hrecv hopen) hstep
  delivered := delivered_step h.length_connections_le h.isolated h.delivered
    (fun _ _ ↦ haccept _ _) hstep
  answered := answered_step h.answered hhandled hstep
  accounts hopen := accounts_step h.isolated (h.accounts hopen) hsend hstep

theorem accept (h : ServerAt codec setup false clientOpen queued thread connections output handled)
    (hstep : Server.ListenThread.Step codec thread
      (.accept (some setup.listening) (some setup.socket)) thread') :
    ServerAt codec setup true clientOpen queued thread'
      (record connections (.accept (some setup.listening) (some setup.socket))) output handled := by
  obtain rfl : connections = [] := by simpa using h.opened
  have hdelivered := h.delivered
  refine ⟨invariant_step h.isolated hstep, rfl, listening_step h.listening hstep, fun _ _ ↦ ?_, ?_,
    h.answered, fun hopen ↦ ?_⟩
  · cases hstep with
    | accepted hat => exact id
  · cases hstep with
    | accepted hat =>
      rw [hat] at hdelivered
      exact hdelivered
  · have haccounts := accounts_step h.isolated (h.accounts hopen) (by simp) hstep
    exact haccounts

/-- A call of `send`: after it, the accounts are as they are claimed to be. -/
theorem send (h : ServerAt codec setup accepted clientOpen queued thread connections output handled)
    {socket : Server.Win32.Socket} {buffer : Bytes} {length : Int32} {bytesSent : Option ℕ}
    (haccounts : clientOpen = true →
      Accounts [] (handled.filterMap Handled.response) output thread'.point)
    (hstep : Server.ListenThread.Step codec thread (.send socket buffer length bytesSent) thread') :
    ServerAt codec setup accepted clientOpen [] thread'
      (record connections (.send socket buffer length bytesSent)) output handled where
  isolated := invariant_step h.isolated hstep
  opened := by rw [record_eq_map h.length_connections_le (by simp), map_socket_note, h.opened]
  listening := listening_step h.listening hstep
  inside hopen haccepted := inside_step h.isolated (h.inside hopen haccepted) (by simp) hstep
  delivered := delivered_step h.length_connections_le h.isolated h.delivered (by simp) hstep
  answered := h.answered
  accounts := haccounts

theorem queue (h : ServerAt codec setup accepted clientOpen queued thread connections output handled)
    {socket : Server.Win32.Socket} {buffer chunk : Bytes}
    (hsending : sending thread.point = some (socket, buffer)) (hpart : queued ++ chunk <+: buffer) :
    ServerAt codec setup accepted clientOpen (queued ++ chunk) thread connections (output ++ chunk)
      handled :=
  { h with accounts := fun hopen ↦ accounts_queue (h.accounts hopen) hsending hpart }

theorem close (h : ServerAt codec setup accepted clientOpen queued thread connections output handled) :
    ServerAt codec setup accepted false queued thread connections output handled :=
  { h with
    inside := fun hopen ↦ absurd hopen Bool.false_ne_true
    accounts := fun hopen ↦ absurd hopen Bool.false_ne_true }

/-! ### What follows from the invariant -/

/-- At most one connection is ever opened. -/
theorem connections_eq
    (h : ServerAt codec setup accepted clientOpen queued thread connections output handled) :
    (accepted = false ∧ connections = []) ∨
      ∃ connection, accepted = true ∧ connections = [connection] ∧
        connection.socket = setup.socket := by
  have hopened := h.opened
  cases accepted with
  | false => exact .inl ⟨rfl, by simpa using hopened⟩
  | true =>
    obtain ⟨connection, rest, rfl, hsocket, hrest⟩ := List.map_eq_cons_iff.1 hopened
    obtain rfl := List.map_eq_nil_iff.1 hrest
    exact .inr ⟨connection, rfl, rfl, hsocket⟩

variable {messages : List Bytes}

theorem stream_recv
    (h : ServerAt codec setup accepted clientOpen queued thread connections output handled)
    {socket : Server.Win32.Socket} {chunk : Bytes} (hchunk : chunk ≠ [])
    (hstep : Server.ListenThread.Step codec thread (.recv socket (some chunk)) thread') :
    (record connections (.recv socket (some chunk))).flatMap Connection.stream =
      connections.flatMap Connection.stream ++ chunk := by
  have hserving := h.isolated.2
  obtain ⟨-, rfl⟩ | ⟨connection, -, rfl, -⟩ := h.connections_eq
  · cases hstep with
    | received hat =>
      rw [hat] at hserving
      obtain ⟨⟨connection, earlier, hnone, -⟩, -⟩ := hserving
      cases hnone
    | disconnected hat => exact absurd rfl hchunk
  · obtain ⟨byte, bytes, rfl⟩ := List.exists_cons_of_ne_nil hchunk
    simp [record, Connection.note, Connection.stream, received]

/-- From a stream of frames, the thread delivers their messages in their order. -/
theorem delivered_isPrefix
    (h : ServerAt codec setup accepted clientOpen queued thread connections output handled)
    (hlength : ∀ message ∈ messages, message.length < Server.Framing.lengthLimit)
    (htaken : connections.flatMap Connection.stream <+: encodeAll frame messages) :
    connections.flatMap Connection.delivered <+: messages := by
  obtain ⟨-, rfl⟩ | ⟨connection, -, rfl, -⟩ := h.connections_eq
  · exact List.nil_prefix
  · rw [List.flatMap_singleton] at htaken ⊢
    have hisolated := h.isolated.isolated (List.mem_singleton.2 rfl)
    have hmessages := Server.Framing.messagesIn_isPrefix htaken
    rw [(Server.Framing.messagesIn_encodeAll hlength).1] at hmessages
    exact hisolated.2.trans hmessages

/-- In a stream of frames, no prefix is oversize. -/
theorem point_ne_undefined
    (h : ServerAt codec setup accepted clientOpen queued thread connections output handled)
    (hlength : ∀ message ∈ messages, message.length < Server.Framing.lengthLimit)
    (htaken : connections.flatMap Connection.stream <+: encodeAll frame messages) :
    thread.point ≠ .undefined := by
  intro hpoint
  obtain ⟨latest, hlatest, hsize⟩ := h.isolated.oversize_of_undefined hpoint
  obtain ⟨-, rfl⟩ | ⟨connection, -, rfl, -⟩ := h.connections_eq
  · cases hlatest
  · obtain rfl := Option.some.inj hlatest
    rw [List.flatMap_singleton] at htaken
    exact Server.Framing.not_oversize_of_isPrefix hlength htaken hsize

/-- At `recv`, all messages of the bytes received have been handled. -/
theorem handled_at_recv
    (h : ServerAt codec setup accepted clientOpen queued thread connections output handled)
    (hlength : ∀ message ∈ messages, message.length < Server.Framing.lengthLimit)
    (htaken : connections.flatMap Connection.stream = encodeAll frame messages)
    {socket : Server.Win32.Socket} (hpoint : thread.point = .receiving socket) :
    handled.map Handled.message = messages := by
  have hdelivered := h.delivered
  rw [hpoint] at hdelivered
  have hall : connections.flatMap Connection.delivered = handled.map Handled.message := by
    rw [hdelivered]
    exact List.append_nil _
  rw [← hall]
  obtain ⟨-, rfl⟩ | ⟨connection, -, rfl, -⟩ := h.connections_eq
  · have hserving := h.isolated.2
    rw [hpoint] at hserving
    obtain ⟨⟨connection, earlier, hnone, -⟩, -⟩ := hserving
    cases hnone
  · rw [List.flatMap_singleton] at htaken ⊢
    rw [h.isolated.delivered_at_recv hpoint (List.mem_singleton.2 rfl), htaken]
    exact (Server.Framing.messagesIn_encodeAll hlength).1

theorem encodeAll_handled_isPrefix
    (h : ServerAt codec setup accepted clientOpen queued thread connections output handled) :
    encodeAll frame (handled.map Handled.message) <+: connections.flatMap Connection.stream := by
  have hhandled : handled.map Handled.message <+: connections.flatMap Connection.delivered := by
    rw [h.delivered]
    exact List.prefix_append _ _
  obtain ⟨-, rfl⟩ | ⟨connection, -, rfl, -⟩ := h.connections_eq
  · rw [List.prefix_nil.1 hhandled]
    exact List.nil_prefix
  · rw [List.flatMap_singleton] at hhandled ⊢
    obtain ⟨-, hdelivered⟩ := h.isolated.isolated (List.mem_singleton.2 rfl)
    obtain ⟨more, hmore⟩ := hhandled.trans hdelivered
    rw [← Server.Framing.encodeAll_messagesIn connection.stream, ← hmore, encodeAll_append,
      List.append_assoc]
    exact List.prefix_append _ _

/-- The calls of `recv` and `send` are made with the socket of the client. -/
theorem socket_eq
    (h : ServerAt codec setup accepted clientOpen queued thread connections output handled)
    {socket : Server.Win32.Socket} (hpoint : thread.point = .receiving socket ∨
      ∃ buffer, sending thread.point = some (socket, buffer)) : socket = some setup.socket := by
  have hserving : Serving thread.clientSocket thread.pending connections ∧
      socket = thread.clientSocket := by
    have hat := h.isolated.2
    generalize thread.point = point at hpoint hat
    obtain rfl | ⟨buffer, hsending⟩ := hpoint
    · exact ⟨hat.1, hat.2.2⟩
    · cases point with
      | sendingLength message client | sendingContent message client =>
        obtain ⟨rfl, -⟩ := Prod.mk.inj (Option.some.inj hsending)
        exact hat
      | _ => cases hsending
  obtain ⟨⟨latest, earlier, hlatest, hsocket, -⟩, rfl⟩ := hserving
  obtain ⟨-, hnone⟩ | ⟨connection, -, hone, hopened⟩ := h.connections_eq
  · rw [hnone] at hlatest
    cases hlatest
  · rw [hone] at hlatest
    obtain ⟨rfl, -⟩ := List.cons.inj hlatest
    rw [hsocket, hopened]

/-- The handler runs on a message that has been delivered. -/
theorem mem_delivered
    (h : ServerAt codec setup accepted clientOpen queued thread connections output handled)
    {message : Bytes} {trace : List (Event Os)} {response : Option Bytes}
    (hstep : Server.ListenThread.Step codec thread (.handled message trace response) thread') :
    message ∈ connections.flatMap Connection.delivered := by
  have hcurrent : current thread.point = [message] := by
    cases hstep with
    | noResponse hat | response hat =>
      rw [hat]
      rfl
  rw [h.delivered, hcurrent]
  simp

/-- Every run of the handler has a response. -/
theorem map_response
    (h : ServerAt codec setup accepted clientOpen queued thread connections output handled) :
    handled.map Handled.response = (handled.filterMap Handled.response).map some := by
  have hanswered := h.answered
  clear h
  induction handled with
  | nil => rfl
  | cons step rest ih =>
    obtain ⟨hstep, hrest⟩ := List.forall_mem_cons.1 hanswered
    obtain ⟨-, -, -, response, -, -, -, hresponse, -⟩ := hstep
    rw [List.map_cons, hresponse, List.filterMap_cons_some hresponse, List.map_cons, ih hrest]

theorem length_responses
    (h : ServerAt codec setup accepted clientOpen queued thread connections output handled) :
    (handled.filterMap Handled.response).length = handled.length := by
  calc
    _ = ((handled.filterMap Handled.response).map some).length := (List.length_map _).symm
    _ = (handled.map Handled.response).length := congrArg List.length h.map_response.symm
    _ = handled.length := List.length_map _

end ServerAt

end WindowCaster.System.Service
