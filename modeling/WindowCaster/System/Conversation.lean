import WindowCaster.System.Channels

/-!
# Where the client is

The client's requests are planned before it starts. At any time it has finished some exchanges, and
what it has written and read beyond them belongs to the stage its program is in. A step of the
client keeps this description, provided that the answers it reads parse.
-/

namespace WindowCaster.System.Conversation

open Foundation.Interaction Foundation.LengthFraming Foundation.Text
open Foundation.StreamDecoder.Decoder (encodeAll encodeAll_append encodeAll_concat encodeAll_cons)
open Protocol.Messages Protocol.Readers Client.Network Client.Session Channels

variable {α : Type}

/-- The requests in their order, each with the message it is written to. -/
abbrev Plan := List (ClientRequest × Bytes)

/-- The messages are what the codec writes, and their sizes stay below the limit of the format. -/
def Planned (codec : Codec) (plan : Plan) : Prop :=
  ∀ step ∈ plan, codec.writeToBytes step.1 = some step.2 ∧ step.2.length < 2 ^ 31

theorem Planned.length_lt {codec : Codec} {plan : Plan} (h : Planned codec plan) {message : Bytes}
    (hmem : message ∈ plan.map Prod.snd) : message.length < Server.Framing.lengthLimit := by
  obtain ⟨step, hstep, rfl⟩ := List.mem_map.1 hmem
  apply Nat.lt_trans (h step hstep).2
  decide

/-- The request that is written next is the next one of the plan. -/
theorem Planned.next {codec : Codec} {past rest : Plan} {request : ClientRequest} {message : Bytes}
    {requests : List ClientRequest} (h : Planned codec (past ++ rest))
    (hrequests : rest.map Prod.fst = request :: requests)
    (hwrite : codec.writeToBytes request = some message) :
    ∃ after, rest = (request, message) :: after ∧ after.map Prod.fst = requests := by
  obtain ⟨⟨request, planned⟩, after, rfl, rfl, hafter⟩ := List.map_eq_cons_iff.1 hrequests
  obtain ⟨hplanned, -⟩ := h (request, planned) (by simp)
  obtain rfl := Option.some.inj (hwrite.symm.trans hplanned)
  exact ⟨after, rfl, hafter⟩

/-- What has been moved by the current call fits the call. -/
def Fits : Program Tcp α → Bytes → Prop
  | .done _, moved => moved = []
  | .ask (.writeAll bytes) _, moved => moved <+: bytes
  | .ask (.readExact length) _, moved => moved.length ≤ length

theorem fits_nil (program : Program Tcp α) : Fits program [] := by
  match program with
  | .done _ => rfl
  | .ask (.writeAll bytes) _ => exact List.nil_prefix
  | .ask (.readExact length) _ => exact Nat.zero_le length

/-- The exchanges in `past` are over; in the last three stages a further request has been begun. -/
inductive ClientAt (codec : Codec) (plan : Plan) (program : Program Tcp α) (moved : Bytes)
    (log : Log) : Prop
  | request (past rest : Plan) (hplan : plan = past ++ rest)
      (hscript : Script codec .request program (rest.map Prod.fst)) (hfits : Fits program moved)
      (hcount : log.received.length = past.length) (hawait : log.awaiting = false)
      (hsent : log.sent = encodeAll frame (past.map Prod.snd) ++ moved)
      (hread : log.read = encodeAll frame log.received)
  | content (past rest : Plan) (request : ClientRequest) (message : Bytes)
      (hplan : plan = past ++ (request, message) :: rest)
      (hscript : Script codec (.content message) program (rest.map Prod.fst))
      (hfits : Fits program moved)
      (hcount : log.received.length = past.length) (hawait : log.awaiting = false)
      (hsent : log.sent = encodeAll frame (past.map Prod.snd) ++
        le32 (UInt32.ofNat message.length) ++ moved)
      (hread : log.read = encodeAll frame log.received)
  | length (past rest : Plan) (request : ClientRequest) (message : Bytes)
      (hplan : plan = past ++ (request, message) :: rest)
      (hscript : Script codec .length program (rest.map Prod.fst)) (hfits : Fits program moved)
      (hcount : log.received.length = past.length) (hawait : log.awaiting = false)
      (hsent : log.sent = encodeAll frame (past.map Prod.snd ++ [message]))
      (hread : log.read = encodeAll frame log.received ++ moved)
  | body (past rest : Plan) (request : ClientRequest) (message lenBytes : Bytes)
      (hplan : plan = past ++ (request, message) :: rest)
      (hscript : Script codec (.body (readLe32 lenBytes).toNat) program (rest.map Prod.fst))
      (hfits : Fits program moved) (hlength : lenBytes.length = 4)
      (hcount : log.received.length = past.length) (hawait : log.awaiting = true)
      (hsent : log.sent = encodeAll frame (past.map Prod.snd ++ [message]))
      (hread : log.read = encodeAll frame log.received ++ (lenBytes ++ moved))

theorem ClientAt.fits {codec : Codec} {plan : Plan} {program : Program Tcp α} {moved : Bytes}
    {log : Log} (h : ClientAt codec plan program moved log) : Fits program moved := by
  cases h <;> assumption

/-! ## The steps of the client -/

section Steps

variable {codec : Codec} {plan : Plan} {program : Program Tcp α} {moved : Bytes} {log : Log}

/-- Bytes are only written for a request. -/
theorem ClientAt.write (h : ClientAt codec plan program moved log)
    {bytes chunk : Bytes} {next : Bool → Program Tcp α}
    (hprogram : program = .ask (.writeAll bytes) next) (hpart : moved ++ chunk <+: bytes) :
    ClientAt codec plan program (moved ++ chunk) (log.note (.write chunk)) := by
  have hfits : Fits program (moved ++ chunk) := by rwa [hprogram]
  cases h with
  | request past rest hplan hscript _ hcount hawait hsent hread =>
    refine .request past rest hplan hscript hfits hcount hawait ?_ hread
    simp only [Log.note, hsent, List.append_assoc]
  | content past rest request message hplan hscript _ hcount hawait hsent hread =>
    refine .content past rest request message hplan hscript hfits hcount hawait ?_ hread
    simp only [Log.note, hsent, List.append_assoc]
  | length past rest request message hplan hscript =>
    rw [hprogram] at hscript
    cases hscript
  | body past rest request message lenBytes hplan hscript =>
    rw [hprogram] at hscript
    cases hscript

/-- A length that has been written is followed by its content, a content by the answer. -/
theorem ClientAt.written (hplanned : Planned codec plan)
    (h : ClientAt codec plan program moved log) {next : Bool → Program Tcp α}
    (hprogram : program = .ask (.writeAll moved) next) :
    ClientAt codec plan (next true) [] (log.note (.returned ⟨.writeAll moved, true⟩)) := by
  rw [hprogram] at h
  have hfits := fits_nil (next true)
  cases h with
  | request past rest hplan hscript _ hcount hawait hsent hread =>
    generalize hrequests : rest.map Prod.fst = requests at hscript
    cases hscript with
    | request hwrite hnext =>
      rw [hplan] at hplanned
      obtain ⟨rest, rfl, rfl⟩ := hplanned.next hrequests hwrite
      refine .content past rest _ _ hplan hnext hfits hcount hawait ?_ hread
      rw [List.append_nil]
      exact hsent
  | content past rest request message hplan hscript _ hcount hawait hsent hread =>
    cases hscript with
    | content hnext =>
      refine .length past rest request _ hplan hnext hfits hcount hawait ?_ ?_
      · rw [encodeAll_concat, frame, ← List.append_assoc]
        exact hsent
      · rw [List.append_nil]
        exact hread
  | length past rest request message hplan hscript => cases hscript
  | body past rest request message lenBytes hplan hscript => cases hscript

/-- Bytes are only read for an answer. -/
theorem ClientAt.read (h : ClientAt codec plan program moved log) {length : ℕ}
    {chunk : Bytes} {next : Option { bytes : Bytes // bytes.length = length } → Program Tcp α}
    (hprogram : program = .ask (.readExact length) next)
    (hpart : moved.length + chunk.length ≤ length) :
    ClientAt codec plan program (moved ++ chunk) (log.note (.read chunk)) := by
  have hfits : Fits program (moved ++ chunk) := by
    rw [hprogram]
    simpa [Fits] using hpart
  cases h with
  | request past rest hplan hscript =>
    rw [hprogram] at hscript
    cases hscript
  | content past rest request message hplan hscript =>
    rw [hprogram] at hscript
    cases hscript
  | length past rest request message hplan hscript _ hcount hawait hsent hread =>
    refine .length past rest request message hplan hscript hfits hcount hawait hsent ?_
    simp only [Log.note, hread, List.append_assoc]
  | body past rest request message lenBytes hplan hscript _ hlength hcount hawait hsent hread =>
    refine .body past rest request message lenBytes hplan hscript hfits hlength hcount hawait hsent ?_
    simp only [Log.note, hread, List.append_assoc]

/-- Four bytes and as many as they announce are a frame. -/
theorem append_eq_frame {lenBytes message : Bytes} (hlength : lenBytes.length = 4)
    (hmessage : message.length = (readLe32 lenBytes).toNat) : lenBytes ++ message = frame message := by
  have hprefix : le32 (readLe32 lenBytes) = lenBytes := by
    calc
      _ = lenBytes.take 4 := le32_readLe32 (Nat.le_of_eq hlength.symm)
      _ = lenBytes := List.take_of_length_le (Nat.le_of_eq hlength)
  rw [frame, hmessage, UInt32.ofNat_toNat, hprefix]

/-- A message that has been read whole is the next frame of the stream. -/
theorem ClientAt.read_eq_of_awaiting (h : ClientAt codec plan program moved log) {length : ℕ}
    {next : Option { bytes : Bytes // bytes.length = length } → Program Tcp α}
    (hprogram : program = .ask (.readExact length) next) (hall : moved.length = length)
    (hawaiting : log.awaiting = true) :
    log.read = encodeAll frame (log.received ++ [moved]) ∧ moved.length < 2 ^ 32 := by
  rw [hprogram] at h
  cases h with
  | request past rest hplan hscript => cases hscript
  | content past rest request message hplan hscript => cases hscript
  | length past rest request message hplan hscript _ hcount hawait =>
    rw [hawait] at hawaiting
    exact absurd hawaiting Bool.false_ne_true
  | body past rest request message lenBytes hplan hscript _ hlength hcount hawait hsent hread =>
    cases hscript with
    | body hnext =>
      constructor
      · rw [hread, append_eq_frame hlength hall, encodeAll_concat]
      · rw [hall]
        exact (readLe32 lenBytes).toNat_lt

/-- An answer that parses ends the exchange. -/
theorem ClientAt.readDone (h : ClientAt codec plan program moved log) {length : ℕ}
    {next : Option { bytes : Bytes // bytes.length = length } → Program Tcp α}
    (hprogram : program = .ask (.readExact length) next) (hall : moved.length = length)
    (hparse : log.awaiting = true → (codec.parseFromBytes moved).isSome) :
    ClientAt codec plan (next (some ⟨moved, hall⟩)) []
      (log.note (.returned ⟨.readExact length, some ⟨moved, hall⟩⟩)) := by
  have hframe := h.read_eq_of_awaiting hprogram hall
  have hfits := fits_nil (next (some ⟨moved, hall⟩))
  rw [hprogram] at h
  cases h with
  | request past rest hplan hscript => cases hscript
  | content past rest request message hplan hscript => cases hscript
  | length past rest request message hplan hscript _ hcount hawait hsent hread =>
    cases hscript with
    | length hnext =>
      simp only [Log.note, Log.noteReturned, hawait, Bool.false_eq_true, if_false, Bool.not_false]
      refine .body past rest request message moved hplan (hnext ⟨moved, hall⟩) hfits hall
        hcount rfl hsent ?_
      rw [List.append_nil]
      exact hread
  | body past rest request message lenBytes hplan hscript _ hlength hcount hawait hsent hread =>
    cases hscript with
    | body hnext =>
      simp only [Log.note, Log.noteReturned, hawait, if_true, Bool.not_true]
      refine .request (past ++ [(request, message)]) rest ?_
        (hnext ⟨moved, hall⟩ (hparse hawait)) hfits ?_ rfl ?_ (hframe hawait).1
      · rw [hplan, List.append_assoc, List.singleton_append]
      · simp [hcount]
      · rw [List.append_nil, List.map_append, List.map_singleton]
        exact hsent

/-- Where the client is depends on its own calls only. -/
theorem ClientAt.of_eq (h : ClientAt codec plan program moved log) {log' : Log}
    (hsent' : log'.sent = log.sent) (hread' : log'.read = log.read)
    (hawaiting' : log'.awaiting = log.awaiting) (hreceived' : log'.received = log.received) :
    ClientAt codec plan program moved log' := by
  obtain ⟨sent, read, awaiting, received, _, _, _⟩ := log
  obtain ⟨sent', read', awaiting', received', _, _, _⟩ := log'
  subst hsent' hread' hawaiting' hreceived'
  cases h with
  | request past rest hplan hscript hfits hcount hawait hsent hread =>
    exact .request past rest hplan hscript hfits hcount hawait hsent hread
  | content past rest request message hplan hscript hfits hcount hawait hsent hread =>
    exact .content past rest request message hplan hscript hfits hcount hawait hsent hread
  | length past rest request message hplan hscript hfits hcount hawait hsent hread =>
    exact .length past rest request message hplan hscript hfits hcount hawait hsent hread
  | body past rest request message lenBytes hplan hscript hfits hlength hcount hawait hsent hread =>
    exact .body past rest request message lenBytes hplan hscript hfits hlength hcount hawait hsent
      hread

end Steps

/-! ## What has been written -/

/-- The client writes the frames of its plan, from the first one on. -/
theorem ClientAt.sent_isPrefix {codec : Codec} {plan : Plan} {program : Program Tcp α}
    {moved : Bytes} {log : Log} (hplanned : Planned codec plan)
    (h : ClientAt codec plan program moved log) :
    log.sent <+: encodeAll frame (plan.map Prod.snd) := by
  cases h with
  | request past rest hplan hscript hfits _ _ hsent _ =>
    rw [hsent, hplan, List.map_append, encodeAll_append, List.prefix_append_right_inj]
    generalize hrequests : rest.map Prod.fst = requests at hscript
    cases hscript with
    | stop =>
      have hnone : moved = [] := hfits
      rw [hnone]
      exact List.nil_prefix
    | request hwrite _ =>
      rw [hplan] at hplanned
      obtain ⟨rest, rfl, -⟩ := hplanned.next hrequests hwrite
      have hfits : moved <+: le32 _ := hfits
      apply hfits.trans
      simp only [List.map_cons, encodeAll_cons, frame, List.append_assoc]
      exact List.prefix_append _ _
  | content past rest request message hplan hscript hfits _ _ hsent _ =>
    rw [hsent, hplan, List.map_append, encodeAll_append, List.append_assoc,
      List.prefix_append_right_inj, List.map_cons, encodeAll_cons, frame, List.append_assoc,
      List.prefix_append_right_inj]
    cases hscript with
    | content _ =>
      have hfits : moved <+: message := hfits
      exact hfits.trans (List.prefix_append _ _)
  | length past rest request message hplan _ _ _ _ hsent _
  | body past rest request message lenBytes hplan _ _ _ _ _ hsent _ =>
    have hmessages : plan.map Prod.snd = past.map Prod.snd ++ [message] ++ rest.map Prod.snd := by
      simp [hplan]
    rw [hsent, hmessages, encodeAll_append frame (past.map Prod.snd ++ [message])]
    exact List.prefix_append _ _

/-! ## Waiting calls -/

section Waiting

variable {codec : Codec} {plan : Plan} {program : Program Tcp α} {moved : Bytes} {log : Log}

/-- A client that reads has sent one request more than it has answers, and its call is complete as
soon as the next answer has arrived. -/
theorem ClientAt.reading (h : ClientAt codec plan program moved log) {length : ℕ}
    {next : Option { bytes : Bytes // bytes.length = length } → Program Tcp α}
    (hprogram : program = .ask (.readExact length) next) :
    (∃ messages, messages <+: plan.map Prod.snd ∧ log.sent = encodeAll frame messages ∧
      messages.length = log.received.length + 1) ∧
    ∀ answer, answer.length < 2 ^ 32 → log.read = encodeAll frame (log.received ++ [answer]) →
      moved.length = length := by
  rw [hprogram] at h
  have hmessages (past rest : Plan) (request : ClientRequest) (message : Bytes)
      (hplan : plan = past ++ (request, message) :: rest)
      (hcount : log.received.length = past.length)
      (hsent : log.sent = encodeAll frame (past.map Prod.snd ++ [message])) :
      ∃ messages, messages <+: plan.map Prod.snd ∧ log.sent = encodeAll frame messages ∧
        messages.length = log.received.length + 1 := by
    refine ⟨past.map Prod.snd ++ [message], ⟨rest.map Prod.snd, ?_⟩, hsent, ?_⟩
    · simp [hplan]
    · simp [hcount]
  cases h with
  | request past rest hplan hscript => cases hscript
  | content past rest request message hplan hscript => cases hscript
  | length past rest request message hplan hscript hfits hcount hawait hsent hread =>
    refine ⟨hmessages past rest request message hplan hcount hsent, ?_⟩
    intro answer _ hframes
    cases hscript with
    | length _ =>
      rw [hread, encodeAll_concat, List.append_cancel_left_eq] at hframes
      have hfits : moved.length ≤ 4 := hfits
      have hlength : moved.length = 4 + answer.length := by simp [hframes]
      omega
  | body past rest request message lenBytes hplan hscript hfits hlength hcount hawait hsent hread =>
    refine ⟨hmessages past rest request message hplan hcount hsent, ?_⟩
    intro answer hanswer hframes
    cases hscript with
    | body _ =>
      rw [hread, encodeAll_concat, List.append_cancel_left_eq, frame] at hframes
      obtain ⟨rfl, rfl⟩ := List.append_inj hframes (hlength.trans (length_le32 _).symm)
      rw [← List.append_nil (le32 _), readLe32_le32_append, UInt32.toNat_ofNat',
        Nat.mod_eq_of_lt hanswer]

/-- A request of which a part is missing is not among the frames that have been sent. -/
theorem length_le_of_cut {past rest : List Bytes} {message part sent : Bytes}
    {messages : List Bytes} (hmessages : messages <+: past ++ message :: rest)
    (hsent : sent = encodeAll frame past ++ part) (hpart : part.length < (frame message).length)
    (hframes : encodeAll frame messages <+: sent) : messages.length ≤ past.length := by
  by_contra hmore
  have hpast : past <+: messages :=
    List.prefix_of_prefix_length_le (List.prefix_append _ _) hmessages (Nat.le_of_not_le hmore)
  obtain ⟨more, rfl⟩ := hpast
  rw [hsent, encodeAll_append, List.prefix_append_right_inj] at hframes
  rw [List.prefix_append_right_inj] at hmessages
  match more, hmessages with
  | [], _ => simp at hmore
  | next :: more, hmessages =>
    obtain ⟨rfl, -⟩ := List.cons_prefix_cons.1 hmessages
    have hlength := hframes.length_le
    rw [encodeAll_cons, List.length_append] at hlength
    omega

/-- A client that writes has an answer to every request it has sent whole. -/
theorem ClientAt.writing (h : ClientAt codec plan program moved log) {bytes : Bytes}
    {next : Bool → Program Tcp α} (hprogram : program = .ask (.writeAll bytes) next)
    (hmoved : moved ≠ bytes) :
    log.read = encodeAll frame log.received ∧
      ∀ messages, messages <+: plan.map Prod.snd → encodeAll frame messages <+: log.sent →
        messages.length ≤ log.received.length := by
  rw [hprogram] at h
  have hshorter (hfits : moved <+: bytes) : moved.length < bytes.length := by
    apply Nat.lt_of_le_of_ne hfits.length_le
    intro hlength
    exact hmoved (hfits.eq_of_length hlength)
  cases h with
  | request past rest hplan hscript hfits hcount hawait hsent hread =>
    refine ⟨hread, fun messages hmessages hframes ↦ ?_⟩
    generalize hrequests : rest.map Prod.fst = requests at hscript
    cases hscript with
    | request hwrite _ =>
      obtain ⟨⟨asked, message⟩, rest, rfl, rfl, -⟩ := List.map_eq_cons_iff.1 hrequests
      rw [hplan, List.map_append, List.map_cons] at hmessages
      have hcut := length_le_of_cut hmessages hsent ?_ hframes
      · rwa [List.length_map, ← hcount] at hcut
      · have hlength := hshorter hfits
        rw [length_le32] at hlength
        rw [length_frame]
        omega
  | content past rest request message hplan hscript hfits hcount hawait hsent hread =>
    refine ⟨hread, fun messages hmessages hframes ↦ ?_⟩
    cases hscript with
    | content _ =>
      rw [hplan, List.map_append, List.map_cons] at hmessages
      rw [List.append_assoc] at hsent
      have hcut := length_le_of_cut hmessages hsent ?_ hframes
      · rwa [List.length_map, ← hcount] at hcut
      · have hlength := hshorter hfits
        simp only [length_frame, List.length_append, length_le32]
        omega
  | length past rest request message hplan hscript => cases hscript
  | body past rest request message lenBytes hplan hscript => cases hscript

end Waiting

end WindowCaster.System.Conversation
