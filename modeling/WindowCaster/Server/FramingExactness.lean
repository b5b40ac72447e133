import WindowCaster.Server.Framing

/-!
# What the framing loop delivers, and where it reads

As long as no length prefix makes the 32-bit sum wrap around, the messages delivered and the buffer
together are exactly the bytes received, for every way of cutting the stream. When such a prefix
does come to the front of the buffer, the loop reads and erases past its end. The lengths from
`2 ^ 32 - 4` on are the only ones with this effect.
-/

namespace WindowCaster.Server.Framing

open Foundation.Interaction Foundation.StreamDecoder Foundation.StreamDecoder.Decoder
open Foundation.LengthFraming Foundation.Text

/-- Every length prefix that the loop reads while these chunks arrive is below the limit. -/
def PrefixesBelowLimit (chunks : List Bytes) : Prop :=
  ∀ k pending, LoopHead (chunks.take k) pending → 4 ≤ pending.length →
    (msgLen pending).toNat < lengthLimit

/-- The iterators formed from a buffer that passes the test lie in `[begin, end]`, and the pass
takes exactly the prefix and `msgLen` further bytes off it. -/
def RangesInside (pending : Bytes) : Prop :=
  4 ≤ pending.length → ¬ tooShort pending →
    4 + (msgLen pending).toNat ≤ pending.length ∧
      ∃ oneProtoMsg rest, framingPass pending = .message oneProtoMsg rest ∧
        oneProtoMsg = (pending.drop 4).take (msgLen pending).toNat ∧
        oneProtoMsg.length = (msgLen pending).toNat ∧
        rest.length + (4 + (msgLen pending).toNat) = pending.length

/-! ## Exactness -/

theorem encodeAll_messagesIn (stream : Bytes) :
    encodeAll frame (messagesIn stream) ++ residue stream = stream :=
  grammar.encodeAll_drain frame (fun h ↦ (eq_frame_append h).2.2) stream

theorem length_of_mem_messagesIn {stream message : Bytes} (h : message ∈ messagesIn stream) :
    message.length < lengthLimit :=
  grammar.forall_mem_drain (fun hread ↦ (eq_frame_append hread).1) stream message h

/-- Frames of admissible messages are read back, and what follows them is read after them. -/
theorem messagesIn_encodeAll_append (messages : List Bytes) (rest : Bytes)
    (hlength : ∀ message ∈ messages, message.length < lengthLimit) :
    messagesIn (encodeAll frame messages ++ rest) = messages ++ messagesIn rest ∧
      residue (encodeAll frame messages ++ rest) = residue rest := by
  have hdrain := grammar.drain_encodeAll_append frame rest
    fun message hmessage rest ↦
      readFrame_frame_append (by decide : lengthLimit ≤ 2 ^ 32) (hlength message hmessage) rest
  rw [messagesIn, residue, hdrain]
  exact ⟨rfl, rfl⟩

theorem messagesIn_isPrefix {stream whole : Bytes} (h : stream <+: whole) :
    messagesIn stream <+: messagesIn whole := by
  obtain ⟨more, rfl⟩ := h
  rw [messagesIn_append]
  exact List.prefix_append _ _

theorem messagesIn_encodeAll {messages : List Bytes}
    (hlength : ∀ message ∈ messages, message.length < lengthLimit) :
    messagesIn (encodeAll frame messages) = messages ∧ residue (encodeAll frame messages) = [] := by
  have hnil : grammar.next [] = none := by decide
  have hread := messagesIn_encodeAll_append messages [] hlength
  rwa [List.append_nil, messagesIn_of_none hnil, residue_of_none hnil, List.append_nil] at hread

/-- A stream of admissible frames, cut anywhere, never has an oversize prefix at its front. -/
theorem not_oversize_of_isPrefix {messages : List Bytes} {stream : Bytes}
    (hlength : ∀ message ∈ messages, message.length < lengthLimit)
    (h : stream <+: encodeAll frame messages) : ¬ Oversize (residue stream) := by
  intro hsize
  obtain ⟨more, hmore⟩ := h
  have hwhole := (messagesIn_encodeAll hlength).2
  rw [← hmore, residue_append, residue_of_none (next_of_oversize hsize more)] at hwhole
  have hnil : residue stream = [] := (List.append_eq_nil_iff.1 hwhole).1
  rw [hnil] at hsize
  exact absurd hsize.1 (by decide)

/-- Nothing that the decoder could still take is left, unless the prefix is oversize. -/
theorem not_holdsFrame_residue {stream : Bytes} (hsize : ¬ Oversize (residue stream)) :
    ¬ HoldsFrame (residue stream) := by
  rintro ⟨hfour, hlength⟩
  have hnone : ¬ HasFrame lengthLimit (residue stream) := readFrame_eq_none.1 (next_residue stream)
  exact hnone ⟨hfour, Nat.not_le.1 fun hlimit ↦ hsize ⟨hfour, hlimit⟩, hlength⟩

/-- The loop reads an oversize prefix exactly when the stream has one behind its frames. -/
theorem oversize_residue_of_loopHead {chunks : List Bytes} {pending : Bytes}
    (hchunks : ∀ chunk ∈ chunks, IsChunk chunk) (h : LoopHead chunks pending)
    (hsize : Oversize pending) : Oversize (residue chunks.flatten) := by
  have hnone : grammar.next pending = none := by
    simpa using next_of_oversize hsize []
  rw [← h.residue_eq hchunks, residue_of_none hnone]
  exact hsize

/-- An oversize prefix stays where it is when further chunks arrive. -/
theorem oversize_residue_mono {first : List Bytes} (second : List Bytes)
    (h : Oversize (residue first.flatten)) :
    Oversize (residue (first ++ second).flatten) := by
  have hnone := next_of_oversize h second.flatten
  rw [List.flatten_append, residue_append, residue_of_none hnone]
  exact oversize_append h _

/-- At the moment an oversize prefix becomes the residue of the stream, the loop starts with it. -/
theorem exists_loopHead_of_oversize {chunks : List Bytes} (hchunks : ∀ chunk ∈ chunks, IsChunk chunk)
    (h : Oversize (residue chunks.flatten)) :
    ∃ k pending, LoopHead (chunks.take k) pending ∧ Oversize pending := by
  induction chunks using List.reverseRecOn with
  | nil =>
    rw [List.flatten_nil, residue_of_none (by decide)] at h
    exact absurd h.1 (by decide)
  | append_singleton chunks chunk ih =>
    have hinit : ∀ other ∈ chunks, IsChunk other := fun other hother ↦
      hchunks other (List.mem_append_left _ hother)
    by_cases hearlier : Oversize (residue chunks.flatten)
    · obtain ⟨k, pending, hhead, hsize⟩ := ih hinit hearlier
      have hk : (chunks ++ [chunk]).take (min k chunks.length) = chunks.take k := by
        rw [List.take_append_of_le_length (min_le_right _ _), ← List.take_take, List.take_length]
      exact ⟨min k chunks.length, pending, hk ▸ hhead, hsize⟩
    · obtain ⟨-, hundefined, -⟩ := receiveAll_eq hinit
      rw [decide_eq_false hearlier] at hundefined
      have hhead := (LoopHead.received chunks chunk hundefined).to_residue
      have hresidue := (LoopHead.received chunks chunk hundefined).residue_eq hchunks
      refine ⟨(chunks ++ [chunk]).length, _, by rwa [List.take_length], ?_⟩
      rw [hresidue]
      exact h

/-- The hypothesis on the prefixes read, as a statement about the bytes alone. -/
theorem prefixesBelowLimit_iff {chunks : List Bytes} (hchunks : ∀ chunk ∈ chunks, IsChunk chunk) :
    PrefixesBelowLimit chunks ↔ ¬ Oversize (residue chunks.flatten) := by
  constructor
  · intro h hsize
    obtain ⟨k, pending, hhead, hfour, hlimit⟩ := exists_loopHead_of_oversize hchunks hsize
    exact absurd (h k pending hhead hfour) (Nat.not_lt.2 hlimit)
  · intro h k pending hhead hfour
    by_contra hlimit
    have htake := oversize_residue_of_loopHead
      (fun chunk hchunk ↦ hchunks chunk (List.mem_of_mem_take hchunk)) hhead
      ⟨hfour, Nat.not_lt.1 hlimit⟩
    have hall := oversize_residue_mono (chunks.drop k) htake
    rw [List.take_append_drop] at hall
    exact h hall

/-- After every chunk the delivered messages, framed again, and the buffer are the bytes received,
and the buffer holds no complete frame. The messages therefore depend on the bytes only, and the
frames written by `send_message` come out as they went in. -/
theorem receiveAll_exact (chunks : List Bytes) (hchunks : ∀ chunk ∈ chunks, IsChunk chunk)
    (hprefixes : PrefixesBelowLimit chunks) :
    (∀ k, (receiveAll (chunks.take k)).undefined = false ∧
      encodeAll (fun message ↦ le32 (UInt32.ofNat message.length) ++ message)
          (receiveAll (chunks.take k)).delivered ++ (receiveAll (chunks.take k)).pending =
        (chunks.take k).flatten ∧
      (∀ message ∈ (receiveAll (chunks.take k)).delivered, message.length < 2 ^ 32 - 4) ∧
      ¬ HoldsFrame (receiveAll (chunks.take k)).pending) ∧
    (∀ other : List Bytes, (∀ chunk ∈ other, IsChunk chunk) → other.flatten = chunks.flatten →
      receiveAll other = receiveAll chunks) ∧
    (∀ (client : Client.Network.NetworkClient)
        (sends : List (Bytes × List (Event Client.Network.Tcp))),
      (∀ send ∈ sends, (client.sendMessage send.1).Runs send.2 true ∧
        send.1.length < 2 ^ 32 - 4) →
      chunks.flatten = (sends.map fun send ↦ Client.Network.written send.2).flatten →
      receiveAll chunks = ⟨sends.map Prod.fst, [], false⟩) := by
  have hstate (arrived : List Bytes) (harrived : ∀ chunk ∈ arrived, IsChunk chunk)
      (hsize : ¬ Oversize (residue arrived.flatten)) :
      receiveAll arrived = ⟨messagesIn arrived.flatten, residue arrived.flatten, false⟩ := by
    obtain ⟨hdelivered, hundefined, hpending⟩ := receiveAll_eq harrived
    rw [decide_eq_false hsize] at hundefined
    rw [← hdelivered, ← hpending hundefined, ← hundefined]
  have hsize := (prefixesBelowLimit_iff hchunks).1 hprefixes
  refine ⟨fun k ↦ ?_, fun other hother hflatten ↦ ?_, fun client sends hsends hflatten ↦ ?_⟩
  · have htake : ¬ Oversize (residue (chunks.take k).flatten) := by
      intro h
      have hall := oversize_residue_mono (chunks.drop k) h
      rw [List.take_append_drop] at hall
      exact hsize hall
    rw [hstate _ (fun chunk hchunk ↦ hchunks chunk (List.mem_of_mem_take hchunk)) htake]
    exact ⟨rfl, encodeAll_messagesIn _, fun message hmessage ↦ length_of_mem_messagesIn hmessage,
      not_holdsFrame_residue htake⟩
  · rw [hstate other hother (by rwa [hflatten]), hstate chunks hchunks hsize, hflatten]
  · have hwritten : chunks.flatten = encodeAll frame (sends.map Prod.fst) := by
      rw [hflatten, encodeAll, List.map_map]
      congr 1
      apply List.map_congr_left
      intro send hsend
      exact Client.Network.written_of_sendMessage (hsends send hsend).1
    have hread := messagesIn_encodeAll_append (sends.map Prod.fst) []
      (List.forall_mem_map.2 fun send hsend ↦ (hsends send hsend).2)
    have hnil : grammar.next [] = none := by decide
    rw [List.append_nil, messagesIn_of_none hnil, residue_of_none hnil, List.append_nil] at hread
    rw [hstate chunks hchunks hsize, hwritten, hread.1, hread.2]

/-- A two-byte message whose length prefix and body are both cut by the chunks. -/
theorem receiveAll_exact_cut_frame :
    receiveAll [[2, 0], [0, 0, 7], [8]] = ⟨[[7, 8]], [], false⟩ := by
  have hchunks : ∀ chunk ∈ ([[2, 0], [0, 0, 7], [8]] : List Bytes), IsChunk chunk := by decide
  have hframe : grammar.next [2, 0, 0, 0, 7, 8] = some ([7, 8], []) := by decide
  have hresidue : ¬ Oversize (residue ([[2, 0], [0, 0, 7], [8]] : List Bytes).flatten) := by
    change ¬ Oversize (residue [2, 0, 0, 0, 7, 8])
    rw [residue_of_frame hframe, residue_of_none (by decide)]
    decide
  have hexact := receiveAll_exact [[2, 0], [0, 0, 7], [8]] hchunks
    ((prefixesBelowLimit_iff hchunks).2 hresidue)
  refine hexact.2.2 ⟨true⟩
    [([7, 8], [⟨.writeAll (le32 2), true⟩, ⟨.writeAll [7, 8], true⟩])] ?_ (by decide)
  intro send hsend
  obtain rfl := List.mem_singleton.1 hsend
  exact ⟨⟨true, _, rfl, true, _, rfl, rfl, rfl⟩, by decide⟩

/-! ## The range of the accesses -/

/-- A pass that takes a message does so within the buffer. -/
theorem rangesInside_of_message {pending oneProtoMsg rest : Bytes}
    (h : framingPass pending = .message oneProtoMsg rest) : RangesInside pending := by
  intro _ _
  obtain ⟨hlength, -, hmessage, hrest⟩ := framingPass_eq_message.1 h
  refine ⟨hlength, oneProtoMsg, rest, h, hmessage, ?_, ?_⟩
  · rw [hmessage, List.length_take, List.length_drop]
    omega
  · rw [hrest, List.length_drop]
    omega

theorem not_rangesInside {pending : Bytes} (hsize : Oversize pending)
    (hlength : pending.length < 4 + (msgLen pending).toNat) : ¬ RangesInside pending := by
  intro h
  have hinside := (h hsize.1 (not_tooShort hsize)).1
  omega

/-- For every stream and every way of cutting it: all ranges the loop forms lie inside the buffer
if and only if no length from `2 ^ 32 - 4` on stands where a frame of the stream begins. -/
theorem rangesInside_iff (chunks : List Bytes) (hchunks : ∀ chunk ∈ chunks, IsChunk chunk) :
    (∀ k pending, LoopHead (chunks.take k) pending → RangesInside pending) ↔
      ¬ Oversize (residue chunks.flatten) := by
  constructor
  · intro h hsize
    obtain ⟨k, pending, hhead, hoversize⟩ := exists_loopHead_of_oversize hchunks hsize
    have hbounded := hhead.bounded fun chunk hchunk ↦ hchunks chunk (List.mem_of_mem_take hchunk)
    exact not_rangesInside hoversize (hbounded.length_lt hoversize) (h k pending hhead)
  · intro h k pending hhead
    have hbelow := (prefixesBelowLimit_iff hchunks).2 h k pending hhead
    intro hfour hshort
    rw [tooShort_iff (hbelow hfour), Nat.not_lt] at hshort
    have hnext : grammar.next pending = some _ :=
      readFrame_eq_some.2 ⟨⟨hfour, hbelow hfour, hshort⟩, rfl, rfl⟩
    have hpass := framingPass_of_frame hnext
    exact rangesInside_of_message hpass hfour (framingPass_eq_message.1 hpass).2.1

/-- An ordinary message in two chunks keeps every range inside the buffer. -/
theorem rangesInside_cut_frame :
    (∀ chunk ∈ ([[2, 0, 0], [0, 7, 8]] : List Bytes), IsChunk chunk) ∧
      ∀ k pending, LoopHead (([[2, 0, 0], [0, 7, 8]] : List Bytes).take k) pending →
        RangesInside pending := by
  refine ⟨by decide, (rangesInside_iff [[2, 0, 0], [0, 7, 8]] (by decide)).2 ?_⟩
  have hframe : grammar.next [2, 0, 0, 0, 7, 8] = some ([7, 8], []) := by decide
  change ¬ Oversize (residue [2, 0, 0, 0, 7, 8])
  rw [residue_of_frame hframe, residue_of_none (by decide)]
  decide

/-- Four bytes `FF` pass the test, although the buffer holds nothing behind the prefix. -/
theorem outOfRange_of_all_ones :
    (∀ chunk ∈ [[0xFF, 0xFF, 0xFF, 0xFF]], IsChunk chunk) ∧
      LoopHead [[0xFF, 0xFF, 0xFF, 0xFF]] [0xFF, 0xFF, 0xFF, 0xFF] ∧
      ¬ RangesInside [0xFF, 0xFF, 0xFF, 0xFF] :=
  ⟨by decide, LoopHead.received [] _ rfl, not_rangesInside (by decide) (by decide)⟩

end WindowCaster.Server.Framing
