import WindowCaster.Protocol.Messages

/-!
# Reading the messages back

The client writes requests and reads responses with a Rust library, the server reads requests with
the C++ one. Neither reader is part of the sources, so a `Codec` leaves them open, and `Lawful`
says what the two programs rely on: what one side writes the other side reads back. The reference
readers of the second half follow the merge rules of the format and form a lawful codec.
-/

namespace WindowCaster.Protocol.Readers

open Foundation.StreamDecoder.Decoder Foundation.ProtobufWire Messages
open Foundation.Text

/-- `write_to_bytes` and `parse_from_bytes` of the client, `ParseFromString` of the server. -/
structure Codec where
  writeToBytes : ClientRequest → Option Bytes
  parseFromString : Bytes → Option ClientRequest
  parseFromBytes : Bytes → Option (ServerResponse String)

/-- Messages survive the way from one program to the other, and have their usual size. -/
structure Codec.Lawful (codec : Codec) : Prop where
  length : ∀ {request bytes}, codec.writeToBytes request = some bytes →
    bytes.length = request.encode.length
  request : ∀ {request bytes}, codec.writeToBytes request = some bytes → bytes.length < 2 ^ 31 →
    codec.parseFromString bytes = some request
  response : ∀ {response : ServerResponse String} {bytes},
    (response.map utf8).serializeToString = some bytes → codec.parseFromBytes bytes = some response

/-! ## The reference readers -/

/-- Merge the fields of a message body into a message, one after the other. -/
def merge {α : Type} (set : α → Field → Option α) (start : α) (input : Bytes) : Option α :=
  (parseFields input).bind fun fields ↦ fields.foldlM set start

def Image.set (image : Image) : Field → Option Image
  | ⟨1, .lengthDelimited data⟩ => some { image with data }
  | ⟨2, .varint width⟩ => some { image with width := width.toUInt32 }
  | ⟨3, .varint height⟩ => some { image with height := height.toUInt32 }
  | _ => some image

def Video.set (video : Video) : Field → Option Video
  | ⟨1, .lengthDelimited frameData⟩ => some { video with frameData }
  | ⟨2, .varint width⟩ => some { video with width := width.toUInt32 }
  | ⟨3, .varint height⟩ => some { video with height := height.toUInt32 }
  | _ => some video

/-- A member of a oneof that is already set is merged with, any other one is replaced. -/
def RenderCommand.set (command : RenderCommand) : Field → Option RenderCommand
  | ⟨1, .varint targetWindow⟩ => some { command with targetWindow }
  | ⟨2, .lengthDelimited input⟩ =>
    let start := match command.content with
      | some (.image image) => image
      | _ => ⟨[], 0, 0⟩
    (merge Image.set start input).map fun image ↦ { command with content := some (.image image) }
  | ⟨3, .lengthDelimited input⟩ =>
    let start := match command.content with
      | some (.video video) => video
      | _ => ⟨[], 0, 0⟩
    (merge Video.set start input).map fun video ↦ { command with content := some (.video video) }
  | _ => some command

def StopRender.set (command : StopRender) : Field → Option StopRender
  | ⟨1, .varint targetWindow⟩ => some { command with targetWindow }
  | _ => some command

def ClientRequest.set (request : ClientRequest) : Field → Option ClientRequest
  | ⟨1, .lengthDelimited input⟩ => (parseFields input).map fun _ ↦ ⟨some .getWindowList⟩
  | ⟨2, .lengthDelimited input⟩ =>
    let start := match request.request with
      | some (.renderCommand command) => command
      | _ => ⟨0, none⟩
    (merge RenderCommand.set start input).map fun command ↦ ⟨some (.renderCommand command)⟩
  | ⟨3, .lengthDelimited input⟩ =>
    let start := match request.request with
      | some (.stopRender command) => command
      | _ => ⟨0⟩
    (merge StopRender.set start input).map fun command ↦ ⟨some (.stopRender command)⟩
  | _ => some request

def Status.set (status : Status) : Field → Option Status
  | ⟨1, .varint success⟩ => some { status with success := success != 0 }
  | ⟨2, .lengthDelimited message⟩ => some { status with message }
  | _ => some status

/-- Text that is not well-formed UTF-8 makes the whole message unreadable. -/
def WindowInfo.set (info : WindowInfo String) : Field → Option (WindowInfo String)
  | ⟨1, .varint handle⟩ => some { info with handle }
  | ⟨2, .lengthDelimited title⟩ => (readUtf8 title).map fun title ↦ { info with title }
  | ⟨3, .lengthDelimited className⟩ =>
    (readUtf8 className).map fun className ↦ { info with className }
  | _ => some info

def WindowList.set (list : WindowList String) : Field → Option (WindowList String)
  | ⟨1, .lengthDelimited input⟩ =>
    (merge WindowInfo.set ⟨0, "", ""⟩ input).map fun info ↦ ⟨list.windows ++ [info]⟩
  | _ => some list

def ServerResponse.set (response : ServerResponse String) : Field → Option (ServerResponse String)
  | ⟨1, .lengthDelimited input⟩ =>
    (merge Status.set (response.status.getD ⟨false, []⟩) input).map fun status ↦
      { response with status := some status }
  | ⟨2, .lengthDelimited input⟩ =>
    (merge WindowList.set (response.windowList.getD ⟨[]⟩) input).map fun list ↦
      { response with windowList := some list }
  | _ => some response

/-- The codec of the wire format; the writer refuses what the size limit of the format excludes. -/
def wire : Codec where
  writeToBytes request := if request.encode.length < 2 ^ 31 then some request.encode else none
  parseFromString := merge ClientRequest.set ⟨none⟩
  parseFromBytes := merge ServerResponse.set ⟨none, none⟩

/-! ## The reference readers undo the encoding -/

/-- The fields that the messages consist of: legal numbers, no fixed-size values. -/
def Plain (fields : List Field) : Prop :=
  ∀ field ∈ fields, 0 < field.number ∧ field.number < 2 ^ 29 ∧
    ((∃ value, field.value = .varint value) ∨ ∃ bytes, field.value = .lengthDelimited bytes)

@[simp]
theorem plain_nil : Plain [] := by simp [Plain]

@[simp]
theorem plain_append {first second : List Field} :
    Plain (first ++ second) ↔ Plain first ∧ Plain second := by
  simp only [Plain, List.forall_mem_append]

@[simp]
theorem plain_messageField {number : ℕ} {input : Bytes} (h : 0 < number ∧ number < 2 ^ 29) :
    Plain (messageField number input) := by
  intro field hfield
  obtain rfl := List.mem_singleton.1 hfield
  exact ⟨h.1, h.2, .inr ⟨input, rfl⟩⟩

@[simp]
theorem plain_uint64Field {number : ℕ} {value : UInt64} (h : 0 < number ∧ number < 2 ^ 29) :
    Plain (uint64Field number value) := by
  intro field hfield
  unfold uint64Field at hfield
  split at hfield
  · simp at hfield
  · obtain rfl := List.mem_singleton.1 hfield
    exact ⟨h.1, h.2, .inl ⟨value, rfl⟩⟩

@[simp]
theorem plain_boolField {number : ℕ} {value : Bool} (h : 0 < number ∧ number < 2 ^ 29) :
    Plain (boolField number value) := by
  intro field hfield
  unfold boolField at hfield
  split at hfield
  · obtain rfl := List.mem_singleton.1 hfield
    exact ⟨h.1, h.2, .inl ⟨1, rfl⟩⟩
  · simp at hfield

@[simp]
theorem plain_bytesField {number : ℕ} {value : Bytes} (h : 0 < number ∧ number < 2 ^ 29) :
    Plain (bytesField number value) := by
  intro field hfield
  unfold bytesField at hfield
  split at hfield
  · simp at hfield
  · exact plain_messageField h field hfield

/-- The size limit on a body carries over to every submessage. -/
theorem length_lt_of_mem {fields : List Field} (number : ℕ) {input : Bytes}
    (hlength : (body fields).length < 2 ^ 31) (h : ⟨number, .lengthDelimited input⟩ ∈ fields) :
    input.length < 2 ^ 31 :=
  Nat.lt_of_le_of_lt (length_le_of_mem number h) hlength

theorem parseFields_body {fields : List Field} (hplain : Plain fields)
    (hlength : (body fields).length < 2 ^ 31) : parseFields (body fields) = some fields := by
  apply parseFields_encodeAll
  intro field hfield
  obtain ⟨number, value⟩ := field
  obtain ⟨hpos, hbound, ⟨value, rfl⟩ | ⟨bytes, rfl⟩⟩ := hplain _ hfield
  · exact ⟨hpos, hbound, trivial⟩
  · exact ⟨hpos, hbound, length_lt_of_mem _ hlength hfield⟩

theorem merge_body {α : Type} {set : α → Field → Option α} {start : α} {fields : List Field}
    (hplain : Plain fields) (hlength : (body fields).length < 2 ^ 31) :
    merge set start (body fields) = fields.foldlM set start := by
  rw [merge, parseFields_body hplain hlength, Option.bind_some]

/-! A scalar field with the default value is not written, and reading it would change nothing. -/

section Fold

variable {α : Type} {set : α → Field → Option α} {start : α} {number : ℕ}

theorem foldlM_uint64Field (update : UInt64 → α) {value : UInt64}
    (hset : ∀ value, set start ⟨number, .varint value⟩ = some (update value))
    (hzero : update 0 = start) :
    (uint64Field number value).foldlM set start = some (update value) := by
  unfold uint64Field
  split
  · next h => simp [h, hzero]
  · simp [hset]

theorem foldlM_uint32Field (update : UInt32 → α) {value : UInt32}
    (hset : ∀ value, set start ⟨number, .varint value⟩ = some (update value.toUInt32))
    (hzero : update 0 = start) :
    (uint32Field number value).foldlM set start = some (update value) := by
  have h : (uint64Field number value.toUInt64).foldlM set start =
      some (update value.toUInt64.toUInt32) :=
    foldlM_uint64Field (fun value ↦ update value.toUInt32) hset hzero
  rwa [UInt32.toUInt32_toUInt64] at h

theorem foldlM_boolField (update : Bool → α) {value : Bool}
    (hset : set start ⟨number, .varint 1⟩ = some (update true)) (hfalse : update false = start) :
    (boolField number value).foldlM set start = some (update value) := by
  cases value with
  | false => simp [boolField, hfalse]
  | true => simp [boolField, hset]

theorem foldlM_bytesField (update : Bytes → α) {value : Bytes}
    (hset : ∀ value, set start ⟨number, .lengthDelimited value⟩ = some (update value))
    (hnil : update [] = start) :
    (bytesField number value).foldlM set start = some (update value) := by
  unfold bytesField
  split
  · next h => simp [h, hnil]
  · simp [hset]

theorem foldlM_textField (update : String → α) {value : String}
    (hset : ∀ value, set start ⟨number, .lengthDelimited (utf8 value)⟩ = some (update value))
    (hempty : update "" = start) :
    (bytesField number (utf8 value)).foldlM set start = some (update value) := by
  unfold bytesField
  split
  · next h => simp [utf8_eq_nil.1 h, hempty]
  · simp [hset]

theorem foldlM_append (middle : α) {first second : List Field} {after : α}
    (hfirst : first.foldlM set start = some middle) (hsecond : second.foldlM set middle = some after) :
    (first ++ second).foldlM set start = some after := by
  rw [List.foldlM_append, hfirst]
  exact hsecond

end Fold

theorem merge_image {image : Image} (hlength : (body image.fields).length < 2 ^ 31) :
    merge Image.set ⟨[], 0, 0⟩ (body image.fields) = some image := by
  rw [merge_body (by simp [Image.fields, uint32Field]) hlength]
  refine foldlM_append _ (foldlM_append _
    (foldlM_bytesField (fun data ↦ (⟨data, 0, 0⟩ : Image)) (fun _ ↦ rfl) rfl)
    (foldlM_uint32Field (fun width ↦ (⟨image.data, width, 0⟩ : Image)) (fun _ ↦ rfl) rfl))
    (foldlM_uint32Field (fun height ↦ (⟨image.data, image.width, height⟩ : Image)) (fun _ ↦ rfl) rfl)

theorem merge_video {video : Video} (hlength : (body video.fields).length < 2 ^ 31) :
    merge Video.set ⟨[], 0, 0⟩ (body video.fields) = some video := by
  rw [merge_body (by simp [Video.fields, uint32Field]) hlength]
  refine foldlM_append _ (foldlM_append _
    (foldlM_bytesField (fun data ↦ (⟨data, 0, 0⟩ : Video)) (fun _ ↦ rfl) rfl)
    (foldlM_uint32Field (fun width ↦ (⟨video.frameData, width, 0⟩ : Video)) (fun _ ↦ rfl) rfl))
    (foldlM_uint32Field (fun height ↦ (⟨video.frameData, video.width, height⟩ : Video)) (fun _ ↦ rfl)
      rfl)

theorem merge_renderCommand {command : RenderCommand}
    (hlength : (body command.fields).length < 2 ^ 31) :
    merge RenderCommand.set ⟨0, none⟩ (body command.fields) = some command := by
  obtain ⟨targetWindow, content⟩ := command
  have hplain : Plain (RenderCommand.fields ⟨targetWindow, content⟩) := by
    rcases content with _ | image | video <;> simp [RenderCommand.fields, Content.fields]
  rw [merge_body hplain hlength]
  refine foldlM_append _
    (foldlM_uint64Field (fun target ↦ (⟨target, none⟩ : RenderCommand)) (fun _ ↦ rfl) rfl) ?_
  rcases content with _ | image | video
  · rfl
  · have hsub : (body image.fields).length < 2 ^ 31 := length_lt_of_mem 2 hlength
      (by simp [RenderCommand.fields, Content.fields, messageField])
    simp [Content.fields, messageField, RenderCommand.set, merge_image hsub]
  · have hsub : (body video.fields).length < 2 ^ 31 := length_lt_of_mem 3 hlength
      (by simp [RenderCommand.fields, Content.fields, messageField])
    simp [Content.fields, messageField, RenderCommand.set, merge_video hsub]

theorem merge_stopRender {command : StopRender} (hlength : (body command.fields).length < 2 ^ 31) :
    merge StopRender.set ⟨0⟩ (body command.fields) = some command := by
  rw [merge_body (by simp [StopRender.fields]) hlength]
  exact foldlM_uint64Field (fun target ↦ (⟨target⟩ : StopRender)) (fun _ ↦ rfl) rfl

theorem merge_clientRequest {request : ClientRequest}
    (hlength : (body request.fields).length < 2 ^ 31) :
    merge ClientRequest.set ⟨none⟩ (body request.fields) = some request := by
  obtain ⟨request⟩ := request
  have hplain : Plain (ClientRequest.fields ⟨request⟩) := by
    rcases request with _ | _ | command | command <;> simp [ClientRequest.fields, Request.fields]
  rw [merge_body hplain hlength]
  rcases request with _ | _ | command | command
  · rfl
  · have hnil : parseFields [] = some [] := parseFields_body plain_nil (by simp)
    simp [ClientRequest.fields, Request.fields, messageField, ClientRequest.set, hnil]
  · have hsub : (body command.fields).length < 2 ^ 31 := length_lt_of_mem 2 hlength
      (by simp [ClientRequest.fields, Request.fields, messageField])
    simp [ClientRequest.fields, Request.fields, messageField, ClientRequest.set,
      merge_renderCommand hsub]
  · have hsub : (body command.fields).length < 2 ^ 31 := length_lt_of_mem 3 hlength
      (by simp [ClientRequest.fields, Request.fields, messageField])
    simp [ClientRequest.fields, Request.fields, messageField, ClientRequest.set,
      merge_stopRender hsub]

theorem merge_status {status : Status} (hlength : (body status.fields).length < 2 ^ 31) :
    merge Status.set ⟨false, []⟩ (body status.fields) = some status := by
  rw [merge_body (by simp [Status.fields]) hlength]
  exact foldlM_append _
    (foldlM_boolField (fun success ↦ (⟨success, []⟩ : Status)) rfl rfl)
    (foldlM_bytesField (fun message ↦ (⟨status.success, message⟩ : Status)) (fun _ ↦ rfl) rfl)

theorem merge_windowInfo {info : WindowInfo String}
    (hlength : (body (info.map utf8).fields).length < 2 ^ 31) :
    merge WindowInfo.set ⟨0, "", ""⟩ (body (info.map utf8).fields) = some info := by
  rw [merge_body (by simp [WindowInfo.fields]) hlength]
  refine foldlM_append _ (foldlM_append _
    (foldlM_uint64Field (fun handle ↦ (⟨handle, "", ""⟩ : WindowInfo String)) (fun _ ↦ rfl) rfl)
    (foldlM_textField (fun title ↦ (⟨info.handle, title, ""⟩ : WindowInfo String)) (fun _ ↦ ?_) rfl))
    (foldlM_textField (fun className ↦ (⟨info.handle, info.title, className⟩ : WindowInfo String))
      (fun _ ↦ ?_) rfl)
  · simp [WindowInfo.set, WindowInfo.map]
  · simp [WindowInfo.set]

/-- The entries of a list are appended one by one. -/
theorem foldlM_windowList (earlier : List (WindowInfo String)) {windows : List (WindowInfo String)}
    (hlength : ∀ info ∈ windows, (body (info.map utf8).fields).length < 2 ^ 31) :
    (WindowList.fields ⟨windows.map (WindowInfo.map utf8)⟩).foldlM WindowList.set ⟨earlier⟩ =
      some ⟨earlier ++ windows⟩ := by
  induction windows generalizing earlier with
  | nil => simp [WindowList.fields]
  | cons info windows ih =>
    obtain ⟨hinfo, hrest⟩ := List.forall_mem_cons.1 hlength
    have htail := ih (earlier ++ [info]) hrest
    refine foldlM_append ⟨earlier ++ [info]⟩ ?_ ?_
    · simp [messageField, WindowList.set, merge_windowInfo hinfo]
    · simpa [WindowList.fields] using htail

theorem merge_windowList {list : WindowList String}
    (hlength : (body (list.map utf8).fields).length < 2 ^ 31) :
    merge WindowList.set ⟨[]⟩ (body (list.map utf8).fields) = some list := by
  have hplain : Plain (list.map utf8).fields := by
    intro field hfield
    simp only [WindowList.fields, List.mem_flatten, List.mem_map] at hfield
    obtain ⟨_, ⟨info, -, rfl⟩, hfield⟩ := hfield
    exact plain_messageField (by decide) field hfield
  rw [merge_body hplain hlength]
  refine foldlM_windowList [] fun info hinfo ↦ length_lt_of_mem 1 hlength ?_
  simp only [WindowList.fields, List.mem_flatten, List.mem_map]
  exact ⟨_, ⟨_, List.mem_map_of_mem hinfo, rfl⟩, List.mem_singleton_self _⟩

theorem merge_serverResponse {response : ServerResponse String}
    (hlength : (body (response.map utf8).fields).length < 2 ^ 31) :
    merge ServerResponse.set ⟨none, none⟩ (body (response.map utf8).fields) = some response := by
  obtain ⟨status, windowList⟩ := response
  have hplain :
      Plain (ServerResponse.fields ((⟨status, windowList⟩ : ServerResponse String).map utf8)) := by
    cases status <;> cases windowList <;> simp [ServerResponse.fields, ServerResponse.map]
  rw [merge_body hplain hlength]
  refine foldlM_append ((⟨status, none⟩ : ServerResponse String)) ?_ ?_
  · cases status with
    | none => rfl
    | some status =>
      have hsub : (body status.fields).length < 2 ^ 31 := length_lt_of_mem 1 hlength
        (by simp [ServerResponse.fields, ServerResponse.map, messageField])
      simp [ServerResponse.map, messageField, ServerResponse.set, merge_status hsub]
  · cases windowList with
    | none => rfl
    | some list =>
      have hsub : (body (list.map utf8).fields).length < 2 ^ 31 := length_lt_of_mem 2 hlength
        (by simp [ServerResponse.fields, ServerResponse.map, messageField])
      simp [ServerResponse.map, messageField, ServerResponse.set, merge_windowList hsub]

theorem writeToBytes_wire {request : ClientRequest} {bytes : Bytes} :
    wire.writeToBytes request = some bytes ↔
      request.encode.length < 2 ^ 31 ∧ bytes = request.encode := by
  simp [wire, eq_comm]

/-- A render request with little data can be written. -/
theorem writeToBytes_renderRequest (targetWindow : UInt64) (content : Content)
    (hsmall : 120 + content.data.length < 2 ^ 31) :
    ∃ bytes, wire.writeToBytes ⟨some (.renderCommand ⟨targetWindow, some content⟩)⟩ = some bytes ∧
      bytes.length < 2 ^ 31 := by
  have hlength := Nat.lt_of_le_of_lt (length_renderRequest_le targetWindow content) hsmall
  exact ⟨_, writeToBytes_wire.2 ⟨hlength, rfl⟩, hlength⟩

/-- No fields at all leave a message as it is. -/
theorem merge_nil {Message : Type} (set : Message → Field → Option Message) (start : Message) :
    merge set start [] = some start := by
  have hfields : parseFields [] = some [] := parseFields_body plain_nil (by simp)
  simp [merge, hfields]

theorem parseFromBytes_nil : wire.parseFromBytes [] = some ⟨none, none⟩ := merge_nil _ _

/-- The reference readers form a lawful codec, so the assumptions on a codec can be met. -/
theorem wire_lawful : wire.Lawful where
  length := by
    intro request bytes hwrite
    rw [(writeToBytes_wire.1 hwrite).2]
  request := by
    intro request bytes hwrite hlength
    obtain ⟨-, rfl⟩ := writeToBytes_wire.1 hwrite
    exact merge_clientRequest hlength
  response := by
    intro response bytes hwrite
    obtain ⟨hlength, rfl⟩ := serializeToString_eq_some.1 hwrite
    exact merge_serverResponse (Nat.lt_of_le_of_lt hlength (by decide))

end WindowCaster.Protocol.Readers
