import WindowCaster.Foundation.ProtobufWire

/-!
# The messages of `windowcaster.proto`

Requests and responses as the two programs hold them, and their encoding as the generated
serializer writes it: fields in the order of their numbers, a scalar or a byte string only when it
differs from its default, a submessage whenever it is set. Text is a byte string in the server and
a checked UTF-8 string in the client, so the types that hold text take its type as a parameter.
-/

namespace WindowCaster.Protocol.Messages

open Foundation.StreamDecoder.Decoder Foundation.ProtobufWire
open Foundation.Text (Bytes)

/-! ## Messages -/

structure Image where
  data : Bytes
  width : UInt32
  height : UInt32
  deriving DecidableEq

structure Video where
  frameData : Bytes
  width : UInt32
  height : UInt32
  deriving DecidableEq

inductive Content
  | image (image : Image)
  | video (video : Video)
  deriving DecidableEq

/-- The pixels of either kind of content. -/
def Content.data : Content → Bytes
  | .image content => content.data
  | .video content => content.frameData

def Content.width : Content → UInt32
  | .image content => content.width
  | .video content => content.width

def Content.height : Content → UInt32
  | .image content => content.height
  | .video content => content.height

structure RenderCommand where
  targetWindow : UInt64
  content : Option Content
  deriving DecidableEq

structure StopRender where
  targetWindow : UInt64
  deriving DecidableEq

inductive Request
  | getWindowList
  | renderCommand (command : RenderCommand)
  | stopRender (command : StopRender)
  deriving DecidableEq

structure ClientRequest where
  request : Option Request
  deriving DecidableEq

structure Status where
  success : Bool
  message : Bytes
  deriving DecidableEq

structure WindowInfo (Text : Type) where
  handle : UInt64
  title : Text
  className : Text
  deriving DecidableEq

structure WindowList (Text : Type) where
  windows : List (WindowInfo Text)
  deriving DecidableEq

structure ServerResponse (Text : Type) where
  status : Option Status
  windowList : Option (WindowList Text)
  deriving DecidableEq

/-! ## Text -/

def WindowInfo.map {α β : Type} (f : α → β) (info : WindowInfo α) : WindowInfo β :=
  ⟨info.handle, f info.title, f info.className⟩

def WindowList.map {α β : Type} (f : α → β) (list : WindowList α) : WindowList β :=
  ⟨list.windows.map (WindowInfo.map f)⟩

def ServerResponse.map {α β : Type} (f : α → β) (response : ServerResponse α) : ServerResponse β :=
  ⟨response.status, response.windowList.map (WindowList.map f)⟩

/-! ## Encoding -/

def uint64Field (number : ℕ) (value : UInt64) : List Field :=
  if value = 0 then [] else [⟨number, .varint value⟩]

def uint32Field (number : ℕ) (value : UInt32) : List Field := uint64Field number value.toUInt64

def boolField (number : ℕ) (value : Bool) : List Field :=
  if value then [⟨number, .varint 1⟩] else []

def bytesField (number : ℕ) (value : Bytes) : List Field :=
  if value = [] then [] else [⟨number, .lengthDelimited value⟩]

def messageField (number : ℕ) (body : Bytes) : List Field := [⟨number, .lengthDelimited body⟩]

/-- A message body is the concatenation of its encoded fields. -/
abbrev body (fields : List Field) : Bytes := encodeAll Field.encode fields

def Image.fields (image : Image) : List Field :=
  bytesField 1 image.data ++ uint32Field 2 image.width ++ uint32Field 3 image.height

def Video.fields (video : Video) : List Field :=
  bytesField 1 video.frameData ++ uint32Field 2 video.width ++ uint32Field 3 video.height

def Content.fields : Content → List Field
  | .image content => messageField 2 (body content.fields)
  | .video content => messageField 3 (body content.fields)

def RenderCommand.fields (command : RenderCommand) : List Field :=
  uint64Field 1 command.targetWindow ++ command.content.elim [] Content.fields

def StopRender.fields (command : StopRender) : List Field := uint64Field 1 command.targetWindow

def Request.fields : Request → List Field
  | .getWindowList => messageField 1 []
  | .renderCommand command => messageField 2 (body command.fields)
  | .stopRender command => messageField 3 (body command.fields)

def ClientRequest.fields (request : ClientRequest) : List Field :=
  request.request.elim [] Request.fields

def Status.fields (status : Status) : List Field :=
  boolField 1 status.success ++ bytesField 2 status.message

def WindowInfo.fields (info : WindowInfo Bytes) : List Field :=
  uint64Field 1 info.handle ++ bytesField 2 info.title ++ bytesField 3 info.className

def WindowList.fields (list : WindowList Bytes) : List Field :=
  (list.windows.map fun info ↦ messageField 1 (body info.fields)).flatten

def ServerResponse.fields (response : ServerResponse Bytes) : List Field :=
  response.status.elim [] (fun status ↦ messageField 1 (body status.fields)) ++
    response.windowList.elim [] fun list ↦ messageField 2 (body list.fields)

def ClientRequest.encode (request : ClientRequest) : Bytes := body request.fields

def ServerResponse.encode (response : ServerResponse Bytes) : Bytes := body response.fields

/-- `SerializeToString` refuses a message whose size does not fit into an `int`. -/
def ServerResponse.serializeToString (response : ServerResponse Bytes) : Option Bytes :=
  if response.encode.length ≤ 2 ^ 31 - 1 then some response.encode else none

theorem serializeToString_eq_some {response : ServerResponse Bytes} {bytes : Bytes} :
    response.serializeToString = some bytes ↔
      response.encode.length ≤ 2 ^ 31 - 1 ∧ bytes = response.encode := by
  simp [ServerResponse.serializeToString, eq_comm]

/-! ## Sizes -/

theorem length_le_body {fields : List Field} (number : ℕ) {value : Bytes}
    (h : ∀ field ∈ bytesField number value, field ∈ fields) : value.length ≤ (body fields).length := by
  by_cases hnil : value = []
  · simp [hnil]
  · exact length_le_of_mem number (h ⟨number, .lengthDelimited value⟩ (by simp [bytesField, hnil]))

/-- A render request is at least as long as the pixels in it. -/
theorem length_data_le (targetWindow : UInt64) (content : Content) :
    content.data.length ≤
      (ClientRequest.encode ⟨some (.renderCommand ⟨targetWindow, some content⟩)⟩).length := by
  have hcommand : (body (RenderCommand.fields ⟨targetWindow, some content⟩)).length ≤
      (ClientRequest.encode ⟨some (.renderCommand ⟨targetWindow, some content⟩)⟩).length :=
    length_le_of_mem 2 (by simp [ClientRequest.fields, Request.fields, messageField])
  refine Nat.le_trans ?_ hcommand
  cases content with
  | image content =>
    have hcontent : (body content.fields).length ≤
        (body (RenderCommand.fields ⟨targetWindow, some (.image content)⟩)).length :=
      length_le_of_mem 2 (by simp [RenderCommand.fields, Content.fields, messageField])
    refine Nat.le_trans (length_le_body 1 ?_) hcontent
    simp +contextual [Image.fields, Content.data]
  | video content =>
    have hcontent : (body content.fields).length ≤
        (body (RenderCommand.fields ⟨targetWindow, some (.video content)⟩)).length :=
      length_le_of_mem 3 (by simp [RenderCommand.fields, Content.fields, messageField])
    refine Nat.le_trans (length_le_body 1 ?_) hcontent
    simp +contextual [Video.fields, Content.data]

theorem length_body_append (first second : List Field) :
    (body (first ++ second)).length = (body first).length + (body second).length := by
  rw [body, encodeAll_append, List.length_append]

theorem length_uint64Field_le (number : ℕ) (value : UInt64) :
    (body (uint64Field number value)).length ≤ 20 := by
  unfold uint64Field
  split
  · simp
  · simpa using length_encode_varint_le number value

theorem length_boolField_le (number : ℕ) (value : Bool) :
    (body (boolField number value)).length ≤ 20 := by
  unfold boolField
  split
  · simpa using length_encode_varint_le number 1
  · simp

theorem length_bytesField_le (number : ℕ) (value : Bytes) :
    (body (bytesField number value)).length ≤ 20 + value.length := by
  unfold bytesField
  split
  · simp
  · simpa using length_encode_lengthDelimited_le number value

theorem length_messageField_le (number : ℕ) (input : Bytes) :
    (body (messageField number input)).length ≤ 20 + input.length := by
  simpa [messageField] using length_encode_lengthDelimited_le number input

/-- Both kinds of content have the same three fields. -/
theorem length_contentFields_le (data : Bytes) (width height : UInt32) :
    (body (bytesField 1 data ++ uint32Field 2 width ++ uint32Field 3 height)).length ≤
      60 + data.length := by
  have hdata := length_bytesField_le 1 data
  have hwidth := length_uint64Field_le 2 width.toUInt64
  have hheight := length_uint64Field_le 3 height.toUInt64
  rw [length_body_append, length_body_append, uint32Field, uint32Field]
  omega

/-- Apart from its pixels a render request is short. -/
theorem length_renderRequest_le (targetWindow : UInt64) (content : Content) :
    (ClientRequest.encode ⟨some (.renderCommand ⟨targetWindow, some content⟩)⟩).length ≤
      120 + content.data.length := by
  have hcontent : (body content.fields).length ≤ 80 + content.data.length := by
    cases content with
    | image image =>
      have hfields := length_contentFields_le image.data image.width image.height
      have hmessage := length_messageField_le 2 (body image.fields)
      rw [← Image.fields] at hfields
      simp only [Content.fields, Content.data]
      omega
    | video video =>
      have hfields := length_contentFields_le video.frameData video.width video.height
      have hmessage := length_messageField_le 3 (body video.fields)
      rw [← Video.fields] at hfields
      simp only [Content.fields, Content.data]
      omega
  have htarget := length_uint64Field_le 1 targetWindow
  have hcommand := length_messageField_le 2 (body (RenderCommand.fields ⟨targetWindow, some content⟩))
  simp only [RenderCommand.fields, Option.elim_some, length_body_append] at hcommand
  simp only [ClientRequest.encode, ClientRequest.fields, Option.elim_some, Request.fields,
    RenderCommand.fields]
  omega

theorem length_statusResponse_le (status : Status) :
    (ServerResponse.encode ⟨some status, none⟩).length ≤ 60 + status.message.length := by
  have hsuccess := length_boolField_le 1 status.success
  have hmessage := length_bytesField_le 2 status.message
  have hstatus := length_messageField_le 1 (body status.fields)
  simp only [ServerResponse.encode, ServerResponse.fields, Option.elim_some, Option.elim_none,
    List.append_nil]
  rw [Status.fields, length_body_append] at hstatus
  rw [Status.fields]
  omega

theorem length_windowInfo_le (info : WindowInfo Bytes) :
    (body info.fields).length ≤ 60 + info.title.length + info.className.length := by
  have hhandle := length_uint64Field_le 1 info.handle
  have htitle := length_bytesField_le 2 info.title
  have hclass := length_bytesField_le 3 info.className
  rw [WindowInfo.fields, length_body_append, length_body_append]
  omega

/-- A list whose entries are bounded is bounded. -/
theorem length_windowListResponse_le (list : WindowList Bytes) {bound : ℕ}
    (h : ∀ info ∈ list.windows, info.title.length + info.className.length ≤ bound) :
    (ServerResponse.encode ⟨none, some list⟩).length ≤ 20 + list.windows.length * (80 + bound) := by
  have hlist : (body list.fields).length ≤ list.windows.length * (80 + bound) := by
    obtain ⟨windows⟩ := list
    induction windows with
    | nil => simp [WindowList.fields]
    | cons info windows ih =>
      obtain ⟨hinfo, hwindows⟩ := List.forall_mem_cons.1 h
      have hfield := length_messageField_le 1 (body info.fields)
      have hbody := length_windowInfo_le info
      have hrest := ih hwindows
      simp only [WindowList.fields, List.map_cons, List.flatten_cons, length_body_append,
        List.length_cons] at hrest ⊢
      rw [Nat.add_mul]
      omega
  have hresponse := length_messageField_le 2 (body list.fields)
  simp only [ServerResponse.encode, ServerResponse.fields, Option.elim_some, Option.elim_none,
    List.nil_append]
  omega

end WindowCaster.Protocol.Messages
