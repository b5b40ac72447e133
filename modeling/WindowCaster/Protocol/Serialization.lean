import WindowCaster.Protocol.CodedOutput

/-!
# The generated serializer

An object of a generated class holds its fields, the unknown fields it was parsed with, and the size
that was last computed for it. `ByteSizeLong` walks through the object and leaves the sizes behind,
`_InternalSerialize` walks through it again and takes the lengths of submessages from there. Whatever
sizes an object carries from earlier, the two passes one after the other write the encoding of the
message.
-/

namespace WindowCaster.Protocol.Serialization

open Foundation.StreamDecoder.Decoder Foundation.ProtobufWire CodedOutput
open Foundation.Text (Bytes)
open Extended (UnknownField encodeUnknown body_append)
open Messages (body bytesField uint32Field uint64Field boolField messageField)

/-! ## Objects -/

structure Image where
  data : Bytes
  width : UInt32
  height : UInt32
  metadata : InternalMetadata
  cachedSize : Int32

structure Video where
  frameData : Bytes
  width : UInt32
  height : UInt32
  metadata : InternalMetadata
  cachedSize : Int32

/-- The member of a oneof that the case names. -/
inductive Content
  | image (image : Image)
  | video (video : Video)

structure RenderCommand where
  targetWindow : UInt64
  content : Option Content
  metadata : InternalMetadata
  cachedSize : Int32

structure StopRender where
  targetWindow : UInt64
  metadata : InternalMetadata
  cachedSize : Int32

structure GetWindowList where
  metadata : InternalMetadata
  cachedSize : Int32

inductive Request
  | getWindowList (list : GetWindowList)
  | renderCommand (command : RenderCommand)
  | stopRender (command : StopRender)

structure ClientRequest where
  request : Option Request
  metadata : InternalMetadata
  cachedSize : Int32

structure Status where
  success : Bool
  message : Bytes
  metadata : InternalMetadata
  cachedSize : Int32

structure WindowInfo where
  handle : UInt64
  title : Bytes
  className : Bytes
  metadata : InternalMetadata
  cachedSize : Int32

/-- The elements, and behind them those that were cleared and are kept for later. -/
structure RepeatedPtrField (Element : Type) where
  elements : List Element
  cleared : List Element

structure WindowList where
  windows : RepeatedPtrField WindowInfo
  metadata : InternalMetadata
  cachedSize : Int32

/-- A pointer to a submessage with its bit in `_has_bits_`: null, or not null with the bit clear or
set. A set bit always comes with an object. -/
inductive Slot (Object : Type)
  | null
  | retained (object : Object)
  | present (object : Object)

structure ServerResponse where
  status : Slot Status
  windowList : Slot WindowList
  metadata : InternalMetadata
  cachedSize : Int32

/-! ## The messages that objects stand for -/

def Image.toMessage (image : Image) : Extended.Image :=
  ⟨⟨image.data, image.width, image.height⟩, image.metadata.unknownFields⟩

def Video.toMessage (video : Video) : Extended.Video :=
  ⟨⟨video.frameData, video.width, video.height⟩, video.metadata.unknownFields⟩

def Content.toMessage : Content → Extended.Content
  | .image content => .image content.toMessage
  | .video content => .video content.toMessage

def RenderCommand.toMessage (command : RenderCommand) : Extended.RenderCommand :=
  ⟨command.targetWindow, command.content.map Content.toMessage, command.metadata.unknownFields⟩

def StopRender.toMessage (command : StopRender) : Extended.StopRender :=
  ⟨⟨command.targetWindow⟩, command.metadata.unknownFields⟩

def Request.toMessage : Request → Extended.Request
  | .getWindowList list => .getWindowList list.metadata.unknownFields
  | .renderCommand command => .renderCommand command.toMessage
  | .stopRender command => .stopRender command.toMessage

def ClientRequest.toMessage (request : ClientRequest) : Extended.ClientRequest :=
  ⟨request.request.map Request.toMessage, request.metadata.unknownFields⟩

def Status.toMessage (status : Status) : Extended.Status :=
  ⟨⟨status.success, status.message⟩, status.metadata.unknownFields⟩

def WindowInfo.toMessage (info : WindowInfo) : Extended.WindowInfo :=
  ⟨⟨info.handle, info.title, info.className⟩, info.metadata.unknownFields⟩

def WindowList.toMessage (list : WindowList) : Extended.WindowList :=
  ⟨list.windows.elements.map WindowInfo.toMessage, list.metadata.unknownFields⟩

/-- The submessage, if its bit is set. -/
def Slot.get {Object : Type} : Slot Object → Option Object
  | .present object => some object
  | .retained _ | .null => none

def ServerResponse.toMessage (response : ServerResponse) : Extended.ServerResponse :=
  ⟨response.status.get.map Status.toMessage, response.windowList.get.map WindowList.toMessage,
    response.metadata.unknownFields⟩

section Passes

variable (runtime : Runtime)

/-! ## `ByteSizeLong` -/

def Image.byteSizeLong (image : Image) : ℕ × Image :=
  let size := bytesFieldSize image.data + uint32FieldSize image.width + uint32FieldSize image.height
  let total := runtime.maybeComputeUnknownFieldsSize image.metadata size
  (total.1, { image with cachedSize := total.2 })

def Video.byteSizeLong (video : Video) : ℕ × Video :=
  let size := bytesFieldSize video.frameData + uint32FieldSize video.width +
    uint32FieldSize video.height
  let total := runtime.maybeComputeUnknownFieldsSize video.metadata size
  (total.1, { video with cachedSize := total.2 })

def Content.byteSizeLong : Content → ℕ × Content
  | .image content =>
    (messageFieldSize (content.byteSizeLong runtime).1, .image (content.byteSizeLong runtime).2)
  | .video content =>
    (messageFieldSize (content.byteSizeLong runtime).1, .video (content.byteSizeLong runtime).2)

def RenderCommand.byteSizeLong (command : RenderCommand) : ℕ × RenderCommand :=
  let content := command.content.map (Content.byteSizeLong runtime)
  let size := uint64FieldSize command.targetWindow + content.elim 0 Prod.fst
  let total := runtime.maybeComputeUnknownFieldsSize command.metadata size
  (total.1, { command with content := content.map Prod.snd, cachedSize := total.2 })

def StopRender.byteSizeLong (command : StopRender) : ℕ × StopRender :=
  let size := uint64FieldSize command.targetWindow
  let total := runtime.maybeComputeUnknownFieldsSize command.metadata size
  (total.1, { command with cachedSize := total.2 })

/-- Inherited from the base class of messages without fields. -/
def GetWindowList.byteSizeLong (list : GetWindowList) : ℕ × GetWindowList :=
  let total := runtime.zeroFieldsByteSizeLong list.metadata
  (total.1, { list with cachedSize := total.2 })

def Request.byteSizeLong : Request → ℕ × Request
  | .getWindowList list =>
    (messageFieldSize (list.byteSizeLong runtime).1, .getWindowList (list.byteSizeLong runtime).2)
  | .renderCommand command =>
    (messageFieldSize (command.byteSizeLong runtime).1, .renderCommand (command.byteSizeLong runtime).2)
  | .stopRender command =>
    (messageFieldSize (command.byteSizeLong runtime).1, .stopRender (command.byteSizeLong runtime).2)

def ClientRequest.byteSizeLong (request : ClientRequest) : ℕ × ClientRequest :=
  let member := request.request.map (Request.byteSizeLong runtime)
  let total := runtime.maybeComputeUnknownFieldsSize request.metadata (member.elim 0 Prod.fst)
  (total.1, { request with request := member.map Prod.snd, cachedSize := total.2 })

def Status.byteSizeLong (status : Status) : ℕ × Status :=
  let size := bytesFieldSize status.message + boolFieldSize status.success
  let total := runtime.maybeComputeUnknownFieldsSize status.metadata size
  (total.1, { status with cachedSize := total.2 })

def WindowInfo.byteSizeLong (info : WindowInfo) : ℕ × WindowInfo :=
  let size := bytesFieldSize info.title + bytesFieldSize info.className + uint64FieldSize info.handle
  let total := runtime.maybeComputeUnknownFieldsSize info.metadata size
  (total.1, { info with cachedSize := total.2 })

/-- One byte for the tag of each entry, and then the entries with their lengths. -/
def WindowList.byteSizeLong (list : WindowList) : ℕ × WindowList :=
  let windows := list.windows.elements.map (WindowInfo.byteSizeLong runtime)
  let size := windows.foldl (fun size info ↦ size + lengthDelimitedSize info.1)
    (1 * list.windows.elements.length)
  let total := runtime.maybeComputeUnknownFieldsSize list.metadata size
  (total.1,
    { list with
      windows := { list.windows with elements := windows.map Prod.snd }
      cachedSize := total.2 })

/-- Only the size of a submessage whose bit is set is computed. -/
def Slot.byteSizeLong {Object : Type} (size : Object → ℕ × Object) : Slot Object → ℕ × Slot Object
  | .present object => (messageFieldSize (size object).1, .present (size object).2)
  | .retained object => (0, .retained object)
  | .null => (0, .null)

def ServerResponse.byteSizeLong (response : ServerResponse) : ℕ × ServerResponse :=
  let status := response.status.byteSizeLong (Status.byteSizeLong runtime)
  let windowList := response.windowList.byteSizeLong (WindowList.byteSizeLong runtime)
  let total := runtime.maybeComputeUnknownFieldsSize response.metadata (status.1 + windowList.1)
  (total.1, { response with status := status.2, windowList := windowList.2, cachedSize := total.2 })

/-! ## `_InternalSerialize` -/

/-- The end of every `_InternalSerialize`. -/
def writeUnknownFields (metadata : InternalMetadata) (target : Bytes) : Bytes :=
  if metadata.haveUnknownFields then
    runtime.internalSerializeUnknownFieldsToArray metadata.unknownFields target
  else target

def Image.internalSerialize (image : Image) (target : Bytes) : Bytes :=
  let target := writeBytesField runtime 1 image.data target
  let target := writeUInt32Field 2 image.width target
  let target := writeUInt32Field 3 image.height target
  writeUnknownFields runtime image.metadata target

def Video.internalSerialize (video : Video) (target : Bytes) : Bytes :=
  let target := writeBytesField runtime 1 video.frameData target
  let target := writeUInt32Field 2 video.width target
  let target := writeUInt32Field 3 video.height target
  writeUnknownFields runtime video.metadata target

def Content.internalSerialize : Content → Bytes → Bytes
  | .image content, target =>
    runtime.internalWriteMessage 2 (content.internalSerialize runtime) content.cachedSize target
  | .video content, target =>
    runtime.internalWriteMessage 3 (content.internalSerialize runtime) content.cachedSize target

def RenderCommand.internalSerialize (command : RenderCommand) (target : Bytes) : Bytes :=
  let target := writeUInt64Field 1 command.targetWindow target
  let target := match command.content with
    | some content => content.internalSerialize runtime target
    | none => target
  writeUnknownFields runtime command.metadata target

def StopRender.internalSerialize (command : StopRender) (target : Bytes) : Bytes :=
  let target := writeUInt64Field 1 command.targetWindow target
  writeUnknownFields runtime command.metadata target

def GetWindowList.internalSerialize (list : GetWindowList) (target : Bytes) : Bytes :=
  runtime.zeroFieldsInternalSerialize list.metadata target

def Request.internalSerialize : Request → Bytes → Bytes
  | .getWindowList list, target =>
    runtime.internalWriteMessage 1 (list.internalSerialize runtime) list.cachedSize target
  | .renderCommand command, target =>
    runtime.internalWriteMessage 2 (command.internalSerialize runtime) command.cachedSize target
  | .stopRender command, target =>
    runtime.internalWriteMessage 3 (command.internalSerialize runtime) command.cachedSize target

def ClientRequest.internalSerialize (request : ClientRequest) (target : Bytes) : Bytes :=
  let target := match request.request with
    | some member => member.internalSerialize runtime target
    | none => target
  writeUnknownFields runtime request.metadata target

def Status.internalSerialize (status : Status) (target : Bytes) : Bytes :=
  let target := writeBoolField 1 status.success target
  let target := writeBytesField runtime 2 status.message target
  writeUnknownFields runtime status.metadata target

def WindowInfo.internalSerialize (info : WindowInfo) (target : Bytes) : Bytes :=
  let target := writeUInt64Field 1 info.handle target
  let target := writeBytesField runtime 2 info.title target
  let target := writeBytesField runtime 3 info.className target
  writeUnknownFields runtime info.metadata target

def WindowList.internalSerialize (list : WindowList) (target : Bytes) : Bytes :=
  let target := list.windows.elements.foldl (fun target info ↦
    runtime.internalWriteMessage 1 (info.internalSerialize runtime) info.cachedSize target) target
  writeUnknownFields runtime list.metadata target

/-- A submessage is written if its bit is set. -/
def Slot.internalSerialize {Object : Type} (number : ℕ) (serialize : Object → Bytes → Bytes)
    (cachedSize : Object → Int32) : Slot Object → Bytes → Bytes
  | .present object, target =>
    runtime.internalWriteMessage number (serialize object) (cachedSize object) target
  | .retained _, target | .null, target => target

def ServerResponse.internalSerialize (response : ServerResponse) (target : Bytes) : Bytes :=
  let target := response.status.internalSerialize runtime 1 (Status.internalSerialize runtime)
    Status.cachedSize target
  let target := response.windowList.internalSerialize runtime 2 (WindowList.internalSerialize runtime)
    WindowList.cachedSize target
  writeUnknownFields runtime response.metadata target

/-! ## `SerializeToString` -/

def ServerResponse.serializeToString : ServerResponse → Option Bytes × ServerResponse :=
  runtime.serializeToString (byteSizeLong runtime) (internalSerialize runtime)

def ClientRequest.serializeToString : ClientRequest → Option Bytes × ClientRequest :=
  runtime.serializeToString (byteSizeLong runtime) (internalSerialize runtime)

end Passes

/-! ## Up-to-date sizes -/

/-- The cached size is the size of this body. -/
def Caches (cachedSize : Int32) (encoding : Bytes) : Prop :=
  cachedSize.toUInt32.toNat = encoding.length

/-- The sizes of an object and of all submessages are up to date. -/
def Image.Fresh (image : Image) : Prop := Caches image.cachedSize (Extended.Image.encode image.toMessage)

def Video.Fresh (video : Video) : Prop := Caches video.cachedSize (Extended.Video.encode video.toMessage)

def Content.Fresh : Content → Prop
  | .image content => content.Fresh
  | .video content => content.Fresh

def RenderCommand.Fresh (command : RenderCommand) : Prop :=
  Caches command.cachedSize command.toMessage.encode ∧ ∀ content ∈ command.content, content.Fresh

def StopRender.Fresh (command : StopRender) : Prop :=
  Caches command.cachedSize (Extended.StopRender.encode command.toMessage)

def Request.Fresh : Request → Prop
  | .getWindowList list => Caches list.cachedSize (encodeUnknown list.metadata.unknownFields)
  | .renderCommand command => command.Fresh
  | .stopRender command => command.Fresh

def ClientRequest.Fresh (request : ClientRequest) : Prop := ∀ member ∈ request.request, member.Fresh

def Status.Fresh (status : Status) : Prop :=
  Caches status.cachedSize (Extended.Status.encode status.toMessage)

def WindowInfo.Fresh (info : WindowInfo) : Prop :=
  Caches info.cachedSize (Extended.WindowInfo.encode info.toMessage)

def WindowList.Fresh (list : WindowList) : Prop :=
  Caches list.cachedSize list.toMessage.encode ∧ ∀ info ∈ list.windows.elements, info.Fresh

def ServerResponse.Fresh (response : ServerResponse) : Prop :=
  (∀ status ∈ response.status.get, status.Fresh) ∧ ∀ list ∈ response.windowList.get, list.Fresh

/-- What the first pass does with an object: it finds the size of the encoding, up to the limit of
an `int`, it leaves the message as it is, and it brings the sizes up to date. -/
structure Measures {Object Message : Type} (toMessage : Object → Message) (encode : Message → Bytes)
    (Fresh : Object → Prop) (object : Object) (result : ℕ × Object) : Prop where
  agrees : Agrees result.1 (encode (toMessage object)).length
  message : toMessage result.2 = toMessage object
  fresh : result.1 < 2 ^ 31 → Fresh result.2

theorem caches_toCachedSize {size : ℕ} {encoding : Bytes} (h : Agrees size encoding.length)
    (hsize : size < 2 ^ 31) : Caches (toCachedSize size) encoding := by
  unfold Agrees at h
  rw [Caches, toNat_toCachedSize (by omega)]
  omega

/-! ## The first pass -/

theorem agrees_append {size size' : ℕ} {first second : Bytes} (hfirst : Agrees size first.length)
    (hsecond : Agrees size' second.length) : Agrees (size + size') (first ++ second).length := by
  rw [List.length_append]
  exact hfirst.add hsecond

theorem agrees_nil : Agrees 0 ([] : Bytes).length := .inl rfl

theorem le_messageFieldSize (size : ℕ) : size ≤ messageFieldSize size := by
  unfold messageFieldSize lengthDelimitedSize
  omega

/-- Images and frames have the same three fields. -/
theorem agrees_pixels (data : Bytes) (width height : UInt32) :
    Agrees (bytesFieldSize data + uint32FieldSize width + uint32FieldSize height)
      (body (bytesField 1 data ++ uint32Field 2 width ++ uint32Field 3 height)).length := by
  rw [body_append, body_append]
  exact agrees_append (agrees_append (agrees_bytes (by decide) data) (agrees_uint32 (by decide) width))
    (agrees_uint32 (by decide) height)

/-- A submessage as a field of another message. -/
theorem Measures.lt_of_field {size : ℕ} (hsize : messageFieldSize size < 2 ^ 31) : size < 2 ^ 31 :=
  Nat.lt_of_le_of_lt (le_messageFieldSize size) hsize

theorem le_foldl_windows (runtime : Runtime) (windows : List WindowInfo) (size : ℕ) :
    size ≤ (windows.map (WindowInfo.byteSizeLong runtime)).foldl
        (fun size info ↦ size + lengthDelimitedSize info.1) size ∧
      ∀ info ∈ windows, (info.byteSizeLong runtime).1 ≤
        (windows.map (WindowInfo.byteSizeLong runtime)).foldl
          (fun size info ↦ size + lengthDelimitedSize info.1) size := by
  induction windows generalizing size with
  | nil => simp
  | cons info windows ih =>
    obtain ⟨hsize, hrest⟩ := ih (size + lengthDelimitedSize (info.byteSizeLong runtime).1)
    have hinfo : (info.byteSizeLong runtime).1 ≤ lengthDelimitedSize (info.byteSizeLong runtime).1 := by
      unfold lengthDelimitedSize
      omega
    rw [List.map_cons, List.foldl_cons, List.forall_mem_cons]
    exact ⟨by omega, by omega, hrest⟩

/-- A slot in the response is an optional message field. -/
theorem Slot.measures {Object Message : Type} {toMessage : Object → Message}
    {encode : Message → Bytes} {Fresh : Object → Prop} {size : Object → ℕ × Object}
    {number : ℕ} (hnumber : number < 16)
    (h : ∀ object, Measures toMessage encode Fresh object (size object)) (slot : Slot Object) :
    Measures (fun slot ↦ slot.get.map toMessage)
      (fun message ↦ message.elim [] fun message ↦ body (messageField number (encode message)))
      (fun slot ↦ ∀ object ∈ slot.get, Fresh object) slot (slot.byteSizeLong size) := by
  cases slot with
  | null => exact ⟨agrees_nil, rfl, fun _ ↦ by simp [byteSizeLong, get]⟩
  | retained object => exact ⟨agrees_nil, rfl, fun _ ↦ by simp [byteSizeLong, get]⟩
  | present object =>
    obtain ⟨hagrees, hmessage, hfresh⟩ := h object
    refine ⟨agrees_message hnumber hagrees, congrArg some hmessage, fun hsize ↦ ?_⟩
    rintro _ ⟨⟩
    exact hfresh (Measures.lt_of_field hsize)

theorem WindowList.encode_toMessage (list : WindowList) :
    list.toMessage.encode =
      (list.windows.elements.map fun info ↦
        body (messageField 1 (Extended.WindowInfo.encode info.toMessage))).flatten ++
          encodeUnknown list.metadata.unknownFields := by
  rw [toMessage, Extended.WindowList.encode, List.map_map]
  rfl

section First

variable {runtime : Runtime} (hruntime : runtime.Lawful)
include hruntime

/-- The unknown fields come on top of what was counted before them, and the sum is cached. -/
theorem measures_unknown {size : ℕ} {known : Bytes} (metadata : InternalMetadata)
    (h : Agrees size known.length) :
    let total := runtime.maybeComputeUnknownFieldsSize metadata size
    Agrees total.1 (known ++ encodeUnknown metadata.unknownFields).length ∧ size ≤ total.1 ∧
      (total.1 < 2 ^ 31 → Caches total.2 (known ++ encodeUnknown metadata.unknownFields)) := by
  obtain ⟨unknownSize, hunknown, htotal⟩ := hruntime.unknownSize metadata size
  have hagrees := agrees_append h hunknown
  rw [htotal]
  exact ⟨hagrees, Nat.le_add_right _ _, caches_toCachedSize hagrees⟩

theorem Image.measures (image : Image) :
    Measures toMessage Extended.Image.encode Fresh image (image.byteSizeLong runtime) := by
  obtain ⟨hagrees, -, hcached⟩ := measures_unknown hruntime image.metadata
    (agrees_pixels image.data image.width image.height)
  exact ⟨hagrees, rfl, hcached⟩

theorem Video.measures (video : Video) :
    Measures toMessage Extended.Video.encode Fresh video (video.byteSizeLong runtime) := by
  obtain ⟨hagrees, -, hcached⟩ := measures_unknown hruntime video.metadata
    (agrees_pixels video.frameData video.width video.height)
  exact ⟨hagrees, rfl, hcached⟩

theorem Content.measures (content : Content) :
    Measures toMessage Extended.Content.encode Fresh content (content.byteSizeLong runtime) := by
  cases content with
  | image content =>
    obtain ⟨hagrees, hmessage, hfresh⟩ := content.measures hruntime
    exact ⟨agrees_message (by decide) hagrees, congrArg Extended.Content.image hmessage,
      fun hsize ↦ hfresh (Measures.lt_of_field hsize)⟩
  | video content =>
    obtain ⟨hagrees, hmessage, hfresh⟩ := content.measures hruntime
    exact ⟨agrees_message (by decide) hagrees, congrArg Extended.Content.video hmessage,
      fun hsize ↦ hfresh (Measures.lt_of_field hsize)⟩

theorem RenderCommand.measures (command : RenderCommand) :
    Measures toMessage Extended.RenderCommand.encode Fresh command (command.byteSizeLong runtime) := by
  obtain ⟨targetWindow, content, metadata, cachedSize⟩ := command
  have htarget : Agrees (uint64FieldSize targetWindow) (body (uint64Field 1 targetWindow)).length :=
    agrees_uint64 (by decide) targetWindow
  cases content with
  | none =>
    obtain ⟨hagrees, -, hcached⟩ := measures_unknown hruntime metadata (agrees_append htarget agrees_nil)
    exact ⟨hagrees, rfl, fun hsize ↦ ⟨hcached hsize, by simp [byteSizeLong]⟩⟩
  | some content =>
    obtain ⟨hcontent, hmessage, hfresh⟩ := content.measures hruntime
    obtain ⟨hagrees, hle, hcached⟩ := measures_unknown hruntime metadata (agrees_append htarget hcontent)
    have hsame : toMessage (byteSizeLong runtime ⟨targetWindow, some content, metadata, cachedSize⟩).2 =
        toMessage ⟨targetWindow, some content, metadata, cachedSize⟩ := by
      simp only [byteSizeLong, toMessage, Option.map_some, hmessage]
    refine ⟨hagrees, hsame, fun hsize ↦ ⟨?_, ?_⟩⟩
    · rw [hsame]
      exact hcached hsize
    · rintro _ ⟨⟩
      exact hfresh (Nat.lt_of_le_of_lt (Nat.le_trans (Nat.le_add_left _ _) hle) hsize)

theorem StopRender.measures (command : StopRender) :
    Measures toMessage Extended.StopRender.encode Fresh command (command.byteSizeLong runtime) := by
  obtain ⟨hagrees, -, hcached⟩ := measures_unknown hruntime command.metadata
    (agrees_uint64 (by decide : 1 < 16) command.targetWindow)
  exact ⟨hagrees, rfl, hcached⟩

theorem Request.measures (request : Request) :
    Measures toMessage Extended.Request.encode Fresh request (request.byteSizeLong runtime) := by
  cases request with
  | getWindowList list =>
    obtain ⟨size, hagrees, htotal⟩ := hruntime.zeroFieldsSize list.metadata
    refine ⟨agrees_message (by decide) ?_, rfl, fun hsize ↦ ?_⟩
    · rw [GetWindowList.byteSizeLong, htotal]
      exact hagrees
    · have hlt := Measures.lt_of_field hsize
      simp only [GetWindowList.byteSizeLong, htotal] at hlt
      simp only [Fresh, byteSizeLong, GetWindowList.byteSizeLong, htotal]
      exact caches_toCachedSize hagrees hlt
  | renderCommand command =>
    obtain ⟨hagrees, hmessage, hfresh⟩ := command.measures hruntime
    exact ⟨agrees_message (by decide) hagrees, congrArg Extended.Request.renderCommand hmessage,
      fun hsize ↦ hfresh (Measures.lt_of_field hsize)⟩
  | stopRender command =>
    obtain ⟨hagrees, hmessage, hfresh⟩ := command.measures hruntime
    exact ⟨agrees_message (by decide) hagrees, congrArg Extended.Request.stopRender hmessage,
      fun hsize ↦ hfresh (Measures.lt_of_field hsize)⟩

theorem ClientRequest.measures (request : ClientRequest) :
    Measures toMessage Extended.ClientRequest.encode Fresh request (request.byteSizeLong runtime) := by
  obtain ⟨request, metadata, cachedSize⟩ := request
  cases request with
  | none =>
    obtain ⟨hagrees, -, -⟩ := measures_unknown hruntime metadata agrees_nil
    exact ⟨hagrees, rfl, fun _ ↦ by simp [Fresh, byteSizeLong]⟩
  | some member =>
    obtain ⟨hmember, hmessage, hfresh⟩ := member.measures hruntime
    obtain ⟨hagrees, hle, -⟩ := measures_unknown hruntime metadata hmember
    refine ⟨hagrees, ?_, fun hsize ↦ ?_⟩
    · simp only [byteSizeLong, toMessage, Option.map_some, hmessage]
    · rintro _ ⟨⟩
      exact hfresh (Nat.lt_of_le_of_lt hle hsize)

theorem Status.measures (status : Status) :
    Measures toMessage Extended.Status.encode Fresh status (status.byteSizeLong runtime) := by
  have hknown : Agrees (bytesFieldSize status.message + boolFieldSize status.success)
      (body (Messages.Status.fields ⟨status.success, status.message⟩)).length := by
    rw [Nat.add_comm, Messages.Status.fields, body_append]
    exact agrees_append (agrees_bool (by decide) _) (agrees_bytes (by decide) _)
  obtain ⟨hagrees, -, hcached⟩ := measures_unknown hruntime status.metadata hknown
  exact ⟨hagrees, rfl, hcached⟩

theorem WindowInfo.measures (info : WindowInfo) :
    Measures toMessage Extended.WindowInfo.encode Fresh info (info.byteSizeLong runtime) := by
  have hknown : Agrees
      (bytesFieldSize info.title + bytesFieldSize info.className + uint64FieldSize info.handle)
      (body (Messages.WindowInfo.fields ⟨info.handle, info.title, info.className⟩)).length := by
    rw [Nat.add_comm, ← Nat.add_assoc, Messages.WindowInfo.fields, body_append, body_append]
    exact agrees_append (agrees_append (agrees_uint64 (by decide) _) (agrees_bytes (by decide) _))
      (agrees_bytes (by decide) _)
  obtain ⟨hagrees, -, hcached⟩ := measures_unknown hruntime info.metadata hknown
  exact ⟨hagrees, rfl, hcached⟩

/-- The tags are counted first, the entries after them. -/
theorem agrees_windows (windows : List WindowInfo) {size : ℕ} {before : Bytes}
    (h : Agrees size before.length) :
    Agrees ((windows.map (WindowInfo.byteSizeLong runtime)).foldl
        (fun size info ↦ size + lengthDelimitedSize info.1) (1 * windows.length + size))
      (before ++ (windows.map fun info ↦
        body (messageField 1 (Extended.WindowInfo.encode info.toMessage))).flatten).length := by
  induction windows generalizing size before with
  | nil => simpa using h
  | cons info windows ih =>
    have hinfo : Agrees (messageFieldSize (info.byteSizeLong runtime).1)
        (body (messageField 1 (Extended.WindowInfo.encode info.toMessage))).length :=
      agrees_message (by decide) (info.measures hruntime).agrees
    have hrest := ih (agrees_append h hinfo)
    have hsize : 1 * (info :: windows).length + size + lengthDelimitedSize (info.byteSizeLong runtime).1 =
        1 * windows.length + (size + messageFieldSize (info.byteSizeLong runtime).1) := by
      rw [List.length_cons, messageFieldSize]
      omega
    rw [List.map_cons, List.foldl_cons, hsize, List.map_cons, List.flatten_cons, ← List.append_assoc]
    exact hrest

theorem WindowList.measures (list : WindowList) :
    Measures toMessage Extended.WindowList.encode Fresh list (list.byteSizeLong runtime) := by
  obtain ⟨⟨windows, cleared⟩, metadata, cachedSize⟩ := list
  have hwindows := agrees_windows hruntime windows agrees_nil
  rw [List.nil_append, Nat.add_zero] at hwindows
  obtain ⟨hagrees, hle, hcached⟩ := measures_unknown hruntime metadata hwindows
  have hinfo (info : WindowInfo) : (info.byteSizeLong runtime).2.toMessage = info.toMessage :=
    (info.measures hruntime).message
  have hsame : toMessage (byteSizeLong runtime ⟨⟨windows, cleared⟩, metadata, cachedSize⟩).2 =
      toMessage ⟨⟨windows, cleared⟩, metadata, cachedSize⟩ := by
    simp [byteSizeLong, toMessage, hinfo]
  refine ⟨?_, hsame, fun hsize ↦ ⟨?_, ?_⟩⟩
  · rw [encode_toMessage]
    exact hagrees
  · rw [hsame, encode_toMessage]
    exact hcached hsize
  · intro info hmem
    simp only [byteSizeLong, List.map_map, List.mem_map] at hmem
    obtain ⟨info, hmem, rfl⟩ := hmem
    have hentry := (le_foldl_windows runtime windows (1 * windows.length)).2 info hmem
    exact (info.measures hruntime).fresh (Nat.lt_of_le_of_lt (Nat.le_trans hentry hle) hsize)

theorem ServerResponse.measures (response : ServerResponse) :
    Measures toMessage Extended.ServerResponse.encode Fresh response (response.byteSizeLong runtime) := by
  obtain ⟨hstatus, hstatus', hfresh⟩ :=
    Slot.measures (by decide : 1 < 16) (Status.measures hruntime) response.status
  obtain ⟨hlist, hlist', hfresh'⟩ :=
    Slot.measures (by decide : 2 < 16) (WindowList.measures hruntime) response.windowList
  obtain ⟨hagrees, hle, -⟩ := measures_unknown hruntime response.metadata (agrees_append hstatus hlist)
  refine ⟨hagrees, ?_, fun hsize ↦ ⟨hfresh ?_, hfresh' ?_⟩⟩
  · simp only [byteSizeLong, toMessage, hstatus', hlist']
  · exact Nat.lt_of_le_of_lt (Nat.le_trans (Nat.le_add_right _ _) hle) hsize
  · exact Nat.lt_of_le_of_lt (Nat.le_trans (Nat.le_add_left _ _) hle) hsize

end First

/-! ## The second pass -/

/-- What the second pass does: it appends the encoding. -/
def Writes (serialize : Bytes → Bytes) (encoding : Bytes) : Prop :=
  ∀ target, serialize target = target ++ encoding

theorem writes_nil : Writes id [] := fun target ↦ (List.append_nil target).symm

theorem Writes.append {serialize serialize' : Bytes → Bytes} {first second : Bytes}
    (hfirst : Writes serialize first) (hsecond : Writes serialize' second) :
    Writes (fun target ↦ serialize' (serialize target)) (first ++ second) := by
  intro target
  calc
    _ = serialize' (target ++ first) := congrArg serialize' (hfirst target)
    _ = target ++ first ++ second := hsecond _
    _ = target ++ (first ++ second) := List.append_assoc target first second

/-- The limit carries over to the parts of an encoding. -/
theorem lt_of_append {first second : Bytes} (hlength : (first ++ second).length < 2 ^ 31) :
    first.length < 2 ^ 31 ∧ second.length < 2 ^ 31 := by
  rw [List.length_append] at hlength
  omega

/-- And to a submessage. -/
theorem lt_of_message {number : ℕ} {input : Bytes}
    (hlength : (body (messageField number input)).length < 2 ^ 31) : input.length < 2 ^ 31 :=
  Nat.lt_of_le_of_lt (length_le_of_mem number (List.mem_singleton_self _)) hlength

section Second

variable {runtime : Runtime} (hruntime : runtime.Lawful)
include hruntime

theorem writes_bytes {number : ℕ} (hnumber : number < 16) {value : Bytes}
    (hlength : (body (bytesField number value)).length < 2 ^ 31) :
    Writes (writeBytesField runtime number value) (body (bytesField number value)) := by
  intro target
  have hle := Messages.length_le_body number (fun _ h ↦ h : ∀ field ∈ bytesField number value, _)
  exact writeBytesField_eq hnumber hruntime value target (Nat.lt_of_le_of_lt hle hlength)

/-- A submessage whose own size is up to date, as a field of another message. -/
theorem writes_message {number : ℕ} (hnumber : number < 16) {serialize : Bytes → Bytes}
    {cachedSize : Int32} {input : Bytes} (hserialize : Writes serialize input)
    (hcached : Caches cachedSize input)
    (hlength : (body (messageField number input)).length < 2 ^ 31) :
    Writes (runtime.internalWriteMessage number serialize cachedSize)
      (body (messageField number input)) := fun target ↦
  internalWriteMessage_eq hnumber hruntime target hserialize hcached (lt_of_message hlength)

theorem writes_unknown {metadata : InternalMetadata}
    (hlength : (encodeUnknown metadata.unknownFields).length < 2 ^ 31) :
    Writes (writeUnknownFields runtime metadata) (encodeUnknown metadata.unknownFields) := by
  intro target
  obtain ⟨_ | fields⟩ := metadata
  · exact (List.append_nil target).symm
  · exact hruntime.unknown fields target hlength

theorem writes_pixels {data : Bytes} {width height : UInt32}
    (hlength : (body (bytesField 1 data ++ uint32Field 2 width ++ uint32Field 3 height)).length <
      2 ^ 31) :
    Writes (fun target ↦ writeUInt32Field 3 height
        (writeUInt32Field 2 width (writeBytesField runtime 1 data target)))
      (body (bytesField 1 data ++ uint32Field 2 width ++ uint32Field 3 height)) := by
  rw [body_append, body_append] at hlength ⊢
  have hdata : Writes (writeBytesField runtime 1 data) (body (bytesField 1 data)) :=
    writes_bytes hruntime (by decide) (lt_of_append (lt_of_append hlength).1).1
  have hwidth : Writes (writeUInt32Field 2 width) (body (uint32Field 2 width)) :=
    writeUInt32Field_eq (by decide) width
  have hheight : Writes (writeUInt32Field 3 height) (body (uint32Field 3 height)) :=
    writeUInt32Field_eq (by decide) height
  exact (hdata.append hwidth).append hheight

theorem Image.writes {image : Image}
    (hlength : (Extended.Image.encode image.toMessage).length < 2 ^ 31) :
    Writes (image.internalSerialize runtime) (Extended.Image.encode image.toMessage) :=
  (writes_pixels hruntime (lt_of_append hlength).1).append
    (writes_unknown hruntime (lt_of_append hlength).2)

theorem Video.writes {video : Video}
    (hlength : (Extended.Video.encode video.toMessage).length < 2 ^ 31) :
    Writes (video.internalSerialize runtime) (Extended.Video.encode video.toMessage) :=
  (writes_pixels hruntime (lt_of_append hlength).1).append
    (writes_unknown hruntime (lt_of_append hlength).2)

theorem Content.writes {content : Content} (hfresh : content.Fresh)
    (hlength : content.toMessage.encode.length < 2 ^ 31) :
    Writes (content.internalSerialize runtime) content.toMessage.encode := by
  cases content with
  | image content =>
    have hwrites := content.writes hruntime (lt_of_message hlength)
    exact writes_message hruntime (by decide) hwrites hfresh hlength
  | video content =>
    have hwrites := content.writes hruntime (lt_of_message hlength)
    exact writes_message hruntime (by decide) hwrites hfresh hlength

theorem RenderCommand.writes {command : RenderCommand} (hfresh : command.Fresh)
    (hlength : command.toMessage.encode.length < 2 ^ 31) :
    Writes (command.internalSerialize runtime) command.toMessage.encode := by
  obtain ⟨targetWindow, content, metadata, cachedSize⟩ := command
  obtain ⟨hknown, hunknown⟩ := lt_of_append hlength
  have htarget : Writes (writeUInt64Field 1 targetWindow) (body (uint64Field 1 targetWindow)) :=
    writeUInt64Field_eq (by decide) targetWindow
  have hmetadata := writes_unknown hruntime hunknown
  cases content with
  | none => exact (htarget.append writes_nil).append hmetadata
  | some content =>
    have hcontent := content.writes hruntime (hfresh.2 content rfl) (lt_of_append hknown).2
    exact (htarget.append hcontent).append hmetadata

theorem StopRender.writes {command : StopRender}
    (hlength : (Extended.StopRender.encode command.toMessage).length < 2 ^ 31) :
    Writes (command.internalSerialize runtime) (Extended.StopRender.encode command.toMessage) := by
  have htarget : Writes (writeUInt64Field 1 command.targetWindow)
      (body (uint64Field 1 command.targetWindow)) :=
    writeUInt64Field_eq (by decide) command.targetWindow
  exact htarget.append (writes_unknown hruntime (lt_of_append hlength).2)

theorem Request.writes {request : Request} (hfresh : request.Fresh)
    (hlength : request.toMessage.encode.length < 2 ^ 31) :
    Writes (request.internalSerialize runtime) request.toMessage.encode := by
  cases request with
  | getWindowList list =>
    have hwrites : Writes (list.internalSerialize runtime) (encodeUnknown list.metadata.unknownFields) :=
      fun target ↦ hruntime.zeroFields list.metadata target (lt_of_message hlength)
    exact writes_message hruntime (by decide) hwrites hfresh hlength
  | renderCommand command =>
    have hwrites := command.writes hruntime hfresh (lt_of_message hlength)
    exact writes_message hruntime (by decide) hwrites hfresh.1 hlength
  | stopRender command =>
    have hwrites := command.writes hruntime (lt_of_message hlength)
    exact writes_message hruntime (by decide) hwrites hfresh hlength

theorem ClientRequest.writes {request : ClientRequest} (hfresh : request.Fresh)
    (hlength : request.toMessage.encode.length < 2 ^ 31) :
    Writes (request.internalSerialize runtime) request.toMessage.encode := by
  obtain ⟨request, metadata, cachedSize⟩ := request
  obtain ⟨hknown, hunknown⟩ := lt_of_append hlength
  have hmetadata := writes_unknown hruntime hunknown
  cases request with
  | none => exact writes_nil.append hmetadata
  | some member => exact (member.writes hruntime (hfresh member rfl) hknown).append hmetadata

theorem Status.writes {status : Status}
    (hlength : (Extended.Status.encode status.toMessage).length < 2 ^ 31) :
    Writes (status.internalSerialize runtime) (Extended.Status.encode status.toMessage) := by
  obtain ⟨hknown, hunknown⟩ := lt_of_append hlength
  rw [Messages.Status.fields, body_append] at hknown
  have hsuccess : Writes (writeBoolField 1 status.success) (body (boolField 1 status.success)) :=
    writeBoolField_eq (by decide) status.success
  have hmessage : Writes (writeBytesField runtime 2 status.message) (body (bytesField 2 status.message)) :=
    writes_bytes hruntime (by decide) (lt_of_append hknown).2
  have hwrites := (hsuccess.append hmessage).append (writes_unknown hruntime hunknown)
  rw [← body_append] at hwrites
  exact hwrites

theorem WindowInfo.writes {info : WindowInfo}
    (hlength : (Extended.WindowInfo.encode info.toMessage).length < 2 ^ 31) :
    Writes (info.internalSerialize runtime) (Extended.WindowInfo.encode info.toMessage) := by
  obtain ⟨hknown, hunknown⟩ := lt_of_append hlength
  rw [Messages.WindowInfo.fields, body_append, body_append] at hknown
  have hhandle : Writes (writeUInt64Field 1 info.handle) (body (uint64Field 1 info.handle)) :=
    writeUInt64Field_eq (by decide) info.handle
  have htitle : Writes (writeBytesField runtime 2 info.title) (body (bytesField 2 info.title)) :=
    writes_bytes hruntime (by decide) (lt_of_append (lt_of_append hknown).1).2
  have hclass : Writes (writeBytesField runtime 3 info.className) (body (bytesField 3 info.className)) :=
    writes_bytes hruntime (by decide) (lt_of_append hknown).2
  have hwrites := ((hhandle.append htitle).append hclass).append (writes_unknown hruntime hunknown)
  rw [← body_append, ← body_append] at hwrites
  exact hwrites

/-- The entries one after the other. -/
theorem writes_windows {windows : List WindowInfo} (hfresh : ∀ info ∈ windows, info.Fresh)
    (hlength : (windows.map fun info ↦
      body (messageField 1 (Extended.WindowInfo.encode info.toMessage))).flatten.length < 2 ^ 31) :
    Writes (fun target ↦ windows.foldl (fun target info ↦
        runtime.internalWriteMessage 1 (info.internalSerialize runtime) info.cachedSize target) target)
      (windows.map fun info ↦
        body (messageField 1 (Extended.WindowInfo.encode info.toMessage))).flatten := by
  induction windows with
  | nil => exact writes_nil
  | cons info windows ih =>
    obtain ⟨hinfo, hwindows⟩ := List.forall_mem_cons.1 hfresh
    rw [List.map_cons, List.flatten_cons] at hlength ⊢
    obtain ⟨hfield, hrest⟩ := lt_of_append hlength
    have hwrites := info.writes hruntime (lt_of_message hfield)
    have hfirst := writes_message hruntime (by decide) hwrites hinfo hfield
    exact hfirst.append (ih hwindows hrest)

theorem WindowList.writes {list : WindowList} (hfresh : list.Fresh)
    (hlength : list.toMessage.encode.length < 2 ^ 31) :
    Writes (list.internalSerialize runtime) list.toMessage.encode := by
  rw [WindowList.encode_toMessage] at hlength ⊢
  obtain ⟨hknown, hunknown⟩ := lt_of_append hlength
  exact (writes_windows hruntime hfresh.2 hknown).append (writes_unknown hruntime hunknown)

omit hruntime in
/-- A slot of an up-to-date response, written as an optional message field. -/
theorem Slot.writes (hruntime : runtime.Lawful) {Object Message : Type} {toMessage : Object → Message}
    {encode : Message → Bytes} {serialize : Object → Bytes → Bytes} {cachedSize : Object → Int32}
    {number : ℕ} (hnumber : number < 16) {slot : Slot Object} {message : Option Message}
    (hmessage : message = slot.get.map toMessage)
    (hlength : (message.elim [] fun message ↦ body (messageField number (encode message))).length <
      2 ^ 31)
    (h : ∀ object ∈ slot.get, (encode (toMessage object)).length < 2 ^ 31 →
      Caches (cachedSize object) (encode (toMessage object)) ∧
        Writes (serialize object) (encode (toMessage object))) :
    Writes (slot.internalSerialize runtime number serialize cachedSize)
      (message.elim [] fun message ↦ body (messageField number (encode message))) := by
  subst hmessage
  cases slot with
  | null | retained object => exact writes_nil
  | present object =>
    obtain ⟨hcached, hwrites⟩ := h object rfl (lt_of_message hlength)
    exact writes_message hruntime hnumber hwrites hcached hlength

theorem ServerResponse.writes {response : ServerResponse} (hfresh : response.Fresh)
    (hlength : response.toMessage.encode.length < 2 ^ 31) :
    Writes (response.internalSerialize runtime) response.toMessage.encode := by
  obtain ⟨hstatus, hlist⟩ := hfresh
  obtain ⟨hknown, hunknown⟩ := lt_of_append hlength
  obtain ⟨hfirst, hsecond⟩ := lt_of_append hknown
  have hstatus := Slot.writes hruntime (by decide) (rfl : response.toMessage.status = _) hfirst
    fun status hmem hlength ↦ ⟨hstatus status hmem, status.writes hruntime hlength⟩
  have hlist := Slot.writes hruntime (by decide) (rfl : response.toMessage.windowList = _) hsecond
    fun list hmem hlength ↦ ⟨(hlist list hmem).1, list.writes hruntime (hlist list hmem) hlength⟩
  exact (hstatus.append hlist).append (writes_unknown hruntime hunknown)

end Second

/-! ## Both passes -/

/-- What the first pass measures and the second one writes is the encoding of the message, and the
buffer is filled to its last byte. -/
theorem serializeToString_eq {runtime : Runtime} (hruntime : runtime.Lawful) {Object Message : Type}
    {toMessage : Object → Message} {encode : Message → Bytes} {Fresh : Object → Prop}
    {byteSizeLong : Object → ℕ × Object} {internalSerialize : Object → Bytes → Bytes} {object : Object}
    (hmeasures : Measures toMessage encode Fresh object (byteSizeLong object))
    (hwrites : ∀ object, Fresh object → (encode (toMessage object)).length < 2 ^ 31 →
      Writes (internalSerialize object) (encode (toMessage object))) :
    let result := runtime.serializeToString byteSizeLong internalSerialize object
    result.1 = Extended.serialize (encode (toMessage object)) ∧ toMessage result.2 = toMessage object ∧
      ∀ bytes, result.1 = some bytes → (byteSizeLong object).1 = bytes.length := by
  obtain ⟨hagrees, hmessage, hfresh⟩ := hmeasures
  by_cases hsize : (byteSizeLong object).1 ≤ 2 ^ 31 - 1
  · have hlength := hagrees.iff.1 hsize
    have hfills := hagrees.eq (by omega)
    have hpass := hwrites (byteSizeLong object).2 (hfresh (by omega)) (by rw [hmessage]; omega)
    rw [hmessage] at hpass
    rw [hruntime.fills byteSizeLong internalSerialize object _ hsize hfills hpass, Extended.serialize,
      if_pos hlength]
    refine ⟨rfl, hmessage, ?_⟩
    rintro _ ⟨⟩
    exact hfills
  · rw [hruntime.refuses byteSizeLong internalSerialize object (by omega), Extended.serialize,
      if_neg (hagrees.iff.not.1 hsize)]
    exact ⟨rfl, hmessage, by simp⟩

/-- What `SerializeToString` does with a response and with a request. -/
theorem ServerResponse.serializeToString_eq {runtime : Runtime} (hruntime : runtime.Lawful)
    (response : ServerResponse) :
    let result := response.serializeToString runtime
    result.1 = Extended.serialize response.toMessage.encode ∧
      result.2.toMessage = response.toMessage ∧
      ∀ bytes, result.1 = some bytes → (response.byteSizeLong runtime).1 = bytes.length :=
  Serialization.serializeToString_eq hruntime (response.measures hruntime) fun _ hfresh hlength ↦
    writes hruntime hfresh hlength

theorem ClientRequest.serializeToString_eq {runtime : Runtime} (hruntime : runtime.Lawful)
    (request : ClientRequest) :
    let result := request.serializeToString runtime
    result.1 = Extended.serialize request.toMessage.encode ∧
      result.2.toMessage = request.toMessage ∧
      ∀ bytes, result.1 = some bytes → (request.byteSizeLong runtime).1 = bytes.length :=
  Serialization.serializeToString_eq hruntime (request.measures hruntime) fun _ hfresh hlength ↦
    writes hruntime hfresh hlength

/-- Responses and requests, whatever sizes and unknown fields they carry: `SerializeToString` writes
the encoding of the message if its length fits into an `int` and refuses it otherwise, it does not
change the message, and the size it computes for the buffer is the number of bytes it writes.
Without unknown fields these are the plain encodings of the messages. -/
theorem serialized (runtime : Runtime) (hruntime : runtime.Lawful) :
    (∀ response : ServerResponse,
      let result := response.serializeToString runtime
      result.1 = Extended.serialize response.toMessage.encode ∧
        result.2.toMessage = response.toMessage ∧
        (∀ bytes, result.1 = some bytes → (response.byteSizeLong runtime).1 = bytes.length) ∧
        ∀ message, response.toMessage = .ofMessage message → result.1 = message.serializeToString) ∧
    ∀ request : ClientRequest,
      let result := request.serializeToString runtime
      result.1 = Extended.serialize request.toMessage.encode ∧
        result.2.toMessage = request.toMessage ∧
        (∀ bytes, result.1 = some bytes → (request.byteSizeLong runtime).1 = bytes.length) ∧
        ∀ message, request.toMessage = .ofMessage message →
          result.1 = Extended.serialize message.encode := by
  refine ⟨fun response ↦ ?_, fun request ↦ ?_⟩
  · obtain ⟨hbytes, hmessage, hsize⟩ := response.serializeToString_eq hruntime
    refine ⟨hbytes, hmessage, hsize, fun message hof ↦ ?_⟩
    rw [hbytes, hof, Extended.ServerResponse.encode_ofMessage]
    rfl
  · obtain ⟨hbytes, hmessage, hsize⟩ := request.serializeToString_eq hruntime
    refine ⟨hbytes, hmessage, hsize, fun message hof ↦ ?_⟩
    rw [hbytes, hof, Extended.ClientRequest.encode_ofMessage]

/-- A library without any room in its buffer. -/
def crowded : Runtime where
  room _ := -16
  writeStringMaybeAliasedOutline number value target :=
    unsafeVarint value.length (writeTagToArray number 2 target) ++ value
  internalWriteMessage number serialize cachedSize target :=
    serialize (unsafeVarint cachedSize.toUInt32.toNat (writeTagToArray number 2 target))
  maybeComputeUnknownFieldsSize metadata size :=
    let total := size + (encodeUnknown metadata.unknownFields).length
    (total, toCachedSize total)
  internalSerializeUnknownFieldsToArray fields target := target ++ encodeUnknown fields
  zeroFieldsByteSizeLong metadata :=
    let size := (encodeUnknown metadata.unknownFields).length
    (size, toCachedSize size)
  zeroFieldsInternalSerialize metadata target := target ++ encodeUnknown metadata.unknownFields
  serializeToString byteSizeLong internalSerialize object :=
    let sized := byteSizeLong object
    (if sized.1 ≤ 2 ^ 31 - 1 then some (internalSerialize sized.2 []) else none, sized.2)

theorem lawful_crowded : crowded.Lawful where
  outline _ _ _ _ := rfl
  message _ _ _ _ := rfl
  unknownSize _ _ := ⟨_, .inl rfl, rfl⟩
  unknown _ _ _ := rfl
  zeroFieldsSize _ := ⟨_, .inl rfl, rfl⟩
  zeroFields _ _ _ := rfl
  refuses _ _ _ hsize := by
    simp only [crowded, if_neg (Nat.not_le.2 hsize)]
  fills _ _ _ _ hsize _ hwrites := by
    simp only [crowded, if_pos hsize, hwrites, List.nil_append]

/-- A status with sizes left over from longer messages, and a field that the schema does not name. -/
theorem serialized_stale :
    (ServerResponse.serializeToString crowded
      ⟨.present ⟨true, [79, 75], ⟨some [.varint 4 1]⟩, 300⟩, .null, ⟨none⟩, 70000⟩).1 =
        some [10, 8, 8, 1, 18, 2, 79, 75, 32, 1] := by
  have hencode : Extended.serialize (ServerResponse.toMessage
      ⟨.present ⟨true, [79, 75], ⟨some [.varint 4 1]⟩, 300⟩, .null, ⟨none⟩, 70000⟩).encode =
        some [10, 8, 8, 1, 18, 2, 79, 75, 32, 1] := by decide
  exact ((serialized crowded lawful_crowded).1 _).1.trans hencode

end WindowCaster.Protocol.Serialization
