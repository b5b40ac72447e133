import WindowCaster.Protocol.Messages

/-!
# Messages with unknown fields

The generated classes keep the fields that a newer sender has added, although the schema does not
name them, and write them behind the known ones. Here each message of `windowcaster.proto` comes
with such fields; a message without any is encoded as before. Merging replaces scalars unless they
have their default value, merges submessages, and puts repeated and unknown fields one after the
other.
-/

namespace WindowCaster.Protocol.Extended

open Foundation.StreamDecoder.Decoder Foundation.ProtobufWire
open Foundation.Text (Bytes)
open Messages (body uint64Field messageField)

/-! ## Unknown fields -/

/-- A field as it came over the wire, where numbers have 29 bits. -/
inductive UnknownField
  | varint (number : Fin (2 ^ 29)) (value : UInt64)
  | fixed32 (number : Fin (2 ^ 29)) (value : UInt32)
  | fixed64 (number : Fin (2 ^ 29)) (value : UInt64)
  | lengthDelimited (number : Fin (2 ^ 29)) (value : Bytes)
  | group (number : Fin (2 ^ 29)) (fields : List UnknownField)

/-- So many bytes of a number, the lowest first. -/
def littleEndian (width value : ℕ) : Bytes :=
  (List.range width).map fun index ↦ UInt8.ofNat (value >>> (8 * index))

mutual

/-- A group stands between two tags. -/
def UnknownField.encode : UnknownField → Bytes
  | .varint number value => Field.encode ⟨number, .varint value⟩
  | .fixed32 number value => Field.encode ⟨number, .fixed32 (littleEndian 4 value.toNat)⟩
  | .fixed64 number value => Field.encode ⟨number, .fixed64 (littleEndian 8 value.toNat)⟩
  | .lengthDelimited number value => Field.encode ⟨number, .lengthDelimited value⟩
  | .group number fields =>
    varint (UInt64.ofNat (8 * number + 3)) ++ encodeUnknown fields ++
      varint (UInt64.ofNat (8 * number + 4))

def encodeUnknown : List UnknownField → Bytes
  | [] => []
  | field :: fields => field.encode ++ encodeUnknown fields

end

/-! ## Messages -/

/-- A message without submessages. -/
structure Flat (Known : Type) where
  known : Known
  unknown : List UnknownField

abbrev Image := Flat Messages.Image
abbrev Video := Flat Messages.Video
abbrev StopRender := Flat Messages.StopRender
abbrev Status := Flat Messages.Status
abbrev WindowInfo := Flat (Messages.WindowInfo Bytes)

inductive Content
  | image (image : Image)
  | video (video : Video)

structure RenderCommand where
  targetWindow : UInt64
  content : Option Content
  unknown : List UnknownField

/-- The request for the list has no fields of its own. -/
inductive Request
  | getWindowList (unknown : List UnknownField)
  | renderCommand (command : RenderCommand)
  | stopRender (command : StopRender)

structure ClientRequest where
  request : Option Request
  unknown : List UnknownField

structure WindowList where
  windows : List WindowInfo
  unknown : List UnknownField

structure ServerResponse where
  status : Option Status
  windowList : Option WindowList
  unknown : List UnknownField

/-! ## Encoding -/

def Flat.encode {Known : Type} (fields : Known → List Field) (message : Flat Known) : Bytes :=
  body (fields message.known) ++ encodeUnknown message.unknown

def Image.encode (image : Image) : Bytes := Flat.encode Messages.Image.fields image

def Video.encode (video : Video) : Bytes := Flat.encode Messages.Video.fields video

def StopRender.encode (command : StopRender) : Bytes := Flat.encode Messages.StopRender.fields command

def Status.encode (status : Status) : Bytes := Flat.encode Messages.Status.fields status

def WindowInfo.encode (info : WindowInfo) : Bytes := Flat.encode Messages.WindowInfo.fields info

def Content.encode : Content → Bytes
  | .image content => body (messageField 2 (Image.encode content))
  | .video content => body (messageField 3 (Video.encode content))

def RenderCommand.encode (command : RenderCommand) : Bytes :=
  body (uint64Field 1 command.targetWindow) ++ command.content.elim [] Content.encode ++
    encodeUnknown command.unknown

def Request.encode : Request → Bytes
  | .getWindowList unknown => body (messageField 1 (encodeUnknown unknown))
  | .renderCommand command => body (messageField 2 command.encode)
  | .stopRender command => body (messageField 3 (StopRender.encode command))

def ClientRequest.encode (request : ClientRequest) : Bytes :=
  request.request.elim [] Request.encode ++ encodeUnknown request.unknown

def WindowList.encode (list : WindowList) : Bytes :=
  (list.windows.map fun info ↦ body (messageField 1 (WindowInfo.encode info))).flatten ++
    encodeUnknown list.unknown

def ServerResponse.encode (response : ServerResponse) : Bytes :=
  response.status.elim [] (fun status ↦ body (messageField 1 (Status.encode status))) ++
    response.windowList.elim [] (fun list ↦ body (messageField 2 list.encode)) ++
    encodeUnknown response.unknown

/-- An encoding that is too long for an `int` is refused. -/
def serialize (encoding : Bytes) : Option Bytes :=
  if encoding.length ≤ 2 ^ 31 - 1 then some encoding else none

/-! ## Messages without unknown fields -/

def Flat.ofMessage {Known : Type} (known : Known) : Flat Known := ⟨known, []⟩

def Content.ofMessage : Messages.Content → Content
  | .image content => .image (.ofMessage content)
  | .video content => .video (.ofMessage content)

def RenderCommand.ofMessage (command : Messages.RenderCommand) : RenderCommand :=
  ⟨command.targetWindow, command.content.map .ofMessage, []⟩

def Request.ofMessage : Messages.Request → Request
  | .getWindowList => .getWindowList []
  | .renderCommand command => .renderCommand (.ofMessage command)
  | .stopRender command => .stopRender (.ofMessage command)

def ClientRequest.ofMessage (request : Messages.ClientRequest) : ClientRequest :=
  ⟨request.request.map .ofMessage, []⟩

def WindowList.ofMessage (list : Messages.WindowList Bytes) : WindowList :=
  ⟨list.windows.map .ofMessage, []⟩

def ServerResponse.ofMessage (response : Messages.ServerResponse Bytes) : ServerResponse :=
  ⟨response.status.map .ofMessage, response.windowList.map .ofMessage, []⟩

theorem body_append (first second : List Field) : body (first ++ second) = body first ++ body second :=
  encodeAll_append Field.encode first second

@[simp]
theorem Flat.encode_ofMessage {Known : Type} (fields : Known → List Field) (known : Known) :
    (Flat.ofMessage known).encode fields = body (fields known) :=
  List.append_nil _

theorem Content.encode_ofMessage (content : Messages.Content) :
    (Content.ofMessage content).encode = body content.fields := by
  cases content <;>
    simp only [ofMessage, encode, Image.encode, Video.encode, Flat.encode_ofMessage, Messages.Content.fields]

theorem RenderCommand.encode_ofMessage (command : Messages.RenderCommand) :
    (RenderCommand.ofMessage command).encode = body command.fields := by
  obtain ⟨targetWindow, _ | content⟩ := command <;>
    simp [ofMessage, encode, encodeUnknown, Messages.RenderCommand.fields, Content.encode_ofMessage]

theorem Request.encode_ofMessage (request : Messages.Request) :
    (Request.ofMessage request).encode = body request.fields := by
  cases request <;>
    simp only [ofMessage, encode, encodeUnknown, RenderCommand.encode_ofMessage, StopRender.encode,
      Flat.encode_ofMessage, Messages.Request.fields]

theorem ClientRequest.encode_ofMessage (request : Messages.ClientRequest) :
    (ClientRequest.ofMessage request).encode = request.encode := by
  obtain ⟨_ | request⟩ := request <;>
    simp [ofMessage, encode, encodeUnknown, Messages.ClientRequest.encode,
      Messages.ClientRequest.fields, Request.encode_ofMessage]

theorem WindowList.encode_ofMessage (list : Messages.WindowList Bytes) :
    (WindowList.ofMessage list).encode = body list.fields := by
  obtain ⟨windows⟩ := list
  induction windows with
  | nil => rfl
  | cons info windows ih =>
    have hinfo : WindowInfo.encode (.ofMessage info) = body info.fields := Flat.encode_ofMessage _ info
    simp only [ofMessage, encode, encodeUnknown, List.append_nil, List.map_cons, List.flatten_cons,
      Messages.WindowList.fields, body_append, hinfo] at ih ⊢
    rw [ih]

theorem ServerResponse.encode_ofMessage (response : Messages.ServerResponse Bytes) :
    (ServerResponse.ofMessage response).encode = response.encode := by
  obtain ⟨status, windowList⟩ := response
  have hstatus (status : Messages.Status) : Status.encode (.ofMessage status) = body status.fields :=
    Flat.encode_ofMessage _ status
  cases status <;> cases windowList <;>
    simp [ofMessage, encode, encodeUnknown, Messages.ServerResponse.encode,
      Messages.ServerResponse.fields, WindowList.encode_ofMessage, hstatus]

/-! ## Merging -/

/-- Taken over unless it is the default. -/
def overwrite {α : Type} [DecidableEq α] (default this other : α) : α :=
  if other = default then this else other

@[simp]
theorem overwrite_default {α : Type} [DecidableEq α] (default other : α) :
    overwrite default default other = other := by
  unfold overwrite
  split
  · next h => exact h.symm
  · rfl

def Status.merge (this other : Status) : Status where
  known :=
    ⟨overwrite false this.known.success other.known.success,
      overwrite [] this.known.message other.known.message⟩
  unknown := this.unknown ++ other.unknown

def WindowInfo.merge (this other : WindowInfo) : WindowInfo where
  known :=
    ⟨overwrite 0 this.known.handle other.known.handle, overwrite [] this.known.title other.known.title,
      overwrite [] this.known.className other.known.className⟩
  unknown := this.unknown ++ other.unknown

def WindowList.merge (this other : WindowList) : WindowList :=
  ⟨this.windows ++ other.windows, this.unknown ++ other.unknown⟩

/-- A submessage is merged with what is there, or with an empty one. -/
def mergeOption {α : Type} (merge : α → α → α) (empty : α) (this other : Option α) : Option α :=
  match other with
  | some message => some (merge (this.getD empty) message)
  | none => this

def Status.empty : Status := .ofMessage ⟨false, []⟩

def WindowInfo.empty : WindowInfo := .ofMessage ⟨0, [], []⟩

def WindowList.empty : WindowList := ⟨[], []⟩

def ServerResponse.merge (this other : ServerResponse) : ServerResponse where
  status := mergeOption Status.merge .empty this.status other.status
  windowList := mergeOption WindowList.merge .empty this.windowList other.windowList
  unknown := this.unknown ++ other.unknown

def ServerResponse.empty : ServerResponse := ⟨none, none, []⟩

/-! Into an empty message everything is taken over. -/

@[simp]
theorem Status.empty_merge (status : Status) : Status.merge .empty status = status := by
  simp [merge, empty, Flat.ofMessage]

@[simp]
theorem WindowInfo.empty_merge (info : WindowInfo) : WindowInfo.merge .empty info = info := by
  simp [merge, empty, Flat.ofMessage]

@[simp]
theorem WindowList.empty_merge (list : WindowList) : WindowList.merge .empty list = list := by
  simp [merge, empty]

theorem ServerResponse.empty_merge (message : ServerResponse) :
    ServerResponse.empty.merge message = message := by
  obtain ⟨status, windowList, unknown⟩ := message
  cases status <;> cases windowList <;> simp [merge, empty, mergeOption]

end WindowCaster.Protocol.Extended
