import WindowCaster.Protocol.Serialization

/-!
# Operations on response objects

`Clear`, `MergeFrom`, `CopyFrom` and the accessors work on objects that remember more than their
message: a cleared submessage stays behind its pointer, cleared entries of a list stay behind the
list and are handed out again, and a set of unknown fields stays where it was. Seen as messages, the
objects behave as if none of this were there, after every sequence of operations. What carries this
is that everything kept out of sight is empty.
-/

namespace WindowCaster.Protocol.Serialization

open CodedOutput (InternalMetadata)
open Foundation.Text (Bytes)
open Extended (UnknownField overwrite mergeOption)

/-! ## `RepeatedPtrField` -/

/-- The compiled parts. `addOutOfLineHelper` makes an element unless a cleared one can be handed out,
and leaves the other cleared ones; `mergeFromConcreteMessage` is given the ways to merge into an
element and to copy one. -/
structure RepeatedPtrFieldBase where
  addOutOfLineHelper : {Element : Type} → Element → RepeatedPtrField Element → Element × List Element
  mergeFromConcreteMessage : {Element : Type} → (Element → Element → Element) → (Element → Element) →
    RepeatedPtrField Element → RepeatedPtrField Element → RepeatedPtrField Element

/-- What they are documented to do: the first cleared element is used first, and only those for
which no cleared element is left are copied. -/
structure RepeatedPtrFieldBase.Lawful (base : RepeatedPtrFieldBase) : Prop where
  add : ∀ {Element : Type} (new : Element) (elements cleared : List Element),
    base.addOutOfLineHelper new ⟨elements, cleared⟩ = (cleared.headD new, cleared.tail)
  merge : ∀ {Element : Type} (merge : Element → Element → Element) (copy : Element → Element)
    (elements cleared : List Element) (other : RepeatedPtrField Element),
    base.mergeFromConcreteMessage merge copy ⟨elements, cleared⟩ other =
      ⟨elements ++ List.zipWith merge cleared other.elements ++
          (other.elements.drop cleared.length).map copy,
        cleared.drop other.elements.length⟩

namespace RepeatedPtrField

variable {Element : Type}

def new : RepeatedPtrField Element := ⟨[], []⟩

/-- The elements are cleared, and join those that were cleared before. -/
def clear (clear : Element → Element) (field : RepeatedPtrField Element) : RepeatedPtrField Element :=
  ⟨[], field.elements.map clear ++ field.cleared⟩

/-- `Add`, with what is done to the element it returns. -/
def add (base : RepeatedPtrFieldBase) (new : Element) (edit : Element → Element)
    (field : RepeatedPtrField Element) : RepeatedPtrField Element :=
  let added := base.addOutOfLineHelper new field
  ⟨field.elements ++ [edit added.1], added.2⟩

def mergeFrom (base : RepeatedPtrFieldBase) (merge : Element → Element → Element) (new : Element)
    (this other : RepeatedPtrField Element) : RepeatedPtrField Element :=
  if other.elements = [] then this else base.mergeFromConcreteMessage merge (merge new) this other

/-- The elements that are kept hold no data. -/
def Clean {Message : Type} (toMessage : Element → Message) (empty : Message)
    (field : RepeatedPtrField Element) : Prop :=
  ∀ element ∈ field.cleared, toMessage element = empty

section Clean

variable {Message : Type} {toMessage : Element → Message} {empty : Message} {new : Element}
  {field : RepeatedPtrField Element}

theorem clean_clear {clearElement : Element → Element}
    (hclear : ∀ element, toMessage (clearElement element) = empty)
    (hclean : field.Clean toMessage empty) : (field.clear clearElement).Clean toMessage empty := by
  intro element hmem
  rcases List.mem_append.1 hmem with hmem | hmem
  · obtain ⟨element, -, rfl⟩ := List.mem_map.1 hmem
    exact hclear element
  · exact hclean element hmem

variable {base : RepeatedPtrFieldBase} (hbase : base.Lawful)
include hbase

/-- The element that is handed out is empty, be it new or used before. -/
theorem map_elements_add (hclean : field.Clean toMessage empty) (hnew : toMessage new = empty)
    (edit : Element → Element) (change : Message → Message)
    (hedit : ∀ element, toMessage (edit element) = change (toMessage element)) :
    (field.add base new edit).elements.map toMessage =
        field.elements.map toMessage ++ [change empty] ∧
      (field.add base new edit).Clean toMessage empty := by
  obtain ⟨elements, cleared⟩ := field
  rw [add, hbase.add]
  cases cleared with
  | nil => exact ⟨by simp [hedit, hnew], hclean⟩
  | cons element cleared =>
    obtain ⟨helement, hcleared⟩ := List.forall_mem_cons.1 hclean
    exact ⟨by simp [hedit, helement], hcleared⟩

omit hbase in
/-- Merged into an empty element or copied, an element gives the same message. -/
theorem map_zipWith_merge {merge : Element → Element → Element}
    (hmerge : ∀ this other, toMessage this = empty → toMessage (merge this other) = toMessage other)
    (hnew : toMessage new = empty) {cleared : List Element}
    (hclean : ∀ element ∈ cleared, toMessage element = empty) (others : List Element) :
    (List.zipWith merge cleared others ++ (others.drop cleared.length).map (merge new)).map toMessage =
      others.map toMessage := by
  induction cleared generalizing others with
  | nil => simp [hmerge new _ hnew]
  | cons element cleared ih =>
    obtain ⟨helement, hcleared⟩ := List.forall_mem_cons.1 hclean
    cases others with
    | nil => rfl
    | cons other others =>
      rw [List.zipWith_cons_cons, List.length_cons, List.drop_succ_cons, List.cons_append,
        List.map_cons, ih hcleared, hmerge element other helement, List.map_cons]

theorem map_elements_mergeFrom {merge : Element → Element → Element}
    (hmerge : ∀ this other, toMessage this = empty → toMessage (merge this other) = toMessage other)
    (hclean : field.Clean toMessage empty) (hnew : toMessage new = empty)
    (other : RepeatedPtrField Element) :
    (field.mergeFrom base merge new other).elements.map toMessage =
        field.elements.map toMessage ++ other.elements.map toMessage ∧
      (field.mergeFrom base merge new other).Clean toMessage empty := by
  obtain ⟨elements, cleared⟩ := field
  rw [mergeFrom]
  split
  · next hempty => exact ⟨by simp [hempty], hclean⟩
  · have hmap := map_zipWith_merge hmerge hnew hclean other.elements
    rw [hbase.merge, List.append_assoc, List.map_append, hmap]
    exact ⟨rfl, fun element hmem ↦ hclean element (List.mem_of_mem_drop hmem)⟩

end Clean

end RepeatedPtrField

/-! ## Submessages behind pointers -/

namespace Slot

variable {Object : Type}

/-- `Clear` of the whole message: the object of a set bit is cleared and kept. -/
def clear (clear : Object → Object) : Slot Object → Slot Object
  | .present object => .retained (clear object)
  | .retained object => .retained object
  | .null => .null

/-- `clear_…` of the field: an object is cleared whatever its bit. -/
def clearField (clear : Object → Object) : Slot Object → Slot Object
  | .present object | .retained object => .retained (clear object)
  | .null => .null

/-- The object behind the pointer after `_internal_mutable_…`, which also sets the bit. -/
def mutable (new : Object) : Slot Object → Object
  | .present object | .retained object => object
  | .null => new

def mergeFrom (new : Object) (merge : Object → Object → Object) (this other : Slot Object) :
    Slot Object :=
  match other with
  | .present object => .present (merge (this.mutable new) object)
  | .retained _ | .null => this

/-- Every object is in order, and one that is kept while its bit is clear holds no data. -/
def Clean {Message : Type} (toMessage : Object → Message) (empty : Message) (InOrder : Object → Prop) :
    Slot Object → Prop
  | .present object => InOrder object
  | .retained object => toMessage object = empty ∧ InOrder object
  | .null => True

section Clean

variable {Message : Type} {toMessage : Object → Message} {empty : Message} {InOrder : Object → Prop}
  {new : Object} {slot : Slot Object}

theorem get_clear (clearObject : Object → Object) (slot : Slot Object) :
    (slot.clear clearObject).get = none := by
  cases slot <;> rfl

theorem get_clearField (clearObject : Object → Object) (slot : Slot Object) :
    (slot.clearField clearObject).get = none := by
  cases slot <;> rfl

theorem mutable_clean (hclean : slot.Clean toMessage empty InOrder) (hnew : toMessage new = empty)
    (hnew' : InOrder new) :
    toMessage (slot.mutable new) = (slot.get.map toMessage).getD empty ∧ InOrder (slot.mutable new) := by
  cases slot with
  | null => exact ⟨hnew, hnew'⟩
  | retained object => exact hclean
  | present object => exact ⟨rfl, hclean⟩

variable {clearObject : Object → Object}
  (hclear : ∀ object, InOrder object →
    toMessage (clearObject object) = empty ∧ InOrder (clearObject object))
include hclear

theorem clean_clear (hclean : slot.Clean toMessage empty InOrder) :
    (slot.clear clearObject).Clean toMessage empty InOrder := by
  cases slot with
  | null => exact trivial
  | retained object => exact hclean
  | present object => exact hclear object hclean

theorem clean_clearField (hclean : slot.Clean toMessage empty InOrder) :
    (slot.clearField clearObject).Clean toMessage empty InOrder := by
  cases slot with
  | null => exact trivial
  | retained object => exact hclear object hclean.2
  | present object => exact hclear object hclean

omit hclear in
/-- Objects that merge as their messages do. -/
theorem mergeFrom_clean {merge : Object → Object → Object} {mergeMessages : Message → Message → Message}
    (hmerge : ∀ this other, InOrder this →
      toMessage (merge this other) = mergeMessages (toMessage this) (toMessage other) ∧
        InOrder (merge this other))
    (hclean : slot.Clean toMessage empty InOrder) (hnew : toMessage new = empty) (hnew' : InOrder new)
    (other : Slot Object) :
    (slot.mergeFrom new merge other).get.map toMessage =
        mergeOption mergeMessages empty (slot.get.map toMessage) (other.get.map toMessage) ∧
      (slot.mergeFrom new merge other).Clean toMessage empty InOrder := by
  cases other with
  | null | retained object => exact ⟨rfl, hclean⟩
  | present object =>
    obtain ⟨hmessage, horder⟩ := mutable_clean hclean hnew hnew'
    obtain ⟨hmerged, horder'⟩ := hmerge _ object horder
    refine ⟨?_, horder'⟩
    simp only [mergeFrom, get, Option.map_some, hmerged, hmessage, mergeOption]

end Clean

end Slot

/-! ## Responses -/

def Status.new : Status := ⟨false, [], ⟨none⟩, 0⟩

def Status.clear (status : Status) : Status :=
  { status with message := [], success := false, metadata := status.metadata.clear }

def Status.mergeFrom (this other : Status) : Status where
  success := overwrite false this.success other.success
  message := overwrite [] this.message other.message
  metadata := this.metadata.mergeFrom other.metadata
  cachedSize := this.cachedSize

def WindowInfo.new : WindowInfo := ⟨0, [], [], ⟨none⟩, 0⟩

def WindowInfo.clear (info : WindowInfo) : WindowInfo :=
  { info with title := [], className := [], handle := 0, metadata := info.metadata.clear }

def WindowInfo.mergeFrom (this other : WindowInfo) : WindowInfo where
  handle := overwrite 0 this.handle other.handle
  title := overwrite [] this.title other.title
  className := overwrite [] this.className other.className
  metadata := this.metadata.mergeFrom other.metadata
  cachedSize := this.cachedSize

/-- Those of the setters that are called on an entry. -/
def WindowInfo.set (handle : Option UInt64) (title className : Option Bytes) (info : WindowInfo) :
    WindowInfo :=
  { info with
    handle := handle.getD info.handle
    title := title.getD info.title
    className := className.getD info.className }

def WindowList.new : WindowList := ⟨.new, ⟨none⟩, 0⟩

def WindowList.clearWindows (list : WindowList) : WindowList :=
  { list with windows := list.windows.clear WindowInfo.clear }

def WindowList.clear (list : WindowList) : WindowList :=
  { list with windows := list.windows.clear WindowInfo.clear, metadata := list.metadata.clear }

def WindowList.mergeFrom (base : RepeatedPtrFieldBase) (this other : WindowList) : WindowList :=
  { this with
    windows := this.windows.mergeFrom base WindowInfo.mergeFrom .new other.windows
    metadata := this.metadata.mergeFrom other.metadata }

/-- `add_windows`, and the setters on the entry that it returns. -/
def WindowList.addWindow (base : RepeatedPtrFieldBase) (handle : Option UInt64)
    (title className : Option Bytes) (list : WindowList) : WindowList :=
  { list with windows := list.windows.add base .new (.set handle title className) }

/-- No data is left in the entries that are kept. -/
def WindowList.Clean (list : WindowList) : Prop := list.windows.Clean WindowInfo.toMessage .empty

theorem Status.toMessage_clear (status : Status) : status.clear.toMessage = .empty := by
  simp [clear, toMessage, Extended.Status.empty, Extended.Flat.ofMessage]

theorem Status.toMessage_mergeFrom (this other : Status) :
    (this.mergeFrom other).toMessage = Extended.Status.merge this.toMessage other.toMessage := by
  simp [mergeFrom, toMessage, Extended.Status.merge]

theorem WindowInfo.toMessage_clear (info : WindowInfo) : info.clear.toMessage = .empty := by
  simp [clear, toMessage, Extended.WindowInfo.empty, Extended.Flat.ofMessage]

theorem WindowInfo.toMessage_mergeFrom (this other : WindowInfo) :
    (this.mergeFrom other).toMessage = Extended.WindowInfo.merge this.toMessage other.toMessage := by
  simp [mergeFrom, toMessage, Extended.WindowInfo.merge]

namespace WindowList

theorem clean_new : new.Clean := fun _ hmem ↦ absurd hmem List.not_mem_nil

theorem clean_clear {list : WindowList} (h : list.Clean) : list.clear.Clean :=
  RepeatedPtrField.clean_clear WindowInfo.toMessage_clear h

theorem toMessage_clear (list : WindowList) : list.clear.toMessage = .empty := by
  simp [clear, toMessage, RepeatedPtrField.clear, Extended.WindowList.empty]

variable {base : RepeatedPtrFieldBase} (hbase : base.Lawful)
include hbase

theorem mergeFrom_clean {this : WindowList} (h : this.Clean) (other : WindowList) :
    (this.mergeFrom base other).toMessage = this.toMessage.merge other.toMessage ∧
      (this.mergeFrom base other).Clean := by
  have hmerge (info info' : WindowInfo) (hempty : info.toMessage = .empty) :
      (info.mergeFrom info').toMessage = info'.toMessage := by
    rw [WindowInfo.toMessage_mergeFrom, hempty, Extended.WindowInfo.empty_merge]
  obtain ⟨helements, hclean⟩ := RepeatedPtrField.map_elements_mergeFrom hbase hmerge h
    (rfl : WindowInfo.toMessage .new = .empty) other.windows
  refine ⟨?_, hclean⟩
  simp [mergeFrom, toMessage, Extended.WindowList.merge, helements]

theorem addWindow_clean {list : WindowList} (h : list.Clean) (handle : Option UInt64)
    (title className : Option Bytes) :
    (list.addWindow base handle title className).toMessage =
        ⟨list.toMessage.windows ++ [.ofMessage ⟨handle.getD 0, title.getD [], className.getD []⟩],
          list.toMessage.unknown⟩ ∧
      (list.addWindow base handle title className).Clean := by
  obtain ⟨helements, hclean⟩ := RepeatedPtrField.map_elements_add hbase h
    (rfl : WindowInfo.toMessage .new = .empty) (.set handle title className)
    (fun info ↦ ⟨⟨handle.getD info.known.handle, title.getD info.known.title,
      className.getD info.known.className⟩, info.unknown⟩) fun _ ↦ rfl
  refine ⟨?_, hclean⟩
  simp only [addWindow, toMessage, helements]
  rfl

end WindowList

namespace ServerResponse

def new : ServerResponse := ⟨.null, .null, ⟨none⟩, 0⟩

def clear (response : ServerResponse) : ServerResponse :=
  { response with
    status := response.status.clear Status.clear
    windowList := response.windowList.clear WindowList.clear
    metadata := response.metadata.clear }

def mergeFrom (base : RepeatedPtrFieldBase) (this other : ServerResponse) : ServerResponse where
  status := this.status.mergeFrom .new Status.mergeFrom other.status
  windowList := this.windowList.mergeFrom .new (WindowList.mergeFrom base) other.windowList
  metadata := this.metadata.mergeFrom other.metadata
  cachedSize := this.cachedSize

/-- From another object; an object that is copied to itself stays as it is. -/
def copyFrom (base : RepeatedPtrFieldBase) (this other : ServerResponse) : ServerResponse :=
  this.clear.mergeFrom base other

/-- `mutable_status` with what is done to the object. -/
def editStatus (response : ServerResponse) (edit : Status → Status) : ServerResponse :=
  { response with status := .present (edit (response.status.mutable .new)) }

def editWindowList (response : ServerResponse) (edit : WindowList → WindowList) : ServerResponse :=
  { response with windowList := .present (edit (response.windowList.mutable .new)) }

/-- `mutable_unknown_fields`, and fields that are added to the set. -/
def addUnknownFields (response : ServerResponse) (fields : List UnknownField) : ServerResponse :=
  { response with metadata := ⟨some (response.metadata.unknownFields ++ fields)⟩ }

/-- No data is left where none can be seen. -/
structure Clean (response : ServerResponse) : Prop where
  status : response.status.Clean Status.toMessage .empty fun _ ↦ True
  windowList : response.windowList.Clean WindowList.toMessage .empty WindowList.Clean

end ServerResponse

end WindowCaster.Protocol.Serialization

namespace WindowCaster.Protocol.Objects

open CodedOutput Serialization
open Extended (UnknownField)
open Foundation.Text (Bytes)

/-! ## Sequences of operations -/

/-- What a program does with a response object. -/
inductive Operation
  | clear
  | mergeFrom (other : ServerResponse)
  | copyFrom (other : ServerResponse)
  | mutableStatus
  | setSuccess (success : Bool)
  | setMessage (message : Bytes)
  | clearStatus
  | mutableWindowList
  | addWindow (handle : Option UInt64) (title className : Option Bytes)
  | clearWindows
  | clearWindowList
  | addUnknownFields (fields : List UnknownField)
  | byteSizeLong

/-- On the object. -/
def Operation.perform (runtime : Runtime) (base : RepeatedPtrFieldBase) (response : ServerResponse) :
    Operation → ServerResponse
  | .clear => response.clear
  | .mergeFrom other => response.mergeFrom base other
  | .copyFrom other => response.copyFrom base other
  | .mutableStatus => response.editStatus id
  | .setSuccess success => response.editStatus fun status ↦ { status with success }
  | .setMessage message => response.editStatus fun status ↦ { status with message }
  | .clearStatus => { response with status := response.status.clearField Status.clear }
  | .mutableWindowList => response.editWindowList id
  | .addWindow handle title className =>
    response.editWindowList (.addWindow base handle title className)
  | .clearWindows => response.editWindowList .clearWindows
  | .clearWindowList => { response with windowList := response.windowList.clearField WindowList.clear }
  | .addUnknownFields fields => response.addUnknownFields fields
  | .byteSizeLong => (response.byteSizeLong runtime).2

/-- On the message, where the parts are there or not and nothing else is remembered. -/
def editStatus (message : Extended.ServerResponse) (change : Extended.Status → Extended.Status) :
    Extended.ServerResponse :=
  { message with status := some (change (message.status.getD .empty)) }

def editWindowList (message : Extended.ServerResponse)
    (change : Extended.WindowList → Extended.WindowList) : Extended.ServerResponse :=
  { message with windowList := some (change (message.windowList.getD .empty)) }

def Operation.apply (message : Extended.ServerResponse) : Operation → Extended.ServerResponse
  | .clear => .empty
  | .mergeFrom other => message.merge other.toMessage
  | .copyFrom other => other.toMessage
  | .mutableStatus => editStatus message id
  | .setSuccess success =>
    editStatus message fun status ↦ { status with known := { status.known with success } }
  | .setMessage text =>
    editStatus message fun status ↦ { status with known := { status.known with message := text } }
  | .clearStatus => { message with status := none }
  | .mutableWindowList => editWindowList message id
  | .addWindow handle title className => editWindowList message fun list ↦
    ⟨list.windows ++ [.ofMessage ⟨handle.getD 0, title.getD [], className.getD []⟩], list.unknown⟩
  | .clearWindows => editWindowList message fun list ↦ { list with windows := [] }
  | .clearWindowList => { message with windowList := none }
  | .addUnknownFields fields => { message with unknown := message.unknown ++ fields }
  | .byteSizeLong => message

theorem status_clear (status : Status) (_ : True) : status.clear.toMessage = .empty ∧ True :=
  ⟨status.toMessage_clear, trivial⟩

theorem windowList_clear (list : WindowList) (h : list.Clean) :
    list.clear.toMessage = .empty ∧ list.clear.Clean :=
  ⟨list.toMessage_clear, list.clean_clear h⟩

theorem clear_clean {response : ServerResponse} (h : response.Clean) :
    response.clear.toMessage = .empty ∧ response.clear.Clean := by
  refine ⟨?_, Slot.clean_clear status_clear h.status, Slot.clean_clear windowList_clear h.windowList⟩
  simp [ServerResponse.clear, ServerResponse.toMessage, Slot.get_clear, Extended.ServerResponse.empty]

theorem editStatus_clean {response : ServerResponse} (h : response.Clean) (edit : Status → Status)
    (change : Extended.Status → Extended.Status)
    (hedit : ∀ status, (edit status).toMessage = change status.toMessage) :
    (response.editStatus edit).toMessage = editStatus response.toMessage change ∧
      (response.editStatus edit).Clean := by
  obtain ⟨hstatus, -⟩ := Slot.mutable_clean h.status (rfl : Status.toMessage .new = .empty) trivial
  refine ⟨?_, trivial, h.windowList⟩
  rw [editStatus, ServerResponse.toMessage, ServerResponse.editStatus, ServerResponse.toMessage,
    ← hstatus, ← hedit]
  rfl

theorem editWindowList_clean {response : ServerResponse} (h : response.Clean)
    (edit : WindowList → WindowList) (change : Extended.WindowList → Extended.WindowList)
    (hedit : ∀ list : WindowList, list.Clean →
      (edit list).toMessage = change list.toMessage ∧ (edit list).Clean) :
    (response.editWindowList edit).toMessage = editWindowList response.toMessage change ∧
      (response.editWindowList edit).Clean := by
  obtain ⟨hlist, hclean⟩ :=
    Slot.mutable_clean h.windowList (rfl : WindowList.toMessage .new = .empty) WindowList.clean_new
  obtain ⟨hmessage, hclean⟩ := hedit _ hclean
  refine ⟨?_, h.status, hclean⟩
  rw [editWindowList, ServerResponse.toMessage, ServerResponse.editWindowList,
    ServerResponse.toMessage, ← hlist, ← hmessage]
  rfl

theorem byteSizeLong_clean {runtime : Runtime} (hruntime : runtime.Lawful) {response : ServerResponse}
    (h : response.Clean) :
    (response.byteSizeLong runtime).2.toMessage = response.toMessage ∧
      (response.byteSizeLong runtime).2.Clean := by
  refine ⟨(response.measures hruntime).message, ?_⟩
  obtain ⟨status, windowList, metadata, cachedSize⟩ := response
  obtain ⟨hstatus, hlist⟩ := h
  constructor
  · cases status with
    | null | present status => exact trivial
    | retained status => exact hstatus
  · cases windowList with
    | null => exact trivial
    | retained list | present list => exact hlist

section Steps

variable {runtime : Runtime} (hruntime : runtime.Lawful) {base : RepeatedPtrFieldBase}
  (hbase : base.Lawful)
include hbase

theorem mergeFrom_clean {this : ServerResponse} (h : this.Clean) (other : ServerResponse) :
    (this.mergeFrom base other).toMessage = this.toMessage.merge other.toMessage ∧
      (this.mergeFrom base other).Clean := by
  obtain ⟨hstatus, hstatus'⟩ := Slot.mergeFrom_clean
    (fun status status' _ ↦ ⟨Status.toMessage_mergeFrom status status', trivial⟩) h.status
    (rfl : Status.toMessage .new = .empty) trivial other.status
  obtain ⟨hlist, hlist'⟩ := Slot.mergeFrom_clean
    (fun list list' hclean ↦ WindowList.mergeFrom_clean hbase hclean list') h.windowList
    (rfl : WindowList.toMessage .new = .empty) WindowList.clean_new other.windowList
  refine ⟨?_, hstatus', hlist'⟩
  simp only [ServerResponse.mergeFrom, ServerResponse.toMessage, hstatus, hlist,
    InternalMetadata.unknownFields_mergeFrom, Extended.ServerResponse.merge]

theorem copyFrom_clean {this : ServerResponse} (h : this.Clean) (other : ServerResponse) :
    (this.copyFrom base other).toMessage = other.toMessage ∧ (this.copyFrom base other).Clean := by
  obtain ⟨hempty, hclear⟩ := clear_clean h
  obtain ⟨hmessage, hclean⟩ := mergeFrom_clean hbase hclear other
  rw [hempty, Extended.ServerResponse.empty_merge] at hmessage
  exact ⟨hmessage, hclean⟩

include hruntime

/-- One operation: the object follows the message, and nothing is left where none can be seen. -/
theorem perform_refines {response : ServerResponse} (h : response.Clean) (operation : Operation) :
    (operation.perform runtime base response).toMessage = operation.apply response.toMessage ∧
      (operation.perform runtime base response).Clean := by
  cases operation with
  | clear => exact clear_clean h
  | mergeFrom other => exact mergeFrom_clean hbase h other
  | copyFrom other => exact copyFrom_clean hbase h other
  | mutableStatus => exact editStatus_clean h _ _ fun _ ↦ rfl
  | setSuccess success =>
    rw [Operation.perform, Operation.apply]
    exact editStatus_clean h _ _ fun _ ↦ rfl
  | setMessage message =>
    rw [Operation.perform, Operation.apply]
    exact editStatus_clean h _ _ fun _ ↦ rfl
  | clearStatus =>
    refine ⟨?_, Slot.clean_clearField status_clear h.status, h.windowList⟩
    simp only [Operation.perform, Operation.apply, ServerResponse.toMessage, Slot.get_clearField,
      Option.map_none]
  | mutableWindowList =>
    exact editWindowList_clean h _ _ fun _ hclean ↦ ⟨rfl, hclean⟩
  | addWindow handle title className =>
    rw [Operation.perform, Operation.apply]
    exact editWindowList_clean h _ _ fun _ hclean ↦
      WindowList.addWindow_clean hbase hclean handle title className
  | clearWindows =>
    rw [Operation.perform, Operation.apply]
    exact editWindowList_clean h _ _ fun _ hclean ↦
      ⟨rfl, RepeatedPtrField.clean_clear WindowInfo.toMessage_clear hclean⟩
  | clearWindowList =>
    refine ⟨?_, h.status, Slot.clean_clearField windowList_clear h.windowList⟩
    simp only [Operation.perform, Operation.apply, ServerResponse.toMessage, Slot.get_clearField,
      Option.map_none]
  | addUnknownFields fields => exact ⟨rfl, h.status, h.windowList⟩
  | byteSizeLong => exact byteSizeLong_clean hruntime h

theorem foldl_refines {response : ServerResponse} (h : response.Clean) (operations : List Operation) :
    (operations.foldl (Operation.perform runtime base) response).toMessage =
        operations.foldl Operation.apply response.toMessage ∧
      (operations.foldl (Operation.perform runtime base) response).Clean := by
  induction operations generalizing response with
  | nil => exact ⟨rfl, h⟩
  | cons operation operations ih =>
    obtain ⟨hmessage, hclean⟩ := perform_refines hruntime hbase h operation
    rw [List.foldl_cons, List.foldl_cons, ← hmessage]
    exact ih hclean

end Steps

/-- The object after some operations on a new one. -/
def performAll (runtime : Runtime) (base : RepeatedPtrFieldBase) (operations : List Operation) :
    ServerResponse :=
  operations.foldl (Operation.perform runtime base) .new

/-- The message after the same operations. -/
def applyAll (operations : List Operation) : Extended.ServerResponse :=
  operations.foldl Operation.apply .empty

theorem clean_new : ServerResponse.new.Clean := ⟨trivial, trivial⟩

theorem toMessage_performAll {runtime : Runtime} (hruntime : runtime.Lawful)
    {base : RepeatedPtrFieldBase} (hbase : base.Lawful) (operations : List Operation) :
    (performAll runtime base operations).toMessage = applyAll operations :=
  (foldl_refines hruntime hbase clean_new operations).1

/-- What follows an operation that forgets the state before it. -/
theorem applyAll_forget {operation operation' : Operation}
    (h : ∀ message, operation.apply message = operation'.apply .empty)
    (before after : List Operation) :
    applyAll (before ++ operation :: after) = applyAll (operation' :: after) := by
  rw [applyAll, List.foldl_append, List.foldl_cons, h]
  rfl

/-- After every sequence of operations on a response object, the object stands for the message that
the sequence makes; nothing from before a `Clear` or a `CopyFrom` comes back; and
`SerializeToString` writes the encoding of the message. -/
theorem operations_refine (runtime : Runtime) (hruntime : runtime.Lawful)
    (base : RepeatedPtrFieldBase) (hbase : base.Lawful) (operations : List Operation) :
    (performAll runtime base operations).toMessage = applyAll operations ∧
    (∀ after, (performAll runtime base (operations ++ .clear :: after)).toMessage =
      (performAll runtime base after).toMessage) ∧
    (∀ other after, (performAll runtime base (operations ++ .copyFrom other :: after)).toMessage =
      (performAll runtime base (.mergeFrom other :: after)).toMessage) ∧
    ((performAll runtime base operations).serializeToString runtime).1 =
      Extended.serialize (applyAll operations).encode := by
  have hall := toMessage_performAll hruntime hbase
  refine ⟨hall operations, fun after ↦ ?_, fun other after ↦ ?_, ?_⟩
  · have hforget : applyAll (operations ++ .clear :: after) = applyAll (.clear :: after) :=
      applyAll_forget (fun _ ↦ rfl) operations after
    rw [hall, hall, hforget]
    rfl
  · rw [hall, hall]
    refine applyAll_forget (fun message ↦ ?_) operations after
    exact (Extended.ServerResponse.empty_merge other.toMessage).symm
  · rw [← hall]
    exact (ServerResponse.serializeToString_eq hruntime _).1

/-- The compiled parts, as documented. -/
def listBase : RepeatedPtrFieldBase where
  addOutOfLineHelper new field := (field.cleared.headD new, field.cleared.tail)
  mergeFromConcreteMessage merge copy this other :=
    ⟨this.elements ++ List.zipWith merge this.cleared other.elements ++
        (other.elements.drop this.cleared.length).map copy,
      this.cleared.drop other.elements.length⟩

theorem lawful_listBase : listBase.Lawful := ⟨fun _ _ _ ↦ rfl, fun _ _ _ _ _ ↦ rfl⟩

/-- An entry that is used again after a `Clear`: its old title is gone. -/
theorem operations_refine_reused :
    ((performAll crowded listBase [.addWindow (some 7) (some [79, 75]) none, .byteSizeLong, .clear,
      .addWindow (some 8) none none]).serializeToString crowded).1 = some [18, 4, 10, 2, 8, 8] := by
  have hencode : Extended.serialize (applyAll [.addWindow (some 7) (some [79, 75]) none,
      .byteSizeLong, .clear, .addWindow (some 8) none none]).encode =
        some [18, 4, 10, 2, 8, 8] := by decide
  exact (operations_refine crowded lawful_crowded listBase lawful_listBase _).2.2.2.trans hencode

end WindowCaster.Protocol.Objects
