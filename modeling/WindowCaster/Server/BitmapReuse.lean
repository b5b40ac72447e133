import Mathlib.Logic.Function.Basic
import WindowCaster.Foundation.Coupling
import WindowCaster.Server.PixelReads
import WindowCaster.Server.RendererCalls

/-!
# The cached bitmap

`CreateCompatibleBitmap` keeps the bitmap of the last frame if the size is the same. What it keeps
is compared with what the calls have done to the device contexts and bitmaps, and a frame drawn
with it with a frame drawn by a renderer that makes a new bitmap every time. The two agree as long
as the last call of `SelectObject`, whose result nobody looks at, has not failed.
-/

namespace WindowCaster.Server.BitmapReuse

open Foundation.Interaction Foundation.Coupling Foundation.Monitoring Foundation.Text
open Foundation.Transition Win32 Rendering PixelReads RendererCalls

/-! ## Device contexts and bitmaps -/

/-- What a bitmap was made from. -/
structure Creation where
  dc : Hdc
  width : Int32
  height : Int32
  deriving DecidableEq

/-- The bitmaps, the bitmap selected into each device context, and for a bitmap that is filled with
one picture this picture. -/
structure World where
  created : Hbitmap → Option Creation
  selected : Hdc → Option Hbitmap
  content : Hbitmap → Option PixelRead

namespace World

def start : World := ⟨fun _ ↦ none, fun _ ↦ none, fun _ ↦ none⟩

/-- The bitmap has the size of the picture, and `SetDIBits` has set all its lines. -/
def fills (world : World) (bitmap : Hbitmap) (read : PixelRead) (copied : UInt32) : Bool :=
  copied = read.lines && (world.created bitmap).any fun creation ↦
    creation.width = read.header.biWidth && creation.height = -read.header.biHeight &&
      creation.height.toInt = (read.lines.toNat : ℤ)

/-- What a call does. A context that is acquired has no bitmaps made from it yet, and a memory
context starts without one of the program's bitmaps; a selection that fails selects nothing. -/
def after (world : World) : Event Os → World
  | ⟨.getDC _, dc⟩ =>
    { world with created := fun bitmap ↦ (world.created bitmap).filter fun creation ↦ creation.dc ≠ dc }
  | ⟨.createCompatibleDC _, dc⟩ => { world with selected := Function.update world.selected dc none }
  | ⟨.deleteDC dc, deleted⟩ =>
    if deleted then { world with selected := Function.update world.selected dc none } else world
  | ⟨.createCompatibleBitmap dc width height, bitmap⟩ =>
    if bitmap = nullptr then world
    else { world with
      created := Function.update world.created bitmap (some ⟨dc, width, height⟩),
      content := Function.update world.content bitmap none }
  | ⟨.deleteObject bitmap, deleted⟩ =>
    if deleted then { world with created := Function.update world.created bitmap none } else world
  | ⟨.selectObject dc bitmap, previous⟩ =>
    if previous = nullptr then world
    else { world with selected := Function.update world.selected dc (some bitmap) }
  | ⟨.setDIBits _ bitmap start lines bits header, copied⟩ =>
    { world with
      content := Function.update world.content bitmap
        (if start = 0 ∧ world.fills bitmap ⟨lines, bits, header⟩ copied then some ⟨lines, bits, header⟩
          else none) }
  | _ => world

def afterAll (world : World) (trace : List (Event Os)) : World := trace.foldl after world

@[simp]
theorem afterAll_nil (world : World) : world.afterAll [] = world := rfl

@[simp]
theorem afterAll_cons (world : World) (event : Event Os) (trace : List (Event Os)) :
    world.afterAll (event :: trace) = (world.after event).afterAll trace := rfl

@[simp]
theorem afterAll_append (world : World) (first second : List (Event Os)) :
    world.afterAll (first ++ second) = (world.afterAll first).afterAll second :=
  List.foldl_append

/-- The calls that leave bitmaps and selections alone. -/
def Neutral (event : Event Os) : Prop :=
  match event.call with
  | .getDC _ | .createCompatibleDC _ | .deleteDC _ | .createCompatibleBitmap _ _ _ | .deleteObject _
  | .selectObject _ _ => False
  | _ => True

theorem after_of_neutral {event : Event Os} (h : Neutral event) (world : World) :
    (world.after event).created = world.created ∧ (world.after event).selected = world.selected := by
  obtain ⟨call, answer⟩ := event
  cases call <;> first | exact h.elim | exact ⟨rfl, rfl⟩

theorem afterAll_of_neutral {trace : List (Event Os)} (h : ∀ event ∈ trace, Neutral event)
    (world : World) : (world.afterAll trace).created = world.created ∧
      (world.afterAll trace).selected = world.selected := by
  induction trace generalizing world with
  | nil => exact ⟨rfl, rfl⟩
  | cons event trace ih =>
    obtain ⟨hevent, htrace⟩ := List.forall_mem_cons.1 h
    obtain ⟨hcreated, hselected⟩ := ih htrace (world.after event)
    obtain ⟨hcreated', hselected'⟩ := after_of_neutral hevent world
    exact ⟨hcreated.trans hcreated', hselected.trans hselected'⟩

end World

/-- Whether the latest selection has succeeded. -/
def selection : Bool → Event Os → Bool
  | _, ⟨.selectObject _ _, previous⟩ => previous ≠ nullptr
  | selected, _ => selected

/-- Whether the last selection of a run has succeeded, if there was one. -/
def selectsLast (trace : List (Event Os)) : Bool := trace.foldl selection true

theorem foldl_selection_of_neutral {trace : List (Event Os)} (h : ∀ event ∈ trace, World.Neutral event)
    (selected : Bool) : trace.foldl selection selected = selected := by
  induction trace with
  | nil => rfl
  | cons event trace ih =>
    obtain ⟨hevent, htrace⟩ := List.forall_mem_cons.1 h
    have hsame : selection selected event = selected := by
      obtain ⟨call, answer⟩ := event
      cases call <;> first | exact hevent.elim | rfl
    rw [List.foldl_cons, hsame, ih htrace]

/-- The world and the latest selection as a monitor, which forbids nothing. -/
def watch : Monitor Os (World × Bool) := fun (world, selected) event ↦
  some (world.after event, selection selected event)

@[simp]
theorem follow_watch (world : World) (selected : Bool) (trace : List (Event Os)) :
    watch.follow (world, selected) trace =
      some (world.afterAll trace, trace.foldl selection selected) := by
  induction trace generalizing world selected with
  | nil => rfl
  | cons event trace ih => exact ih (world.after event) (selection selected event)

/-! ## The bitmap of the renderer -/

/-- If the renderer holds a bitmap, it was made from its window's context with the remembered size,
and it is selected into its memory context. -/
def Cached (world : World) (renderer : Renderer) : Prop :=
  renderer.bitmap ≠ nullptr →
    world.created renderer.bitmap = some ⟨renderer.windowDC, toLong renderer.currentWidth,
      toLong renderer.currentHeight⟩ ∧ world.selected renderer.memoryDC = some renderer.bitmap

/-- The bitmap is in order if the latest selection has succeeded. -/
def CachedIn (watched : World × Bool) (renderer : Renderer) : Prop :=
  watched.2 = true → Cached watched.1 renderer

theorem cachedIn_of_null {renderer : Renderer} (h : renderer.bitmap = nullptr)
    (watched : World × Bool) : CachedIn watched renderer := fun _ hne ↦ absurd h hne

theorem CachedIn.of_neutral {world : World} {selected : Bool} {renderer : Renderer}
    (h : CachedIn (world, selected) renderer) {trace : List (Event Os)}
    (hneutral : ∀ event ∈ trace, World.Neutral event) :
    CachedIn (world.afterAll trace, trace.foldl selection selected) renderer := by
  obtain ⟨hcreated, hselected⟩ := World.afterAll_of_neutral hneutral world
  rw [foldl_selection_of_neutral hneutral, CachedIn, Cached, hcreated, hselected]
  exact h

/-- What is known about all runs of a program holds after it, whatever it has done to the world. -/
theorem obeys_watch {α : Type} {program : Program Os α} {world : World} {selected : Bool}
    {post : World × Bool → α → Prop}
    (h : program.Ensures fun trace result ↦
      post (world.afterAll trace, trace.foldl selection selected) result) :
    program.Obeys (fun _ ↦ True) watch (world, selected) post := by
  intro trace result hruns _
  exact ⟨_, follow_watch world selected trace, h trace result hruns⟩

/-- `Initialize` leaves the renderer alone or without a bitmap. -/
theorem ensures_initializeFor (renderer : Renderer) (hwnd : Hwnd) :
    (renderer.initializeFor hwnd).Ensures fun trace result ↦
      result.2.bitmap = nullptr ∨
        result.2 = renderer ∧ ∀ event ∈ trace, World.Neutral event := by
  simp only [Renderer.initializeFor, Program.ensures_ite, Program.ensures_bind, ensures_os,
    Program.ensures_pure]
  refine ⟨by simp, fun _ known ↦ ⟨fun _ ↦ .inr (by simp [World.Neutral]), fun _ ↦ ?_⟩⟩
  refine (Renderer.ensures_cleanup renderer).mono fun _ cleaned hbitmap windowDC ↦ ?_
  refine ⟨fun _ ↦ .inl hbitmap, fun _ memoryDC ↦ ⟨fun _ _ ↦ .inl hbitmap, fun _ ↦ ?_⟩⟩
  exact fun _ _ _ ↦ .inl hbitmap

theorem keeps_clear (renderer : Renderer) : renderer.clear.Keeps World.Neutral := by
  refine (Renderer.keeps_clear renderer).mono fun event h ↦ ?_
  obtain ⟨call, answer⟩ := event
  cases call <;> simp_all [Renderer.Clearing, World.Neutral]

/-- `RenderImageFrame` after the bitmap has been seen to. -/
def drawBitmap (imageData : Bytes) (width height : UInt64) :
    Bool × Renderer → Program Os (Bool × Renderer)
  | (created, renderer) => do
    if !created then return (false, renderer)
    let copied : UInt32 ← os (.setDIBits renderer.windowDC renderer.bitmap 0 height.toUInt32
      imageData (Renderer.bmiHeader width height))
    if copied = 0 then return (false, renderer)
    let (_, rect) : Bool × Rect ← os (.getClientRect renderer.targetWindow)
    let windowWidth := rect.right - rect.left
    let windowHeight := rect.bottom - rect.top
    let _ : Bool ← os (.setStretchBltModeHalftone renderer.windowDC)
    let _ : Bool ← os (.setBrushOrgEx renderer.windowDC 0 0)
    let success : Bool ← os (.stretchBlt renderer.windowDC 0 0 windowWidth windowHeight
      renderer.memoryDC 0 0 (toLong width) (toLong height))
    return (success, renderer)

theorem renderImageFrame_eq (renderer : Renderer) (imageData : Bytes) (width height : UInt64) :
    renderer.renderImageFrame imageData width height =
      if renderer.windowDC = nullptr ∨ renderer.memoryDC = nullptr ∨
          renderer.targetWindow = nullptr then pure (false, renderer)
      else renderer.createCompatibleBitmap width height >>= drawBitmap imageData width height := rfl

theorem ensures_drawBitmap (imageData : Bytes) (width height : UInt64) (created : Bool)
    (renderer : Renderer) : (drawBitmap imageData width height (created, renderer)).Ensures
      fun trace result ↦ result.2 = renderer ∧ ∀ event ∈ trace, World.Neutral event := by
  simp only [drawBitmap, Program.ensures_ite, Program.ensures_bind, ensures_os, Program.ensures_pure]
  simp [-Bool.forall_bool, World.Neutral]

theorem ensures_deleteBitmap (renderer : Renderer) : renderer.deleteBitmap.Ensures fun _ left ↦
    left = { renderer with bitmap := nullptr } := by
  unfold Renderer.deleteBitmap
  split
  · next hnull => exact Program.ensures_pure.2 (by rw [← hnull])
  · exact Program.ensures_bind.2 (ensures_os.2 fun _ ↦ Program.ensures_pure.2 rfl)

theorem obeys_createCompatibleBitmap {watched : World × Bool} {renderer : Renderer}
    (h : CachedIn watched renderer) (width height : UInt64) :
    (renderer.createCompatibleBitmap width height).Obeys (fun _ ↦ True) watch watched
      fun last result ↦ CachedIn last result.2 := by
  unfold Renderer.createCompatibleBitmap
  split
  · exact Program.obeys_pure h
  split
  · exact Program.obeys_pure h
  have hdelete : renderer.deleteBitmap.Obeys (fun _ ↦ True) watch watched fun _ left ↦
      left = { renderer with bitmap := nullptr } := obeys_watch (ensures_deleteBitmap renderer)
  refine hdelete.bind ?_
  rintro ⟨world, selected⟩ _ rfl
  refine obeys_os_bind fun bitmap _ ↦ ⟨_, rfl, ?_⟩
  split
  · exact Program.obeys_pure (cachedIn_of_null (by assumption) _)
  next hbitmap =>
  refine obeys_os_bind fun previous _ ↦ ⟨_, rfl, ?_⟩
  refine Program.obeys_pure fun hselected _ ↦ ?_
  have hprevious : previous ≠ nullptr := of_decide_eq_true hselected
  simp [World.after, hbitmap, hprevious]

theorem obeys_renderImageFrame {watched : World × Bool} {renderer : Renderer}
    (h : CachedIn watched renderer) (imageData : Bytes) (width height : UInt64) :
    (renderer.renderImageFrame imageData width height).Obeys (fun _ ↦ True) watch watched
      fun last result ↦ CachedIn last result.2 := by
  rw [renderImageFrame_eq]
  split
  · exact Program.obeys_pure h
  refine (obeys_createCompatibleBitmap h width height).bind ?_
  rintro next ⟨created, renderer⟩ hcached
  refine obeys_watch ((ensures_drawBitmap imageData width height created renderer).mono ?_)
  rintro trace ⟨success, _⟩ ⟨rfl, hneutral⟩
  exact CachedIn.of_neutral hcached hneutral

/-- Every operation of the renderer keeps its bitmap in order. -/
theorem obeys_perform {watched : World × Bool} {renderer : Renderer} (h : CachedIn watched renderer)
    (operation : Operation) : (operation.perform renderer).Obeys (fun _ ↦ True) watch watched
      fun last result ↦ CachedIn last result.2 := by
  cases operation with
  | initializeFor targetWindow =>
    refine Program.Obeys.bind (obeys_watch ((ensures_initializeFor renderer targetWindow).mono
      fun trace result hresult ↦ ?_)) fun _ _ hcached ↦ Program.obeys_pure hcached
    obtain hnull | ⟨hsame, hneutral⟩ := hresult
    · exact cachedIn_of_null hnull _
    · rw [hsame]
      exact h.of_neutral hneutral
  | renderImageFrame imageData width height | renderVideoFrame imageData width height =>
    exact (obeys_renderImageFrame h imageData width height).bind fun _ _ hcached ↦
      Program.obeys_pure hcached
  | clear =>
    refine Program.Obeys.bind (obeys_watch (Program.Ensures.mono (keeps_clear renderer)
      fun trace _ hneutral ↦ ?_)) fun _ _ hcached ↦ Program.obeys_pure hcached
    exact h.of_neutral hneutral

/-- The world after a history of calls. -/
def World.of (history : List Performed) : World := World.start.afterAll (calls history)

/-- In every run whose last selection has not failed, the bitmap is in order. -/
theorem cached_run {history : List Performed} {renderer : Renderer}
    (hrun : machine.Run history renderer) (hselects : selectsLast (calls history) = true) :
    Cached (World.of history) renderer := by
  obtain ⟨watched, hwatched, hcached⟩ := follow_calls CachedIn (cachedIn_of_null rfl (World.start, true))
    (fun _ _ operation hcached ↦ obeys_perform hcached operation) hrun fun _ _ ↦ trivial
  rw [follow_watch] at hwatched
  obtain rfl := Option.some.inj hwatched
  exact hcached hselects

/-! ## A renderer that makes a new bitmap for every frame -/

/-- `CreateCompatibleBitmap` as it would be without the early return. -/
def recreateBitmap (renderer : Renderer) (width height : UInt64) : Program Os (Bool × Renderer) := do
  if renderer.windowDC = nullptr ∨ renderer.memoryDC = nullptr then return (false, renderer)
  let renderer ← renderer.deleteBitmap
  let bitmap : Hbitmap ←
    os (.createCompatibleBitmap renderer.windowDC (toLong width) (toLong height))
  if bitmap = nullptr then return (false, { renderer with bitmap })
  let _ : UInt64 ← os (.selectObject renderer.memoryDC bitmap)
  return (true, { renderer with bitmap, currentWidth := width, currentHeight := height })

def renderRecreating (renderer : Renderer) (imageData : Bytes) (width height : UInt64) :
    Program Os (Bool × Renderer) :=
  if renderer.windowDC = nullptr ∨ renderer.memoryDC = nullptr ∨ renderer.targetWindow = nullptr then
    pure (false, renderer)
  else recreateBitmap renderer width height >>= drawBitmap imageData width height

/-- The bitmap is made and selected. -/
def Granted : Event Os → Prop
  | ⟨.createCompatibleBitmap _ _ _, bitmap⟩ => bitmap ≠ nullptr
  | ⟨.selectObject _ _, previous⟩ => previous ≠ nullptr
  | _ => True

/-- The calls that see to the bitmap. -/
def preparing : Call → Bool
  | .createCompatibleBitmap _ _ _ | .selectObject _ _ | .deleteObject _ => true
  | _ => false

def withoutBitmap : Call → Call
  | .setDIBits dc _ start lines bits header => .setDIBits dc nullptr start lines bits header
  | call => call

/-- Frames are compared without the calls that see to the bitmap, up to its identity. -/
def byBitmap : Matching Os Unit where
  silent := preparing
  sameCall _ call call' := withoutBitmap call = withoutBitmap call'
  sameAnswer event event' := HEq event.answer event'.answer
  extend _ _ _ := ()

def SetsAllLines : Event Os → Prop
  | ⟨.setDIBits _ _ _ lines _ _, copied⟩ => copied = lines
  | _ => True

/-- What a call of `StretchBlt` is given: the two rectangles, each with its context, and the
picture in the source. -/
structure Stretch where
  dcDest : Hdc
  destination : Int32 × Int32 × Int32 × Int32
  dcSrc : Hdc
  source : Int32 × Int32 × Int32 × Int32
  picture : Option PixelRead
  deriving DecidableEq

namespace World

def stretch (world : World) : Event Os → Option Stretch
  | ⟨.stretchBlt dcDest xDest yDest widthDest heightDest dcSrc xSrc ySrc widthSrc heightSrc, _⟩ =>
    some ⟨dcDest, (xDest, yDest, widthDest, heightDest), dcSrc, (xSrc, ySrc, widthSrc, heightSrc),
      (world.selected dcSrc).bind world.content⟩
  | _ => none

/-- The calls of `StretchBlt`, each in the world that it finds. -/
def stretches : World → List (Event Os) → List Stretch
  | _, [] => []
  | world, event :: trace => (world.stretch event).toList ++ stretches (world.after event) trace

theorem stretches_append (world : World) (first second : List (Event Os)) :
    world.stretches (first ++ second) =
      world.stretches first ++ (world.afterAll first).stretches second := by
  induction first generalizing world with
  | nil => rfl
  | cons event first ih => simp [stretches, ih]

theorem stretches_of_preparing {trace : List (Event Os)}
    (h : ∀ event ∈ trace, preparing event.call) (world : World) : world.stretches trace = [] := by
  induction trace generalizing world with
  | nil => rfl
  | cons event trace ih =>
    obtain ⟨hevent, htrace⟩ := List.forall_mem_cons.1 h
    have hnone : world.stretch event = none := by
      obtain ⟨call, answer⟩ := event
      cases call <;> first | rfl | exact absurd hevent Bool.false_ne_true
    rw [stretches, hnone, ih htrace, Option.toList_none, List.nil_append]

end World

/-- The renderer's bitmap was made from its window's context with this size, and it is the one
selected into its memory context. -/
def Holds (world : World) (renderer : Renderer) (width height : UInt64) : Prop :=
  world.created renderer.bitmap = some ⟨renderer.windowDC, toLong width, toLong height⟩ ∧
    world.selected renderer.memoryDC = some renderer.bitmap

theorem toInt_toLong_of_lt {value : UInt64} (h : value.toNat < 2 ^ 31) :
    (toLong value).toInt = (value.toUInt32.toNat : ℤ) := by
  rw [(toInt_toLong_eq (by omega)).2 h, UInt64.toNat_toUInt32, Nat.mod_eq_of_lt (by omega)]

/-- All lines of a picture of the bitmap's size fill the bitmap. -/
theorem fills_of_holds {world : World} {renderer : Renderer} {width height : UInt64}
    (h : Holds world renderer width height) (hheight : height.toNat < 2 ^ 31) (imageData : Bytes) :
    world.fills renderer.bitmap
      ⟨height.toUInt32, imageData, Renderer.bmiHeader width height⟩ height.toUInt32 = true := by
  simp [World.fills, h.1, Renderer.bmiHeader, toInt_toLong_of_lt hheight]

/-- Two frames with different bitmaps and the same answers. -/
theorem alike_drawBitmap {world world' : World} {renderer : Renderer} {bitmap : Hbitmap}
    {width height : UInt64} (h : Holds world renderer width height)
    (h' : Holds world' { renderer with bitmap, currentWidth := width, currentHeight := height }
      width height)
    (hheight : height.toNat < 2 ^ 31) (imageData : Bytes) :
    (drawBitmap imageData width height (true, renderer)).Ensures fun trace result ↦
      (drawBitmap imageData width height
        (true, { renderer with bitmap, currentWidth := width, currentHeight := height })).Ensures
        fun trace' result' ↦
          byBitmap.Alike () (byBitmap.visible trace) (byBitmap.visible trace') →
            result.1 = result'.1 ∧ ((∀ event ∈ trace, SetsAllLines event) →
              (world.afterAll trace).content renderer.bitmap = (world'.afterAll trace').content bitmap ∧
                world.stretches trace = world'.stretches trace') := by
  have hfills := fills_of_holds h hheight imageData
  have hfills' := fills_of_holds h' hheight imageData
  have hselected := h.2
  have hselected' := h'.2
  simp only [drawBitmap, Program.ensures_ite, Program.ensures_bind, ensures_os, Program.ensures_pure,
    Bool.not_true, Bool.false_eq_true, if_false]
  refine fun copied ↦ ⟨fun hnone copied' ↦ ⟨fun hnone' _ ↦ ⟨trivial, fun hlines ↦ ?_⟩,
    fun hsome' answer' mode' origin' success' halike ↦ ?_⟩, fun hsome answer mode origin success copied' ↦
      ⟨fun hnone' halike ↦ ?_, fun hsome' answer' mode' origin' success' halike ↦ ?_⟩⟩
  · have hall : copied = height.toUInt32 := hlines ⟨.setDIBits renderer.windowDC renderer.bitmap 0
      height.toUInt32 imageData (Renderer.bmiHeader width height), copied⟩ (by simp)
    have hall' : copied' = height.toUInt32 := by rw [hnone', ← hnone, hall]
    simp [World.after, hall, hall', hfills, hfills', World.stretches, World.stretch]
  · have hcopied : copied = copied' := eq_of_heq (halike rfl).1
    exact absurd (hcopied ▸ hnone) hsome'
  · have hcopied : copied = copied' := eq_of_heq (halike rfl).1
    exact absurd (hcopied ▸ hnone') hsome
  · have hcopied : copied = copied' := eq_of_heq (halike rfl).1
    have hrest := (halike rfl).2
    have hanswer : answer = answer' := eq_of_heq (hrest rfl).1
    obtain rfl := hcopied
    obtain rfl := hanswer
    have hlast := (((hrest rfl).2 rfl).2 rfl).2 rfl
    have hsuccess : success = success' := eq_of_heq hlast.1
    refine ⟨hsuccess, fun hlines ↦ ?_⟩
    have hall : copied = height.toUInt32 := hlines ⟨.setDIBits renderer.windowDC renderer.bitmap 0
      height.toUInt32 imageData (Renderer.bmiHeader width height), copied⟩ (by simp)
    simp [World.after, hall, hfills, hfills', hselected, hselected', World.stretches, World.stretch]

theorem prepares_deleteBitmap (renderer : Renderer) :
    renderer.deleteBitmap.Keeps fun event ↦ preparing event.call := by
  unfold Renderer.deleteBitmap
  split
  · exact Program.keeps_pure _
  · exact keeps_os_bind (fun _ ↦ rfl) fun _ ↦ Program.keeps_pure _

/-- A bitmap that is made and selected is held. -/
theorem ensures_recreateBitmap {renderer : Renderer} (hwindow : renderer.windowDC ≠ nullptr)
    (hmemory : renderer.memoryDC ≠ nullptr) (width height : UInt64) :
    (recreateBitmap renderer width height).Ensures fun trace result ↦
      (∀ event ∈ trace, Granted event) → (∀ event ∈ trace, preparing event.call) ∧
        ∃ bitmap, result =
            (true, { renderer with bitmap, currentWidth := width, currentHeight := height }) ∧
          ∀ world : World, Holds (world.afterAll trace) result.2 width height := by
  unfold recreateBitmap
  rw [if_neg (by simp [hwindow, hmemory])]
  refine Program.ensures_bind.2 (((prepares_deleteBitmap renderer).and
    (ensures_deleteBitmap renderer)).mono ?_)
  rintro deleting _ ⟨hdeleting, rfl⟩
  refine Program.ensures_bind.2 (ensures_os.2 fun bitmap ↦ Program.ensures_ite.2 ⟨?_, ?_⟩)
  · intro hnull
    refine Program.ensures_pure.2 fun hgranted ↦ ?_
    have hmade : bitmap ≠ nullptr := hgranted ⟨.createCompatibleBitmap renderer.windowDC
      (toLong width) (toLong height), bitmap⟩ (by simp)
    exact absurd hnull hmade
  · intro hmade
    refine Program.ensures_bind.2 (ensures_os.2 fun previous ↦ Program.ensures_pure.2 fun hgranted ↦ ?_)
    have hselected : previous ≠ nullptr :=
      hgranted ⟨.selectObject renderer.memoryDC bitmap, previous⟩ (by simp)
    refine ⟨?_, bitmap, rfl, fun world ↦ ?_⟩
    · simpa [preparing, or_imp, forall_and] using hdeleting
    · simp [Holds, World.after, hmade, hselected]

/-! ## The two renderers -/

/-- `CreateCompatibleBitmap` takes its early return. -/
def Reuses (renderer : Renderer) (width height : UInt64) : Prop :=
  renderer.windowDC ≠ nullptr ∧ renderer.memoryDC ≠ nullptr ∧ renderer.bitmap ≠ nullptr ∧
    width = renderer.currentWidth ∧ height = renderer.currentHeight

theorem createCompatibleBitmap_of_reuses {renderer : Renderer} {width height : UInt64}
    (h : Reuses renderer width height) :
    renderer.createCompatibleBitmap width height = pure (true, renderer) := by
  obtain ⟨hwindow, hmemory, hbitmap, hwidth, hheight⟩ := h
  unfold Renderer.createCompatibleBitmap
  rw [if_neg (by simp [hwindow, hmemory]), if_pos ⟨hbitmap, hwidth, hheight⟩]

/-- A frame with the bitmap that is there is like a frame with a new one. -/
def LikeRecreated (world : World) (renderer : Renderer) (width height : UInt64) : Prop :=
  ∀ imageData trace trace' result result',
    (renderer.renderImageFrame imageData width height).Runs trace result →
    (renderRecreating renderer imageData width height).Runs trace' result' →
    (∀ event ∈ trace', Granted event) →
    byBitmap.Alike () (byBitmap.visible trace) (byBitmap.visible trace') →
    result.1 = result'.1 ∧ ((∀ event ∈ trace, SetsAllLines event) →
      (world.afterAll trace).content result.2.bitmap =
          (world.afterAll trace').content result'.2.bitmap ∧
        world.stretches trace = world.stretches trace')

theorem likeRecreated_of_holds {world : World} {renderer : Renderer} {width height : UInt64}
    (hreuses : Reuses renderer width height) (h : Holds world renderer width height)
    (hheight : height.toNat < 2 ^ 31) : LikeRecreated world renderer width height := by
  intro imageData trace trace' result result' hruns hruns' hgranted halike
  rw [renderImageFrame_eq] at hruns
  rw [renderRecreating] at hruns'
  by_cases hready : renderer.windowDC = nullptr ∨ renderer.memoryDC = nullptr ∨
      renderer.targetWindow = nullptr
  · rw [if_pos hready] at hruns hruns'
    obtain ⟨rfl, rfl⟩ := hruns
    obtain ⟨rfl, rfl⟩ := hruns'
    exact ⟨rfl, fun _ ↦ ⟨rfl, rfl⟩⟩
  rw [if_neg hready, createCompatibleBitmap_of_reuses hreuses, pure_bind] at hruns
  rw [if_neg hready] at hruns'
  obtain ⟨preparation, drawing, made, rfl, hmaking, hdrawing⟩ := Program.runs_bind.1 hruns'
  rw [List.forall_mem_append] at hgranted
  obtain ⟨hpreparing, bitmap, rfl, hholds⟩ := ensures_recreateBitmap hreuses.1 hreuses.2.1 width
    height preparation made hmaking hgranted.1
  have hsilent : byBitmap.visible preparation = [] := Matching.visible_of_silent hpreparing
  rw [Matching.visible_append, hsilent, List.nil_append] at halike
  obtain ⟨hresult, hpicture⟩ := alike_drawBitmap h (hholds world) hheight imageData trace result hruns
    drawing result' hdrawing halike
  have hsame := (ensures_drawBitmap imageData width height true renderer trace result hruns).1
  have hsame' := (ensures_drawBitmap imageData width height true _ drawing result' hdrawing).1
  refine ⟨hresult, fun hlines ↦ ?_⟩
  rw [hsame, hsame', World.afterAll_append, World.stretches_append,
    World.stretches_of_preparing hpreparing, List.nil_append]
  exact hpicture hlines

/-- In every run whose last selection has not failed, whatever else has failed in it, a bitmap that is
reused was made from the current context with exactly the size of the frame, it is the one selected,
and a frame drawn with it is like a frame drawn with a new bitmap. -/
theorem reuse_equivalent (history : List Performed) (renderer : Renderer)
    (hrun : machine.Run history renderer) (hselects : selectsLast (calls history) = true)
    (width height : UInt64) (hwidth : width.toNat < 2 ^ 31) (hheight : height.toNat < 2 ^ 31)
    (hreuses : Reuses renderer width height) :
    (∃ creation, (World.of history).created renderer.bitmap = some creation ∧
      creation.dc = renderer.windowDC ∧ creation.width.toInt = (width.toNat : ℤ) ∧
        creation.height.toInt = (height.toNat : ℤ)) ∧
      (World.of history).selected renderer.memoryDC = some renderer.bitmap ∧
      LikeRecreated (World.of history) renderer width height := by
  have hreuses' := hreuses
  obtain ⟨-, -, hbitmap, rfl, rfl⟩ := hreuses'
  obtain ⟨hcreated, hselected⟩ := cached_run hrun hselects hbitmap
  refine ⟨⟨_, hcreated, rfl, ?_, ?_⟩, hselected,
    likeRecreated_of_holds hreuses ⟨hcreated, hselected⟩ hheight⟩
  · exact (toInt_toLong_eq (by omega)).2 hwidth
  · exact (toInt_toLong_eq (by omega)).2 hheight

/-! ## The second frame of one size -/

/-- The answers of a system that grants every request but, if told so, that of selecting. -/
def selecting (selects : Bool) : (call : Call) → call.Answer
  | .selectObject _ _ => if selects then 5 else nullptr
  | call => granting call

/-- The renderer after one frame on such a system. -/
def afterFrame (selects : Bool) : Renderer :=
  (served (selecting selects) (served (selecting selects) .new (.initializeFor 1)).2.2
    (.renderImageFrame [0, 0, 0, 0] 1 1)).2.2

def frameHistory (selects : Bool) : List Performed :=
  let first := served (selecting selects) .new (.initializeFor 1)
  let second := served (selecting selects) first.2.2 (.renderImageFrame [0, 0, 0, 0] 1 1)
  [⟨.initializeFor 1, first.1, first.2.1⟩,
    ⟨.renderImageFrame [0, 0, 0, 0] 1 1, second.1, second.2.1⟩]

theorem run_frameHistory (selects : Bool) :
    machine.Run (frameHistory selects) (afterFrame selects) := by
  have hfirst := (Machine.Run.start rfl).next (step_served (selecting selects) .new (.initializeFor 1))
  have hsecond := hfirst.next
    (step_served (selecting selects) _ (.renderImageFrame [0, 0, 0, 0] 1 1))
  exact hsecond

theorem afterFrame_eq (selects : Bool) : afterFrame selects = ⟨1, 2, 3, 4, 1, 1⟩ := by
  cases selects <;> rfl

theorem reuses_afterFrame (selects : Bool) : Reuses (afterFrame selects) 1 1 := by
  rw [afterFrame_eq]
  exact ⟨by decide, by decide, by decide, rfl, rfl⟩

/-- The selection for a first frame has failed, but not the one for a second frame of another size. -/
theorem reuse_equivalent_frame :
    ∃ history last renderer, machine.Run (history ++ [last]) renderer ∧
      selectsLast (calls history) = false ∧ Reuses renderer 1 2 ∧
      (World.of (history ++ [last])).selected renderer.memoryDC = some renderer.bitmap := by
  let second := served (selecting true) (afterFrame false)
    (.renderImageFrame [0, 0, 0, 0, 0, 0, 0, 0] 1 2)
  have hrun := (run_frameHistory false).next (step_served (selecting true) (afterFrame false)
    (.renderImageFrame [0, 0, 0, 0, 0, 0, 0, 0] 1 2))
  have hreuses : Reuses second.2.2 1 2 := ⟨by decide, by decide, by decide, rfl, rfl⟩
  exact ⟨_, _, _, hrun, rfl, hreuses,
    (reuse_equivalent _ _ hrun rfl 1 2 (by decide) (by decide) hreuses).2.1⟩

/-- If the selection for the first frame fails, the second one takes the early return although the
bitmap that it fills is not the one it then stretches over the window. -/
theorem not_reuse_equivalent :
    machine.Run (frameHistory false) (afterFrame false) ∧ Reuses (afterFrame false) 1 1 ∧
      (World.of (frameHistory false)).selected (afterFrame false).memoryDC ≠
        some (afterFrame false).bitmap := by
  refine ⟨run_frameHistory false, reuses_afterFrame false, ?_⟩
  rw [afterFrame_eq]
  have hnone : (World.of (frameHistory false)).selected 3 = none := by rfl
  simp [hnone]

end WindowCaster.Server.BitmapReuse
