import WindowCaster.Server.Win32

/-!
# `Renderer`

The renderer holds the device contexts and the bitmap of its current target window. `Initialize`
moves it to another window, `RenderImageFrame` copies the pixels of one frame into the bitmap and
stretches the bitmap over the window, `Clear` paints the window black.
-/

namespace WindowCaster.Server.Rendering

open Foundation.Interaction Foundation.Text Win32

/-- Without the GDI+ token, which only the constructor and the destructor use. -/
structure Renderer where
  targetWindow : Hwnd
  windowDC : Hdc
  memoryDC : Hdc
  bitmap : Hbitmap
  currentWidth : UInt64
  currentHeight : UInt64
  deriving DecidableEq

namespace Renderer

/-- The state after the constructor. -/
def new : Renderer := ⟨nullptr, nullptr, nullptr, nullptr, 0, 0⟩

def deleteBitmap (renderer : Renderer) : Program Os Renderer :=
  if renderer.bitmap = nullptr then pure renderer
  else do
    let _ : Bool ← os (.deleteObject renderer.bitmap)
    return { renderer with bitmap := nullptr }

def deleteMemoryDC (renderer : Renderer) : Program Os Renderer :=
  if renderer.memoryDC = nullptr then pure renderer
  else do
    let _ : Bool ← os (.deleteDC renderer.memoryDC)
    return { renderer with memoryDC := nullptr }

/-- A device context is given back only if its window is still known. -/
def releaseWindowDC (renderer : Renderer) : Program Os Renderer :=
  if renderer.windowDC = nullptr ∨ renderer.targetWindow = nullptr then pure renderer
  else do
    let _ : Bool ← os (.releaseDC renderer.targetWindow renderer.windowDC)
    return { renderer with windowDC := nullptr }

def cleanup (renderer : Renderer) : Program Os Renderer := do
  let renderer ← renderer.deleteBitmap
  let renderer ← renderer.deleteMemoryDC
  let renderer ← renderer.releaseWindowDC
  return { renderer with targetWindow := nullptr, currentWidth := 0, currentHeight := 0 }

def attachInput (currentThreadID targetThreadID : UInt32) (attach : Bool) : Program Os Unit :=
  if currentThreadID = targetThreadID then pure ()
  else do
    let _ : Bool ← os (.attachThreadInput currentThreadID targetThreadID attach)

def restoreIfIconic (targetWindow : Hwnd) : Program Os Unit := do
  let iconic : Bool ← os (.isIconic targetWindow)
  if iconic then
    let _ : Bool ← os (.showWindowRestore targetWindow)

/-- Bring the window to the front without keeping it there; none of the results is looked at. -/
def bringToFront (targetWindow : Hwnd) : Program Os Unit := do
  let currentThreadID : UInt32 ← os .getCurrentThreadId
  let targetThreadID : UInt32 ← os (.getWindowThreadProcessId targetWindow)
  attachInput currentThreadID targetThreadID true
  restoreIfIconic targetWindow
  let _ : Bool ← os (.setWindowPos targetWindow .topmost)
  let _ : Bool ← os (.setForegroundWindow targetWindow)
  let _ : Bool ← os (.setWindowPos targetWindow .notopmost)
  attachInput currentThreadID targetThreadID false

/-- `Initialize` -/
def initializeFor (renderer : Renderer) (targetWindow : Hwnd) : Program Os (Bool × Renderer) := do
  if targetWindow = nullptr then return (false, renderer)
  let known : Bool ← os (.isWindow targetWindow)
  if !known then return (false, renderer)
  let renderer ← renderer.cleanup
  let windowDC : Hdc ← os (.getDC targetWindow)
  if windowDC = nullptr then return (false, { renderer with targetWindow, windowDC })
  let memoryDC : Hdc ← os (.createCompatibleDC windowDC)
  if memoryDC = nullptr then
    let _ : Bool ← os (.releaseDC targetWindow windowDC)
    return (false, { renderer with targetWindow, memoryDC, windowDC := nullptr })
  bringToFront targetWindow
  return (true, { renderer with targetWindow, windowDC, memoryDC })

def createCompatibleBitmap (renderer : Renderer) (width height : UInt64) :
    Program Os (Bool × Renderer) := do
  if renderer.windowDC = nullptr ∨ renderer.memoryDC = nullptr then return (false, renderer)
  if renderer.bitmap ≠ nullptr ∧ width = renderer.currentWidth ∧ height = renderer.currentHeight then
    return (true, renderer)
  let renderer ← renderer.deleteBitmap
  let bitmap : Hbitmap ←
    os (.createCompatibleBitmap renderer.windowDC (toLong width) (toLong height))
  if bitmap = nullptr then return (false, { renderer with bitmap })
  let _ : UInt64 ← os (.selectObject renderer.memoryDC bitmap)
  return (true, { renderer with bitmap, currentWidth := width, currentHeight := height })

/-- The header for a picture of this size; the negative height stands for rows from the top down. -/
def bmiHeader (width height : UInt64) : BitmapInfoHeader where
  biSize := 40
  biWidth := toLong width
  biHeight := -toLong height
  biPlanes := 1
  biBitCount := 24
  biCompression := biRgb

def renderImageFrame (renderer : Renderer) (imageData : Bytes) (width height : UInt64) :
    Program Os (Bool × Renderer) := do
  if renderer.windowDC = nullptr ∨ renderer.memoryDC = nullptr ∨ renderer.targetWindow = nullptr then
    return (false, renderer)
  let (created, renderer) ← renderer.createCompatibleBitmap width height
  if !created then return (false, renderer)
  let copied : UInt32 ← os (.setDIBits renderer.windowDC renderer.bitmap 0 height.toUInt32
    imageData (bmiHeader width height))
  if copied = 0 then return (false, renderer)
  let (_, rect) : Bool × Rect ← os (.getClientRect renderer.targetWindow)
  let windowWidth := rect.right - rect.left
  let windowHeight := rect.bottom - rect.top
  let _ : Bool ← os (.setStretchBltModeHalftone renderer.windowDC)
  let _ : Bool ← os (.setBrushOrgEx renderer.windowDC 0 0)
  let success : Bool ← os (.stretchBlt renderer.windowDC 0 0 windowWidth windowHeight
    renderer.memoryDC 0 0 (toLong width) (toLong height))
  return (success, renderer)

def renderVideoFrame (renderer : Renderer) (frameData : Bytes) (width height : UInt64) :
    Program Os (Bool × Renderer) :=
  renderer.renderImageFrame frameData width height

def clear (renderer : Renderer) : Program Os Unit := do
  if renderer.windowDC ≠ nullptr ∧ renderer.targetWindow ≠ nullptr then
    let (_, rect) : Bool × Rect ← os (.getClientRect renderer.targetWindow)
    let brush : UInt64 ← os .getStockObjectBlackBrush
    let _ : Bool ← os (.fillRect renderer.windowDC rect brush)

/-! ## Housekeeping -/

/-- The calls that release handles. -/
def releasing : Call → Bool
  | .deleteObject _ | .deleteDC _ | .releaseDC _ _ => true
  | _ => false

/-- The calls that rearrange windows. -/
def Rearranging (event : Event Os) : Prop :=
  match event.call with
  | .getCurrentThreadId | .getWindowThreadProcessId _ | .attachThreadInput _ _ _ | .isIconic _
  | .showWindowRestore _ | .setWindowPos _ _ | .setForegroundWindow _ => True
  | _ => False

/-- The calls that release handles and rearrange windows. -/
def Housekeeping (event : Event Os) : Prop :=
  match event.call with
  | .deleteObject _ | .deleteDC _ | .releaseDC _ _ | .getCurrentThreadId
  | .getWindowThreadProcessId _ | .attachThreadInput _ _ _ | .isIconic _ | .showWindowRestore _
  | .setWindowPos _ _ | .setForegroundWindow _ => True
  | _ => False

/-- The calls of `Initialize`. -/
def Initializing (event : Event Os) : Prop :=
  match event.call with
  | .isWindow _ | .getDC _ | .createCompatibleDC _ => True
  | _ => Housekeeping event

/-- The calls of `Clear`. -/
def Clearing (event : Event Os) : Prop :=
  match event.call with
  | .getClientRect _ | .getStockObjectBlackBrush | .fillRect _ _ _ => True
  | _ => False

theorem releases_deleteBitmap (renderer : Renderer) :
    renderer.deleteBitmap.Keeps fun event ↦ releasing event.call := by
  unfold deleteBitmap
  split
  · exact Program.keeps_pure _
  · exact keeps_os_bind (fun _ ↦ rfl) fun _ ↦ Program.keeps_pure _

theorem releases_deleteMemoryDC (renderer : Renderer) :
    renderer.deleteMemoryDC.Keeps fun event ↦ releasing event.call := by
  unfold deleteMemoryDC
  split
  · exact Program.keeps_pure _
  · exact keeps_os_bind (fun _ ↦ rfl) fun _ ↦ Program.keeps_pure _

theorem releases_releaseWindowDC (renderer : Renderer) :
    renderer.releaseWindowDC.Keeps fun event ↦ releasing event.call := by
  unfold releaseWindowDC
  split
  · exact Program.keeps_pure _
  · exact keeps_os_bind (fun _ ↦ rfl) fun _ ↦ Program.keeps_pure _

theorem releases_cleanup (renderer : Renderer) :
    renderer.cleanup.Keeps fun event ↦ releasing event.call :=
  Program.keeps_bind (releases_deleteBitmap _) fun _ ↦ Program.keeps_bind (releases_deleteMemoryDC _)
    fun _ ↦ Program.keeps_bind (releases_releaseWindowDC _) fun _ ↦ Program.keeps_pure _

theorem ensures_cleanup (renderer : Renderer) :
    renderer.cleanup.Ensures fun _ cleaned ↦ cleaned.bitmap = nullptr := by
  simp only [cleanup, deleteBitmap, deleteMemoryDC, releaseWindowDC, Program.ensures_ite,
    Program.ensures_bind, ensures_os, Program.ensures_pure]
  simp +contextual

theorem housekeeping_of_releasing {event : Event Os} (h : releasing event.call) :
    Housekeeping event := by
  obtain ⟨call, answer⟩ := event
  cases call <;> simp_all [releasing, Housekeeping]

theorem keeps_deleteBitmap (renderer : Renderer) : renderer.deleteBitmap.Keeps Housekeeping :=
  (releases_deleteBitmap renderer).mono fun _ ↦ housekeeping_of_releasing

theorem keeps_cleanup (renderer : Renderer) : renderer.cleanup.Keeps Housekeeping :=
  (releases_cleanup renderer).mono fun _ ↦ housekeeping_of_releasing

theorem rearranges_attachInput (currentThreadID targetThreadID : UInt32) (attach : Bool) :
    (attachInput currentThreadID targetThreadID attach).Keeps Rearranging := by
  unfold attachInput
  split
  · exact Program.keeps_pure _
  · exact keeps_os_bind (fun _ ↦ trivial) fun _ ↦ Program.keeps_pure _

theorem rearranges_restoreIfIconic (hwnd : Hwnd) : (restoreIfIconic hwnd).Keeps Rearranging := by
  refine keeps_os_bind (fun _ ↦ trivial) fun iconic ↦ ?_
  split
  · exact keeps_os_bind (fun _ ↦ trivial) fun _ ↦ Program.keeps_pure _
  · exact Program.keeps_pure _

theorem rearranges_bringToFront (hwnd : Hwnd) : (bringToFront hwnd).Keeps Rearranging :=
  keeps_os_bind (fun _ ↦ trivial) fun _ ↦ keeps_os_bind (fun _ ↦ trivial) fun _ ↦
    Program.keeps_bind (rearranges_attachInput _ _ _) fun _ ↦
    Program.keeps_bind (rearranges_restoreIfIconic _) fun _ ↦
    keeps_os_bind (fun _ ↦ trivial) fun _ ↦ keeps_os_bind (fun _ ↦ trivial) fun _ ↦
    keeps_os_bind (fun _ ↦ trivial) fun _ ↦ rearranges_attachInput _ _ _

theorem keeps_bringToFront (hwnd : Hwnd) : (bringToFront hwnd).Keeps Housekeeping := by
  refine (rearranges_bringToFront hwnd).mono fun event h ↦ ?_
  obtain ⟨call, answer⟩ := event
  cases call <;> simp_all [Rearranging, Housekeeping]

theorem initializing_of_housekeeping {event : Event Os} (h : Housekeeping event) :
    Initializing event := by
  obtain ⟨call, answer⟩ := event
  cases call <;> simp_all [Housekeeping, Initializing]

theorem keeps_initializeFor (renderer : Renderer) (hwnd : Hwnd) :
    (renderer.initializeFor hwnd).Keeps Initializing := by
  unfold initializeFor
  split
  · exact Program.keeps_pure _
  refine keeps_os_bind (fun _ ↦ trivial) fun known ↦ ?_
  split
  · exact Program.keeps_pure _
  refine Program.keeps_bind ((keeps_cleanup _).mono fun _ ↦ initializing_of_housekeeping)
    fun _ ↦ keeps_os_bind (fun _ ↦ trivial) fun windowDC ↦ ?_
  split
  · exact Program.keeps_pure _
  refine keeps_os_bind (fun _ ↦ trivial) fun memoryDC ↦ ?_
  split
  · exact keeps_os_bind (fun _ ↦ trivial) fun _ ↦ Program.keeps_pure _
  · exact Program.keeps_bind ((keeps_bringToFront _).mono fun _ ↦ initializing_of_housekeeping)
      fun _ ↦ Program.keeps_pure _

theorem keeps_clear (renderer : Renderer) : renderer.clear.Keeps Clearing := by
  unfold clear
  split
  · exact keeps_os_bind (fun _ ↦ trivial) fun _ ↦ keeps_os_bind (fun _ ↦ trivial) fun _ ↦
      keeps_os_bind (fun _ ↦ trivial) fun _ ↦ Program.keeps_pure _
  · exact Program.keeps_pure _

end Renderer

end WindowCaster.Server.Rendering
