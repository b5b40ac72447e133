import WindowCaster.Server.ListenThread

/-!
# What one request may touch

A request to render or to stop names a window, and the window manager and the renderer check it,
open its device context, bring it to the front and draw. The policy follows the calls of one
handling and forbids a call that comes before the check it depends on, that names another window, or
that uses a handle this handling has not acquired. Only the handles that an earlier handling has left
are given back, and the window of that time with them.
-/

namespace WindowCaster.Server.Targeting

open Foundation.Interaction Foundation.Monitoring Foundation.Text Foundation.Transition
open Protocol.Messages Protocol.Readers Win32 WindowManagement Rendering Handling Framing
open ListenThread

/-- The window that a request is about. -/
def target (request : ClientRequest) : Option Hwnd :=
  match request.request with
  | some (.renderCommand command) => some command.targetWindow
  | some (.stopRender command) => some command.targetWindow
  | some .getWindowList | none => none

/-- The handles that have been acquired for an earlier target and not been given back since. -/
structure Held where
  window : Option (Hwnd × Hdc)
  memoryDC : Option Hdc
  bitmap : Option Hbitmap
  deriving DecidableEq

def Held.nothing : Held := ⟨none, none, none⟩

/-- What the calls of a handling have established so far: what is still held from before, the checks
that the target passed, the handles that were acquired for it, the threads that were looked up, and
how far it has been brought to the front. -/
structure Access where
  held : Held
  known : Bool
  visible : Bool
  titled : Bool
  uncloaked : Bool
  iconic : Bool
  windowDC : Option Hdc
  memoryDC : Option Hdc
  bitmap : Option Hbitmap
  currentThread : Option UInt32
  targetThread : Option UInt32
  attached : Option (UInt32 × UInt32)
  topmost : Bool
  activated : Bool
  deriving DecidableEq

namespace Access

def start (held : Held) : Access where
  held := held
  known := false
  visible := false
  titled := false
  uncloaked := false
  iconic := false
  windowDC := none
  memoryDC := none
  bitmap := none
  currentThread := none
  targetThread := none
  attached := none
  topmost := false
  activated := false

/-- The target passed every check of the window manager. -/
def Valid (access : Access) : Prop :=
  access.known ∧ access.visible ∧ access.titled ∧ access.uncloaked

instance (access : Access) : Decidable access.Valid := inferInstanceAs (Decidable (_ ∧ _))

/-- The input queues are separate again, and the target is not kept above the other windows. -/
def Settled (access : Access) : Prop := access.attached = none ∧ access.topmost = false

instance (access : Access) : Decidable access.Settled := inferInstanceAs (Decidable (_ ∧ _))

/-- The target has been to the front and may be drawn on. -/
def Drawable (access : Access) : Prop := access.Valid ∧ access.Settled ∧ access.activated

instance (access : Access) : Decidable access.Drawable := inferInstanceAs (Decidable (_ ∧ _))

/-- The handle, unless it is null. -/
def handle (value : UInt64) : Option UInt64 := if value = nullptr then none else some value

/-- What is attached after the queues of two threads have been asked to share their input. -/
def queues (currentThreadID targetThreadID : UInt32) : Option (UInt32 × UInt32) :=
  if currentThreadID = targetThreadID then none else some (currentThreadID, targetThreadID)

/-- What is held at the end of the handling: its own handles, and those that are left from before. -/
def leaves (target : Option Hwnd) (access : Access) : Held where
  window := (target.bind fun hwnd ↦ access.windowDC.map fun dc ↦ (hwnd, dc)).or access.held.window
  memoryDC := access.memoryDC.or access.held.memoryDC
  bitmap := access.bitmap.or access.held.bitmap

theorem handle_nullptr : handle nullptr = none := rfl

theorem handle_of_ne {value : UInt64} (h : value ≠ nullptr) : handle value = some value := if_neg h

end Access

/-- The rules for the target of a request. Questions are free, but their answers count for the
target only. -/
def policy (target : Option Hwnd) : Monitor Os Access
  | access, ⟨.isWindow hwnd, known⟩ =>
    some (if target = some hwnd then { access with known } else access)
  | access, ⟨.isWindowVisible hwnd, visible⟩ =>
    some (if target = some hwnd then { access with visible } else access)
  | access, ⟨.getWindowText hwnd _, title⟩ =>
    some (if target = some hwnd then { access with titled := title.count ≠ 0 } else access)
  | access, ⟨.dwmGetWindowAttributeCloaked hwnd, isUWP⟩ =>
    some (if target = some hwnd then { access with uncloaked := !isUWP.any (· ≠ 0) } else access)
  | access, ⟨.isIconic hwnd, iconic⟩ =>
    some (if target = some hwnd then { access with iconic } else access)
  | access, ⟨.getCurrentThreadId, thread⟩ => some { access with currentThread := some thread }
  | access, ⟨.getWindowThreadProcessId hwnd, thread⟩ =>
    some (if target = some hwnd then { access with targetThread := some thread } else access)
  | access, ⟨.getClassName _ _, _⟩ | access, ⟨.enumWindows, _⟩
  | access, ⟨.wideCharToMultiByte _ _, _⟩ => if target = none then some access else none
  | access, ⟨.getStockObjectBlackBrush, _⟩ => some access
  -- the handles of an earlier target go back only when a new target has been found valid
  | access, ⟨.deleteObject bitmap, _⟩ =>
    if access.Valid ∧ access.held.bitmap = some bitmap then
      some { access with held := { access.held with bitmap := none } }
    else none
  | access, ⟨.deleteDC dc, _⟩ =>
    if access.Valid ∧ access.held.memoryDC = some dc then
      some { access with held := { access.held with memoryDC := none } }
    else none
  | access, ⟨.releaseDC hwnd dc, _⟩ =>
    if access.Valid ∧ target = some hwnd ∧ access.windowDC = some dc then
      some { access with windowDC := none }
    else if access.Valid ∧ access.held.window = some (hwnd, dc) then
      some { access with held := { access.held with window := none } }
    else none
  -- and a new one is opened only when they all have
  | access, ⟨.getDC hwnd, dc⟩ =>
    if access.Valid ∧ target = some hwnd ∧ access.held = .nothing then
      some { access with windowDC := Access.handle dc }
    else none
  | access, ⟨.createCompatibleDC dc, memoryDC⟩ =>
    if access.Valid ∧ access.windowDC = some dc then
      some { access with memoryDC := Access.handle memoryDC }
    else none
  -- the queue of this thread is attached to that of the target's thread, and detached from it
  | access, ⟨.attachThreadInput idAttach idAttachTo true, _⟩ =>
    if access.Valid ∧ access.Settled ∧ idAttach ≠ idAttachTo ∧
        access.currentThread = some idAttach ∧ access.targetThread = some idAttachTo then
      some { access with attached := some (idAttach, idAttachTo) }
    else none
  | access, ⟨.attachThreadInput idAttach idAttachTo false, _⟩ =>
    if access.attached = some (idAttach, idAttachTo) then some { access with attached := none }
    else none
  | access, ⟨.showWindowRestore hwnd, _⟩ =>
    if access.Valid ∧ target = some hwnd ∧ access.iconic then some access else none
  | access, ⟨.setWindowPos hwnd .topmost, _⟩ =>
    if access.Valid ∧ target = some hwnd ∧ access.topmost = false then
      some { access with topmost := true }
    else none
  | access, ⟨.setWindowPos hwnd .notopmost, _⟩ =>
    if target = some hwnd ∧ access.topmost then some { access with topmost := false } else none
  | access, ⟨.setForegroundWindow hwnd, _⟩ =>
    if target = some hwnd ∧ access.topmost then some { access with activated := true } else none
  | access, ⟨.getClientRect hwnd, _⟩ =>
    if access.Drawable ∧ target = some hwnd then some access else none
  | access, ⟨.createCompatibleBitmap dc _ _, bitmap⟩ =>
    if access.Drawable ∧ access.windowDC = some dc then
      some { access with bitmap := Access.handle bitmap }
    else none
  | access, ⟨.selectObject dc bitmap, _⟩ =>
    if access.Drawable ∧ access.memoryDC = some dc ∧ access.bitmap = some bitmap then some access
    else none
  | access, ⟨.setDIBits dc bitmap _ _ _ _, _⟩ =>
    if access.Drawable ∧ access.windowDC = some dc ∧ access.bitmap = some bitmap then some access
    else none
  | access, ⟨.stretchBlt dcDest _ _ _ _ dcSrc _ _ _ _, _⟩ =>
    if access.Drawable ∧ access.windowDC = some dcDest ∧ access.memoryDC = some dcSrc then
      some access
    else none
  | access, ⟨.setStretchBltModeHalftone dc, _⟩ | access, ⟨.setBrushOrgEx dc _ _, _⟩
  | access, ⟨.fillRect dc _ _, _⟩ =>
    if access.Drawable ∧ access.windowDC = some dc then some access else none
  | _, ⟨.send _ _ _, _⟩ => none

/-- Every behaviour of the system. -/
def anything (_ : Event Os) : Prop := True

/-- The calls of the program keep to the policy. -/
abbrev Within {α : Type} (target : Option Hwnd) (program : Program Os α) (access : Access)
    (post : Access → α → Prop) : Prop :=
  program.Obeys anything (policy target) access post

/-- A call that the policy lets pass in this state. -/
theorem within_os_bind {α : Type} {target : Option Hwnd} {call : Call} {access : Access}
    {after : call.Answer → Program Os α} {post : Access → α → Prop}
    (next : call.Answer → Access) (hcall : ∀ answer, policy target access ⟨call, answer⟩ = some (next answer))
    (hafter : ∀ answer, Within target (after answer) (next answer) post) :
    Within target (os call >>= after) access post :=
  obeys_os_bind fun answer _ ↦ ⟨next answer, hcall answer, hafter answer⟩

/-! ## The checks -/

section Handling

variable {hwnd : Hwnd}

/-- The state after all checks have been passed. -/
def Access.validated (held : Held) : Access :=
  { Access.start held with known := true, visible := true, titled := true, uncloaked := true }

theorem within_isWindowValid (held : Held) :
    Within (some hwnd) (isWindowValid hwnd) (.start held) fun last valid ↦
      last.Settled ∧ last.leaves (some hwnd) = held ∧
        (valid = true → last = .validated held ∧ hwnd ≠ nullptr) := by
  have hsettled : (Access.start held).Settled := ⟨rfl, rfl⟩
  unfold isWindowValid
  split
  · exact Program.obeys_pure ⟨hsettled, rfl, by simp⟩
  next hne =>
  refine within_os_bind _ (fun known ↦ congrArg some (if_pos rfl)) fun known ↦ ?_
  split
  · exact Program.obeys_pure ⟨hsettled, rfl, by simp⟩
  next hknown =>
  refine within_os_bind _ (fun visible ↦ congrArg some (if_pos rfl)) fun visible ↦ ?_
  split
  · exact Program.obeys_pure ⟨hsettled, rfl, by simp⟩
  next hvisible =>
  refine within_os_bind _ (fun title ↦ congrArg some (if_pos rfl)) fun title ↦ ?_
  split
  · exact Program.obeys_pure ⟨hsettled, rfl, by simp⟩
  next htitle =>
  refine within_os_bind _ (fun isUWP ↦ congrArg some (if_pos rfl)) fun isUWP ↦ ?_
  split
  · exact Program.obeys_pure ⟨hsettled, rfl, by simp⟩
  next hcloaked =>
  refine Program.obeys_pure ⟨hsettled, rfl, fun _ ↦ ⟨?_, hne⟩⟩
  simp_all [Access.validated]

/-! ## To the front -/

theorem within_attachInput (target : Option Hwnd) (access : Access) (hvalid : access.Valid)
    (hsettled : access.Settled) {currentThreadID targetThreadID : UInt32}
    (hcurrent : access.currentThread = some currentThreadID)
    (htarget : access.targetThread = some targetThreadID) :
    Within target (Renderer.attachInput currentThreadID targetThreadID true) access fun last _ ↦
      last = { access with attached := Access.queues currentThreadID targetThreadID } := by
  unfold Renderer.attachInput Access.queues
  split
  · exact Program.obeys_pure (by rw [← hsettled.1])
  next hne =>
  refine within_os_bind (fun _ ↦ { access with attached := some (currentThreadID, targetThreadID) })
    (fun _ ↦ if_pos ⟨hvalid, hsettled, hne, hcurrent, htarget⟩) fun _ ↦ ?_
  exact Program.obeys_pure rfl

theorem within_detachInput {target : Option Hwnd} {access : Access}
    {currentThreadID targetThreadID : UInt32}
    (hattached : access.attached = Access.queues currentThreadID targetThreadID) :
    Within target (Renderer.attachInput currentThreadID targetThreadID false) access fun last _ ↦
      last = { access with attached := none } := by
  unfold Renderer.attachInput Access.queues at *
  split
  · next heq => exact Program.obeys_pure (by rw [if_pos heq] at hattached; rw [← hattached])
  next hne =>
  rw [if_neg hne] at hattached
  refine within_os_bind (fun _ ↦ { access with attached := none }) (fun _ ↦ if_pos hattached)
    fun _ ↦ ?_
  exact Program.obeys_pure rfl

theorem within_restoreIfIconic {access : Access} (hvalid : access.Valid) :
    Within (some hwnd) (Renderer.restoreIfIconic hwnd) access fun last _ ↦
      ∃ iconic, last = { access with iconic } := by
  refine within_os_bind _ (fun iconic ↦ congrArg some (if_pos rfl)) fun iconic ↦ ?_
  split
  · next hiconic =>
    refine within_os_bind _ (fun _ ↦ if_pos ⟨hvalid, rfl, hiconic⟩) fun _ ↦ ?_
    exact Program.obeys_pure ⟨iconic, rfl⟩
  · exact Program.obeys_pure ⟨iconic, rfl⟩

/-- On every path the queues are detached again and the window is not left above the others. -/
theorem within_bringToFront {access : Access} (hvalid : access.Valid) (hsettled : access.Settled) :
    Within (some hwnd) (Renderer.bringToFront hwnd) access fun last _ ↦
      last.Drawable ∧ last.windowDC = access.windowDC ∧ last.memoryDC = access.memoryDC ∧
        last.bitmap = access.bitmap ∧ last.held = access.held := by
  refine within_os_bind _ (fun _ ↦ rfl) fun currentThreadID ↦ ?_
  refine within_os_bind _ (fun _ ↦ congrArg some (if_pos rfl)) fun targetThreadID ↦ ?_
  have hattach := within_attachInput (some hwnd)
    { access with currentThread := some currentThreadID, targetThread := some targetThreadID }
    hvalid hsettled rfl rfl
  refine hattach.bind ?_
  rintro _ _ rfl
  refine (within_restoreIfIconic ?_).bind ?_
  · exact hvalid
  rintro _ _ ⟨iconic, rfl⟩
  refine within_os_bind _ (fun _ ↦ if_pos ⟨hvalid, rfl, hsettled.2⟩) fun _ ↦ ?_
  refine within_os_bind _ (fun _ ↦ if_pos ⟨rfl, rfl⟩) fun _ ↦ ?_
  refine within_os_bind _ (fun _ ↦ if_pos ⟨rfl, rfl⟩) fun _ ↦ ?_
  refine (within_detachInput rfl).mono ?_
  rintro _ _ rfl
  exact ⟨⟨hvalid, ⟨rfl, rfl⟩, rfl⟩, rfl, rfl, rfl, rfl⟩

/-! ## Giving back -/

/-- The handles that the renderer would give back. -/
def holding (renderer : Renderer) : Held where
  window :=
    if renderer.windowDC = nullptr ∨ renderer.targetWindow = nullptr then none
    else some (renderer.targetWindow, renderer.windowDC)
  memoryDC := Access.handle renderer.memoryDC
  bitmap := Access.handle renderer.bitmap

section Cleanup

variable {target : Option Hwnd} {access : Access} {renderer : Renderer}

theorem within_deleteBitmap (hvalid : access.Valid)
    (hheld : access.held.bitmap = Access.handle renderer.bitmap) :
    Within target renderer.deleteBitmap access fun last left ↦
      last = { access with held := { access.held with bitmap := none } } ∧
        left = { renderer with bitmap := nullptr } := by
  unfold Renderer.deleteBitmap
  split
  · next hnull =>
    rw [hnull, Access.handle_nullptr] at hheld
    exact Program.obeys_pure ⟨by rw [← hheld], by rw [← hnull]⟩
  · next hne =>
    rw [Access.handle_of_ne hne] at hheld
    refine within_os_bind _ (fun _ ↦ if_pos ⟨hvalid, hheld⟩) fun _ ↦ ?_
    exact Program.obeys_pure ⟨rfl, rfl⟩

theorem within_deleteMemoryDC (hvalid : access.Valid)
    (hheld : access.held.memoryDC = Access.handle renderer.memoryDC) :
    Within target renderer.deleteMemoryDC access fun last left ↦
      last = { access with held := { access.held with memoryDC := none } } ∧
        left = { renderer with memoryDC := nullptr } := by
  unfold Renderer.deleteMemoryDC
  split
  · next hnull =>
    rw [hnull, Access.handle_nullptr] at hheld
    exact Program.obeys_pure ⟨by rw [← hheld], by rw [← hnull]⟩
  · next hne =>
    rw [Access.handle_of_ne hne] at hheld
    refine within_os_bind _ (fun _ ↦ if_pos ⟨hvalid, hheld⟩) fun _ ↦ ?_
    exact Program.obeys_pure ⟨rfl, rfl⟩

theorem within_releaseWindowDC (hvalid : access.Valid) (hnew : access.windowDC = none)
    (hheld : access.held.window = (holding renderer).window) :
    Within target renderer.releaseWindowDC access fun last left ↦
      last = { access with held := { access.held with window := none } } ∧
        left.bitmap = renderer.bitmap ∧ left.memoryDC = renderer.memoryDC := by
  unfold Renderer.releaseWindowDC
  split
  · next hnull =>
    have hnone : access.held.window = none := hheld.trans (if_pos hnull)
    exact Program.obeys_pure ⟨by rw [← hnone], rfl, rfl⟩
  · next hne =>
    have hsome : access.held.window = some (renderer.targetWindow, renderer.windowDC) :=
      hheld.trans (if_neg hne)
    have hother : ¬ (access.Valid ∧ target = some renderer.targetWindow ∧
        access.windowDC = some renderer.windowDC) := by
      simp [hnew]
    refine within_os_bind _ (fun _ ↦ (if_neg hother).trans (if_pos ⟨hvalid, hsome⟩)) fun _ ↦ ?_
    exact Program.obeys_pure ⟨rfl, rfl, rfl⟩

/-- Everything that is held is given back. -/
theorem within_cleanup (renderer : Renderer) (target : Option Hwnd) :
    Within target renderer.cleanup (.validated (holding renderer)) fun last left ↦
      last = .validated .nothing ∧ left.bitmap = nullptr ∧ left.memoryDC = nullptr := by
  have hvalid (held : Held) : (Access.validated held).Valid := ⟨rfl, rfl, rfl, rfl⟩
  refine (within_deleteBitmap (hvalid _) rfl).bind ?_
  rintro _ _ ⟨rfl, rfl⟩
  refine (within_deleteMemoryDC (hvalid _) rfl).bind ?_
  rintro _ _ ⟨rfl, rfl⟩
  refine (within_releaseWindowDC (hvalid _) rfl rfl).bind ?_
  rintro _ left ⟨rfl, hbitmap, hmemory⟩
  exact Program.obeys_pure ⟨rfl, hbitmap, hmemory⟩

end Cleanup

/-! ## Acquiring -/

/-- The input is as it was, and the renderer would give back what is held. -/
def Finished (target : Option Hwnd) (last : Access) (renderer : Renderer) : Prop :=
  last.Settled ∧ last.leaves target = holding renderer

/-- The renderer's handles are those that were acquired for the target, and it has no others. -/
structure Holds (hwnd : Hwnd) (access : Access) (renderer : Renderer) : Prop where
  drawable : access.Drawable
  targetWindow : renderer.targetWindow = hwnd
  targetWindow_ne : renderer.targetWindow ≠ nullptr
  windowDC : access.windowDC = some renderer.windowDC
  windowDC_ne : renderer.windowDC ≠ nullptr
  memoryDC : access.memoryDC = some renderer.memoryDC
  memoryDC_ne : renderer.memoryDC ≠ nullptr
  bitmap : access.bitmap = Access.handle renderer.bitmap
  held : access.held = .nothing

theorem Holds.finished {access : Access} {renderer : Renderer} (h : Holds hwnd access renderer) :
    Finished (some hwnd) access renderer := by
  refine ⟨h.drawable.2.1, ?_⟩
  have hwindow : ¬ (renderer.windowDC = nullptr ∨ renderer.targetWindow = nullptr) := by
    simp [h.windowDC_ne, h.targetWindow_ne]
  rw [Access.leaves, holding, if_neg hwindow, h.windowDC, h.memoryDC, h.bitmap, h.held,
    h.targetWindow, Access.handle_of_ne h.memoryDC_ne]
  cases Access.handle renderer.bitmap <;> rfl

theorem within_initializeFor (renderer : Renderer) (hne : hwnd ≠ nullptr) :
    Within (some hwnd) (renderer.initializeFor hwnd) (.validated (holding renderer)) fun last result ↦
      Finished (some hwnd) last result.2 ∧
        (result.1 = true → Holds hwnd last result.2 ∧ result.2.bitmap = nullptr) := by
  have hvalid (held : Held) : (Access.validated held).Valid := ⟨rfl, rfl, rfl, rfl⟩
  have hsettled (held : Held) : (Access.validated held).Settled := ⟨rfl, rfl⟩
  unfold Renderer.initializeFor
  rw [if_neg hne]
  refine within_os_bind _ (fun known ↦ congrArg some (if_pos rfl)) fun known ↦ ?_
  cases known with
  | false => exact Program.obeys_pure ⟨⟨⟨rfl, rfl⟩, rfl⟩, by simp⟩
  | true =>
    refine (within_cleanup renderer _).bind ?_
    rintro _ left ⟨rfl, hbitmap, hmemoryLeft⟩
    refine within_os_bind _ (fun _ ↦ if_pos ⟨hvalid _, rfl, rfl⟩) fun windowDC ↦ ?_
    by_cases hdc : windowDC = nullptr
    · rw [if_pos hdc]
      refine Program.obeys_pure ⟨⟨hsettled .nothing, ?_⟩, by simp⟩
      simp [Access.leaves, holding, hdc, hbitmap, hmemoryLeft, Access.handle_nullptr,
        Access.validated, Access.start, Held.nothing]
    rw [if_neg hdc, Access.handle_of_ne hdc]
    refine within_os_bind _ (fun _ ↦ if_pos ⟨hvalid .nothing, rfl⟩) fun memoryDC ↦ ?_
    by_cases hmemory : memoryDC = nullptr
    · rw [if_pos hmemory]
      refine within_os_bind _ (fun _ ↦ if_pos ⟨hvalid .nothing, rfl, rfl⟩) fun _ ↦ ?_
      refine Program.obeys_pure ⟨⟨hsettled .nothing, ?_⟩, by simp⟩
      simp [Access.leaves, holding, hmemory, hbitmap, Access.handle_nullptr,
        Access.validated, Access.start, Held.nothing]
    rw [if_neg hmemory, Access.handle_of_ne hmemory]
    refine (within_bringToFront ?_ ?_).bind ?_
    · exact hvalid .nothing
    · exact hsettled .nothing
    rintro last _ ⟨hdrawable, hwindow, hmem, hnone, hheld⟩
    have hholds : Holds hwnd last { left with targetWindow := hwnd, windowDC, memoryDC } :=
      ⟨hdrawable, rfl, hne, hwindow, hdc, hmem, hmemory, by rw [hnone, hbitmap]; rfl, hheld⟩
    exact Program.obeys_pure ⟨hholds.finished, fun _ ↦ ⟨hholds, hbitmap⟩⟩

/-! ## Drawing -/

theorem within_createCompatibleBitmap {access : Access} {renderer : Renderer}
    (h : Holds hwnd access renderer) (hbitmap : renderer.bitmap = nullptr) (width height : UInt64) :
    Within (some hwnd) (renderer.createCompatibleBitmap width height) access fun last result ↦
      Finished (some hwnd) last result.2 ∧ (result.1 = true →
        Holds hwnd last result.2 ∧ last.bitmap = some result.2.bitmap) := by
  have hcontexts : ¬ (renderer.windowDC = nullptr ∨ renderer.memoryDC = nullptr) := by
    simp [h.windowDC_ne, h.memoryDC_ne]
  unfold Renderer.createCompatibleBitmap
  rw [if_neg hcontexts, if_neg fun hreuse ↦ hreuse.1 hbitmap, Renderer.deleteBitmap, if_pos hbitmap]
  refine within_os_bind _ (fun _ ↦ if_pos ⟨h.drawable, h.windowDC⟩) fun bitmap ↦ ?_
  by_cases hnull : bitmap = nullptr
  · rw [if_pos hnull]
    have hholds : Holds hwnd { access with bitmap := Access.handle bitmap } { renderer with bitmap } :=
      { h with bitmap := rfl, drawable := h.drawable }
    exact Program.obeys_pure ⟨hholds.finished, by simp⟩
  rw [if_neg hnull, Access.handle_of_ne hnull]
  refine within_os_bind _ (fun _ ↦ if_pos ⟨h.drawable, h.memoryDC, rfl⟩) fun _ ↦ ?_
  have hholds : Holds hwnd { access with bitmap := some bitmap }
      { renderer with bitmap, currentWidth := width, currentHeight := height } :=
    { h with bitmap := (Access.handle_of_ne hnull).symm, drawable := h.drawable }
  exact Program.obeys_pure ⟨hholds.finished, fun _ ↦ ⟨hholds, rfl⟩⟩

theorem within_renderImageFrame {access : Access} {renderer : Renderer}
    (h : Holds hwnd access renderer) (hbitmap : renderer.bitmap = nullptr) (imageData : Bytes)
    (width height : UInt64) :
    Within (some hwnd) (renderer.renderImageFrame imageData width height) access fun last result ↦
      Finished (some hwnd) last result.2 := by
  unfold Renderer.renderImageFrame
  split
  · exact Program.obeys_pure h.finished
  refine (within_createCompatibleBitmap h hbitmap width height).bind ?_
  rintro last ⟨created, renderer'⟩ ⟨hfinished, hcreated⟩
  cases created with
  | false => exact Program.obeys_pure hfinished
  | true =>
    obtain ⟨h, hbitmap⟩ := hcreated rfl
    refine within_os_bind _ (fun _ ↦ if_pos ⟨h.drawable, h.windowDC, hbitmap⟩) fun copied ↦ ?_
    split
    · exact Program.obeys_pure hfinished
    refine within_os_bind _ (fun _ ↦ if_pos ⟨h.drawable, congrArg some h.targetWindow.symm⟩)
      fun rect ↦ ?_
    refine within_os_bind _ (fun _ ↦ if_pos ⟨h.drawable, h.windowDC⟩) fun _ ↦ ?_
    refine within_os_bind _ (fun _ ↦ if_pos ⟨h.drawable, h.windowDC⟩) fun _ ↦ ?_
    refine within_os_bind _ (fun _ ↦ if_pos ⟨h.drawable, h.windowDC, h.memoryDC⟩) fun success ↦ ?_
    exact Program.obeys_pure hfinished

theorem within_clear {access : Access} {renderer : Renderer} (h : Holds hwnd access renderer) :
    Within (some hwnd) renderer.clear access fun last _ ↦ last = access := by
  unfold Renderer.clear
  split
  · refine within_os_bind _ (fun _ ↦ if_pos ⟨h.drawable, congrArg some h.targetWindow.symm⟩)
      fun rect ↦ ?_
    refine within_os_bind _ (fun _ ↦ rfl) fun brush ↦ ?_
    refine within_os_bind _ (fun _ ↦ if_pos ⟨h.drawable, h.windowDC⟩) fun _ ↦ ?_
    exact Program.obeys_pure rfl
  · exact Program.obeys_pure rfl

/-! ## Requests -/

theorem within_validateAndInitialize (server : WindowCasterServer) (status : Status) :
    Within (some hwnd) (server.validateAndInitialize hwnd status) (.start (holding server.renderer))
      fun last result ↦ Finished (some hwnd) last result.2.2.renderer ∧
        (result.1 = true → Holds hwnd last result.2.2.renderer ∧
          result.2.2.renderer.bitmap = nullptr) := by
  refine (within_isWindowValid _).bind ?_
  rintro last valid ⟨hsettled, hleaves, hvalidated⟩
  cases valid with
  | false => exact Program.obeys_pure ⟨⟨hsettled, hleaves⟩, by simp⟩
  | true =>
    obtain ⟨rfl, hne⟩ := hvalidated rfl
    refine (within_initializeFor server.renderer hne).bind ?_
    rintro last ⟨ready, renderer⟩ ⟨hfinished, hready⟩
    cases ready with
    | false => exact Program.obeys_pure ⟨hfinished, by simp⟩
    | true => exact Program.obeys_pure ⟨hfinished, hready⟩

end Handling

theorem within_handleRenderCommand (server : WindowCasterServer) (command : RenderCommand) :
    Within (some command.targetWindow) (server.handleRenderCommand command)
      (.start (holding server.renderer)) fun last result ↦
        Finished (some command.targetWindow) last result.2.renderer := by
  refine (within_validateAndInitialize server _).bind ?_
  rintro last ⟨ready, status, server⟩ ⟨hfinished, hready⟩
  cases ready with
  | false => exact Program.obeys_pure hfinished
  | true =>
    obtain ⟨hholds, hbitmap⟩ := hready rfl
    match command.content with
    | some (.image image) =>
      refine (within_renderImageFrame hholds hbitmap _ _ _).bind fun last _ hfinished ↦ ?_
      exact Program.obeys_pure hfinished
    | some (.video video) =>
      refine (within_renderImageFrame hholds hbitmap _ _ _).bind fun last _ hfinished ↦ ?_
      exact Program.obeys_pure hfinished
    | none => exact Program.obeys_pure hfinished

theorem within_handleStopRender (server : WindowCasterServer) (command : StopRender) :
    Within (some command.targetWindow) (server.handleStopRender command)
      (.start (holding server.renderer)) fun last result ↦
        Finished (some command.targetWindow) last result.2.renderer := by
  refine (within_validateAndInitialize server _).bind ?_
  rintro last ⟨ready, status, server⟩ ⟨hfinished, hready⟩
  cases ready with
  | false => exact Program.obeys_pure hfinished
  | true =>
    refine (within_clear (hready rfl).1).bind ?_
    rintro _ _ rfl
    exact Program.obeys_pure hfinished

/-- The windows are asked for their names and the names are converted; nothing else is called. -/
theorem keeps_handleGetWindowList {property : Event Os → Prop} (server : WindowCasterServer)
    (hinspects : ∀ event, Inspecting event → property event)
    (hconverts : ∀ text size converted, property ⟨.wideCharToMultiByte text size, converted⟩) :
    server.handleGetWindowList.Keeps property :=
  Program.keeps_bind ((inspects_enumerateWindows _).mono hinspects) fun _ ↦
    Program.keeps_bind (Program.keeps_mapM (WindowCasterServer.keeps_addWindow hconverts) _) fun _ ↦
      Program.keeps_pure _

/-- Without a target, only questions are asked, and they establish nothing. -/
theorem within_handleGetWindowList (server : WindowCasterServer) :
    Within none server.handleGetWindowList (.start (holding server.renderer)) fun last result ↦
      Finished none last result.2.renderer := by
  have hinspects (event : Event Os) (hevent : Inspecting event) :
      policy none (.start (holding server.renderer)) event =
        some (.start (holding server.renderer)) := by
    obtain ⟨call, answer⟩ := event
    cases call <;> simp_all [Inspecting, policy]
  have hkeeps := keeps_handleGetWindowList server hinspects fun _ _ _ ↦ rfl
  have hrenderer : server.handleGetWindowList.Ensures fun _ result ↦
      result.2.renderer = server.renderer :=
    Program.ensures_bind.2 fun _ _ _ ↦ Program.ensures_bind.2 fun _ _ _ ↦ Program.ensures_pure.2 rfl
  intro trace result hruns hallowed
  obtain ⟨last, hlast, rfl⟩ :=
    hkeeps.obeys (fun _ hevent ↦ hevent) trace result hruns hallowed
  refine ⟨_, hlast, ⟨rfl, rfl⟩, ?_⟩
  rw [hrenderer trace result hruns]
  rfl

theorem within_dispatch (server : WindowCasterServer) (request : ClientRequest) :
    Within (target request) (server.dispatch request) (.start (holding server.renderer))
      fun last result ↦ Finished (target request) last result.2.renderer := by
  obtain ⟨request⟩ := request
  match request with
  | some .getWindowList => exact within_handleGetWindowList server
  | some (.renderCommand command) => exact within_handleRenderCommand server command
  | some (.stopRender command) => exact within_handleStopRender server command
  | none => exact Program.obeys_pure ⟨⟨rfl, rfl⟩, rfl⟩

/-- The window that a message names. -/
def named (codec : Codec) (message : Bytes) : Option Hwnd :=
  (codec.parseFromString message).bind target

theorem within_respond (codec : Codec) (server : WindowCasterServer) (message : Bytes) :
    Within (named codec message) (server.respond codec message) (.start (holding server.renderer))
      fun last result ↦ Finished (named codec message) last result.2.renderer := by
  unfold WindowCasterServer.respond named
  cases codec.parseFromString message with
  | none => exact Program.obeys_pure ⟨⟨rfl, rfl⟩, rfl⟩
  | some request =>
    refine (within_dispatch server request).bind fun last _ hfinished ↦ ?_
    exact Program.obeys_pure hfinished

/-! ## Runs -/

/-- What is held after a message, unless its calls break the policy. -/
def carry (codec : Codec) (held : Held) (handled : Handled) : Option Held :=
  ((policy (named codec handled.message)).follow (.start held) handled.trace).map
    (Access.leaves (named codec handled.message))

/-- The renderer would give back what the policy says is held. -/
theorem carry_run {codec : Codec} {history : List Handled} {server : WindowCasterServer}
    (hrun : (handlings codec).Run history server) :
    history.foldlM (carry codec) .nothing = some (holding server.renderer) := by
  induction hrun with
  | start h =>
    obtain rfl := h
    rfl
  | @next history server server' handled _ hruns ih =>
    obtain ⟨last, hlast, -, hleaves⟩ :=
      within_respond codec server handled.message handled.trace _ hruns fun _ _ ↦ trivial
    have hcarry : carry codec (holding server.renderer) handled = some (holding server'.renderer) := by
      rw [carry, hlast, Option.map_some, hleaves]
    rw [List.foldlM_append, ih]
    exact (congrArg (· >>= pure) hcarry).trans (bind_pure _)

/-- The window that a call opens, moves, activates, measures or releases. -/
def touched : Call → Option Hwnd
  | .getDC hwnd | .releaseDC hwnd _ | .showWindowRestore hwnd | .setWindowPos hwnd _
  | .setForegroundWindow hwnd | .getClientRect hwnd => some hwnd
  | _ => none

section Steps

variable {target : Option Hwnd} {access next : Access} {event : Event Os}

/-- Only the window of the message is touched, or one is released that is still held. -/
theorem target_of_touched (h : policy target access event = some next) {hwnd : Hwnd}
    (htouched : touched event.call = some hwnd) :
    target = some hwnd ∨
      ∃ dc, event.call = .releaseDC hwnd dc ∧ access.held.window = some (hwnd, dc) := by
  obtain ⟨call, answer⟩ := event
  cases call with
  | setWindowPos hwnd insertAfter => cases insertAfter <;> simp_all [touched, policy]
  | releaseDC released dc =>
    obtain rfl : released = hwnd := Option.some.inj htouched
    simp only [policy] at h
    split at h
    · next htarget => exact .inl htarget.2.1
    · split at h
      · next hheld => exact .inr ⟨dc, rfl, hheld.2⟩
      · cases h
  | _ => simp_all [touched, policy]

/-- Nothing is added to what is held from before, and only `GetDC` brings a device context. -/
theorem acquired_step (h : policy target access event = some next) :
    (∀ pair, next.held.window = some pair → access.held.window = some pair) ∧
      ∀ dc, next.windowDC = some dc →
        access.windowDC = some dc ∨ ∃ hwnd, target = some hwnd ∧ event = ⟨.getDC hwnd, dc⟩ := by
  obtain ⟨call, answer⟩ := event
  cases call with
  | attachThreadInput idAttach idAttachTo attach => cases attach <;> grind [policy]
  | setWindowPos hwnd insertAfter => cases insertAfter <;> grind [policy]
  | getDC hwnd => grind [policy, Access.handle]
  | _ => grind [policy]

theorem acquired_follow {last : Access} {trace : List (Event Os)}
    (h : (policy target).follow access trace = some last) :
    (∀ pair, last.held.window = some pair → access.held.window = some pair) ∧
      ∀ dc, last.windowDC = some dc →
        access.windowDC = some dc ∨ ∃ hwnd, target = some hwnd ∧ ⟨.getDC hwnd, dc⟩ ∈ trace := by
  induction trace generalizing access with
  | nil =>
    obtain rfl := Option.some.inj h
    exact ⟨fun _ ↦ id, fun _ ↦ .inl⟩
  | cons event trace ih =>
    rw [Monitor.follow_cons] at h
    obtain ⟨next, hnext, hrest⟩ := Option.bind_eq_some_iff.1 h
    obtain ⟨hheld, hacquired⟩ := acquired_step hnext
    obtain ⟨hheld', hacquired'⟩ := ih hrest
    refine ⟨fun pair hpair ↦ hheld pair (hheld' pair hpair), fun dc hdc ↦ ?_⟩
    obtain hbefore | ⟨hwnd, htarget, hmem⟩ := hacquired' dc hdc
    · obtain hbefore | ⟨hwnd, htarget, rfl⟩ := hacquired dc hbefore
      · exact .inl hbefore
      · exact .inr ⟨hwnd, htarget, List.mem_cons_self⟩
    · exact .inr ⟨hwnd, htarget, List.mem_cons_of_mem _ hmem⟩

end Steps

/-- The message named the window, and the device context was opened for it. -/
def Opened (codec : Codec) (hwnd : Hwnd) (dc : Hdc) (handled : Handled) : Prop :=
  named codec handled.message = some hwnd ∧ ⟨.getDC hwnd, dc⟩ ∈ handled.trace

theorem opened_of_held {codec : Codec} {history : List Handled} {held : Held}
    (h : history.foldlM (carry codec) .nothing = some held) {hwnd : Hwnd} {dc : Hdc}
    (hheld : held.window = some (hwnd, dc)) : ∃ earlier ∈ history, Opened codec hwnd dc earlier := by
  induction history using List.reverseRecOn generalizing held with
  | nil =>
    obtain rfl := Option.some.inj h
    cases hheld
  | append_singleton history handled ih =>
    rw [List.foldlM_append] at h
    obtain ⟨before, hbefore, hlast⟩ := Option.bind_eq_some_iff.1 h
    rw [List.foldlM_cons] at hlast
    obtain ⟨after, hcarry, hafter⟩ := Option.bind_eq_some_iff.1 hlast
    obtain rfl := Option.some.inj hafter
    obtain ⟨last, hfollow, rfl⟩ := Option.map_eq_some_iff.1 hcarry
    obtain ⟨hleft, hacquired⟩ := acquired_follow hfollow
    have hearlier (hpair : last.held.window = some (hwnd, dc)) :
        ∃ earlier ∈ history ++ [handled], Opened codec hwnd dc earlier := by
      obtain ⟨earlier, hmem, hopened⟩ := ih hbefore (hleft _ hpair)
      exact ⟨earlier, List.mem_append_left _ hmem, hopened⟩
    rw [Access.leaves] at hheld
    cases htarget : named codec handled.message with
    | none => exact hearlier (by simpa [htarget] using hheld)
    | some target =>
      cases hdc : last.windowDC with
      | none => exact hearlier (by simpa [htarget, hdc] using hheld)
      | some windowDC =>
        obtain ⟨rfl, rfl⟩ : target = hwnd ∧ windowDC = dc := by simpa [htarget, hdc] using hheld
        obtain hnone | ⟨hwnd, hhwnd, hmem⟩ := hacquired windowDC hdc
        · cases hnone
        · obtain rfl := Option.some.inj (htarget.symm.trans hhwnd)
          exact ⟨handled, List.mem_append_right _ (List.mem_singleton_self _), htarget, hmem⟩

/-- The calls for a message keep to the policy, with what the earlier ones have left. No window is
touched but this one, except that a device context which an earlier message was given for its window
is released on that window. -/
structure Kept (codec : Codec) (before : List Handled) (window : Option Hwnd)
    (trace : List (Event Os)) : Prop where
  follows : ∃ held last, before.foldlM (carry codec) .nothing = some held ∧
    (policy window).follow (.start held) trace = some last ∧ last.Settled
  touches : ∀ event ∈ trace, ∀ hwnd, touched event.call = some hwnd → window = some hwnd ∨
    ∃ dc, event.call = .releaseDC hwnd dc ∧ ∃ earlier ∈ before, Opened codec hwnd dc earlier

theorem kept_run {codec : Codec} {before after : List Handled} {handled : Handled}
    {server : WindowCasterServer}
    (hrun : (handlings codec).Run (before ++ handled :: after) server) :
    Kept codec before (named codec handled.message) handled.trace := by
  obtain ⟨server, server', hbefore, hruns⟩ := hrun.cut
  have hheld := carry_run hbefore
  obtain ⟨last, hlast, hsettled, -⟩ :=
    within_respond codec server handled.message handled.trace _ hruns fun _ _ ↦ trivial
  refine ⟨⟨_, last, hheld, hlast, hsettled⟩, fun event hevent hwnd htouched ↦ ?_⟩
  obtain ⟨first, second, htrace⟩ := List.append_of_mem hevent
  rw [htrace, Monitor.follow_append] at hlast
  obtain ⟨access, haccess, hrest⟩ := Option.bind_eq_some_iff.1 hlast
  rw [Monitor.follow_cons] at hrest
  obtain ⟨next, hnext, -⟩ := Option.bind_eq_some_iff.1 hrest
  obtain htarget | ⟨dc, hcall, hpair⟩ := target_of_touched hnext htouched
  · exact .inl htarget
  · exact .inr ⟨dc, hcall, opened_of_held hheld ((acquired_follow haccess).1 _ hpair)⟩

end WindowCaster.Server.Targeting
