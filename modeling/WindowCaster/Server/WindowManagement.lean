import WindowCaster.Server.Win32

/-!
# `WindowManager`

Which windows the server accepts and lists: existing, visible, titled and not cloaked. The list is
a member of the class and is rebuilt by every enumeration.
-/

namespace WindowCaster.Server.WindowManagement

open Foundation.Interaction Win32

structure WindowInfo where
  handle : Hwnd
  title : List UInt16
  className : List UInt16
  deriving DecidableEq

structure WindowManager where
  windowList : List WindowInfo
  deriving DecidableEq

def isWindowValid (hwnd : Hwnd) : Program Os Bool := do
  if hwnd = nullptr then return false
  let known : Bool ← os (.isWindow hwnd)
  if !known then return false
  let visible : Bool ← os (.isWindowVisible hwnd)
  if !visible then return false
  let title : WindowText ← os (.getWindowText hwnd 256)
  if title.count = 0 then return false
  let isUWP : Option UInt32 ← os (.dwmGetWindowAttributeCloaked hwnd)
  if isUWP.any (· ≠ 0) then return false
  return true

/-- The callback of `EnumWindows`; it always asks for the next window. -/
def enumWindowsProc (manager : WindowManager) (hwnd : Hwnd) : Program Os WindowManager := do
  let valid ← isWindowValid hwnd
  if !valid then return manager
  let title : WindowText ← os (.getWindowText hwnd 256)
  let className : WindowText ← os (.getClassName hwnd 256)
  return { manager with windowList := manager.windowList ++ [⟨hwnd, title.units, className.units⟩] }

def enumerateWindows (manager : WindowManager) : Program Os (List WindowInfo × WindowManager) := do
  let windows : List Hwnd ← os .enumWindows
  let manager ← windows.foldlM enumWindowsProc { manager with windowList := [] }
  return (manager.windowList, manager)

/-! ## Inspecting windows -/

/-- The calls with which a window is checked. -/
def Checking (event : Event Os) : Prop :=
  match event.call with
  | .isWindow _ | .isWindowVisible _ | .dwmGetWindowAttributeCloaked _ => True
  | .getWindowText _ maxCount => maxCount = 256
  | _ => False

/-- The calls that ask about windows. -/
def Inspecting (event : Event Os) : Prop :=
  match event.call with
  | .isWindow _ | .isWindowVisible _ | .dwmGetWindowAttributeCloaked _ | .enumWindows => True
  | .getWindowText _ maxCount | .getClassName _ maxCount => maxCount = 256
  | _ => False

theorem checks_isWindowValid (hwnd : Hwnd) : (isWindowValid hwnd).Keeps Checking := by
  unfold isWindowValid
  split
  · exact Program.keeps_pure _
  refine keeps_os_bind (fun _ ↦ trivial) fun known ↦ ?_
  split
  · exact Program.keeps_pure _
  refine keeps_os_bind (fun _ ↦ trivial) fun visible ↦ ?_
  split
  · exact Program.keeps_pure _
  refine keeps_os_bind (fun _ ↦ rfl) fun title ↦ ?_
  split
  · exact Program.keeps_pure _
  refine keeps_os_bind (fun _ ↦ trivial) fun isUWP ↦ ?_
  split <;> exact Program.keeps_pure _

theorem inspects_isWindowValid (hwnd : Hwnd) : (isWindowValid hwnd).Keeps Inspecting := by
  refine (checks_isWindowValid hwnd).mono fun event h ↦ ?_
  obtain ⟨call, answer⟩ := event
  cases call <;> simp_all [Checking, Inspecting]

theorem inspects_enumerateWindows (manager : WindowManager) :
    (enumerateWindows manager).Keeps Inspecting := by
  refine keeps_os_bind (fun _ ↦ trivial) fun _ ↦ Program.keeps_bind ?_ fun _ ↦ Program.keeps_pure _
  refine Program.keeps_foldlM (fun manager hwnd ↦ ?_) _ _
  apply Program.keeps_bind (inspects_isWindowValid hwnd)
  intro valid
  split
  · exact Program.keeps_pure _
  · exact keeps_os_bind (fun _ ↦ rfl) fun _ ↦ keeps_os_bind (fun _ ↦ rfl) fun _ ↦
      Program.keeps_pure _

/-! ## The list as the calls tell it -/

/-- The texts that an entry of the list is made from. -/
structure Reading where
  handle : Hwnd
  title : WindowText
  className : WindowText
  deriving DecidableEq

def Reading.info (reading : Reading) : WindowInfo :=
  ⟨reading.handle, reading.title.units, reading.className.units⟩

/-- The title that has been read last. -/
def lastTitle (title : WindowText) : Event Os → WindowText
  | ⟨.getWindowText _ _, title⟩ => title
  | _ => title

/-- The class name is the last text that is read for an entry. -/
def reading (title : WindowText) : Event Os → Option Reading
  | ⟨.getClassName hwnd _, className⟩ => some ⟨hwnd, title, className⟩
  | _ => none

def readingsFrom (title : WindowText) : List (Event Os) → List Reading
  | [] => []
  | event :: rest => (reading title event).toList ++ readingsFrom (lastTitle title event) rest

/-- The texts of all entries, in their order. -/
def readings (trace : List (Event Os)) : List Reading := readingsFrom ⟨0, []⟩ trace

theorem readingsFrom_append (title : WindowText) (first second : List (Event Os)) :
    readingsFrom title (first ++ second) =
      readingsFrom title first ++ readingsFrom (first.foldl lastTitle title) second := by
  induction first generalizing title with
  | nil => rfl
  | cons event first ih =>
    rw [List.cons_append, readingsFrom, readingsFrom, ih, List.append_assoc, List.foldl_cons]

/-- Without a class name there is no entry. -/
def Unlisted (event : Event Os) : Prop :=
  match event.call with
  | .getClassName _ _ => False
  | _ => True

theorem readingsFrom_eq_nil {trace : List (Event Os)} (h : ∀ event ∈ trace, Unlisted event)
    (title : WindowText) : readingsFrom title trace = [] := by
  induction trace generalizing title with
  | nil => rfl
  | cons event trace ih =>
    obtain ⟨hevent, htrace⟩ := List.forall_mem_cons.1 h
    obtain ⟨call, answer⟩ := event
    rw [readingsFrom, ih htrace, List.append_nil]
    cases call <;> first | rfl | exact hevent.elim

theorem unlisted_isWindowValid (hwnd : Hwnd) : (isWindowValid hwnd).Keeps Unlisted := by
  refine (checks_isWindowValid hwnd).mono fun event h ↦ ?_
  obtain ⟨call, answer⟩ := event
  cases call <;> simp_all [Checking, Unlisted]

theorem readingsFrom_enumWindowsProc (manager : WindowManager) (hwnd : Hwnd) :
    (enumWindowsProc manager hwnd).Ensures fun trace manager' ↦ ∀ title,
      manager'.windowList = manager.windowList ++ (readingsFrom title trace).map Reading.info := by
  refine Program.ensures_bind.2 (Program.Ensures.mono (unlisted_isWindowValid hwnd) ?_)
  intro checking valid hunlisted
  have hchecking := readingsFrom_eq_nil hunlisted
  cases valid with
  | false =>
    refine Program.ensures_pure.2 fun title ↦ ?_
    rw [List.append_nil, hchecking, List.map_nil, List.append_nil]
  | true =>
    simp only [Program.ensures_bind, ensures_os, Program.ensures_pure, Bool.not_true,
      Bool.false_eq_true, if_false]
    intro read className title
    simp [readingsFrom_append, hchecking, readingsFrom, reading, lastTitle, Reading.info]

/-- The list has an entry for every reading. -/
theorem readings_enumerateWindows (manager : WindowManager) :
    (enumerateWindows manager).Ensures fun trace result ↦ ∀ title,
      result.1 = (readingsFrom title trace).map Reading.info := by
  have hfold (windows : List Hwnd) (manager : WindowManager) :
      (windows.foldlM enumWindowsProc manager).Ensures fun trace manager' ↦ ∀ title,
        manager'.windowList = manager.windowList ++ (readingsFrom title trace).map Reading.info := by
    induction windows generalizing manager with
    | nil => exact Program.ensures_pure.2 fun _ ↦ (List.append_nil _).symm
    | cons hwnd windows ih =>
      refine Program.ensures_bind.2 ((readingsFrom_enumWindowsProc manager hwnd).mono ?_)
      intro first middle hfirst
      refine (ih middle).mono fun second last hsecond title ↦ ?_
      rw [hsecond (first.foldl lastTitle title), hfirst title, readingsFrom_append, List.map_append,
        List.append_assoc]
  refine Program.ensures_bind.2 (ensures_os.2 fun windows ↦ ?_)
  refine Program.ensures_bind.2 ((hfold windows _).mono fun trace manager' hlist ↦ ?_)
  exact Program.ensures_pure.2 fun title ↦ by simpa [readingsFrom, reading] using hlist _

end WindowCaster.Server.WindowManagement
