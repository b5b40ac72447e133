import WindowCaster.Foundation.Coupling
import WindowCaster.Foundation.Transition
import WindowCaster.Server.Handling

/-!
# Independence of earlier requests

Two servers with different pasts handle the same request. They may have different handles to
release, and the system may give them different handles; but as long as it answers them alike, they
make the same calls up to these handles and return the same response. The exceptions are calls that
fail and leave a buffer of the server as it was, which the server does not notice: what it then draws
or lists comes out of memory that nobody has written for this request.
-/

namespace WindowCaster.Server.Independence

open Foundation.Interaction Foundation.Coupling Foundation.Text Foundation.Transition
open Win32 Protocol.Messages Protocol.Readers WindowManagement Rendering Handling

/-! ## Events without their handles -/

/-- The pairs of handles that corresponding calls of the two runs were given. -/
abbrev Names := List (UInt64 × UInt64)

/-- The device contexts and bitmaps among the arguments. -/
def handles : Call → List UInt64
  | .releaseDC _ dc | .createCompatibleDC dc | .deleteDC dc | .createCompatibleBitmap dc _ _
  | .setStretchBltModeHalftone dc | .setBrushOrgEx dc _ _ | .fillRect dc _ _ => [dc]
  | .deleteObject bitmap => [bitmap]
  | .selectObject dc bitmap | .setDIBits dc bitmap _ _ _ _ => [dc, bitmap]
  | .stretchBlt dcDest _ _ _ _ dcSrc _ _ _ _ => [dcDest, dcSrc]
  | _ => []

/-- The call with its device contexts and bitmaps blotted out. -/
def anonymous : Call → Call
  | .releaseDC hwnd _ => .releaseDC hwnd nullptr
  | .createCompatibleDC _ => .createCompatibleDC nullptr
  | .deleteDC _ => .deleteDC nullptr
  | .createCompatibleBitmap _ width height => .createCompatibleBitmap nullptr width height
  | .selectObject _ _ => .selectObject nullptr nullptr
  | .deleteObject _ => .deleteObject nullptr
  | .setDIBits _ _ start lines bits header => .setDIBits nullptr nullptr start lines bits header
  | .setStretchBltModeHalftone _ => .setStretchBltModeHalftone nullptr
  | .setBrushOrgEx _ x y => .setBrushOrgEx nullptr x y
  | .stretchBlt _ xDest yDest widthDest heightDest _ xSrc ySrc widthSrc heightSrc =>
    .stretchBlt nullptr xDest yDest widthDest heightDest nullptr xSrc ySrc widthSrc heightSrc
  | .fillRect _ rect brush => .fillRect nullptr rect brush
  | call => call

/-- Of a handle only whether there is one. -/
def present (handle : UInt64) : UInt64 := if handle = nullptr then nullptr else 1

/-- A call that fails does not answer for what is in the buffer. -/
def filledText (text : WindowText) : WindowText := if text.count = 0 then ⟨0, []⟩ else text

def filledRect (answer : Bool × Rect) : Bool × Rect :=
  if answer.1 then answer else (false, ⟨0, 0, 0, 0⟩)

/-- The event without its handles, and without the contents of a buffer that has not been filled. -/
def anonymousEvent : Event Os → Event Os
  | ⟨.getWindowText hwnd maxCount, text⟩ => ⟨.getWindowText hwnd maxCount, filledText text⟩
  | ⟨.getClassName hwnd maxCount, text⟩ => ⟨.getClassName hwnd maxCount, filledText text⟩
  | ⟨.getClientRect hwnd, answer⟩ => ⟨.getClientRect hwnd, filledRect answer⟩
  | ⟨.getDC hwnd, dc⟩ => ⟨.getDC hwnd, present dc⟩
  | ⟨.releaseDC hwnd _, answer⟩ => ⟨.releaseDC hwnd nullptr, answer⟩
  | ⟨.createCompatibleDC _, dc⟩ => ⟨.createCompatibleDC nullptr, present dc⟩
  | ⟨.deleteDC _, answer⟩ => ⟨.deleteDC nullptr, answer⟩
  | ⟨.createCompatibleBitmap _ width height, bitmap⟩ =>
    ⟨.createCompatibleBitmap nullptr width height, present bitmap⟩
  | ⟨.selectObject _ _, previous⟩ => ⟨.selectObject nullptr nullptr, present previous⟩
  | ⟨.deleteObject _, answer⟩ => ⟨.deleteObject nullptr, answer⟩
  | ⟨.setDIBits _ _ start lines bits header, answer⟩ =>
    ⟨.setDIBits nullptr nullptr start lines bits header, answer⟩
  | ⟨.setStretchBltModeHalftone _, answer⟩ => ⟨.setStretchBltModeHalftone nullptr, answer⟩
  | ⟨.setBrushOrgEx _ x y, answer⟩ => ⟨.setBrushOrgEx nullptr x y, answer⟩
  | ⟨.stretchBlt _ xDest yDest widthDest heightDest _ xSrc ySrc widthSrc heightSrc, answer⟩ =>
    ⟨.stretchBlt nullptr xDest yDest widthDest heightDest nullptr xSrc ySrc widthSrc heightSrc, answer⟩
  | ⟨.fillRect _ rect brush, answer⟩ => ⟨.fillRect nullptr rect brush, answer⟩
  | event => event

/-- The handle that the event has brought, if any. -/
def acquired : Event Os → Option UInt64
  | ⟨.getDC _, handle⟩ | ⟨.createCompatibleDC _, handle⟩ | ⟨.createCompatibleBitmap _ _ _, handle⟩ =>
    if handle = nullptr then none else some handle
  | _ => none

/-- The same call, where corresponding handles were acquired by corresponding calls. -/
def SameCall (names : Names) (call call' : Call) : Prop :=
  anonymous call = anonymous call' ∧
    List.Forall₂ (fun handle handle' ↦ (handle, handle') ∈ names) (handles call) (handles call')

def extend (names : Names) (event event' : Event Os) : Names :=
  match acquired event, acquired event' with
  | some handle, some handle' => (handle, handle') :: names
  | _, _ => names

/-! ## Buffers that have been filled -/

/-- `GetClientRect` has not failed. -/
def Measured : Event Os → Prop
  | ⟨.getClientRect _, answer⟩ => answer.1 = true
  | _ => True

/-- Neither of the two texts of an entry has failed. -/
def Read (reading : Reading) : Prop := reading.title.count ≠ 0 ∧ reading.className.count ≠ 0

/-- No call has failed whose buffer is used afterwards. A text that `IsWindowValid` cannot get is
not used. -/
structure Filled (trace : List (Event Os)) : Prop where
  measured : ∀ event ∈ trace, Measured event
  read : ∀ reading ∈ readings trace, Read reading

/-- A part of such a trace; the title of its first entry may have been read before. -/
def FilledPart (trace : List (Event Os)) : Prop :=
  (∀ event ∈ trace, Measured event) ∧ ∃ title, ∀ reading ∈ readingsFrom title trace, Read reading

theorem FilledPart.of_append {first second : List (Event Os)} (h : FilledPart (first ++ second)) :
    FilledPart first ∧ FilledPart second := by
  obtain ⟨hmeasured, title, hread⟩ := h
  rw [List.forall_mem_append] at hmeasured
  rw [readingsFrom_append, List.forall_mem_append] at hread
  exact ⟨⟨hmeasured.1, title, hread.1⟩, hmeasured.2, _, hread.2⟩

/-- Runs of the server are compared without the releases, up to the identity of the handles. -/
def byName : Matching Os Names where
  silent := Renderer.releasing
  sameCall := SameCall
  sameAnswer event event' := anonymousEvent event = anonymousEvent event'
  extend := extend
  assumed := FilledPart
  assumed_of_append := FilledPart.of_append

/-- The calls without device contexts, bitmaps and buffers. -/
def Anonymous (event : Event Os) : Prop :=
  match event.call with
  | .getWindowText _ _ | .getClassName _ _ | .getClientRect _ | .getDC _ | .releaseDC _ _ | .createCompatibleDC _ | .deleteDC _ | .createCompatibleBitmap _ _ _
  | .selectObject _ _ | .deleteObject _ | .setDIBits _ _ _ _ _ _ | .setStretchBltModeHalftone _
  | .setBrushOrgEx _ _ _ | .stretchBlt _ _ _ _ _ _ _ _ _ _ | .fillRect _ _ _ => False
  | _ => True

theorem plain_of_anonymous {event : Event Os} (h : Anonymous event) : byName.Plain event := by
  obtain ⟨call, answer⟩ := event
  cases call <;> first
    | exact h.elim
    | exact ⟨rfl, fun _ ↦ ⟨rfl, .nil⟩, fun _ hanswer ↦ (eq_of_heq (Event.mk.inj hanswer).2).symm,
        fun _ ↦ rfl⟩

theorem mem_extend {names : Names} {pair : UInt64 × UInt64} (h : pair ∈ names)
    (event event' : Event Os) : pair ∈ extend names event event' := by
  unfold extend
  split
  · exact List.mem_cons_of_mem _ h
  · exact h

theorem present_eq_present {handle handle' : UInt64} (h : present handle = present handle') :
    handle = nullptr ↔ handle' = nullptr := by
  have hne : (1 : UInt64) ≠ nullptr := by decide
  unfold present at h
  split at h <;> split at h <;> simp_all

/-! ## Rules for calls -/

section Rules

variable {names : Names} {α β : Type} {post : Names → α → β → Prop}

theorem coupled_os_bind {call call' : Call} {after : call.Answer → Program Os α}
    {after' : call'.Answer → Program Os β} (hcall : SameCall names call call')
    (hvisible : Renderer.releasing call = false) (hvisible' : Renderer.releasing call' = false)
    (h : ∀ answer answer', anonymousEvent ⟨call, answer⟩ = anonymousEvent ⟨call', answer'⟩ →
      Program.Coupled byName (extend names ⟨call, answer⟩ ⟨call', answer'⟩) (after answer)
        (after' answer') post) :
    Program.Coupled byName names (os call >>= after) (os call' >>= after') post := by
  have hperform : Program.Coupled byName names (os call) (os call') fun next answer answer' ↦
      Program.Coupled byName next (after answer) (after' answer') post :=
    Program.coupled_perform (I := Os) hvisible hvisible' hcall fun answer answer' _ ↦ h answer answer'
  exact hperform.bind fun _ _ _ hafter ↦ hafter

theorem coupled_anonymous_bind {call : Call} {after : call.Answer → Program Os α}
    {after' : call.Answer → Program Os β} (hcall : ∀ answer, Anonymous ⟨call, answer⟩)
    (h : ∀ answer, Program.Coupled byName names (after answer) (after' answer) post) :
    Program.Coupled byName names (os call >>= after) (os call >>= after') post := by
  have hplain : (os call).Keeps byName.Plain := keeps_os.2 fun answer ↦ plain_of_anonymous (hcall answer)
  refine hplain.coupled.bind ?_
  rintro _ answer _ ⟨rfl, rfl⟩
  exact h answer

/-- A rectangle that has been filled is the same in both runs. -/
theorem coupled_getClientRect_bind {hwnd : Hwnd} {after : Bool × Rect → Program Os α}
    {after' : Bool × Rect → Program Os β}
    (h : ∀ answer, Program.Coupled byName names (after answer) (after' answer) post) :
    Program.Coupled byName names (os (.getClientRect hwnd) >>= after)
      (os (.getClientRect hwnd) >>= after') post := by
  have hperform : Program.Coupled byName names (os (.getClientRect hwnd)) (os (.getClientRect hwnd))
      fun next answer answer' ↦ next = names ∧ answer = answer' := by
    refine Program.coupled_perform (I := Os) rfl rfl ?_ ?_
    · exact ⟨rfl, .nil⟩
    rintro answer answer' ⟨hmeasured, -⟩ hanswer
    have hok : answer.1 = true := hmeasured _ (List.mem_singleton_self _)
    have hanswer : filledRect answer = filledRect answer' := eq_of_heq (Event.mk.inj hanswer).2
    refine ⟨rfl, ?_⟩
    rw [filledRect, if_pos hok, filledRect] at hanswer
    split at hanswer
    · exact hanswer
    · rw [hanswer] at hok
      cases hok
  refine hperform.bind ?_
  rintro _ answer _ ⟨rfl, rfl⟩
  exact h answer

end Rules

/-! ## The window manager -/

theorem count_filledText (text : WindowText) : (filledText text).count = text.count := by
  unfold filledText
  split
  · next hcount => exact hcount.symm
  · rfl

/-- Of the title only the count matters. -/
theorem coupled_isWindowValid (names : Names) (hwnd : Hwnd) :
    Program.Coupled byName names (isWindowValid hwnd) (isWindowValid hwnd) fun last valid valid' ↦
      last = names ∧ valid = valid' := by
  unfold isWindowValid
  split
  · exact Program.coupled_pure ⟨rfl, rfl⟩
  refine coupled_anonymous_bind (fun _ ↦ trivial) fun known ↦ ?_
  split
  · exact Program.coupled_pure ⟨rfl, rfl⟩
  refine coupled_anonymous_bind (fun _ ↦ trivial) fun visible ↦ ?_
  split
  · exact Program.coupled_pure ⟨rfl, rfl⟩
  refine coupled_os_bind ⟨rfl, .nil⟩ rfl rfl fun title title' htitle ↦ ?_
  have hcount : title.count = title'.count := by
    have hfilled : filledText title = filledText title' := eq_of_heq (Event.mk.inj htitle).2
    rw [← count_filledText title, hfilled, count_filledText]
  rw [← hcount]
  split
  · exact Program.coupled_pure ⟨rfl, rfl⟩
  refine coupled_anonymous_bind (fun _ ↦ trivial) fun isUWP ↦ ?_
  split
  · exact Program.coupled_pure ⟨rfl, rfl⟩
  · exact Program.coupled_pure ⟨rfl, rfl⟩

theorem eq_of_filledText {text text' : WindowText} (h : filledText text = filledText text')
    (hcount : text.count ≠ 0) : text = text' := by
  unfold filledText at h
  rw [if_neg hcount] at h
  split at h
  · rw [h] at hcount
    exact absurd rfl hcount
  · exact h

/-- The two texts of an entry are the same in both runs if neither has failed. -/
theorem coupled_readTexts {α : Type} (names : Names) (hwnd : Hwnd)
    (entry : WindowText → WindowText → α) :
    let program : Program Os α := do
      let title : WindowText ← os (.getWindowText hwnd 256)
      let className : WindowText ← os (.getClassName hwnd 256)
      return entry title className
    Program.Coupled byName names program program fun last result result' ↦
      last = names ∧ result = result' := by
  intro program
  rintro _ _ ⟨title, _, rfl, className, _, rfl, rfl, rfl⟩ ⟨-, before, hread⟩ _ _
    ⟨title', _, rfl, className', _, rfl, rfl, rfl⟩ halike
  obtain ⟨htitle, hclass⟩ : Read ⟨hwnd, title, className⟩ := hread _ (List.mem_singleton_self _)
  obtain ⟨hsameTitle, halike⟩ := halike ⟨rfl, .nil⟩
  obtain ⟨hsameClass, -⟩ := halike ⟨rfl, .nil⟩
  obtain rfl := eq_of_filledText (eq_of_heq (Event.mk.inj hsameTitle).2) htitle
  obtain rfl := eq_of_filledText (eq_of_heq (Event.mk.inj hsameClass).2) hclass
  exact ⟨names, .cons ⟨rfl, .nil⟩ rfl (.cons ⟨rfl, .nil⟩ rfl .nil), rfl, rfl⟩

/-- The window list is cleared before it is filled. -/
theorem coupled_enumerateWindows (names : Names) (manager manager' : WindowManager) :
    Program.Coupled byName names (enumerateWindows manager) (enumerateWindows manager')
      fun last result result' ↦ last = names ∧ result = result' := by
  have hproc (manager : WindowManager) (hwnd : Hwnd) :
      Program.Coupled byName names (enumWindowsProc manager hwnd) (enumWindowsProc manager hwnd)
        fun last result result' ↦ last = names ∧ result = result' := by
    refine (coupled_isWindowValid names hwnd).bind ?_
    rintro _ valid _ ⟨rfl, rfl⟩
    cases valid with
    | false => exact Program.coupled_pure ⟨rfl, rfl⟩
    | true =>
      exact coupled_readTexts _ hwnd fun title className ↦ ({ manager with
        windowList := manager.windowList ++ [⟨hwnd, title.units, className.units⟩] } : WindowManager)
  refine coupled_anonymous_bind (fun _ ↦ trivial) fun windows ↦ ?_
  refine (Program.coupled_foldlM hproc windows ⟨[]⟩).bind ?_
  rintro _ filled _ ⟨rfl, rfl⟩
  exact Program.coupled_pure ⟨rfl, rfl⟩

/-! ## The renderer -/

/-- Handles that corresponding calls were given, and neither of them null. -/
structure Paired (names : Names) (handle handle' : UInt64) : Prop where
  mem : (handle, handle') ∈ names
  ne_nullptr : handle ≠ nullptr
  ne_nullptr' : handle' ≠ nullptr

theorem Paired.extend {names : Names} {handle handle' : UInt64} (h : Paired names handle handle')
    (event event' : Event Os) : Paired (extend names event event') handle handle' :=
  ⟨mem_extend h.mem event event', h.ne_nullptr, h.ne_nullptr'⟩

/-- Two new handles become a pair. -/
theorem paired_acquired (names : Names) (event event' : Event Os) {handle handle' : UInt64}
    (h : acquired event = if handle = nullptr then none else some handle)
    (h' : acquired event' = if handle' = nullptr then none else some handle')
    (hne : handle ≠ nullptr) (hne' : handle' ≠ nullptr) :
    Paired (Independence.extend names event event') handle handle' := by
  rw [if_neg hne] at h
  rw [if_neg hne'] at h'
  exact ⟨by simp [Independence.extend, h, h'], hne, hne'⟩

/-- Renderers with the same target and with device contexts that correspond. -/
structure Twins (names : Names) (renderer renderer' : Renderer) : Prop where
  targetWindow : renderer.targetWindow = renderer'.targetWindow
  targetWindow_ne_nullptr : renderer.targetWindow ≠ nullptr
  windowDC : Paired names renderer.windowDC renderer'.windowDC
  memoryDC : Paired names renderer.memoryDC renderer'.memoryDC

theorem Twins.extend {names : Names} {renderer renderer' : Renderer}
    (h : Twins names renderer renderer') (event event' : Event Os) :
    Twins (extend names event event') renderer renderer' :=
  ⟨h.targetWindow, h.targetWindow_ne_nullptr, h.windowDC.extend event event', h.memoryDC.extend event event'⟩

theorem coupled_cleanup (names : Names) (renderer renderer' : Renderer) :
    Program.Coupled byName names renderer.cleanup renderer'.cleanup fun next cleaned cleaned' ↦
      next = names ∧ cleaned.bitmap = nullptr ∧ cleaned'.bitmap = nullptr :=
  Program.coupled_of_silent
    (Program.Ensures.and (Renderer.releases_cleanup renderer) (Renderer.ensures_cleanup renderer))
    (Program.Ensures.and (Renderer.releases_cleanup renderer') (Renderer.ensures_cleanup renderer'))

theorem plain_bringToFront (hwnd : Hwnd) : (Renderer.bringToFront hwnd).Keeps byName.Plain := by
  refine (Renderer.rearranges_bringToFront hwnd).mono fun event h ↦ plain_of_anonymous ?_
  obtain ⟨call, answer⟩ := event
  cases call <;> simp_all [Renderer.Rearranging, Anonymous]

theorem coupled_initializeFor (names : Names) (renderer renderer' : Renderer) (hwnd : Hwnd) :
    Program.Coupled byName names (renderer.initializeFor hwnd) (renderer'.initializeFor hwnd)
      fun last result result' ↦ result.1 = result'.1 ∧ (result.1 = true →
        Twins last result.2 result'.2 ∧ result.2.bitmap = nullptr ∧ result'.2.bitmap = nullptr) := by
  unfold Renderer.initializeFor
  by_cases hnull : hwnd = nullptr
  · rw [if_pos hnull, if_pos hnull]
    exact Program.coupled_pure ⟨rfl, by simp⟩
  rw [if_neg hnull, if_neg hnull]
  refine coupled_anonymous_bind (fun _ ↦ trivial) fun known ↦ ?_
  cases known with
  | false => exact Program.coupled_pure ⟨rfl, by simp⟩
  | true =>
  refine (coupled_cleanup names renderer renderer').bind ?_
  rintro next cleaned cleaned' ⟨-, hbitmap, hbitmap'⟩
  refine coupled_os_bind ⟨rfl, .nil⟩ rfl rfl fun windowDC windowDC' hdc ↦ ?_
  have hdc := present_eq_present (eq_of_heq (Event.mk.inj hdc).2)
  by_cases hdcNull : windowDC = nullptr
  · rw [if_pos hdcNull, if_pos (hdc.1 hdcNull)]
    exact Program.coupled_pure ⟨rfl, by simp⟩
  rw [if_neg hdcNull, if_neg (mt hdc.2 hdcNull)]
  have hwindow := paired_acquired next ⟨.getDC hwnd, windowDC⟩ ⟨.getDC hwnd, windowDC'⟩ rfl rfl
    hdcNull (mt hdc.2 hdcNull)
  refine coupled_os_bind ⟨rfl, .cons hwindow.mem .nil⟩ rfl rfl fun memoryDC memoryDC' hmemory ↦ ?_
  have hmemory := present_eq_present (eq_of_heq (Event.mk.inj hmemory).2)
  by_cases hmemoryNull : memoryDC = nullptr
  · rw [if_pos hmemoryNull, if_pos (hmemory.1 hmemoryNull)]
    have hrelease (dc : Hdc) : (os (.releaseDC hwnd dc)).Ensures fun trace _ ↦
        (∀ event ∈ trace, byName.silent event.call) ∧ True :=
      ensures_os.2 fun _ ↦ ⟨List.forall_mem_singleton.2 rfl, trivial⟩
    exact (Program.coupled_of_silent (hrelease windowDC) (hrelease windowDC')).bind
      fun _ _ _ _ ↦ Program.coupled_pure ⟨rfl, by simp⟩
  rw [if_neg hmemoryNull, if_neg (mt hmemory.2 hmemoryNull)]
  refine (plain_bringToFront hwnd).coupled.bind ?_
  rintro _ _ _ ⟨rfl, rfl⟩
  refine Program.coupled_pure ⟨rfl, fun _ ↦ ⟨⟨rfl, hnull, hwindow.extend _ _, ?_⟩, hbitmap, hbitmap'⟩⟩
  exact paired_acquired _ _ _ rfl rfl hmemoryNull (mt hmemory.2 hmemoryNull)

/-- Whatever sizes the two renderers remember, neither has a bitmap to reuse. -/
theorem coupled_createCompatibleBitmap {names : Names} {renderer renderer' : Renderer}
    (htwins : Twins names renderer renderer') (hbitmap : renderer.bitmap = nullptr)
    (hbitmap' : renderer'.bitmap = nullptr) (width height : UInt64) :
    Program.Coupled byName names (renderer.createCompatibleBitmap width height)
      (renderer'.createCompatibleBitmap width height) fun last result result' ↦
        result.1 = result'.1 ∧ (result.1 = true → Twins last result.2 result'.2 ∧
          Paired last result.2.bitmap result'.2.bitmap) := by
  have hcontexts : ¬ (renderer.windowDC = nullptr ∨ renderer.memoryDC = nullptr) := by
    simp [htwins.windowDC.ne_nullptr, htwins.memoryDC.ne_nullptr]
  have hcontexts' : ¬ (renderer'.windowDC = nullptr ∨ renderer'.memoryDC = nullptr) := by
    simp [htwins.windowDC.ne_nullptr', htwins.memoryDC.ne_nullptr']
  unfold Renderer.createCompatibleBitmap Renderer.deleteBitmap
  rw [if_neg hcontexts, if_neg hcontexts', if_neg fun h ↦ h.1 hbitmap, if_pos hbitmap,
    if_neg fun h ↦ h.1 hbitmap', if_pos hbitmap']
  refine coupled_os_bind ⟨rfl, .cons htwins.windowDC.mem .nil⟩ rfl rfl fun bitmap bitmap' hcreated ↦ ?_
  have hcreated := present_eq_present (eq_of_heq (Event.mk.inj hcreated).2)
  by_cases hnull : bitmap = nullptr
  · rw [if_pos hnull, if_pos (hcreated.1 hnull)]
    exact Program.coupled_pure ⟨rfl, by simp⟩
  rw [if_neg hnull, if_neg (mt hcreated.2 hnull)]
  have hpaired := paired_acquired names
    ⟨.createCompatibleBitmap renderer.windowDC (toLong width) (toLong height), bitmap⟩
    ⟨.createCompatibleBitmap renderer'.windowDC (toLong width) (toLong height), bitmap'⟩ rfl rfl
    hnull (mt hcreated.2 hnull)
  have htwins := htwins.extend
    ⟨.createCompatibleBitmap renderer.windowDC (toLong width) (toLong height), bitmap⟩
    ⟨.createCompatibleBitmap renderer'.windowDC (toLong width) (toLong height), bitmap'⟩
  refine coupled_os_bind ⟨rfl, .cons htwins.memoryDC.mem (.cons hpaired.mem .nil)⟩ rfl rfl
    fun _ _ _ ↦ Program.coupled_pure ⟨rfl, fun _ ↦ ⟨?_, hpaired.extend _ _⟩⟩
  exact ⟨htwins.targetWindow, htwins.targetWindow_ne_nullptr, htwins.windowDC.extend _ _,
    htwins.memoryDC.extend _ _⟩

theorem coupled_renderImageFrame {names : Names} {renderer renderer' : Renderer}
    (htwins : Twins names renderer renderer') (hbitmap : renderer.bitmap = nullptr)
    (hbitmap' : renderer'.bitmap = nullptr) (imageData : Bytes)
    (width height : UInt64) :
    Program.Coupled byName names (renderer.renderImageFrame imageData width height)
      (renderer'.renderImageFrame imageData width height) fun _ result result' ↦
        result.1 = result'.1 := by
  have hready : ¬ (renderer.windowDC = nullptr ∨ renderer.memoryDC = nullptr ∨
      renderer.targetWindow = nullptr) := by
    simp [htwins.windowDC.ne_nullptr, htwins.memoryDC.ne_nullptr, htwins.targetWindow_ne_nullptr]
  have hready' : ¬ (renderer'.windowDC = nullptr ∨ renderer'.memoryDC = nullptr ∨
      renderer'.targetWindow = nullptr) := by
    simp [htwins.windowDC.ne_nullptr', htwins.memoryDC.ne_nullptr', ← htwins.targetWindow,
      htwins.targetWindow_ne_nullptr]
  unfold Renderer.renderImageFrame
  rw [if_neg hready, if_neg hready']
  refine (coupled_createCompatibleBitmap htwins hbitmap hbitmap' width height).bind ?_
  rintro next ⟨created, renderer⟩ ⟨created', renderer'⟩ ⟨hcreated, h⟩
  obtain rfl : created = created' := hcreated
  cases created with
  | false => exact Program.coupled_pure rfl
  | true =>
  obtain ⟨htwins, hpaired⟩ := h rfl
  refine coupled_os_bind ⟨rfl, .cons htwins.windowDC.mem (.cons hpaired.mem .nil)⟩ rfl rfl
    fun copied copied' hcopied ↦ ?_
  obtain rfl : copied = copied' := eq_of_heq (Event.mk.inj hcopied).2
  by_cases hnone : copied = 0
  · rw [if_pos hnone, if_pos hnone]
    exact Program.coupled_pure rfl
  rw [if_neg hnone, if_neg hnone, htwins.targetWindow]
  refine coupled_getClientRect_bind fun rect ↦ ?_
  refine coupled_os_bind ⟨rfl, .cons htwins.windowDC.mem .nil⟩ rfl rfl fun _ _ _ ↦ ?_
  refine coupled_os_bind ⟨rfl, .cons htwins.windowDC.mem .nil⟩ rfl rfl fun _ _ _ ↦ ?_
  refine coupled_os_bind ⟨rfl, .cons htwins.windowDC.mem (.cons htwins.memoryDC.mem .nil)⟩ rfl rfl
    fun success success' hsuccess ↦ Program.coupled_pure ?_
  exact eq_of_heq (Event.mk.inj hsuccess).2

theorem coupled_clear {names : Names} {renderer renderer' : Renderer}
    (htwins : Twins names renderer renderer') :
    Program.Coupled byName names renderer.clear renderer'.clear fun _ _ _ ↦ True := by
  unfold Renderer.clear
  rw [← htwins.targetWindow, if_pos ⟨htwins.windowDC.ne_nullptr, htwins.targetWindow_ne_nullptr⟩,
    if_pos ⟨htwins.windowDC.ne_nullptr', htwins.targetWindow_ne_nullptr⟩]
  refine coupled_getClientRect_bind fun rect ↦ ?_
  refine coupled_anonymous_bind (fun _ ↦ trivial) fun brush ↦ ?_
  exact coupled_os_bind ⟨rfl, .cons htwins.windowDC.mem .nil⟩ rfl rfl
    fun _ _ _ ↦ Program.coupled_pure trivial

/-! ## The handlers -/

theorem coupled_handleGetWindowList (names : Names) (server server' : WindowCasterServer) :
    Program.Coupled byName names server.handleGetWindowList server'.handleGetWindowList
      fun _ result result' ↦ result.1 = result'.1 := by
  have hwindow (window : WindowManagement.WindowInfo) :
      (WindowCasterServer.addWindow window).Keeps byName.Plain :=
    WindowCasterServer.keeps_addWindow (fun _ _ _ ↦ plain_of_anonymous trivial) window
  refine (coupled_enumerateWindows names _ _).bind ?_
  rintro _ ⟨windows, manager⟩ _ ⟨rfl, rfl⟩
  refine (Program.keeps_mapM hwindow windows).coupled.bind ?_
  rintro _ infos _ ⟨rfl, rfl⟩
  exact Program.coupled_pure rfl

theorem coupled_validateAndInitialize (names : Names) (server server' : WindowCasterServer)
    (hwnd : Hwnd) (status : Status) :
    Program.Coupled byName names (server.validateAndInitialize hwnd status)
      (server'.validateAndInitialize hwnd status) fun last result result' ↦
        result.1 = result'.1 ∧ result.2.1 = result'.2.1 ∧ (result.1 = true →
          Twins last result.2.2.renderer result'.2.2.renderer ∧
            result.2.2.renderer.bitmap = nullptr ∧ result'.2.2.renderer.bitmap = nullptr) := by
  refine (coupled_isWindowValid names hwnd).bind ?_
  rintro _ valid _ ⟨rfl, rfl⟩
  cases valid with
  | false => exact Program.coupled_pure ⟨rfl, rfl, by simp⟩
  | true =>
  refine (coupled_initializeFor _ server.renderer server'.renderer hwnd).bind ?_
  rintro next ⟨ready, renderer⟩ ⟨ready', renderer'⟩ ⟨hready, htwins⟩
  obtain rfl : ready = ready' := hready
  cases ready with
  | false => exact Program.coupled_pure ⟨rfl, rfl, by simp⟩
  | true => exact Program.coupled_pure ⟨rfl, rfl, htwins⟩

/-- What both handlers that draw have in common: the same report if the target is not accepted or the
renderer not ready, and otherwise whatever they do with renderers that hold no bitmap. -/
theorem coupled_validated (names : Names) (server server' : WindowCasterServer) (hwnd : Hwnd)
    (status : Status)
    {rest : Bool × Status × WindowCasterServer →
      Program Os (ServerResponse Bytes × WindowCasterServer)}
    (hreport : ∀ status server, rest (false, status, server) = pure (⟨some status, none⟩, server))
    (hdraw : ∀ next status server server', Twins next server.renderer server'.renderer →
      server.renderer.bitmap = nullptr → server'.renderer.bitmap = nullptr →
        Program.Coupled byName next (rest (true, status, server)) (rest (true, status, server'))
          fun _ result result' ↦ result.1 = result'.1) :
    Program.Coupled byName names (server.validateAndInitialize hwnd status >>= rest)
      (server'.validateAndInitialize hwnd status >>= rest) fun _ result result' ↦
        result.1 = result'.1 := by
  apply (coupled_validateAndInitialize names server server' hwnd status).bind
  rintro next ⟨ready, status, server⟩ ⟨ready', status', server'⟩ ⟨hready, hstatus, h⟩
  obtain rfl : ready = ready' := hready
  obtain rfl : status = status' := hstatus
  cases ready with
  | false =>
    rw [hreport, hreport]
    exact Program.coupled_pure rfl
  | true =>
    obtain ⟨htwins, hbitmap, hbitmap'⟩ := h rfl
    exact hdraw next status server server' htwins hbitmap hbitmap'

/-- The same request is answered alike from any two states of the server. -/
theorem coupled_dispatch (names : Names) (server server' : WindowCasterServer)
    (request : ClientRequest) :
    Program.Coupled byName names (server.dispatch request) (server'.dispatch request)
      fun _ result result' ↦ result.1 = result'.1 := by
  obtain ⟨_ | _ | command | command⟩ := request
  · exact Program.coupled_pure rfl
  · exact coupled_handleGetWindowList names server server'
  · apply coupled_validated names server server' _ _ fun _ _ ↦ rfl
    intro next status server server' htwins hbitmap hbitmap'
    have hframe (imageData : Bytes) (width height : UInt64) :=
      coupled_renderImageFrame htwins hbitmap hbitmap' imageData width height
    obtain ⟨_, _ | image | video⟩ := command
    · exact Program.coupled_pure rfl
    · apply (hframe _ _ _).bind
      rintro _ ⟨success, renderer⟩ ⟨success', renderer'⟩ hsuccess
      obtain rfl : success = success' := hsuccess
      exact Program.coupled_pure rfl
    · apply (hframe _ _ _).bind
      rintro _ ⟨success, renderer⟩ ⟨success', renderer'⟩ hsuccess
      obtain rfl : success = success' := hsuccess
      exact Program.coupled_pure rfl
  · apply coupled_validated names server server' _ _ fun _ _ ↦ rfl
    intro next status server server' htwins _ _
    apply (coupled_clear htwins).bind
    intro _ _ _ _
    exact Program.coupled_pure rfl

theorem coupled_respond (codec : Codec) (names : Names) (server server' : WindowCasterServer)
    (message : Bytes) :
    Program.Coupled byName names (server.respond codec message) (server'.respond codec message)
      fun _ result result' ↦ result.1 = result'.1 := by
  unfold WindowCasterServer.respond
  cases codec.parseFromString message with
  | none => exact Program.coupled_pure rfl
  | some request =>
    refine (coupled_dispatch names server server' request).bind ?_
    rintro _ ⟨response, server⟩ ⟨response', server'⟩ hresponse
    obtain rfl : response = response' := hresponse
    exact Program.coupled_pure rfl

/-! ## Drawing calls -/

/-- The calls that draw on the target window or prepare its picture. -/
def drawing : Call → Bool
  | .setDIBits _ _ _ _ _ _ | .stretchBlt _ _ _ _ _ _ _ _ _ _ | .fillRect _ _ _ => true
  | _ => false

def drawings (trace : List (Event Os)) : List Call := (trace.map Event.call).filter drawing

theorem drawing_anonymous (call : Call) : drawing (anonymous call) = drawing call := by
  cases call <;> rfl

theorem drawings_visible (trace : List (Event Os)) :
    drawings (byName.visible trace) = drawings trace := by
  have hvisible (event : Event Os) :
      (drawing event.call && !Renderer.releasing event.call) = drawing event.call := by
    cases event.call <;> rfl
  simp [drawings, Matching.visible, byName, List.filter_map, Function.comp_def, hvisible]

theorem SameCall.extend {names : Names} {call call' : Call} (event event' : Event Os)
    (h : SameCall names call call') : SameCall (extend names event event') call call' :=
  ⟨h.1, h.2.imp fun _ _ hpair ↦ mem_extend hpair event event'⟩

/-- If all calls correspond, so do the drawing calls among them. -/
theorem forall₂_drawings {names last : Names} {trace trace' : List (Event Os)}
    (h : byName.Matched names (byName.visible trace) (byName.visible trace') last) :
    List.Forall₂ (SameCall last) (drawings trace) (drawings trace') := by
  have hcalls := h.forall₂ fun event event' ↦ SameCall.extend event event'
  have hdrawing : ∀ ⦃call call'⦄, SameCall last call call' → (drawing call ↔ drawing call') := by
    intro call call' hcall
    rw [← drawing_anonymous call, hcall.1, drawing_anonymous]
  rw [← drawings_visible trace, ← drawings_visible trace']
  exact List.rel_filter hdrawing hcalls

/-! ## Requests of any clients -/

/-- A system that answers the calls made for a message alike gets the same response to it and the
same drawing calls, up to the identity of the handles, whatever the server has handled before. -/
def Independent (codec : Codec) (handled : Handled) : Prop :=
  ∀ history handled' server, (handlings codec).Run (history ++ [handled']) server →
    handled'.message = handled.message → (∀ event ∈ handled'.trace, Documented event) →
    byName.Alike [] (byName.visible handled.trace) (byName.visible handled'.trace) →
    handled'.response = handled.response ∧
      List.Forall₂
        (SameCall (byName.namesFrom [] (byName.visible handled.trace) (byName.visible handled'.trace)))
        (drawings handled.trace) (drawings handled'.trace)

theorem independent_of_filled {codec : Codec} {history : List Handled} {handled : Handled}
    {server : WindowCasterServer} (hrun : (handlings codec).Run (history ++ [handled]) server)
    (hfilled : Filled handled.trace) : Independent codec handled := by
  rintro history' ⟨_, trace', response'⟩ server' hrun' rfl - halike
  obtain ⟨before, -, hruns⟩ := hrun.of_concat
  obtain ⟨before', -, hruns'⟩ := hrun'.of_concat
  have hcoupled := coupled_respond codec [] before before' handled.message
  obtain ⟨names, hmatched, hresponse⟩ := hcoupled _ _ hruns
    ⟨hfilled.measured, ⟨0, []⟩, hfilled.read⟩ _ _ hruns' halike
  obtain rfl := hmatched.eq_namesFrom
  exact ⟨hresponse.symm, forall₂_drawings hmatched⟩

end WindowCaster.Server.Independence
