import WindowCaster.Foundation.PixelLayout
import WindowCaster.Server.Handling

/-!
# Where `SetDIBits` reads

For every render command and every behaviour of the system, the handler either is refused by a call
before `SetDIBits` and reports a failure, or calls `SetDIBits` once with the data and the size of
the command. Nothing on the way compares the size with the length of the data, so the read stays
inside the data exactly when the sender has taken care of it.
-/

namespace WindowCaster.Server.PixelReads

open Foundation.Interaction Foundation.PixelLayout Foundation.Text Win32
open Protocol.Messages WindowManagement Rendering Handling

/-- What one call of `SetDIBits` was given. -/
structure PixelRead where
  lines : UInt32
  bits : Bytes
  header : BitmapInfoHeader
  deriving DecidableEq

def pixelRead : Event Os → Option PixelRead
  | ⟨.setDIBits _ _ _ lines bits header, _⟩ => some ⟨lines, bits, header⟩
  | _ => none

/-- The calls of `SetDIBits` in a run, in their order. -/
def pixelReads (trace : List (Event Os)) : List PixelRead := trace.filterMap pixelRead

/-- The answers of the calls before `SetDIBits` that make the server give up a request. -/
def Refuses : Event Os → Prop
  | ⟨.isWindow _, answer⟩ => answer = false
  | ⟨.isWindowVisible _, answer⟩ => answer = false
  | ⟨.getWindowText _ _, answer⟩ => answer.count = 0
  | ⟨.dwmGetWindowAttributeCloaked _, answer⟩ => answer.any (· ≠ 0)
  | ⟨.getDC _, answer⟩ => answer = nullptr
  | ⟨.createCompatibleDC _, answer⟩ => answer = nullptr
  | ⟨.createCompatibleBitmap _ _ _, answer⟩ => answer = nullptr
  | _ => False

def Refused (trace : List (Event Os)) : Prop := ∃ event ∈ trace, Refuses event

@[simp]
theorem pixelReads_nil : pixelReads [] = [] := rfl

@[simp]
theorem pixelReads_cons (event : Event Os) (trace : List (Event Os)) :
    pixelReads (event :: trace) = (pixelRead event).toList ++ pixelReads trace := by
  cases h : pixelRead event <;> simp [pixelReads, h]

@[simp]
theorem pixelReads_append (first second : List (Event Os)) :
    pixelReads (first ++ second) = pixelReads first ++ pixelReads second :=
  List.filterMap_append ..

@[simp]
theorem refused_append {first second : List (Event Os)} :
    Refused (first ++ second) ↔ Refused first ∨ Refused second := by
  simp only [Refused, List.mem_append, or_and_right, exists_or]

@[simp]
theorem refused_nil : ¬ Refused [] := by simp [Refused]

@[simp]
theorem refused_cons {event : Event Os} {trace : List (Event Os)} :
    Refused (event :: trace) ↔ Refuses event ∨ Refused trace := by
  simp [Refused]

/-- A call that neither reads pixels nor decides whether the request goes on. -/
def Quiet (event : Event Os) : Prop := pixelRead event = none ∧ ¬ Refuses event

theorem quiet_of_housekeeping {event : Event Os} (h : Renderer.Housekeeping event) : Quiet event := by
  obtain ⟨call, answer⟩ := event
  cases call <;> simp_all [Renderer.Housekeeping, Quiet, pixelRead, Refuses]

theorem pixelReads_of_housekeeping {trace : List (Event Os)}
    (h : ∀ event ∈ trace, Renderer.Housekeeping event) : pixelReads trace = [] :=
  List.filterMap_eq_nil_iff.2 fun event hevent ↦ (quiet_of_housekeeping (h event hevent)).1

theorem not_refused_of_housekeeping {trace : List (Event Os)}
    (h : ∀ event ∈ trace, Renderer.Housekeeping event) : ¬ Refused trace := by
  rintro ⟨event, hevent, hrefuses⟩
  exact (quiet_of_housekeeping (h event hevent)).2 hrefuses

/-! ## The functions before `SetDIBits` -/

theorem ensures_isWindowValid (hwnd : Hwnd) : (isWindowValid hwnd).Ensures fun trace valid ↦
    pixelReads trace = [] ∧ (valid = true ↔ hwnd ≠ nullptr ∧ ¬ Refused trace) := by
  simp only [isWindowValid, Program.ensures_ite, Program.ensures_bind, ensures_os,
    Program.ensures_pure]
  simp +contextual [Refuses, pixelRead]

/-- A renderer that has just been moved to a window. -/
def Ready (renderer : Renderer) (hwnd : Hwnd) : Prop :=
  renderer.targetWindow = hwnd ∧ renderer.windowDC ≠ nullptr ∧ renderer.memoryDC ≠ nullptr ∧
    renderer.bitmap = nullptr

theorem ensures_initializeFor (renderer : Renderer) (hwnd : Hwnd) :
    (renderer.initializeFor hwnd).Ensures fun trace result ↦
      pixelReads trace = [] ∧ (result.1 = true ↔ hwnd ≠ nullptr ∧ ¬ Refused trace) ∧
        (result.1 = true → Ready result.2 hwnd) := by
  simp only [Renderer.initializeFor, Program.ensures_ite, Program.ensures_bind, ensures_os,
    Program.ensures_pure]
  refine ⟨by simp +contextual, fun hne known ↦ ⟨?_, fun hknown ↦ ?_⟩⟩
  · simp +contextual [Refuses, pixelRead]
  refine ((Renderer.keeps_cleanup renderer).and (Renderer.ensures_cleanup renderer)).mono ?_
  rintro cleaning cleaned ⟨hquiet, hbitmap⟩ windowDC
  have hreads := pixelReads_of_housekeeping hquiet
  refine ⟨fun hdc ↦ ?_, fun hdc memoryDC ↦ ⟨fun hmemory ↦ ?_, fun hmemory ↦ ?_⟩⟩
  · simp [hdc, Refuses, pixelRead, hreads]
  · simp [hmemory, Refuses, pixelRead, hreads]
  · refine Program.Ensures.mono (Renderer.keeps_bringToFront hwnd) fun bringing _ hbringing ↦ ?_
    simp only [Bool.not_eq_true', Bool.not_eq_false] at hknown
    simp [Refuses, pixelRead, Ready, hreads, pixelReads_of_housekeeping hbringing,
      not_refused_of_housekeeping hquiet, not_refused_of_housekeeping hbringing, hne, hknown, hdc,
      hmemory, hbitmap]

/-! ## The frame itself -/

theorem ensures_createCompatibleBitmap {renderer : Renderer} {hwnd : Hwnd}
    (hready : Ready renderer hwnd) (width height : UInt64) :
    (renderer.createCompatibleBitmap width height).Ensures fun trace result ↦
      pixelReads trace = [] ∧ (result.1 = true ↔ ¬ Refused trace) := by
  obtain ⟨-, hdc, hmemory, hbitmap⟩ := hready
  simp only [Renderer.createCompatibleBitmap, Renderer.deleteBitmap, hdc, hmemory, hbitmap,
    or_self, if_false, ne_eq, not_true_eq_false, false_and, if_true, pure_bind,
    Program.ensures_ite, Program.ensures_bind, ensures_os, Program.ensures_pure]
  simp +contextual [Refuses, pixelRead]

/-- One frame on a ready renderer: a single call of `SetDIBits`, unless the bitmap is refused. -/
theorem ensures_renderImageFrame {renderer : Renderer} {hwnd : Hwnd} (hready : Ready renderer hwnd)
    (hne : hwnd ≠ nullptr) (imageData : Bytes) (width height : UInt64) :
    (renderer.renderImageFrame imageData width height).Ensures fun trace result ↦
      (Refused trace → pixelReads trace = [] ∧ result.1 = false) ∧
        (¬ Refused trace →
          pixelReads trace = [⟨height.toUInt32, imageData, Renderer.bmiHeader width height⟩]) := by
  have hready' := hready
  obtain ⟨htarget, hdc, hmemory, hbitmap⟩ := hready'
  simp only [Renderer.renderImageFrame, hdc, hmemory, htarget, hne, or_self, if_false,
    Program.ensures_bind]
  refine (ensures_createCompatibleBitmap hready width height).mono
    fun creating created ⟨hreads, hcreated⟩ ↦ ?_
  simp only [Program.ensures_ite, Program.ensures_bind, ensures_os, Program.ensures_pure]
  cases hok : created.1 with
  | false =>
    have hrefused : Refused creating := by simpa [hok] using hcreated
    simp [hreads, hrefused]
  | true =>
    have hgranted : ¬ Refused creating := by simpa [hok] using hcreated
    simp [-Bool.forall_bool, hreads, hgranted, Refuses, pixelRead]

/-! ## The handler -/

/-- A response that reports a failure. -/
def Failed (response : ServerResponse Bytes) : Prop :=
  ∃ message, response = ⟨some ⟨false, message⟩, none⟩

/-- The call of `SetDIBits` that a content leads to. -/
def Content.read (content : Content) : PixelRead :=
  ⟨content.height, content.data,
    Renderer.bmiHeader content.width.toUInt64 content.height.toUInt64⟩

theorem ensures_validateAndInitialize (server : WindowCasterServer) (hwnd : Hwnd)
    (status : Status) : (server.validateAndInitialize hwnd status).Ensures fun trace result ↦
      pixelReads trace = [] ∧
        (result.1 = true ∧ hwnd ≠ nullptr ∧ ¬ Refused trace ∧ result.2.1 = status ∧
            Ready result.2.2.renderer hwnd ∨
          result.1 = false ∧ (hwnd = nullptr ∨ Refused trace) ∧ result.2.1.success = false) := by
  simp only [WindowCasterServer.validateAndInitialize, Program.ensures_bind]
  refine (ensures_isWindowValid hwnd).mono fun validating valid ⟨hreads, hvalid⟩ ↦ ?_
  cases valid with
  | false =>
    have hrefused : hwnd = nullptr ∨ Refused validating := by
      by_contra h
      simp_all
    simp [Program.ensures_pure, hreads, hrefused]
  | true =>
    obtain ⟨hne, hgranted⟩ := hvalid.1 rfl
    simp only [Bool.not_true, Bool.false_eq_true, if_false, Program.ensures_bind]
    refine (ensures_initializeFor server.renderer hwnd).mono
      fun moving moved ⟨hmoving, hmoved, hready⟩ ↦ ?_
    cases hok : moved.1 with
    | false =>
      have hrefused : Refused moving := by
        by_contra h
        simp_all
      simp [Program.ensures_pure, hreads, hmoving, hrefused]
    | true =>
      have hgranted' : ¬ Refused moving := (hmoved.1 hok).2
      simp [Program.ensures_pure, hreads, hmoving, hne, hgranted, hgranted', hready hok]

/-- How a render command ends: refused before any pixel is read, or with exactly one read. -/
def Outcome (command : RenderCommand) (trace : List (Event Os)) (response : ServerResponse Bytes) :
    Prop :=
  (command.targetWindow = nullptr ∨ command.content = none ∨ Refused trace) ∧
      pixelReads trace = [] ∧ Failed response ∨
    command.targetWindow ≠ nullptr ∧ ¬ Refused trace ∧
      ∃ content, command.content = some content ∧ pixelReads trace = [Content.read content]

theorem ensures_handleRenderCommand (server : WindowCasterServer) (command : RenderCommand) :
    (server.handleRenderCommand command).Ensures fun trace result ↦
      Outcome command trace result.1 := by
  simp only [WindowCasterServer.handleRenderCommand, Program.ensures_bind]
  refine (ensures_validateAndInitialize server _ _).mono fun validating validated ⟨hreads, h⟩ ↦ ?_
  obtain ⟨hok, hne, hgranted, hstatus, hready⟩ | ⟨hok, hrefused, hfailed⟩ := h
  · simp only [hok, Bool.not_true, Bool.false_eq_true, if_false]
    -- both kinds of content end in `renderImageFrame`, with the fields of the command
    have hframe (content : Content) (hcontent : command.content = some content) :
        (validated.2.2.renderer.renderImageFrame content.data content.width.toUInt64
          content.height.toUInt64).Ensures fun drawing drawn ↦
            Outcome command (validating ++ drawing)
              ⟨some (WindowCasterServer.handleRenderCommand.finish validated.2.1 drawn.1), none⟩ := by
      refine (ensures_renderImageFrame hready hne _ _ _).mono ?_
      rintro drawing ⟨drawn, renderer⟩ ⟨hrefused, hdrawn⟩
      by_cases hdrawing : Refused drawing
      · obtain ⟨hnone, rfl⟩ := hrefused hdrawing
        exact .inl ⟨by simp [hdrawing], by simp [hreads, hnone], _, rfl⟩
      · exact .inr ⟨hne, by simp [hgranted, hdrawing], content, hcontent,
          by simp [hreads, hdrawn hdrawing, Content.read]⟩
    rcases hcontent : command.content with _ | image | video
    · exact Program.ensures_pure.2 (.inl ⟨by simp [hcontent], by simp [hreads], _, rfl⟩)
    · simp only [Program.ensures_bind, Program.ensures_pure, List.append_nil]
      exact hframe _ hcontent
    · simp only [Program.ensures_bind, Program.ensures_pure, List.append_nil]
      exact hframe _ hcontent
  · simp only [hok, Bool.not_false, if_true, Program.ensures_pure, List.append_nil]
    refine .inl ⟨?_, hreads, validated.2.1.message, by rw [← hfailed]⟩
    tauto

/-! ## The bound -/

/-- The sizes of a content survive the conversions to `LONG` and the negation, and the data holds
all the bytes that `SetDIBits` reads for them. -/
def ReadsInside (content : Content) : Prop :=
  (toLong content.width.toUInt64).toInt = content.width.toNat ∧
    (toLong content.height.toUInt64).toInt = content.height.toNat ∧
    (-toLong content.height.toUInt64).toInt = -(toLong content.height.toUInt64).toInt ∧
    content.height.toNat * paddedRow content.width.toNat ≤ content.data.length

/-- What is promised of one run: a call of `SetDIBits` gets the command's own data and size and
stays inside the data, and without such a call the response reports a failure. -/
def Safe (command : RenderCommand) (trace : List (Event Os)) (response : ServerResponse Bytes) :
    Prop :=
  (∀ read ∈ pixelReads trace,
      ∃ content, command.content = some content ∧ read = Content.read content ∧ ReadsInside content) ∧
    (pixelReads trace = [] → Failed response)

/-- The sender's side of the bargain. -/
def DataCoversSize (content : Content) : Prop :=
  content.width.toNat < 2 ^ 31 ∧ content.height.toNat < 2 ^ 31 ∧
    content.height.toNat * paddedRow content.width.toNat ≤ content.data.length

theorem readsInside_iff {content : Content} : ReadsInside content ↔ DataCoversSize content := by
  have hwidth := content.width.toNat_lt
  have hheight := content.height.toNat_lt
  rw [ReadsInside, DataCoversSize, ← UInt32.toNat_toUInt64, ← UInt32.toNat_toUInt64] at *
  rw [toInt_toLong_eq hwidth, toInt_toLong_eq hheight]
  constructor
  · rintro ⟨hw, hh, -, hlength⟩
    exact ⟨hw, hh, hlength⟩
  · rintro ⟨hw, hh, hlength⟩
    refine ⟨hw, hh, ?_, hlength⟩
    rw [toInt_neg_toLong hh, (toInt_toLong_eq hheight).2 hh]

/-- There is a run in which the system refuses nothing. -/
theorem exists_granted {α : Type} (program : Program Os α) :
    ∃ trace result, program.Runs trace result ∧ ¬ Refused trace := by
  have hanswer (call : Call) : ∃ answer, ¬ Refuses (⟨call, answer⟩ : Event Os) := by
    refine ⟨granting call, ?_⟩
    cases call with
    | isWindow | isWindowVisible | dwmGetWindowAttributeCloaked => exact Bool.noConfusion
    | getWindowText => exact Nat.one_ne_zero
    | getDC => exact (by decide : (2 : UInt64) ≠ nullptr)
    | createCompatibleDC => exact (by decide : (3 : UInt64) ≠ nullptr)
    | createCompatibleBitmap => exact (by decide : (4 : UInt64) ≠ nullptr)
    | _ => exact id
  obtain ⟨trace, result, hruns, hgranted⟩ := program.exists_runs (fun event ↦ ¬ Refuses event) hanswer
  exact ⟨trace, result, hruns, fun ⟨event, hevent, hrefuses⟩ ↦ hgranted event hevent hrefuses⟩

theorem safe_of_outcome {command : RenderCommand} {trace : List (Event Os)}
    {response : ServerResponse Bytes} (h : Outcome command trace response)
    (hcovers : command.targetWindow = nullptr ∨
      ∀ content, command.content = some content → DataCoversSize content) :
    Safe command trace response := by
  obtain ⟨-, hnone, hfailed⟩ | ⟨hne, -, content, hcontent, hread⟩ := h
  · exact ⟨by simp [hnone], fun _ ↦ hfailed⟩
  · refine ⟨?_, by simp [hread]⟩
    intro read hmem
    obtain rfl : read = Content.read content := by simpa [hread] using hmem
    exact ⟨content, hcontent, rfl, readsInside_iff.2 ((hcovers.resolve_left hne) content hcontent)⟩

/-- A command is safe in every run, from every state of the server, exactly when it has no target
or its data covers the size it announces. The server itself does not look. -/
theorem renderCommand_safe_iff (command : RenderCommand) :
    (∀ server trace response server',
      (WindowCasterServer.dispatch server ⟨some (.renderCommand command)⟩).Runs trace
        (response, server') → Safe command trace response) ↔
      command.targetWindow = nullptr ∨
        ∀ content, command.content = some content → DataCoversSize content := by
  constructor
  · intro h
    by_cases hnull : command.targetWindow = nullptr
    · exact .inl hnull
    refine .inr fun content hcontent ↦ ?_
    obtain ⟨trace, ⟨response, server'⟩, hruns, hgranted⟩ :=
      exists_granted (WindowCasterServer.new.handleRenderCommand command)
    have hsafe := h _ trace response server' hruns
    obtain ⟨hrefused, -⟩ | ⟨-, -, content', hcontent', hread⟩ :=
      ensures_handleRenderCommand _ command trace _ hruns
    · simp_all
    · obtain ⟨content'', hcontent'', -, hinside⟩ := hsafe.1 (Content.read content') (by simp [hread])
      obtain rfl : content = content'' := Option.some.inj (hcontent.symm.trans hcontent'')
      exact readsInside_iff.1 hinside
  · intro h server trace response server' hruns
    exact safe_of_outcome (ensures_handleRenderCommand server command trace _ hruns) h

/-- The request that ends a video of size 1 by 1: `SetDIBits` is told to read a row of four bytes
from no data at all. -/
theorem not_safe_endOfVideo :
    ∃ trace response server',
      (WindowCasterServer.dispatch .new
        ⟨some (.renderCommand ⟨1, some (.video ⟨[], 1, 1⟩)⟩)⟩).Runs trace (response, server') ∧
      pixelReads trace = [⟨1, [], Renderer.bmiHeader 1 1⟩] ∧
      ¬ Safe ⟨1, some (.video ⟨[], 1, 1⟩)⟩ trace response := by
  let program := WindowCasterServer.dispatch .new
    ⟨some (.renderCommand ⟨1, some (.video ⟨[], 1, 1⟩)⟩)⟩
  have hread : pixelReads (program.simulate (fun _ ↦ granting) []).1 =
      [⟨1, [], Renderer.bmiHeader 1 1⟩] := rfl
  refine ⟨_, _, _, program.runs_simulate (fun _ ↦ granting) [], hread, fun hsafe ↦ ?_⟩
  have hmem := List.mem_singleton_self (⟨1, [], Renderer.bmiHeader 1 1⟩ : PixelRead)
  rw [← hread] at hmem
  obtain ⟨content, hcontent, -, -, -, -, hlength⟩ := hsafe.1 _ hmem
  obtain rfl := Option.some.inj hcontent
  exact absurd hlength (by decide)

end WindowCaster.Server.PixelReads
