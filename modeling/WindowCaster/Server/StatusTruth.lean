import WindowCaster.Server.PixelReads

/-!
# What a status says

A response reports success exactly when the target was accepted and every step needed to draw
succeeded, unless the handler overlooks a failure: it does not look at what `GetClientRect` and
`FillRect` return, and takes a `SetDIBits` that sets only some of the lines for a success. For a
frame the call of `StretchBlt` at the end may still fail and bring the report in line.
-/

namespace WindowCaster.Server.StatusTruth

open Foundation.Interaction Foundation.Text Win32
open Protocol.Messages WindowManagement Rendering Handling PixelReads

/-! ## Steps -/

inductive Step
  | getDC
  | createCompatibleDC
  | createCompatibleBitmap
  | setDIBits
  | getClientRect
  | stretchBlt
  | fillRect
  deriving DecidableEq

/-- The event is the step, and the step succeeded. -/
def Succeeds : Step → Event Os → Prop
  | .getDC, ⟨.getDC _, dc⟩ => dc ≠ nullptr
  | .createCompatibleDC, ⟨.createCompatibleDC _, dc⟩ => dc ≠ nullptr
  | .createCompatibleBitmap, ⟨.createCompatibleBitmap _ _ _, bitmap⟩ => bitmap ≠ nullptr
  | .setDIBits, ⟨.setDIBits _ _ _ lines _ _, copied⟩ => copied = lines
  | .getClientRect, ⟨.getClientRect _, answer⟩ => answer.1 = true
  | .stretchBlt, ⟨.stretchBlt _ _ _ _ _ _ _ _ _ _, stretched⟩ => stretched = true
  | .fillRect, ⟨.fillRect _ _ _, filled⟩ => filled = true
  | _, _ => False

/-- The failures that the code does not look at. -/
def Overlooks : Event Os → Prop
  | ⟨.setDIBits _ _ _ lines _ _, copied⟩ => copied ≠ 0 ∧ copied ≠ lines
  | ⟨.getClientRect _, answer⟩ => answer.1 = false
  | ⟨.fillRect _ _ _, filled⟩ => filled = false
  | _ => False

def StretchFails : Event Os → Prop
  | ⟨.stretchBlt _ _ _ _ _ _ _ _ _ _, stretched⟩ => stretched = false
  | _ => False

def Occurs (property : Event Os → Prop) (trace : List (Event Os)) : Prop :=
  ∃ event ∈ trace, property event

@[simp]
theorem occurs_nil {property : Event Os → Prop} : ¬ Occurs property [] := by simp [Occurs]

@[simp]
theorem occurs_cons {property : Event Os → Prop} {event : Event Os} {trace : List (Event Os)} :
    Occurs property (event :: trace) ↔ property event ∨ Occurs property trace := by
  simp [Occurs]

@[simp]
theorem occurs_append {property : Event Os → Prop} {first second : List (Event Os)} :
    Occurs property (first ++ second) ↔ Occurs property first ∨ Occurs property second := by
  simp only [Occurs, List.mem_append, or_and_right, exists_or]

theorem Occurs.mono {property weaker : Event Os → Prop} {trace : List (Event Os)}
    (h : Occurs property trace) (hle : ∀ event, property event → weaker event) :
    Occurs weaker trace := by
  obtain ⟨event, hevent, hproperty⟩ := h
  exact ⟨event, hevent, hle event hproperty⟩

theorem not_occurs {property other : Event Os → Prop} {trace : List (Event Os)}
    (h : ∀ event ∈ trace, other event) (hother : ∀ event, other event → ¬ property event) :
    ¬ Occurs property trace := by
  rintro ⟨event, hevent, hproperty⟩
  exact hother event (h event hevent) hproperty

/-- The steps of `Initialize`, of a frame and of `Clear`. -/
def acquiring : List Step := [.getDC, .createCompatibleDC]

def rendering : List Step := [.createCompatibleBitmap, .setDIBits, .getClientRect, .stretchBlt]

def clearing : List Step := [.getClientRect, .fillRect]

section Members

variable {property : Step → Prop}

theorem forall_acquiring : (∀ step ∈ acquiring, property step) ↔
    property .getDC ∧ property .createCompatibleDC := by
  simp [acquiring]

theorem forall_rendering : (∀ step ∈ rendering, property step) ↔
    property .createCompatibleBitmap ∧ property .setDIBits ∧ property .getClientRect ∧
      property .stretchBlt := by
  simp [rendering]

theorem forall_clearing : (∀ step ∈ clearing, property step) ↔
    property .getClientRect ∧ property .fillRect := by
  simp [clearing]

end Members

/-- The target of a request that draws, and the steps that it needs. -/
def needed : Request → Option (Hwnd × List Step)
  | .getWindowList => none
  | .renderCommand command => some (command.targetWindow, acquiring ++ rendering)
  | .stopRender command => some (command.targetWindow, acquiring ++ clearing)

/-- The run begins with a successful `IsWindowValid`. -/
def Accepted (hwnd : Hwnd) (trace : List (Event Os)) : Prop :=
  ∃ first rest, trace = first ++ rest ∧ (isWindowValid hwnd).Runs first true

/-- What a truthful report of success says. -/
def Drawn (hwnd : Hwnd) (steps : List Step) (trace : List (Event Os)) : Prop :=
  Accepted hwnd trace ∧ ∀ step ∈ steps, Occurs (Succeeds step) trace

/-- No failure is overlooked, or `StretchBlt` fails as well. -/
def Noticed (trace : List (Event Os)) : Prop :=
  Occurs Overlooks trace → Occurs StretchFails trace

def Succeeded (response : ServerResponse Bytes) : Prop :=
  ∃ status, response.status = some status ∧ status.success = true

/-! ## Which calls are made where -/

def Acquires (event : Event Os) : Prop :=
  match event.call with
  | .getDC _ | .createCompatibleDC _ => True
  | _ => False

def Draws (event : Event Os) : Prop :=
  match event.call with
  | .createCompatibleBitmap _ _ _ | .setDIBits _ _ _ _ _ _ | .getClientRect _
  | .stretchBlt _ _ _ _ _ _ _ _ _ _ | .fillRect _ _ _ => True
  | _ => False

theorem draws_of_succeeds {step : Step} (hstep : step ∉ acquiring) (event : Event Os)
    (h : Succeeds step event) : Draws event := by
  obtain ⟨call, answer⟩ := event
  cases step <;> cases call <;> trivial

theorem acquires_of_succeeds {step : Step} (hstep : step ∈ acquiring) (event : Event Os)
    (h : Succeeds step event) : Acquires event := by
  obtain ⟨call, answer⟩ := event
  cases step <;> cases call <;> trivial

theorem draws_of_overlooks (event : Event Os) (h : Overlooks event) : Draws event := by
  obtain ⟨call, answer⟩ := event
  cases call <;> trivial

theorem draws_of_stretchFails (event : Event Os) (h : StretchFails event) : Draws event := by
  obtain ⟨call, answer⟩ := event
  cases call <;> trivial

/-- Calls that are no steps. -/
def Idle (event : Event Os) : Prop := ¬ Acquires event ∧ ¬ Draws event

theorem idle_of_inspecting (event : Event Os) (h : Inspecting event) : Idle event := by
  obtain ⟨call, answer⟩ := event
  cases call <;> simp_all [Inspecting, Idle, Acquires, Draws]

theorem idle_of_housekeeping (event : Event Os) (h : Renderer.Housekeeping event) : Idle event := by
  obtain ⟨call, answer⟩ := event
  cases call <;> simp_all [Renderer.Housekeeping, Idle, Acquires, Draws]

/-- The run of a request in three parts: the check of the target, `Initialize`, and what draws. -/
structure Parts (hwnd : Hwnd) (checking moving drawing : List (Event Os)) (valid : Bool) : Prop where
  runs : (isWindowValid hwnd).Runs checking valid
  moving : ¬ Occurs Draws moving
  drawing : ¬ Occurs Acquires drawing

namespace Parts

variable {hwnd : Hwnd} {checking moving drawing : List (Event Os)} {valid : Bool}

theorem accepted_iff (h : Parts hwnd checking moving drawing valid) :
    Accepted hwnd (checking ++ moving ++ drawing) ↔ valid = true := by
  constructor
  · rintro ⟨first, rest, heq, hruns⟩
    rw [List.append_assoc] at heq
    exact (Program.runs_unique h.runs hruns heq).2
  · rintro rfl
    exact ⟨checking, moving ++ drawing, List.append_assoc .., h.runs⟩

theorem idle (h : Parts hwnd checking moving drawing valid) : ∀ event ∈ checking, Idle event :=
  fun event hevent ↦ idle_of_inspecting event (inspects_isWindowValid hwnd _ _ h.runs event hevent)

/-- What happens only in `Initialize` happens in the middle part. -/
theorem occurs_moving (h : Parts hwnd checking moving drawing valid) {property : Event Os → Prop}
    (hproperty : ∀ event, property event → Acquires event) :
    Occurs property (checking ++ moving ++ drawing) ↔ Occurs property moving := by
  have hchecking : ¬ Occurs property checking :=
    not_occurs h.idle fun event hidle hevent ↦ hidle.1 (hproperty event hevent)
  have hdrawing : ¬ Occurs property drawing := fun hoccurs ↦ h.drawing (hoccurs.mono hproperty)
  simp [hchecking, hdrawing]

/-- What happens only while drawing happens in the last part. -/
theorem occurs_drawing (h : Parts hwnd checking moving drawing valid) {property : Event Os → Prop}
    (hproperty : ∀ event, property event → Draws event) :
    Occurs property (checking ++ moving ++ drawing) ↔ Occurs property drawing := by
  have hchecking : ¬ Occurs property checking :=
    not_occurs h.idle fun event hidle hevent ↦ hidle.2 (hproperty event hevent)
  have hmoving : ¬ Occurs property moving := fun hoccurs ↦ h.moving (hoccurs.mono hproperty)
  simp [hchecking, hmoving]

theorem drawn_iff (h : Parts hwnd checking moving drawing valid) {steps : List Step}
    (hsteps : ∀ step ∈ steps, step ∉ acquiring) :
    Drawn hwnd (acquiring ++ steps) (checking ++ moving ++ drawing) ↔
      valid = true ∧ (∀ step ∈ acquiring, Occurs (Succeeds step) moving) ∧
        ∀ step ∈ steps, Occurs (Succeeds step) drawing := by
  have hmoving : (∀ step ∈ acquiring, Occurs (Succeeds step) (checking ++ moving ++ drawing)) ↔
      ∀ step ∈ acquiring, Occurs (Succeeds step) moving :=
    forall₂_congr fun step hstep ↦ h.occurs_moving (acquires_of_succeeds hstep)
  have hdrawing : (∀ step ∈ steps, Occurs (Succeeds step) (checking ++ moving ++ drawing)) ↔
      ∀ step ∈ steps, Occurs (Succeeds step) drawing :=
    forall₂_congr fun step hstep ↦ h.occurs_drawing (draws_of_succeeds (hsteps step hstep))
  rw [Drawn, h.accepted_iff, List.forall_mem_append, hmoving, hdrawing]

theorem noticed_iff (h : Parts hwnd checking moving drawing valid) :
    Noticed (checking ++ moving ++ drawing) ↔ Noticed drawing := by
  rw [Noticed, h.occurs_drawing draws_of_overlooks, h.occurs_drawing draws_of_stretchFails, Noticed]

end Parts

/-! ## The functions -/

/-- `Initialize` succeeds exactly when both device contexts are acquired. -/
theorem ensures_initializeFor (renderer : Renderer) (hwnd : Hwnd) :
    (renderer.initializeFor hwnd).Ensures fun trace result ↦
      ¬ Occurs Draws trace ∧
        (result.1 = true ↔ ∀ step ∈ acquiring, Occurs (Succeeds step) trace) ∧
        (result.1 = true → Ready result.2 hwnd ∧ hwnd ≠ nullptr) := by
  have hidle {trace : List (Event Os)} (h : ∀ event ∈ trace, Renderer.Housekeeping event) :
      ¬ Occurs Draws trace ∧ ¬ Occurs (Succeeds .getDC) trace ∧
        ¬ Occurs (Succeeds .createCompatibleDC) trace := by
    have hacquires : ¬ Occurs Acquires trace :=
      not_occurs h fun event hevent ↦ (idle_of_housekeeping event hevent).1
    exact ⟨not_occurs h fun event hevent ↦ (idle_of_housekeeping event hevent).2,
      fun hoccurs ↦ hacquires (hoccurs.mono (acquires_of_succeeds (by simp [acquiring]))),
      fun hoccurs ↦ hacquires (hoccurs.mono (acquires_of_succeeds (by simp [acquiring])))⟩
  simp only [forall_acquiring, Renderer.initializeFor, Program.ensures_ite, Program.ensures_bind,
    ensures_os, Program.ensures_pure]
  refine ⟨fun _ ↦ by simp, fun hne known ↦ ⟨fun _ ↦ ?_, fun hknown ↦ ?_⟩⟩
  · simp [Draws, Succeeds]
  refine ((Renderer.keeps_cleanup renderer).and (Renderer.ensures_cleanup renderer)).mono ?_
  rintro cleaning cleaned ⟨hcleaning, hbitmap⟩ windowDC
  have hcleaning := hidle hcleaning
  refine ⟨fun hdc ↦ ?_, fun hdc memoryDC ↦ ⟨fun hmemory ↦ ?_, fun hmemory ↦ ?_⟩⟩
  · simp [hdc, Draws, Succeeds, hcleaning]
  · simp [hmemory, Draws, Succeeds, hcleaning]
  · refine Program.Ensures.mono (Renderer.keeps_bringToFront hwnd) fun bringing _ hbringing ↦ ?_
    have hbringing := hidle hbringing
    simp [hdc, hmemory, Draws, Succeeds, hcleaning, hbringing, Ready, hbitmap, hne]

/-- One frame on a ready renderer. -/
theorem ensures_renderImageFrame {renderer : Renderer} {hwnd : Hwnd} (hready : Ready renderer hwnd)
    (hne : hwnd ≠ nullptr) (imageData : Bytes) (width height : UInt64) :
    (renderer.renderImageFrame imageData width height).Ensures fun trace result ↦
      ¬ Occurs Acquires trace ∧
        ((result.1 = true ↔ ∀ step ∈ rendering, Occurs (Succeeds step) trace) ↔ Noticed trace) := by
  obtain ⟨htarget, hdc, hmemory, hbitmap⟩ := hready
  simp only [forall_rendering, Renderer.renderImageFrame, Renderer.createCompatibleBitmap,
    Renderer.deleteBitmap, hdc, hmemory, htarget, hne, hbitmap, or_self, if_false, ne_eq,
    not_true_eq_false, false_and, if_true, pure_bind, Program.ensures_ite, Program.ensures_bind,
    ensures_os, Program.ensures_pure]
  intro bitmap
  refine ⟨fun hrefused ↦ ?_, fun hcreated _ ↦ ⟨fun hok ↦ by simp at hok, fun _ copied ↦ ⟨fun hnone ↦ ?_,
    fun hsome answer _ _ success ↦ ?_⟩⟩⟩
  · simp [hrefused, Acquires, Succeeds, Noticed, Overlooks]
  · simp [hnone, Acquires, Succeeds, Noticed, Overlooks]
  · cases hrect : answer.1 <;> cases success <;>
      simp [hrect, hsome, hcreated, Acquires, Succeeds, Noticed, Overlooks, StretchFails]

theorem ensures_clear {renderer : Renderer} {hwnd : Hwnd} (hready : Ready renderer hwnd)
    (hne : hwnd ≠ nullptr) : renderer.clear.Ensures fun trace _ ↦
      ¬ Occurs Acquires trace ∧
        ((∀ step ∈ clearing, Occurs (Succeeds step) trace) ↔ Noticed trace) := by
  obtain ⟨htarget, hdc, -, -⟩ := hready
  simp only [forall_clearing, Renderer.clear, hdc, htarget, hne, ne_eq, not_false_eq_true, and_self,
    if_true, Program.ensures_bind, ensures_os, Program.ensures_pure]
  intro answer brush filled
  cases hrect : answer.1 <;> cases filled <;>
    simp [hrect, Acquires, Succeeds, Noticed, Overlooks, StretchFails]

/-! ## The requests -/

/-- Before anything is drawn, the target is checked and the renderer moved to it. -/
theorem ensures_validateAndInitialize (server : WindowCasterServer) (hwnd : Hwnd)
    (status : Status) : (server.validateAndInitialize hwnd status).Ensures fun trace result ↦
      ∃ checking moving valid, trace = checking ++ moving ∧ Parts hwnd checking moving [] valid ∧
        (result.1 = true ↔
          valid = true ∧ ∀ step ∈ acquiring, Occurs (Succeeds step) moving) ∧
        (result.1 = true →
          Ready result.2.2.renderer hwnd ∧ hwnd ≠ nullptr ∧ result.2.1 = status) ∧
        (result.1 = false → result.2.1.success = false) := by
  refine Program.ensures_bind.2 fun checking valid hvalid ↦ ?_
  cases valid with
  | false =>
    refine Program.ensures_pure.2 ⟨checking, [], false, rfl, ⟨hvalid, by simp, by simp⟩, ?_⟩
    simp
  | true =>
    refine Program.ensures_bind.2 ((ensures_initializeFor server.renderer hwnd).mono ?_)
    rintro moving ⟨ready, renderer⟩ ⟨hdraws, hready, hmoved⟩
    have hparts : Parts hwnd checking moving [] true := ⟨hvalid, hdraws, by simp⟩
    cases ready with
    | false =>
      refine Program.ensures_pure.2 ⟨checking, moving, true, by simp, hparts, ?_⟩
      simp_all
    | true =>
      refine Program.ensures_pure.2 ⟨checking, moving, true, by simp, hparts, ?_⟩
      simp_all

/-- The report is true unless a failure is overlooked. -/
def Truthful (hwnd : Hwnd) (steps : List Step) (trace : List (Event Os))
    (response : ServerResponse Bytes) : Prop :=
  (Succeeded response ↔ Drawn hwnd steps trace) ↔ Noticed trace

/-- A request that ends before anything is drawn. -/
theorem truthful_of_ended {hwnd : Hwnd} {checking moving : List (Event Os)} {valid : Bool}
    (hparts : Parts hwnd checking moving [] valid) {steps : List Step} (hsome : steps ≠ [])
    (hsteps : ∀ step ∈ steps, step ∉ acquiring) {status : Status} (hstatus : status.success = false) :
    Truthful hwnd (acquiring ++ steps) (checking ++ moving ++ []) ⟨some status, none⟩ := by
  obtain ⟨step, hstep⟩ := List.exists_mem_of_ne_nil steps hsome
  have hdrawn : ¬ Drawn hwnd (acquiring ++ steps) (checking ++ moving ++ []) := by
    rw [hparts.drawn_iff hsteps]
    rintro ⟨-, -, hall⟩
    exact occurs_nil (hall step hstep)
  have hnoticed : Noticed (checking ++ moving ++ []) := by
    rw [hparts.noticed_iff]
    exact fun h ↦ absurd h occurs_nil
  have hfailed : ¬ Succeeded ⟨some status, none⟩ := by simp [Succeeded, hstatus]
  exact iff_of_true (iff_of_false hfailed hdrawn) hnoticed

/-- A request whose target is accepted and whose renderer is ready. -/
theorem truthful_of_drawing {hwnd : Hwnd} {checking moving drawing : List (Event Os)}
    (hparts : Parts hwnd checking moving drawing true) {steps : List Step}
    (hsteps : ∀ step ∈ steps, step ∉ acquiring)
    (hmoving : ∀ step ∈ acquiring, Occurs (Succeeds step) moving) {status : Status}
    (h : (status.success = true ↔ ∀ step ∈ steps, Occurs (Succeeds step) drawing) ↔ Noticed drawing) :
    Truthful hwnd (acquiring ++ steps) (checking ++ moving ++ drawing) ⟨some status, none⟩ := by
  have hsucceeded : Succeeded ⟨some status, none⟩ ↔ status.success = true := by simp [Succeeded]
  have hdrawn : Drawn hwnd (acquiring ++ steps) (checking ++ moving ++ drawing) ↔
      ∀ step ∈ steps, Occurs (Succeeds step) drawing := by
    rw [hparts.drawn_iff hsteps]
    exact ⟨fun hall ↦ hall.2.2, fun hlast ↦ ⟨rfl, hmoving, hlast⟩⟩
  rwa [Truthful, hparts.noticed_iff, hsucceeded, hdrawn]

theorem notMem_acquiring_of_rendering : ∀ step ∈ rendering, step ∉ acquiring := by decide

theorem notMem_acquiring_of_clearing : ∀ step ∈ clearing, step ∉ acquiring := by decide

theorem success_finish {status : Status} (success : Bool) :
    (WindowCasterServer.handleRenderCommand.finish status success).success = success := by
  cases success <;> rfl

/-- The calls of this part draw, and the response tells the truth about them unless a failure is
overlooked. -/
def ReportsOn (steps : List Step) (drawing : List (Event Os)) (response : ServerResponse Bytes) :
    Prop :=
  ∃ status : Status, response = ⟨some status, none⟩ ∧ ¬ Occurs Acquires drawing ∧
    ((status.success = true ↔ ∀ step ∈ steps, Occurs (Succeeds step) drawing) ↔ Noticed drawing)

/-- What both handlers have in common: they draw if the target is accepted and the renderer ready,
and otherwise report the failure. -/
theorem ensures_validated (server : WindowCasterServer) (hwnd : Hwnd) (status : Status)
    {steps : List Step} (hsome : steps ≠ []) (hsteps : ∀ step ∈ steps, step ∉ acquiring)
    {rest : Bool × Status × WindowCasterServer →
      Program Os (ServerResponse Bytes × WindowCasterServer)}
    (hreport : ∀ status server, rest (false, status, server) = pure (⟨some status, none⟩, server))
    (hdraw : ∀ server, Ready server.renderer hwnd → hwnd ≠ nullptr →
      (rest (true, status, server)).Ensures fun drawing result ↦ ReportsOn steps drawing result.1) :
    (server.validateAndInitialize hwnd status >>= rest).Ensures fun trace result ↦
      Truthful hwnd (acquiring ++ steps) trace result.1 := by
  refine Program.ensures_bind.2 ((ensures_validateAndInitialize server hwnd status).mono ?_)
  rintro _ ⟨ready, status', server⟩ ⟨checking, moving, valid, rfl, hparts, hready, hok, hfailed⟩
  cases ready with
  | false =>
    rw [hreport]
    exact Program.ensures_pure.2 (truthful_of_ended hparts hsome hsteps (hfailed rfl))
  | true =>
    obtain ⟨rfl, hmoving⟩ := hready.1 rfl
    obtain ⟨hmoved, hne, rfl⟩ := hok rfl
    refine Program.Ensures.mono (hdraw server hmoved hne) ?_
    rintro drawing ⟨response, server'⟩ ⟨status', rfl, hacquires, h⟩
    exact truthful_of_drawing ⟨hparts.runs, hparts.moving, hacquires⟩ hsteps hmoving h

theorem ensures_handleStopRender (server : WindowCasterServer) (command : StopRender) :
    (server.handleStopRender command).Ensures fun trace result ↦
      Truthful command.targetWindow (acquiring ++ clearing) trace result.1 := by
  apply ensures_validated server _ _ (by simp [clearing]) notMem_acquiring_of_clearing fun _ _ ↦ rfl
  intro server hmoved hne
  refine Program.ensures_bind.2 ((ensures_clear hmoved hne).mono fun drawing _ ⟨hacquires, h⟩ ↦ ?_)
  refine Program.ensures_pure.2 ⟨_, rfl, ?_⟩
  rw [List.append_nil]
  exact ⟨hacquires, by simpa using h⟩

theorem ensures_handleRenderCommand (server : WindowCasterServer) (command : RenderCommand) :
    (server.handleRenderCommand command).Ensures fun trace result ↦
      Truthful command.targetWindow (acquiring ++ rendering) trace result.1 := by
  apply ensures_validated server _ _ (by simp [rendering]) notMem_acquiring_of_rendering fun _ _ ↦ rfl
  intro server hmoved hne
  have hframe (imageData : Bytes) (width height : UInt64) :
      (server.renderer.renderImageFrame imageData width height >>= fun frame ↦
        pure ((⟨some (WindowCasterServer.handleRenderCommand.finish ⟨false, []⟩ frame.1), none⟩,
          { server with renderer := frame.2 }) : ServerResponse Bytes × WindowCasterServer)).Ensures
        fun drawing result ↦ ReportsOn rendering drawing result.1 := by
    refine Program.ensures_bind.2 ((ensures_renderImageFrame hmoved hne imageData width height).mono
      fun drawing result ⟨hacquires, h⟩ ↦ Program.ensures_pure.2 ⟨_, rfl, ?_⟩)
    rw [List.append_nil, success_finish]
    exact ⟨hacquires, h⟩
  obtain ⟨hwnd, content⟩ := command
  rcases content with _ | image | video
  · exact Program.ensures_pure.2 ⟨_, rfl, by simp, by simp [forall_rendering, Noticed]⟩
  · exact hframe _ _ _
  · exact hframe _ _ _

/-- A request to draw is answered truthfully exactly when every failure that the code does not look
at is followed by a failure of `StretchBlt`. -/
theorem status_truthful_iff (server server' : WindowCasterServer) (request : Request) (hwnd : Hwnd)
    (steps : List Step) (hneeded : needed request = some (hwnd, steps)) (trace : List (Event Os))
    (response : ServerResponse Bytes)
    (hruns : (server.dispatch ⟨some request⟩).Runs trace (response, server')) :
    (Succeeded response ↔ Drawn hwnd steps trace) ↔ Noticed trace := by
  cases request with
  | getWindowList => simp [needed] at hneeded
  | renderCommand command =>
    obtain ⟨rfl, rfl⟩ := Prod.mk.inj (Option.some.inj hneeded)
    exact ensures_handleRenderCommand server command _ _ hruns
  | stopRender command =>
    obtain ⟨rfl, rfl⟩ := Prod.mk.inj (Option.some.inj hneeded)
    exact ensures_handleStopRender server command _ _ hruns

/-! ## Clearing a window -/

/-- A system that grants every request but, if told so, that of filling a rectangle. -/
def painting (fills : Bool) : (call : Call) → call.Answer
  | .fillRect _ _ _ => fills
  | call => granting call

/-- The handling of a request to stop by such a system. -/
def stopped (fills : Bool) : List (Event Os) × ServerResponse Bytes × WindowCasterServer :=
  (WindowCasterServer.dispatch .new ⟨some (.stopRender ⟨1⟩)⟩).simulate (fun _ ↦ painting fills) []

theorem runs_stopped (fills : Bool) :
    (WindowCasterServer.dispatch .new ⟨some (.stopRender ⟨1⟩)⟩).Runs (stopped fills).1
      (stopped fills).2 :=
  Program.runs_simulate _ _ _

theorem succeeded_stopped (fills : Bool) : Succeeded (stopped fills).2.1 := by
  have hstatus : (stopped fills).2.1.status = some ⟨true, []⟩ := by
    cases fills <;> rfl
  exact ⟨⟨true, []⟩, hstatus, rfl⟩

theorem status_truthful_cleared :
    Succeeded (stopped true).2.1 ∧ Drawn 1 (acquiring ++ clearing) (stopped true).1 := by
  have hnoticed : Noticed (stopped true).1 := by
    rintro ⟨event, hevent, hoverlooks⟩
    have hall : ∀ event ∈ (stopped true).1, ¬ Overlooks event := by
      apply Program.forall_mem_simulate
      intro call
      cases call <;> simp [Overlooks, painting, granting]
    exact absurd hoverlooks (hall event hevent)
  have htruthful := status_truthful_iff .new (stopped true).2.2 (.stopRender ⟨1⟩) 1
    (acquiring ++ clearing) rfl (stopped true).1 (stopped true).2.1 (runs_stopped true)
  exact ⟨succeeded_stopped true, (htruthful.2 hnoticed).1 (succeeded_stopped true)⟩

/-- `FillRect` fails, nothing is painted, and the response reports success. -/
theorem not_status_truthful :
    (WindowCasterServer.dispatch .new ⟨some (.stopRender ⟨1⟩)⟩).Runs (stopped false).1
        (stopped false).2 ∧
      Succeeded (stopped false).2.1 ∧ ¬ Drawn 1 (acquiring ++ clearing) (stopped false).1 := by
  refine ⟨runs_stopped false, succeeded_stopped false, ?_⟩
  have hall : ∀ event ∈ (stopped false).1, ¬ Succeeds .fillRect event := by
    apply Program.forall_mem_simulate
    intro call
    cases call <;> simp [Succeeds, painting]
  rintro ⟨-, hsteps⟩
  obtain ⟨event, hevent, hsucceeds⟩ := hsteps .fillRect (by decide)
  exact hall event hevent hsucceeds

end WindowCaster.Server.StatusTruth
