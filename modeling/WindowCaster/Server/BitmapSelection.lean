import WindowCaster.Server.BitmapReuse

/-!
# The bitmap of the memory context

GDI wants `SetDIBits` and `DeleteObject` to be called with bitmaps that are not selected into any
device context, and `StretchBlt` reads whatever bitmap is selected into its source. The renderer
selects a bitmap as soon as it has made it, and nothing ever deselects it.
-/

namespace WindowCaster.Server.BitmapSelection

open Foundation.Interaction Foundation.Monitoring Foundation.Text Foundation.Transition
open Win32 Rendering RendererCalls BitmapReuse

/-- The bitmaps that are selected, each with its device context, and the bitmap that the pixels of
the current frame were meant for. -/
structure Selection where
  selected : List (Hdc × Hbitmap)
  current : Option Hbitmap
  deriving DecidableEq

namespace Selection

def start : Selection := ⟨[], none⟩

/-- The context has its original bitmap again, or is gone. -/
def deselect (selection : Selection) (dc : Hdc) : Selection :=
  { selection with selected := selection.selected.filter fun pair ↦ pair.1 ≠ dc }

/-- A context has one bitmap at a time. -/
def select (selection : Selection) (dc : Hdc) (bitmap : Hbitmap) : Selection :=
  { selection with selected := (dc, bitmap) :: (selection.deselect dc).selected }

def Selected (selection : Selection) (bitmap : Hbitmap) : Prop :=
  bitmap ∈ selection.selected.map Prod.snd

instance (selection : Selection) (bitmap : Hbitmap) : Decidable (selection.Selected bitmap) :=
  inferInstanceAs (Decidable (_ ∈ _))

/-- The source holds the current frame. -/
def Holds (selection : Selection) (dcSrc : Hdc) : Prop :=
  ∃ bitmap ∈ selection.current, (dcSrc, bitmap) ∈ selection.selected

instance (selection : Selection) (dcSrc : Hdc) : Decidable (selection.Holds dcSrc) :=
  inferInstanceAs (Decidable (∃ bitmap ∈ _, _))

end Selection

/-- `SetDIBits` and `DeleteObject` need a bitmap that is not selected, and `StretchBlt` a source that
holds the current frame. A call that fails changes no selection. -/
def discipline : Monitor Os Selection
  | selection, ⟨.createCompatibleDC _, dc⟩ => some (selection.deselect dc)
  | selection, ⟨.deleteDC dc, deleted⟩ => some (if deleted then selection.deselect dc else selection)
  | selection, ⟨.selectObject dc bitmap, previous⟩ =>
    some (if previous = nullptr then selection else selection.select dc bitmap)
  | selection, ⟨.setDIBits _ bitmap _ _ _ _, _⟩ =>
    if selection.Selected bitmap then none else some { selection with current := some bitmap }
  | selection, ⟨.stretchBlt _ _ _ _ _ dcSrc _ _ _ _, _⟩ =>
    if selection.Holds dcSrc then some selection else none
  | selection, ⟨.deleteObject bitmap, _⟩ =>
    if selection.Selected bitmap then none else some selection
  | selection, _ => some selection

/-- Every call of the trace keeps to the discipline. -/
def Disciplined (trace : List (Event Os)) : Prop := (discipline.follow .start trace).isSome

/-- No bitmap is selected, and no pixels are set. -/
def Undrawn : Event Os → Prop
  | ⟨.selectObject _ _, previous⟩ => previous = nullptr
  | ⟨.setDIBits _ _ _ _ _ _, copied⟩ => copied = 0
  | _ => True

/-! ## Where nothing is selected -/

def Unselected (selection : Selection) : Prop := selection.selected = []

theorem Unselected.not_selected {selection : Selection} (h : Unselected selection) (bitmap : Hbitmap) :
    ¬ selection.Selected bitmap := by
  unfold Selection.Selected
  rw [h]
  exact List.not_mem_nil

theorem Unselected.not_holds {selection : Selection} (h : Unselected selection) (dcSrc : Hdc) :
    ¬ selection.Holds dcSrc := by
  rintro ⟨bitmap, -, hmem⟩
  rw [h] at hmem
  exact List.not_mem_nil hmem

theorem Unselected.deselect {selection : Selection} (h : Unselected selection) (dc : Hdc) :
    Unselected (selection.deselect dc) := by
  unfold Unselected Selection.deselect
  rw [h]
  rfl

/-- The calls that neither select nor draw. -/
def Calm (event : Event Os) : Prop :=
  match event.call with
  | .selectObject _ _ | .setDIBits _ _ _ _ _ _ | .stretchBlt _ _ _ _ _ _ _ _ _ _ => False
  | _ => True

theorem undrawn_of_calm {event : Event Os} (h : Calm event) : Undrawn event := by
  obtain ⟨call, answer⟩ := event
  cases call <;> simp_all [Calm, Undrawn]

theorem kept_of_calm {event : Event Os} (h : Calm event) {selection : Selection}
    (hunselected : Unselected selection) :
    ∃ next, discipline selection event = some next ∧ Unselected next := by
  obtain ⟨call, answer⟩ := event
  cases call with
  | selectObject dc bitmap | setDIBits dc bitmap start lines bits bmiHeader => exact h.elim
  | stretchBlt dcDest xDest yDest widthDest heightDest dcSrc xSrc ySrc widthSrc heightSrc =>
    exact h.elim
  | createCompatibleDC dc => exact ⟨_, rfl, hunselected.deselect answer⟩
  | deleteDC dc =>
    refine ⟨_, rfl, ?_⟩
    split
    · exact hunselected.deselect dc
    · exact hunselected
  | deleteObject bitmap => exact ⟨selection, if_neg (hunselected.not_selected bitmap), hunselected⟩
  | _ => exact ⟨selection, rfl, hunselected⟩

/-- Starting with nothing selected, the trace keeps to the discipline exactly if it draws nothing. -/
abbrev Exact (trace : List (Event Os)) : Prop := discipline.Exact Undrawn Unselected trace

theorem exact_of_calm {trace : List (Event Os)} (h : ∀ event ∈ trace, Calm event) : Exact trace :=
  Monitor.exact_of_kept (fun event hevent ↦ undrawn_of_calm (h event hevent))
    fun event hevent _ hunselected ↦ kept_of_calm (h event hevent) hunselected

/-! ## The operations -/

theorem calm_initializeFor (renderer : Renderer) (hwnd : Hwnd) :
    (renderer.initializeFor hwnd).Keeps Calm := by
  refine (Renderer.keeps_initializeFor renderer hwnd).mono fun event h ↦ ?_
  obtain ⟨call, answer⟩ := event
  cases call <;> simp_all [Renderer.Initializing, Renderer.Housekeeping, Calm]

theorem calm_of_housekeeping {event : Event Os} (h : Renderer.Housekeeping event) : Calm event := by
  obtain ⟨call, answer⟩ := event
  cases call <;> simp_all [Renderer.Housekeeping, Calm]

theorem calm_clear (renderer : Renderer) : renderer.clear.Keeps Calm := by
  refine (Renderer.keeps_clear renderer).mono fun event h ↦ ?_
  obtain ⟨call, answer⟩ := event
  cases call <;> simp_all [Renderer.Clearing, Calm]

/-- Where a new bitmap is made, the last call is its selection. -/
theorem ensures_createCompatibleBitmap (renderer : Renderer) (width height : UInt64) :
    (renderer.createCompatibleBitmap width height).Ensures fun trace result ↦
      (∀ event ∈ trace, Calm event) ∨
        result.1 = true ∧ ∃ before previous, (∀ event ∈ before, Calm event) ∧
          trace = before ++ [⟨.selectObject result.2.memoryDC result.2.bitmap, previous⟩] := by
  unfold Renderer.createCompatibleBitmap
  split
  · exact Program.ensures_pure.2 (.inl (by simp))
  split
  · exact Program.ensures_pure.2 (.inl (by simp))
  rw [Program.ensures_bind]
  refine Program.Ensures.mono (Renderer.keeps_deleteBitmap renderer) fun deleting left hdeleting ↦ ?_
  have hcalm : ∀ bitmap, ∀ event ∈ deleting ++ [⟨.createCompatibleBitmap left.windowDC
      (toLong width) (toLong height), bitmap⟩], Calm event := by
    intro bitmap
    rw [List.forall_mem_append, List.forall_mem_singleton]
    exact ⟨fun event hevent ↦ calm_of_housekeeping (hdeleting event hevent), trivial⟩
  refine Program.ensures_bind.2 (ensures_os.2 fun bitmap ↦ Program.ensures_ite.2 ⟨fun _ ↦ ?_, fun _ ↦ ?_⟩)
  · exact Program.ensures_pure.2 (.inl (hcalm bitmap))
  · refine Program.ensures_bind.2 (ensures_os.2 fun previous ↦ Program.ensures_pure.2 ?_)
    refine .inr ⟨rfl, _, previous, hcalm bitmap, ?_⟩
    rw [List.append_assoc]
    rfl

/-- With nothing selected, the frame either sets no pixels or is stretched from the wrong bitmap. -/
theorem exact_drawBitmap (imageData : Bytes) (width height : UInt64) (created : Bool)
    (renderer : Renderer) : (drawBitmap imageData width height (created, renderer)).Ensures
      fun trace _ ↦ Exact trace := by
  unfold drawBitmap
  refine Program.ensures_ite.2 ⟨fun _ ↦ Program.ensures_pure.2 (exact_of_calm (by simp)), fun _ ↦ ?_⟩
  refine Program.ensures_bind.2 (ensures_os.2 fun copied ↦ Program.ensures_ite.2 ⟨?_, ?_⟩)
  · intro hcopied
    refine Program.ensures_pure.2 (Monitor.exact_of_kept ?_ ?_)
    · exact List.forall_mem_singleton.2 hcopied
    · refine List.forall_mem_singleton.2 fun selection hunselected ↦ ?_
      exact ⟨_, if_neg (hunselected.not_selected _), hunselected⟩
  · intro hcopied
    simp only [Program.ensures_bind, ensures_os, Program.ensures_pure]
    intro rect mode origin success selection hunselected
    refine .inr ⟨fun h ↦ hcopied (h _ List.mem_cons_self), ?_⟩
    have hnext : Unselected { selection with current := some renderer.bitmap } := hunselected
    simp [discipline, hunselected.not_selected, hnext.not_holds]

/-- With the bitmap selected just before, the pixels must not be set. -/
theorem exact_select_drawBitmap (imageData : Bytes) (width height : UInt64) (renderer : Renderer)
    (previous : UInt64) : (drawBitmap imageData width height (true, renderer)).Ensures
      fun trace _ ↦ Exact (⟨.selectObject renderer.memoryDC renderer.bitmap, previous⟩ :: trace) := by
  by_cases hprevious : previous = nullptr
  · refine (exact_drawBitmap imageData width height true renderer).mono fun trace _ hexact ↦ ?_
    have hselect : Exact [⟨.selectObject renderer.memoryDC renderer.bitmap, previous⟩] := by
      apply Monitor.exact_of_kept
      · exact List.forall_mem_singleton.2 hprevious
      · refine List.forall_mem_singleton.2 fun selection hunselected ↦ ?_
        exact ⟨selection, congrArg some (if_pos hprevious), hunselected⟩
    exact hselect.append hexact
  · unfold drawBitmap
    refine Program.ensures_bind.2 (ensures_os.2 fun copied rest _ _ selection _ ↦ ?_)
    refine .inr ⟨fun h ↦ hprevious (h _ List.mem_cons_self), ?_⟩
    have hselected : (selection.select renderer.memoryDC renderer.bitmap).Selected renderer.bitmap :=
      List.mem_cons_self
    simp [discipline, hprevious, hselected]

theorem exact_renderImageFrame (renderer : Renderer) (imageData : Bytes) (width height : UInt64) :
    (renderer.renderImageFrame imageData width height).Ensures fun trace _ ↦ Exact trace := by
  rw [renderImageFrame_eq, Program.ensures_ite]
  refine ⟨fun _ ↦ Program.ensures_pure.2 (exact_of_calm (by simp)), fun _ ↦ Program.ensures_bind.2 ?_⟩
  refine (ensures_createCompatibleBitmap renderer width height).mono ?_
  rintro making ⟨created, renderer⟩ (hcalm | ⟨hcreated, before, previous, hcalm, rfl⟩)
  · refine (exact_drawBitmap imageData width height created renderer).mono fun drawing _ hexact ↦ ?_
    exact (exact_of_calm hcalm).append hexact
  · obtain rfl : created = true := hcreated
    refine (exact_select_drawBitmap imageData width height renderer previous).mono
      fun drawing _ hexact ↦ ?_
    rw [List.append_assoc]
    exact (exact_of_calm hcalm).append hexact

/-- A return value changes nothing. -/
theorem exact_map {α β : Type} {program : Program Os α} (result : α → β)
    (h : program.Ensures fun trace _ ↦ Exact trace) :
    (program >>= fun value ↦ pure (result value)).Ensures fun trace _ ↦ Exact trace := by
  refine Program.ensures_bind.2 (h.mono fun trace value hexact ↦ Program.ensures_pure.2 ?_)
  rwa [List.append_nil]

theorem exact_perform (renderer : Renderer) (operation : Operation) :
    (operation.perform renderer).Ensures fun trace _ ↦ Exact trace := by
  cases operation with
  | initializeFor targetWindow =>
    exact exact_map _ (Program.Ensures.mono (calm_initializeFor renderer targetWindow)
      fun _ _ ↦ exact_of_calm)
  | renderImageFrame imageData width height | renderVideoFrame imageData width height =>
    exact exact_map _ (exact_renderImageFrame renderer imageData width height)
  | clear => exact exact_map _ (Program.Ensures.mono (calm_clear renderer) fun _ _ ↦ exact_of_calm)

theorem exact_destroy (renderer : Renderer) :
    (destroy renderer).Ensures fun trace _ ↦ Exact trace := by
  refine exact_map _ (Program.Ensures.mono (Renderer.keeps_cleanup renderer) fun trace _ h ↦ ?_)
  exact exact_of_calm fun event hevent ↦ calm_of_housekeeping (h event hevent)

/-! ## Runs -/

variable {history : List Performed} {renderer : Renderer}

theorem exact_run (hrun : machine.Run history renderer) : Exact (calls history) := by
  induction hrun with
  | start h => exact exact_of_calm (by simp [calls])
  | @next history renderer renderer' performed _ hperform ih =>
    rw [calls_concat]
    exact ih.append (exact_perform renderer performed.operation _ _ hperform)

/-- Over a whole life, the discipline is kept exactly if no bitmap is ever selected and no pixels
are ever set. -/
theorem disciplined_iff (history : List Performed) (renderer : Renderer) (trace : List (Event Os))
    (hrun : machine.Run history renderer) (hdestroy : (destroy renderer).Runs trace ()) :
    Disciplined (calls history ++ trace) ↔ ∀ event ∈ calls history ++ trace, Undrawn event := by
  have hexact : Exact (calls history ++ trace) :=
    (exact_run hrun).append (exact_destroy renderer trace () hdestroy)
  exact hexact.isSome_iff rfl

/-- A system on which no frame gets its pixels. -/
def refusing : (call : Call) → call.Answer
  | .selectObject _ _ => nullptr
  | .setDIBits _ _ _ _ _ _ => 0
  | call => granting call

theorem undrawn_refusing (call : Call) : Undrawn ⟨call, refusing call⟩ := by
  cases call with
  | selectObject dc bitmap | setDIBits dc bitmap start lines bits bmiHeader => rfl
  | _ => exact trivial

/-- A bitmap is made on such a system and deleted by the destructor. -/
theorem disciplined_refusing :
    ∃ history renderer trace, machine.Run history renderer ∧ renderer.bitmap = 4 ∧
      (destroy renderer).Runs trace () ∧ Disciplined (calls history ++ trace) := by
  have hrun := run_servedAll refusing [.initializeFor 1, .renderImageFrame [0, 0, 0, 0] 1 1]
  have hdestroy (renderer : Renderer) : (destroy renderer).Runs _ () :=
    (destroy renderer).runs_simulate (fun _ ↦ refusing) []
  refine ⟨_, _, _, hrun, rfl, hdestroy _, (disciplined_iff _ _ _ hrun (hdestroy _)).2 ?_⟩
  rw [List.forall_mem_append]
  exact ⟨forall_mem_servedAll refusing .new undrawn_refusing _,
    Program.forall_mem_simulate undrawn_refusing [] _⟩

/-- One frame of one pixel on a system that grants every request: its pixels are set while the
bitmap is selected. -/
theorem not_disciplined_frame :
    ∃ trace, machine.Run (frameHistory true) (afterFrame true) ∧
      (destroy (afterFrame true)).Runs trace () ∧
      ¬ Disciplined (calls (frameHistory true) ++ trace) := by
  refine ⟨_, run_frameHistory true,
    (destroy (afterFrame true)).runs_simulate (fun _ ↦ selecting true) [], ?_⟩
  have hforbidden : discipline.follow .start (calls (frameHistory true)) = none := by rfl
  unfold Disciplined
  rw [Monitor.follow_append, hforbidden]
  exact Bool.false_ne_true

end WindowCaster.Server.BitmapSelection
