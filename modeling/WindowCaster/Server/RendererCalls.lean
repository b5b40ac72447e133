import WindowCaster.Foundation.Transition
import WindowCaster.Server.Rendering

/-!
# The calls of a renderer

The public operations of `Renderer` in any order, from the constructor on, against any behaviour of
the system. What a monitor makes of the calls of every single operation, it makes of the calls of
a whole run.
-/

namespace WindowCaster.Server.RendererCalls

open Foundation.Interaction Foundation.Monitoring Foundation.Text Foundation.Transition
open Win32 Rendering

inductive Operation
  | initializeFor (targetWindow : Hwnd)
  | renderImageFrame (imageData : Bytes) (width height : UInt64)
  | renderVideoFrame (frameData : Bytes) (width height : UInt64)
  | clear

/-- The operation with what it returns to its caller, which is nothing for `Clear`. -/
def Operation.perform (renderer : Renderer) : Operation → Program Os (Option Bool × Renderer)
  | .initializeFor targetWindow => do
    let (ready, renderer) ← renderer.initializeFor targetWindow
    return (some ready, renderer)
  | .renderImageFrame imageData width height => do
    let (success, renderer) ← renderer.renderImageFrame imageData width height
    return (some success, renderer)
  | .renderVideoFrame frameData width height => do
    let (success, renderer) ← renderer.renderVideoFrame frameData width height
    return (some success, renderer)
  | .clear => do
    renderer.clear
    return (none, renderer)

/-- The destructor, without the shutdown of GDI+. -/
def destroy (renderer : Renderer) : Program Os Unit := do
  let _ ← renderer.cleanup

structure Performed where
  operation : Operation
  trace : List (Event Os)
  returned : Option Bool

def machine : Machine Renderer Performed where
  start renderer := renderer = .new
  step renderer performed renderer' :=
    (performed.operation.perform renderer).Runs performed.trace (performed.returned, renderer')

/-- The calls of the system, over all operations. -/
def calls (history : List Performed) : List (Event Os) := history.flatMap Performed.trace

@[simp]
theorem calls_concat (history : List Performed) (performed : Performed) :
    calls (history ++ [performed]) = calls history ++ performed.trace := by
  simp [calls]

/-! ## A system without memory -/

section Served

variable (answers : (call : Call) → call.Answer) (renderer : Renderer) (operation : Operation)

/-- An operation on a system that always answers a call in the same way. -/
def served : List (Event Os) × Option Bool × Renderer :=
  (operation.perform renderer).simulate (fun _ ↦ answers) []

theorem step_served :
    machine.step renderer
      ⟨operation, (served answers renderer operation).1, (served answers renderer operation).2.1⟩
      (served answers renderer operation).2.2 := by
  have hruns := (operation.perform renderer).runs_simulate (fun _ ↦ answers) []
  exact hruns

theorem forall_mem_served {allowed : Event Os → Prop} (h : ∀ call, allowed ⟨call, answers call⟩) :
    ∀ event ∈ (served answers renderer operation).1, allowed event :=
  Program.forall_mem_simulate h [] _

/-- Operations one after the other on such a system. -/
def servedAll : Renderer → List Operation → List Performed × Renderer
  | renderer, [] => ([], renderer)
  | renderer, operation :: operations =>
    let first := served answers renderer operation
    let rest := servedAll first.2.2 operations
    (⟨operation, first.1, first.2.1⟩ :: rest.1, rest.2)

theorem path_servedAll (operations : List Operation) :
    machine.Path renderer (servedAll answers renderer operations).1
      (servedAll answers renderer operations).2 := by
  induction operations generalizing renderer with
  | nil => exact .nil
  | cons operation operations ih => exact .cons (step_served answers renderer operation) (ih _)

theorem run_servedAll (operations : List Operation) :
    machine.Run (servedAll answers .new operations).1 (servedAll answers .new operations).2 :=
  (Machine.Run.start rfl).path (path_servedAll answers .new operations)

theorem forall_mem_servedAll {allowed : Event Os → Prop} (h : ∀ call, allowed ⟨call, answers call⟩)
    (operations : List Operation) :
    ∀ event ∈ calls (servedAll answers renderer operations).1, allowed event := by
  induction operations generalizing renderer with
  | nil => simp [servedAll, calls]
  | cons operation operations ih =>
    rw [servedAll, calls, List.flatMap_cons, List.forall_mem_append]
    exact ⟨forall_mem_served answers renderer operation h, ih _⟩

end Served

/-! ## Monitors -/

section Monitors

variable {Ghost : Type} {allowed : Event Os → Prop} {monitor : Monitor Os Ghost}

/-- What every operation preserves together with a monitor holds along every run. -/
theorem follow_calls {start : Ghost} (inv : Ghost → Renderer → Prop) (hstart : inv start .new)
    (hstep : ∀ ghost renderer (operation : Operation), inv ghost renderer →
      (operation.perform renderer).Obeys allowed monitor ghost fun last result ↦ inv last result.2)
    {history : List Performed} {renderer : Renderer} (hrun : machine.Run history renderer)
    (hallowed : ∀ event ∈ calls history, allowed event) :
    ∃ ghost, monitor.follow start (calls history) = some ghost ∧ inv ghost renderer := by
  induction hrun with
  | start h =>
    obtain rfl := h
    exact ⟨start, rfl, hstart⟩
  | @next history renderer renderer' performed _ hperform ih =>
    rw [calls_concat, List.forall_mem_append] at hallowed
    obtain ⟨ghost, hghost, hinv⟩ := ih hallowed.1
    obtain ⟨last, hlast, hinv'⟩ := hstep ghost renderer _ hinv _ _ hperform hallowed.2
    refine ⟨last, ?_, hinv'⟩
    rw [calls_concat, Monitor.follow_append, hghost, Option.bind_some, hlast]

end Monitors

end WindowCaster.Server.RendererCalls
