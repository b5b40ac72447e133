import WindowCaster.Foundation.Interaction
import WindowCaster.Foundation.Transition

/-!
# Monitors

A monitor follows the calls of a run with a state of its own and has no next state for a call that
it forbids. A condition on the events is exact if the monitor follows precisely the traces that meet
it. `Obeys` is the judgement that every run of a program is followed to its end, with what
is known then about the monitor's state and the result; its rules follow the syntax of a program.
-/

namespace WindowCaster.Foundation.Monitoring

open Interaction

/-- From the state before a call to the state after it, unless the call is forbidden. -/
abbrev Monitor (I : Interface) (Ghost : Type) := Ghost → Event I → Option Ghost

variable {I : Interface} {Ghost α β : Type}

namespace Monitor

variable (monitor : Monitor I Ghost)

/-- The state after a whole trace. -/
def follow (ghost : Ghost) (trace : List (Event I)) : Option Ghost := trace.foldlM monitor ghost

@[simp]
theorem follow_nil (ghost : Ghost) : monitor.follow ghost [] = some ghost := rfl

@[simp]
theorem follow_cons (ghost : Ghost) (event : Event I) (trace : List (Event I)) :
    monitor.follow ghost (event :: trace) =
      (monitor ghost event).bind fun next ↦ monitor.follow next trace := rfl

theorem follow_append (ghost : Ghost) (first second : List (Event I)) :
    monitor.follow ghost (first ++ second) =
      (monitor.follow ghost first).bind fun next ↦ monitor.follow next second :=
  List.foldlM_append

/-- A trace whose calls the monitor takes no notice of. -/
theorem follow_of_ignored {ghost : Ghost} {trace : List (Event I)}
    (h : ∀ event ∈ trace, monitor ghost event = some ghost) : monitor.follow ghost trace = some ghost := by
  induction trace with
  | nil => rfl
  | cons event trace ih =>
    obtain ⟨hevent, htrace⟩ := List.forall_mem_cons.1 h
    rw [follow_cons, hevent, Option.bind_some, ih htrace]

/-! ## Exact conditions -/

section Exact

variable (allowed : Event I → Prop) (inv : Ghost → Prop)

/-- From a state that satisfies the invariant, the monitor follows the trace to its end exactly if
all events are allowed, and the invariant then holds again. -/
def Exact (trace : List (Event I)) : Prop :=
  ∀ ghost, inv ghost →
    (∀ event ∈ trace, allowed event) ∧ (∃ last, monitor.follow ghost trace = some last ∧ inv last) ∨
      ¬ (∀ event ∈ trace, allowed event) ∧ monitor.follow ghost trace = none

variable {monitor allowed inv} {first second trace : List (Event I)}

/-- Events that are allowed and that the monitor lets pass. -/
theorem exact_of_kept (hallowed : ∀ event ∈ trace, allowed event)
    (hkept : ∀ event ∈ trace, ∀ ghost, inv ghost → ∃ next, monitor ghost event = some next ∧ inv next) :
    monitor.Exact allowed inv trace := by
  intro ghost hinv
  refine .inl ⟨hallowed, ?_⟩
  induction trace generalizing ghost with
  | nil => exact ⟨ghost, rfl, hinv⟩
  | cons event trace ih =>
    rw [List.forall_mem_cons] at hallowed hkept
    obtain ⟨next, hnext, hinv'⟩ := hkept.1 ghost hinv
    obtain ⟨last, hlast, hinv''⟩ := ih hallowed.2 hkept.2 next hinv'
    exact ⟨last, by rw [follow_cons, hnext, Option.bind_some, hlast], hinv''⟩

theorem Exact.append (hfirst : monitor.Exact allowed inv first)
    (hsecond : monitor.Exact allowed inv second) : monitor.Exact allowed inv (first ++ second) := by
  intro ghost hinv
  rw [List.forall_mem_append, follow_append]
  obtain ⟨hallowed, next, hnext, hinv'⟩ | ⟨hforbidden, hnone⟩ := hfirst ghost hinv
  · rw [hnext, Option.bind_some]
    obtain ⟨hallowed', hlast⟩ | ⟨hforbidden, hnone⟩ := hsecond next hinv'
    · exact .inl ⟨⟨hallowed, hallowed'⟩, hlast⟩
    · exact .inr ⟨fun h ↦ hforbidden h.2, hnone⟩
  · rw [hnone, Option.bind_none]
    exact .inr ⟨fun h ↦ hforbidden h.1, rfl⟩

theorem Exact.isSome_iff (h : monitor.Exact allowed inv trace) {ghost : Ghost} (hinv : inv ghost) :
    (monitor.follow ghost trace).isSome ↔ ∀ event ∈ trace, allowed event := by
  obtain ⟨hallowed, last, hlast, -⟩ | ⟨hforbidden, hnone⟩ := h ghost hinv
  · rw [hlast]
    exact iff_of_true rfl hallowed
  · rw [hnone]
    exact iff_of_false Bool.false_ne_true hforbidden

end Exact

end Monitor

end WindowCaster.Foundation.Monitoring

namespace WindowCaster.Foundation.Interaction.Program

open Monitoring

variable {I : Interface} {Ghost α β : Type} {allowed : Event I → Prop} {monitor : Monitor I Ghost}
  {ghost : Ghost}

/-- If all answers are allowed, the monitor follows the run to its end, and the postcondition
relates its last state to the result. -/
def Obeys (allowed : Event I → Prop) (monitor : Monitor I Ghost) (program : Program I α)
    (ghost : Ghost) (post : Ghost → α → Prop) : Prop :=
  program.Ensures fun trace result ↦ (∀ event ∈ trace, allowed event) →
    ∃ last, monitor.follow ghost trace = some last ∧ post last result

theorem obeys_pure {value : α} {post : Ghost → α → Prop} (h : post ghost value) :
    (pure value : Program I α).Obeys allowed monitor ghost post :=
  ensures_pure.2 fun _ ↦ ⟨ghost, rfl, h⟩

/-- A value may be replaced by what the postcondition looks at. -/
theorem Obeys.of_map {program : Program I α} {f : α → β} {post : Ghost → β → Prop}
    (h : (f <$> program).Obeys allowed monitor ghost post) :
    program.Obeys allowed monitor ghost fun last value ↦ post last (f value) := by
  intro trace value hruns
  apply h trace (f value)
  rw [map_eq_pure_bind]
  exact runs_bind.2 ⟨trace, [], value, by simp, hruns, rfl, rfl⟩

theorem obeys_perform {call : I.Call} {post : Ghost → I.Answer call → Prop}
    (h : ∀ answer, allowed ⟨call, answer⟩ →
      ∃ next, monitor ghost ⟨call, answer⟩ = some next ∧ post next answer) :
    (perform call).Obeys allowed monitor ghost post := by
  refine ensures_perform.2 fun answer hallowed ↦ ?_
  obtain ⟨next, hnext, hpost⟩ := h answer (List.forall_mem_singleton.1 hallowed)
  exact ⟨next, by simp [hnext], hpost⟩

theorem Obeys.mono {program : Program I α} {post post' : Ghost → α → Prop}
    (h : program.Obeys allowed monitor ghost post)
    (hpost : ∀ last value, post last value → post' last value) :
    program.Obeys allowed monitor ghost post' := by
  intro trace value hruns hallowed
  obtain ⟨last, hlast, hvalue⟩ := h trace value hruns hallowed
  exact ⟨last, hlast, hpost last value hvalue⟩

theorem Obeys.bind {program : Program I α} {after : α → Program I β} {middle : Ghost → α → Prop}
    {post : Ghost → β → Prop} (h : program.Obeys allowed monitor ghost middle)
    (hafter : ∀ next value, middle next value → (after value).Obeys allowed monitor next post) :
    (program >>= after).Obeys allowed monitor ghost post := by
  refine ensures_bind.2 fun first value hfirst second result hsecond hallowed ↦ ?_
  rw [List.forall_mem_append] at hallowed
  obtain ⟨next, hnext, hmiddle⟩ := h first value hfirst hallowed.1
  obtain ⟨last, hlast, hpost⟩ := hafter next value hmiddle second result hsecond hallowed.2
  refine ⟨last, ?_, hpost⟩
  calc
    _ = (monitor.follow ghost first).bind fun next ↦ monitor.follow next second :=
      monitor.follow_append ghost first second
    _ = _ := by rw [hnext, Option.bind_some, hlast]

/-- The monitor also follows a run that is cut off. -/
theorem Obeys.follow_of_begins {program : Program I α} {post : Ghost → α → Prop}
    (h : program.Obeys allowed monitor ghost post)
    (hanswer : ∀ call, ∃ answer, allowed ⟨call, answer⟩) {trace : List (Event I)}
    (hbegins : program.Begins trace) (hallowed : ∀ event ∈ trace, allowed event) :
    ∃ last, monitor.follow ghost trace = some last := by
  obtain ⟨rest, result, hruns, hrest⟩ := hbegins.exists_runs allowed hanswer
  obtain ⟨last, hlast, -⟩ :=
    h _ _ hruns (List.forall_mem_append.2 ⟨hallowed, hrest⟩)
  rw [Monitor.follow_append] at hlast
  obtain ⟨middle, hmiddle, -⟩ := Option.bind_eq_some_iff.1 hlast
  exact ⟨middle, hmiddle⟩

/-- A program that makes only calls of which the monitor takes no notice. -/
theorem Keeps.obeys {program : Program I α} {ignored : Event I → Prop} (h : program.Keeps ignored)
    (hignored : ∀ event, ignored event → monitor ghost event = some ghost) :
    program.Obeys allowed monitor ghost fun last _ ↦ last = ghost := by
  intro trace result hruns _
  refine ⟨ghost, monitor.follow_of_ignored fun event hevent ↦ ?_, rfl⟩
  exact hignored event (h trace result hruns event hevent)

end WindowCaster.Foundation.Interaction.Program

/-! ## Machines whose steps make calls -/

namespace WindowCaster.Foundation.Transition.Machine

open Interaction Monitoring

variable {I : Interface} {Ghost State Label : Type} {machine : Machine State Label}

/-- What every step preserves together with a monitor of its calls holds along every run. -/
theorem Run.follow {events : Label → List (Event I)} {allowed : Event I → Prop}
    {monitor : Monitor I Ghost} {ghost : Ghost} (inv : Ghost → State → Prop)
    (hstart : ∀ state, machine.start state → inv ghost state)
    (hstep : ∀ before state label state', inv before state → machine.step state label state' →
      (∀ event ∈ events label, allowed event) →
      ∃ after, monitor.follow before (events label) = some after ∧ inv after state')
    {labels : List Label} {state : State} (hrun : machine.Run labels state)
    (hallowed : ∀ event ∈ labels.flatMap events, allowed event) :
    ∃ last, monitor.follow ghost (labels.flatMap events) = some last ∧ inv last state := by
  induction hrun with
  | start h => exact ⟨ghost, rfl, hstart _ h⟩
  | @next labels state state' label _ hnext ih =>
    rw [List.flatMap_append, List.forall_mem_append, List.flatMap_singleton] at hallowed
    obtain ⟨middle, hmiddle, hinv⟩ := ih hallowed.1
    obtain ⟨last, hlast, hinv'⟩ := hstep _ _ _ _ hinv hnext hallowed.2
    refine ⟨last, ?_, hinv'⟩
    calc
      _ = (monitor.follow ghost (labels.flatMap events)).bind fun next ↦
          monitor.follow next (events label) := by
        rw [List.flatMap_append, List.flatMap_singleton, Monitor.follow_append]
      _ = _ := by rw [hmiddle, Option.bind_some, hlast]

end WindowCaster.Foundation.Transition.Machine
