import Mathlib.Data.List.Induction

/-!
# Labelled transition systems and their runs

A run is recorded with its list of labels, so an invariant may speak about the past as well as
about the state. A run can be continued along a path of further steps.
-/

namespace WindowCaster.Foundation.Transition

structure Machine (State Label : Type) where
  start : State → Prop
  step : State → Label → State → Prop

namespace Machine

variable {State Label : Type}

/-- `machine.Run labels state`: the steps with these labels lead from a start state to `state`. -/
inductive Run (machine : Machine State Label) : List Label → State → Prop
  | start {state : State} : machine.start state → Run machine [] state
  | next {labels : List Label} {state state' : State} {label : Label} :
      Run machine labels state → machine.step state label state' →
      Run machine (labels ++ [label]) state'

/-- What holds at the start and is preserved by every step holds along every run. -/
theorem Run.invariant {machine : Machine State Label} {labels : List Label} {state : State}
    (h : machine.Run labels state) (inv : List Label → State → Prop)
    (hstart : ∀ state, machine.start state → inv [] state)
    (hstep : ∀ labels state label state', inv labels state → machine.step state label state' →
      inv (labels ++ [label]) state') : inv labels state := by
  induction h with
  | start h => exact hstart _ h
  | next _ hs ih => exact hstep _ _ _ _ ih hs

/-- The last step of a run. -/
theorem Run.of_concat {machine : Machine State Label} {labels : List Label} {label : Label}
    {state' : State} (h : machine.Run (labels ++ [label]) state') :
    ∃ state, machine.Run labels state ∧ machine.step state label state' := by
  generalize hall : labels ++ [label] = all at h
  cases h with
  | start _ => simp at hall
  | @next _ state _ _ hrun hstep =>
    obtain ⟨rfl, hlabel⟩ := List.append_inj' hall rfl
    obtain rfl := List.singleton_inj.1 hlabel
    exact ⟨state, hrun, hstep⟩

/-- The machine with only those of its steps that meet a condition. -/
def restrict (machine : Machine State Label) (condition : State → Label → State → Prop) :
    Machine State Label where
  start := machine.start
  step state label state' := machine.step state label state' ∧ condition state label state'

/-! ## Continuing a run -/

/-- The steps with these labels lead from one state to the other. -/
inductive Path (machine : Machine State Label) : State → List Label → State → Prop
  | nil {state : State} : Path machine state [] state
  | cons {state state' state'' : State} {label : Label} {labels : List Label} :
      machine.step state label state' → Path machine state' labels state'' →
      Path machine state (label :: labels) state''

theorem Path.append {machine : Machine State Label} {labels more : List Label}
    {state state' state'' : State} (h : machine.Path state labels state')
    (hpath : machine.Path state' more state'') : machine.Path state (labels ++ more) state'' := by
  induction h with
  | nil => exact hpath
  | cons hstep _ ih => exact .cons hstep (ih hpath)

/-- A path whose steps all meet the condition. -/
theorem Path.restrict {machine : Machine State Label} {condition : State → Label → State → Prop}
    {labels : List Label} {state state' : State} (h : machine.Path state labels state')
    (hcondition : ∀ label ∈ labels, ∀ before after, machine.step before label after →
      condition before label after) : (machine.restrict condition).Path state labels state' := by
  induction h with
  | nil => exact .nil
  | cons hstep _ ih =>
    rw [List.forall_mem_cons] at hcondition
    exact .cons ⟨hstep, hcondition.1 _ _ hstep⟩ (ih hcondition.2)

theorem Run.path {machine : Machine State Label} {labels more : List Label} {state state' : State}
    (h : machine.Run labels state) (hpath : machine.Path state more state') :
    machine.Run (labels ++ more) state' := by
  induction hpath generalizing labels with
  | nil => rwa [List.append_nil]
  | @cons _ _ _ label more hstep _ ih =>
    have hrest := ih (h.next hstep)
    rwa [List.append_assoc, List.singleton_append] at hrest

/-- A run can be cut at any of its labels. -/
theorem Run.cut {machine : Machine State Label} {before after : List Label} {label : Label}
    {last : State} (h : machine.Run (before ++ label :: after) last) :
    ∃ state state', machine.Run before state ∧ machine.step state label state' := by
  induction after using List.reverseRecOn generalizing last with
  | nil =>
    obtain ⟨state, hrun, hstep⟩ := h.of_concat
    exact ⟨state, last, hrun, hstep⟩
  | append_singleton after final ih =>
    rw [← List.cons_append, ← List.append_assoc] at h
    obtain ⟨state, hrun, -⟩ := h.of_concat
    exact ih hrun

end Machine

end WindowCaster.Foundation.Transition
