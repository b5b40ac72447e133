import WindowCaster.Foundation.Interaction
import WindowCaster.Foundation.Transition
import Mathlib.Data.DFinsupp.WellFounded

/-!
# Machines that stop

A machine terminates when its steps are well-founded: it can take no infinite sequence of steps, so
from every state it reaches one in which no step is possible. Two general orders serve to show it: a
program goes down with every answer it gets, and a family of programs goes down when one of them
does.
-/

namespace WindowCaster.Foundation

open Interaction

namespace Transition.Machine

variable {State Label : Type} (machine : Machine State Label)

/-- Some step leads from the second state to the first one. -/
def Steps (state' state : State) : Prop := ∃ label, machine.step state label state'

/-- No step is possible. -/
def Final (state : State) : Prop := ∀ label state', ¬ machine.step state label state'

def Terminates : Prop := WellFounded machine.Steps

variable {machine}

/-- A run of a machine that terminates can be continued to its end. -/
theorem Terminates.exists_final (h : machine.Terminates) (state : State) :
    ∃ labels final, machine.Path state labels final ∧ machine.Final final := by
  induction state using WellFounded.induction h with
  | h state ih =>
    by_cases hfinal : machine.Final state
    · exact ⟨[], state, .nil, hfinal⟩
    · obtain ⟨label, state', hstep⟩ : ∃ label state', machine.step state label state' := by
        simpa only [Final, not_forall, not_not] using hfinal
      obtain ⟨labels, final, hpath, hlast⟩ := ih state' ⟨label, hstep⟩
      exact ⟨label :: labels, final, .cons hstep hpath, hlast⟩

/-- There is no infinite sequence of steps. -/
theorem Terminates.not_forever (h : machine.Terminates) :
    ¬ ∃ states : ℕ → State, ∀ n, ∃ label, machine.step (states n) label (states (n + 1)) := by
  rintro ⟨states, hsteps⟩
  exact (wellFounded_iff_isEmpty_descending_chain.1 h).false ⟨states, hsteps⟩

/-- Steps that go down in a well-founded order come to an end. -/
theorem terminates_of_rank {Rank : Type} {below : Rank → Rank → Prop} (hbelow : WellFounded below)
    (rank : State → Rank)
    (hstep : ∀ state label state', machine.step state label state' →
      below (rank state') (rank state)) : machine.Terminates := by
  apply Subrelation.wf _ (InvImage.wf rank hbelow)
  rintro state' state ⟨label, h⟩
  exact hstep state label state' h

end Transition.Machine

namespace Interaction.Program

variable {I : Interface} {α : Type}

/-- The first program is what the second one goes on with after its call. -/
def Continues (rest program : Program I α) : Prop :=
  ∃ call next answer, program = .ask call next ∧ rest = next answer

theorem wellFounded_continues : WellFounded (Continues (I := I) (α := α)) := by
  constructor
  intro program
  induction program with
  | done result =>
    constructor
    rintro rest ⟨call, next, answer, hnone, -⟩
    cases hnone
  | ask call next ih =>
    constructor
    rintro rest ⟨_, _, answer, hask, rfl⟩
    cases hask
    exact ih answer

end Interaction.Program

namespace Termination

variable {ι : Type} {σ : Type} {below : σ → σ → Prop}

/-- One member of the family has gone down, and the others are as they were. -/
def OneDown (below : σ → σ → Prop) (family' family : ι → σ) : Prop :=
  ∃ i, below (family' i) (family i) ∧ ∀ j, j ≠ i → family' j = family j

theorem wellFounded_oneDown [Finite ι] (h : WellFounded below) :
    WellFounded (OneDown (ι := ι) below) := by
  -- the first place at which two families differ is the only one, whatever the order of the places
  apply Subrelation.wf _ (Pi.Lex.wellFounded (WellOrderingRel (α := ι)) fun _ ↦ h)
  rintro family' family ⟨i, hdown, hothers⟩
  refine ⟨i, fun j hj ↦ hothers j ?_, hdown⟩
  rintro rfl
  exact irrefl_of WellOrderingRel j hj

end Termination

end WindowCaster.Foundation
