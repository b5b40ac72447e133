import Mathlib.Data.List.Forall2
import WindowCaster.Foundation.Interaction

/-!
# Two programs against corresponding answers

Two runs are compared call by call, with some calls left out and with names, such as handles, that
may differ between the two. The answers are only assumed to correspond as long as the calls do, and
something may be assumed of the first run by itself; `Coupled` is the judgement that then all calls
correspond, and its rules follow the syntax of the two programs.
-/

namespace WindowCaster.Foundation.Coupling

open Interaction

/-- How the events of two runs are compared. What is known about the names of the two runs grows
with their events. -/
structure Matching (I : Interface) (Names : Type) where
  /-- The calls that are left out of the comparison. -/
  silent : I.Call → Bool
  sameCall : Names → I.Call → I.Call → Prop
  sameAnswer : Event I → Event I → Prop
  extend : Names → Event I → Event I → Names
  /-- What is assumed of the first trace, and so of its parts. -/
  assumed : List (Event I) → Prop := fun _ ↦ True
  assumed_of_append : ∀ {first second}, assumed (first ++ second) → assumed first ∧ assumed second :=
    by simp

namespace Matching

variable {I : Interface} {Names : Type} (matching : Matching I Names)

/-- The events that are compared. -/
def visible (trace : List (Event I)) : List (Event I) :=
  trace.filter fun event ↦ !matching.silent event.call

/-- As long as the calls correspond, the answers do. -/
def Alike : Names → List (Event I) → List (Event I) → Prop
  | names, first :: firsts, second :: seconds =>
    matching.sameCall names first.call second.call →
      matching.sameAnswer first second ∧ Alike (matching.extend names first second) firsts seconds
  | _, _, _ => True

/-- All calls and all answers correspond; the last argument is what is known at the end. -/
inductive Matched : Names → List (Event I) → List (Event I) → Names → Prop
  | nil {names : Names} : Matched names [] [] names
  | cons {names last : Names} {first second : Event I} {firsts seconds : List (Event I)} :
      matching.sameCall names first.call second.call → matching.sameAnswer first second →
      Matched (matching.extend names first second) firsts seconds last →
      Matched names (first :: firsts) (second :: seconds) last

variable {matching}

@[simp]
theorem visible_nil : matching.visible [] = [] := rfl

theorem visible_append (first second : List (Event I)) :
    matching.visible (first ++ second) = matching.visible first ++ matching.visible second :=
  List.filter_append ..

theorem visible_of_silent {trace : List (Event I)}
    (h : ∀ event ∈ trace, matching.silent event.call) : matching.visible trace = [] := by
  apply List.filter_eq_nil_iff.2
  intro event hevent
  simp [h event hevent]

theorem visible_singleton {event : Event I} (h : matching.silent event.call = false) :
    matching.visible [event] = [event] := by
  simp [visible, h]

theorem visible_eq {trace : List (Event I)}
    (h : ∀ event ∈ trace, matching.silent event.call = false) : matching.visible trace = trace := by
  apply List.filter_eq_self.2
  intro event hevent
  simp [h event hevent]

theorem Alike.of_append {names : Names} {first first' second second' : List (Event I)}
    (h : matching.Alike names (first ++ first') (second ++ second')) :
    matching.Alike names first second := by
  induction first generalizing names second with
  | nil => trivial
  | cons event first ih =>
    cases second with
    | nil => trivial
    | cons event' second =>
      intro hcall
      obtain ⟨hanswer, hrest⟩ := h hcall
      exact ⟨hanswer, ih hrest⟩

theorem Matched.alike_of_append {names last : Names} {first first' second second' : List (Event I)}
    (hmatched : matching.Matched names first second last)
    (h : matching.Alike names (first ++ first') (second ++ second')) :
    matching.Alike last first' second' := by
  induction hmatched with
  | nil => exact h
  | cons hcall _ _ ih => exact ih (h hcall).2

/-- Answers that correspond in any case do so in front of others. -/
theorem Alike.append {names : Names} {first first' second second' : List (Event I)}
    (h : List.Forall₂ matching.sameAnswer first second)
    (hrest : ∀ names, matching.Alike names first' second') :
    matching.Alike names (first ++ first') (second ++ second') := by
  induction h generalizing names with
  | nil => exact hrest names
  | cons hanswer _ ih => exact fun _ ↦ ⟨hanswer, ih⟩

theorem Matched.append {names middle last : Names} {first first' second second' : List (Event I)}
    (h : matching.Matched names first second middle)
    (h' : matching.Matched middle first' second' last) :
    matching.Matched names (first ++ first') (second ++ second') last := by
  induction h with
  | nil => exact h'
  | cons hcall hanswer _ ih => exact .cons hcall hanswer (ih h')

theorem Matched.sameCall_last (hextend : ∀ {names call call'} (event event' : Event I),
      matching.sameCall names call call' →
        matching.sameCall (matching.extend names event event') call call')
    {names last : Names} {first second : List (Event I)}
    (h : matching.Matched names first second last) {call call' : I.Call}
    (hcall : matching.sameCall names call call') : matching.sameCall last call call' := by
  induction h with
  | nil => exact hcall
  | cons _ _ _ ih => exact ih (hextend _ _ hcall)

/-- If calls that correspond go on to do so, all calls correspond by what is known at the end. -/
theorem Matched.forall₂ (hextend : ∀ {names call call'} (event event' : Event I),
      matching.sameCall names call call' →
        matching.sameCall (matching.extend names event event') call call')
    {names last : Names} {first second : List (Event I)}
    (h : matching.Matched names first second last) :
    List.Forall₂ (matching.sameCall last) (first.map Event.call) (second.map Event.call) := by
  induction h with
  | nil => exact .nil
  | cons hcall _ hrest ih =>
    exact .cons (hrest.sameCall_last hextend (hextend _ _ hcall)) ih

/-- The pairs of names that the two runs bring. -/
def namesFrom (matching : Matching I Names) : Names → List (Event I) → List (Event I) → Names
  | names, first :: firsts, second :: seconds =>
    namesFrom matching (matching.extend names first second) firsts seconds
  | names, _, _ => names

theorem Matched.eq_namesFrom {names last : Names} {first second : List (Event I)}
    (h : matching.Matched names first second last) : last = matching.namesFrom names first second := by
  induction h with
  | nil => rfl
  | cons _ _ _ ih => exact ih

/-- The event has no names in it: the same call corresponds to it, with no other answer. -/
structure Plain (matching : Matching I Names) (event : Event I) : Prop where
  visible : matching.silent event.call = false
  sameCall (names : Names) : matching.sameCall names event.call event.call
  sameAnswer (answer : I.Answer event.call) :
    matching.sameAnswer event ⟨event.call, answer⟩ → answer = event.answer
  extend (names : Names) : matching.extend names event event = names

end Matching

end WindowCaster.Foundation.Coupling

namespace WindowCaster.Foundation.Interaction.Program

open Coupling

variable {I : Interface} {Names α α' β β' : Type} {matching : Matching I Names} {names : Names}

/-- If the first run is as assumed and the answers correspond as long as the calls do, all calls
correspond to the end, and the postcondition relates the two results. -/
def Coupled (matching : Matching I Names) (names : Names) (program : Program I α)
    (program' : Program I α') (post : Names → α → α' → Prop) : Prop :=
  program.Ensures fun trace result ↦ matching.assumed trace → program'.Ensures fun trace' result' ↦
    matching.Alike names (matching.visible trace) (matching.visible trace') →
      ∃ last, matching.Matched names (matching.visible trace) (matching.visible trace') last ∧
        post last result result'

theorem coupled_pure {value : α} {value' : α'} {post : Names → α → α' → Prop}
    (h : post names value value') :
    Coupled matching names (pure value : Program I α) (pure value' : Program I α') post :=
  ensures_pure.2 fun _ ↦ ensures_pure.2 fun _ ↦ ⟨names, .nil, h⟩

theorem coupled_perform {call call' : I.Call} {post : Names → I.Answer call → I.Answer call' → Prop}
    (hvisible : matching.silent call = false) (hvisible' : matching.silent call' = false)
    (hcall : matching.sameCall names call call')
    (h : ∀ answer answer', matching.assumed [⟨call, answer⟩] →
      matching.sameAnswer ⟨call, answer⟩ ⟨call', answer'⟩ →
      post (matching.extend names ⟨call, answer⟩ ⟨call', answer'⟩) answer answer') :
    Coupled matching names (perform call) (perform call') post := by
  refine ensures_perform.2 fun answer hassumed ↦ ensures_perform.2 fun answer' halike ↦ ?_
  rw [Matching.visible_singleton hvisible, Matching.visible_singleton hvisible'] at *
  obtain ⟨hanswer, -⟩ := halike hcall
  exact ⟨_, .cons hcall hanswer .nil, h answer answer' hassumed hanswer⟩

theorem Coupled.bind {program : Program I α} {program' : Program I α'} {after : α → Program I β}
    {after' : α' → Program I β'} {middle : Names → α → α' → Prop} {post : Names → β → β' → Prop}
    (h : Coupled matching names program program' middle)
    (hafter : ∀ next value value', middle next value value' →
      Coupled matching next (after value) (after' value') post) :
    Coupled matching names (program >>= after) (program' >>= after') post := by
  refine ensures_bind.2 fun first value hfirst second result hsecond hassumed ↦ ensures_bind.2 ?_
  intro first' value' hfirst' second' result' hsecond' halike
  obtain ⟨hbefore, hbehind⟩ := matching.assumed_of_append hassumed
  rw [Matching.visible_append, Matching.visible_append] at *
  obtain ⟨next, hnext, hmiddle⟩ :=
    h first value hfirst hbefore first' value' hfirst' halike.of_append
  have hrest :=
    hafter next value value' hmiddle second result hsecond hbehind second' result' hsecond'
  obtain ⟨last, hlast, hpost⟩ := hrest (hnext.alike_of_append halike)
  exact ⟨last, hnext.append hlast, hpost⟩

/-- A loop over a list whose steps do not bring new names. -/
theorem coupled_foldlM {f : β → α → Program I β}
    (h : ∀ state item, Coupled matching names (f state item) (f state item) fun last result result' ↦
      last = names ∧ result = result') (items : List α) (state : β) :
    Coupled matching names (items.foldlM f state) (items.foldlM f state) fun last result result' ↦
      last = names ∧ result = result' := by
  induction items generalizing state with
  | nil => exact coupled_pure ⟨rfl, rfl⟩
  | cons item items ih =>
    refine (h state item).bind ?_
    rintro _ next _ ⟨rfl, rfl⟩
    exact ih next

/-- Programs whose calls are all left out need not even make the same number of them. -/
theorem coupled_of_silent {program : Program I α} {program' : Program I α'} {known : α → Prop}
    {known' : α' → Prop} (h : program.Ensures fun trace result ↦
      (∀ event ∈ trace, matching.silent event.call) ∧ known result)
    (h' : program'.Ensures fun trace result ↦
      (∀ event ∈ trace, matching.silent event.call) ∧ known' result) :
    Coupled matching names program program' fun last result result' ↦
      last = names ∧ known result ∧ known' result' := by
  intro trace result hruns _ trace' result' hruns' _
  obtain ⟨hsilent, hknown⟩ := h trace result hruns
  obtain ⟨hsilent', hknown'⟩ := h' trace' result' hruns'
  rw [Matching.visible_of_silent hsilent, Matching.visible_of_silent hsilent']
  exact ⟨names, .nil, rfl, hknown, hknown'⟩

/-- A program without names is coupled with itself. -/
theorem Keeps.coupled {program : Program I α} (h : program.Keeps matching.Plain) :
    Coupled matching names program program fun last result result' ↦
      last = names ∧ result = result' := by
  intro trace result hruns hassumed trace' result' hruns' halike
  have hplain := h trace result hruns
  clear h hassumed
  induction program generalizing trace trace' with
  | done value =>
    obtain ⟨rfl, rfl⟩ := hruns
    obtain ⟨rfl, rfl⟩ := hruns'
    exact ⟨names, .nil, rfl, rfl⟩
  | ask call next ih =>
    obtain ⟨answer, rest, rfl, hrest⟩ := hruns
    obtain ⟨answer', rest', rfl, hrest'⟩ := hruns'
    obtain ⟨hevent, hplains⟩ := List.forall_mem_cons.1 hplain
    have hvisible := hevent.visible
    have hhead (answer'' : I.Answer call) (tail : List (Event I)) :
        matching.visible (⟨call, answer''⟩ :: tail) = ⟨call, answer''⟩ :: matching.visible tail :=
      List.filter_cons_of_pos (by simp [hvisible])
    rw [hhead, hhead] at *
    -- the first calls are the same, so the answers are, and the rest runs the same program
    obtain ⟨hanswer, halike⟩ := halike (hevent.sameCall names)
    obtain rfl : answer' = answer := hevent.sameAnswer answer' hanswer
    rw [hevent.extend] at halike
    obtain ⟨last, hlast, rfl, rfl⟩ := ih answer' rest hrest rest' hrest' halike hplains
    refine ⟨last, .cons (hevent.sameCall last) hanswer ?_, rfl, rfl⟩
    rwa [hevent.extend]

variable (matching) in
/-- A program all of whose calls are recognised has a run with answers that correspond to any given
ones, and otherwise with allowed answers. -/
theorem exists_runs_alike {allowed : Event I → Prop}
    (hanswer : ∀ call, ∃ answer, allowed ⟨call, answer⟩)
    (hsame : ∀ event, matching.sameAnswer event event) {program : Program I α}
    (hrecognised : program.Keeps fun event ↦ ∀ names call,
      matching.sameCall names call event.call → call = event.call)
    {given : List (Event I)} (hgiven : ∀ event ∈ given, allowed event) :
    ∃ trace result, program.Runs trace result ∧ (∀ event ∈ trace, allowed event) ∧
      ∀ names, matching.Alike names given trace := by
  classical
  induction program generalizing given with
  | done value =>
    refine ⟨[], value, ⟨rfl, rfl⟩, by simp, fun names ↦ ?_⟩
    cases given <;> trivial
  | ask call next ih =>
    -- the answer is the given one as long as the given call is the same
    obtain ⟨answer, hallowed, hgivenAnswer⟩ : ∃ answer, allowed ⟨call, answer⟩ ∧
        ∀ event rest, given = event :: rest → event.call = call → event = ⟨call, answer⟩ := by
      by_cases hfirst : ∃ answer rest, given = ⟨call, answer⟩ :: rest
      · obtain ⟨answer, rest, rfl⟩ := hfirst
        refine ⟨answer, hgiven _ List.mem_cons_self, ?_⟩
        rintro _ _ heq -
        exact (List.cons_eq_cons.1 heq).1.symm
      · obtain ⟨answer, hallowed⟩ := hanswer call
        refine ⟨answer, hallowed, ?_⟩
        rintro ⟨_, answer'⟩ rest rfl rfl
        exact absurd ⟨answer', rest, rfl⟩ hfirst
    have hnext : (next answer).Keeps fun event ↦ ∀ names call,
        matching.sameCall names call event.call → call = event.call :=
      fun trace result hruns event hevent ↦ hrecognised (⟨call, answer⟩ :: trace) result
        ⟨answer, trace, rfl, hruns⟩ event (List.mem_cons_of_mem _ hevent)
    obtain ⟨trace, result, hruns, htrace, halike⟩ := ih answer hnext fun event hevent ↦
      hgiven event (List.mem_of_mem_tail hevent)
    refine ⟨⟨call, answer⟩ :: trace, result, ⟨answer, trace, rfl, hruns⟩,
      List.forall_mem_cons.2 ⟨hallowed, htrace⟩, fun names ↦ ?_⟩
    cases given with
    | nil => trivial
    | cons event rest =>
      intro hcall
      have hevent := hrecognised (⟨call, answer⟩ :: trace) result ⟨answer, trace, rfl, hruns⟩ _
        List.mem_cons_self names event.call hcall
      obtain rfl := hgivenAnswer event rest rfl hevent
      exact ⟨hsame _, halike _⟩

end WindowCaster.Foundation.Interaction.Program
