import Mathlib.Data.List.Basic

/-!
# Programs that call an environment

A `Program` is a finite tree of calls: each call names what is asked, and the continuation says
what happens for every possible answer. `Runs` is its trace semantics, with no restriction on the
answers, so a statement about every run is a statement about every behaviour of the environment.
`Ensures` is the corresponding postcondition judgement; its rules follow the syntax of a program.
-/

namespace WindowCaster.Foundation.Interaction

/-- The calls an environment offers, and the type of the answer to each of them. -/
structure Interface where
  Call : Type
  Answer : Call → Type

/-- One call together with the answer it received. -/
structure Event (I : Interface) where
  call : I.Call
  answer : I.Answer call

inductive Program (I : Interface) (Result : Type) where
  | done (result : Result)
  | ask (call : I.Call) (next : I.Answer call → Program I Result)

namespace Program

variable {I : Interface} {α β γ : Type}

def bind : Program I α → (α → Program I β) → Program I β
  | .done result, after => after result
  | .ask call next, after => .ask call fun answer ↦ (next answer).bind after

instance : Monad (Program I) where
  pure := .done
  bind := bind

theorem bind_done (program : Program I α) : program.bind .done = program := by
  induction program with
  | done result => rfl
  | ask call next ih => simp only [bind, ih]

theorem bind_assoc (program : Program I α) (first : α → Program I β) (second : β → Program I γ) :
    (program.bind first).bind second = program.bind fun result ↦ (first result).bind second := by
  induction program with
  | done result => rfl
  | ask call next ih => simp only [bind, ih]

instance : LawfulMonad (Program I) :=
  LawfulMonad.mk' _ bind_done (fun _ _ ↦ rfl) bind_assoc

/-- The program that makes one call and returns its answer. -/
def perform (call : I.Call) : Program I (I.Answer call) := .ask call .done

/-! ## Traces -/

/-- `program.Runs trace result`: with the answers recorded in `trace`, the program makes exactly
the calls of `trace`, in that order, and returns `result`. -/
def Runs : Program I α → List (Event I) → α → Prop
  | .done value, trace, result => trace = [] ∧ result = value
  | .ask call next, trace, result =>
    ∃ answer rest, trace = ⟨call, answer⟩ :: rest ∧ (next answer).Runs rest result

@[simp]
theorem runs_pure {value result : α} {trace : List (Event I)} :
    (pure value : Program I α).Runs trace result ↔ trace = [] ∧ result = value := Iff.rfl

@[simp]
theorem runs_perform {call : I.Call} {trace : List (Event I)} {result : I.Answer call} :
    (perform call).Runs trace result ↔ trace = [⟨call, result⟩] := by
  constructor
  · rintro ⟨answer, rest, rfl, rfl, rfl⟩
    rfl
  · rintro rfl
    exact ⟨result, [], rfl, rfl, rfl⟩

theorem runs_bind {program : Program I α} {after : α → Program I β} {trace : List (Event I)}
    {result : β} : (program >>= after).Runs trace result ↔
      ∃ first second value, trace = first ++ second ∧ program.Runs first value ∧
        (after value).Runs second result := by
  induction program generalizing trace with
  | done value =>
    constructor
    · intro h
      exact ⟨[], trace, value, rfl, ⟨rfl, rfl⟩, h⟩
    · rintro ⟨first, second, value', rfl, ⟨rfl, rfl⟩, h⟩
      exact h
  | ask call next ih =>
    constructor
    · rintro ⟨answer, rest, rfl, h⟩
      obtain ⟨first, second, value, rfl, hfirst, hsecond⟩ := (ih answer).1 h
      exact ⟨⟨call, answer⟩ :: first, second, value, rfl, ⟨answer, first, rfl, hfirst⟩, hsecond⟩
    · rintro ⟨first, second, value, rfl, ⟨answer, rest, rfl, hfirst⟩, hsecond⟩
      exact ⟨answer, rest ++ second, rfl, (ih answer).2 ⟨rest, second, value, rfl, hfirst, hsecond⟩⟩

/-- A program has at most one run at the beginning of a trace. -/
theorem runs_unique {program : Program I α} {first first' rest rest' : List (Event I)}
    {value value' : α} (h : program.Runs first value) (h' : program.Runs first' value')
    (heq : first ++ rest = first' ++ rest') : first = first' ∧ value = value' := by
  induction program generalizing first first' with
  | done result =>
    obtain ⟨rfl, rfl⟩ := h
    obtain ⟨rfl, rfl⟩ := h'
    exact ⟨rfl, rfl⟩
  | ask call next ih =>
    obtain ⟨answer, trace, rfl, hnext⟩ := h
    obtain ⟨answer', trace', rfl, hnext'⟩ := h'
    obtain ⟨hevent, htrace⟩ := List.cons_eq_cons.1 heq
    obtain rfl : answer = answer' := eq_of_heq (Event.mk.inj hevent).2
    obtain ⟨rfl, rfl⟩ := ih answer hnext hnext' htrace
    exact ⟨rfl, rfl⟩

/-- Whatever the environment may always answer with, the program has a run with such answers. -/
theorem exists_runs (allowed : Event I → Prop) (hanswer : ∀ call, ∃ answer, allowed ⟨call, answer⟩)
    (program : Program I α) :
    ∃ trace result, program.Runs trace result ∧ ∀ event ∈ trace, allowed event := by
  induction program with
  | done value => exact ⟨[], value, ⟨rfl, rfl⟩, by simp⟩
  | ask call next ih =>
    obtain ⟨answer, hallowed⟩ := hanswer call
    obtain ⟨trace, result, hruns, htrace⟩ := ih answer
    refine ⟨⟨call, answer⟩ :: trace, result, ⟨answer, trace, rfl, hruns⟩, ?_⟩
    intro event hevent
    rcases List.mem_cons.1 hevent with rfl | hevent
    · exact hallowed
    · exact htrace event hevent

/-- The program may have made these calls so far. -/
def Begins (program : Program I α) (trace : List (Event I)) : Prop :=
  ∃ rest result, program.Runs (trace ++ rest) result

/-- What has begun can be ended with answers that the environment may always give. -/
theorem Begins.exists_runs {program : Program I α} {trace : List (Event I)}
    (h : program.Begins trace) (allowed : Event I → Prop)
    (hanswer : ∀ call, ∃ answer, allowed ⟨call, answer⟩) :
    ∃ rest result, program.Runs (trace ++ rest) result ∧ ∀ event ∈ rest, allowed event := by
  induction trace generalizing program with
  | nil =>
    obtain ⟨rest, result, hruns, hrest⟩ := program.exists_runs allowed hanswer
    exact ⟨rest, result, hruns, hrest⟩
  | cons event trace ih =>
    obtain ⟨rest, result, hruns⟩ := h
    cases program with
    | done value => exact absurd hruns.1 (List.cons_ne_nil _ _)
    | ask call next =>
      obtain ⟨answer, after, heq, hnext⟩ := hruns
      obtain ⟨rfl, rfl⟩ := List.cons_eq_cons.1 heq
      obtain ⟨rest, result, hruns, hrest⟩ := ih ⟨rest, result, hnext⟩
      exact ⟨rest, result, ⟨answer, trace ++ rest, rfl, hruns⟩, hrest⟩

/-- Run a program against an environment whose answers may depend on the calls made before. -/
def simulate (environment : List (Event I) → (call : I.Call) → I.Answer call) :
    List (Event I) → Program I α → List (Event I) × α
  | _, .done result => ([], result)
  | history, .ask call next =>
    let event : Event I := ⟨call, environment history call⟩
    let rest := simulate environment (history ++ [event]) (next event.answer)
    (event :: rest.1, rest.2)

theorem runs_simulate (environment : List (Event I) → (call : I.Call) → I.Answer call)
    (history : List (Event I)) (program : Program I α) :
    program.Runs (program.simulate environment history).1 (program.simulate environment history).2 := by
  induction program generalizing history with
  | done result => exact ⟨rfl, rfl⟩
  | ask call next ih => exact ⟨_, _, rfl, ih _ _⟩

/-- What an environment without memory answers is allowed if each of its answers is. -/
theorem forall_mem_simulate {allowed : Event I → Prop} {environment : (call : I.Call) → I.Answer call}
    (h : ∀ call, allowed ⟨call, environment call⟩) (history : List (Event I)) (program : Program I α) :
    ∀ event ∈ (program.simulate (fun _ ↦ environment) history).1, allowed event := by
  induction program generalizing history with
  | done result => simp [simulate]
  | ask call next ih => exact List.forall_mem_cons.2 ⟨h call, ih _ _⟩

/-! ## Postconditions -/

/-- Every run of the program, whatever the answers, satisfies the postcondition. -/
def Ensures (program : Program I α) (post : List (Event I) → α → Prop) : Prop :=
  ∀ trace result, program.Runs trace result → post trace result

theorem ensures_pure {value : α} {post : List (Event I) → α → Prop} :
    (pure value : Program I α).Ensures post ↔ post [] value := by
  constructor
  · intro h
    exact h [] value ⟨rfl, rfl⟩
  · rintro h trace result ⟨rfl, rfl⟩
    exact h

theorem ensures_perform {call : I.Call} {post : List (Event I) → I.Answer call → Prop} :
    (perform call).Ensures post ↔ ∀ answer, post [⟨call, answer⟩] answer := by
  constructor
  · intro h answer
    exact h _ answer (runs_perform.2 rfl)
  · intro h trace result hruns
    rw [runs_perform.1 hruns]
    exact h result

theorem ensures_bind {program : Program I α} {after : α → Program I β}
    {post : List (Event I) → β → Prop} : (program >>= after).Ensures post ↔
      program.Ensures fun first value ↦ (after value).Ensures fun second ↦ post (first ++ second) := by
  constructor
  · intro h first value hfirst second result hsecond
    exact h _ _ (runs_bind.2 ⟨first, second, value, rfl, hfirst, hsecond⟩)
  · intro h trace result hruns
    obtain ⟨first, second, value, rfl, hfirst, hsecond⟩ := runs_bind.1 hruns
    exact h first value hfirst second result hsecond

theorem ensures_ite {condition : Prop} [Decidable condition] {yes no : Program I α}
    {post : List (Event I) → α → Prop} : (if condition then yes else no).Ensures post ↔
      (condition → yes.Ensures post) ∧ (¬ condition → no.Ensures post) := by
  split <;> simp_all

theorem Ensures.mono {program : Program I α} {post weaker : List (Event I) → α → Prop}
    (h : program.Ensures post) (hle : ∀ trace result, post trace result → weaker trace result) :
    program.Ensures weaker :=
  fun trace result hruns ↦ hle trace result (h trace result hruns)

theorem Ensures.and {program : Program I α} {first second : List (Event I) → α → Prop}
    (hfirst : program.Ensures first) (hsecond : program.Ensures second) :
    program.Ensures fun trace result ↦ first trace result ∧ second trace result :=
  fun trace result hruns ↦ ⟨hfirst trace result hruns, hsecond trace result hruns⟩

/-! ## Programs that make only certain calls -/

/-- Every call the program may come to make, with whatever answer, is an allowed event. -/
def Keeps (allowed : Event I → Prop) (program : Program I α) : Prop :=
  program.Ensures fun trace _ ↦ ∀ event ∈ trace, allowed event

variable {allowed : Event I → Prop}

theorem keeps_pure (value : α) : (pure value : Program I α).Keeps allowed :=
  ensures_pure.2 (by simp)

theorem keeps_perform {call : I.Call} :
    (perform call).Keeps allowed ↔ ∀ answer, allowed ⟨call, answer⟩ := by
  simp only [Keeps, ensures_perform, List.forall_mem_singleton]

theorem keeps_bind {program : Program I α} {after : α → Program I β} (h : program.Keeps allowed)
    (hafter : ∀ value, (after value).Keeps allowed) : (program >>= after).Keeps allowed :=
  ensures_bind.2 (h.mono fun _ value hfirst ↦ (hafter value).mono fun _ _ hsecond ↦
    List.forall_mem_append.2 ⟨hfirst, hsecond⟩)

theorem Keeps.mono {weaker : Event I → Prop} {program : Program I α} (h : program.Keeps allowed)
    (hle : ∀ event, allowed event → weaker event) : program.Keeps weaker :=
  Ensures.mono h fun _ _ hevents event hevent ↦ hle event (hevents event hevent)

theorem keeps_foldlM {f : β → α → Program I β} (h : ∀ state item, (f state item).Keeps allowed)
    (items : List α) (state : β) : (items.foldlM f state).Keeps allowed := by
  induction items generalizing state with
  | nil => exact keeps_pure state
  | cons item items ih => exact keeps_bind (h state item) ih

theorem keeps_mapM {f : α → Program I β} (h : ∀ item, (f item).Keeps allowed) (items : List α) :
    (items.mapM f).Keeps allowed := by
  induction items with
  | nil => exact keeps_pure []
  | cons item items ih =>
    rw [List.mapM_cons]
    exact keeps_bind (h item) fun _ ↦ keeps_bind ih fun _ ↦ keeps_pure _

/-! ## Results under assumptions on the answers -/

/-- If all answers are allowed, the result satisfies the postcondition. -/
def Returns (allowed : Event I → Prop) (program : Program I α) (post : α → Prop) : Prop :=
  program.Ensures fun trace result ↦ (∀ event ∈ trace, allowed event) → post result

theorem returns_pure {value : α} {post : α → Prop} :
    (pure value : Program I α).Returns allowed post ↔ post value := by
  simp [Returns, ensures_pure]

theorem returns_perform {call : I.Call} {post : I.Answer call → Prop} :
    (perform call).Returns allowed post ↔ ∀ answer, allowed ⟨call, answer⟩ → post answer := by
  simp only [Returns, ensures_perform, List.forall_mem_singleton]

theorem Returns.bind {program : Program I α} {after : α → Program I β} {middle : α → Prop}
    {post : β → Prop} (h : program.Returns allowed middle)
    (hafter : ∀ value, middle value → (after value).Returns allowed post) :
    (program >>= after).Returns allowed post := by
  refine ensures_bind.2 fun first value hfirst second result hsecond hallowed ↦ ?_
  rw [List.forall_mem_append] at hallowed
  exact hafter value (h first value hfirst hallowed.1) second result hsecond hallowed.2

theorem Returns.mono {program : Program I α} {post weaker : α → Prop}
    (h : program.Returns allowed post) (hle : ∀ result, post result → weaker result) :
    program.Returns allowed weaker :=
  Ensures.mono h fun _ result hpost hallowed ↦ hle result (hpost hallowed)

/-- A program whose result does not matter. -/
theorem returns_trivial (program : Program I α) : program.Returns allowed fun _ ↦ True :=
  fun _ _ _ _ ↦ trivial

/-- The rule for a loop over a list: the invariant speaks about the items already done. -/
theorem Returns.foldlM {f : β → α → Program I β} {start : β} (inv : List α → β → Prop)
    (hstart : inv [] start) (hstep : ∀ before item state, inv before state →
      (f state item).Returns allowed (inv (before ++ [item]))) (items : List α) :
    (items.foldlM f start).Returns allowed (inv items) := by
  suffices h : ∀ before state, inv before state →
      (items.foldlM f state).Returns allowed (inv (before ++ items)) by
    simpa using h [] start hstart
  induction items with
  | nil =>
    intro before state hinv
    exact returns_pure.2 (by simpa using hinv)
  | cons item items ih =>
    intro before state hinv
    refine (hstep before item state hinv).bind fun state' hinv' ↦ ?_
    simpa using ih _ _ hinv'

theorem Returns.mapM {f : α → Program I β} {g : α → β}
    (h : ∀ item, (f item).Returns allowed fun result ↦ result = g item) (items : List α) :
    (items.mapM f).Returns allowed fun results ↦ results = items.map g := by
  induction items with
  | nil => exact returns_pure.2 rfl
  | cons item items ih =>
    rw [List.mapM_cons]
    refine (h item).bind ?_
    rintro _ rfl
    refine ih.bind ?_
    rintro _ rfl
    exact returns_pure.2 rfl

end Program

end WindowCaster.Foundation.Interaction
