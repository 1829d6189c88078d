import Mathlib.Data.Set.Basic
import Mathlib.Logic.Relation

/-!
Transition systems: the states of their runs, invariants, the projection of the runs of one system
onto those of another, what has been observed along a run, and runs that follow a script.
-/

namespace Transition

theorem steps_of_script {State Move : Type*} {step : State → State → Prop}
    {react : State → Move → Option State} {script : List Move} {state state' : State}
    (sound : ∀ move ∈ script, ∀ {state state'}, react state move = some state' → step state state')
    (ran : script.foldlM react state = some state') : Relation.ReflTransGen step state state' := by
  induction script generalizing state with
  | nil => exact Option.some.inj ran ▸ .refl
  | cons move rest ih =>
      obtain ⟨next, reacted, later⟩ := Option.bind_eq_some_iff.mp ran
      exact .head (sound move List.mem_cons_self reacted)
        (ih (fun other member => sound other (List.mem_cons_of_mem _ member)) later)

structure System (State : Type*) where
  initial : State → Prop
  step : State → State → Prop

namespace System

variable {State Abstract : Type*} {system : System State} {state state' : State}

inductive Reachable (system : System State) : State → Prop where
  | start {state : State} (initial : system.initial state) : Reachable system state
  | next {state state' : State} (reachable : Reachable system state)
      (step : system.step state state') :
      Reachable system state'

namespace Reachable

theorem invariant (property : State → Prop)
    (starts : ∀ {state}, system.initial state → property state)
    (keeps : ∀ {state state'}, system.Reachable state → property state → system.step state state' →
      property state')
    (reachable : system.Reachable state) : property state := by
  induction reachable with
  | start initial => exact starts initial
  | next reachable step holds => exact keeps reachable holds step

/-- An invariant under a guard on the state reached, where a guard that holds held before. -/
theorem guarded_invariant (guard property : State → Prop)
    (persists : ∀ {state state'}, system.Reachable state → system.step state state' →
      guard state' → guard state)
    (starts : ∀ {state}, system.initial state → property state)
    (keeps : ∀ {state state'}, system.Reachable state → guard state' → property state →
      system.step state state' → property state')
    (reachable : system.Reachable state) (guarded : guard state) : property state := by
  induction reachable with
  | start initial => exact starts initial
  | next reachable step holds =>
      exact keeps reachable guarded (holds (persists reachable step guarded)) step

theorem steps (reachable : system.Reachable state)
    (steps : Relation.ReflTransGen system.step state state') : system.Reachable state' := by
  induction steps with
  | refl => exact reachable
  | tail _ step reached => exact .next reached step

/-- A view under which every step is a sequence of steps of another system maps runs to runs. -/
theorem project {abstract : System Abstract} (view : State → Abstract)
    (starts : ∀ {state}, system.initial state → abstract.initial (view state))
    (simulated : ∀ {state state'}, system.Reachable state → system.step state state' →
      Relation.ReflTransGen abstract.step (view state) (view state'))
    (reachable : system.Reachable state) : abstract.Reachable (view state) := by
  induction reachable with
  | start initial => exact .start (starts initial)
  | next reachable step viewed => exact viewed.steps (simulated reachable step)

theorem mono {laxer : System State} (reachable : system.Reachable state)
    (starts : ∀ {state}, system.initial state → laxer.initial state)
    (allowed : ∀ {state state'}, system.step state state' → laxer.step state state') :
    laxer.Reachable state :=
  reachable.project id starts fun _ step => .single (allowed step)

end Reachable

def within (system : System State) (guard : State → Prop) : System State where
  initial state := system.initial state ∧ guard state
  step state state' := system.step state state' ∧ guard state'

theorem Reachable.guarded {guard : State → Prop}
    (reachable : (system.within guard).Reachable state) : guard state := by
  cases reachable with
  | start initial => exact initial.2
  | next _ step => exact step.2

section Possibility

variable {goal broken : State → Prop}

def Leads (system : System State) (goal : State → Prop) (state : State) : Prop :=
  ∃ state', Relation.ReflTransGen system.step state state' ∧ goal state'

theorem Leads.now (holds : goal state) : system.Leads goal state := ⟨state, .refl, holds⟩

theorem Leads.after (steps : Relation.ReflTransGen system.step state state')
    (leads : system.Leads goal state') : system.Leads goal state := by
  obtain ⟨last, later, holds⟩ := leads
  exact ⟨last, steps.trans later, holds⟩

theorem Leads.unless (onward : ¬ broken state →
    system.Leads (fun state => goal state ∨ broken state) state) :
    system.Leads (fun state => goal state ∨ broken state) state := by
  by_cases breaks : broken state
  · exact .now (.inr breaks)
  · exact onward breaks

end Possibility

section Memory

variable {Key : Type*} {observe : State → Set Key} {run : State × Set Key} {key : Key}

/-- The runs of a system, with what has been observed in any of their states so far. -/
def remembering (system : System State) (observe : State → Set Key) : System (State × Set Key) where
  initial run := system.initial run.1 ∧ run.2 = observe run.1
  step run run' := system.step run.1 run'.1 ∧ run'.2 = run.2 ∪ observe run'.1

theorem Reachable.forget (reachable : (system.remembering observe).Reachable run) :
    system.Reachable run.1 := by
  induction reachable with
  | start initial => exact .start initial.1
  | next _ step reached => exact .next reached step.1

theorem Reachable.observed (reachable : (system.remembering observe).Reachable run)
    (now : key ∈ observe run.1) : key ∈ run.2 := by
  cases reachable with
  | start initial => exact initial.2 ▸ now
  | next _ step => exact step.2 ▸ .inr now

theorem Reachable.remember (observe : State → Set Key) (reachable : system.Reachable state) :
    ∃ seen, (system.remembering observe).Reachable (state, seen) := by
  induction reachable with
  | @start state initial => exact ⟨observe state, .start ⟨initial, rfl⟩⟩
  | @next _ state' _ step reached =>
      obtain ⟨seen, remembered⟩ := reached
      exact ⟨seen ∪ observe state', .next remembered ⟨step, rfl⟩⟩

end Memory

end System

end Transition
