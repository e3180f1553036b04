import BlobStore.Library.Program
import Mathlib.Logic.Function.Basic

set_option autoImplicit false

namespace Effects

section Sequential

variable {Op σ α : Type}

structure Transition (Op σ α : Type) where
  before : σ
  op : Op
  result : α
  after : σ

def transition (step : Op → σ → α × σ) (state : σ) (op : Op) : Transition Op σ α :=
  ⟨state, op, (step op state).1, (step op state).2⟩

-- Whole operations executed one after the other, each to its end.
def transitions (step : Op → σ → α × σ) : σ → List Op → List (Transition Op σ α)
  | _, [] => []
  | state, op :: rest => transition step state op :: transitions step (step op state).2 rest

def finalState (step : Op → σ → α × σ) (state : σ) (ops : List Op) : σ :=
  ops.foldl (fun current op => (step op current).2) state

theorem transition_mem (step : Op → σ → α × σ) (state : σ) (early late : List Op) (op : Op) :
    transition step (finalState step state early) op ∈ transitions step state (early ++ op :: late) := by
  induction early generalizing state with
  | nil => simp [transitions, finalState]
  | cons head rest ih => exact List.mem_cons_of_mem _ (ih (step head state).2)

theorem last_transition (step : Op → σ → α × σ) (state : σ) (ops : List Op) (op : Op) :
    transition step (finalState step state ops) op ∈ transitions step state (ops ++ [op]) :=
  transition_mem step state ops [] op

theorem transition_op (step : Op → σ → α × σ) (state : σ) (ops : List Op) :
    ∀ taken ∈ transitions step state ops, taken.op ∈ ops := by
  induction ops generalizing state with
  | nil => simp [transitions]
  | cons op rest ih =>
      intro taken member
      cases List.mem_cons.mp member with
      | inl first => exact first ▸ List.mem_cons_self
      | inr later => exact List.mem_cons_of_mem _ (ih _ taken later)

theorem transitions_hold (step : Op → σ → α × σ) (inv : σ → Prop) (good : Op → σ → Prop)
    (post : Transition Op σ α → Prop)
    (each : ∀ state op, inv state → good op state → post (transition step state op) ∧ inv (step op state).2)
    (state : σ) (ops : List Op) (start : inv state)
    (allGood : ∀ taken ∈ transitions step state ops, good taken.op taken.before) :
    ∀ taken ∈ transitions step state ops, inv taken.before ∧ post taken ∧ inv taken.after := by
  induction ops generalizing state with
  | nil => simp [transitions]
  | cons op rest ih =>
      obtain ⟨met, kept⟩ := each state op start (allGood _ List.mem_cons_self)
      intro taken member
      cases List.mem_cons.mp member with
      | inl first =>
          subst first
          exact ⟨start, met, kept⟩
      | inr later =>
          exact ih _ kept (fun other inRest => allGood other (List.mem_cons_of_mem _ inRest)) taken later

theorem final_state_holds (step : Op → σ → α × σ) (inv : σ → Prop) (good : Op → Prop)
    (each : ∀ state op, inv state → good op → inv (step op state).2)
    (state : σ) (ops : List Op) (start : inv state) (allGood : ∀ op ∈ ops, good op) :
    inv (finalState step state ops) := by
  induction ops generalizing state with
  | nil => exact start
  | cons op rest ih =>
      exact ih _ (each state op start (allGood op (by simp)))
        (fun other inRest => allGood other (by simp [inRest]))

-- When, on every good state, one operation keeps the property exactly under a
-- condition on the state before it, a run keeps it exactly when every operation
-- meets the condition: the first one that does not is where the property is lost.
theorem transitions_iff (step : Op → σ → α × σ) (inv property : σ → Prop) (good : Op → Prop)
    (condition : Op → σ → Prop)
    (each : ∀ state op, inv state → property state → good op →
      inv (step op state).2 ∧ (property (step op state).2 ↔ condition op state))
    (state : σ) (ops : List Op) (start : inv state) (holds : property state) (allGood : ∀ op ∈ ops, good op) :
    (∀ taken ∈ transitions step state ops, property taken.after) ↔
      ∀ taken ∈ transitions step state ops, condition taken.op taken.before := by
  induction ops generalizing state with
  | nil => simp [transitions]
  | cons op rest ih =>
      obtain ⟨kept, here⟩ := each state op start holds (allGood op (by simp))
      have later : ∀ other ∈ rest, good other := fun other inRest => allGood other (by simp [inRest])
      simp only [transitions, List.forall_mem_cons, transition]
      constructor
      · rintro ⟨first, others⟩
        exact ⟨here.mp first, (ih _ kept first later).mp others⟩
      · rintro ⟨first, others⟩
        have first := here.mpr first
        exact ⟨first, (ih _ kept first later).mpr others⟩

end Sequential

section Interleaved

variable {ι E : Type} {R : E → Type} {C σ α : Type} [DecidableEq ι]

structure Step (ι E : Type) (R : E → Type) (σ : Type) where
  proc : ι
  event : Event E R
  before : σ
  after : σ

structure Pool (ι E : Type) (R : E → Type) (α σ : Type) where
  procs : ι → Program E R α
  state : σ
  history : List (Step ι E R σ)

namespace Pool

def start (procs : ι → Program E R α) (state : σ) : Pool ι E R α σ := ⟨procs, state, []⟩

-- The chosen process performs its next effect; a finished one does nothing.
def step (sem : Sem E R C σ) (pool : Pool ι E R α σ) (turn : ι × C) : Pool ι E R α σ :=
  match pool.procs turn.1 with
  | .pure _ => pool
  | .call effect next =>
      let outcome := sem effect turn.2 pool.state
      ⟨Function.update pool.procs turn.1 (next outcome.1), outcome.2,
        pool.history ++ [⟨turn.1, ⟨effect, outcome.1⟩, pool.state, outcome.2⟩]⟩

def run (sem : Sem E R C σ) (pool : Pool ι E R α σ) (schedule : List (ι × C)) : Pool ι E R α σ :=
  schedule.foldl (step sem) pool

def Along (sem : Sem E R C σ) (condition : Pool ι E R α σ → ι × C → Prop) :
    Pool ι E R α σ → List (ι × C) → Prop
  | _, [] => True
  | pool, turn :: rest => condition pool turn ∧ Along sem condition (pool.step sem turn) rest

instance decidableAlong (sem : Sem E R C σ) (condition : Pool ι E R α σ → ι × C → Prop)
    [each : ∀ pool turn, Decidable (condition pool turn)] :
    (pool : Pool ι E R α σ) → (schedule : List (ι × C)) → Decidable (Along sem condition pool schedule)
  | _, [] => inferInstanceAs (Decidable True)
  | pool, turn :: rest =>
      have : Decidable (Along sem condition (pool.step sem turn) rest) :=
        decidableAlong sem condition (pool.step sem turn) rest
      inferInstanceAs (Decidable (condition pool turn ∧ Along sem condition (pool.step sem turn) rest))

theorem step_cases (sem : Sem E R C σ) (pool : Pool ι E R α σ) (turn : ι × C) :
    (pool.step sem turn = pool ∧ ∃ value, pool.procs turn.1 = .pure value) ∨
      ∃ effect next, pool.procs turn.1 = .call effect next ∧
        pool.step sem turn = ⟨Function.update pool.procs turn.1 (next (sem effect turn.2 pool.state).1),
          (sem effect turn.2 pool.state).2,
          pool.history ++ [⟨turn.1, ⟨effect, (sem effect turn.2 pool.state).1⟩, pool.state,
            (sem effect turn.2 pool.state).2⟩]⟩ := by
  unfold step
  cases shape : pool.procs turn.1 with
  | pure value => exact .inl ⟨rfl, value, rfl⟩
  | call effect next => exact .inr ⟨effect, next, rfl, rfl⟩

theorem run_snoc (sem : Sem E R C σ) (pool : Pool ι E R α σ) (schedule : List (ι × C)) (turn : ι × C) :
    pool.run sem (schedule ++ [turn]) = (pool.run sem schedule).step sem turn := by
  simp only [run, List.foldl_append, List.foldl_cons, List.foldl_nil]

theorem step_recorded (sem : Sem E R C σ) (pool : Pool ι E R α σ) (turn : ι × C) (effect : E)
    (next : R effect → Program E R α) (shape : pool.procs turn.1 = .call effect next) :
    ∃ step ∈ (pool.step sem turn).history, step.proc = turn.1 ∧ step.event.effect = effect := by
  cases step_cases sem pool turn with
  | inl idle =>
      obtain ⟨-, value, finished⟩ := idle
      rw [shape] at finished
      cases finished
  | inr active =>
      obtain ⟨performed, rest, again, stepped⟩ := active
      obtain ⟨rfl, -⟩ := Program.call.inj (shape.symm.trans again)
      rw [stepped]
      exact ⟨_, List.mem_append_right _ (List.mem_singleton.mpr rfl), rfl, rfl⟩

theorem run_holds (sem : Sem E R C σ) (inv : Pool ι E R α σ → Prop)
    (condition : Pool ι E R α σ → ι × C → Prop)
    (each : ∀ pool turn, inv pool → condition pool turn → inv (pool.step sem turn))
    (pool : Pool ι E R α σ) (schedule : List (ι × C)) (begins : inv pool)
    (along : Along sem condition pool schedule) : inv (pool.run sem schedule) := by
  induction schedule generalizing pool with
  | nil => exact begins
  | cons turn rest ih => exact ih _ (each pool turn begins along.1) along.2

theorem along_of_prefixes (sem : Sem E R C σ) (condition : Pool ι E R α σ → ι × C → Prop)
    (pool : Pool ι E R α σ) (schedule : List (ι × C))
    (holds : ∀ early turn late, schedule = early ++ turn :: late →
      condition (pool.run sem early) turn) :
    Along sem condition pool schedule := by
  induction schedule generalizing pool with
  | nil => trivial
  | cons turn rest ih =>
      refine ⟨holds [] turn rest rfl, ih _ ?_⟩
      intro early later late same
      exact holds (turn :: early) later late (by rw [same]; rfl)

theorem along_mono (sem : Sem E R C σ) (one two : Pool ι E R α σ → ι × C → Prop)
    (weaker : ∀ pool turn, one pool turn → two pool turn) (pool : Pool ι E R α σ)
    (schedule : List (ι × C)) (along : Along sem one pool schedule) :
    Along sem two pool schedule := by
  induction schedule generalizing pool with
  | nil => trivial
  | cons turn rest ih => exact ⟨weaker pool turn along.1, ih _ along.2⟩

theorem along_and (sem : Sem E R C σ) (one two : Pool ι E R α σ → ι × C → Prop) (pool : Pool ι E R α σ)
    (schedule : List (ι × C)) (first : Along sem one pool schedule) (second : Along sem two pool schedule) :
    Along sem (fun pool turn => one pool turn ∧ two pool turn) pool schedule := by
  induction schedule generalizing pool with
  | nil => trivial
  | cons turn rest ih => exact ⟨⟨first.1, second.1⟩, ih _ first.2 second.2⟩

theorem along_of_forall (sem : Sem E R C σ) (condition : ι × C → Prop) (pool : Pool ι E R α σ)
    (schedule : List (ι × C)) (holds : ∀ turn ∈ schedule, condition turn) :
    Along sem (fun _ => condition) pool schedule := by
  induction schedule generalizing pool with
  | nil => trivial
  | cons turn rest ih =>
      exact ⟨holds turn (by simp), ih _ (fun other member => holds other (by simp [member]))⟩

end Pool

end Interleaved

end Effects
