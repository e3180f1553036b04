import Mathlib.Tactic.Common

set_option autoImplicit false

namespace Effects

-- A program is a tree of effects: it performs one effect of the signature E,
-- receives a reply of the type R assigns to it, and continues. The same tree is
-- executed sequentially by exec and one effect at a time by a pool.
inductive Program (E : Type) (R : E → Type) (α : Type) where
  | pure (value : α)
  | call (effect : E) (next : R effect → Program E R α)

namespace Program

variable {E F : Type} {R : E → Type} {S : F → Type} {α β γ : Type}

def bind (program : Program E R α) (rest : α → Program E R β) : Program E R β :=
  match program with
  | .pure value => rest value
  | .call effect next => .call effect (fun reply => (next reply).bind rest)

instance : Monad (Program E R) where
  pure := .pure
  bind := .bind

def perform (effect : E) : Program E R (R effect) := .call effect .pure

theorem bind_pure_right (program : Program E R α) : program.bind .pure = program := by
  induction program with
  | pure value => rfl
  | call effect next ih => simp only [bind, ih]

theorem bind_assoc (program : Program E R α) (first : α → Program E R β) (second : β → Program E R γ) :
    (program.bind first).bind second = program.bind (fun value => (first value).bind second) := by
  induction program with
  | pure value => rfl
  | call effect next ih => simp only [bind, ih]

instance : LawfulMonad (Program E R) :=
  LawfulMonad.mk' _ bind_pure_right (fun _ _ => rfl) bind_assoc

def inline (impl : (effect : E) → Program F S (R effect)) : Program E R α → Program F S α
  | .pure value => .pure value
  | .call effect next => (impl effect).bind (fun reply => (next reply).inline impl)

def inlineWith {τ : Type} (impl : (effect : E) → τ → Program F S (R effect × τ)) :
    Program E R α → τ → Program F S (α × τ)
  | .pure value, carried => .pure (value, carried)
  | .call effect next, carried =>
      (impl effect carried).bind (fun outcome => (next outcome.1).inlineWith impl outcome.2)

theorem inline_bind (impl : (effect : E) → Program F S (R effect)) (program : Program E R α)
    (rest : α → Program E R β) :
    (program >>= rest).inline impl = program.inline impl >>= fun value => (rest value).inline impl := by
  induction program with
  | pure value => rfl
  | call effect next ih =>
      refine Eq.trans (congrArg (bind (impl effect)) (funext ih)) ?_
      exact (bind_assoc (impl effect) _ _).symm

theorem inline_inline {G : Type} {Q : G → Type} (outer : (effect : F) → Program G Q (S effect))
    (inner : (effect : E) → Program F S (R effect)) (program : Program E R α) :
    (program.inline inner).inline outer = program.inline (fun effect => (inner effect).inline outer) := by
  induction program with
  | pure value => rfl
  | call effect next ih =>
      refine (inline_bind outer (inner effect) _).trans ?_
      exact congrArg (bind ((inner effect).inline outer)) (funext ih)

end Program

-- What one effect does to a state. The choice C resolves everything the program
-- does not determine: faults, the order of query results, the fate of a message.
abbrev Sem (E : Type) (R : E → Type) (C σ : Type) := (effect : E) → C → σ → R effect × σ

section Sequential

variable {E : Type} {R : E → Type} {C σ α β : Type}

-- Runs a program alone. When the choices run out the default one is taken, so a
-- finite list describes every behaviour of the finitely many calls of one run.
def exec [Inhabited C] (sem : Sem E R C σ) : Program E R α → List C → σ → α × List C × σ
  | .pure value, choices, state => (value, choices, state)
  | .call effect next, choices, state =>
      let outcome := sem effect (choices.headD default) state
      exec sem (next outcome.1) choices.tail outcome.2

def wp (sem : Sem E R C σ) (ok : C → Prop) : Program E R α → (α → σ → Prop) → σ → Prop
  | .pure value, post, state => post value state
  | .call effect next, post, state =>
      ∀ choice, ok choice → wp sem ok (next (sem effect choice state).1) post (sem effect choice state).2

variable {sem : Sem E R C σ} {ok : C → Prop}

theorem wp_bind (program : Program E R α) (rest : α → Program E R β) (post : β → σ → Prop) (state : σ) :
    wp sem ok (program >>= rest) post state ↔
      wp sem ok program (fun value after => wp sem ok (rest value) post after) state := by
  induction program generalizing state with
  | pure value => exact Iff.rfl
  | call effect next ih =>
      exact forall_congr' fun choice => imp_congr_right fun _ => ih _ _

@[simp] theorem wp_perform (effect : E) (post : R effect → σ → Prop) (state : σ) :
    wp sem ok (.perform effect) post state ↔
      ∀ choice, ok choice → post (sem effect choice state).1 (sem effect choice state).2 := Iff.rfl

theorem wp_mono (program : Program E R α) (first second : α → σ → Prop) (state : σ)
    (weaker : ∀ value after, first value after → second value after)
    (holds : wp sem ok program first state) : wp sem ok program second state := by
  induction program generalizing state with
  | pure value => exact weaker value state holds
  | call effect next ih => exact fun choice allowed => ih _ _ (holds choice allowed)

theorem wp_fewer {fewer : C → Prop} (program : Program E R α) (post : α → σ → Prop) (state : σ)
    (allowed : ∀ choice, fewer choice → ok choice) (holds : wp sem ok program post state) :
    wp sem fewer program post state := by
  induction program generalizing state with
  | pure value => exact holds
  | call effect next ih => exact fun choice good => ih _ _ (holds choice (allowed choice good))

theorem wp_always (program : Program E R α) (post : α → σ → Prop) (state : σ)
    (always : ∀ value after, post value after) :
    wp sem ok program post state := by
  induction program generalizing state with
  | pure value => exact always value state
  | call effect next ih => exact fun choice _ => ih _ _

theorem wp_inline_keeps {F : Type} {S : F → Type} (impl : (effect : F) → Program E R (S effect))
    (inv : σ → Prop) (each : ∀ effect (post : S effect → σ → Prop) state, inv state →
      (∀ reply after, inv after → post reply after) → wp sem ok (impl effect) post state)
    (program : Program F S α) (post : α → σ → Prop) (state : σ) (now : inv state)
    (ends : ∀ value after, inv after → post value after) :
    wp sem ok (program.inline impl) post state := by
  induction program generalizing state with
  | pure value => exact ends value state now
  | call effect next ih =>
      refine (wp_bind (impl effect) _ post state).mpr (each effect _ state now ?_)
      exact fun reply after kept => ih reply after kept

-- Every effect of a run has a choice, if only the default one.
theorem first_choice [Inhabited C] {ok : C → Prop} (fallback : ok default) {choices : List C}
    (allowed : ∀ choice ∈ choices, ok choice) :
    ok (choices.headD default) := by
  cases choices with
  | nil => exact fallback
  | cons choice rest => exact allowed choice (by simp)

theorem head_map {D : Type} [Inhabited C] [Inhabited D] (convert : C → D)
    (fallback : convert default = default) (choices : List C) :
    (choices.map convert).headD default = convert (choices.headD default) := by
  cases choices with
  | nil => exact fallback.symm
  | cons choice rest => rfl

theorem wp_sound [Inhabited C] (ok : C → Prop) (program : Program E R α) (post : α → σ → Prop)
    (choices : List C) (state : σ) (fallback : ok default) (allowed : ∀ choice ∈ choices, ok choice)
    (holds : wp sem ok program post state) :
    post (exec sem program choices state).1 (exec sem program choices state).2.2 := by
  induction program generalizing choices state with
  | pure value => exact holds
  | call effect next ih =>
      exact ih _ choices.tail _ (fun choice member => allowed choice (List.mem_of_mem_tail member))
        (holds _ (first_choice fallback allowed))

-- The first choice of a run apart from those of the rest.
theorem take_choices_iff [Inhabited C] {ok : C → Prop} (fallback : ok default)
    (choices : List C) (count : Nat) :
    (∀ choice ∈ choices.take (count + 1), ok choice) ↔
      ok (choices.headD default) ∧ ∀ choice ∈ choices.tail.take count, ok choice := by
  cases choices with
  | nil => simp [fallback]
  | cons choice rest => simp

theorem exec_rest [Inhabited C] (sem : Sem E R C σ) (program : Program E R α) (choices : List C) (state : σ) :
    ∃ used, (exec sem program choices state).2.1 = choices.drop used := by
  induction program generalizing choices state with
  | pure value => exact ⟨0, rfl⟩
  | call effect next ih =>
      obtain ⟨used, rest⟩ := ih (sem effect (choices.headD default) state).1 choices.tail
        (sem effect (choices.headD default) state).2
      refine ⟨used + 1, rest.trans ?_⟩
      rw [← List.drop_one, List.drop_drop, Nat.add_comm]

theorem exec_bind [Inhabited C] (program : Program E R α) (rest : α → Program E R β)
    (choices : List C) (state : σ) :
    exec sem (program >>= rest) choices state =
      exec sem (rest (exec sem program choices state).1) (exec sem program choices state).2.1
        (exec sem program choices state).2.2 := by
  induction program generalizing choices state with
  | pure value => rfl
  | call effect next ih => exact ih _ _ _

end Sequential

section Spared

variable {E F : Type} {R : E → Type} {S : F → Type} {C D σ τ υ α β : Type} [Inhabited C]

-- However a program runs, a part of the state stays as it is.
def Spares (sem : Sem E R C σ) (view : σ → τ) (program : Program E R α) : Prop :=
  ∀ choices state, view (exec sem program choices state).2.2 = view state

variable {sem : Sem E R C σ} {view : σ → τ}

theorem spares_pure (value : α) : Spares sem view (pure value : Program E R α) := fun _ _ => rfl

theorem spares_perform (effect : E) (each : ∀ choice state, view (sem effect choice state).2 = view state) :
    Spares sem view (.perform effect) := fun _ state => each _ state

theorem spares_bind (program : Program E R α) (rest : α → Program E R β) (first : Spares sem view program)
    (later : ∀ value, Spares sem view (rest value)) : Spares sem view (program >>= rest) := by
  intro choices state
  rw [exec_bind]
  exact (later _ _ _).trans (first choices state)

theorem spares_map (program : Program E R α) (convert : α → β) (holds : Spares sem view program) :
    Spares sem view (program >>= fun value => pure (convert value)) :=
  spares_bind program _ holds (fun value => spares_pure (convert value))

theorem spares_inline (impl : (effect : F) → Program E R (S effect))
    (each : ∀ effect, Spares sem view (impl effect)) (program : Program F S α) :
    Spares sem view (program.inline impl) := by
  induction program with
  | pure value => exact spares_pure value
  | call effect next ih => exact spares_bind (impl effect) _ (each effect) ih

theorem spares_inline_with (impl : (effect : F) → υ → Program E R (S effect × υ))
    (each : ∀ effect carried, Spares sem view (impl effect carried)) (program : Program F S α) (carried : υ) :
    Spares sem view (program.inlineWith impl carried) := by
  induction program generalizing carried with
  | pure value => exact spares_pure (value, carried)
  | call effect next ih =>
      exact spares_bind (impl effect carried) _ (each effect carried) (fun outcome => ih outcome.1 outcome.2)

-- A semantics that can answer every effect as another one does can run every program as
-- that one does.
theorem exec_covered [Inhabited D] {wider : Sem E R D τ} {ok : C → Prop} (fallback : ok default)
    (covered : ∀ effect choice state, ok choice →
      ∃ other, wider effect other (view state) =
      ((sem effect choice state).1, view (sem effect choice state).2))
    (program : Program E R α) (choices : List C) (state : σ)
    (allowed : ∀ choice ∈ choices, ok choice) :
    ∃ others, (exec wider program others (view state)).1 = (exec sem program choices state).1 ∧
      (exec wider program others (view state)).2.2 = view (exec sem program choices state).2.2 := by
  induction program generalizing choices state with
  | pure value => exact ⟨[], rfl, rfl⟩
  | call effect next ih =>
      obtain ⟨other, answered⟩ := covered effect (choices.headD default) state (first_choice fallback allowed)
      obtain ⟨others, result, last⟩ := ih (sem effect (choices.headD default) state).1 choices.tail
        (sem effect (choices.headD default) state).2
          (fun choice member => allowed choice (List.mem_of_mem_tail member))
      refine ⟨other :: others, ?_⟩
      have step : exec wider (.call effect next) (other :: others) (view state) =
          exec wider (next (wider effect other (view state)).1) others
            (wider effect other (view state)).2 := rfl
      rw [step, answered]
      exact ⟨result, last⟩

end Spared

section Failing

variable {E F : Type} {R : E → Type} {S : F → Type} {C σ ε α β : Type}

abbrev Failing (E : Type) (R : E → Type) (ε α : Type) := ExceptT ε (Program E R) α

namespace Failing

def perform (effect : E) : Failing E R ε (R effect) := ExceptT.lift (Program.perform effect)

def inline (impl : (effect : E) → Program F S (R effect)) (program : Failing E R ε α) : Failing F S ε α :=
  ExceptT.mk (Program.inline impl program.run)

def attempt (program : Failing E R ε α) : Failing E R ε (Except ε α) := ExceptT.lift program.run

end Failing

variable {sem : Sem E R C σ} {ok : C → Prop}

theorem exec_run_perform [Inhabited C] (effect : E) (rest : R effect → Failing E R ε α)
    (choices : List C) (state : σ) :
    exec sem (ExceptT.run ((Failing.perform effect : Failing E R ε (R effect)) >>= rest)) choices state =
      exec sem (rest (sem effect (choices.headD default) state).1).run choices.tail
        (sem effect (choices.headD default) state).2 := rfl

theorem exec_run_bind_ok [Inhabited C] (program : Failing E R ε α) (rest : α → Failing E R ε β)
    (choices : List C) (state : σ) (value : α)
    (succeeds : (exec sem program.run choices state).1 = .ok value) :
    exec sem (ExceptT.run (program >>= rest)) choices state =
      exec sem (rest value).run (exec sem program.run choices state).2.1
        (exec sem program.run choices state).2.2 := by
  rw [ExceptT.run_bind, exec_bind, succeeds]

theorem exec_run_bind_error [Inhabited C] (program : Failing E R ε α) (rest : α → Failing E R ε β)
    (choices : List C) (state : σ) (error : ε)
    (fails : (exec sem program.run choices state).1 = .error error) :
    exec sem (ExceptT.run (program >>= rest)) choices state =
      (.error error, (exec sem program.run choices state).2.1, (exec sem program.run choices state).2.2) := by
  rw [ExceptT.run_bind, exec_bind, fails]
  rfl

theorem exec_run_attempt [Inhabited C] (program : Failing E R ε α) (choices : List C) (state : σ) :
    exec sem (ExceptT.run (Failing.attempt program : Failing E R ε (Except ε α))) choices state =
      (.ok (exec sem program.run choices state).1, (exec sem program.run choices state).2.1,
        (exec sem program.run choices state).2.2) := by
  rw [Failing.attempt, ExceptT.run_lift, map_eq_pure_bind, exec_bind]
  rfl

@[simp] theorem wp_run_pure (value : α) (post : Except ε α → σ → Prop) (state : σ) :
    wp sem ok (ExceptT.run (pure value : Failing E R ε α)) post state ↔ post (.ok value) state := Iff.rfl

@[simp] theorem wp_run_perform (effect : E) (post : Except ε (R effect) → σ → Prop) (state : σ) :
    wp sem ok (ExceptT.run (Failing.perform effect : Failing E R ε (R effect))) post state ↔
      ∀ choice, ok choice → post (.ok (sem effect choice state).1) (sem effect choice state).2 := Iff.rfl

theorem wp_run_bind (program : Failing E R ε α) (rest : α → Failing E R ε β)
    (post : Except ε β → σ → Prop) (state : σ) :
    wp sem ok (ExceptT.run (program >>= rest)) post state ↔
      wp sem ok program.run (fun outcome after =>
        match outcome with
        | .ok value => wp sem ok (rest value).run post after
        | .error error => post (.error error) after) state := by
  rw [ExceptT.run_bind, wp_bind]
  have each : ∀ (outcome : Except ε α) (after : σ),
      wp sem ok (match outcome with
          | .ok value => (rest value).run
          | .error error => pure (.error error)) post after ↔
        (match outcome with
          | .ok value => wp sem ok (rest value).run post after
          | .error error => post (.error error) after) := by
    intro outcome after
    cases outcome <;> exact Iff.rfl
  exact ⟨wp_mono _ _ _ _ (fun outcome after => (each outcome after).mp),
    wp_mono _ _ _ _ (fun outcome after => (each outcome after).mpr)⟩

theorem wp_run_map (program : Failing E R ε α) (convert : α → β) (post : σ → Prop) (state : σ)
    (holds : wp sem ok program.run (fun _ after => post after) state) :
    wp sem ok (ExceptT.run (program >>= fun value => pure (convert value)))
      (fun _ after => post after) state := by
  rw [wp_run_bind]
  refine wp_mono _ _ _ _ ?_ holds
  rintro (error | value) after kept <;> exact kept

@[simp] theorem wp_run_attempt (program : Failing E R ε α)
    (post : Except ε (Except ε α) → σ → Prop) (state : σ) :
    wp sem ok (ExceptT.run (Failing.attempt program)) post state ↔
      wp sem ok program.run (fun outcome after => post (.ok outcome) after) state := by
  unfold Failing.attempt
  rw [ExceptT.run_lift, map_eq_pure_bind, wp_bind]
  exact Iff.rfl

end Failing

section Lens

variable {E F : Type} {R : E → Type} {S : F → Type} {C D σ τ α : Type}

-- A component whose effects act on one part of a larger state: its programs can
-- be reasoned about on that part alone.
theorem wp_inline_part {inner : Sem E R C σ} {outer : Sem F S D τ} (okInner : C → Prop)
    {okOuter : D → Prop} (impl : (effect : E) → Program F S (R effect)) (get : τ → σ)
    (set : τ → σ → τ) (getSet : ∀ whole part, get (set whole part) = part)
    (setSet : ∀ whole one two, set (set whole one) two = set whole two)
    (setGet : ∀ whole, set whole (get whole) = whole)
    (each : ∀ effect (post : R effect → τ → Prop) whole,
      (∀ choice, okInner choice →
        post (inner effect choice (get whole)).1 (set whole (inner effect choice (get whole)).2)) →
        wp outer okOuter (impl effect) post whole)
    (program : Program E R α) (post : α → τ → Prop) (whole : τ)
    (holds : wp inner okInner program (fun value part => post value (set whole part)) (get whole)) :
    wp outer okOuter (program.inline impl) post whole := by
  induction program generalizing whole with
  | pure value => simpa only [Program.inline, wp, setGet] using holds
  | call effect next ih =>
      refine (wp_bind (impl effect) _ post whole).mpr (each effect _ whole ?_)
      intro choice allowed
      apply ih
      simpa only [getSet, setSet] using holds choice allowed

-- The same for one run under given choices, of which the part takes what concerns it.
theorem exec_inline_part [Inhabited C] [Inhabited D] {inner : Sem E R C σ} {outer : Sem F S D τ}
    (impl : (effect : E) → Program F S (R effect)) (choose : D → C) (get : τ → σ) (set : τ → σ → τ)
    (fallback : choose default = default) (getSet : ∀ whole part, get (set whole part) = part)
    (setSet : ∀ whole one two, set (set whole one) two = set whole two)
    (setGet : ∀ whole, set whole (get whole) = whole)
    (each : ∀ effect choices whole,
      exec outer (impl effect) choices whole =
      ((inner effect (choose (choices.headD default)) (get whole)).1, choices.tail,
        set whole (inner effect (choose (choices.headD default)) (get whole)).2))
    (program : Program E R α) (choices : List D) (whole : τ) :
    let part := exec inner program (choices.map choose) (get whole)
    let result := exec outer (program.inline impl) choices whole
    result.1 = part.1 ∧ result.2.1.map choose = part.2.1 ∧ result.2.2 = set whole part.2.2 := by
  induction program generalizing choices whole with
  | pure value => exact ⟨rfl, rfl, (setGet whole).symm⟩
  | call effect next ih =>
      have first : (choices.map choose).headD default = choose (choices.headD default) :=
        head_map choose fallback choices
      have performed : exec inner (.call effect next) (choices.map choose) (get whole) =
          exec inner (next (inner effect (choose (choices.headD default)) (get whole)).1)
            (choices.tail.map choose)
            (inner effect (choose (choices.headD default)) (get whole)).2 := by
        rw [List.map_tail, ← first]
        rfl
      have inlined : exec outer ((Program.call effect next).inline impl) choices whole =
          exec outer
            ((next (inner effect (choose (choices.headD default)) (get whole)).1).inline impl) choices.tail
            (set whole (inner effect (choose (choices.headD default)) (get whole)).2) := by
        rw [Program.inline]
        exact (exec_bind (impl effect) _ choices whole).trans (by rw [each])
      have later := ih (inner effect (choose (choices.headD default)) (get whole)).1 choices.tail
        (set whole (inner effect (choose (choices.headD default)) (get whole)).2)
      simp only [getSet, setSet] at later
      rw [performed, inlined]
      exact later

end Lens

section Observed

variable {E : Type} {R : E → Type} {C σ τ α : Type}

-- The same semantics with an observer that sees every effect and its reply, and
-- has no influence on either.
def observed (note : (effect : E) → R effect → τ → τ) (sem : Sem E R C σ) : Sem E R C (σ × τ) :=
  fun effect choice state =>
    let outcome := sem effect choice state.1
    (outcome.1, outcome.2, note effect outcome.1 state.2)

variable {sem : Sem E R C σ} {ok : C → Prop} {note : (effect : E) → R effect → τ → τ}

-- One that sees the choice and the state before the effect as well.
def watched (note : (effect : E) → C → σ → τ → τ) (sem : Sem E R C σ) : Sem E R C (σ × τ) :=
  fun effect choice state =>
    let outcome := sem effect choice state.1
    (outcome.1, outcome.2, note effect choice state.1 state.2)

theorem wp_observed_iff (program : Program E R α) (post : α → σ → Prop) (state : σ) (seen : τ) :
    wp (observed note sem) ok program (fun value after => post value after.1) (state, seen) ↔
      wp sem ok program post state := by
  induction program generalizing state seen with
  | pure value => exact Iff.rfl
  | call effect next ih => exact forall_congr' fun choice => imp_congr_right fun _ => ih _ _ _

theorem exec_observed [Inhabited C] (sem : Sem E R C σ) (note : (effect : E) → R effect → τ → τ)
    (program : Program E R α) (choices : List C) (state : σ) (seen : τ) :
    (exec (observed note sem) program choices (state, seen)).1 = (exec sem program choices state).1 ∧
      (exec (observed note sem) program choices (state, seen)).2.2.1 =
        (exec sem program choices state).2.2 := by
  induction program generalizing choices state seen with
  | pure value => exact ⟨rfl, rfl⟩
  | call effect next ih => exact ih _ _ _ _

structure Event (E : Type) (R : E → Type) where
  effect : E
  reply : R effect

end Observed

end Effects
