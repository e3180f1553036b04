import BlobStore.Library.Program

set_option autoImplicit false

namespace Effects

section Compose

variable {E F : Type} {R : E → Type} {S : F → Type} {C σ τ α ε : Type} [Inhabited C]

-- Effects carried out by programs of a lower layer. One choice of the upper layer
-- is everything such a program meets below.
def composed (impl : (effect : E) → Program F S (R effect)) (sem : Sem F S C σ) : Sem E R (List C) σ :=
  fun effect choices state =>
    let outcome := exec sem (impl effect) choices state
    (outcome.1, outcome.2.2)

def composedWith (impl : (effect : E) → τ → Program F S (R effect × τ)) (sem : Sem F S C σ) :
    Sem E R (List C) (σ × τ) :=
  fun effect choices state =>
    let outcome := exec sem (impl effect state.2) choices state.1
    (outcome.1.1, outcome.2.2, outcome.1.2)

def EveryChoice (ok : C → Prop) (choices : List C) : Prop := ∀ choice ∈ choices, ok choice

variable {sem : Sem F S C σ} {ok : C → Prop}

-- The converse of soundness: what all executions satisfy is the weakest precondition.
theorem wp_complete (program : Program F S α) (post : α → σ → Prop) (state : σ)
    (holds : ∀ choices, EveryChoice ok choices →
      post (exec sem program choices state).1 (exec sem program choices state).2.2) :
    wp sem ok program post state := by
  induction program generalizing state with
  | pure value => exact holds [] (by simp [EveryChoice])
  | call effect next ih =>
      intro choice allowed
      refine ih _ _ ?_
      intro choices every
      exact holds (choice :: choices) (List.forall_mem_cons.mpr ⟨allowed, every⟩)

theorem wp_inline (impl : (effect : E) → Program F S (R effect)) (program : Program E R α)
    (post : α → σ → Prop) (state : σ)
    (holds : wp (composed impl sem) (EveryChoice ok) program post state) :
    wp sem ok (program.inline impl) post state := by
  induction program generalizing state with
  | pure value => exact holds
  | call effect next ih =>
      refine (wp_bind (impl effect) _ post state).mpr (wp_complete _ _ _ ?_)
      exact fun choices every => ih _ _ (holds choices every)

theorem wp_inline_with (impl : (effect : E) → τ → Program F S (R effect × τ))
    (program : Program E R α) (post : α × τ → σ → Prop) (state : σ) (carried : τ)
    (holds : wp (composedWith impl sem) (EveryChoice ok) program
      (fun value after => post (value, after.2) after.1) (state, carried)) :
    wp sem ok (program.inlineWith impl carried) post state := by
  induction program generalizing state carried with
  | pure value => exact holds
  | call effect next ih =>
      refine (wp_bind (impl effect carried) _ post state).mpr (wp_complete _ _ _ ?_)
      exact fun choices every => ih _ _ _ (holds choices every)

theorem wp_run_composed (fallback : ok default) (impl : (effect : E) → Program F S (R effect)) (effect : E)
    (post : Except ε (R effect) → σ → Prop) (state : σ)
    (holds : wp sem ok (impl effect) (fun reply after => post (.ok reply) after) state) :
    wp (composed impl sem) (EveryChoice ok)
      (ExceptT.run (Failing.perform effect : Failing E R ε (R effect))) post state := by
  rw [wp_run_perform]
  exact fun choices every => wp_sound ok (impl effect) _ choices state fallback every holds

theorem wp_run_composed_with (fallback : ok default)
    (impl : (effect : E) → τ → Program F S (R effect × τ)) (effect : E)
    (post : Except ε (R effect) → σ × τ → Prop) (state : σ) (carried : τ)
    (holds : wp sem ok (impl effect carried)
      (fun reply after => post (.ok reply.1) (after, reply.2)) state) :
    wp (composedWith impl sem) (EveryChoice ok)
      (ExceptT.run (Failing.perform effect : Failing E R ε (R effect))) post
      (state, carried) := by
  rw [wp_run_perform]
  exact fun choices every => wp_sound ok (impl effect carried) _ choices state fallback every holds

theorem wp_run_observed_composed (fallback : ok default)
    (impl : (effect : E) → Program F S (R effect)) (note : (effect : E) → R effect → τ → τ)
    (effect : E) (post : Except ε (R effect) → σ × τ → Prop) (state : σ) (seen : τ)
    (holds : wp sem ok (impl effect)
      (fun reply after => post (.ok reply) (after, note effect reply seen)) state) :
    wp (observed note (composed impl sem)) (EveryChoice ok)
      (ExceptT.run (Failing.perform effect : Failing E R ε (R effect))) post
      (state, seen) := by
  rw [wp_run_perform]
  exact fun choices every =>
    wp_sound ok (impl effect) (fun reply after =>
      post (.ok reply) (after, note effect reply seen)) choices
    state fallback every holds

end Compose

end Effects
