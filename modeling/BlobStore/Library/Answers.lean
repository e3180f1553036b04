import BlobStore.Library.Ownership

set_option autoImplicit false

namespace Effects

variable {ι E F : Type} {R : E → Type} {S : F → Type} {C σ τ υ α : Type}

-- Handlers that carry a value along: it is one more part of the ghost state.
theorem meets_inline_with {contract : Contract E R τ}
    (impl : (effect : F) → υ → Program E R (S effect × υ)) (program : Program F S α)
    (post : α × υ → τ → Prop) (ghost : τ) (carried : υ) :
    meets contract (program.inlineWith impl carried) post ghost ↔
      meets (fun effect after whole =>
          meets contract (impl effect whole.2)
            (fun outcome later => after outcome.1 (later, outcome.2)) whole.1)
        program (fun value whole => post (value, whole.2) whole.1) (ghost, carried) := by
  induction program generalizing ghost carried with
  | pure value => rfl
  | call effect next ih =>
      refine (meets_bind (impl effect carried) _ post ghost).trans ?_
      have rest := fun (outcome : S effect × υ) later => propext (ih outcome.1 later outcome.2)
      exact iff_of_eq (congrArg (fun after => meets contract (impl effect carried) after ghost)
        (funext fun outcome => funext (rest outcome)))

theorem noting_monotone {note : (effect : E) → R effect → τ → τ} {permitted : E → τ → Prop}
    {possible : (effect : E) → R effect → τ → Prop} :
    (noting note permitted possible).Monotone :=
  fun _ _ _ _ weaker holds => ⟨holds.1, fun reply may => weaker reply _ (holds.2 reply may)⟩

-- A program that keeps to a contract, within its bounds.
theorem meets_within {note : (effect : E) → R effect → τ → τ} {permitted : E → τ → Prop}
    {possible : (effect : E) → R effect → τ → Prop} {touches : E → Prop}
    {replies : (effect : E) → R effect → Prop} (program : Program E R α) (post : α → τ → Prop)
    (answers : α → Prop) (ghost : τ)
    (holds : meets (noting note permitted possible) program post ghost)
    (bounded : meets (confined touches replies) program (fun value _ => answers value) ()) :
    meets (noting note (fun effect ghost => permitted effect ghost ∧ touches effect)
      (fun effect reply ghost => possible effect reply ghost ∧ replies effect reply)) program
        (fun value ghost => post value ghost ∧ answers value) ghost := by
  induction program generalizing ghost with
  | pure value => exact ⟨holds, bounded⟩
  | call effect next ih =>
      exact ⟨⟨holds.1, bounded.1⟩, fun reply may => ih reply _ (holds.2 reply may.1) (bounded.2 reply may.2)⟩

-- A program within its bounds stays there, whatever is noted of its calls.
theorem meets_beside {touches : E → Prop} {replies : (effect : E) → R effect → Prop}
    (note : (effect : E) → R effect → τ → τ) (program : Program E R α) (ghost : τ)
    (holds : meets (confined touches replies) program (fun _ _ => True) ()) :
    meets (noting note (fun effect _ => touches effect)
      (fun effect reply _ => replies effect reply)) program (fun _ _ => True) ghost := by
  induction program generalizing ghost with
  | pure value => trivial
  | call effect next ih => exact ⟨holds.1, fun reply may => ih reply _ (holds.2 reply may)⟩

-- What two contracts say of one program, each with its own notes.
theorem meets_both {υ : Type} {note : (effect : E) → R effect → τ → τ} {permitted : E → τ → Prop}
    {possible : (effect : E) → R effect → τ → Prop} {noteToo : (effect : E) → R effect → υ → υ}
    {permittedToo : E → υ → Prop} {possibleToo : (effect : E) → R effect → υ → Prop}
    (program : Program E R α) (post : α → τ → Prop) (postToo : α → υ → Prop) (ghost : τ)
    (ghostToo : υ) (one : meets (noting note permitted possible) program post ghost)
    (two : meets (noting noteToo permittedToo possibleToo) program postToo ghostToo) :
    meets (noting (fun effect reply both => (note effect reply both.1, noteToo effect reply both.2))
      (fun effect both => permitted effect both.1 ∧ permittedToo effect both.2)
      (fun effect reply both => possible effect reply both.1 ∧ possibleToo effect reply both.2))
      program (fun value both => post value both.1 ∧ postToo value both.2) (ghost, ghostToo) := by
  induction program generalizing ghost ghostToo with
  | pure value => exact ⟨one, two⟩
  | call effect next ih =>
      exact ⟨⟨one.1, two.1⟩, fun reply may => ih reply _ _ (one.2 reply may.1) (two.2 reply may.2)⟩

namespace Pool

-- Processes of different kinds, each under its own contract. What one has noted stays
-- noted when it has finished.
theorem noted_holds [DecidableEq ι] {note : (effect : E) → R effect → τ → τ}
    {permitted : ι → E → τ → Prop} {possible : ι → (effect : E) → R effect → τ → Prop}
    (sem : Sem E R C σ) (first : τ) (posts : ι → α → τ → Prop) (inv : σ → (ι → τ) → Prop)
    (allowed : ι × C → Prop) (each : ∀ proc effect choice state (ghosts : ι → τ), inv state ghosts →
      allowed (proc, choice) → permitted proc effect (ghosts proc) →
      possible proc effect (sem effect choice state).1 (ghosts proc) ∧
      inv (sem effect choice state).2
      (Function.update ghosts proc (note effect (sem effect choice state).1 (ghosts proc))))
    (procs : ι → Program E R α) (state : σ) (schedule : List (ι × C))
    (meet : ∀ proc, meets (noting note (permitted proc) (possible proc)) (procs proc) (posts proc)
      first) (begins : inv state (fun _ => first)) (fits : ∀ turn ∈ schedule, allowed turn) :
    ∃ ghosts, inv ((start procs state).run sem schedule).state ghosts ∧
      ∀ proc, meets (noting note (permitted proc) (possible proc))
          (((start procs state).run sem schedule).procs proc) (posts proc) (ghosts proc) := by
  refine ⟨noted note first ((start procs state).run sem schedule).history, ?_⟩
  refine run_holds sem (fun pool => inv pool.state (noted note first pool.history) ∧
    ∀ proc, meets (noting note (permitted proc) (possible proc)) (pool.procs proc) (posts proc)
      (noted note first pool.history proc))
    (fun _ turn => allowed turn) ?_ _ schedule ⟨begins, meet⟩ (along_of_forall sem allowed _ schedule fits)
  intro pool turn now may
  cases step_cases sem pool turn with
  | inl idle =>
      rw [idle.1]
      exact now
  | inr active =>
      obtain ⟨effect, next, shape, stepped⟩ := active
      have mine := now.2 turn.1
      rw [shape] at mine
      obtain ⟨expected, after⟩ := each turn.1 effect turn.2 pool.state _ now.1 may mine.1
      have ghosts : noted note first
          (pool.history ++ [⟨turn.1, ⟨effect, (sem effect turn.2 pool.state).1⟩, pool.state,
          (sem effect turn.2 pool.state).2⟩]) = Function.update (noted note first pool.history) turn.1
            (note effect (sem effect turn.2 pool.state).1 (noted note first pool.history turn.1)) := by
        funext proc
        rw [noted_snoc]
        by_cases same : turn.1 = proc
        · rw [if_pos same, ← same, Function.update_self]
        · rw [if_neg same, Function.update_of_ne (Ne.symm same)]
      rw [stepped]
      dsimp only
      rw [ghosts]
      refine ⟨after, fun proc => ?_⟩
      by_cases same : proc = turn.1
      · rw [same, Function.update_self, Function.update_self]
        exact mine.2 _ expected
      · rw [Function.update_of_ne same, Function.update_of_ne same]
        exact now.2 proc

variable [DecidableEq ι] {note : (effect : E) → R effect → τ → τ} {permitted : E → τ → Prop}
  {possible : (effect : E) → R effect → τ → Prop}

theorem meets_run (sem : Sem E R C σ) (first : τ) (posts : ι → α → τ → Prop)
    (procs : ι → Program E R α) (state : σ) (schedule : List (ι × C))
    (meet : ∀ proc, meets (noting note permitted possible) (procs proc) (posts proc) first)
    (along : Along sem (fun pool turn => ∀ effect next, pool.procs turn.1 = .call effect next →
      permitted effect (noted note first pool.history turn.1) →
      possible effect (sem effect turn.2 pool.state).1 (noted note first pool.history turn.1))
      (start procs state) schedule) :
    ∀ proc, meets (noting note permitted possible)
      (((start procs state).run sem schedule).procs proc) (posts proc)
      (noted note first ((start procs state).run sem schedule).history proc) := by
  refine run_holds sem (fun pool => ∀ proc,
    meets (noting note permitted possible) (pool.procs proc) (posts proc)
    (noted note first pool.history proc)) _ ?_ _ schedule meet along
  intro pool turn now foreseen proc
  cases step_cases sem pool turn with
  | inl idle =>
      rw [idle.1]
      exact now proc
  | inr active =>
      obtain ⟨effect, next, shape, stepped⟩ := active
      rw [stepped, noted_snoc]
      by_cases same : turn.1 = proc
      · subst same
        have mine := now turn.1
        rw [shape] at mine
        simp only [Function.update_self, if_true]
        exact mine.2 _ (foreseen effect next shape mine.1)
      · simpa only [same, if_false, Function.update_of_ne (Ne.symm same)] using now proc

-- As shared_holds, with what each process has made sure of when it answers.
theorem shared_answers (sem : Sem E R C σ) (first : τ) (ended : τ → Prop) (posts : ι → α → τ → Prop)
    (inv : σ → (ι → τ) → Prop) (allowed : E → C → (ι → τ) → Prop)
    (each : ∀ effect choice state (phases : ι → τ) proc, inv state phases →
      allowed effect choice phases → permitted effect (phases proc) →
      possible effect (sem effect choice state).1 (phases proc) ∧
      inv (sem effect choice state).2
      (Function.update phases proc (note effect (sem effect choice state).1 (phases proc))))
    (ends : ∀ state (phases : ι → τ) proc, inv state phases → ended (phases proc) →
      inv state (Function.update phases proc first))
    (procs : ι → Program E R α) (state : σ) (schedule : List (ι × C))
    (meet : ∀ proc, meets (noting note permitted possible) (procs proc) (posts proc) first)
    (finishes : ∀ proc value ghost, posts proc value ghost → ended ghost)
    (begins : inv state (fun _ => first))
    (along : Along sem (fun pool turn => ∀ effect next, pool.procs turn.1 = .call effect next →
      allowed effect turn.2 (pool.ghosts note first)) (start procs state) schedule) :
    inv ((start procs state).run sem schedule).state
      (((start procs state).run sem schedule).ghosts note first) ∧
      ∀ proc value, ((start procs state).run sem schedule).procs proc = .pure value →
          ∃ ghost, posts proc value ghost := by
  have finish : ∀ proc, meets (noting note permitted possible) (procs proc) (fun _ => ended) first :=
    fun proc => meets_mono noting_monotone _ _ _ first (finishes proc) (meet proc)
  have upTo : ∀ early, Along sem (fun pool turn => ∀ effect next, pool.procs turn.1 = .call effect next →
      allowed effect turn.2 (pool.ghosts note first)) (start procs state) early →
        inv ((start procs state).run sem early).state
          (((start procs state).run sem early).ghosts note first) :=
    fun early alongEarly => shared_holds sem first ended inv allowed each ends procs state
      early finish begins alongEarly
  refine ⟨upTo schedule along, fun proc value answered => ?_⟩
  have last := meets_run sem first posts procs state schedule meet ?_ proc
  · rw [answered] at last
    exact ⟨_, last⟩
  · refine along_of_prefixes sem _ _ schedule ?_
    rintro early turn late rfl effect next shape asks
    obtain ⟨alongEarly, now, -⟩ := (along_append sem _ _ early (turn :: late)).mp along
    have ghost : ((start procs state).run sem early).ghosts note first turn.1 =
        noted note first ((start procs state).run sem early).history turn.1 := ghosts_active shape
    have step := each effect turn.2 _ _ turn.1 (upTo early alongEarly) (now effect next shape)
    rw [ghost] at step
    exact (step asks).1

end Pool

end Effects
