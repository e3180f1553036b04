import BlobStore.Library.Runs

set_option autoImplicit false

namespace Effects

section Alone

variable {E : Type} {R : E → Type} {C σ τ α : Type}

-- One process among others it knows nothing about: its state is what an observer
-- of this process alone has noted, and any reply the choice holds comes back.
def alone (note : (effect : E) → R effect → τ → τ) : Sem E R ((effect : E) → R effect) τ :=
  fun effect replies seen => (replies effect, note effect (replies effect) seen)

variable {note : (effect : E) → R effect → τ → τ}

-- What holds of the notes however the process ends, and cannot become true again
-- once it is false, holds of them now.
theorem alone_now (ok : ((effect : E) → R effect) → Prop) (fact : τ → Prop)
    (backwards : ∀ effect reply seen, fact (note effect reply seen) → fact seen)
    (replies : (effect : E) → R effect) (allowed : ok replies) (program : Program E R α) (post : α → τ → Prop)
    (implies : ∀ value seen, post value seen → fact seen) (seen : τ)
    (holds : wp (alone note) ok program post seen) : fact seen := by
  induction program generalizing seen with
  | pure value => exact implies value seen holds
  | call effect next ih => exact backwards effect _ seen (ih _ _ (holds replies allowed))

end Alone

section Histories

variable {ι E : Type} {R : E → Type} {C σ τ α : Type}

def Linked : σ → List (Step ι E R σ) → σ → Prop
  | first, [], last => first = last
  | first, step :: rest, last => step.before = first ∧ Linked step.after rest last

theorem linked_append (first last : σ) (one two : List (Step ι E R σ)) :
    Linked first (one ++ two) last ↔ ∃ middle, Linked first one middle ∧ Linked middle two last := by
  induction one generalizing first with
  | nil => simp [Linked]
  | cons step rest ih => simp only [List.cons_append, Linked, ih, and_assoc, exists_and_left]

theorem linked_loses (property : σ → Prop) (first last : σ) (history : List (Step ι E R σ))
    (linked : Linked first history last) (holds : property first) (fails : ¬ property last) :
    ∃ step ∈ history, property step.before ∧ ¬ property step.after := by
  induction history generalizing first with
  | nil =>
      have same : first = last := linked
      exact absurd (same ▸ holds) fails
  | cons step rest ih =>
      obtain ⟨before, linkedRest⟩ := linked
      by_cases kept : property step.after
      · obtain ⟨lost, member, here⟩ := ih step.after linkedRest kept
        exact ⟨lost, List.mem_cons_of_mem _ member, here⟩
      · exact ⟨step, List.mem_cons_self, before ▸ holds, kept⟩

theorem linked_holds (property : σ → Prop) (first last : σ) (history : List (Step ι E R σ))
    (linked : Linked first history last) (holds : property first)
    (each : ∀ step ∈ history, property step.before → property step.after) : property last := by
  induction history generalizing first with
  | nil =>
      have same : first = last := linked
      exact same ▸ holds
  | cons step rest ih =>
      obtain ⟨before, linkedRest⟩ := linked
      refine ih step.after linkedRest ?_ (fun later member => each later (List.mem_cons_of_mem _ member))
      exact each step List.mem_cons_self (before ▸ holds)

theorem split_at_two {β : Type} (one two : β) (list : List β) (first : one ∈ list)
    (second : two ∈ list) (different : one ≠ two) :
    ∃ early middle late, list = early ++ one :: (middle ++ two :: late) ∨
        list = early ++ two :: (middle ++ one :: late) := by
  obtain ⟨early, late, rfl⟩ := List.append_of_mem first
  cases List.mem_append.mp second with
  | inl before =>
      obtain ⟨start, middle, rfl⟩ := List.append_of_mem before
      exact ⟨start, middle, late, .inr (by simp)⟩
  | inr after =>
      have later : two ∈ late := (List.mem_cons.mp after).resolve_left (fun equal => different equal.symm)
      obtain ⟨middle, rest, rfl⟩ := List.append_of_mem later
      exact ⟨early, middle, rest, .inl rfl⟩

variable [DecidableEq ι]

def noted (note : (effect : E) → R effect → τ → τ) (first : τ)
    (history : List (Step ι E R σ)) (proc : ι) : τ :=
  (history.filter (fun step => step.proc = proc)).foldl
    (fun seen step => note step.event.effect step.event.reply seen) first

theorem mem_noted_log (first : List (Event E R)) (history : List (Step ι E R σ))
    (proc : ι) (event : Event E R) :
    event ∈ noted (fun effect reply log => log ++ [⟨effect, reply⟩]) first history proc ↔
      event ∈ first ∨ ∃ step ∈ history, step.proc = proc ∧ step.event = event := by
  induction history generalizing first with
  | nil => simp [noted]
  | cons step rest ih =>
      by_cases same : step.proc = proc
      · have shifted := ih (first ++ [step.event])
        simp only [noted, List.filter_cons, same, decide_true, if_true, List.foldl_cons] at shifted ⊢
        rw [shifted]
        simp only [List.mem_append, List.mem_cons, exists_eq_or_imp, same, true_and, or_assoc]
        tauto
      · have skipped := ih first
        simp only [noted, List.filter_cons, same, decide_false, Bool.false_eq_true, if_false] at skipped ⊢
        rw [skipped]
        simp [same]

theorem noted_snoc (note : (effect : E) → R effect → τ → τ) (first : τ) (history : List (Step ι E R σ))
    (step : Step ι E R σ) (proc : ι) :
    noted note first (history ++ [step]) proc =
      if step.proc = proc then note step.event.effect step.event.reply (noted note first history proc)
      else noted note first history proc := by
  by_cases same : step.proc = proc <;> simp [noted, List.filter_append, same]

namespace Pool

variable {note : (effect : E) → R effect → τ → τ}

theorem run_linked (sem : Sem E R C σ) (procs : ι → Program E R α) (state : σ) (schedule : List (ι × C)) :
    Linked state ((start procs state).run sem schedule).history
      ((start procs state).run sem schedule).state := by
  refine run_holds sem (fun pool => Linked state pool.history pool.state) (fun _ _ => True) ?_ _ schedule rfl
    (along_of_forall sem (fun _ => True) _ schedule (fun _ _ => trivial))
  intro pool turn linked _
  cases step_cases sem pool turn with
  | inl idle =>
      rw [idle.1]
      exact linked
  | inr active =>
      obtain ⟨effect, next, -, stepped⟩ := active
      rw [stepped]
      exact (linked_append _ _ _ _).mpr ⟨pool.state, linked, rfl, rfl⟩

theorem run_steps (sem : Sem E R C σ) (procs : ι → Program E R α) (state : σ) (schedule : List (ι × C)) :
    ∀ step ∈ ((start procs state).run sem schedule).history, ∃ choice, (step.proc, choice) ∈ schedule ∧
      step.event.reply = (sem step.event.effect choice step.before).1 ∧
      step.after = (sem step.event.effect choice step.before).2 := by
  refine run_holds sem (fun pool => ∀ step ∈ pool.history, ∃ choice, (step.proc, choice) ∈ schedule ∧
      step.event.reply = (sem step.event.effect choice step.before).1 ∧
      step.after = (sem step.event.effect choice step.before).2)
        (fun _ turn => turn ∈ schedule) ?_ _ schedule ?_
    (along_of_forall sem (fun turn => turn ∈ schedule) _ schedule (fun _ member => member))
  · intro pool turn known scheduled
    cases step_cases sem pool turn with
    | inl idle =>
        rw [idle.1]
        exact known
    | inr active =>
        obtain ⟨effect, next, -, stepped⟩ := active
        rw [stepped]
        intro step member
        cases List.mem_append.mp member with
        | inl earlier => exact known step earlier
        | inr last =>
            obtain rfl := List.mem_singleton.mp last
            exact ⟨turn.2, scheduled, rfl, rfl⟩
  · intro step member
    cases member

-- What every process does by itself, under replies of which the semantics gives no
-- others along the schedule, it still does among the others.
theorem local_holds (sem : Sem E R C σ) (ok : ((effect : E) → R effect) → Prop) (first : τ)
    (post : ι → α → τ → Prop) (procs : ι → Program E R α) (state : σ) (schedule : List (ι × C))
    (each : ∀ proc, wp (alone note) ok (procs proc) (post proc) first)
    (along : Along sem (fun pool turn => ok (fun effect => (sem effect turn.2 pool.state).1))
      (start procs state) schedule) :
    ∀ proc, wp (alone note) ok (((start procs state).run sem schedule).procs proc) (post proc)
      (noted note first ((start procs state).run sem schedule).history proc) := by
  refine run_holds sem (fun pool => ∀ proc, wp (alone note) ok (pool.procs proc) (post proc)
    (noted note first pool.history proc))
    _ ?_ _ schedule each along
  intro pool turn now allowed proc
  cases step_cases sem pool turn with
  | inl idle =>
      rw [idle.1]
      exact now proc
  | inr active =>
      obtain ⟨effect, next, shape, stepped⟩ := active
      rw [stepped, noted_snoc]
      by_cases same : turn.1 = proc
      · subst same
        have mine := now turn.1
        rw [shape] at mine
        simp only [Function.update_self, if_true]
        exact mine (fun effect => (sem effect turn.2 pool.state).1) allowed
      · have untouched : proc ≠ turn.1 := fun equal => same equal.symm
        simpa only [same, if_false, Function.update_of_ne untouched] using now proc

end Pool

end Histories

end Effects
