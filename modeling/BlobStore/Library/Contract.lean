import BlobStore.Library.Local

set_option autoImplicit false

namespace Effects

variable {E F : Type} {R : E → Type} {S : F → Type} {C σ τ ε α β : Type}

-- What each effect asks of a ghost state, and what its reply gives back: a program is
-- checked against its contract once, whatever the semantics of the effects.
abbrev Contract (E : Type) (R : E → Type) (τ : Type) := (effect : E) → (R effect → τ → Prop) → τ → Prop

def Contract.Monotone (contract : Contract E R τ) : Prop :=
  ∀ effect first second ghost, (∀ reply after, first reply after → second reply after) →
    contract effect first ghost → contract effect second ghost

def meets (contract : Contract E R τ) : Program E R α → (α → τ → Prop) → τ → Prop
  | .pure value, post, ghost => post value ghost
  | .call effect next, post, ghost =>
      contract effect (fun reply after => meets contract (next reply) post after) ghost

variable {contract : Contract E R τ}

@[simp] theorem meets_perform (effect : E) (post : R effect → τ → Prop) (ghost : τ) :
    meets contract (.perform effect) post ghost ↔ contract effect post ghost := Iff.rfl

theorem meets_bind (program : Program E R α) (rest : α → Program E R β) (post : β → τ → Prop) (ghost : τ) :
    meets contract (program >>= rest) post ghost ↔
      meets contract program (fun value after => meets contract (rest value) post after) ghost := by
  have same : ∀ post : β → τ → Prop,
      meets contract (program >>= rest) post = meets contract program
        (fun value => meets contract (rest value) post) := by
    intro post
    induction program with
    | pure value => rfl
    | call effect next ih => exact congrArg (contract effect) (funext ih)
  rw [same]

theorem meets_mono (monotone : contract.Monotone) (program : Program E R α)
    (first second : α → τ → Prop) (ghost : τ)
    (weaker : ∀ value after, first value after → second value after)
    (holds : meets contract program first ghost) :
    meets contract program second ghost := by
  induction program generalizing ghost with
  | pure value => exact weaker value ghost holds
  | call effect next ih => exact monotone effect _ _ ghost (fun reply after => ih reply after) holds

-- Once the ghost state is one in which every reply may come, nothing is left to check.
theorem meets_always (program : Program E R α) (post : α → τ → Prop) (ghost : τ)
    (settled : ∀ effect (after : R effect → τ → Prop), (∀ reply, after reply ghost) →
      contract effect after ghost) (ends : ∀ value, post value ghost) :
    meets contract program post ghost := by
  induction program with
  | pure value => exact ends value
  | call effect next ih => exact settled effect _ ih

theorem meets_bind_settled (monotone : contract.Monotone) (settled : τ)
    (always : ∀ effect (after : R effect → τ → Prop), (∀ reply, after reply settled) →
      contract effect after settled)
    (program : Program E R α) (rest : α → Program E R β) (ghost : τ)
    (settles : meets contract program (fun _ later => later = settled) ghost) :
    meets contract (program >>= rest) (fun _ later => later = settled) ghost := by
  refine (meets_bind program rest _ ghost).mpr (meets_mono monotone program _ _ ghost ?_ settles)
  rintro value _ rfl
  exact meets_always (rest value) _ _ always (fun _ => rfl)

theorem meets_inline (impl : (effect : F) → Program E R (S effect)) (program : Program F S α)
    (post : α → τ → Prop) (ghost : τ) :
    meets contract (program.inline impl) post ghost ↔
      meets (fun effect after => meets contract (impl effect) after) program post ghost := by
  have same : meets contract (program.inline impl) post =
      meets (fun effect after => meets contract (impl effect) after) program post := by
    induction program with
    | pure value => rfl
    | call effect next ih =>
        funext ghost
        exact (propext (meets_bind (impl effect) _ post ghost)).trans
          (congrArg (fun after => meets contract (impl effect) after ghost) (funext ih))
  rw [same]

section Failing

@[simp] theorem meets_run_pure (value : α) (post : Except ε α → τ → Prop) (ghost : τ) :
    meets contract (ExceptT.run (pure value : Failing E R ε α)) post ghost ↔ post (.ok value) ghost := Iff.rfl

@[simp] theorem meets_run_perform (effect : E) (post : Except ε (R effect) → τ → Prop) (ghost : τ) :
    meets contract (ExceptT.run (Failing.perform effect : Failing E R ε (R effect))) post ghost ↔
      contract effect (fun reply => post (.ok reply)) ghost := Iff.rfl

theorem meets_run_bind (program : Failing E R ε α) (rest : α → Failing E R ε β)
    (post : Except ε β → τ → Prop) (ghost : τ) :
    meets contract (ExceptT.run (program >>= rest)) post ghost ↔
      meets contract program.run (fun outcome after =>
        match outcome with
        | .ok value => meets contract (rest value).run post after
        | .error error => post (.error error) after) ghost := by
  rw [ExceptT.run_bind, meets_bind]
  refine iff_of_eq (congrArg (fun after => meets contract program.run after ghost) (funext fun outcome => ?_))
  cases outcome <;> rfl

@[simp] theorem meets_run_attempt (program : Failing E R ε α)
    (post : Except ε (Except ε α) → τ → Prop) (ghost : τ) :
    meets contract (ExceptT.run (Failing.attempt program)) post ghost ↔
      meets contract program.run (fun outcome => post (.ok outcome)) ghost := by
  unfold Failing.attempt
  rw [ExceptT.run_lift, map_eq_pure_bind, meets_bind]
  exact Iff.rfl

end Failing

-- A contract that every effect keeps tells what a run does: the ghost state goes
-- along with the real one.
def Keeps (sem : Sem E R C σ) (ok : C → Prop) (rel : σ → τ → Prop) (contract : Contract E R τ) : Prop :=
  ∀ effect post state ghost choice, rel state ghost → ok choice → contract effect post ghost →
    ∃ after, rel (sem effect choice state).2 after ∧ post (sem effect choice state).1 after

theorem wp_of_meets {sem : Sem E R C σ} {ok : C → Prop} {rel : σ → τ → Prop}
    (keeps : Keeps sem ok rel contract) (program : Program E R α) (post : α → τ → Prop) (state : σ)
    (ghost : τ) (related : rel state ghost) (holds : meets contract program post ghost) :
    wp sem ok program (fun value after => ∃ later, rel after later ∧ post value later) state := by
  induction program generalizing state ghost with
  | pure value => exact ⟨ghost, related, holds⟩
  | call effect next ih =>
      intro choice allowed
      obtain ⟨after, kept, met⟩ := keeps effect _ state ghost choice related allowed holds
      exact ih _ _ _ kept met

-- Two semantics under one contract: a run goes the same way under both, as long as the
-- first has not come to where they part.
theorem exec_unless [Inhabited C] {υ : Type} {one : Sem E R C σ} {other : Sem E R C υ}
    (rel : σ → υ → τ → Prop) (parted : σ → τ → Prop)
    (each : ∀ effect post state twin ghost choice, rel state twin ghost →
      contract effect post ghost → ∃ after, post (one effect choice state).1 after ∧
      (parted (one effect choice state).2 after ∨
        (other effect choice twin).1 = (one effect choice state).1 ∧
        rel (one effect choice state).2 (other effect choice twin).2 after))
    (stays : Keeps one (fun _ => True) parted contract) (program : Program E R α)
    (post : α → τ → Prop) (choices : List C) (state : σ) (twin : υ) (ghost : τ)
    (related : rel state twin ghost) (holds : meets contract program post ghost) :
    ∃ after, post (exec one program choices state).1 after ∧
      (parted (exec one program choices state).2.2 after ∨
      (exec other program choices twin).1 = (exec one program choices state).1 ∧
        rel (exec one program choices state).2.2 (exec other program choices twin).2.2 after) := by
  induction program generalizing choices state twin ghost with
  | pure value => exact ⟨ghost, holds, .inr ⟨rfl, related⟩⟩
  | call effect next ih =>
      obtain ⟨after, met, outcome⟩ := each effect _ state twin ghost (choices.headD default) related holds
      rw [exec, exec]
      cases outcome with
      | inl apart =>
          have alone := wp_sound (fun _ => True) _ _ choices.tail _ trivial (fun _ _ => trivial)
            (wp_of_meets stays _ post _ after apart met)
          obtain ⟨later, apart, ended⟩ := alone
          exact ⟨later, ended, .inl apart⟩
      | inr alike =>
          rw [alike.1]
          exact ih _ choices.tail _ _ after alike.2 met

section Sharing

variable {ι : Type} [DecidableEq ι] {note : (effect : E) → R effect → τ → τ} {permitted : E → τ → Prop}
  {possible : (effect : E) → R effect → τ → Prop}

-- The contract of one process among many: its ghost state is what it has noted of
-- its own calls, and the replies that may come depend on it.
def noting (note : (effect : E) → R effect → τ → τ) (permitted : E → τ → Prop)
    (possible : (effect : E) → R effect → τ → Prop) : Contract E R τ :=
  fun effect post ghost => permitted effect ghost ∧ ∀ reply, possible effect reply ghost →
    post reply (note effect reply ghost)

namespace Pool

-- A process that has finished is back at the first ghost state.
def resting (first : τ) (program : Program E R α) (phase : τ) : τ :=
  match program with
  | .pure _ => first
  | .call _ _ => phase

def ghosts (note : (effect : E) → R effect → τ → τ) (first : τ) (pool : Pool ι E R α σ) (proc : ι) : τ :=
  resting first (pool.procs proc) (noted note first pool.history proc)

theorem ghosts_active {first : τ} {pool : Pool ι E R α σ} {proc : ι} {effect : E}
    {next : R effect → Program E R α} (shape : pool.procs proc = .call effect next) :
    pool.ghosts note first proc = noted note first pool.history proc := by
  rw [ghosts, shape]
  rfl

theorem ghosts_start (first : τ) (procs : ι → Program E R α) (state : σ) :
    (start procs state).ghosts note first = fun _ => first := by
  funext proc
  rw [ghosts]
  cases (start procs state).procs proc <;> rfl

theorem ghosts_step {first : τ} {pool : Pool ι E R α σ} {proc : ι} {effect : E}
    {next : R effect → Program E R α} (shape : pool.procs proc = .call effect next)
    (reply : R effect) (later : σ) :
    ghosts note first (⟨Function.update pool.procs proc (next reply), later,
        pool.history ++ [⟨proc, ⟨effect, reply⟩, pool.state, later⟩]⟩ : Pool ι E R α σ) =
      Function.update (pool.ghosts note first) proc
        (resting first (next reply) (note effect reply (pool.ghosts note first proc))) := by
  funext other
  rw [ghosts_active shape, ghosts, noted_snoc]
  dsimp only
  by_cases same : other = proc
  · subst same
    rw [Function.update_self, Function.update_self, if_pos rfl]
  · rw [Function.update_of_ne same, Function.update_of_ne same, if_neg (Ne.symm same), ghosts]

-- Each process keeps to its contract, and what the others do never gives it a reply
-- that its contract does not foresee: then the invariant holds of every reached state.
theorem shared_holds (sem : Sem E R C σ) (first : τ) (ended : τ → Prop) (inv : σ → (ι → τ) → Prop)
    (allowed : E → C → (ι → τ) → Prop)
    (each : ∀ effect choice state (phases : ι → τ) proc, inv state phases →
      allowed effect choice phases → permitted effect (phases proc) →
      possible effect (sem effect choice state).1 (phases proc) ∧
      inv (sem effect choice state).2
      (Function.update phases proc (note effect (sem effect choice state).1 (phases proc))))
    (ends : ∀ state (phases : ι → τ) proc, inv state phases → ended (phases proc) →
      inv state (Function.update phases proc first))
    (procs : ι → Program E R α) (state : σ) (schedule : List (ι × C))
    (meet : ∀ proc, meets (noting note permitted possible) (procs proc) (fun _ => ended) first)
    (begins : inv state (fun _ => first))
    (along : Along sem (fun pool turn => ∀ effect next, pool.procs turn.1 = .call effect next →
      allowed effect turn.2 (pool.ghosts note first)) (start procs state) schedule) :
    inv ((start procs state).run sem schedule).state
      (((start procs state).run sem schedule).ghosts note first) := by
  have held := run_holds sem
    (fun pool => (∀ proc, meets (noting note permitted possible) (pool.procs proc) (fun _ => ended)
      (noted note first pool.history proc)) ∧ inv pool.state (pool.ghosts note first)) _ ?_
        (start procs state) schedule
    ⟨meet, (ghosts_start first procs state).symm ▸ begins⟩ along
  · exact held.2
  · rintro pool turn ⟨meet, now⟩ allowed
    cases step_cases sem pool turn with
    | inl idle =>
        rw [idle.1]
        exact ⟨meet, now⟩
    | inr active =>
        obtain ⟨effect, next, shape, stepped⟩ := active
        have mine := meet turn.1
        rw [shape, ← ghosts_active shape] at mine
        obtain ⟨may, after⟩ := each effect turn.2 pool.state _ turn.1 now (allowed effect next shape) mine.1
        have goesOn := mine.2 _ may
        dsimp only at goesOn
        rw [stepped, ghosts_step shape]
        constructor
        · intro proc
          dsimp only
          rw [noted_snoc]
          by_cases same : turn.1 = proc
          · subst same
            rw [Function.update_self, if_pos rfl, ← ghosts_active shape]
            exact goesOn
          · rw [Function.update_of_ne (Ne.symm same), if_neg same]
            exact meet proc
        · cases rest : next (sem effect turn.2 pool.state).1 with
          | call other more => exact after
          | pure value =>
              rw [rest] at goesOn
              have finished := ends _ _ turn.1 after (by rw [Function.update_self]; exact goesOn)
              rw [Function.update_idem] at finished
              exact finished

end Pool

end Sharing

end Effects
