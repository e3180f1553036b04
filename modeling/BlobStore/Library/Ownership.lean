import BlobStore.Library.Contract

set_option autoImplicit false

namespace Effects

variable {ι E ω : Type} {R : E → Type} {C σ α : Type}

-- A process that performs these effects only, as long as it receives these replies.
def confined (touches : E → Prop) (replies : (effect : E) → R effect → Prop) : Contract E R Unit :=
  fun effect post _ => touches effect ∧ ∀ reply, replies effect reply → post reply ()

-- Effects within these bounds keep the invariant, and their replies are expected.
def KeepsBounds (sem : Sem E R C σ) (inv : σ → Prop) (touches : ι → E → Prop)
    (replies : ι → (effect : E) → R effect → Prop) (allowed : ι → E → C → Prop) : Prop :=
  ∀ proc effect choice state, inv state → touches proc effect → allowed proc effect choice →
    inv (sem effect choice state).2 ∧ replies proc effect (sem effect choice state).1

-- The state is seen as places, of which each process owns some and no two the same
-- one. An effect changes only places of its process, and what it answers and leaves
-- there can be had from any state that looks the same at these places, by a choice
-- like its own.
structure Ownership (sem : Sem E R C σ) (inv : σ → Prop) (same : ω → σ → σ → Prop)
    (owns : ι → ω → Prop) (touches : ι → E → Prop) (replies : ι → (effect : E) → R effect → Prop)
    (allowed : ι → E → C → Prop) (like : C → C → Prop) : Prop where
  alike : ∀ place, Equivalence (same place)
  likes : ∀ choice, like choice choice
  apart : ∀ one two place, owns one place → owns two place → one = two
  keeps : KeepsBounds sem inv touches replies allowed
  spares : ∀ proc effect choice state place, inv state → touches proc effect →
    allowed proc effect choice → ¬ owns proc place →
    same place (sem effect choice state).2 state
  follows : ∀ proc effect choice state other, inv state → inv other →
    touches proc effect → allowed proc effect choice →
    (∀ place, owns proc place → same place state other) →
    ∃ matching, like choice matching ∧ allowed proc effect matching ∧
      (sem effect matching other).1 = (sem effect choice state).1 ∧
      ∀ place, owns proc place → same place (sem effect choice state).2 (sem effect matching other).2

-- A program that keeps to the stricter of two contracts keeps to the other.
theorem meets_stricter {τ : Type} {contract stricter : Contract E R τ}
    (monotone : stricter.Monotone)
    (each : ∀ effect post ghost, stricter effect post ghost → contract effect post ghost)
    (program : Program E R α) (post : α → τ → Prop) (ghost : τ)
    (holds : meets stricter program post ghost) : meets contract program post ghost := by
  induction program generalizing ghost with
  | pure value => exact holds
  | call effect next ih =>
      exact each effect _ ghost (monotone effect _ _ ghost (fun reply after => ih reply after) holds)

section Confined

variable {F : Type} {S : F → Type} {υ : Type} {touches : E → Prop} {replies : (effect : E) → R effect → Prop}

theorem confined_monotone : (confined touches replies).Monotone :=
  fun _ _ _ _ weaker holds => ⟨holds.1, fun reply may => weaker reply () (holds.2 reply may)⟩

-- Effects that leave the ghost state alone: only what the program returns is left to know.
theorem meets_unnoted {contract : Contract E R υ} (program : Program E R α) (post : α → υ → Prop)
    (ghost : υ)
    (settled : ∀ effect (after : R effect → υ → Prop), (∀ reply, after reply ghost) →
      contract effect after ghost)
    (holds : meets (confined touches (fun _ _ => True)) program
      (fun value _ => post value ghost) ()) :
    meets contract program post ghost := by
  induction program with
  | pure value => exact holds
  | call effect next ih => exact settled effect _ (fun reply => ih reply (holds.2 reply trivial))

variable {calls : F → Prop} {answers : (effect : F) → S effect → Prop}

-- A program within its bounds, over handlers that are within theirs.
theorem confined_inline (impl : (effect : F) → Program E R (S effect))
    (handles : ∀ effect, calls effect →
      meets (confined touches replies) (impl effect) (fun reply _ => answers effect reply) ())
    (program : Program F S α) (post : α → Unit → Prop)
    (holds : meets (confined calls answers) program post ()) :
    meets (confined touches replies) (program.inline impl) post () := by
  induction program with
  | pure value => exact holds
  | call effect next ih =>
      refine (meets_bind (impl effect) _ post ()).mpr
        (meets_mono confined_monotone _ _ _ () ?_ (handles effect holds.1))
      exact fun reply _ answered => ih reply (holds.2 reply answered)

theorem confined_inline_with (impl : (effect : F) → υ → Program E R (S effect × υ))
    (handles : ∀ effect carried, calls effect →
      meets (confined touches replies) (impl effect carried)
      (fun outcome _ => answers effect outcome.1) ())
    (program : Program F S α) (carried : υ)
    (holds : meets (confined calls answers) program (fun _ _ => True) ()) :
    meets (confined touches replies) (program.inlineWith impl carried) (fun _ _ => True) () := by
  induction program generalizing carried with
  | pure value => trivial
  | call effect next ih =>
      refine (meets_bind (impl effect carried) _ _ ()).mpr
        (meets_mono confined_monotone _ _ _ () ?_ (handles effect carried holds.1))
      exact fun outcome _ answered => ih outcome.1 outcome.2 (holds.2 outcome.1 answered)

end Confined

namespace Pool

def turnsBy (proc : ι) (choices : List C) : List (ι × C) := choices.map (fun choice => (proc, choice))

-- Whole processes one after the other.
def serially (choices : ι → List C) (order : List ι) : List (ι × C) :=
  order.flatMap (fun proc => turnsBy proc (choices proc))

def Permits (allowed : ι → E → C → Prop) (pool : Pool ι E R α σ) (turn : ι × C) : Prop :=
  ∀ effect next, pool.procs turn.1 = .call effect next → allowed turn.1 effect turn.2

theorem turns_by_ne {proc other : ι} {choices : List C} (different : proc ≠ other) :
    ∀ turn ∈ turnsBy proc choices, turn.1 ≠ other := by
  intro turn member
  obtain ⟨choice, -, rfl⟩ := List.mem_map.mp member
  exact different

theorem serially_in {choices : ι → List C} {order : List ι} :
    ∀ turn ∈ serially choices order, turn.1 ∈ order := by
  intro turn member
  obtain ⟨proc, inside, mine⟩ := List.mem_flatMap.mp member
  obtain ⟨choice, -, rfl⟩ := List.mem_map.mp mine
  exact inside

theorem serially_congr {one two : ι → List C} {order : List ι} (alike : ∀ proc ∈ order, one proc = two proc) :
    serially one order = serially two order := by
  induction order with
  | nil => rfl
  | cons proc rest ih =>
      have tails := ih (fun other member => alike other (List.mem_cons_of_mem _ member))
      simp only [serially, List.flatMap_cons] at tails ⊢
      rw [alike proc List.mem_cons_self, tails]

variable [DecidableEq ι]

def turnsOf (proc : ι) (schedule : List (ι × C)) : List C :=
  (schedule.filter (fun turn => turn.1 = proc)).map Prod.snd

theorem turns_of_cons_self (proc : ι) (choice : C) (rest : List (ι × C)) :
    turnsOf proc ((proc, choice) :: rest) = choice :: turnsOf proc rest := by simp [turnsOf]

theorem turns_of_cons_ne {proc : ι} {turn : ι × C} (different : turn.1 ≠ proc) (rest : List (ι × C)) :
    turnsOf proc (turn :: rest) = turnsOf proc rest := by simp [turnsOf, different]

theorem run_append (sem : Sem E R C σ) (pool : Pool ι E R α σ) (early late : List (ι × C)) :
    pool.run sem (early ++ late) = (pool.run sem early).run sem late := List.foldl_append

theorem along_append (sem : Sem E R C σ) (condition : Pool ι E R α σ → ι × C → Prop)
    (pool : Pool ι E R α σ) (early late : List (ι × C)) :
    Along sem condition pool (early ++ late) ↔ Along sem condition pool early ∧
      Along sem condition (pool.run sem early) late := by
  induction early generalizing pool with
  | nil => exact ⟨fun along => ⟨trivial, along⟩, fun along => along.2⟩
  | cons turn rest ih =>
      constructor
      · rintro ⟨now, later⟩
        obtain ⟨early, late⟩ := (ih _).mp later
        exact ⟨⟨now, early⟩, late⟩
      · rintro ⟨⟨now, early⟩, late⟩
        exact ⟨now, (ih _).mpr ⟨early, late⟩⟩

theorem step_procs_ne (sem : Sem E R C σ) (pool : Pool ι E R α σ) (turn : ι × C)
    {proc : ι} (different : turn.1 ≠ proc) :
    (pool.step sem turn).procs proc = pool.procs proc := by
  cases step_cases sem pool turn with
  | inl idle => rw [idle.1]
  | inr active =>
      obtain ⟨effect, next, -, stepped⟩ := active
      rw [stepped]
      exact Function.update_of_ne (Ne.symm different) _ _

theorem run_procs_ne (sem : Sem E R C σ) (pool : Pool ι E R α σ) (schedule : List (ι × C))
    {proc : ι} (different : ∀ turn ∈ schedule, turn.1 ≠ proc) :
    (pool.run sem schedule).procs proc = pool.procs proc := by
  induction schedule generalizing pool with
  | nil => rfl
  | cons turn rest ih =>
      have later := ih (pool.step sem turn)
        (fun other member => different other (List.mem_cons_of_mem _ member))
      exact later.trans (step_procs_ne sem pool turn (different turn List.mem_cons_self))

section KeepsBounds

variable {sem : Sem E R C σ} {inv : σ → Prop} {touches : ι → E → Prop}
  {replies : ι → (effect : E) → R effect → Prop}
  {allowed : ι → E → C → Prop}

-- The invariant, and every process still within its bounds.
def Within (inv : σ → Prop) (touches : ι → E → Prop) (replies : ι → (effect : E) → R effect → Prop)
    (pool : Pool ι E R α σ) : Prop :=
  inv pool.state ∧ ∀ proc, meets (confined (touches proc) (replies proc))
    (pool.procs proc) (fun _ _ => True) ()

theorem within_step (keeps : KeepsBounds sem inv touches replies allowed) {pool : Pool ι E R α σ}
    {turn : ι × C} (now : Within inv touches replies pool) (permits : Permits allowed pool turn) :
    Within inv touches replies (pool.step sem turn) := by
  cases step_cases sem pool turn with
  | inl idle =>
      rw [idle.1]
      exact now
  | inr active =>
      obtain ⟨effect, next, shape, stepped⟩ := active
      have mine := now.2 turn.1
      rw [shape] at mine
      obtain ⟨kept, replied⟩ := keeps turn.1 effect turn.2 pool.state now.1 mine.1 (permits effect next shape)
      rw [stepped]
      refine ⟨kept, fun proc => ?_⟩
      dsimp only
      by_cases here : proc = turn.1
      · subst here
        rw [Function.update_self]
        exact mine.2 _ replied
      · rw [Function.update_of_ne here]
        exact now.2 proc

theorem within_run (keeps : KeepsBounds sem inv touches replies allowed) {pool : Pool ι E R α σ}
    {schedule : List (ι × C)} (now : Within inv touches replies pool)
    (along : Along sem (Permits allowed) pool schedule) :
    Within inv touches replies (pool.run sem schedule) :=
  run_holds sem (Within inv touches replies) (Permits allowed)
    (fun _ _ => within_step keeps) pool schedule now along

end KeepsBounds

section Owned

variable {sem : Sem E R C σ} {inv : σ → Prop} {same : ω → σ → σ → Prop}
  {owns : ι → ω → Prop} {touches : ι → E → Prop}
  {replies : ι → (effect : E) → R effect → Prop} {allowed : ι → E → C → Prop} {like : C → C → Prop}
  (owned : Ownership sem inv same owns touches replies allowed like)

include owned

theorem step_spares {pool : Pool ι E R α σ} {turn : ι × C} (now : Within inv touches replies pool)
    (permits : Permits allowed pool turn) {place : ω} (foreign : ¬ owns turn.1 place) :
    same place (pool.step sem turn).state pool.state := by
  cases step_cases sem pool turn with
  | inl idle =>
      rw [idle.1]
      exact (owned.alike place).refl _
  | inr active =>
      obtain ⟨effect, next, shape, stepped⟩ := active
      have mine := now.2 turn.1
      rw [shape] at mine
      rw [stepped]
      exact owned.spares turn.1 effect turn.2 pool.state place now.1 mine.1
        (permits effect next shape) foreign

theorem run_spares {pool : Pool ι E R α σ} {schedule : List (ι × C)}
    (now : Within inv touches replies pool) (along : Along sem (Permits allowed) pool schedule)
    {place : ω} (foreign : ∀ turn ∈ schedule, ¬ owns turn.1 place) :
    same place (pool.run sem schedule).state pool.state := by
  induction schedule generalizing pool with
  | nil => exact (owned.alike place).refl _
  | cons turn rest ih =>
      have later := ih (within_step owned.keeps now along.1) along.2
        (fun other member => foreign other (List.mem_cons_of_mem _ member))
      exact (owned.alike place).trans later (step_spares owned now along.1 (foreign turn List.mem_cons_self))

-- One more turn of the process itself, matched by a turn of the same process elsewhere.
theorem step_follows {pool other : Pool ι E R α σ} {proc : ι} {choice : C}
    (now : Within inv touches replies pool) (there : Within inv touches replies other)
    (permits : Permits allowed pool (proc, choice)) (program : pool.procs proc = other.procs proc)
    (agree : ∀ place, owns proc place → same place pool.state other.state) :
    ∃ matching, like choice matching ∧ Permits allowed other (proc, matching) ∧
      (pool.step sem (proc, choice)).procs proc = (other.step sem (proc, matching)).procs proc ∧
      ∀ place, owns proc place →
          same place (pool.step sem (proc, choice)).state
          (other.step sem (proc, matching)).state := by
  cases shape : pool.procs proc with
  | pure value =>
      have idle : pool.step sem (proc, choice) = pool := by rw [step]; dsimp only; rw [shape]
      have alsoIdle : other.step sem (proc, choice) = other := by rw [step]; dsimp only; rw [← program, shape]
      refine ⟨choice, owned.likes choice, ?_, ?_, ?_⟩
      · intro effect next calls
        rw [← program, shape] at calls
        cases calls
      · rw [idle, alsoIdle]
        exact program
      · rw [idle, alsoIdle]
        exact agree
  | call effect next =>
      have mine := now.2 proc
      rw [shape] at mine
      obtain ⟨matching, alike, may, reply, after⟩ :=
        owned.follows proc effect choice pool.state other.state now.1 there.1 mine.1
          (permits effect next shape) agree
      refine ⟨matching, alike, ?_, ?_, ?_⟩
      · intro performed rest calls
        rw [← program, shape] at calls
        cases calls
        exact may
      · rw [step, step]
        dsimp only
        rw [← program, shape]
        dsimp only
        rw [Function.update_self, Function.update_self, reply]
      · rw [step, step]
        dsimp only
        rw [← program, shape]
        exact after

-- A process among others does what it would have done on its own.
theorem isolated_from {pool other : Pool ι E R α σ} {schedule : List (ι × C)} {proc : ι}
    (now : Within inv touches replies pool) (there : Within inv touches replies other)
    (along : Along sem (Permits allowed) pool schedule)
    (program : pool.procs proc = other.procs proc)
    (agree : ∀ place, owns proc place → same place pool.state other.state) :
    ∃ choices, List.Forall₂ like (turnsOf proc schedule) choices ∧
      Along sem (Permits allowed) other (turnsBy proc choices) ∧
      (pool.run sem schedule).procs proc = (other.run sem (turnsBy proc choices)).procs proc ∧
      ∀ place, owns proc place →
          same place (pool.run sem schedule).state (other.run sem (turnsBy proc choices)).state := by
  induction schedule generalizing pool other with
  | nil => exact ⟨[], .nil, trivial, program, agree⟩
  | cons turn rest ih =>
      obtain ⟨taken, choice⟩ := turn
      have kept := within_step owned.keeps now along.1
      by_cases here : taken = proc
      · subst here
        obtain ⟨matching, alike, permits, programs, places⟩ :=
          step_follows owned now there along.1 program agree
        obtain ⟨choices, matched, alongRest, programsRest, placesRest⟩ :=
          ih kept (within_step owned.keeps there permits) along.2 programs places
        refine ⟨matching :: choices, ?_, ⟨permits, alongRest⟩, programsRest, placesRest⟩
        rw [turns_of_cons_self]
        exact .cons alike matched
      · rw [turns_of_cons_ne here]
        refine ih kept there along.2 ((step_procs_ne sem pool (taken, choice) here).trans program) ?_
        intro place mine
        have foreign : ¬ owns taken place := fun theirs => here (owned.apart _ _ _ theirs mine)
        exact (owned.alike place).trans (step_spares owned now along.1 foreign) (agree place mine)

theorem isolated {procs : ι → Program E R α} {state : σ} {schedule : List (ι × C)}
    (begins : Within inv touches replies (start procs state))
    (along : Along sem (Permits allowed) (start procs state) schedule) (proc : ι) :
    ∃ choices, List.Forall₂ like (turnsOf proc schedule) choices ∧
      ((start procs state).run sem schedule).procs proc =
        ((start procs state).run sem (turnsBy proc choices)).procs proc ∧
      ∀ place, owns proc place →
        same place ((start procs state).run sem schedule).state
          ((start procs state).run sem (turnsBy proc choices)).state := by
  obtain ⟨choices, matched, -, programs, places⟩ :=
    isolated_from owned begins begins along rfl (fun place _ => (owned.alike place).refl state)
  exact ⟨choices, matched, programs, places⟩

-- Processes that have not begun, run one after the other in any order, each with
-- choices like its own: every one of them ends up as it did among the others.
theorem serially_from {pool after : Pool ι E R α σ} {schedule : List (ι × C)}
    (now : Within inv touches replies pool) (along : Along sem (Permits allowed) pool schedule)
    (order : List ι) (distinct : order.Nodup) (there : Within inv touches replies after)
    (programs : ∀ proc ∈ order, pool.procs proc = after.procs proc)
    (agree : ∀ proc ∈ order, ∀ place, owns proc place → same place pool.state after.state) :
    ∃ choices : ι → List C, (∀ proc ∈ order, List.Forall₂ like (turnsOf proc schedule) (choices proc)) ∧
      Along sem (Permits allowed) after (serially choices order) ∧
      ∀ proc ∈ order, (pool.run sem schedule).procs proc =
        (after.run sem (serially choices order)).procs proc ∧
        ∀ place, owns proc place →
            same place (pool.run sem schedule).state
            (after.run sem (serially choices order)).state := by
  induction order generalizing after with
  | nil => exact ⟨fun _ => [], fun _ inside => (by cases inside), trivial, fun _ inside => (by cases inside)⟩
  | cons first rest ih =>
      obtain ⟨fresh, distinctRest⟩ := List.nodup_cons.mp distinct
      obtain ⟨mine, matched, alongMine, program, places⟩ :=
        isolated_from owned now there along (programs first List.mem_cons_self)
          (agree first List.mem_cons_self)
      have passed := within_run owned.keeps there alongMine
      have others : ∀ proc ∈ rest, first ≠ proc := fun proc inside equal => fresh (equal ▸ inside)
      have programsRest : ∀ proc ∈ rest,
          pool.procs proc = (after.run sem (turnsBy first mine)).procs proc := by
        intro proc inside
        rw [run_procs_ne sem after _ (turns_by_ne (others proc inside))]
        exact programs proc (List.mem_cons_of_mem _ inside)
      have agreeRest : ∀ proc ∈ rest, ∀ place, owns proc place →
          same place pool.state (after.run sem (turnsBy first mine)).state := by
        intro proc inside place owner
        have foreign : ∀ turn ∈ turnsBy first mine, ¬ owns turn.1 place :=
          fun turn member theirs => turns_by_ne (others proc inside) turn member
            (owned.apart _ _ _ theirs owner)
        exact (owned.alike place).trans (agree proc (List.mem_cons_of_mem _ inside) place owner)
          ((owned.alike place).symm (run_spares owned there alongMine foreign))
      obtain ⟨choices, matchedRest, alongRest, ends⟩ := ih distinctRest passed programsRest agreeRest
      have apart : ∀ proc ∈ rest, Function.update choices first mine proc = choices proc :=
        fun proc inside => Function.update_of_ne (Ne.symm (others proc inside)) _ _
      have split : serially (Function.update choices first mine) (first :: rest) =
          turnsBy first mine ++ serially choices rest := by
        rw [← serially_congr apart, serially, List.flatMap_cons, Function.update_self, serially]
      refine ⟨Function.update choices first mine, ?_, ?_, ?_⟩
      · intro proc inside
        cases List.mem_cons.mp inside with
        | inl here =>
            rw [here, Function.update_self]
            exact matched
        | inr later =>
            rw [apart proc later]
            exact matchedRest proc later
      · rw [split, along_append]
        exact ⟨alongMine, alongRest⟩
      · rw [split, run_append]
        intro proc inside
        cases List.mem_cons.mp inside with
        | inr later => exact ends proc later
        | inl here =>
            subst here
            have never : ∀ turn ∈ serially choices rest, turn.1 ≠ proc :=
              fun turn member equal => fresh (equal ▸ serially_in turn member)
            refine ⟨program.trans (run_procs_ne sem _ _ never).symm, ?_⟩
            intro place owner
            have foreign : ∀ turn ∈ serially choices rest, ¬ owns turn.1 place :=
              fun turn member theirs => never turn member (owned.apart _ _ _ theirs owner)
            exact (owned.alike place).trans (places place owner)
              ((owned.alike place).symm (run_spares owned passed alongRest foreign))

-- Any interleaving is any serial order of its processes, at every place of the state.
theorem serial_in_any_order {procs : ι → Program E R α} {state : σ} {schedule : List (ι × C)}
    (begins : Within inv touches replies (start procs state))
    (along : Along sem (Permits allowed) (start procs state) schedule) (order : List ι)
    (distinct : order.Nodup) (every : ∀ turn ∈ schedule, turn.1 ∈ order) :
    ∃ choices : ι → List C, (∀ proc ∈ order, List.Forall₂ like (turnsOf proc schedule) (choices proc)) ∧
      Along sem (Permits allowed) (start procs state) (serially choices order) ∧
      ((start procs state).run sem (serially choices order)).procs =
        ((start procs state).run sem schedule).procs ∧
      ∀ place, same place ((start procs state).run sem schedule).state
          ((start procs state).run sem (serially choices order)).state := by
  obtain ⟨choices, matched, alongSerial, ends⟩ :=
    serially_from owned begins along order distinct begins (fun _ _ => rfl)
    (fun _ _ place _ => (owned.alike place).refl state)
  refine ⟨choices, matched, alongSerial, ?_, ?_⟩
  · funext proc
    by_cases inside : proc ∈ order
    · exact (ends proc inside).1.symm
    · have never : ∀ turn ∈ schedule, turn.1 ≠ proc :=
        fun turn member equal => inside (equal ▸ every turn member)
      have neither : ∀ turn ∈ serially choices order, turn.1 ≠ proc :=
        fun turn member equal => inside (equal ▸ serially_in turn member)
      rw [run_procs_ne sem _ schedule never, run_procs_ne sem _ _ neither]
  · intro place
    by_cases taken : ∃ proc ∈ order, owns proc place
    · obtain ⟨proc, inside, owner⟩ := taken
      exact (ends proc inside).2 place owner
    · have foreign : ∀ proc ∈ order, ¬ owns proc place := fun proc inside owner => taken ⟨proc, inside, owner⟩
      have before : same place _ _ :=
        run_spares owned begins along (fun turn member => foreign _ (every turn member))
      have later : same place _ _ := run_spares owned begins alongSerial
        (fun turn member => foreign _ (serially_in turn member))
      exact (owned.alike place).trans before ((owned.alike place).symm later)

end Owned

end Pool

end Effects
