import BlobStore.HasherStates

set_option autoImplicit false

namespace BlobStore

open Effects

section Rules

variable {E : Type} {R : E → Type} {X : Xxh64} {α β γ δ τ : Type}

abbrev HasherHolding (X : Xxh64) := Holding (xxhStates X).Value

-- There was no memory for a state, and nothing has been done yet.
def Refused (start : τ) (held : HasherHolding X) (seen : τ) (outcome : Except Escaping α) : Prop :=
  held = noHandles ∧ seen = start ∧ outcome = .error (.runtimeError "XXH64_createState failed")

-- The function with the pointers ends as the one with the values does.
def Tracks (note : (call : E) → R call → τ → τ) (start : τ) (convert : β → α)
    (inner : HasherHolding X → τ → Except Thrown β → Prop) (held : HasherHolding X) (seen : τ)
    (raw : StateM E R X α) (plain : Failing E R Thrown β) : Prop :=
  Mimics note (Refused start) (fun held after outcome other =>
    outcome = escape (convert <$> other) ∧ inner held after other)
    held seen raw.run plain.run

variable {note : (call : E) → R call → τ → τ} {start : τ} {convert : β → α}
  {inner : HasherHolding X → τ → Except Thrown β → Prop}
  {held : HasherHolding X} {seen : τ}

theorem tracks_pure (value : β) (ends : inner held seen (.ok value)) :
    Tracks note start convert inner held seen (pure (convert value)) (pure value) :=
  .ends held seen _ _ ⟨rfl, ends⟩

theorem tracks_throw (thrown : Thrown) (ends : inner held seen (.error thrown)) :
    Tracks note start convert inner held seen (throw (.thrown thrown)) (throw thrown) :=
  .ends held seen _ _ ⟨rfl, ends⟩

theorem tracks_bind {first : δ → γ} {middle : HasherHolding X → τ → Except Thrown δ → Prop}
    {raw : StateM E R X γ} {plain : Failing E R Thrown δ}
    (tracks : Tracks note start first middle held seen raw plain) (rest : γ → StateM E R X α)
    (plainRest : δ → Failing E R Thrown β)
    (later : ∀ held seen value, middle held seen (.ok value) →
      Tracks note start convert inner held seen (rest (first value)) (plainRest value))
    (stops : ∀ held seen thrown, middle held seen (.error thrown) → inner held seen (.error thrown)) :
    Tracks note start convert inner held seen (raw >>= rest) (plain >>= plainRest) := by
  rw [Tracks, ExceptT.run_bind, ExceptT.run_bind]
  refine mimics_bind tracks _ _ ?_ ?_
  · intro held seen outcome refused
    obtain ⟨nothing, before, rfl⟩ := refused
    exact ⟨_, rfl, nothing, before, rfl⟩
  · intro held seen outcome other agrees
    obtain ⟨rfl, ends⟩ := agrees
    cases other with
    | ok value => exact later held seen value ends
    | error thrown => exact .ends held seen _ _ ⟨rfl, stops held seen thrown ends⟩

theorem tracks_without_states {inner : HasherHolding X → τ → Except Thrown α → Prop}
    (program : Failing E R Thrown α)
    (holds : meets (hearing note) program.run (fun outcome after => inner held after outcome) seen) :
    Tracks note start id inner held seen (withoutStates program) program := by
  have base : Mimics note (fun _ _ _ => False)
      (fun now after value other => value = other ∧ inner now after other)
      held seen (onBase program.run) program.run :=
    mimics_on_base program.run
      (meets_mono hearing_monotone _ _ _ _ (fun outcome after ends => ⟨rfl, ends⟩) holds)
  have whole : program.run = program.run >>= pure := (bind_pure program.run).symm
  rw [Tracks, whole]
  refine mimics_bind base _ _ (fun _ _ _ never => by cases never) ?_
  intro now after value other agrees
  obtain ⟨rfl, ends⟩ := agrees
  refine .ends now after _ _ ⟨?_, ends⟩
  rw [id_map]

theorem tracks_catch {ends : HasherHolding X → τ → Prop} {raw : StateM E R X α}
    {plain : Failing E R Thrown β} (handler : String → β)
    (tracks : Tracks note start convert (fun held seen _ => ends held seen) held seen raw plain) :
    Tracks note start convert (fun held seen _ => ends held seen) held seen
      (catchFileSystem raw (fun what => pure (convert (handler what))))
      (catchFileSystemException plain (fun what => pure (handler what))) := by
  refine mimics_bind tracks _ _ ?_ ?_
  · intro held seen outcome refused
    obtain ⟨nothing, before, rfl⟩ := refused
    exact ⟨_, rfl, nothing, before, rfl⟩
  · intro held seen outcome other agrees
    obtain ⟨rfl, ends⟩ := agrees
    cases other with
    | ok value => exact .ends held seen _ _ ⟨rfl, ends⟩
    | error thrown => cases thrown <;> exact .ends held seen _ _ ⟨rfl, ends⟩

theorem one_handle_set {V : Type} (handle : Nat) (before after : V) :
    Function.update (oneHandle handle before) handle (some after) = oneHandle handle after := by
  rw [oneHandle, oneHandle, Function.update_idem]

theorem one_handle_freed {V : Type} (handle : Nat) (before : V) :
    Function.update (oneHandle handle before) handle none = noHandles := by
  rw [oneHandle, Function.update_idem]
  exact Function.update_eq_self handle noHandles

theorem tracks_created (rest : StateHasher → StateM E R X α) (plain : Failing E R Thrown β)
    (granted : ∀ handle, Tracks note start convert inner (oneHandle handle (some X.reset)) start
      (rest ⟨handle⟩) plain) :
    Tracks note start convert inner noHandles start (StateHasher.create >>= rest) plain := by
  refine .create noHandles start _ _ ?_ ⟨_, rfl, rfl, rfl, rfl⟩
  intro handle _
  change Mimics note _ _ _ start (.call (.apply handle XxhCall.reset) (fun done : Bool =>
    ((if done then pure ⟨handle⟩
      else throw (.runtimeError "XXH64_reset failed") : StateM E R X StateHasher) >>= rest).run)) plain.run
  have ready : (xxhStates X).ready XxhCall.reset none = true := rfl
  refine @Mimics.apply E R (xxhStates X) _ _ _ note _ _ _ start handle XxhCall.reset none _
    plain.run (Function.update_self _ _ _) ready ?_
  rw [Function.update_idem]
  exact granted handle

theorem tracks_added (handle : Nat) (state : X.State) (bytes : Bytes) (rest : Unit → StateM E R X α)
    (plain : Failing E R Thrown β)
    (later : Tracks note start convert inner (oneHandle handle (some (X.update state bytes)))
      seen (rest ()) plain) :
    Tracks note start convert inner (oneHandle handle (some state)) seen
      ((StateHasher.mk handle).addChunk bytes >>= rest) plain := by
  change Mimics note _ _ _ seen (.call (.apply handle (XxhCall.update bytes)) (fun done : Bool =>
    ((if done then pure () else throw (.runtimeError "XXH64_update failed") : StateM E R X Unit) >>=
      rest).run)) plain.run
  have ready : (xxhStates X).ready (XxhCall.update bytes) (some state) = true := rfl
  refine @Mimics.apply E R (xxhStates X) _ _ _ note _ _ _ seen handle (XxhCall.update bytes)
    (some state) _ plain.run
    (Function.update_self _ _ _) ready ?_
  rw [one_handle_set]
  exact later

theorem tracks_finalized (handle : Nat) (hasher : BlobHasher X) (rest : String → StateM E R X α)
    (plain : Failing E R Thrown β)
    (later : Tracks note start convert inner noHandles seen (rest hasher.finalize) plain) :
    Tracks note start convert inner (oneHandle handle (some hasher.state)) seen
      ((StateHasher.mk handle).finalize >>= rest) plain := by
  change Mimics note _ _ _ seen (.call (.apply handle XxhCall.digest) (fun hash : UInt64 =>
    .call (.free handle) (fun _ => (rest (Nat.repr hash.toNat)).run))) plain.run
  have ready : (xxhStates X).ready XxhCall.digest (some hasher.state) = true := rfl
  refine @Mimics.apply E R (xxhStates X) _ _ _ note _ _ _ seen handle XxhCall.digest
    (some hasher.state) _ plain.run
    (Function.update_self _ _ _) ready ?_
  rw [one_handle_set]
  refine @Mimics.free E R (xxhStates X) _ _ _ note _ _ _ seen handle (some hasher.state) _ plain.run
    (Function.update_self _ _ _) ?_
  rw [one_handle_freed]
  exact later

-- A program that throws if and only if something noted has failed.
theorem tracks_writing {failed : τ → Prop} {program : Failing E R Thrown γ}
    (hears : meets (hearing note) program.run
      (fun outcome after => (∃ thrown, outcome = .error thrown) ↔ failed after) seen)
    (rest : γ → StateM E R X α) (plainRest : γ → Failing E R Thrown β)
    (later : ∀ seen value, ¬ failed seen → Tracks note start convert inner held seen (rest value)
      (plainRest value)) (stops : ∀ seen thrown, failed seen → inner held seen (.error thrown)) :
    Tracks note start convert inner held seen (withoutStates program >>= rest) (program >>= plainRest) := by
  have tracks : Tracks note start id
      (fun now after outcome => now = held ∧ ((∃ thrown, outcome = .error thrown) ↔ failed after))
      held seen (withoutStates program) program :=
    tracks_without_states program (meets_mono hearing_monotone _ _ _ _ (fun _ _ ends => ⟨rfl, ends⟩) hears)
  refine tracks_bind tracks _ _ ?_ ?_
  · intro now after value ends
    obtain ⟨rfl, fails⟩ := ends
    refine later after value (fun bad => ?_)
    obtain ⟨thrown, same⟩ := fails.mpr bad
    cases same
  · intro now after thrown ends
    obtain ⟨rfl, fails⟩ := ends
    exact stops after thrown (fails.mp ⟨thrown, rfl⟩)

-- The same program makes the same calls of others.
theorem tracks_on_states {F : Type} {S : F → Type} {noteInside : (call : F) → S call → τ → τ}
    (impl : (call : E) → Program F S (R call))
    (each : ∀ call seen, meets (hearing noteInside) (impl call)
      (fun reply after => after = note call reply seen) seen)
    {raw : StateM E R X α} {plain : Failing E R Thrown β}
    (tracks : Tracks note start convert inner held seen raw plain) :
    Tracks noteInside start convert inner held seen (onStates impl raw)
      (Failing.inline impl plain) := mimics_inline impl each tracks

end Rules

section Processes

variable {ι E : Type} {R : E → Type} {X : Xxh64} {C σ α : Type} [DecidableEq ι]

def logged (call : E) (reply : R call) (log : List (Event E R)) : List (Event E R) := log ++ [⟨call, reply⟩]

theorem mem_logged (history : List (Step ι E R σ)) (proc : ι) (event : Event E R) :
    event ∈ noted logged [] history proc ↔ ∃ step ∈ history, step.proc = proc ∧ step.event = event :=
  (mem_noted_log [] history proc event).trans (or_iff_right List.not_mem_nil)

theorem logged_iff (history : List (Step ι E R σ)) (proc : ι) (fact : Event E R → Prop) :
    (∃ event ∈ noted logged [] history proc, fact event) ↔ ∃ step ∈ history, step.proc = proc ∧
      fact step.event := by
  constructor
  · intro logs
    obtain ⟨event, member, holds⟩ := logs
    obtain ⟨step, inside, mine, rfl⟩ := (mem_logged history proc event).mp member
    exact ⟨step, inside, mine, holds⟩
  · intro steps
    obtain ⟨step, inside, mine, holds⟩ := steps
    exact ⟨step.event, (mem_logged history proc step.event).mpr ⟨step, inside, mine, rfl⟩, holds⟩

theorem nothing_logged (history : List (Step ι E R σ)) (proc : ι)
    (nothing : noted logged [] history proc = []) :
    ∀ step ∈ history, step.proc ≠ proc := by
  intro step inside mine
  have member := (mem_logged history proc step.event).mpr ⟨step, inside, mine, rfl⟩
  rw [nothing] at member
  cases member

def outOfMemory : Except Escaping α := .error (.runtimeError "XXH64_createState failed")

-- Given back unless the leak has happened.
def FreedUnless {τ : Type} (leaks : τ → Prop) (held : HasherHolding X) (seen : τ) : Prop :=
  (held = noHandles ∧ ¬ leaks seen) ∨ ((∃ handle value, held = oneHandle handle value) ∧ leaks seen)

theorem freed_unless_iff {τ : Type} {leaks : τ → Prop} {held : HasherHolding X} {seen : τ}
    (freed : FreedUnless leaks held seen) :
    held ≠ noHandles ↔ leaks seen := by
  cases freed with
  | inl nothing => exact iff_of_false (fun something => something nothing.1) nothing.2
  | inr one =>
      obtain ⟨⟨handle, value, rfl⟩, leaked⟩ := one
      refine iff_of_true (fun nothing => ?_) leaked
      have there := congrFun nothing handle
      rw [oneHandle, Function.update_self] at there
      cases there

theorem escape_not_refused (outcome : Except Thrown α) : escape outcome ≠ outOfMemory := by
  intro same
  cases outcome with
  | ok value => cases same
  | error thrown => cases same

variable {raw : ι → StateM E R X α} {plain : ι → Failing E R Thrown α} {leaks : ι → List (Event E R) → Prop}

-- Handlers that share a heap end as those with values of their own end in some run, but
-- for the ones that get no memory, and what is left is what leaked.
theorem states_accounted (sem : Sem E R C σ)
    (each : ∀ proc, Tracks logged [] id
      (fun (held : HasherHolding X) log _ => FreedUnless (leaks proc) held log) noHandles []
      (raw proc) (plain proc)) (state : σ) (schedule : List (ι × (C × Bool))) :
    let after := (Pool.start (fun proc => (raw proc).run) (state, Heap.empty)).run
      (handleSem (xxhStates X) sem) schedule
    after.state.2.misused = false ∧
      ∃ kept, List.Sublist kept (schedule.map (fun turn => (turn.1, turn.2.1))) ∧
      let other := (Pool.start (fun proc => (plain proc).run) state).run sem kept
      after.state.1 = other.state ∧
      (∀ proc outcome, after.procs proc = .pure outcome →
        (outcome = outOfMemory ∧ noted logged [] other.history proc = []) ∨
          ∃ answer, other.procs proc = .pure answer ∧ outcome = escape answer) ∧
      ((∀ proc, ∃ outcome, after.procs proc = .pure outcome) →
        after.state.2.live =
          {proc | after.procs proc ≠ .pure outOfMemory ∧ leaks proc (noted logged
            [] other.history proc)}.ncard) := by
  intro after
  obtain ⟨kept, sub, holds, mimicking⟩ := mimicking_run sem (fun proc => (raw proc).run)
    (fun proc => (plain proc).run) state each schedule
  have ends : ∀ proc outcome, after.procs proc = .pure outcome →
      Refused [] (holds proc) (noted logged []
        (((Pool.start (fun proc => (plain proc).run) state).run sem kept).history) proc) outcome ∨
        ∃ answer, ((Pool.start (fun proc => (plain proc).run) state).run sem kept).procs proc =
          .pure answer ∧ outcome = escape answer ∧
          FreedUnless (leaks proc) (holds proc)
            (noted logged []
              (((Pool.start (fun proc => (plain proc).run) state).run sem kept).history) proc) := by
    intro proc outcome ended
    cases mimicking.each proc with
    | inl mimics =>
        rw [ended] at mimics
        generalize other : ((Pool.start (fun proc => (plain proc).run) state).run sem kept).procs
          proc = program at mimics
        cases mimics with
        | ends _ _ _ answer agrees =>
            obtain ⟨same, freed⟩ := agrees
            rw [id_map] at same
            exact .inr ⟨answer, rfl, same, freed⟩
    | inr refused =>
        obtain ⟨value, stopped, refused⟩ := refused
        obtain rfl := Program.pure.inj (ended.symm.trans stopped)
        exact .inl refused
  refine ⟨mimicking.clean, kept, sub, mimicking.state, ?_, ?_⟩
  · intro proc outcome ended
    cases ends proc outcome ended with
    | inl refused => exact .inl ⟨refused.2.2, refused.2.1⟩
    | inr answered =>
        obtain ⟨answer, other, same, -⟩ := answered
        exact .inr ⟨answer, other, same⟩
  · intro finished
    rw [live_holders mimicking.shared ?_]
    · refine congrArg Set.ncard (Set.ext fun proc => ?_)
      obtain ⟨outcome, ended⟩ := finished proc
      cases ends proc outcome ended with
      | inl refused =>
          obtain ⟨nothing, -, rfl⟩ := refused
          exact iff_of_false (fun something => something nothing) (fun leaked => leaked.1 ended)
      | inr answered =>
          obtain ⟨answer, -, rfl, freed⟩ := answered
          have remembered : after.procs proc ≠ .pure outOfMemory := by
            intro refused
            exact escape_not_refused answer (Program.pure.inj (ended.symm.trans refused))
          exact (freed_unless_iff freed).trans (and_iff_right remembered).symm
    · intro proc
      obtain ⟨outcome, ended⟩ := finished proc
      cases ends proc outcome ended with
      | inl refused => exact .inl refused.1
      | inr answered =>
          obtain ⟨answer, -, -, freed⟩ := answered
          cases freed with
          | inl nothing => exact .inl nothing.1
          | inr one => exact .inr one.1

end Processes

section Files

-- A file could not be opened for writing, or its directory not be made.
def FailedWrite : (call : FileCall) → FileReply call → Prop
  | .createDirectories _, reply => ∃ what, reply = .error what
  | .openTrunc _, opened => opened = false
  | .append _ _, opened => opened = false
  | _, _ => False

variable {τ : Type}

structure Notes (note : (call : FileCall) → FileReply call → τ → τ) (failed : τ → Prop) : Prop where
  each : ∀ call reply seen, failed (note call reply seen) ↔ failed seen ∨ FailedWrite call reply

variable {note : (call : FileCall) → FileReply call → τ → τ} {failed : τ → Prop} {seen : τ}

theorem hears_create (notes : Notes note failed) (name : String) (clean : ¬ failed seen) :
    meets (hearing note) (BlobFile.create name).run
      (fun outcome after => (∃ thrown, outcome = .error thrown) ↔ failed after) seen := by
  rw [BlobFile.create, createDirectories, bind_assoc, meets_run_bind, meets_run_perform]
  intro reply
  have first := notes.each (.createDirectories BlobFile.BLOBS_PATH) reply seen
  cases reply with
  | error what => exact iff_of_true ⟨_, rfl⟩ (first.mpr (.inr ⟨what, rfl⟩))
  | ok _ =>
      have still : ¬ failed (note (.createDirectories BlobFile.BLOBS_PATH) (.ok ()) seen) := by
        rw [first]
        intro either
        cases either with
        | inl before => exact clean before
        | inr now =>
            obtain ⟨what, same⟩ := now
            cases same
      dsimp only [orThrow]
      rw [pure_bind, openTruncate, meets_run_bind, meets_run_perform]
      intro opened
      have second := notes.each (.openTrunc (joinPath BlobFile.BLOBS_PATH name)) opened
        (note (.createDirectories BlobFile.BLOBS_PATH) (.ok ()) seen)
      cases opened with
      | false => exact iff_of_true ⟨_, rfl⟩ (second.mpr (.inr rfl))
      | true =>
          refine iff_of_false (fun thrown => ?_) (fun bad => ?_)
          · obtain ⟨thrown, same⟩ := thrown
            cases same
          · cases second.mp bad with
            | inl before => exact still before
            | inr now => cases now

theorem hears_append (notes : Notes note failed) (file : BlobFile) (chunk : Bytes) (clean : ¬ failed seen) :
    meets (hearing note) (file.appendChunk chunk).run
      (fun outcome after => (∃ thrown, outcome = .error thrown) ↔ failed after) seen := by
  rw [BlobFile.appendChunk, appendTo, meets_run_bind, meets_run_perform]
  intro opened
  have noted := notes.each (.append file.filePath chunk) opened seen
  cases opened with
  | false => exact iff_of_true ⟨_, rfl⟩ (noted.mpr (.inr rfl))
  | true =>
      refine iff_of_false (fun thrown => ?_) (fun bad => ?_)
      · obtain ⟨thrown, same⟩ := thrown
        cases same
      · cases noted.mp bad with
        | inl before => exact clean before
        | inr now => cases now

theorem hears_remove (notes : Notes note failed) (file : BlobFile) (clean : ¬ failed seen) :
    meets (hearing note) file.remove.run (fun _ after => ¬ failed after) seen := by
  rw [BlobFile.remove, removeFile, meets_run_bind, meets_run_perform]
  intro reply
  have noted := notes.each (.remove file.filePath) reply seen
  have still : ¬ failed (note (.remove file.filePath) reply seen) := fun bad => (noted.mp bad).elim clean id
  cases reply with
  | error what => exact still
  | ok removed => exact still

end Files

end BlobStore
