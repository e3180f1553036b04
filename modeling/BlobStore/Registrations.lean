import BlobStore.MasterOutcomes
import BlobStore.MasterBooks
import BlobStore.ClusterRules
import BlobStore.WorkerMain

set_option autoImplicit false

namespace BlobStore

open Effects MasterDbRepository

-- The tables but for what belongs to one worker.
def withoutWorker (address : String) (tables : Tables) : Tables :=
  ⟨tables.blobCopy.delete (fun entry => entry.workerAddress = address),
    tables.workerState.delete (fun row => row.workerAddress = address)⟩

-- A commit of which nothing is known: an error may hide that it was applied.
theorem wp_any_commit (mutation : Mutation) (post : Except Status Unit → Tables → Prop)
    (tables : Tables) (applied : ∀ after, mutation.apply tables = some after → post (.ok ()) after)
    (failed : ∀ status after, after = tables ∨ mutation.apply tables = some after →
      post (.error status) after) :
    wp spannerSem (fun _ => True) (commit mutation).run post tables := by
  rw [commit, wp_run_bind, wp_run_perform]
  intro choice _
  simp only [spannerSem, commitSem]
  cases choice.fault with
  | lost => exact failed _ _ (.inl rfl)
  | none =>
      cases outcome : mutation.apply tables with
      | none => exact failed _ _ (.inl rfl)
      | some after => exact applied after outcome
  | applied =>
      cases outcome : mutation.apply tables with
      | none => exact failed _ _ (.inl rfl)
      | some after => exact failed _ _ (.inr outcome)

theorem wp_unreliable_db {α : Type} (program : DbM α) (post : Except Status α → Tables → Prop)
    (tables : Tables) (holds : wp spannerSem (fun _ => True) program.run post tables) :
    wp masterSem (fun _ => True) (onDb program).run post tables := by
  have noted : wp (observed (fun _ _ seen => seen) masterSem) (fun _ => True)
      (onDb program).run (fun outcome after => post outcome after.1)
      (tables, ()) := wp_on_db_where (fun _ => True) program _ (tables, ())
        ((wp_observed_iff _ post tables ()).mpr holds)
  exact (wp_observed_iff _ post tables ()).mp noted

section Register

variable {request : RegisterWorkerRequest}

-- The three commits of a registration.
inductive Registering (request : RegisterWorkerRequest) : Mutation → Prop where
  | deletesRow : Registering request (.deleteWorker request.address)
  | deletesCopies : Registering request (.deleteBlobsByWorker request.address)
  | inserts : Registering request (.insertWorker ⟨request.address, request.spaceAvailable, 0, 0⟩)

theorem registering_others {mutation : Mutation} {before after : Tables}
    (mine : Registering request mutation) (applied : mutation.apply before = some after) :
    withoutWorker request.address after = withoutWorker request.address before := by
  cases mine with
  | deletesRow =>
      obtain rfl := Option.some.inj applied
      simp only [withoutWorker, Table.delete_twice]
  | deletesCopies =>
      obtain rfl := Option.some.inj applied
      simp only [withoutWorker, Table.delete_twice]
  | inserts =>
      obtain ⟨rows, inserted, rfl⟩ := insert_worker_apply applied
      rw [withoutWorker, Table.delete_insert inserted _ (decide_eq_true rfl)]
      rfl

-- One attempt, however it ends.
structure RegisterAttempt (request : RegisterWorkerRequest) (before : Tables)
    (outcome : Except Status Unit) (after : Tables) :
    Prop where
  others : withoutWorker request.address after = withoutWorker request.address before
  registers : outcome = .ok () → RegisterOutcome request before outcome after

theorem wp_register_attempt (request : RegisterWorkerRequest) (tables : Tables) :
    wp spannerSem (fun _ => True) (MasterService.registerWorker request).run
      (RegisterAttempt request tables) tables := by
  have failed : ∀ {mutation : Mutation} {before : Tables}, Registering request mutation →
      withoutWorker request.address before = withoutWorker request.address tables →
      ∀ status after, after = before ∨ mutation.apply before = some after →
          RegisterAttempt request tables (.error status) after := by
    rintro mutation before mine same status after (rfl | applied)
    · exact ⟨same, fun accepted => by cases accepted⟩
    · exact ⟨(registering_others mine applied).trans same, fun accepted => by cases accepted⟩
  rw [MasterService.registerWorker, wp_run_bind]
  refine wp_any_commit _ _ _ ?_ (failed .deletesRow rfl)
  intro first rowDeleted
  have firstSame := registering_others .deletesRow rowDeleted
  dsimp only
  rw [wp_run_bind]
  refine wp_any_commit _ _ _ ?_ (failed .deletesCopies firstSame)
  intro second copiesDeleted
  have secondSame := (registering_others .deletesCopies copiesDeleted).trans firstSame
  refine wp_any_commit _ _ _ ?_ (failed .inserts secondSame)
  intro third applied
  obtain ⟨rows, inserted, rfl⟩ := insert_worker_apply applied
  refine ⟨(registering_others .inserts applied).trans secondSame, fun _ => ?_⟩
  obtain rfl := Option.some.inj rowDeleted
  obtain rfl := Option.some.inj copiesDeleted
  exact ⟨rfl, rfl, inserted⟩

-- What a registration leaves depends on the rows of the others only.
theorem registered_again {one two after : Tables} {outcome : Except Status Unit}
    (registered : RegisterOutcome request one outcome after)
    (same : withoutWorker request.address one = withoutWorker request.address two) :
    RegisterOutcome request two outcome after := by
  have copies : after.blobCopy = (withoutWorker request.address one).blobCopy := registered.copies
  have inserted : (withoutWorker request.address one).workerState.insert
      ⟨request.address, request.spaceAvailable, 0, 0⟩ =
    some after.workerState := registered.inserted
  rw [same] at copies inserted
  exact ⟨registered.accepted, copies, inserted⟩

theorem registered_unique {before one two : Tables} {outcome answer : Except Status Unit}
    (former : RegisterOutcome request before outcome one)
    (latter : RegisterOutcome request before answer two) : one = two := by
  obtain ⟨copies, rows⟩ := one
  obtain ⟨more, others⟩ := two
  obtain rfl : copies = more := former.copies.trans latter.copies.symm
  obtain rfl : rows = others := Option.some.inj (former.inserted.symm.trans latter.inserted)
  rfl

theorem attempt_again {one two after : Tables} {outcome : Except Status Unit}
    (attempt : RegisterAttempt request one outcome after)
    (same : withoutWorker request.address one = withoutWorker request.address two) :
    RegisterAttempt request two outcome after :=
  ⟨attempt.others.trans same, fun accepted => registered_again (attempt.registers accepted) same⟩

theorem register_attempt_step (request : RegisterWorkerRequest)
    (choices : List MasterChoice) (tables : Tables) :
    ∃ outcome, (masterStep (.registerWorker request, choices) tables).1 = outcome.map (fun _ => .done) ∧
      RegisterAttempt request tables outcome (masterStep (.registerWorker request, choices) tables).2 := by
  refine wp_sound (fun _ : MasterChoice => True) (MasterOp.registerWorker request).program.run
      (fun result after =>
    ∃ outcome : Except Status Unit, result = outcome.map (fun _ => .done) ∧
      RegisterAttempt request tables outcome after)
    choices tables trivial (fun _ _ => trivial) ?_
  rw [MasterOp.program, wp_run_bind]
  refine wp_unreliable_db _ _ tables (wp_mono _ _ _ _ ?_ (wp_register_attempt request tables))
  rintro (status | _) after attempt
  · exact ⟨.error status, rfl, attempt⟩
  · exact ⟨.ok (), rfl, attempt⟩

theorem attempts_others (request : RegisterWorkerRequest)
    (attempts : List (List MasterChoice)) (tables : Tables) :
    withoutWorker request.address
      (finalState masterStep tables
        (attempts.map (fun choices => (.registerWorker request, choices)))) =
      withoutWorker request.address tables := by
  refine final_state_holds masterStep
    (fun after => withoutWorker request.address after = withoutWorker request.address tables)
    (fun turn => turn.1 = .registerWorker request) ?_ tables _ rfl ?_
  · rintro now ⟨_, choices⟩ same rfl
    obtain ⟨outcome, -, attempt⟩ := register_attempt_step request choices now
    exact attempt.others.trans same
  · intro turn member
    obtain ⟨choices, -, rfl⟩ := List.mem_map.mp member
    rfl

-- One worker as it starts, and nothing of any other worker changed.
structure RegisteredAnew (request : RegisterWorkerRequest) (before after : Tables) : Prop where
  row : after.workerState.find? request.address = some ⟨request.address, request.spaceAvailable, 0, 0⟩
  unused : ∀ entry ∈ after.blobCopy.rows, entry.workerAddress ≠ request.address
  otherRows : ∀ other, other ≠ request.address →
    after.workerState.find? other = before.workerState.find? other
  otherCopies : ∀ key : String × String, key.2 ≠ request.address →
    after.blobCopy.find? key = before.blobCopy.find? key

theorem registered_anew {before after : Tables} {outcome : Except Status Unit}
    (registered : RegisterOutcome request before outcome after) :
    RegisteredAnew request before after := by
  have lookup := Table.find_insert registered.inserted
  refine ⟨(lookup request.address).trans (if_pos rfl), ?_, ?_, ?_⟩
  · intro entry member
    rw [registered.copies, Table.mem_delete] at member
    exact of_decide_eq_false member.2
  · intro other different
    rw [lookup other, if_neg (Ne.symm different)]
    refine Table.find_spared _ _ other ?_
    rintro row rfl
    exact decide_eq_false different
  · intro key different
    rw [registered.copies]
    refine Table.find_spared _ _ key ?_
    rintro entry rfl
    exact decide_eq_false different

-- However the earlier attempts ended, the one that is accepted leaves what a single
-- registration leaves.
theorem retried_registration_converges (request : RegisterWorkerRequest)
    (attempts : List (List MasterChoice)) (last : List MasterChoice) (tables : Tables)
    (accepted : (masterStep (.registerWorker request, last)
      (finalState masterStep tables
        (attempts.map (fun choices => (.registerWorker request, choices))))).1 = .ok .done) :
    let once := masterStep (.registerWorker request, []) tables
    let after := finalState masterStep tables
      ((attempts ++ [last]).map (fun choices => (.registerWorker request, choices)))
    once.1 = .ok .done ∧ after = once.2 ∧ RegisteredAnew request tables after := by
  intro once after
  obtain ⟨answer, result, registered⟩ := register_step request [] tables (by simp)
  obtain ⟨outcome, returned, attempt⟩ := register_attempt_step request last
    (finalState masterStep tables (attempts.map (fun choices => (.registerWorker request, choices))))
  have done : outcome = .ok () := by
    rw [returned] at accepted
    cases outcome with
    | error status => cases accepted
    | ok _ => rfl
  have same : after = once.2 := by
    have snoc : after = (masterStep (.registerWorker request, last)
        (finalState masterStep tables
          (attempts.map (fun choices => (.registerWorker request, choices))))).2 := by
      simp [after, finalState]
    rw [snoc]
    exact registered_unique
      ((attempt_again attempt (attempts_others request attempts tables)).registers done) registered
  refine ⟨?_, same, same ▸ registered_anew registered⟩
  rw [show once.1 = _ from result, registered.accepted]
  rfl

end Register

-- worker-1 comes back with more space. Its first attempt ends at the second commit,
-- which is lost, and the second one at the insert, which is applied all the same.
def worker1Again : RegisterWorkerRequest := ⟨"worker-1", 9⟩

def failedAttempts : List (List MasterChoice) :=
  [[{}, { db := { fault := .lost } }], [{}, {}, { db := { fault := .applied } }]]

theorem retried_registration_converges_run :
    RegisteredAnew worker1Again
      (finalState masterStep Tables.empty (threeWorkers 5 ++ [(.getWorkersToSaveBlob ⟨"7", 3⟩, [])]))
      (finalState masterStep
        (finalState masterStep Tables.empty (threeWorkers 5 ++ [(.getWorkersToSaveBlob ⟨"7", 3⟩, [])]))
        ((failedAttempts ++ [[]]).map (fun choices => (.registerWorker worker1Again, choices)))) :=
  (retried_registration_converges worker1Again failedAttempts [] _ (by decide +kernel)).2.2

section Start

-- The loop of run_worker: a call may be lost, or its reply, and a commit may fail.
theorem wp_register_call (request : RegisterWorkerRequest) (cluster : Cluster) :
    wp clusterSem (fun _ => True) (unary (dbOnCluster (MasterService.registerWorker request)))
      (fun outcome after => RegisterAttempt request cluster.tables outcome after.tables) cluster := by
  have lost : ∀ {before after : Tables} (status : Status),
      withoutWorker request.address after = withoutWorker request.address before →
      RegisterAttempt request before (.error status) after :=
        fun status same => ⟨same, fun accepted => by cases accepted⟩
  have alone : wp spannerSem (DbChoices (fun _ => True))
      (MasterService.registerWorker request).run (fun outcome after =>
      RegisterAttempt request cluster.tables outcome after ∧
        (True → ∀ message, RegisterAttempt request cluster.tables (unavailable message) after))
          cluster.tables := by
    refine wp_fewer _ _ _ (fun _ _ => trivial)
      (wp_mono _ _ _ _ ?_ (wp_register_attempt request cluster.tables))
    exact fun outcome after attempt => ⟨attempt, fun _ message => lost _ attempt.others⟩
  refine wp_unary expects_anything _ _ cluster (wp_db_on_cluster _ _ cluster ?_) (fun _ message => lost _ rfl)
  exact (wp_observed_iff _ _ cluster.tables ()).mpr alone

theorem wp_register_at_master (address : String) (request : RegisterWorkerRequest)
    (tries : Nat) (cluster : Cluster) :
    wp (composed (workerMainImpl address) clusterSem) (EveryChoice (fun _ => True))
      (WorkerMain.registerAtMaster request tries).run
      (fun outcome after => outcome = .ok true →
        RegisterOutcome request cluster.tables (.ok ()) after.tables) cluster := by
  suffices loop : ∀ now : Cluster,
      withoutWorker request.address now.tables = withoutWorker request.address cluster.tables →
      wp (composed (workerMainImpl address) clusterSem) (EveryChoice (fun _ => True))
        (WorkerMain.registerAtMaster request tries).run
        (fun outcome after => outcome = .ok true →
          RegisterOutcome request cluster.tables (.ok ()) after.tables) now from loop cluster rfl
  intro now same
  induction tries generalizing now with
  | zero => exact fun refused => by cases refused
  | succ tries ih =>
      rw [WorkerMain.registerAtMaster, wp_run_bind]
      refine wp_run_composed trivial _ _ _ _ (wp_mono _ _ _ _ ?_ (wp_register_call request now))
      intro outcome after attempt
      have again := attempt_again attempt same
      cases outcome with
      | ok _ => exact fun _ => again.registers rfl
      | error status => exact ih after again.others

theorem wp_main_files {α : Type} (address : String) (program : FileM α)
    (post : Except Thrown α → Cluster → Prop) (cluster : Cluster)
    (ends : ∀ outcome after, after.tables = cluster.tables → post outcome after) :
    wp (composed (workerMainImpl address) clusterSem) (EveryChoice (fun _ => True))
      (Failing.inline WorkerMain.mainFile program).run
      post cluster := by
  refine wp_inline_keeps WorkerMain.mainFile (fun now : Cluster => now.tables = cluster.tables) ?_
    program.run post cluster rfl ends
  intro call after now same each
  rw [WorkerMain.mainFile, wp_perform]
  exact fun choices _ => each _ _ same

-- A worker that starts to serve is known to the master as if it had asked once.
theorem started_worker_registered (address : String) (choices : List Choice)
    (cluster : Cluster) (free : UInt64)
    (started : (exec clusterSem (startWorker address) choices cluster).1 = .ok (.registered free)) :
    RegisteredAnew ⟨address, toInt64 free⟩ cluster.tables
      (exec clusterSem (startWorker address) choices cluster).2.2.tables := by
  have holds : wp clusterSem (fun _ => True) (startWorker address)
      (fun outcome after => ∀ free, outcome = .ok (.registered free) →
      RegisteredAnew ⟨address, toInt64 free⟩ cluster.tables after.tables) cluster := by
    rw [startWorker]
    refine wp_inline (workerMainImpl address) _ _ cluster ?_
    rw [WorkerMain.runWorker, wp_run_bind]
    refine wp_main_files address _ _ cluster ?_
    rintro (thrown | _) made sameMade
    · exact fun _ returned => by cases returned
    dsimp only
    rw [wp_run_bind]
    refine wp_main_files address _ _ made ?_
    rintro (thrown | status | storage) measured sameMeasured
    · exact fun _ returned => by cases returned
    · exact fun _ returned => by cases returned
    dsimp only
    rw [wp_run_bind]
    refine wp_mono _ _ _ _ ?_ (wp_register_at_master address ⟨address, toInt64 storage⟩ 10 measured)
    rw [sameMeasured, sameMade]
    rintro (thrown | _ | _) after registered
    · exact fun _ returned => by cases returned
    · exact fun _ returned => by cases returned
    · intro _ returned
      cases returned
      exact registered_anew (registered rfl)
  exact wp_sound _ _ _ choices cluster trivial (fun _ _ => trivial) holds free started

end Start

end BlobStore
