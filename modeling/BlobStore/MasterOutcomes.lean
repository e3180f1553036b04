import BlobStore.CopyRules
import BlobStore.MasterLocks

set_option autoImplicit false

namespace BlobStore

open Effects MasterDbRepository MasterService

-- One round of the loop over the workers whose insert is accepted.
structure Reserved (blobHash : String) (size : Int) (worker : WorkerStateDTO)
    (before after : Tables) : Prop where
  inserted : before.blobCopy.insert
    ⟨blobHash, worker.workerAddress, .duringCreation, size⟩ = some after.blobCopy
  updated : before.workerState.update { worker with lockedSpaceMb := size + worker.lockedSpaceMb } =
    some after.workerState

-- What the loop does to a database that works: the rounds before the first refused
-- insert stay committed.
inductive ReserveOutcome (blobHash : String) (size : Int) :
    List WorkerStateDTO → Tables → Except Status (List String) → Tables → Prop where
  | done (tables : Tables) : ReserveOutcome blobHash size [] tables (.ok []) tables
  | refused (worker : WorkerStateDTO) (rest : List WorkerStateDTO) (tables : Tables) (status : Status)
      (taken : tables.blobCopy.find? (blobHash, worker.workerAddress) ≠ none) :
      ReserveOutcome blobHash size (worker :: rest) tables (.error status) tables
  | reserved (worker : WorkerStateDTO) (rest : List WorkerStateDTO) (before middle after : Tables)
      (outcome : Except Status (List String)) (round : Reserved blobHash size worker before middle)
      (later : ReserveOutcome blobHash size rest middle outcome after) :
      ReserveOutcome blobHash size (worker :: rest) before (outcome.map (worker.workerAddress :: ·)) after

inductive PlaceOutcome (blobHash : String) (size : Int) (before : Tables) :
    Except Status (List String) → Tables → Prop where
  | short (status : Status) : PlaceOutcome blobHash size before (.error status) before
  | chosen (workers : List WorkerStateDTO) (outcome : Except Status (List String)) (after : Tables)
      (placement : Placement before.workerState size workers) (three : workers.length = 3)
      (loop : ReserveOutcome blobHash size workers before outcome after) :
        PlaceOutcome blobHash size before outcome after

inductive NotifyOutcome (request : NotifyBlobSavedRequest) (before : Tables) :
    Except Status Unit → Tables → Prop where
  | unknown (status : Status)
      (absent : before.blobCopy.find? (request.blobHash, request.workerAddress) = none) :
      NotifyOutcome request before (.error status) before
  | unregistered (status : Status) (blob : BlobCopyDTO) (copies : BlobTable)
      (found : before.blobCopy.find? (request.blobHash, request.workerAddress) = some blob)
      (marked : before.blobCopy.update { blob with state := .saved } = some copies)
      (absent : before.workerState.find? request.workerAddress = none) :
      NotifyOutcome request before (.error status) { before with blobCopy := copies }
  | saved (blob : BlobCopyDTO) (worker : WorkerStateDTO) (copies : BlobTable) (rows : WorkerTable)
      (found : before.blobCopy.find? (request.blobHash, request.workerAddress) = some blob)
      (marked : before.blobCopy.update { blob with state := .saved } = some copies)
      (present : before.workerState.find? request.workerAddress = some worker)
      (updated : before.workerState.update { worker with
        lockedSpaceMb := worker.lockedSpaceMb - blob.sizeMb
        availableSpaceMb := worker.availableSpaceMb - blob.sizeMb } = some rows) :
      NotifyOutcome request before (.ok ()) ⟨copies, rows⟩

structure RegisterOutcome (request : RegisterWorkerRequest) (before : Tables)
    (outcome : Except Status Unit) (after : Tables) :
    Prop where
  accepted : outcome = .ok ()
  copies : after.blobCopy = before.blobCopy.delete (fun entry => entry.workerAddress = request.address)
  inserted : (before.workerState.delete (fun row => row.workerAddress = request.address)).insert
    ⟨request.address, request.spaceAvailable, 0, 0⟩ = some after.workerState

theorem wp_reserve_outcome (blobHash : String) (size : Int) (workers : List WorkerStateDTO) (tables : Tables)
    (registered : ∀ worker ∈ workers, Registered tables worker.workerAddress) :
    wpDb DbHealthy (reserveWorkers blobHash size workers)
      (ReserveOutcome blobHash size workers tables) tables := by
  induction workers generalizing tables with
  | nil => exact .done tables
  | cons worker rest ih =>
      rw [wpDb, reserveWorkers, wp_run_bind]
      refine wp_commit db_healthy _ _ _ _ ?_ ?_ False.elim
      · intro _ applied
        obtain ⟨copies, inserted, rfl⟩ := insert_blob_apply applied
        dsimp only
        rw [wp_run_bind]
        refine wp_commit db_healthy _ _ _ _ ?_ ?_ False.elim
        · intro _ applied
          obtain ⟨rows, updated, rfl⟩ := update_worker_apply applied
          have round : Reserved blobHash size worker tables ⟨copies, rows⟩ := ⟨inserted, updated⟩
          dsimp only
          rw [wp_run_bind]
          refine wp_mono _ _ _ _ ?_ (ih ⟨copies, rows⟩
            (fun other member => (registered_update updated _).mpr (registered other (by simp [member]))))
          rintro (status | addresses) after later
          · exact .reserved worker rest tables _ after.1 (.error status) round later
          · exact .reserved worker rest tables _ after.1 (.ok addresses) round later
        · intro refused
          obtain ⟨old, present⟩ := Option.ne_none_iff_exists'.mp (registered worker (by simp))
          exact absurd refused (update_worker_accepted present)
      · intro refused message
        exact .refused worker rest tables _
          ((Table.insert_none_iff _ _).mp (Option.map_eq_none_iff.mp refused))

theorem wp_place_outcome (request : GetWorkersToSaveBlobRequest) (tables : Tables) :
    wpDb DbHealthy (MasterService.getWorkersToSaveBlob request)
      (PlaceOutcome request.blobHash (toInt64 request.sizeMb) tables) tables := by
  rw [wpDb, MasterService.getWorkersToSaveBlob, wp_run_bind]
  refine wp_get_workers_with_free_space db_healthy _ _ _ _ _ ?_ (fun _ _ status => .short status) False.elim
  intro workers placement three
  refine wp_mono _ _ _ _ ?_ (wp_reserve_outcome request.blobHash (toInt64 request.sizeMb) workers tables ?_)
  · exact fun outcome after loop => .chosen workers outcome after.1 placement three loop
  · intro worker member
    simp [Registered, tables.workerState.find_self worker (placement.stored worker member)]

theorem wp_notify_outcome (request : NotifyBlobSavedRequest) (tables : Tables) :
    wpDb DbHealthy (MasterService.notifyBlobSaved request) (NotifyOutcome request tables) tables := by
  rw [wpDb, MasterService.notifyBlobSaved, wp_run_bind]
  refine wp_query_blob db_healthy _ _ _ _ _ ?_ False.elim
  cases found : tables.blobCopy.find? (request.blobHash, request.workerAddress) with
  | none => exact .unknown _ found
  | some blob =>
      obtain ⟨stored, -⟩ := (tables.blobCopy.find_some_iff _ _).mp found
      dsimp only [Option.toList_some]
      rw [wp_run_bind]
      refine wp_commit db_healthy _ _ _ _ ?_ ?_ False.elim
      · intro _ applied
        obtain ⟨copies, marked, rfl⟩ := update_blob_apply applied
        dsimp only
        rw [wp_run_bind]
        refine wp_get_worker_state db_healthy _ _ _ _ ?_ ?_ False.elim
        · intro worker present
          refine wp_commit db_healthy _ _ _ _ ?_ ?_ False.elim
          · intro _ applied
            obtain ⟨rows, updated, rfl⟩ := update_worker_apply applied
            exact .saved blob worker copies rows found marked present updated
          · have address := ((tables.workerState.find_some_iff _ _).mp present).2
            exact fun refused => absurd refused (update_worker_accepted (address ▸ present))
        · exact fun absent status => .unregistered status blob copies found marked absent
      · exact fun refused => absurd refused (update_blob_accepted (tables.blobCopy.find_self blob stored))

theorem wp_register_outcome (request : RegisterWorkerRequest) (tables : Tables) :
    wpDb DbHealthy (MasterService.registerWorker request) (RegisterOutcome request tables) tables := by
  rw [wpDb, MasterService.registerWorker, wp_run_bind]
  refine wp_commit db_healthy _ _ _ _ ?_ (by rintro ⟨⟩) False.elim
  rintro _ ⟨⟩
  dsimp only
  rw [wp_run_bind]
  refine wp_commit db_healthy _ _ _ _ ?_ (by rintro ⟨⟩) False.elim
  rintro _ ⟨⟩
  refine wp_commit db_healthy _ _ _ _ ?_ ?_ False.elim
  · intro _ applied
    obtain ⟨rows, inserted, rfl⟩ := insert_worker_apply applied
    exact ⟨rfl, rfl, inserted⟩
  · intro refused
    have taken := (Table.insert_none_iff _ _).mp (Option.map_eq_none_iff.mp refused)
    rw [Table.find_delete] at taken
    cases found : tables.workerState.find? request.address with
    | none => simp [found] at taken
    | some row => simp [found, ((tables.workerState.find_some_iff _ _).mp found).2] at taken

-- The answers of the workers to the deletion are not looked at.
theorem wp_delete_outcome (blobHash : String) (tables : Tables) :
    wp (observed (fun _ _ (seen : Unit) => seen) masterSem) MasterHealthy
      (MasterService.deleteBlob blobHash).run
      (fun outcome after => outcome = .ok () ∧
        after.1 = { tables with
          blobCopy := tables.blobCopy.delete (fun entry => entry.hash = blobHash) })
          (tables, ()) := by
  rw [MasterService.deleteBlob, wp_run_bind]
  refine wp_on_db _ _ _ ?_
  refine wp_select_blobs db_healthy _ _ _ _ ?_ False.elim
  intro rows _
  dsimp only
  rw [wp_run_bind]
  refine wp_request_workers_to_delete _ (fun _ _ _ _ => rfl) _ _ ?_
  refine wp_on_db _ _ _ ?_
  refine wp_commit db_healthy _ _ _ _ ?_ (by rintro ⟨⟩) False.elim
  rintro _ ⟨⟩
  exact ⟨rfl, rfl⟩

-- A call of the master that only works on the database does what its handler does.
theorem master_step_on_db {α : Type} (op : MasterOp) (program : DbM α)
    (respond : α → MasterResponse)
    (handler : op.program = onDb program >>= fun value => pure (respond value))
    (post : Except Status α → Tables → Prop) (choices : List MasterChoice) (tables : Tables)
    (healthy : ∀ choice ∈ choices, MasterHealthy choice)
    (holds : wpDb DbHealthy program post tables) :
    ∃ outcome, (masterStep (op, choices) tables).1 = outcome.map respond ∧
        post outcome (masterStep (op, choices) tables).2 := by
  apply master_step_holds (fun result after => ∃ outcome : Except Status α,
    result = outcome.map respond ∧ post outcome after)
    _ _ healthy
  rw [handler, wp_run_bind]
  refine wp_on_db _ _ _ (wp_mono _ _ _ _ ?_ holds)
  rintro (status | value) after met
  · exact ⟨.error status, rfl, met⟩
  · exact ⟨.ok value, rfl, met⟩

theorem place_step (request : GetWorkersToSaveBlobRequest) (choices : List MasterChoice) (tables : Tables)
    (healthy : ∀ choice ∈ choices, MasterHealthy choice) :
    ∃ outcome, (masterStep (.getWorkersToSaveBlob request, choices) tables).1 = outcome.map .addresses ∧
      PlaceOutcome request.blobHash (toInt64 request.sizeMb) tables outcome
        (masterStep (.getWorkersToSaveBlob request, choices) tables).2 :=
  master_step_on_db _ _ _ rfl _ choices tables healthy (wp_place_outcome request tables)

theorem notify_step (request : NotifyBlobSavedRequest) (choices : List MasterChoice) (tables : Tables)
    (healthy : ∀ choice ∈ choices, MasterHealthy choice) :
    ∃ outcome, (masterStep (.notifyBlobSaved request, choices) tables).1 = outcome.map (fun _ => .done) ∧
      NotifyOutcome request tables outcome (masterStep (.notifyBlobSaved request, choices) tables).2 :=
  master_step_on_db _ _ _ rfl _ choices tables healthy (wp_notify_outcome request tables)

theorem lookup_step (blobHash : String) (choices : List MasterChoice) (tables : Tables)
    (healthy : ∀ choice ∈ choices, MasterHealthy choice) :
    ∃ outcome, (masterStep (.getWorkerWithBlob blobHash, choices) tables).1 = outcome.map .address ∧
      LookupAnswer False blobHash tables outcome
        (masterStep (.getWorkerWithBlob blobHash, choices) tables).2 :=
  master_step_on_db _ _ _ rfl _ choices tables healthy (wp_get_worker_with_blob db_healthy blobHash tables)

theorem register_step (request : RegisterWorkerRequest) (choices : List MasterChoice) (tables : Tables)
    (healthy : ∀ choice ∈ choices, MasterHealthy choice) :
    ∃ outcome, (masterStep (.registerWorker request, choices) tables).1 = outcome.map (fun _ => .done) ∧
      RegisterOutcome request tables outcome (masterStep (.registerWorker request, choices) tables).2 :=
  master_step_on_db _ _ _ rfl _ choices tables healthy (wp_register_outcome request tables)

theorem delete_step (blobHash : String) (choices : List MasterChoice) (tables : Tables)
    (healthy : ∀ choice ∈ choices, MasterHealthy choice) :
    masterStep (.deleteBlob blobHash, choices) tables =
      (.ok .done,
        { tables with blobCopy := tables.blobCopy.delete (fun entry => entry.hash = blobHash) }) := by
  apply Prod.ext_iff.mpr
  apply master_step_holds
    (fun result after => result = .ok .done ∧
      after = { tables with blobCopy := tables.blobCopy.delete (fun entry => entry.hash = blobHash) })
    _ _ healthy
  rw [MasterOp.program, wp_run_bind]
  refine wp_mono _ _ _ _ ?_ (wp_delete_outcome blobHash tables)
  rintro outcome after ⟨rfl, same⟩
  exact ⟨rfl, same⟩

theorem notified_rows {request : NotifyBlobSavedRequest} {before after : Tables}
    {outcome : Except Status Unit} (notified : NotifyOutcome request before outcome after) :
    (∀ key, key ≠ (request.blobHash, request.workerAddress) →
      after.blobCopy.find? key = before.blobCopy.find? key) ∧
      (before.blobCopy.find? (request.blobHash, request.workerAddress) ≠ none →
        Copy .saved after (request.blobHash, request.workerAddress)) := by
  have marks : ∀ blob copies, before.blobCopy.find? (request.blobHash, request.workerAddress) = some blob →
      before.blobCopy.update { blob with state := .saved } = some copies →
      (∀ key, key ≠ (request.blobHash, request.workerAddress) →
        copies.find? key = before.blobCopy.find? key) ∧
        copies.find? (request.blobHash, request.workerAddress) = some { blob with state := .saved } := by
    intro blob copies found marked
    have key : BlobCopyDTO.key { blob with state := .saved } = (request.blobHash, request.workerAddress) :=
      ((before.blobCopy.find_some_iff _ _).mp found).2
    constructor
    · intro other different
      rw [Table.find_update marked, key, if_neg (Ne.symm different)]
    · rw [Table.find_update marked, key, if_pos rfl]
  cases notified with
  | unknown status absent => exact ⟨fun _ _ => rfl, fun present => absurd absent present⟩
  | unregistered status blob copies found marked absent =>
      obtain ⟨others, here⟩ := marks blob copies found marked
      exact ⟨others, fun _ => ⟨_, here, rfl⟩⟩
  | saved blob worker copies rows found marked present updated =>
      obtain ⟨others, here⟩ := marks blob copies found marked
      exact ⟨others, fun _ => ⟨_, here, rfl⟩⟩

end BlobStore
