import BlobStore.MasterService

set_option autoImplicit false

namespace BlobStore

open Effects MasterDbRepository

def DbHealthy (choice : DbChoice) : Prop := choice.fault = .none
def MasterHealthy (choice : MasterChoice) : Prop := DbHealthy choice.db

-- Where trouble is expected a call of the database may fail.
def DbTolerates (ok : DbChoice → Prop) (trouble : Prop) : Prop :=
  ∀ choice, ok choice → DbHealthy choice ∨ trouble

theorem db_healthy : DbTolerates DbHealthy False := fun _ healthy => .inl healthy

theorem insert_blob_apply {entry : BlobCopyDTO} {tables after : Tables}
    (applied : (Mutation.insertBlob entry).apply tables = some after) :
    ∃ rows, tables.blobCopy.insert entry = some rows ∧ after = { tables with blobCopy := rows } := by
  obtain ⟨rows, inserted, rfl⟩ := Option.map_eq_some_iff.mp applied
  exact ⟨rows, inserted, rfl⟩

theorem update_blob_apply {entry : BlobCopyDTO} {tables after : Tables}
    (applied : (Mutation.updateBlob entry).apply tables = some after) :
    ∃ rows, tables.blobCopy.update entry = some rows ∧ after = { tables with blobCopy := rows } := by
  obtain ⟨rows, updated, rfl⟩ := Option.map_eq_some_iff.mp applied
  exact ⟨rows, updated, rfl⟩

theorem insert_worker_apply {row : WorkerStateDTO} {tables after : Tables}
    (applied : (Mutation.insertWorker row).apply tables = some after) :
    ∃ rows, tables.workerState.insert row = some rows ∧ after = { tables with workerState := rows } := by
  obtain ⟨rows, inserted, rfl⟩ := Option.map_eq_some_iff.mp applied
  exact ⟨rows, inserted, rfl⟩

theorem update_worker_apply {row : WorkerStateDTO} {tables after : Tables}
    (applied : (Mutation.updateWorker row).apply tables = some after) :
    ∃ rows, tables.workerState.update row = some rows ∧ after = { tables with workerState := rows } := by
  obtain ⟨rows, updated, rfl⟩ := Option.map_eq_some_iff.mp applied
  exact ⟨rows, updated, rfl⟩

theorem update_worker_accepted {tables : Tables} {row old : WorkerStateDTO}
    (found : tables.workerState.find? row.workerAddress = some old) :
    (Mutation.updateWorker row).apply tables ≠ none := by
  intro refused
  have missing := (Table.update_none_iff _ _).mp (Option.map_eq_none_iff.mp refused)
  rw [found] at missing
  cases missing

theorem update_blob_accepted {tables : Tables} {entry old : BlobCopyDTO}
    (found : tables.blobCopy.find? entry.key = some old) :
    (Mutation.updateBlob entry).apply tables ≠ none := by
  intro refused
  have missing := (Table.update_none_iff _ _).mp (Option.map_eq_none_iff.mp refused)
  rw [found] at missing
  cases missing

-- What a query may answer on given tables, whatever order they are scanned in.
def BlobQuery.Answers (query : BlobQuery) (table : BlobTable) (rows : List BlobCopyDTO) : Prop :=
  rows.Perm (table.rows.filter query.selects)

def WorkerQuery.Answers (query : WorkerQuery) (table : WorkerTable) (rows : List WorkerStateDTO) : Prop :=
  ∃ scan : List WorkerStateDTO, scan.Perm table.rows ∧ rows = query.cut (scan.filter query.selects)

theorem answer_by_address (table : WorkerTable) (workerAddress : String) (rows : List WorkerStateDTO)
    (answers : (WorkerQuery.byAddress workerAddress).Answers table rows) :
    rows = (table.find? workerAddress).toList := by
  obtain ⟨scan, perm, rfl⟩ := answers
  have sorted := perm.filter (WorkerQuery.byAddress workerAddress).selects
  have keyed : table.rows.filter (WorkerQuery.byAddress workerAddress).selects =
      (table.find? workerAddress).toList :=
    table.filter_key workerAddress
  rw [keyed] at sorted
  cases found : table.find? workerAddress with
  | none => simpa [found, WorkerQuery.cut] using sorted
  | some row => simpa [found, WorkerQuery.cut] using sorted

theorem answer_by_hash_and_worker (table : BlobTable) (hash workerAddress : String) (rows : List BlobCopyDTO)
    (answers : (BlobQuery.byHashAndWorker hash workerAddress).Answers table rows) :
    rows = (table.find? (hash, workerAddress)).toList := by
  have keyed : table.rows.filter (BlobQuery.byHashAndWorker hash workerAddress).selects =
      (table.find? (hash, workerAddress)).toList := by
    rw [← table.filter_key]
    apply List.filter_congr
    intro entry _
    simp [BlobQuery.selects, BlobCopyDTO.key]
  rw [BlobQuery.Answers, keyed] at answers
  cases found : table.find? (hash, workerAddress) with
  | none => simpa [found] using answers
  | some row => simpa [found] using answers

theorem answer_saved (table : BlobTable) (hash : String) (rows : List BlobCopyDTO)
    (answers : (BlobQuery.savedByHash hash).Answers table rows) (entry : BlobCopyDTO) :
    entry ∈ rows ↔ entry ∈ table.rows ∧ entry.hash = hash ∧ entry.state = .saved := by
  rw [answers.mem_iff, List.mem_filter]
  simp [BlobQuery.selects]

structure Placement (table : WorkerTable) (spaceNeeded : Int) (rows : List WorkerStateDTO) : Prop where
  stored : ∀ row ∈ rows, row ∈ table.rows
  room : ∀ row ∈ rows, spaceNeeded ≤ row.availableSpaceMb - row.lockedSpaceMb
  distinct : (rows.map WorkerStateDTO.workerAddress).Nodup

theorem answer_free_space (table : WorkerTable) (spaceNeeded : Int) (limit : Nat) (rows : List WorkerStateDTO)
    (answers : (WorkerQuery.withFreeSpace spaceNeeded limit).Answers table rows) :
    Placement table spaceNeeded rows ∧
      rows.length = min limit (table.rows.countP (WorkerQuery.withFreeSpace spaceNeeded limit).selects) := by
  obtain ⟨scan, perm, rfl⟩ := answers
  simp only [WorkerQuery.cut]
  have members : ∀ row ∈ (scan.filter (WorkerQuery.withFreeSpace spaceNeeded limit).selects).take limit,
      row ∈ scan ∧ (WorkerQuery.withFreeSpace spaceNeeded limit).selects row = true :=
    fun row member => List.mem_filter.mp (List.mem_of_mem_take member)
  have keyed : (scan.map WorkerStateDTO.workerAddress).Nodup := (perm.map _).nodup_iff.mpr table.keyed
  refine ⟨⟨fun row member => perm.mem_iff.mp (members row member).1, ?_, ?_⟩, ?_⟩
  · intro row member
    simpa [WorkerQuery.selects] using (members row member).2
  · exact keyed.sublist (((List.take_sublist limit _).trans List.filter_sublist).map _)
  · rw [List.length_take, ← List.countP_eq_length_filter, perm.countP_eq]

theorem healthy_commit (mutation : Mutation) (choice : DbChoice)
    (healthy : DbHealthy choice) (tables : Tables) :
    (mutation.apply tables = none ∧
      spannerSem (.commit mutation) choice tables = (.error choice.message, tables)) ∨
      ∃ after, mutation.apply tables = some after ∧
          spannerSem (.commit mutation) choice tables = (.ok (), after) := by
  rw [spannerSem, commitSem, show choice.fault = .none from healthy]
  cases mutation.apply tables with
  | none => exact .inl ⟨rfl, rfl⟩
  | some after => exact .inr ⟨after, rfl, rfl⟩

theorem select_blobs_answers (query : BlobQuery) (choice : DbChoice)
    (healthy : DbHealthy choice) (tables : Tables) :
    ∃ rows, (spannerSem (.selectBlobs query) choice tables).1 = .ok rows ∧
        query.Answers tables.blobCopy rows := by
  refine ⟨_, congrArg Prod.fst (if_pos healthy), ?_⟩
  exact (choice.blobOrder.perm tables.blobCopy.rows).filter query.selects

theorem select_workers_answers (query : WorkerQuery) (choice : DbChoice)
    (healthy : DbHealthy choice) (tables : Tables) :
    ∃ rows, (spannerSem (.selectWorkers query) choice tables).1 = .ok rows ∧
        query.Answers tables.workerState rows := by
  refine ⟨_, congrArg Prod.fst (if_pos healthy), ?_⟩
  exact ⟨_, choice.workerOrder.perm tables.workerState.rows, rfl⟩

theorem db_trouble {ok : DbChoice → Prop} {trouble : Prop} {choice : DbChoice}
    (kind : DbTolerates ok trouble) (allowed : ok choice) (fault : choice.fault ≠ .none) :
    trouble := (kind choice allowed).resolve_left fault

section Rules

variable {τ : Type} {note : (call : SpannerCall) → SpannerReply call → τ → τ}
  {ok : DbChoice → Prop} {trouble : Prop}
  (kind : DbTolerates ok trouble)

include kind

theorem wp_commit (mutation : Mutation) (post : Except Status Unit → Tables × τ → Prop)
    (tables : Tables) (seen : τ)
    (applied : ∀ after, mutation.apply tables = some after →
      post (.ok ()) (after, note (.commit mutation) (.ok ()) seen))
    (refused : mutation.apply tables = none →
      ∀ message, post (.error (toGrpcStatus message))
      (tables, note (.commit mutation) (.error message) seen))
    (failed : trouble → ∀ status after, post (.error status) after) :
    wp (observed note spannerSem) ok (commit mutation).run post (tables, seen) := by
  rw [commit, wp_run_bind, wp_run_perform]
  intro choice allowed
  simp only [observed, spannerSem, commitSem]
  cases fault : choice.fault with
  | none =>
      cases outcome : mutation.apply tables with
      | none => exact refused outcome choice.message
      | some after => exact applied after outcome
  | lost => exact failed (db_trouble kind allowed (by simp [fault])) _ _
  | applied => exact failed (db_trouble kind allowed (by simp [fault])) _ _

theorem wp_select_blobs (query : BlobQuery) (post : Except Status (List BlobCopyDTO) → Tables × τ → Prop)
    (tables : Tables) (seen : τ)
    (answered : ∀ rows, query.Answers tables.blobCopy rows →
      post (.ok rows) (tables, note (.selectBlobs query) (.ok rows) seen))
    (failed : trouble → ∀ status after, post (.error status) after) :
    wp (observed note spannerSem) ok (selectBlobs query).run post (tables, seen) := by
  rw [selectBlobs, wp_run_bind, wp_run_perform]
  intro choice allowed
  by_cases healthy : choice.fault = .none
  · simp only [observed, spannerSem, if_pos healthy]
    exact answered _ ((choice.blobOrder.perm tables.blobCopy.rows).filter query.selects)
  · simp only [observed, spannerSem, if_neg healthy]
    exact failed (db_trouble kind allowed healthy) _ _

theorem wp_select_workers (query : WorkerQuery)
    (post : Except Status (List WorkerStateDTO) → Tables × τ → Prop) (tables : Tables) (seen : τ)
    (answered : ∀ rows, query.Answers tables.workerState rows →
      post (.ok rows) (tables, note (.selectWorkers query) (.ok rows) seen))
    (failed : trouble → ∀ status after, post (.error status) after) :
    wp (observed note spannerSem) ok (selectWorkers query).run post (tables, seen) := by
  rw [selectWorkers, wp_run_bind, wp_run_perform]
  intro choice allowed
  by_cases healthy : choice.fault = .none
  · simp only [observed, spannerSem, if_pos healthy]
    exact answered _ ⟨_, choice.workerOrder.perm tables.workerState.rows, rfl⟩
  · simp only [observed, spannerSem, if_neg healthy]
    exact failed (db_trouble kind allowed healthy) _ _

theorem wp_get_worker_state (workerAddress : String) (post : Except Status WorkerStateDTO → Tables × τ → Prop)
    (tables : Tables) (seen : τ)
    (found : ∀ row, tables.workerState.find? workerAddress = some row →
      post (.ok row) (tables, note (.selectWorkers (.byAddress workerAddress)) (.ok [row]) seen))
    (absent : tables.workerState.find? workerAddress = none → ∀ status,
      post (.error status) (tables, note (.selectWorkers (.byAddress workerAddress)) (.ok []) seen))
    (failed : trouble → ∀ status after, post (.error status) after) :
    wp (observed note spannerSem) ok (getWorkerState workerAddress).run post (tables, seen) := by
  rw [getWorkerState, wp_run_bind]
  refine wp_select_workers kind _ _ _ _ ?_ failed
  intro rows answers
  rw [answer_by_address _ _ _ answers]
  cases present : tables.workerState.find? workerAddress with
  | none => exact absent present _
  | some row => exact found row present

theorem wp_query_blob (hash workerAddress : String)
    (post : Except Status (List BlobCopyDTO) → Tables × τ → Prop) (tables : Tables) (seen : τ)
    (answered : post (.ok (tables.blobCopy.find? (hash, workerAddress)).toList)
      (tables, note (.selectBlobs (.byHashAndWorker hash workerAddress))
        (.ok (tables.blobCopy.find? (hash, workerAddress)).toList) seen))
    (failed : trouble → ∀ status after, post (.error status) after) :
    wp (observed note spannerSem) ok (queryBlobByHashAndWorkerId hash workerAddress).run post
      (tables, seen) := by
  refine wp_select_blobs kind _ _ _ _ ?_ failed
  intro rows answers
  rw [answer_by_hash_and_worker _ _ _ _ answers]
  exact answered

theorem wp_get_workers_with_free_space (spaceNeeded : Int) (numWorkers : Nat)
    (post : Except Status (List WorkerStateDTO) → Tables × τ → Prop) (tables : Tables) (seen : τ)
    (enough : ∀ rows, Placement tables.workerState spaceNeeded rows → rows.length = numWorkers →
      post (.ok rows) (tables, note (.selectWorkers (.withFreeSpace spaceNeeded numWorkers))
        (.ok rows) seen))
    (short : ∀ rows : List WorkerStateDTO,
      tables.workerState.rows.countP (WorkerQuery.withFreeSpace spaceNeeded numWorkers).selects <
      numWorkers → ∀ status, post (.error status)
      (tables, note (.selectWorkers (.withFreeSpace spaceNeeded numWorkers)) (.ok rows) seen))
    (failed : trouble → ∀ status after, post (.error status) after) :
    wp (observed note spannerSem) ok (getWorkersWithFreeSpace spaceNeeded numWorkers).run post
      (tables, seen) := by
  rw [getWorkersWithFreeSpace, wp_run_bind]
  refine wp_select_workers kind _ _ _ _ ?_ failed
  intro rows answers
  obtain ⟨placement, count⟩ := answer_free_space _ _ _ _ answers
  dsimp only
  split
  · rename_i few
    exact short rows (by omega) _
  · rename_i many
    exact enough rows placement (by omega)

end Rules

theorem wp_on_db_where (ok : DbChoice → Prop) {τ α : Type}
    {note : (call : MasterCall) → MasterReply call → τ → τ} (program : DbM α)
    (post : Except Status α → Tables × τ → Prop) (state : Tables × τ)
    (holds : wp (observed (fun call reply => note (.spanner call) reply) spannerSem) ok
      program.run post state) :
    wp (observed note masterSem) (fun choice => ok choice.db) (onDb program).run post state := by
  refine wp_inline_part ok _ id (fun _ part => part) ?_ ?_ ?_ ?_ program.run post state holds
  · exact fun _ _ => rfl
  · exact fun _ _ _ => rfl
  · exact fun _ => rfl
  · intro call after whole each choice allowed
    exact each choice.db allowed

theorem wp_on_db {τ α : Type} {note : (call : MasterCall) → MasterReply call → τ → τ}
    (program : DbM α) (post : Except Status α → Tables × τ → Prop) (state : Tables × τ)
    (holds : wp (observed (fun call reply => note (.spanner call) reply) spannerSem)
      DbHealthy program.run post state) :
    wp (observed note masterSem) MasterHealthy (onDb program).run post state :=
  wp_on_db_where DbHealthy program post state holds

theorem wp_request_workers_to_delete {τ : Type}
    {note : (call : MasterCall) → MasterReply call → τ → τ} (copies : List BlobCopyDTO)
    (quiet : ∀ blobHash address reply seen, note (.deleteAtWorker blobHash address) reply seen =
      seen) (post : Except Status Unit → Tables × τ → Prop) (state : Tables × τ)
      (holds : post (.ok ()) state) :
    wp (observed note masterSem) MasterHealthy
      (MasterService.requestWorkersToDeleteBlob copies).run post state := by
  induction copies with
  | nil => exact holds
  | cons copy rest ih =>
      rw [MasterService.requestWorkersToDeleteBlob, MasterService.requestWorkerToDeleteBlob,
        wp_run_bind, wp_run_bind, wp_run_perform]
      intro choice healthy
      simpa only [observed, masterSem, quiet, wp_run_pure] using ih

end BlobStore
