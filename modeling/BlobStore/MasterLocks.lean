import BlobStore.MasterBooks

set_option autoImplicit false

namespace BlobStore

open Effects MasterDbRepository MasterService

theorem master_step_holds (post : Except Status MasterResponse → Tables → Prop)
    (turn : MasterOp × List MasterChoice) (tables : Tables)
    (healthy : ∀ choice ∈ turn.2, MasterHealthy choice)
    (holds : wp (observed (fun _ _ (seen : Unit) => seen) masterSem) MasterHealthy
      turn.1.program.run (fun outcome after => post outcome after.1) (tables, ())) :
    post (masterStep turn tables).1 (masterStep turn tables).2 :=
  wp_sound MasterHealthy turn.1.program.run post turn.2 tables rfl healthy
    ((wp_observed_iff turn.1.program.run post tables ()).mp holds)

def Referential (tables : Tables) : Prop :=
  ∀ entry ∈ tables.blobCopy.rows, ∃ row, tables.workerState.find? entry.workerAddress = some row

theorem registered_after_update {table after : WorkerTable} {row : WorkerStateDTO}
    (updated : table.update row = some after) (address : String)
    (registered : ∃ old, table.find? address = some old) : ∃ new, after.find? address = some new := by
  rw [Table.find_update updated]
  split
  · exact ⟨row, rfl⟩
  · exact registered

theorem referential_reserve {tables : Tables} {entry : BlobCopyDTO} {row old : WorkerStateDTO}
    {copies : BlobTable} {rows : WorkerTable} (referential : Referential tables)
    (inserted : tables.blobCopy.insert entry = some copies)
    (current : tables.workerState.find? entry.workerAddress = some old)
    (updated : tables.workerState.update row = some rows) : Referential ⟨copies, rows⟩ := by
  intro other member
  apply registered_after_update updated
  rcases (Table.mem_insert inserted other).mp member with rfl | before
  · exact ⟨old, current⟩
  · exact referential other before

theorem referential_delete {tables : Tables} (referential : Referential tables)
    (doomed : BlobCopyDTO → Bool) :
    Referential { tables with blobCopy := tables.blobCopy.delete doomed } :=
  fun entry member => referential entry ((tables.blobCopy.mem_delete doomed entry).mp member).1

theorem referential_mark {tables : Tables} {entry old : BlobCopyDTO} {copies : BlobTable}
    (referential : Referential tables) (found : tables.blobCopy.find? entry.key = some old)
    (updated : tables.blobCopy.update entry = some copies) :
    Referential { tables with blobCopy := copies } := by
  intro other member
  have located := (Table.find_update updated other.key).symm.trans (copies.find_self other member)
  split at located
  · obtain rfl := Option.some.inj located
    obtain ⟨stored, key⟩ := (tables.blobCopy.find_some_iff _ _).mp found
    have sameWorker : old.workerAddress = entry.workerAddress := congrArg Prod.snd key
    exact sameWorker ▸ referential old stored
  · exact referential other ((tables.blobCopy.find_some_iff _ _).mp located).1

def creating (address : String) (entry : BlobCopyDTO) : Int :=
  if entry.workerAddress = address ∧ entry.state = .duringCreation then entry.sizeMb else 0

def creationSum (table : BlobTable) (address : String) : Int := table.total (creating address)

def LocksMatch (tables : Tables) : Prop :=
  ∀ address row, tables.workerState.find? address = some row →
    row.lockedSpaceMb = creationSum tables.blobCopy address

def ReleasesOnce (op : MasterOp) (tables : Tables) : Prop :=
  match op with
  | .notifyBlobSaved request =>
      ∀ entry, tables.blobCopy.find? (request.blobHash, request.workerAddress) = some entry →
      entry.state = .saved → entry.sizeMb = 0
  | .deleteBlob blobHash => ∀ entry ∈ tables.blobCopy.rows, entry.hash = blobHash →
      entry.state = .duringCreation → entry.sizeMb = 0
  | _ => True

instance (op : MasterOp) (tables : Tables) : Decidable (ReleasesOnce op tables) :=
  match op with
  | .notifyBlobSaved request =>
      decidable_of_iff (∀ entry ∈ tables.blobCopy.find? (request.blobHash, request.workerAddress),
        entry.state = .saved → entry.sizeMb = 0) .rfl
  | .deleteBlob blobHash =>
      inferInstanceAs (Decidable (∀ entry ∈ tables.blobCopy.rows, entry.hash = blobHash →
        entry.state = .duringCreation → entry.sizeMb = 0))
  | .registerWorker _ => isTrue trivial
  | .getWorkersToSaveBlob _ => isTrue trivial
  | .getWorkerWithBlob _ => isTrue trivial

theorem reserved_match {tables : Tables} {blobHash : String} {size : Int} {worker : WorkerStateDTO}
    {copies : BlobTable} {rows : WorkerTable} (locks : LocksMatch tables)
    (inserted : tables.blobCopy.insert ⟨blobHash, worker.workerAddress, .duringCreation, size⟩ =
      some copies) (present : tables.workerState.find? worker.workerAddress = some worker)
      (updated : tables.workerState.update
        { worker with lockedSpaceMb := size + worker.lockedSpaceMb } = some rows) :
    LocksMatch ⟨copies, rows⟩ := by
  intro address row found
  rw [creationSum, Table.total_insert inserted]
  rw [Table.find_update updated] at found
  split at found
  · rename_i same
    obtain rfl := Option.some.inj found
    obtain rfl : worker.workerAddress = address := same
    have before := locks _ worker present
    simp only [creationSum] at before
    simp [creating, before]
  · rename_i different
    have elsewhere : worker.workerAddress ≠ address := different
    simpa [creating, elsewhere, creationSum] using locks address row found

theorem find_registered {table rows : WorkerTable} {row : WorkerStateDTO}
    (inserted : (table.delete (fun old => old.workerAddress = row.workerAddress)).insert row =
      some rows) (address : String) (different : address ≠ row.workerAddress) :
    rows.find? address = table.find? address := by
  rw [Table.find_insert inserted, if_neg (fun equal => different equal.symm), Table.find_delete]
  cases found : table.find? address with
  | none => rfl
  | some other =>
      have key := ((table.find_some_iff _ _).mp found).2
      simp [Option.filter, key, different]

theorem creation_sum_forgotten (table : BlobTable) (worker address : String) :
    creationSum (table.delete (fun entry => entry.workerAddress = worker)) address =
      if address = worker then 0 else creationSum table address := by
  rw [creationSum, Table.total_delete]
  split
  · rename_i same
    apply Table.total_zero
    intro entry _
    by_cases there : entry.workerAddress = worker <;> simp [creating, there, same]
  · rename_i different
    apply Table.total_congr
    intro entry _
    by_cases there : entry.workerAddress = worker
    · simp [creating, there, Ne.symm different]
    · simp [there]

theorem registered_match {tables : Tables} {row : WorkerStateDTO} {rows : WorkerTable}
    (unlocked : row.lockedSpaceMb = 0)
    (inserted : (tables.workerState.delete
      (fun old => old.workerAddress = row.workerAddress)).insert row = some rows)
    (locks : LocksMatch tables) :
    LocksMatch
      ⟨tables.blobCopy.delete (fun entry => entry.workerAddress = row.workerAddress), rows⟩ := by
  intro address other found
  rw [creation_sum_forgotten]
  split
  · rename_i same
    rw [Table.find_insert inserted, if_pos same.symm] at found
    exact Option.some.inj found ▸ unlocked
  · rename_i different
    rw [find_registered inserted address different] at found
    exact locks address other found

theorem referential_register {tables : Tables} {row : WorkerStateDTO} {rows : WorkerTable}
    (inserted : (tables.workerState.delete
      (fun old => old.workerAddress = row.workerAddress)).insert row = some rows)
    (referential : Referential tables) :
    Referential ⟨tables.blobCopy.delete (fun entry => entry.workerAddress = row.workerAddress), rows⟩ := by
  intro entry member
  obtain ⟨stored, elsewhere⟩ := (Table.mem_delete _ _ _).mp member
  rw [find_registered inserted _ (by simpa using elsewhere)]
  exact referential entry stored

theorem saved_match_iff {tables : Tables} {blob : BlobCopyDTO} {worker : WorkerStateDTO}
    {copies : BlobTable} {rows : WorkerTable}
    (locks : LocksMatch tables) (stored : blob ∈ tables.blobCopy.rows)
    (marked : tables.blobCopy.update { blob with state := .saved } = some copies)
    (present : tables.workerState.find? blob.workerAddress = some worker)
    (updated : tables.workerState.update { worker with
      lockedSpaceMb := worker.lockedSpaceMb - blob.sizeMb
      availableSpaceMb := worker.availableSpaceMb - blob.sizeMb } = some rows) :
    LocksMatch ⟨copies, rows⟩ ↔ (blob.state = .saved → blob.sizeMb = 0) := by
  have here : worker.workerAddress = blob.workerAddress :=
    ((tables.workerState.find_some_iff _ _).mp present).2
  have before := locks _ worker present
  have sums : ∀ address, creationSum copies address =
      creationSum tables.blobCopy address - creating address blob := by
    intro address
    have found : tables.blobCopy.find? (BlobCopyDTO.key { blob with state := .saved }) = some blob :=
      tables.blobCopy.find_self blob stored
    rw [creationSum, Table.total_update marked found, creationSum]
    simp [creating]
  constructor
  · intro after saved
    have now := after blob.workerAddress _ (by rw [Table.find_update updated]; exact if_pos here)
    rw [sums, before.symm] at now
    simp [creating, saved] at now
    exact now
  · intro once address row found
    rw [Table.find_update updated] at found
    rw [sums]
    split at found
    · rename_i same
      obtain rfl := Option.some.inj found
      obtain rfl : worker.workerAddress = address := same
      rw [here, ← before]
      cases state : blob.state with
      | duringCreation => simp [creating, state]
      | saved => simp [creating, state, once state]
    · rename_i different
      have elsewhere : blob.workerAddress ≠ address := here ▸ different
      simpa [creating, elsewhere] using locks address row found

section Steps

variable {τ : Type} {note : (call : SpannerCall) → SpannerReply call → τ → τ}

theorem reserve_locks (blobHash : String) (size : Int) (workers : List WorkerStateDTO)
    (tables : Tables) (seen : τ) (referential : Referential tables) (locks : LocksMatch tables)
    (distinct : (workers.map WorkerStateDTO.workerAddress).Nodup)
    (current : ∀ row ∈ workers, tables.workerState.find? row.workerAddress = some row) :
    wp (observed note spannerSem) DbHealthy (reserveWorkers blobHash size workers).run
      (fun _ after => Referential after.1 ∧ LocksMatch after.1) (tables, seen) := by
  induction workers generalizing tables seen with
  | nil => exact ⟨referential, locks⟩
  | cons worker rest ih =>
      obtain ⟨fresh, distinctRest⟩ := List.nodup_cons.mp distinct
      have present := current worker (by simp)
      rw [reserveWorkers, wp_run_bind]
      refine wp_commit db_healthy _ _ _ _ ?_ ?_ False.elim
      · intro after applied
        obtain ⟨copies, inserted, rfl⟩ := insert_blob_apply applied
        dsimp only
        rw [wp_run_bind]
        refine wp_commit db_healthy _ _ _ _ ?_ ?_ False.elim
        · intro after applied
          obtain ⟨rows, updated, rfl⟩ := update_worker_apply applied
          refine wp_run_map _ _ _ _
            (ih _ _ (referential_reserve referential inserted present updated) ?_ distinctRest ?_)
          · exact reserved_match locks inserted present updated
          · intro row member
            have different : worker.workerAddress ≠ row.workerAddress :=
              fun equal => fresh (List.mem_map.mpr ⟨row, member, equal.symm⟩)
            rw [Table.find_update updated]
            simpa only [different, if_false] using current row (by simp [member])
        · exact fun refused => absurd refused (update_worker_accepted present)
      · exact fun _ _ => ⟨referential, locks⟩

theorem place_locks (request : GetWorkersToSaveBlobRequest) (tables : Tables) (seen : τ)
    (referential : Referential tables) (locks : LocksMatch tables) :
    wp (observed note spannerSem) DbHealthy (MasterService.getWorkersToSaveBlob request).run
      (fun _ after => Referential after.1 ∧ LocksMatch after.1) (tables, seen) := by
  rw [MasterService.getWorkersToSaveBlob, wp_run_bind]
  refine wp_get_workers_with_free_space db_healthy _ _ _ _ _ ?_ ?_ False.elim
  · intro workers placement _
    apply reserve_locks _ _ _ _ _ referential locks placement.distinct
    exact fun row member => tables.workerState.find_self row (placement.stored row member)
  · exact fun _ _ _ => ⟨referential, locks⟩

theorem register_locks (request : RegisterWorkerRequest) (tables : Tables) (seen : τ)
    (referential : Referential tables) (locks : LocksMatch tables) :
    wp (observed note spannerSem) DbHealthy (MasterService.registerWorker request).run
      (fun _ after => Referential after.1 ∧ LocksMatch after.1) (tables, seen) := by
  rw [MasterService.registerWorker, wp_run_bind]
  refine wp_commit db_healthy _ _ _ _ ?_ ?_ False.elim
  · rintro _ ⟨⟩
    dsimp only
    rw [wp_run_bind]
    refine wp_commit db_healthy _ _ _ _ ?_ ?_ False.elim
    · rintro _ ⟨⟩
      refine wp_commit db_healthy _ _ _ _ ?_ ?_ False.elim
      · intro after applied
        obtain ⟨rows, inserted, rfl⟩ := insert_worker_apply applied
        exact ⟨referential_register inserted referential, registered_match rfl inserted locks⟩
      · intro refused
        exact absurd ((Table.insert_none_iff _ _).mp (Option.map_eq_none_iff.mp refused)) (by
          rw [Table.find_delete]
          cases found : tables.workerState.find? request.address with
          | none => simp
          | some row => simp [((tables.workerState.find_some_iff _ _).mp found).2])
    · rintro ⟨⟩
  · rintro ⟨⟩

-- From a state whose locks match, a notification keeps them matching exactly when
-- the copy was being created, or has no size.
theorem notify_locks (request : NotifyBlobSavedRequest) (tables : Tables) (seen : τ)
    (referential : Referential tables) (locks : LocksMatch tables) :
    wp (observed note spannerSem) DbHealthy (MasterService.notifyBlobSaved request).run
      (fun _ after => Referential after.1 ∧
        (LocksMatch after.1 ↔ ReleasesOnce (.notifyBlobSaved request) tables))
      (tables, seen) := by
  rw [MasterService.notifyBlobSaved, wp_run_bind]
  refine wp_query_blob db_healthy _ _ _ _ _ ?_ False.elim
  cases copy : tables.blobCopy.find? (request.blobHash, request.workerAddress) with
  | none => exact ⟨referential, by simp [ReleasesOnce, copy, locks]⟩
  | some blob =>
      obtain ⟨stored, key⟩ := (tables.blobCopy.find_some_iff _ _).mp copy
      have onWorker : blob.workerAddress = request.workerAddress := congrArg Prod.snd key
      obtain ⟨worker, present⟩ := referential blob stored
      rw [onWorker] at present
      dsimp only [Option.toList_some]
      rw [wp_run_bind]
      refine wp_commit db_healthy _ _ _ _ ?_ ?_ False.elim
      · intro marked applied
        obtain ⟨copies, marked, rfl⟩ := update_blob_apply applied
        dsimp only
        rw [wp_run_bind]
        refine wp_get_worker_state db_healthy _ _ _ _ ?_ ?_ False.elim
        · intro row again
          obtain rfl : worker = row := Option.some.inj (present.symm.trans again)
          refine wp_commit db_healthy _ _ _ _ ?_ ?_ False.elim
          · intro after applied
            obtain ⟨rows, updated, rfl⟩ := update_worker_apply applied
            constructor
            · have found : tables.blobCopy.find?
                  (BlobCopyDTO.key { blob with state := .saved }) = some blob :=
                tables.blobCopy.find_self blob stored
              intro entry member
              exact registered_after_update updated _ (referential_mark referential found marked entry member)
            · rw [saved_match_iff locks stored marked (onWorker ▸ present) updated]
              simp [ReleasesOnce, copy]
          · have workerKey := ((tables.workerState.find_some_iff _ _).mp present).2
            exact fun refused => absurd refused (update_worker_accepted (workerKey ▸ present))
        · intro absent
          rw [show tables.workerState.find? _ = _ from present] at absent
          cases absent
      · exact fun refused => absurd refused (update_blob_accepted (tables.blobCopy.find_self blob stored))

end Steps

theorem creation_sum_delete (table : BlobTable) (blobHash address : String) :
    creationSum table address =
      creationSum (table.delete (fun entry => entry.hash = blobHash)) address +
        ((table.find? (blobHash, address)).map (creating address)).getD 0 := by
  rw [creationSum, creationSum, Table.total_delete, ← Table.total_at_key, ← Table.total_add]
  apply Table.total_congr
  intro entry _
  by_cases hash : entry.hash = blobHash <;> by_cases there : entry.workerAddress = address <;>
    simp [hash, there, creating, BlobCopyDTO.key]

theorem delete_locks (blobHash : String) (tables : Tables) (referential : Referential tables)
    (locks : LocksMatch tables) :
    LocksMatch { tables with blobCopy := tables.blobCopy.delete (fun entry => entry.hash = blobHash) } ↔
      ReleasesOnce (.deleteBlob blobHash) tables := by
  constructor
  · intro after entry member hash state
    obtain ⟨row, present⟩ := referential entry member
    have found : tables.blobCopy.find? (blobHash, entry.workerAddress) = some entry :=
      hash ▸ tables.blobCopy.find_self entry member
    have split := creation_sum_delete tables.blobCopy blobHash entry.workerAddress
    rw [← locks _ row present, after _ row present, found] at split
    simpa [creating, state] using split
  · intro once address row present
    have split := creation_sum_delete tables.blobCopy blobHash address
    have nothing : ((tables.blobCopy.find? (blobHash, address)).map (creating address)).getD 0 = 0 := by
      cases found : tables.blobCopy.find? (blobHash, address) with
      | none => rfl
      | some entry =>
          obtain ⟨member, key⟩ := (tables.blobCopy.find_some_iff _ _).mp found
          cases state : entry.state with
          | saved => simp [creating, state]
          | duringCreation => simp [creating, once entry member (congrArg Prod.fst key) state]
    rw [nothing, Int.add_zero] at split
    exact (locks address row present).trans split

theorem step_locks (turn : MasterOp × List MasterChoice) (tables : Tables)
    (healthy : ∀ choice ∈ turn.2, MasterHealthy choice) (referential : Referential tables)
    (locks : LocksMatch tables) :
    Referential (masterStep turn tables).2 ∧
      (LocksMatch (masterStep turn tables).2 ↔ ReleasesOnce turn.1 tables) := by
  obtain ⟨op, choices⟩ := turn
  apply master_step_holds (fun _ after => Referential after ∧
    (LocksMatch after ↔ ReleasesOnce op tables)) _ _ healthy
  have always : ∀ after : Tables × Unit, ReleasesOnce op tables → Referential after.1 ∧ LocksMatch after.1 →
      Referential after.1 ∧ (LocksMatch after.1 ↔ ReleasesOnce op tables) :=
    fun _ released kept => ⟨kept.1, iff_of_true kept.2 released⟩
  cases op with
  | registerWorker request =>
      exact wp_run_map _ _ _ _ (wp_on_db _ _ _ (wp_mono _ _ _ _ (fun _ after => always after trivial)
        (register_locks request tables () referential locks)))
  | getWorkersToSaveBlob request =>
      exact wp_run_map _ _ _ _ (wp_on_db _ _ _ (wp_mono _ _ _ _ (fun _ after => always after trivial)
        (place_locks request tables () referential locks)))
  | getWorkerWithBlob blobHash =>
      refine wp_run_map _ _ _ _ (wp_on_db _ _ _ ?_)
      rw [MasterService.getWorkerWithBlob, wp_run_bind]
      refine wp_select_blobs db_healthy _ _ _ _ ?_ False.elim
      have kept : Referential tables ∧ (LocksMatch tables ↔ True) := ⟨referential, iff_true_intro locks⟩
      rintro (- | ⟨copy, rest⟩) _
      · exact kept
      · exact wp_run_map _ _ _ _
          (wp_get_worker_state db_healthy _ _ _ _ (fun _ _ => kept) (fun _ _ => kept) False.elim)
  | notifyBlobSaved request =>
      exact wp_run_map _ _ _ _ (wp_on_db _ _ _ (notify_locks request tables () referential locks))
  | deleteBlob blobHash =>
      apply wp_run_map
      rw [MasterService.deleteBlob, wp_run_bind]
      refine wp_on_db _ _ _ ?_
      refine wp_select_blobs db_healthy _ _ _ _ ?_ False.elim
      intro rows _
      dsimp only
      rw [wp_run_bind]
      refine wp_request_workers_to_delete _ (fun _ _ _ _ => rfl) _ _ ?_
      refine wp_on_db _ _ _ ?_
      refine wp_commit db_healthy _ _ _ _ ?_ ?_ False.elim
      · rintro _ ⟨⟩
        exact ⟨referential_delete referential _, delete_locks blobHash tables referential locks⟩
      · rintro ⟨⟩

-- The first call that leaves a lock behind, or releases one twice, ends the match.
theorem locks_match_iff_released_once (turns : List (MasterOp × List MasterChoice))
    (healthy : ∀ turn ∈ turns, ∀ choice ∈ turn.2, MasterHealthy choice) :
    (∀ taken ∈ transitions masterStep Tables.empty turns, LocksMatch taken.after) ↔
      ∀ taken ∈ transitions masterStep Tables.empty turns, ReleasesOnce taken.op.1 taken.before := by
  refine transitions_iff masterStep Referential LocksMatch
    (fun turn => ∀ choice ∈ turn.2, MasterHealthy choice)
    (fun turn tables => ReleasesOnce turn.1 tables) ?_ Tables.empty turns ?_ ?_ healthy
  · exact fun tables turn referential locks good => step_locks turn tables good referential locks
  · exact fun _ member => by cases member
  · exact fun _ _ found => by cases found

def savedAndDeleted : List (MasterOp × List MasterChoice) :=
  threeWorkers 5 ++ [(.getWorkersToSaveBlob ⟨"7", 3⟩, []), (.notifyBlobSaved ⟨"worker-1", "7"⟩, []),
    (.notifyBlobSaved ⟨"worker-0", "7"⟩, []), (.notifyBlobSaved ⟨"worker-2", "7"⟩, []), (.deleteBlob "7", [])]

theorem locks_match_iff_released_once_run :
    (∀ taken ∈ transitions masterStep Tables.empty savedAndDeleted, ReleasesOnce taken.op.1 taken.before) ∧
      ∀ taken ∈ transitions masterStep Tables.empty savedAndDeleted, LocksMatch taken.after := by
  have once : ∀ taken ∈ transitions masterStep Tables.empty savedAndDeleted,
      ReleasesOnce taken.op.1 taken.before := by
    decide +kernel
  have reported := locks_match_iff_released_once savedAndDeleted (by simp [savedAndDeleted, threeWorkers])
  exact ⟨once, reported.mpr once⟩

-- Deleting a blob that is still being created keeps its size locked.
theorem lock_survives_deletion :
    ¬ ∀ taken ∈ transitions masterStep Tables.empty
        (threeWorkers 1 ++ [(.getWorkersToSaveBlob ⟨"7", 1⟩, [])] ++ [(.deleteBlob "7", [])]),
          LocksMatch taken.after := by
  intro always
  have locked := always _ (last_transition masterStep _ _ _) "worker-0" ⟨"worker-0", 1, 1, 0⟩ (by decide)
  revert locked
  decide

end BlobStore
