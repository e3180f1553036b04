import BlobStore.ClusterRules

set_option autoImplicit false

namespace BlobStore

open Effects MasterDbRepository MasterService

def Copy (state : BlobState) (tables : Tables) (key : String × String) : Prop :=
  ∃ entry, tables.blobCopy.find? key = some entry ∧ entry.state = state

def Registered (tables : Tables) (address : String) : Prop := tables.workerState.find? address ≠ none

-- What a reservation for a blob does, whether it ends well or stops half way.
structure Reserves (blobHash : String) (before after : Tables) : Prop where
  workers : ∀ address, Registered after address ↔ Registered before address
  copies : ∀ key, after.blobCopy.find? key = before.blobCopy.find? key ∨
    before.blobCopy.find? key = none ∧ key.1 = blobHash ∧ Registered before key.2 ∧
      Copy .duringCreation after key

theorem reserves_refl (blobHash : String) (tables : Tables) : Reserves blobHash tables tables :=
  ⟨fun _ => Iff.rfl, fun _ => .inl rfl⟩

theorem reserves_trans {blobHash : String} {before middle after : Tables}
    (first : Reserves blobHash before middle) (second : Reserves blobHash middle after) :
    Reserves blobHash before after := by
  refine ⟨fun address => (second.workers address).trans (first.workers address), ?_⟩
  intro key
  cases second.copies key with
  | inl kept =>
      cases first.copies key with
      | inl same => exact .inl (kept.trans same)
      | inr fresh =>
          obtain ⟨absent, hash, registered, entry, there, state⟩ := fresh
          exact .inr ⟨absent, hash, registered, entry, kept.trans there, state⟩
  | inr fresh =>
      obtain ⟨absent, hash, registered, copy⟩ := fresh
      cases first.copies key with
      | inl same => exact .inr ⟨same ▸ absent, hash, (first.workers _).mp registered, copy⟩
      | inr earlier =>
          obtain ⟨-, -, -, entry, there, -⟩ := earlier
          rw [absent] at there
          cases there

theorem copy_reserved {blobHash : String} {before after : Tables} (reserves : Reserves blobHash before after)
    {state : BlobState} {key : String × String} (copy : Copy state before key) : Copy state after key := by
  obtain ⟨entry, there, is⟩ := copy
  cases reserves.copies key with
  | inl kept => exact ⟨entry, kept.trans there, is⟩
  | inr fresh =>
      rw [fresh.1] at there
      cases there

theorem registered_update {tables : Tables} {rows : WorkerTable} {row : WorkerStateDTO} {copies : BlobTable}
    (updated : tables.workerState.update row = some rows) (address : String) :
    Registered ⟨copies, rows⟩ address ↔ Registered tables address := by
  rw [Registered, Registered, Table.find_update updated]
  by_cases same : row.workerAddress = address
  · have present : tables.workerState.find? row.workerAddress ≠ none := by
      intro absent
      rw [(tables.workerState.update_none_iff row).mpr absent] at updated
      cases updated
    rw [if_pos same, ← same]
    exact iff_of_true (Option.some_ne_none row) present
  · rw [if_neg same]

theorem reserves_one (blobHash : String) (size : Int) (worker locked : WorkerStateDTO)
    (tables : Tables) (copies : BlobTable) (rows : WorkerTable)
    (registered : Registered tables worker.workerAddress)
    (inserted : tables.blobCopy.insert ⟨blobHash, worker.workerAddress, .duringCreation, size⟩ =
      some copies) (updated : tables.workerState.update locked = some rows) :
    Reserves blobHash tables ⟨copies, rows⟩ := by
  refine ⟨registered_update updated, ?_⟩
  intro key
  rw [Table.find_insert inserted]
  by_cases same : BlobCopyDTO.key ⟨blobHash, worker.workerAddress, .duringCreation, size⟩ = key
  · subst same
    refine .inr ⟨((tables.blobCopy.insert_some_iff _ _).mp inserted).1, rfl, registered,
      ⟨blobHash, worker.workerAddress, .duringCreation, size⟩, ?_, rfl⟩
    exact (Table.find_insert inserted _).trans (if_pos rfl)
  · exact .inl (if_neg same)

structure Notified (request : NotifyBlobSavedRequest) (before after : Tables) : Prop where
  saved : Copy .saved after (request.blobHash, request.workerAddress)
  registered : Registered after request.workerAddress
  workers : ∀ address, Registered after address ↔ Registered before address
  others : ∀ key, key ≠ (request.blobHash, request.workerAddress) →
    after.blobCopy.find? key = before.blobCopy.find? key

-- A reservation that stops has met a row of the blob on one of the workers.
def ReserveAnswer (trouble : Prop) (blobHash : String) (workers : List WorkerStateDTO) (before : Tables)
    (outcome : Except Status (List String)) (after : Tables) : Prop :=
  match outcome with
  | .ok addresses => Reserves blobHash before after ∧ addresses = workers.map WorkerStateDTO.workerAddress ∧
      ∀ address ∈ addresses, Copy .duringCreation after (blobHash, address)
  | .error _ => trouble ∨ Reserves blobHash before after ∧
      ∃ worker ∈ workers, before.blobCopy.find? (blobHash, worker.workerAddress) ≠ none

structure Named (blobHash : String) (size : Int) (before after : Tables)
    (addresses : List String) : Prop where
  reserves : Reserves blobHash before after
  three : addresses.length = 3
  distinct : addresses.Nodup
  created : ∀ address ∈ addresses, Copy .duringCreation after (blobHash, address)
  room : ∀ address ∈ addresses, ∃ row, before.workerState.find? address = some row ∧
    size ≤ row.availableSpaceMb - row.lockedSpaceMb

-- Why a blob cannot be placed: fewer than three workers have room, or one that
-- has room has a row of the blob already.
def Unplaceable (blobHash : String) (size : Int) (tables : Tables) : Prop :=
  tables.workerState.rows.countP (WorkerQuery.withFreeSpace size 3).selects < 3 ∨
    ∃ worker ∈ tables.workerState.rows, size ≤ worker.availableSpaceMb - worker.lockedSpaceMb ∧
      tables.blobCopy.find? (blobHash, worker.workerAddress) ≠ none

def PlaceAnswer (trouble : Prop) (blobHash : String) (size : Int) (before : Tables)
    (outcome : Except Status (List String)) (after : Tables) : Prop :=
  match outcome with
  | .ok addresses => Named blobHash size before after addresses
  | .error _ => trouble ∨ Reserves blobHash before after ∧ Unplaceable blobHash size before

def LookupAnswer (trouble : Prop) (blobHash : String) (before : Tables)
    (outcome : Except Status String) (after : Tables) : Prop :=
  match outcome with
  | .ok address => after = before ∧ Copy .saved before (blobHash, address)
  | .error _ => trouble ∨ after = before ∧ ((∀ address, ¬ Copy .saved before (blobHash, address)) ∨
      ∃ address, Copy .saved before (blobHash, address) ∧ ¬ Registered before address)

def NotifyAnswer (trouble : Prop) (request : NotifyBlobSavedRequest) (before : Tables)
    (outcome : Except Status Unit) (after : Tables) : Prop :=
  match outcome with
  | .ok _ => Notified request before after
  | .error _ => trouble ∨ before.blobCopy.find? (request.blobHash, request.workerAddress) = none ∨
      ¬ Registered before request.workerAddress

section Rules

variable {ok : DbChoice → Prop} {trouble : Prop} (kind : DbTolerates ok trouble)

include kind

theorem wp_reserve_workers (blobHash : String) (size : Int) (workers : List WorkerStateDTO) (tables : Tables)
    (distinct : (workers.map WorkerStateDTO.workerAddress).Nodup)
    (registered : ∀ worker ∈ workers, Registered tables worker.workerAddress) :
    wpDb ok (reserveWorkers blobHash size workers)
      (ReserveAnswer trouble blobHash workers tables) tables := by
  induction workers generalizing tables with
  | nil => exact ⟨reserves_refl blobHash tables, rfl, fun _ member => by cases member⟩
  | cons worker rest ih =>
      have here := registered worker (by simp)
      obtain ⟨unlike, distinctRest⟩ := List.nodup_cons.mp distinct
      rw [wpDb, reserveWorkers, wp_run_bind]
      refine wp_commit kind _ _ _ _ ?_ ?_ (fun troubled _ _ => .inl troubled)
      · intro _ applied
        obtain ⟨copies, inserted, rfl⟩ := insert_blob_apply applied
        dsimp only
        rw [wp_run_bind]
        refine wp_commit kind _ _ _ _ ?_ ?_ (fun troubled _ _ => .inl troubled)
        · intro _ applied
          obtain ⟨rows, updated, rfl⟩ := update_worker_apply applied
          have one := reserves_one blobHash size worker _ tables copies rows here inserted updated
          have fresh : Copy .duringCreation ⟨copies, rows⟩ (blobHash, worker.workerAddress) :=
            ⟨_, (Table.find_insert inserted _).trans (if_pos rfl), rfl⟩
          dsimp only
          rw [wp_run_bind]
          refine wp_mono _ _ _ _ ?_
            (ih ⟨copies, rows⟩ distinctRest
              (fun other member => (one.workers _).mpr (registered other (by simp [member]))))
          intro outcome after later
          cases outcome with
          | error status =>
              refine later.imp_right ?_
              intro stopped
              obtain ⟨reserves, other, inRest, taken⟩ := stopped
              refine ⟨reserves_trans one reserves, other, List.mem_cons_of_mem worker inRest, ?_⟩
              have different : worker.workerAddress ≠ other.workerAddress :=
                fun same => unlike (List.mem_map.mpr ⟨other, inRest, same.symm⟩)
              have earlier := (Table.find_insert inserted (blobHash, other.workerAddress)).trans
                (if_neg (fun same => different (congrArg Prod.snd same)))
              exact earlier ▸ taken
          | ok others =>
              obtain ⟨reserves, addresses, created⟩ := later
              refine ⟨reserves_trans one reserves, by rw [addresses, List.map_cons], ?_⟩
              intro address member
              cases List.mem_cons.mp member with
              | inl first => exact first ▸ copy_reserved reserves fresh
              | inr other => exact created address other
        · intro refused
          obtain ⟨old, present⟩ := Option.ne_none_iff_exists'.mp here
          exact absurd refused (update_worker_accepted present)
      · intro refused message
        have taken := (Table.insert_none_iff _ _).mp (Option.map_eq_none_iff.mp refused)
        exact .inr ⟨reserves_refl blobHash tables, worker, by simp, taken⟩

theorem wp_get_workers_to_save_blob (request : GetWorkersToSaveBlobRequest) (tables : Tables) :
    wpDb ok (MasterService.getWorkersToSaveBlob request)
      (PlaceAnswer trouble request.blobHash (toInt64 request.sizeMb) tables) tables := by
  rw [wpDb, MasterService.getWorkersToSaveBlob, wp_run_bind]
  refine wp_get_workers_with_free_space kind _ _ _ _ _ ?_ ?_ (fun troubled _ _ => .inl troubled)
  · intro workers placement three
    have stored : ∀ worker ∈ workers, tables.workerState.find? worker.workerAddress = some worker :=
      fun worker member => tables.workerState.find_self worker (placement.stored worker member)
    refine wp_mono _ _ _ _ ?_ (wp_reserve_workers kind request.blobHash (toInt64 request.sizeMb)
      workers tables placement.distinct
      (fun worker member => by simp [Registered, stored worker member]))
    intro outcome after answer
    cases outcome with
    | error status =>
        refine answer.imp_right ?_
        intro stopped
        obtain ⟨reserves, worker, member, taken⟩ := stopped
        exact ⟨reserves, .inr ⟨worker, placement.stored worker member, placement.room worker member, taken⟩⟩
    | ok addresses =>
        obtain ⟨reserves, rfl, created⟩ := answer
        refine ⟨reserves, by rw [List.length_map, three], placement.distinct, created, ?_⟩
        intro address member
        obtain ⟨worker, inside, rfl⟩ := List.mem_map.mp member
        exact ⟨worker, stored worker inside, placement.room worker inside⟩
  · exact fun _ few _ => .inr ⟨reserves_refl _ tables, .inl few⟩

theorem wp_get_worker_with_blob (blobHash : String) (tables : Tables) :
    wpDb ok (MasterService.getWorkerWithBlob blobHash) (LookupAnswer trouble blobHash tables) tables := by
  rw [wpDb, MasterService.getWorkerWithBlob, wp_run_bind]
  refine wp_select_blobs kind _ _ _ _ ?_ (fun troubled _ _ => .inl troubled)
  intro copies answers
  have saved := answer_saved tables.blobCopy blobHash copies answers
  cases copies with
  | nil =>
      refine .inr ⟨rfl, .inl ?_⟩
      intro address copy
      obtain ⟨entry, there, state⟩ := copy
      obtain ⟨stored, key⟩ := (tables.blobCopy.find_some_iff _ _).mp there
      exact absurd ((saved entry).mpr ⟨stored, congrArg Prod.fst key, state⟩) List.not_mem_nil
  | cons copy rest =>
      obtain ⟨stored, hash, state⟩ := (saved copy).mp List.mem_cons_self
      have found : Copy .saved tables (blobHash, copy.workerAddress) :=
        ⟨copy, (tables.blobCopy.find_some_iff _ _).mpr ⟨stored, by rw [BlobCopyDTO.key, hash]⟩, state⟩
      dsimp only
      rw [wp_run_bind]
      refine wp_get_worker_state kind _ _ _ _ ?_ ?_ (fun troubled _ _ => .inl troubled)
      · intro worker present
        obtain ⟨-, address⟩ := (tables.workerState.find_some_iff _ _).mp present
        exact ⟨rfl, address.symm ▸ found⟩
      · exact fun absent _ => .inr ⟨rfl, .inr ⟨_, found, fun registered => registered absent⟩⟩

theorem wp_notify_blob_saved (request : NotifyBlobSavedRequest) (tables : Tables) :
    wpDb ok (MasterService.notifyBlobSaved request) (NotifyAnswer trouble request tables) tables := by
  rw [wpDb, MasterService.notifyBlobSaved, wp_run_bind]
  refine wp_query_blob kind _ _ _ _ _ ?_ (fun troubled _ _ => .inl troubled)
  cases copy : tables.blobCopy.find? (request.blobHash, request.workerAddress) with
  | none => exact .inr (.inl copy)
  | some entry =>
      obtain ⟨stored, key⟩ := (tables.blobCopy.find_some_iff _ _).mp copy
      dsimp only [Option.toList_some]
      rw [wp_run_bind]
      refine wp_commit kind _ _ _ _ ?_ ?_ (fun troubled _ _ => .inl troubled)
      · intro _ applied
        obtain ⟨copies, marked, rfl⟩ := update_blob_apply applied
        dsimp only
        rw [wp_run_bind]
        refine wp_get_worker_state kind _ _ _ _ ?_ ?_ (fun troubled _ _ => .inl troubled)
        · intro worker present
          refine wp_commit kind _ _ _ _ ?_ ?_ (fun troubled _ _ => .inl troubled)
          · intro _ applied
            obtain ⟨rows, updated, rfl⟩ := update_worker_apply applied
            have marks := Table.find_update marked
            have here : BlobCopyDTO.key { entry with state := .saved } =
                (request.blobHash, request.workerAddress) := key
            rw [here] at marks
            refine ⟨⟨_, (marks _).trans (if_pos rfl), rfl⟩, ?_, registered_update updated, ?_⟩
            · exact (registered_update updated _).mpr (fun absent => by cases present.symm.trans absent)
            · exact fun other different => (marks other).trans (if_neg (fun same => different same.symm))
          · intro refused
            have address := ((tables.workerState.find_some_iff _ _).mp present).2
            exact absurd refused (update_worker_accepted (address ▸ present))
        · exact fun absent _ => .inr (.inr (fun registered => registered absent))
      · exact fun refused => absurd refused (update_blob_accepted (tables.blobCopy.find_self entry stored))

end Rules

end BlobStore
