import BlobStore.Placements

set_option autoImplicit false

namespace BlobStore

open Effects MasterDbRepository MasterService

-- The rows of some workers are changed in one way, all others stay.
def Shifted (change : WorkerStateDTO → WorkerStateDTO) (addresses : List String)
    (before after : WorkerTable) : Prop :=
  ∀ address, after.find? address =
    (before.find? address).map (fun row => if address ∈ addresses then change row else row)

theorem shifted_nil (change : WorkerStateDTO → WorkerStateDTO) (table : WorkerTable) :
    Shifted change [] table table := by
  intro address
  cases table.find? address <;> simp

theorem shifted_update (change : WorkerStateDTO → WorkerStateDTO) {row : WorkerStateDTO}
    {before after : WorkerTable} (keyed : (change row).workerAddress = row.workerAddress)
    (found : before.find? row.workerAddress = some row)
    (updated : before.update (change row) = some after) :
    Shifted change [row.workerAddress] before after := by
  intro address
  rw [Table.find_update updated, keyed]
  by_cases same : row.workerAddress = address
  · subst same
    simp [found]
  · have elsewhere : address ∉ [row.workerAddress] := by simpa using Ne.symm same
    rw [if_neg same]
    cases before.find? address <;> simp [elsewhere]

theorem shifted_cons {change : WorkerStateDTO → WorkerStateDTO} {first : String}
    {rest : List String} {before middle after : WorkerTable}
    (one : Shifted change [first] before middle) (others : Shifted change rest middle after)
    (fresh : first ∉ rest) : Shifted change (first :: rest) before after := by
  intro address
  rw [others address, one address, Option.map_map]
  refine congrArg (fun convert => (before.find? address).map convert) (funext fun row => ?_)
  by_cases same : address = first
  · subst same
    simp [fresh]
  · simp [same]

theorem shifted_twice {one two : WorkerStateDTO → WorkerStateDTO} {first second : List String}
    {before middle after : WorkerTable} (changed : Shifted one first before middle)
    (again : Shifted two second middle after)
    (same : ∀ address, address ∈ second ↔ address ∈ first) :
    Shifted (two ∘ one) first before after := by
  intro address
  rw [again address, changed address, Option.map_map]
  refine congrArg (fun convert => (before.find? address).map convert) (funext fun row => ?_)
  by_cases member : address ∈ first <;> simp [same, member]

def WorkerStateDTO.lock (size : Int) (row : WorkerStateDTO) : WorkerStateDTO :=
  { row with lockedSpaceMb := size + row.lockedSpaceMb }

def WorkerStateDTO.settle (size : Int) (row : WorkerStateDTO) : WorkerStateDTO :=
  { row with lockedSpaceMb := row.lockedSpaceMb - size, availableSpaceMb := row.availableSpaceMb - size }

def WorkerStateDTO.spend (size : Int) (row : WorkerStateDTO) : WorkerStateDTO :=
  { row with availableSpaceMb := row.availableSpaceMb - size }

theorem settle_lock (size : Int) :
    WorkerStateDTO.settle size ∘ WorkerStateDTO.lock size = WorkerStateDTO.spend size := by
  funext row
  simp [WorkerStateDTO.settle, WorkerStateDTO.lock, WorkerStateDTO.spend]

theorem reserved_all {blobHash : String} {size : Int} {workers : List WorkerStateDTO} {before after : Tables}
    {outcome : Except Status (List String)} (loop : ReserveOutcome blobHash size workers before outcome after)
    (distinct : (workers.map WorkerStateDTO.workerAddress).Nodup)
    (current : ∀ worker ∈ workers, before.workerState.find? worker.workerAddress = some worker)
    {addresses : List String} (accepted : outcome = .ok addresses) :
    addresses = workers.map WorkerStateDTO.workerAddress ∧
      Shifted (WorkerStateDTO.lock size) addresses before.workerState after.workerState ∧
      ∀ key, after.blobCopy.find? key =
        if key.1 = blobHash ∧ key.2 ∈ addresses then some ⟨blobHash, key.2, .duringCreation, size⟩
          else before.blobCopy.find? key := by
  induction loop generalizing addresses with
  | done tables =>
      obtain rfl := Except.ok.inj accepted
      exact ⟨rfl, shifted_nil _ _, by simp⟩
  | refused worker rest tables status taken => cases accepted
  | reserved worker rest before middle after outcome round later ih =>
      cases outcome with
      | error status => cases accepted
      | ok others =>
          obtain rfl := Except.ok.inj accepted
          obtain ⟨fresh, distinctRest⟩ := List.nodup_cons.mp distinct
          have one : Shifted (WorkerStateDTO.lock size) [worker.workerAddress]
              before.workerState middle.workerState :=
            shifted_update (WorkerStateDTO.lock size) rfl (current worker (by simp)) round.updated
          have stored : ∀ other ∈ rest, middle.workerState.find? other.workerAddress = some other := by
            intro other member
            have elsewhere : other.workerAddress ≠ worker.workerAddress :=
              fun same => fresh (List.mem_map.mpr ⟨other, member, same⟩)
            rw [one, current other (by simp [member])]
            simp [elsewhere]
          obtain ⟨rfl, shifted, copies⟩ := ih distinctRest stored rfl
          refine ⟨rfl, shifted_cons one shifted fresh, ?_⟩
          intro key
          rw [copies key, Table.find_insert round.inserted]
          by_cases here : BlobCopyDTO.key ⟨blobHash, worker.workerAddress, .duringCreation, size⟩ = key
          · subst here
            simp [BlobCopyDTO.key]
          · have different : ¬ (key.1 = blobHash ∧ key.2 = worker.workerAddress) :=
              fun same => here (Prod.ext same.1.symm same.2.symm)
            by_cases blob : key.1 = blobHash
            · have elsewhere : key.2 ≠ worker.workerAddress := fun same => different ⟨blob, same⟩
              simp [here, blob, elsewhere]
            · simp [here, blob]

-- What is left of a stored blob once its workers are notified, up to its own rows.
structure Settles (blobHash : String) (size : Int) (addresses : List String)
    (before after : Tables) : Prop where
  workers : Shifted (WorkerStateDTO.settle size) addresses before.workerState after.workerState
  others : ∀ key : String × String, key.1 ≠ blobHash → after.blobCopy.find? key = before.blobCopy.find? key

theorem notified_one {blobHash address : String} {blob : BlobCopyDTO} {before after : Tables}
    {outcome : Except Status Unit}
    (notified : NotifyOutcome ⟨address, blobHash⟩ before outcome after)
    (copy : before.blobCopy.find? (blobHash, address) = some blob)
    (registered : Registered before address) :
    Settles blobHash blob.sizeMb [address] before after ∧
      ∀ other, other ≠ address →
          after.blobCopy.find? (blobHash, other) = before.blobCopy.find? (blobHash, other) := by
  have elsewhere := (notified_rows notified).1
  cases notified with
  | unknown status absent => cases absent.symm.trans copy
  | unregistered status _ copies found marked absent => exact absurd absent registered
  | saved same worker copies rows found marked present updated =>
      obtain rfl := Option.some.inj (copy.symm.trans found)
      have here : worker.workerAddress = address := ((before.workerState.find_some_iff _ _).mp present).2
      refine ⟨⟨?_, ?_⟩, ?_⟩
      · rw [← here] at present ⊢
        exact shifted_update (WorkerStateDTO.settle blob.sizeMb) rfl present updated
      · exact fun other different => elsewhere other (fun same => different (congrArg Prod.fst same))
      · exact fun other different => elsewhere _ (fun same => different (congrArg Prod.snd same))

theorem shifted_registered {change : WorkerStateDTO → WorkerStateDTO} {addresses : List String}
    {before after : Tables}
    (shifted : Shifted change addresses before.workerState after.workerState) (address : String) :
    Registered after address ↔ Registered before address := by
  rw [Registered, Registered, shifted address]
  cases before.workerState.find? address <;> simp

def notifications (blobHash : String) (notices : List (String × List MasterChoice)) :
    List (MasterOp × List MasterChoice) :=
  notices.map (fun notice => (.notifyBlobSaved ⟨notice.1, blobHash⟩, notice.2))

theorem notified_all (blobHash : String) (size : Int) (notices : List (String × List MasterChoice))
    (before : Tables) (healthy : ∀ notice ∈ notices, ∀ choice ∈ notice.2, MasterHealthy choice)
    (distinct : (notices.map Prod.fst).Nodup)
    (pending : ∀ address ∈ notices.map Prod.fst, Registered before address ∧
      ∃ blob, before.blobCopy.find? (blobHash, address) = some blob ∧ blob.sizeMb = size) :
    Settles blobHash size (notices.map Prod.fst) before
      (finalState masterStep before (notifications blobHash notices)) := by
  induction notices generalizing before with
  | nil => exact ⟨shifted_nil _ _, fun _ _ => rfl⟩
  | cons notice rest ih =>
      obtain ⟨address, choices⟩ := notice
      obtain ⟨fresh, distinctRest⟩ := List.nodup_cons.mp distinct
      obtain ⟨registered, blob, copy, rfl⟩ := pending address (by simp)
      obtain ⟨outcome, -, notified⟩ :=
        notify_step ⟨address, blobHash⟩ choices before (healthy _ List.mem_cons_self)
      obtain ⟨one, kept⟩ := notified_one notified copy registered
      have later := ih _ (fun other member => healthy other (List.mem_cons_of_mem _ member)) distinctRest (by
        intro other member
        obtain ⟨there, found⟩ := pending other (List.mem_cons_of_mem _ member)
        have different : other ≠ address := fun same => fresh (same ▸ member)
        rw [kept other different]
        exact ⟨(shifted_registered one.workers other).mpr there, found⟩)
      refine ⟨shifted_cons one.workers later.workers fresh, ?_⟩
      exact fun key other => (later.others key other).trans (one.others key other)

-- A blob is placed, all its workers are notified, and it is deleted.
def storeAndDelete (request : GetWorkersToSaveBlobRequest) (placing : List MasterChoice)
    (notices : List (String × List MasterChoice)) (deleting : List MasterChoice) :
    List (MasterOp × List MasterChoice) :=
  (.getWorkersToSaveBlob request, placing) :: notifications request.blobHash notices ++
    [(.deleteBlob request.blobHash, deleting)]

structure Locked (blobHash : String) (size : Int) (addresses : List String)
    (before after : Tables) : Prop where
  three : addresses.length = 3
  distinct : addresses.Nodup
  registered : ∀ address ∈ addresses, Registered before address
  workers : Shifted (WorkerStateDTO.lock size) addresses before.workerState after.workerState
  copies : ∀ key, after.blobCopy.find? key =
    if key.1 = blobHash ∧ key.2 ∈ addresses then some ⟨blobHash, key.2, .duringCreation, size⟩
      else before.blobCopy.find? key

theorem placed_locked {blobHash : String} {size : Int} {addresses : List String}
    {before after : Tables} (placed : PlaceOutcome blobHash size before (.ok addresses) after) :
    Locked blobHash size addresses before after := by
  cases placed with
  | chosen workers _ _ placement three loop =>
      have stored : ∀ worker ∈ workers, before.workerState.find? worker.workerAddress = some worker :=
        fun worker member => before.workerState.find_self worker (placement.stored worker member)
      obtain ⟨rfl, locked, copies⟩ := reserved_all loop placement.distinct stored rfl
      refine ⟨by rw [List.length_map, three], placement.distinct, ?_, locked, copies⟩
      intro address member
      obtain ⟨worker, inside, rfl⟩ := List.mem_map.mp member
      simp [Registered, stored worker inside]

theorem place_locks_space (request : GetWorkersToSaveBlobRequest) (placing : List MasterChoice)
    (before : Tables) (healthy : ∀ choice ∈ placing, MasterHealthy choice) (addresses : List String)
    (placed : (masterStep (.getWorkersToSaveBlob request, placing) before).1 =
      .ok (.addresses addresses)) :
    Locked request.blobHash (toInt64 request.sizeMb) addresses before
      (masterStep (.getWorkersToSaveBlob request, placing) before).2 := by
  obtain ⟨outcome, result, reserved⟩ := place_step request placing before healthy
  have accepted : outcome = .ok addresses := by
    rw [result] at placed
    cases outcome with
    | error status => cases placed
    | ok value =>
        injection placed with response
        injection response with same
        exact congrArg Except.ok same
  exact placed_locked (accepted ▸ reserved)

-- Deleting the blob returns no space: of the three moves of its size, from free to
-- locked, from locked to used and back, the last is missing.
theorem store_and_delete_spends (request : GetWorkersToSaveBlobRequest)
    (placing deleting : List MasterChoice) (notices : List (String × List MasterChoice))
    (before : Tables)
    (healthy : ∀ turn ∈ storeAndDelete request placing notices deleting, ∀ choice ∈ turn.2,
      MasterHealthy choice)
    (unknown : ∀ address, before.blobCopy.find? (request.blobHash, address) = none)
    (addresses : List String)
    (placed : (masterStep (.getWorkersToSaveBlob request, placing) before).1 =
      .ok (.addresses addresses)) (each : (notices.map Prod.fst).Perm addresses) :
    let after := finalState masterStep before (storeAndDelete request placing notices deleting)
    Shifted (WorkerStateDTO.spend (toInt64 request.sizeMb)) addresses before.workerState after.workerState ∧
      ∀ key, after.blobCopy.find? key = before.blobCopy.find? key := by
  have locked := place_locks_space request placing before (healthy _ List.mem_cons_self) addresses placed
  generalize middleIs : (masterStep (.getWorkersToSaveBlob request, placing) before).2 = middle at locked
  have noticed := notified_all request.blobHash (toInt64 request.sizeMb) notices middle
    (fun notice member => healthy (.notifyBlobSaved ⟨notice.1, request.blobHash⟩, notice.2) (by
      simp only [storeAndDelete, notifications, List.mem_cons, List.mem_append, List.mem_map]
      exact .inl (.inr ⟨notice, member, rfl⟩)))
    (each.nodup_iff.mpr locked.distinct) (by
      intro address member
      have inside := each.mem_iff.mp member
      exact ⟨(shifted_registered locked.workers address).mpr (locked.registered address inside), _,
        (locked.copies _).trans (if_pos ⟨rfl, inside⟩), rfl⟩)
  have deleted := delete_step request.blobHash deleting
    (finalState masterStep middle (notifications request.blobHash notices))
    (healthy (.deleteBlob request.blobHash, deleting) (by simp [storeAndDelete]))
  intro after
  have same : after = (masterStep (.deleteBlob request.blobHash, deleting)
      (finalState masterStep middle (notifications request.blobHash notices))).2 := by
    simp only [after, storeAndDelete, finalState, List.cons_append, List.foldl_cons,
      List.foldl_append, List.foldl_nil, middleIs]
  rw [deleted] at same
  rw [same]
  constructor
  · have both := shifted_twice locked.workers noticed.workers (fun address => each.mem_iff)
    rwa [settle_lock] at both
  · intro key
    rw [Table.find_delete]
    by_cases blob : key.1 = request.blobHash
    · rw [show key = (request.blobHash, key.2) from Prod.ext blob rfl, unknown, Option.filter_eq_none_iff]
      intro entry found
      have hash : entry.hash = request.blobHash := congrArg Prod.fst ((Table.find_some_iff _ _ _).mp found).2
      simp [hash]
    · rw [noticed.others key blob, locked.copies key, if_neg (fun both => blob both.1)]
      cases found : before.blobCopy.find? key with
      | none => rfl
      | some entry =>
          have hash : entry.hash = key.1 := congrArg Prod.fst ((Table.find_some_iff _ _ _).mp found).2
          simp [Option.filter, hash, blob]

def WorkerStateDTO.figures (row : WorkerStateDTO) : Int × Int × Int :=
  (row.availableSpaceMb, row.lockedSpaceMb, row.availableSpaceMb - row.lockedSpaceMb)

def Restored (before after : Tables) : Prop :=
  (∀ address, (after.workerState.find? address).map WorkerStateDTO.figures =
    (before.workerState.find? address).map WorkerStateDTO.figures) ∧
  ∀ key, after.blobCopy.find? key = before.blobCopy.find? key

theorem space_restored_iff_nothing_stored (request : GetWorkersToSaveBlobRequest)
    (fits : request.sizeMb.toNat < 2 ^ 63) (placing deleting : List MasterChoice)
    (notices : List (String × List MasterChoice)) (before : Tables)
    (healthy : ∀ turn ∈ storeAndDelete request placing notices deleting, ∀ choice ∈ turn.2,
      MasterHealthy choice)
    (unknown : ∀ address, before.blobCopy.find? (request.blobHash, address) = none)
    (addresses : List String)
    (placed : (masterStep (.getWorkersToSaveBlob request, placing) before).1 =
      .ok (.addresses addresses)) (each : (notices.map Prod.fst).Perm addresses) :
    Restored before (finalState masterStep before
      (storeAndDelete request placing notices deleting)) ↔ request.sizeMb = 0 := by
  have locked := place_locks_space request placing before (healthy _ List.mem_cons_self) addresses placed
  obtain ⟨spent, copies⟩ := store_and_delete_spends request placing deleting notices before
    healthy unknown addresses placed each
  have size : toInt64 request.sizeMb = request.sizeMb.toNat := if_pos fits
  constructor
  · intro restored
    obtain ⟨address, rest, rfl⟩ : ∃ address rest, addresses = address :: rest := by
      cases addresses with
      | nil => cases locked.three
      | cons address rest => exact ⟨address, rest, rfl⟩
    obtain ⟨row, present⟩ := Option.ne_none_iff_exists'.mp (locked.registered address List.mem_cons_self)
    have kept := restored.1 address
    rw [spent address, present] at kept
    simp [WorkerStateDTO.figures, WorkerStateDTO.spend, size] at kept
    exact UInt64.toNat_inj.mp kept
  · intro none
    refine ⟨fun address => ?_, copies⟩
    rw [spent address, Option.map_map]
    have zero : toInt64 request.sizeMb = 0 := by rw [size, none]; rfl
    refine congrArg (fun convert => (before.workerState.find? address).map convert) (funext fun row => ?_)
    simp [zero, WorkerStateDTO.figures, WorkerStateDTO.spend]

theorem space_restored_iff_nothing_stored_run :
    let before := finalState masterStep Tables.empty (threeWorkers 5)
    Restored before (finalState masterStep before
      (storeAndDelete ⟨"7", 3⟩ [] [("worker-0", []), ("worker-2", []), ("worker-1", [])] [])) ↔
        (3 : UInt64) = 0 := by
  intro before
  have unknown : ∀ address, before.blobCopy.find? ("7", address) = none := fun _ => rfl
  exact space_restored_iff_nothing_stored ⟨"7", 3⟩ (by decide) [] []
    [("worker-0", []), ("worker-2", []), ("worker-1", [])] before
    (by simp [storeAndDelete, notifications]) unknown ["worker-2", "worker-1", "worker-0"]
      (by decide +kernel) (by decide)

-- After one blob of 3 MB has come and gone the three workers cannot take another of that size.
theorem deleted_blob_keeps_its_space :
    let before := finalState masterStep Tables.empty (threeWorkers 5)
    let after := finalState masterStep before
      (storeAndDelete ⟨"7", 3⟩ [] [("worker-0", []), ("worker-2", []), ("worker-1", [])] [])
    before.workerState.find? "worker-0" = some ⟨"worker-0", 5, 0, 0⟩ ∧
      after.workerState.find? "worker-0" = some ⟨"worker-0", 2, 0, 0⟩ ∧ after.blobCopy.rows = [] ∧
      (masterStep (.getWorkersToSaveBlob ⟨"8", 3⟩, []) after).1 =
        .error ⟨.resourceExhausted,
          "Requested 3 workers, but only 0 workers matching the criteria exist"⟩ := by
  decide +kernel

end BlobStore
