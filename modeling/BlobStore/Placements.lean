import BlobStore.MasterOutcomes

set_option autoImplicit false

namespace BlobStore

open Effects MasterDbRepository MasterService

theorem reserved_find {blobHash : String} {size : Int} {worker : WorkerStateDTO} {before after : Tables}
    (round : Reserved blobHash size worker before after) (other : WorkerStateDTO)
    (different : worker.workerAddress ≠ other.workerAddress) :
    after.blobCopy.find? (blobHash, other.workerAddress) =
      before.blobCopy.find? (blobHash, other.workerAddress) :=
  (Table.find_insert round.inserted _).trans (if_neg (fun same => different (congrArg Prod.snd same)))

theorem reserve_refused_iff {blobHash : String} {size : Int} {workers : List WorkerStateDTO}
    {before after : Tables} {outcome : Except Status (List String)}
    (loop : ReserveOutcome blobHash size workers before outcome after)
    (distinct : (workers.map WorkerStateDTO.workerAddress).Nodup) :
    (∃ status, outcome = .error status) ↔
      ∃ worker ∈ workers, before.blobCopy.find? (blobHash, worker.workerAddress) ≠ none := by
  induction loop with
  | done tables => simp
  | refused worker rest tables status taken => exact iff_of_true ⟨status, rfl⟩ ⟨worker, by simp, taken⟩
  | reserved worker rest before middle after outcome round later ih =>
      obtain ⟨fresh, distinctRest⟩ := List.nodup_cons.mp distinct
      have free : before.blobCopy.find? (blobHash, worker.workerAddress) = none :=
        ((Table.insert_some_iff _ _ _).mp round.inserted).1
      have mapped : (∃ status, outcome.map (worker.workerAddress :: ·) = .error status) ↔
          ∃ status, outcome = .error status := by
        cases outcome <;> simp [Except.map]
      have same : ∀ other ∈ rest, middle.blobCopy.find? (blobHash, other.workerAddress) =
          before.blobCopy.find? (blobHash, other.workerAddress) := fun other member =>
        reserved_find round other (fun equal => fresh (List.mem_map.mpr ⟨other, member, equal.symm⟩))
      rw [mapped, ih distinctRest]
      constructor
      · rintro ⟨other, member, taken⟩
        exact ⟨other, List.mem_cons_of_mem worker member, same other member ▸ taken⟩
      · rintro ⟨other, member, taken⟩
        cases List.mem_cons.mp member with
        | inl first => exact absurd free (first ▸ taken)
        | inr inRest => exact ⟨other, inRest, (same other inRest).symm ▸ taken⟩

theorem reserve_grows {blobHash : String} {size : Int} {workers : List WorkerStateDTO}
    {before after : Tables} {outcome : Except Status (List String)}
    (loop : ReserveOutcome blobHash size workers before outcome after) :
    before.blobCopy.rows.length ≤ after.blobCopy.rows.length := by
  induction loop with
  | done tables => exact Nat.le_refl _
  | refused worker rest tables status taken => exact Nat.le_refl _
  | reserved worker rest before middle after outcome round later ih =>
      have one := congrArg List.length ((Table.insert_some_iff _ _ _).mp round.inserted).2
      rw [List.length_cons] at one
      omega

-- The rounds are committed one by one: an error gives the tables back as they were
-- only if it comes in the first round.
theorem reserve_unchanged_iff {blobHash : String} {size : Int} {worker : WorkerStateDTO}
    {rest : List WorkerStateDTO} {before after : Tables} {outcome : Except Status (List String)}
    (loop : ReserveOutcome blobHash size (worker :: rest) before outcome after) :
    after = before ↔ before.blobCopy.find? (blobHash, worker.workerAddress) ≠ none := by
  cases loop with
  | refused _ _ _ status taken => exact iff_of_true rfl taken
  | reserved _ _ _ middle _ outcome round later =>
      obtain ⟨free, rows⟩ := (Table.insert_some_iff _ _ _).mp round.inserted
      refine iff_of_false ?_ (fun taken => taken free)
      intro same
      have one := congrArg List.length rows
      have rest := reserve_grows later
      rw [same] at rest
      rw [List.length_cons] at one
      omega

-- The workers that the query of a placement returns: which ones depends on the order of the scan.
def chosenWorkers (request : GetWorkersToSaveBlobRequest) (choices : List DbChoice)
    (tables : Tables) : List WorkerStateDTO :=
  let query := WorkerQuery.withFreeSpace (toInt64 request.sizeMb) 3
  query.cut (((choices.headD default).workerOrder.order tables.workerState.rows).filter query.selects)

theorem first_healthy {choices : List DbChoice} (healthy : ∀ choice ∈ choices, DbHealthy choice) :
    DbHealthy (choices.headD default) := by
  cases choices with
  | nil => rfl
  | cons choice rest => exact healthy choice (by simp)

theorem exec_place (request : GetWorkersToSaveBlobRequest) (choices : List DbChoice) (tables : Tables)
    (healthy : DbHealthy (choices.headD default)) :
    let workers := chosenWorkers request choices tables
    exec spannerSem (MasterService.getWorkersToSaveBlob request).run choices tables =
      if workers.length < 3 then
        (.error ⟨.resourceExhausted,
          "Requested " ++ toString 3 ++ " workers, but only " ++ toString workers.length ++
          " workers matching the criteria exist"⟩, choices.tail, tables)
      else exec spannerSem (reserveWorkers request.blobHash (toInt64 request.sizeMb) workers).run
        choices.tail tables := by
  intro workers
  have answer : spannerSem (.selectWorkers (.withFreeSpace (toInt64 request.sizeMb) 3))
      (choices.headD default) tables =
      (.ok workers, tables) := if_pos healthy
  rw [MasterService.getWorkersToSaveBlob, getWorkersWithFreeSpace, selectWorkers, bind_assoc,
    bind_assoc, exec_run_perform, answer]
  dsimp only [orStatus]
  rw [pure_bind]
  split <;> rfl

theorem chosen_placement (request : GetWorkersToSaveBlobRequest) (choices : List DbChoice) (tables : Tables) :
    Placement tables.workerState (toInt64 request.sizeMb) (chosenWorkers request choices tables) :=
  (answer_free_space _ _ 3 _ ⟨_, (choices.headD default).workerOrder.perm tables.workerState.rows, rfl⟩).1

theorem chosen_loop (request : GetWorkersToSaveBlobRequest) (choices : List DbChoice)
    (tables : Tables) (healthy : ∀ choice ∈ choices, DbHealthy choice)
    (three : ¬ (chosenWorkers request choices tables).length < 3) :
    let outcome := exec spannerSem (MasterService.getWorkersToSaveBlob request).run choices tables
    ReserveOutcome request.blobHash (toInt64 request.sizeMb) (chosenWorkers request choices tables)
      tables outcome.1 outcome.2.2 := by
  have placement := chosen_placement request choices tables
  dsimp only
  rw [exec_place request choices tables (first_healthy healthy), if_neg three]
  refine wp_sound DbHealthy _ (ReserveOutcome request.blobHash (toInt64 request.sizeMb) _ tables)
    choices.tail tables rfl
    (fun choice member => healthy choice (List.mem_of_mem_tail member)) ?_
  apply (wp_observed_iff _ _ tables ()).mp
  apply wp_reserve_outcome
  intro worker member
  simp [Registered, tables.workerState.find_self worker (placement.stored worker member)]

def HoldsCopy (blobHash : String) (tables : Tables) (worker : WorkerStateDTO) : Prop :=
  tables.blobCopy.find? (blobHash, worker.workerAddress) ≠ none

theorem refused_placement_leaves_nothing_iff (request : GetWorkersToSaveBlobRequest)
    (choices : List DbChoice) (tables : Tables) (healthy : ∀ choice ∈ choices, DbHealthy choice) :
    let outcome := exec spannerSem (MasterService.getWorkersToSaveBlob request).run choices tables
    let workers := chosenWorkers request choices tables
    (∀ status, outcome.1 = .error status → outcome.2.2 = tables) ↔
      workers.length < 3 ∨ (∃ first rest, workers = first :: rest ∧ HoldsCopy request.blobHash tables first) ∨
        ∀ worker ∈ workers, ¬ HoldsCopy request.blobHash tables worker := by
  intro outcome workers
  by_cases few : workers.length < 3
  · have unchanged : outcome.2.2 = tables := by
      rw [show outcome = _ from exec_place request choices tables (first_healthy healthy), if_pos few]
    exact iff_of_true (fun _ _ => unchanged) (.inl few)
  · have loop : ReserveOutcome request.blobHash (toInt64 request.sizeMb) workers
        tables outcome.1 outcome.2.2 :=
      chosen_loop request choices tables healthy few
    have refused := reserve_refused_iff loop (chosen_placement request choices tables).distinct
    match shape : workers with
    | [] => simp at few
    | first :: rest =>
        have unchanged := reserve_unchanged_iff loop
        constructor
        · intro clean
          by_cases taken : ∃ worker ∈ first :: rest, HoldsCopy request.blobHash tables worker
          · obtain ⟨status, failed⟩ := refused.mpr taken
            exact .inr (.inl ⟨first, rest, rfl, unchanged.mp (clean status failed)⟩)
          · exact .inr (.inr (fun worker member held => taken ⟨worker, member, held⟩))
        · rintro (short | ⟨_, _, same, held⟩ | none) status failed
          · exact absurd short few
          · obtain ⟨rfl, rfl⟩ := List.cons.inj same
            exact unchanged.mpr held
          · obtain ⟨worker, member, taken⟩ := refused.mp ⟨status, failed⟩
            exact absurd taken (none worker member)

theorem refused_placement_leaves_nothing_iff_run :
    let tables := finalState masterStep Tables.empty
      (threeWorkers 5 ++ [(.getWorkersToSaveBlob ⟨"7", 1⟩, [])])
    let outcome := exec spannerSem (MasterService.getWorkersToSaveBlob ⟨"7", 1⟩).run [] tables
    let workers := chosenWorkers ⟨"7", 1⟩ [] tables
    (∀ status, outcome.1 = .error status → outcome.2.2 = tables) ↔
      workers.length < 3 ∨ (∃ first rest, workers = first :: rest ∧ HoldsCopy "7" tables first) ∨
        ∀ worker ∈ workers, ¬ HoldsCopy "7" tables worker :=
  refused_placement_leaves_nothing_iff ⟨"7", 1⟩ [] _ (by simp)

-- A worker registers again, which clears its copies but not those of the other two.
-- The next placement of the blob reserves on it, then meets the row of the second worker.
theorem refused_placement_keeps_a_reservation :
    let tables := finalState masterStep Tables.empty
      (threeWorkers 5 ++ [(.getWorkersToSaveBlob ⟨"7", 1⟩, []), (.registerWorker ⟨"worker-0", 5⟩, [])])
    let outcome := exec spannerSem (MasterService.getWorkersToSaveBlob ⟨"7", 1⟩).run [] tables
    outcome.1 = .error ⟨.cancelled, ""⟩ ∧ tables.blobCopy.find? ("7", "worker-0") = none ∧
      outcome.2.2.blobCopy.find? ("7", "worker-0") = some ⟨"7", "worker-0", .duringCreation, 1⟩ ∧
      tables.workerState.find? "worker-0" = some ⟨"worker-0", 5, 0, 0⟩ ∧
      outcome.2.2.workerState.find? "worker-0" = some ⟨"worker-0", 5, 1, 0⟩ := by
  decide +kernel

end BlobStore
