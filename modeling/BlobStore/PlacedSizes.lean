import BlobStore.SpaceCycle

set_option autoImplicit false

namespace BlobStore

open Effects MasterDbRepository MasterService

section Returns

variable {α β : Type}

def Returns (program : DbM α) (choices : List DbChoice) (tables : Tables)
    (value : α) (after : Tables) : Prop :=
  (exec spannerSem program.run choices tables).1 = .ok value ∧
    (exec spannerSem program.run choices tables).2.2 = after

-- A call goes on after a commit only where the commit was accepted and said so.
theorem commit_returns_iff (mutation : Mutation) (rest : Unit → DbM α) (choices : List DbChoice)
    (tables : Tables) (value : α) (after : Tables) :
    Returns (commit mutation >>= rest) choices tables value after ↔
      DbHealthy (choices.headD default) ∧ ∃ middle, mutation.apply tables = some middle ∧
        Returns (rest ()) choices.tail middle value after := by
  rw [Returns, commit, bind_assoc, exec_run_perform]
  simp only [spannerSem, commitSem, DbHealthy]
  cases fault : (choices.headD default).fault with
  | none =>
      cases outcome : mutation.apply tables with
      | some middle => simp [Returns, orStatus]
      | none =>
          refine iff_of_false (fun returned => by cases returned.1) ?_
          rintro ⟨_, _, applied, _⟩
          cases applied
  | lost =>
      refine iff_of_false (fun returned => by cases returned.1) ?_
      rintro ⟨healthy, _⟩
      cases healthy
  | applied =>
      refine iff_of_false (fun returned => by cases returned.1) ?_
      rintro ⟨healthy, _⟩
      cases healthy

theorem map_returns_iff (program : DbM α) (convert : α → β) (choices : List DbChoice)
    (tables : Tables) (value : β) (after : Tables) :
    Returns (program >>= fun result => pure (convert result)) choices tables value after ↔
      ∃ result, convert result = value ∧ Returns program choices tables result after := by
  cases outcome : (exec spannerSem program.run choices tables).1 with
  | error status =>
      simp only [Returns, exec_run_bind_error program _ choices tables status outcome, outcome]
      simp
  | ok result =>
      simp only [Returns, exec_run_bind_ok program _ choices tables result outcome, outcome]
      constructor
      · rintro ⟨returned, rfl⟩
        exact ⟨result, Except.ok.inj returned, rfl, rfl⟩
      · rintro ⟨_, rfl, same, rfl⟩
        obtain rfl := Except.ok.inj same
        exact ⟨rfl, rfl⟩

end Returns

section Sizes

variable {request : GetWorkersToSaveBlobRequest} {tables : Tables}

theorem healthy_take_iff (choices : List DbChoice) (count : Nat) :
    (∀ choice ∈ choices.take (count + 1), DbHealthy choice) ↔
      DbHealthy (choices.headD default) ∧ ∀ choice ∈ choices.tail.take count, DbHealthy choice :=
  take_choices_iff (show DbHealthy default from rfl) choices count

theorem reserve_returns_iff (blobHash : String) (size : Int) (workers : List WorkerStateDTO)
    (choices : List DbChoice) (tables : Tables) (addresses : List String) (after : Tables) :
    Returns (reserveWorkers blobHash size workers) choices tables addresses after ↔
      (∀ choice ∈ choices.take (2 * workers.length), DbHealthy choice) ∧
        ReserveOutcome blobHash size workers tables (.ok addresses) after := by
  induction workers generalizing choices tables addresses with
  | nil =>
      constructor
      · rintro ⟨returned, rfl⟩
        obtain rfl := Except.ok.inj returned
        exact ⟨by simp, .done tables⟩
      · rintro ⟨-, loop⟩
        cases loop
        exact ⟨rfl, rfl⟩
  | cons worker rest ih =>
      rw [List.length_cons, Nat.mul_succ, healthy_take_iff, healthy_take_iff, reserveWorkers, addBlobEntry,
        commit_returns_iff]
      simp only [updateWorkerState, commit_returns_iff, map_returns_iff, ih]
      constructor
      · rintro ⟨first, _, inserts, second, _, updates, others, rfl, healthy, loop⟩
        obtain ⟨copies, inserted, rfl⟩ := insert_blob_apply inserts
        obtain ⟨rows, updated, rfl⟩ := update_worker_apply updates
        have round : Reserved blobHash size worker tables ⟨copies, rows⟩ := ⟨inserted, updated⟩
        exact ⟨⟨first, second, healthy⟩, .reserved worker rest tables _ after (.ok others) round loop⟩
      · rintro ⟨⟨first, second, healthy⟩, loop⟩
        generalize returned : (Except.ok addresses : Except Status (List String)) = outcome at loop
        cases loop with
        | refused _ _ _ status taken => cases returned
        | reserved _ _ _ middle _ outcome round later =>
            cases outcome with
            | error status => cases returned
            | ok others =>
                refine ⟨first, { tables with blobCopy := middle.blobCopy }, ?_, second, middle,
                  ?_, others, ?_, healthy, later⟩
                · simp [Mutation.apply, round.inserted]
                · simp [Mutation.apply, round.updated]
                · exact (Except.ok.inj returned).symm

theorem chosen_at_most (request : GetWorkersToSaveBlobRequest) (choices : List DbChoice) (tables : Tables) :
    (chosenWorkers request choices tables).length ≤ 3 := List.length_take_le _ _

theorem place_returns_iff (request : GetWorkersToSaveBlobRequest) (choices : List DbChoice)
    (tables : Tables) (addresses : List String) (after : Tables) :
    Returns (MasterService.getWorkersToSaveBlob request) choices tables addresses after ↔
      (∀ choice ∈ choices.take 7, DbHealthy choice) ∧ (chosenWorkers request choices tables).length = 3 ∧
        ReserveOutcome request.blobHash (toInt64 request.sizeMb)
          (chosenWorkers request choices tables) tables (.ok addresses) after := by
  rw [healthy_take_iff]
  by_cases healthy : DbHealthy (choices.headD default)
  · rw [Returns, exec_place request choices tables healthy]
    have most := chosen_at_most request choices tables
    by_cases few : (chosenWorkers request choices tables).length < 3
    · rw [if_pos few]
      exact iff_of_false (fun returned => by cases returned.1) (fun ⟨_, three, _⟩ => by omega)
    · have three : (chosenWorkers request choices tables).length = 3 := by omega
      rw [if_neg few]
      refine (reserve_returns_iff request.blobHash _ _ choices.tail tables addresses after).trans ?_
      simp only [three, healthy, true_and]
  · have answer : (spannerSem (.selectWorkers (.withFreeSpace (toInt64 request.sizeMb) 3))
        (choices.headD default) tables) =
        (.error (choices.headD default).message, tables) := if_neg healthy
    refine iff_of_false ?_ (fun both => healthy both.1.1)
    rintro ⟨returned, -⟩
    rw [MasterService.getWorkersToSaveBlob, getWorkersWithFreeSpace, selectWorkers,
      bind_assoc, bind_assoc, exec_run_perform, answer] at returned
    cases returned

-- 0 <= locked_space_mb <= available_space_mb, in INT64 columns.
def WithinSpace (rows : List WorkerStateDTO) : Prop :=
  ∀ row ∈ rows, 0 ≤ row.lockedSpaceMb ∧ row.lockedSpaceMb ≤ row.availableSpaceMb ∧
    InInt64 row.availableSpaceMb

instance (rows : List WorkerStateDTO) : Decidable (WithinSpace rows) :=
  inferInstanceAs
    (Decidable (∀ row ∈ rows, 0 ≤ row.lockedSpaceMb ∧ row.lockedSpaceMb ≤ row.availableSpaceMb ∧
      InInt64 row.availableSpaceMb))

-- The size as it was requested, in the comparison, in the sum and in the new rows.
structure PlacedExactly (request : GetWorkersToSaveBlobRequest) (before after : Tables)
    (addresses : List String) : Prop where
  converted : toInt64 request.sizeMb = request.sizeMb.toNat
  compared : ∀ row ∈ before.workerState.rows, InInt64 (row.availableSpaceMb - row.lockedSpaceMb)
  workers : ∀ address ∈ addresses, ∃ row, before.workerState.find? address = some row ∧
    (request.sizeMb.toNat : Int) ≤ row.availableSpaceMb - row.lockedSpaceMb ∧
      InInt64 (row.lockedSpaceMb + request.sizeMb.toNat) ∧
    after.workerState.find? address =
      some { row with lockedSpaceMb := row.lockedSpaceMb + request.sizeMb.toNat }
  copies : ∀ address ∈ addresses, after.blobCopy.find? (request.blobHash, address) =
    some ⟨request.blobHash, address, .duringCreation, request.sizeMb.toNat⟩
  within : WithinSpace after.workerState.rows

theorem placed_exactly {choices : List DbChoice} {addresses : List String} {after : Tables}
    (small : request.sizeMb.toNat < 2 ^ 63) (space : WithinSpace tables.workerState.rows)
    (returned : Returns (MasterService.getWorkersToSaveBlob request) choices tables addresses after) :
    PlacedExactly request tables after addresses := by
  obtain ⟨-, three, loop⟩ := (place_returns_iff request choices tables addresses after).mp returned
  have placement := chosen_placement request choices tables
  have exact_ : toInt64 request.sizeMb = request.sizeMb.toNat := if_pos small
  have stored : ∀ worker ∈ chosenWorkers request choices tables,
      tables.workerState.find? worker.workerAddress = some worker :=
    fun worker member => tables.workerState.find_self worker (placement.stored worker member)
  obtain ⟨rfl, locked, copies⟩ := reserved_all loop placement.distinct stored rfl
  rw [exact_] at locked copies placement
  have room : ∀ row ∈ tables.workerState.rows,
      row.workerAddress ∈ (chosenWorkers request choices tables).map WorkerStateDTO.workerAddress →
      (request.sizeMb.toNat : Int) ≤ row.availableSpaceMb - row.lockedSpaceMb := by
    intro row member chosen
    obtain ⟨worker, inside, same⟩ := List.mem_map.mp chosen
    obtain rfl := tables.workerState.unique_row worker row (placement.stored worker inside) member same
    exact placement.room worker inside
  refine ⟨exact_, ?_, ?_, ?_, ?_⟩
  · intro row member
    obtain ⟨low, high, -, bound⟩ := space row member
    exact ⟨by omega, by omega⟩
  · intro address chosen
    obtain ⟨worker, inside, rfl⟩ := List.mem_map.mp chosen
    have member := placement.stored worker inside
    obtain ⟨low, high, -, bound⟩ := space worker member
    have fits := placement.room worker inside
    refine ⟨worker, stored worker inside, fits, ⟨by omega, by omega⟩, ?_⟩
    rw [locked, stored worker inside, Option.map_some, if_pos chosen, WorkerStateDTO.lock, Int.add_comm]
  · intro address chosen
    rw [copies, if_pos ⟨rfl, chosen⟩]
  · intro row member
    have found := locked row.workerAddress
    rw [after.workerState.find_self row member] at found
    obtain ⟨old, before, same⟩ := Option.map_eq_some_iff.mp found.symm
    obtain ⟨here, key⟩ := (tables.workerState.find_some_iff _ _).mp before
    obtain ⟨low, high, bounds⟩ := space old here
    split at same
    · rename_i chosen
      have fits := room old here (key ▸ chosen)
      subst same
      simp only [WorkerStateDTO.lock] at *
      exact ⟨by omega, by omega, bounds⟩
    · subst same
      exact ⟨low, high, bounds⟩

-- What is asked of a placement for every size, small or not.
def PlacesExactly (request : GetWorkersToSaveBlobRequest) (choices : List DbChoice)
    (tables : Tables) : Prop :=
  let outcome := exec spannerSem (MasterService.getWorkersToSaveBlob request).run choices tables
  (∀ addresses, outcome.1 = .ok addresses → PlacedExactly request tables outcome.2.2 addresses) ∧
    ((∀ row ∈ tables.workerState.rows,
      row.availableSpaceMb - row.lockedSpaceMb < (request.sizeMb.toNat : Int)) →
      ∃ status, outcome.1 = .error status)

theorem small_places_exactly (choices : List DbChoice) (small : request.sizeMb.toNat < 2 ^ 63)
    (space : WithinSpace tables.workerState.rows) : PlacesExactly request choices tables := by
  refine ⟨fun addresses returned => placed_exactly small space ⟨returned, rfl⟩, fun full => ?_⟩
  cases outcome : (exec spannerSem (MasterService.getWorkersToSaveBlob request).run choices tables).1 with
  | error status => exact ⟨status, rfl⟩
  | ok addresses =>
      obtain ⟨-, three, -⟩ := (place_returns_iff request choices tables addresses _).mp ⟨outcome, rfl⟩
      have placement := chosen_placement request choices tables
      obtain ⟨worker, member⟩ :=
        List.exists_mem_of_length_pos (l := chosenWorkers request choices tables) (by omega)
      have fits := placement.room worker member
      have taken := full worker (placement.stored worker member)
      rw [toInt64, if_pos small] at fits
      omega

-- A size of 2^63 and more turns negative, so that every worker has room for it.
theorem chosen_large (choices : List DbChoice) (large : 2 ^ 63 ≤ request.sizeMb.toNat)
    (space : WithinSpace tables.workerState.rows) :
    chosenWorkers request choices tables =
      ((choices.headD default).workerOrder.order tables.workerState.rows).take 3 := by
  have negative : toInt64 request.sizeMb ≤ 0 := by
    have bound := request.sizeMb.toNat_lt
    rw [toInt64, if_neg (by omega)]
    omega
  rw [chosenWorkers, WorkerQuery.cut, List.filter_eq_self.mpr]
  intro row member
  obtain ⟨low, high, -⟩ := space row (((choices.headD default).workerOrder.perm _).mem_iff.mp member)
  simp only [WorkerQuery.selects, decide_eq_true_eq]
  omega

theorem reserve_ends (blobHash : String) (size : Int) (workers : List WorkerStateDTO) (tables : Tables)
    (registered : ∀ worker ∈ workers, Registered tables worker.workerAddress) :
    ∃ outcome after, ReserveOutcome blobHash size workers tables outcome after := by
  have holds : wp spannerSem DbHealthy (reserveWorkers blobHash size workers).run
      (ReserveOutcome blobHash size workers tables) tables :=
    (wp_observed_iff _ _ tables ()).mp (wp_reserve_outcome blobHash size workers tables registered)
  exact ⟨_, _, wp_sound DbHealthy _ _ [] tables rfl (by simp) holds⟩

theorem placed_iff (request : GetWorkersToSaveBlobRequest) (choices : List DbChoice) (tables : Tables) :
    (∃ addresses after, Returns (MasterService.getWorkersToSaveBlob request) choices tables addresses after) ↔
      (∀ choice ∈ choices.take 7, DbHealthy choice) ∧ (chosenWorkers request choices tables).length = 3 ∧
        ∀ worker ∈ chosenWorkers request choices tables, ¬ HoldsCopy request.blobHash tables worker := by
  have placement := chosen_placement request choices tables
  simp only [place_returns_iff]
  constructor
  · rintro ⟨addresses, after, healthy, three, loop⟩
    refine ⟨healthy, three, fun worker member held => ?_⟩
    obtain ⟨status, failed⟩ := (reserve_refused_iff loop placement.distinct).mpr ⟨worker, member, held⟩
    cases failed
  · rintro ⟨healthy, three, none⟩
    obtain ⟨outcome, after, loop⟩ := reserve_ends request.blobHash (toInt64 request.sizeMb)
      (chosenWorkers request choices tables) tables
      (fun worker member => by
        simp [Registered, tables.workerState.find_self worker (placement.stored worker member)])
    cases outcome with
    | ok addresses => exact ⟨addresses, after, healthy, three, loop⟩
    | error status =>
        obtain ⟨worker, member, held⟩ := (reserve_refused_iff loop placement.distinct).mp ⟨status, rfl⟩
        exact absurd held (none worker member)

theorem large_places_exactly_iff (choices : List DbChoice) (large : 2 ^ 63 ≤ request.sizeMb.toNat)
    (space : WithinSpace tables.workerState.rows) :
    PlacesExactly request choices tables ↔ tables.workerState.rows.length < 3 ∨
      (∃ row ∈ ((choices.headD default).workerOrder.order tables.workerState.rows).take 3,
        HoldsCopy request.blobHash tables row) ∨
      ∃ choice ∈ choices.take 7, ¬ DbHealthy choice := by
  have negative : toInt64 request.sizeMb ≠ request.sizeMb.toNat := by
    rw [toInt64, if_neg (by omega)]
    omega
  have never : PlacesExactly request choices tables ↔ ¬ ∃ addresses after,
      Returns (MasterService.getWorkersToSaveBlob request) choices tables addresses after := by
    constructor
    · rintro ⟨exactly, -⟩ ⟨addresses, after, returned, rfl⟩
      exact negative (exactly addresses returned).converted
    · intro refused
      refine ⟨fun addresses returned => absurd ⟨addresses, _, returned, rfl⟩ refused, fun _ => ?_⟩
      cases outcome : (exec spannerSem (MasterService.getWorkersToSaveBlob request).run choices tables).1 with
      | error status => exact ⟨status, rfl⟩
      | ok addresses => exact absurd ⟨addresses, _, outcome, rfl⟩ refused
  have scanned : ((choices.headD default).workerOrder.order tables.workerState.rows).length =
      tables.workerState.rows.length :=
    ((choices.headD default).workerOrder.perm _).length_eq
  rw [never, placed_iff, chosen_large choices large space, List.length_take, scanned]
  constructor
  · intro refused
    by_cases few : tables.workerState.rows.length < 3
    · exact .inl few
    · by_cases held : ∃ row ∈ ((choices.headD default).workerOrder.order tables.workerState.rows).take 3,
          HoldsCopy request.blobHash tables row
      · exact .inr (.inl held)
      · refine .inr (.inr (Classical.by_contradiction (fun healthy => refused ⟨?_, by omega, ?_⟩)))
        · exact fun choice member =>
            Classical.by_contradiction (fun faulty => healthy ⟨choice, member, faulty⟩)
        · exact fun row member taken => held ⟨row, member, taken⟩
  · rintro (few | ⟨row, member, held⟩ | ⟨choice, member, faulty⟩) ⟨healthy, three, none⟩
    · omega
    · exact none row member held
    · exact faulty (healthy choice member)

theorem places_exactly_iff (request : GetWorkersToSaveBlobRequest) (choices : List DbChoice) (tables : Tables)
    (space : WithinSpace tables.workerState.rows) :
    PlacesExactly request choices tables ↔ request.sizeMb.toNat < 2 ^ 63 ∨
      tables.workerState.rows.length < 3 ∨
      (∃ row ∈ ((choices.headD default).workerOrder.order tables.workerState.rows).take 3,
        HoldsCopy request.blobHash tables row) ∨
      ∃ choice ∈ choices.take 7, ¬ DbHealthy choice := by
  by_cases small : request.sizeMb.toNat < 2 ^ 63
  · exact iff_of_true (small_places_exactly choices small space) (.inl small)
  · rw [large_places_exactly_iff choices (Nat.not_lt.mp small) space, or_iff_right small]

end Sizes

-- Three workers with five free megabytes each.
def fiveEach : Tables := finalState masterStep Tables.empty (threeWorkers 5)

theorem places_exactly_iff_run : PlacesExactly ⟨"7", 3⟩ [] fiveEach :=
  (places_exactly_iff ⟨"7", 3⟩ [] fiveEach (by decide +kernel)).mpr (.inl (by decide))

-- The largest size there is becomes -1.
theorem largest_size_is_placed :
    ¬ PlacesExactly ⟨"7", 18446744073709551615⟩ [] fiveEach := by
  intro places
  have placed : (exec spannerSem
      (MasterService.getWorkersToSaveBlob ⟨"7", 18446744073709551615⟩).run [] fiveEach).1 =
      .ok ["worker-2", "worker-1", "worker-0"] := by decide +kernel
  have converted := (places.1 _ placed).converted
  exact absurd converted (by decide)

end BlobStore
