import BlobStore.MasterRules
import BlobStore.Library.Runs

set_option autoImplicit false

namespace BlobStore

open Effects MasterDbRepository MasterService

-- The books an outside observer keeps of the database: the space a worker last
-- registered, and the sizes of the copies reserved on it since then.
structure Account where
  registered : Int
  reserved : Int

abbrev Books := String → Account

def Books.empty : Books := fun _ => ⟨0, 0⟩

def Books.noteSpanner : (call : SpannerCall) → SpannerReply call → Books → Books
  | .commit (.insertWorker row), .ok _, books =>
      Function.update books row.workerAddress ⟨row.availableSpaceMb, 0⟩
  | .commit (.insertBlob entry), .ok _, books =>
      Function.update books entry.workerAddress
        { books entry.workerAddress with reserved := (books entry.workerAddress).reserved + entry.sizeMb }
  | _, _, books => books

def Books.note : (call : MasterCall) → MasterReply call → Books → Books
  | .spanner call, reply, books => Books.noteSpanner call reply books
  | .deleteAtWorker _ _, _, books => books

def bookedStep (turn : MasterOp × List MasterChoice) (state : Tables × Books) :
    Except Status MasterResponse × (Tables × Books) :=
  let outcome := exec (observed Books.note masterSem) turn.1.program.run turn.2 state
  (outcome.1, outcome.2.2)

def booksAfter (turns : List (MasterOp × List MasterChoice)) : Books :=
  (finalState bookedStep (Tables.empty, Books.empty) turns).2

theorem booked_tables (turns : List (MasterOp × List MasterChoice)) (tables : Tables) (books : Books) :
    (finalState bookedStep (tables, books) turns).1 = finalState masterStep tables turns := by
  induction turns generalizing tables books with
  | nil => rfl
  | cons turn rest ih =>
      have same := (exec_observed masterSem Books.note turn.1.program.run turn.2 tables books).2
      calc (finalState bookedStep (tables, books) (turn :: rest)).1
        _ = finalState masterStep (bookedStep turn (tables, books)).2.1 rest := ih _ _
        _ = finalState masterStep (masterStep turn tables).2 rest :=
          congrArg (finalState masterStep · rest) same

-- The two columns drift apart from the books one by one, but not their difference.
def Balanced (state : Tables × Books) : Prop :=
  ∀ address row, state.1.workerState.find? address = some row →
    row.availableSpaceMb - row.lockedSpaceMb = (state.2 address).registered - (state.2 address).reserved ∧
      0 ≤ row.availableSpaceMb - row.lockedSpaceMb

def MasterOp.Admissible : MasterOp → Prop
  | .registerWorker request => 0 ≤ request.spaceAvailable
  | .getWorkersToSaveBlob request => request.sizeMb.toNat < 2 ^ 63
  | _ => True

theorem balanced_reserve (entry : BlobCopyDTO) (row : WorkerStateDTO) (tables : Tables)
    (books : Books) (rows : WorkerTable) (balanced : Balanced (tables, books))
    (current : tables.workerState.find? row.workerAddress = some row)
    (sameWorker : entry.workerAddress = row.workerAddress)
    (room : entry.sizeMb ≤ row.availableSpaceMb - row.lockedSpaceMb)
    (updated : tables.workerState.update
      { row with lockedSpaceMb := entry.sizeMb + row.lockedSpaceMb } = some rows)
    (copies : BlobTable) :
    Balanced (⟨copies, rows⟩, Books.noteSpanner (.commit (.insertBlob entry)) (.ok ()) books) := by
  intro address found present
  rw [Table.find_update updated] at present
  obtain ⟨difference, -⟩ := balanced _ _ current
  by_cases same : row.workerAddress = address
  · subst same
    rw [if_pos rfl] at present
    obtain rfl := Option.some.inj present
    simp only [Books.noteSpanner, sameWorker, Function.update_self]
    simp only at difference
    omega
  · rw [if_neg same] at present
    have other : address ≠ entry.workerAddress := fun equal => same (sameWorker ▸ equal.symm)
    simpa only [Books.noteSpanner, Function.update_of_ne other] using balanced address found present

theorem reserve_balanced (blobHash : String) (size : Int) (workers : List WorkerStateDTO)
    (tables : Tables) (books : Books) (balanced : Balanced (tables, books))
    (distinct : (workers.map WorkerStateDTO.workerAddress).Nodup)
    (current : ∀ row ∈ workers, tables.workerState.find? row.workerAddress = some row ∧
      size ≤ row.availableSpaceMb - row.lockedSpaceMb) :
    wp (observed Books.noteSpanner spannerSem) DbHealthy (reserveWorkers blobHash size workers).run
      (fun _ after => Balanced after) (tables, books) := by
  induction workers generalizing tables books with
  | nil => exact balanced
  | cons worker rest ih =>
      obtain ⟨fresh, distinctRest⟩ := List.nodup_cons.mp distinct
      obtain ⟨present, room⟩ := current worker (by simp)
      rw [reserveWorkers, wp_run_bind]
      refine wp_commit db_healthy _ _ _ _ ?_ ?_ False.elim
      · intro inserted applied
        obtain ⟨copies, -, rfl⟩ := insert_blob_apply applied
        dsimp only
        rw [wp_run_bind]
        refine wp_commit db_healthy _ _ _ _ ?_ ?_ False.elim
        · intro after applied
          obtain ⟨rows, updated, rfl⟩ := update_worker_apply applied
          dsimp only
          apply wp_run_map
          apply ih _ _ _ distinctRest
          · intro row member
            have different : worker.workerAddress ≠ row.workerAddress :=
              fun equal => fresh (List.mem_map.mpr ⟨row, member, equal.symm⟩)
            obtain ⟨stored, enough⟩ := current row (by simp [member])
            refine ⟨?_, enough⟩
            rw [Table.find_update updated]
            simpa only [different, if_false] using stored
          · exact balanced_reserve ⟨blobHash, worker.workerAddress, .duringCreation,
              size⟩ worker tables books rows
              balanced present rfl room updated copies
        · exact fun refused => absurd refused (update_worker_accepted present)
      · exact fun _ _ => balanced

theorem place_balanced (request : GetWorkersToSaveBlobRequest) (tables : Tables) (books : Books)
    (balanced : Balanced (tables, books)) :
    wp (observed Books.noteSpanner spannerSem) DbHealthy (MasterService.getWorkersToSaveBlob request).run
      (fun _ after => Balanced after) (tables, books) := by
  rw [MasterService.getWorkersToSaveBlob, wp_run_bind]
  refine wp_get_workers_with_free_space db_healthy _ _ _ _ _ ?_ ?_ False.elim
  · intro workers placement _
    apply reserve_balanced _ _ _ _ _ balanced placement.distinct
    intro row member
    exact ⟨tables.workerState.find_self row (placement.stored row member), placement.room row member⟩
  · exact fun _ _ _ => balanced

theorem notify_balanced (request : NotifyBlobSavedRequest) (tables : Tables) (books : Books)
    (balanced : Balanced (tables, books)) :
    wp (observed Books.noteSpanner spannerSem) DbHealthy (MasterService.notifyBlobSaved request).run
      (fun _ after => Balanced after) (tables, books) := by
  rw [MasterService.notifyBlobSaved, wp_run_bind]
  refine wp_query_blob db_healthy _ _ _ _ _ ?_ False.elim
  cases tables.blobCopy.find? (request.blobHash, request.workerAddress) with
  | none => exact balanced
  | some blob =>
      dsimp only [Option.toList_some]
      rw [wp_run_bind]
      refine wp_commit db_healthy _ _ _ _ ?_ ?_ False.elim
      · intro marked applied
        obtain ⟨copies, -, rfl⟩ := update_blob_apply applied
        dsimp only
        rw [wp_run_bind]
        refine wp_get_worker_state db_healthy _ _ _ _ ?_ ?_ False.elim
        · intro worker present
          refine wp_commit db_healthy _ _ _ _ ?_ ?_ False.elim
          · intro after applied
            obtain ⟨rows, updated, rfl⟩ := update_worker_apply applied
            intro address row found
            rw [Table.find_update updated] at found
            split at found
            · -- both columns lose the size, so their difference stays
              rename_i same
              obtain rfl := Option.some.inj found
              obtain ⟨difference, room⟩ := balanced _ _ ((tables.workerState.find_some_iff _ _).mpr
                ⟨((tables.workerState.find_some_iff _ _).mp present).1, same⟩)
              simp only [Books.noteSpanner] at difference room ⊢
              omega
            · exact balanced address row found
          · exact fun _ _ => balanced
        · exact fun _ _ => balanced
      · exact fun _ _ => balanced

theorem register_balanced (request : RegisterWorkerRequest) (space : 0 ≤ request.spaceAvailable)
    (tables : Tables) (books : Books) (balanced : Balanced (tables, books)) :
    wp (observed Books.noteSpanner spannerSem) DbHealthy (MasterService.registerWorker request).run
      (fun _ after => Balanced after) (tables, books) := by
  have deleted : Balanced
      (⟨tables.blobCopy, tables.workerState.delete
        (fun row => row.workerAddress = request.address)⟩, books) := by
    intro address row found
    rw [Table.find_delete, Option.filter_eq_some_iff] at found
    exact balanced address row found.1
  rw [MasterService.registerWorker, wp_run_bind]
  refine wp_commit db_healthy _ _ _ _ ?_ ?_ False.elim
  · rintro _ ⟨⟩
    dsimp only
    rw [wp_run_bind]
    refine wp_commit db_healthy _ _ _ _ ?_ ?_ False.elim
    · rintro _ ⟨⟩
      refine wp_commit db_healthy _ _ _ _ ?_ ?_ False.elim
      · intro after applied
        obtain ⟨rows, inserted, rfl⟩ := insert_worker_apply applied
        intro address row found
        rw [Table.find_insert inserted] at found
        split at found
        · rename_i same
          obtain rfl := Option.some.inj found
          subst same
          simpa [Books.noteSpanner] using space
        · rename_i different
          simpa only [Books.noteSpanner, Function.update_of_ne (Ne.symm different)] using
            deleted address row found
      · exact fun _ _ => deleted
    · exact fun _ _ => deleted
  · exact fun _ _ => balanced

theorem delete_balanced (blobHash : String) (tables : Tables) (books : Books)
    (balanced : Balanced (tables, books)) :
    wp (observed Books.note masterSem) MasterHealthy (MasterService.deleteBlob blobHash).run
      (fun _ after => Balanced after) (tables, books) := by
  rw [MasterService.deleteBlob, wp_run_bind]
  refine wp_on_db _ _ _ ?_
  refine wp_select_blobs db_healthy _ _ _ _ ?_ False.elim
  intro rows _
  dsimp only
  rw [wp_run_bind]
  refine wp_request_workers_to_delete _ (fun _ _ _ _ => rfl) _ _ ?_
  refine wp_on_db _ _ _ ?_
  refine wp_commit db_healthy _ _ _ _ ?_ ?_ False.elim
  · rintro _ ⟨⟩
    exact balanced
  · exact fun _ _ => balanced

theorem step_balanced (turn : MasterOp × List MasterChoice) (state : Tables × Books)
    (balanced : Balanced state)
    (good : (∀ choice ∈ turn.2, MasterHealthy choice) ∧ turn.1.Admissible) :
    Balanced (bookedStep turn state).2 := by
  obtain ⟨op, choices⟩ := turn
  obtain ⟨tables, books⟩ := state
  refine wp_sound MasterHealthy op.program.run (fun _ after => Balanced after) choices _ rfl good.1 ?_
  cases op with
  | registerWorker request =>
      exact wp_run_map _ _ _ _ (wp_on_db _ _ _ (register_balanced request good.2 tables books balanced))
  | getWorkersToSaveBlob request =>
      exact wp_run_map _ _ _ _ (wp_on_db _ _ _ (place_balanced request tables books balanced))
  | getWorkerWithBlob blobHash =>
      refine wp_run_map _ _ _ _ (wp_on_db _ _ _ ?_)
      rw [MasterService.getWorkerWithBlob, wp_run_bind]
      refine wp_select_blobs db_healthy _ _ _ _ ?_ False.elim
      rintro (- | ⟨copy, rest⟩) _
      · exact balanced
      · exact wp_run_map _ _ _ _ (wp_get_worker_state db_healthy _ _ _ _ (fun _ _ => balanced)
          (fun _ _ => balanced) False.elim)
  | notifyBlobSaved request =>
      exact wp_run_map _ _ _ _ (wp_on_db _ _ _ (notify_balanced request tables books balanced))
  | deleteBlob blobHash => exact wp_run_map _ _ _ _ (delete_balanced blobHash tables books balanced)

theorem reservations_never_exceed_registration (turns : List (MasterOp × List MasterChoice))
    (healthy : ∀ turn ∈ turns, ∀ choice ∈ turn.2, MasterHealthy choice)
    (admissible : ∀ turn ∈ turns, turn.1.Admissible) :
    ∀ row ∈ (finalState masterStep Tables.empty turns).workerState.rows,
      let account := booksAfter turns row.workerAddress
      0 ≤ row.availableSpaceMb - row.lockedSpaceMb ∧
        row.availableSpaceMb - row.lockedSpaceMb = account.registered - account.reserved ∧
        account.reserved ≤ account.registered := by
  have balanced : Balanced (finalState bookedStep (Tables.empty, Books.empty) turns) :=
    final_state_holds bookedStep Balanced
      (fun turn => (∀ choice ∈ turn.2, MasterHealthy choice) ∧ turn.1.Admissible)
      (fun state turn => step_balanced turn state) _ turns (fun _ _ found => by cases found)
      (fun turn member => ⟨healthy turn member, admissible turn member⟩)
  intro row member
  rw [← booked_tables turns Tables.empty Books.empty] at member
  obtain ⟨difference, room⟩ := balanced row.workerAddress row (Table.find_self _ row member)
  refine ⟨room, difference, ?_⟩
  have same : row.availableSpaceMb - row.lockedSpaceMb =
      (booksAfter turns row.workerAddress).registered -
        (booksAfter turns row.workerAddress).reserved := difference
  omega

def threeWorkers (space : Int) : List (MasterOp × List MasterChoice) :=
  [(.registerWorker ⟨"worker-0", space⟩, []), (.registerWorker ⟨"worker-1", space⟩, []),
    (.registerWorker ⟨"worker-2", space⟩, [])]

theorem reservations_never_exceed_registration_run :
    let turns := threeWorkers 5 ++
      [(.getWorkersToSaveBlob ⟨"7", 3⟩, []), (.getWorkersToSaveBlob ⟨"8", 3⟩, [])]
    let account := booksAfter turns "worker-1"
    (⟨"worker-1", 5, 3, 0⟩ : WorkerStateDTO) ∈
      (finalState masterStep Tables.empty turns).workerState.rows ∧ (0 : Int) ≤ 5 - 3 ∧
      5 - 3 = account.registered - account.reserved ∧ account.reserved ≤ account.registered := by
  intro turns account
  have stored : (⟨"worker-1", 5, 3, 0⟩ : WorkerStateDTO) ∈
      (finalState masterStep Tables.empty turns).workerState.rows := by
    decide +kernel
  exact ⟨stored, reservations_never_exceed_registration turns (by simp [turns, threeWorkers])
    (by simp [turns, threeWorkers, MasterOp.Admissible]) _ stored⟩

end BlobStore
