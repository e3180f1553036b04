import BlobStore.MasterOutcomes

set_option autoImplicit false

namespace BlobStore

open Effects MasterDbRepository MasterService

theorem referential_registered {tables : Tables} (referential : Referential tables)
    {key : String × String} {entry : BlobCopyDTO} (found : tables.blobCopy.find? key = some entry) :
    Registered tables key.2 := by
  obtain ⟨stored, rfl⟩ := (tables.blobCopy.find_some_iff _ _).mp found
  obtain ⟨row, present⟩ := referential entry stored
  exact fun absent => by cases absent.symm.trans present

theorem reserved_referential {blobHash : String} {size : Int} {worker : WorkerStateDTO}
    {before after : Tables} (round : Reserved blobHash size worker before after)
    (referential : Referential before) : Referential after := by
  have present : before.workerState.find? worker.workerAddress ≠ none := by
    intro absent
    have refused :=
      (before.workerState.update_none_iff
        { worker with lockedSpaceMb := size + worker.lockedSpaceMb }).mpr absent
    rw [round.updated] at refused
    cases refused
  obtain ⟨old, current⟩ := Option.ne_none_iff_exists'.mp present
  exact referential_reserve referential round.inserted current round.updated

-- However far the loop gets, every row it leaves is of a worker it was given.
theorem reserve_referential {blobHash : String} {size : Int} {workers : List WorkerStateDTO}
    {before after : Tables} {outcome : Except Status (List String)}
    (loop : ReserveOutcome blobHash size workers before outcome after)
    (referential : Referential before) : Referential after := by
  induction loop with
  | done tables => exact referential
  | refused worker rest tables status taken => exact referential
  | reserved worker rest before middle after outcome round later ih =>
      exact ih (reserved_referential round referential)

theorem place_referential {blobHash : String} {size : Int} {before after : Tables}
    {outcome : Except Status (List String)}
    (placed : PlaceOutcome blobHash size before outcome after) (referential : Referential before) :
    Referential after := by
  cases placed with
  | short status => exact referential
  | chosen workers outcome after placement three loop => exact reserve_referential loop referential

theorem notify_referential {request : NotifyBlobSavedRequest} {before after : Tables}
    {outcome : Except Status Unit} (notified : NotifyOutcome request before outcome after)
    (referential : Referential before) : Referential after := by
  have marked : ∀ (blob : BlobCopyDTO) (copies : BlobTable),
      before.blobCopy.find? (request.blobHash, request.workerAddress) = some blob →
      before.blobCopy.update { blob with state := .saved } = some copies →
        Referential { before with blobCopy := copies } := by
    intro blob copies found updated
    have stored := ((before.blobCopy.find_some_iff _ _).mp found).1
    have current : before.blobCopy.find? (BlobCopyDTO.key { blob with state := .saved }) = some blob :=
      before.blobCopy.find_self blob stored
    exact referential_mark referential current updated
  cases notified with
  | unknown status absent => exact referential
  | unregistered status blob copies found updated absent => exact marked blob copies found updated
  | saved blob worker copies rows found updated present moved =>
      exact fun entry member => registered_after_update moved _
        (marked blob copies found updated entry member)

-- A notification is accepted exactly when it finds its row; the worker of the row
-- is there by the invariant.
theorem notified_iff {request : NotifyBlobSavedRequest} {before after : Tables} {outcome : Except Status Unit}
    (notified : NotifyOutcome request before outcome after) (referential : Referential before) :
    outcome = .ok () ↔ ∃ entry,
      before.blobCopy.find? (request.blobHash, request.workerAddress) = some entry := by
  cases notified with
  | unknown status absent => simp [absent]
  | unregistered status blob copies found updated absent =>
      exact absurd absent (referential_registered referential found)
  | saved blob worker copies rows found updated present moved => exact iff_of_true rfl ⟨blob, found⟩

def Answers (op : MasterOp) (tables : Tables) (result : Except Status MasterResponse) : Prop :=
  match op with
  | .getWorkerWithBlob blobHash =>
      ((∃ response, result = .ok response) ↔ ∃ address, Copy .saved tables (blobHash, address)) ∧
        ∀ response, result = .ok response →
          ∃ address, response = .address address ∧ Registered tables address ∧
            Copy .saved tables (blobHash, address)
  | .notifyBlobSaved request =>
      (∃ response, result = .ok response) ↔
        ∃ entry, tables.blobCopy.find? (request.blobHash, request.workerAddress) = some entry
  | _ => True

theorem map_ok_iff {α β : Type} (convert : α → β) (outcome : Except Status α) :
    (∃ response, outcome.map convert = .ok response) ↔ ∃ value, outcome = .ok value := by
  cases outcome with
  | error status => simp [Except.map]
  | ok value => simp [Except.map]

theorem lookup_answers {blobHash : String} {before after : Tables} {outcome : Except Status String}
    (answer : LookupAnswer False blobHash before outcome after) (referential : Referential before) :
    after = before ∧ Answers (.getWorkerWithBlob blobHash) before (outcome.map .address) := by
  have registered : ∀ address, Copy .saved before (blobHash, address) → Registered before address :=
    fun address ⟨_, found, _⟩ => referential_registered referential found
  cases outcome with
  | ok address =>
      obtain ⟨same, copy⟩ := answer
      refine ⟨same, iff_of_true ⟨_, rfl⟩ ⟨address, copy⟩, ?_⟩
      rintro response ⟨⟩
      exact ⟨address, rfl, registered address copy, copy⟩
  | error status =>
      obtain ⟨⟨⟩⟩ | ⟨same, missing⟩ := answer
      have none : ∀ address, ¬ Copy .saved before (blobHash, address) := by
        rcases missing with none | ⟨address, copy, lost⟩
        · exact none
        · exact absurd (registered address copy) lost
      refine ⟨same, iff_of_false ?_ ?_, ?_⟩
      · rintro ⟨_, ⟨⟩⟩
      · exact fun ⟨address, copy⟩ => none address copy
      · rintro _ ⟨⟩

theorem step_answers (turn : MasterOp × List MasterChoice) (tables : Tables)
    (healthy : ∀ choice ∈ turn.2, MasterHealthy choice) (referential : Referential tables) :
    Answers turn.1 tables (masterStep turn tables).1 ∧ Referential (masterStep turn tables).2 := by
  obtain ⟨op, choices⟩ := turn
  cases op with
  | registerWorker request =>
      obtain ⟨outcome, -, registered⟩ := register_step request choices tables healthy
      refine ⟨trivial, ?_⟩
      have kept := referential_register registered.inserted referential
      rwa [← registered.copies] at kept
  | getWorkersToSaveBlob request =>
      obtain ⟨outcome, -, placed⟩ := place_step request choices tables healthy
      exact ⟨trivial, place_referential placed referential⟩
  | getWorkerWithBlob blobHash =>
      obtain ⟨outcome, result, answer⟩ := lookup_step blobHash choices tables healthy
      obtain ⟨same, answers⟩ := lookup_answers answer referential
      rw [result, same]
      exact ⟨answers, referential⟩
  | notifyBlobSaved request =>
      obtain ⟨outcome, result, notified⟩ := notify_step request choices tables healthy
      refine ⟨?_, notify_referential notified referential⟩
      rw [Answers, result, map_ok_iff, ← notified_iff notified referential]
      exact ⟨fun ⟨_, accepted⟩ => accepted, fun accepted => ⟨(), accepted⟩⟩
  | deleteBlob blobHash =>
      rw [delete_step blobHash choices tables healthy]
      exact ⟨trivial, referential_delete referential _⟩

-- The lookup takes two queries of two tables; what keeps the second from failing is
-- that no operation leaves a copy without its worker.
theorem copies_keep_their_workers (turns : List (MasterOp × List MasterChoice))
    (healthy : ∀ turn ∈ turns, ∀ choice ∈ turn.2, MasterHealthy choice) :
    Referential (finalState masterStep Tables.empty turns) ∧
      ∀ taken ∈ transitions masterStep Tables.empty turns,
        Referential taken.before ∧ Answers taken.op.1 taken.before taken.result ∧
          Referential taken.after := by
  have start : Referential Tables.empty := fun _ member => by cases member
  constructor
  · exact final_state_holds masterStep Referential (fun turn => ∀ choice ∈ turn.2, MasterHealthy choice)
      (fun tables turn referential good => (step_answers turn tables good referential).2)
        _ turns start healthy
  · refine transitions_hold masterStep Referential (fun turn _ => ∀ choice ∈ turn.2, MasterHealthy choice)
      (fun taken => Answers taken.op.1 taken.before taken.result) ?_ _ turns start ?_
    · exact fun tables turn referential good => step_answers turn tables good referential
    · exact fun taken member => healthy taken.op (transition_op masterStep _ turns taken member)

theorem copies_keep_their_workers_run :
    let turns := threeWorkers 5 ++
      [(.getWorkersToSaveBlob ⟨"7", 3⟩, []), (.notifyBlobSaved ⟨"worker-1", "7"⟩, []),
      (.getWorkerWithBlob "7", []), (.registerWorker ⟨"worker-1", 5⟩, []), (.getWorkerWithBlob "7", [])]
    Referential (finalState masterStep Tables.empty turns) ∧
      ∀ taken ∈ transitions masterStep Tables.empty turns,
        Referential taken.before ∧ Answers taken.op.1 taken.before taken.result ∧ Referential taken.after :=
  copies_keep_their_workers _ (by simp [threeWorkers])

end BlobStore
