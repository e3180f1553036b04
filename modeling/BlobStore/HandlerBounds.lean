import BlobStore.Requests

set_option autoImplicit false

namespace BlobStore

open Effects FileSystem MasterDbRepository

section Files

variable {paths : String → Prop} {writes : Prop}

def fileBounds (paths : String → Prop) (writes : Prop) : Contract FileCall FileReply Unit :=
  confined (fun call => FileWithin paths call ∧ (Alters call → writes)) (fun _ _ => True)

theorem bounded_create_directories (post : Except Thrown Unit → Unit → Prop)
    (ends : ∀ outcome, post outcome ()) :
    meets (fileBounds paths writes) (createDirectories "blobs").run post () := by
  rw [createDirectories, meets_run_bind, meets_run_perform]
  refine ⟨⟨rfl, False.elim⟩, ?_⟩
  rintro (what | _) - <;> exact ends _

theorem bounded_create (may : writes) (name : String) (inside : paths (joinPath "blobs" name))
    (post : Except Thrown BlobFile → Unit → Prop)
    (created : post (.ok ⟨joinPath "blobs" name, 0⟩) ())
    (failed : ∀ thrown, post (.error thrown) ()) :
    meets (fileBounds paths writes) (BlobFile.create name).run post () := by
  rw [BlobFile.create, meets_run_bind]
  refine bounded_create_directories _ ?_
  rintro (thrown | _)
  · exact failed thrown
  · dsimp only
    rw [openTruncate, meets_run_bind, meets_run_perform]
    refine ⟨⟨inside, fun _ => may⟩, ?_⟩
    rintro (_ | _) -
    · exact failed _
    · exact created

theorem bounded_append (may : writes) (file : BlobFile) (chunk : Bytes)
    (inside : paths file.filePath) (post : Except Thrown BlobFile → Unit → Prop)
    (appended : ∀ size, post (.ok ⟨file.filePath, size⟩) ())
    (failed : ∀ thrown, post (.error thrown) ()) :
    meets (fileBounds paths writes) (file.appendChunk chunk).run post () := by
  rw [BlobFile.appendChunk, appendTo, meets_run_bind, meets_run_perform]
  refine ⟨⟨inside, fun _ => may⟩, ?_⟩
  rintro (_ | _) -
  · exact failed _
  · exact appended _

theorem bounded_remove (may : writes) (path : String) (inside : paths path)
    (post : Except Thrown Bool → Unit → Prop) (ends : ∀ outcome, post outcome ()) :
    meets (fileBounds paths writes) (removeFile path).run post () := by
  rw [removeFile, meets_run_bind, meets_run_perform]
  refine ⟨⟨inside, fun _ => may⟩, ?_⟩
  rintro (what | removed) - <;> exact ends _

theorem bounded_exists (path : String) (inside : paths path)
    (post : Except Thrown Bool → Unit → Prop) (ends : ∀ outcome, post outcome ()) :
    meets (fileBounds paths writes) (fileExists path).run post () := by
  rw [fileExists, meets_run_bind, meets_run_perform]
  refine ⟨⟨inside, False.elim⟩, ?_⟩
  rintro (what | present) - <;> exact ends _

theorem bounded_load (name : String) (inside : paths (joinPath "blobs" name))
    (post : Except Thrown BlobFile → Unit → Prop)
    (loaded : ∀ size, post (.ok ⟨joinPath "blobs" name, size⟩) ())
    (failed : ∀ thrown, post (.error thrown) ()) :
    meets (fileBounds paths writes) (BlobFile.load name).run post () := by
  rw [BlobFile.load, meets_run_bind]
  refine bounded_create_directories _ ?_
  rintro (thrown | _)
  · exact failed thrown
  · dsimp only
    rw [meets_run_bind]
    refine bounded_exists _ inside _ ?_
    rintro (thrown | _ | _)
    · exact failed thrown
    · exact failed _
    · dsimp only
      rw [if_pos rfl, fileSizeOf, bind_assoc, meets_run_bind, meets_run_perform]
      refine ⟨⟨inside, False.elim⟩, ?_⟩
      rintro (what | size) -
      · exact failed _
      · exact loaded size

theorem bounded_deref (maxChunk : Nat) (it : ChunkIterator) (inside : paths it.filePath)
    (post : Except Thrown (Bytes × ChunkIterator) → Unit → Prop)
    (read : ∀ chunk later, later.filePath = it.filePath → post (.ok (chunk, later)) ())
    (failed : ∀ thrown, post (.error thrown) ()) :
    meets (fileBounds paths writes) (it.deref maxChunk).run post () := by
  have reads : ∀ it : ChunkIterator, paths it.filePath → (∀ thrown, post (.error thrown) ()) →
      (∀ chunk later, later.filePath = it.filePath → post (.ok (chunk, later)) ()) →
      meets (fileBounds paths writes) (ExceptT.run (do
        let taken ← it.readChunk maxChunk
        pure (taken.1, { taken.2 with currentChunk := some taken.1 }))) post () := by
    intro it inside failed read
    rw [ChunkIterator.readChunk]
    cases it.fileStream with
    | none => exact failed _
    | some position =>
        dsimp only
        rw [readAt, bind_assoc, meets_run_bind, meets_run_perform]
        refine ⟨⟨inside, False.elim⟩, ?_⟩
        rintro buffer -
        dsimp only
        split
        · exact failed _
        · exact read _ _ rfl
  rw [ChunkIterator.deref, ChunkIterator.createStreamIfNecessary]
  cases it.fileStream with
  | some position =>
      dsimp only
      rw [pure_bind]
      cases it.currentChunk with
      | some chunk => exact read chunk it rfl
      | none => exact reads it inside failed read
  | none =>
      dsimp only
      rw [openForReading, bind_assoc, meets_run_bind, meets_run_perform]
      refine ⟨⟨inside, False.elim⟩, ?_⟩
      rintro (_ | _) -
      · exact failed _
      · dsimp only
        rw [if_pos rfl, pure_bind]
        dsimp only
        cases it.currentChunk with
        | some chunk => exact read chunk _ rfl
        | none => exact reads _ inside failed read

end Files

section Handlers

variable {bounds : Bounds} (standing : ∀ row, bounds.workerRow row → bounds.known row.workerAddress)
  (may : bounds.writes) {α : Type}

theorem bounded_unary (handler : ClusterM (Except Status α)) (post : Except Status α → Unit → Prop)
    (holds : meets bounds.contract handler post ()) (unheard : ∀ message, post (unavailable message) ()) :
    meets bounds.contract (unary handler) post () := by
  refine meets_unary confined_monotone (fun _ _ every => ⟨trivial, fun fate _ => every fate⟩)
    handler post () ?_ unheard
  exact meets_mono confined_monotone handler _ _ () (fun _ _ answered => ⟨answered, unheard⟩) holds

def rowBounds (bounds : Bounds) : Contract SpannerCall SpannerReply Unit :=
  fun call => bounds.contract (.spanner call)

theorem bounded_db (program : DbM α) (post : Except Status α → Unit → Prop) :
    meets bounds.contract (dbOnCluster program) post () ↔ meets (rowBounds bounds) program.run post () :=
  meets_inline spannerCall program.run post ()

theorem bounded_commit (mutation : Mutation) (inside : bounds.Rows (.commit mutation))
    (post : Except Status Unit → Unit → Prop) (ends : ∀ outcome, post outcome ()) :
    meets (rowBounds bounds) (commit mutation).run post () := by
  rw [commit, meets_run_bind, meets_run_perform]
  refine ⟨inside, ?_⟩
  rintro (message | _) - <;> exact ends _

theorem bounded_select_blobs (query : BlobQuery) (inside : bounds.Rows (.selectBlobs query))
    (post : Except Status (List BlobCopyDTO) → Unit → Prop)
    (found : ∀ rows, (∀ row ∈ rows, bounds.OwnRow row) → post (.ok rows) ())
    (failed : ∀ status, post (.error status) ()) :
    meets (rowBounds bounds) (selectBlobs query).run post () := by
  rw [selectBlobs, meets_run_bind, meets_run_perform]
  refine ⟨inside, ?_⟩
  rintro (message | rows) own
  · exact failed _
  · exact found rows own

theorem bounded_select_workers (query : WorkerQuery)
    (post : Except Status (List WorkerStateDTO) → Unit → Prop)
    (found : ∀ rows, (∀ row ∈ rows, bounds.workerRow row) → post (.ok rows) ())
    (failed : ∀ status, post (.error status) ()) :
    meets (rowBounds bounds) (selectWorkers query).run post () := by
  rw [selectWorkers, meets_run_bind, meets_run_perform]
  refine ⟨trivial, ?_⟩
  rintro (message | rows) known
  · exact failed _
  · exact found rows known

theorem bounded_worker_state (address : String) (post : Except Status WorkerStateDTO → Unit → Prop)
    (found : ∀ row, bounds.workerRow row → post (.ok row) ()) (failed : ∀ status, post (.error status) ()) :
    meets (rowBounds bounds) (getWorkerState address).run post () := by
  rw [getWorkerState, meets_run_bind]
  refine bounded_select_workers _ _ ?_ (fun status => failed status)
  intro rows known
  cases rows with
  | nil => exact failed _
  | cons row rest => exact found row (known row List.mem_cons_self)

include standing may in
theorem bounded_reserve (workers : List WorkerStateDTO) (stored : ∀ worker ∈ workers, bounds.workerRow worker)
    (post : Except Status (List String) → Unit → Prop)
    (placed : ∀ addresses, (∀ address ∈ addresses, bounds.known address) → post (.ok addresses) ())
    (refused : ∀ status, post (.error status) ()) :
    meets (rowBounds bounds) (MasterService.reserveWorkers bounds.blobHash 0 workers).run post () := by
  induction workers generalizing post with
  | nil => exact placed [] (fun _ inside => by cases inside)
  | cons worker rest ih =>
      have known := standing worker (stored worker List.mem_cons_self)
      have unchanged : bounds.workerRow { worker with lockedSpaceMb := 0 + worker.lockedSpaceMb } := by
        rw [Int.zero_add]
        exact stored worker List.mem_cons_self
      rw [MasterService.reserveWorkers, meets_run_bind]
      have own : bounds.Rows
          (.commit (.insertBlob ⟨bounds.blobHash, worker.workerAddress, .duringCreation, 0⟩)) :=
        ⟨⟨rfl, rfl, known⟩, may⟩
      refine bounded_commit _ own _ ?_
      rintro (status | _)
      · exact refused status
      · dsimp only
        rw [meets_run_bind]
        refine bounded_commit _ (show bounds.Rows (.commit (.updateWorker _)) from ⟨unchanged, may⟩) _ ?_
        rintro (status | _)
        · exact refused status
        · dsimp only
          rw [meets_run_bind]
          refine ih (fun other inside => stored other (List.mem_cons_of_mem worker inside)) _ ?_ refused
          intro addresses others
          refine placed _ ?_
          intro address inside
          cases List.mem_cons.mp inside with
          | inl here => exact here ▸ known
          | inr later => exact others address later

include standing may in
theorem bounded_placement (post : Except Status (List String) → Unit → Prop)
    (placed : ∀ addresses, (∀ address ∈ addresses, bounds.known address) → post (.ok addresses) ())
    (refused : ∀ status, post (.error status) ()) :
    meets bounds.contract (unary (dbOnCluster
      (MasterService.getWorkersToSaveBlob { blobHash := bounds.blobHash }))) post () := by
  refine bounded_unary _ _ ((bounded_db _ _).mpr ?_) (fun message => refused _)
  rw [MasterService.getWorkersToSaveBlob, getWorkersWithFreeSpace, bind_assoc, meets_run_bind]
  refine bounded_select_workers _ _ ?_ refused
  intro rows stored
  dsimp only
  split
  · exact refused _
  · rw [pure_bind]
    exact bounded_reserve standing may rows stored post placed refused

include standing in
theorem bounded_lookup (post : Except Status String → Unit → Prop)
    (found : ∀ address, bounds.known address → post (.ok address) ())
    (refused : ∀ status, post (.error status) ()) :
    meets bounds.contract (unary (dbOnCluster (MasterService.getWorkerWithBlob bounds.blobHash)))
      post () := by
  refine bounded_unary _ _ ((bounded_db _ _).mpr ?_) (fun message => refused _)
  rw [MasterService.getWorkerWithBlob, querySavedBlobByHash, meets_run_bind]
  refine bounded_select_blobs _ (show bounds.Rows (.selectBlobs (.savedByHash _)) from rfl) _ ?_ refused
  rintro (_ | ⟨row, rest⟩) own
  · exact refused _
  · dsimp only
    rw [meets_run_bind]
    exact bounded_worker_state _ _ (fun worker stored => found _ (standing worker stored)) refused

include may in
theorem bounded_notify (address : String) (post : Except Status Unit → Unit → Prop)
    (ends : ∀ outcome, post outcome ()) :
    meets bounds.contract
      (unary (dbOnCluster (MasterService.notifyBlobSaved ⟨address, bounds.blobHash⟩))) post () := by
  refine bounded_unary _ _ ((bounded_db _ _).mpr ?_) (fun message => ends _)
  rw [MasterService.notifyBlobSaved, queryBlobByHashAndWorkerId, meets_run_bind]
  refine bounded_select_blobs _ (show bounds.Rows (.selectBlobs (.byHashAndWorker _ _)) from rfl) _
    ?_ (fun status => ends _)
  intro rows own
  dsimp only
  split
  · rename_i row
    have mine : bounds.OwnRow row := own row List.mem_cons_self
    rw [meets_run_bind]
    refine bounded_commit _ (show bounds.Rows
      (.commit (.updateBlob { row with state := .saved })) from ⟨mine, may⟩) _ ?_
    rintro (status | _)
    · exact ends _
    · dsimp only
      rw [meets_run_bind]
      refine bounded_worker_state _ _ ?_ (fun status => ends _)
      intro worker stored
      have unchanged : bounds.workerRow { worker with
          lockedSpaceMb := worker.lockedSpaceMb - row.sizeMb
          availableSpaceMb := worker.availableSpaceMb - row.sizeMb } := by
        rw [mine.2.1, Int.sub_zero, Int.sub_zero]
        exact stored
      exact bounded_commit _ (show bounds.Rows (.commit (.updateWorker _)) from ⟨unchanged, may⟩) _ ends
  · exact ends _

def workerBounds (bounds : Bounds) (address : String) : Contract WorkerCall WorkerReply Unit :=
  fun call after => meets bounds.contract (workerImpl address call) after

theorem bounded_worker (address : String) (program : WorkerM (Except Status α))
    (post : Except Status α → Unit → Prop) :
    meets bounds.contract (workerOnCluster address program) post () ↔
      meets (workerBounds bounds address) program.run (fun outcome => post (handlerStatus outcome)) () := by
  rw [workerOnCluster, map_eq_pure_bind, meets_bind]
  exact meets_inline (workerImpl address) program.run _ ()

theorem bounded_worker_files {address : String} (known : bounds.known address) (program : FileM α)
    (post : Except Thrown α → Unit → Prop)
    (holds : meets (fileBounds bounds.BlobPath bounds.writes) program.run post ()) :
    meets (workerBounds bounds address) (onWorkerFiles program).run post () := by
  refine (meets_inline workerFile program.run post ()).mpr
    (meets_stricter confined_monotone ?_ program.run post () holds)
  intro call after _ within
  exact ⟨⟨known, within.1⟩, fun reply _ => within.2 reply trivial⟩

-- What a handler that catches makes of an exception is an outcome that is not accepted.
theorem bounded_catch {paths : String → Prop} {writes : Prop} (body : FileM (Except Status α))
    (post : Except Thrown (Except Status α) → Unit → Prop)
    (refused : ∀ outcome, (∀ value, outcome ≠ .ok (.ok value)) → post outcome ())
    (holds : meets (fileBounds paths writes) body.run
      (fun outcome _ => (∃ value, outcome = .ok (.ok value)) → post outcome ()) ()) :
    meets (fileBounds paths writes)
      (catchFileSystemException body (fun what => pure (.error ⟨.cancelled, what⟩))).run post () := by
  rw [meets_catch]
  refine meets_mono confined_monotone _ _ _ () ?_ holds
  rintro (thrown | ⟨status | value⟩) _ good
  · cases thrown <;> exact refused _ (fun _ same => by cases same)
  · exact refused _ (fun _ same => by cases same)
  · exact good ⟨value, rfl⟩

include may in
theorem bounded_receive_messages (X : Xxh64) (nonempty : bounds.blobHash ≠ "")
    (messages : List SaveBlobRequest) (size : Nat) (hasher : BlobHasher X)
    (post : Except Thrown (WorkerService.Receiving X) → Unit → Prop)
    (received : ∀ size hasher,
      post (.ok ⟨bounds.blobHash, some ⟨joinPath "blobs" bounds.blobHash, size⟩, hasher⟩) ())
    (failed : ∀ thrown, post (.error thrown) ()) :
    meets (fileBounds bounds.BlobPath bounds.writes)
      (WorkerService.receiveMessages X messages ⟨bounds.blobHash,
        some ⟨joinPath "blobs" bounds.blobHash, size⟩, hasher⟩).run post () := by
  induction messages generalizing size hasher with
  | nil => exact received size hasher
  | cons request rest ih =>
      rw [receive_message X request rest bounds.blobHash nonempty, meets_run_bind]
      refine bounded_append may _ _ (.inl rfl) _ (fun size => ih size _) failed

include may in
theorem bounded_receive (X : Xxh64) (nonempty : bounds.blobHash ≠ "")
    (messages : List SaveBlobRequest)
    (named : ∀ message ∈ messages, message.blobHash = bounds.blobHash)
    (post : Except Thrown (Except Status String) → Unit → Prop)
    (accepted : post (.ok (.ok bounds.blobHash)) ())
    (refused : ∀ outcome, (∀ hash, outcome ≠ .ok (.ok hash)) → post outcome ()) :
    meets (fileBounds bounds.BlobPath bounds.writes)
      (WorkerService.receiveBlobFromFrontend X messages).run post () := by
  cases messages with
  | nil =>
      rw [receive_nothing]
      exact refused _ (fun _ same => by cases same)
  | cons first rest =>
      have name : first.blobHash = bounds.blobHash := named first List.mem_cons_self
      have failed : ∀ thrown : Thrown,
          (∃ value, (Except.error thrown : Except Thrown (Except Status String)) = .ok (.ok value)) →
          post (.error thrown) () := fun _ good => by
        obtain ⟨_, same⟩ := good
        cases same
      rw [WorkerService.receiveBlobFromFrontend]
      refine bounded_catch _ post refused ?_
      rw [receive_first_message, bind_assoc, name, meets_run_bind]
      refine bounded_create may _ (.inl rfl) _ ?_ failed
      dsimp only
      rw [bind_assoc, meets_run_bind]
      refine bounded_append may _ _ (.inl rfl) _ (fun size => ?_) failed
      dsimp only
      rw [meets_run_bind]
      refine bounded_receive_messages may X nonempty rest size _ _ (fun size hasher => ?_) failed
      dsimp only
      split
      · rw [meets_run_bind, BlobFile.remove]
        refine bounded_remove may _ (.inl rfl) _ ?_
        rintro (thrown | removed)
        · exact failed thrown
        · exact fun good => (by obtain ⟨_, same⟩ := good; cases same)
      · exact fun _ => accepted

theorem bounded_save {address : String} (X : Xxh64) (sent : List SaveBlobRequest)
    (sends : bounds.SendsTo address sent) (post : Except Status Unit → Unit → Prop)
    (ends : ∀ outcome, post outcome ()) :
    meets bounds.contract (saveBlobCall X address sent) post () := by
  have saves : ∀ (sent : List SaveBlobRequest) (post : Except Status Unit → Unit → Prop),
      (∀ message ∈ sent, message.blobHash = bounds.blobHash) → (∀ outcome, post outcome ()) →
      meets bounds.contract (workerOnCluster address (WorkerService.saveBlob X address sent)) post () := by
    intro sent post named ends
    rw [bounded_worker, WorkerService.saveBlob, meets_run_bind]
    refine bounded_worker_files sends.known _ _
      (bounded_receive sends.writes X sends.nonempty sent named _ ?_ ?_)
    · dsimp only
      rw [masterNotifyBlobSaved, meets_run_bind, meets_run_perform]
      refine bounded_notify sends.writes address _ ?_
      rintro (status | _) <;> exact ends _
    · rintro (thrown | ⟨status | hash⟩) failed
      · exact ends _
      · exact ends _
      · exact absurd rfl (failed hash)
  rw [saveBlobCall, meets_bind, rpcFate, meets_perform]
  refine ⟨trivial, ?_⟩
  rintro (_ | message | message | ⟨reached, message⟩) -
  · exact saves sent post sends.named ends
  · exact ends _
  · exact (meets_bind _ _ _ _).mpr (saves sent _ sends.named (fun _ => ends _))
  · exact (meets_bind _ _ _ _).mpr
      (saves _ _ (fun message inside => sends.named message (List.mem_of_mem_take inside))
        (fun _ => ends _))

include may in
theorem bounded_delete_file (post : Except Thrown (Except Status Unit) → Unit → Prop)
    (ends : ∀ outcome, post outcome ()) :
    meets (fileBounds bounds.BlobPath bounds.writes)
      (WorkerService.deleteFile bounds.blobHash).run post () := by
  rw [WorkerService.deleteFile]
  refine bounded_catch _ post (fun outcome _ => ends outcome) ?_
  rw [meets_run_bind]
  refine bounded_exists _ (.inr rfl) _ ?_
  rintro (thrown | _ | _)
  · exact fun _ => ends _
  · exact fun _ => ends _
  · dsimp only
    rw [if_pos rfl, meets_run_bind]
    refine bounded_remove may _ (.inr rfl) _ ?_
    rintro (thrown | removed) <;> exact fun _ => ends _

def masterBounds (bounds : Bounds) : Contract MasterCall MasterReply Unit :=
  fun call after => meets bounds.contract (masterImpl call) after

theorem bounded_master_db (program : DbM α) (post : Except Status α → Unit → Prop) :
    meets (masterBounds bounds) (onDb program).run post () ↔ meets (rowBounds bounds) program.run post () :=
  meets_inline (fun call : SpannerCall =>
    (Program.perform (MasterCall.spanner call) : Program MasterCall MasterReply (SpannerReply call)))
    program.run post ()

include may in
theorem bounded_request (rows : List BlobCopyDTO) (own : ∀ row ∈ rows, bounds.OwnRow row)
    (post : Except Status Unit → Unit → Prop) (asked : post (.ok ()) ()) :
    meets (masterBounds bounds) (MasterService.requestWorkersToDeleteBlob rows).run post () := by
  induction rows with
  | nil => exact asked
  | cons row rest ih =>
      obtain ⟨hash, -, known⟩ := own row List.mem_cons_self
      rw [MasterService.requestWorkersToDeleteBlob, MasterService.requestWorkerToDeleteBlob,
        bind_assoc, meets_run_bind, meets_run_perform, hash]
      have later := ih (fun other inside => own other (List.mem_cons_of_mem row inside))
      refine bounded_unary _ _ ((bounded_worker _ _ _).mpr ?_) (fun _ => later)
      exact bounded_worker_files known _ _ (bounded_delete_file may _ (fun _ => later))

include may in
theorem bounded_delete (post : Except Status Unit → Unit → Prop) (ends : ∀ outcome, post outcome ()) :
    meets bounds.contract (unary (masterOnCluster (MasterService.deleteBlob bounds.blobHash))) post () := by
  refine bounded_unary _ _ ((meets_inline masterImpl _ post ()).mpr ?_) (fun message => ends _)
  rw [MasterService.deleteBlob, meets_run_bind]
  refine (bounded_master_db _ _).mpr ?_
  refine bounded_select_blobs _ (show bounds.Rows (.selectBlobs (.savedByHash _)) from rfl) _ ?_
    (fun status => ends _)
  intro rows own
  dsimp only
  rw [meets_run_bind]
  refine bounded_request may rows own _ ?_
  exact (bounded_master_db _ _).mpr
    (bounded_commit _ (show bounds.Rows (.commit (.deleteBlobsByHash _)) from ⟨rfl, may⟩) _ ends)

end Handlers

section Streams

variable {bounds : Bounds} {address : String} (known : bounds.known address)

def sendsBlob (bounds : Bounds) : WorkerCall → Prop
  | .file call => FileWithin bounds.BlobPath call ∧ (Alters call → bounds.writes)
  | .write _ => True
  | .notifyBlobSaved _ => False

def sendBounds (bounds : Bounds) : Contract WorkerCall WorkerReply Unit :=
  confined (sendsBlob bounds) (fun _ _ => True)

theorem bounded_send_files {α : Type} (program : FileM α) (post : Except Thrown α → Unit → Prop)
    (holds : meets (fileBounds bounds.BlobPath bounds.writes) program.run post ()) :
    meets (sendBounds bounds) (onWorkerFiles program).run post () := by
  refine (meets_inline workerFile program.run post ()).mpr
    (meets_stricter confined_monotone ?_ program.run post () holds)
  exact fun call after _ within => within

theorem bounded_send :
    meets (sendBounds bounds) (WorkerService.getBlob bounds.blobHash).run (fun _ _ => True) () := by
  rw [WorkerService.getBlob, WorkerService.sendBlobToFrontend, meets_catch, meets_run_bind]
  refine bounded_send_files _ _ (bounded_load bounds.blobHash (.inl rfl) _ ?_ ?_)
  · intro size
    dsimp only
    rw [meets_run_bind, BlobFile.forEach]
    refine meets_for_chunks _ _ _ (fun it => it.filePath = joinPath "blobs" bounds.blobHash)
      (fun _ => True) _ _ ?_ ?_ ?_ ?_ ?_ _ _ _ _
      rfl trivial
    · intro it next path read thrown
      refine bounded_send_files _ _ (bounded_deref _ it (.inl path) _ ?_ thrown)
      exact fun chunk later same => read chunk later (same.trans path)
    · intro _ chunk next _ more left
      rw [meets_run_bind, writeResponse, meets_run_perform]
      refine ⟨trivial, ?_⟩
      rintro (_ | _) -
      · exact left _ _ trivial
      · exact more () trivial
    · exact fun _ _ => trivial
    · intro thrown
      cases thrown <;> trivial
    · exact fun _ next _ unwound => unwound _ () (fun thrown => by cases thrown <;> trivial)
  · intro thrown
    cases thrown <;> trivial

include known in
theorem bounded_stream (post : GetBlobStream → Unit → Prop) (ends : ∀ stream, post stream ()) :
    meets bounds.contract (getBlobCall address bounds.blobHash) post () := by
  have streams : ∀ post : GetBlobStream → Unit → Prop, (∀ stream, post stream ()) →
      meets bounds.contract (workerStreamOnCluster address (WorkerService.getBlob bounds.blobHash))
        post () := by
    intro post ends
    rw [workerStreamOnCluster, meets_bind]
    refine meets_mono confined_monotone _ _ _ () (fun _ _ _ => ends _)
      (confined_inline_with (workerStreamImpl address) ?_ _ [] bounded_send)
    intro call written sends
    cases call with
    | file call => exact ⟨⟨known, sends⟩, fun _ _ => trivial⟩
    | write chunk => exact ⟨trivial, fun _ _ => trivial⟩
    | notifyBlobSaved request => exact absurd sends id
  rw [getBlobCall, meets_bind, rpcFate, meets_perform]
  refine ⟨trivial, ?_⟩
  rintro (_ | message | message | ⟨reached, message⟩) -
  · exact streams post ends
  · exact ends _
  · exact (meets_bind _ _ _ _).mpr (streams _ (fun _ => ends _))
  · exact (meets_bind _ _ _ _).mpr (streams _ (fun _ => ends _))

end Streams

end BlobStore
