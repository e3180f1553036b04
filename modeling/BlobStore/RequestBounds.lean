import BlobStore.HandlerBounds

set_option autoImplicit false

namespace BlobStore

open Effects FileSystem FrontendServiceImpl

section Service

variable {bounds : Bounds} (X : Xxh64)

theorem bounded_frontend_files {α : Type} (program : FileM α) (post : Except Thrown α → Unit → Prop)
    (holds : meets (fileBounds bounds.TempPath True) program.run post ()) :
    meets bounds.service (Frontend.onFrontendFiles program).run post () := by
  refine (meets_inline frontendFile program.run post ()).mpr
    (meets_stricter confined_monotone ?_ program.run post () holds)
  exact fun call after _ within => ⟨within.1.1, fun reply _ => within.2 reply trivial⟩

variable {X} in
theorem bounded_receive_chunks (messages : List UploadBlobRequest) (path : String)
    (inside : bounds.TempPath path) (size : Nat) (hasher : BlobHasher X)
    (post : Except Thrown (Except Status (BlobFile × BlobHasher X)) → Unit → Prop)
    (received : ∀ size,
      post (.ok (.ok (⟨path, size⟩, hasher.addChunks (messages.map UploadBlobRequest.chunk)))) ())
    (refused : ∀ status, post (.ok (.error status)) ()) (failed : ∀ thrown, post (.error thrown) ()) :
    meets bounds.service (receiveChunks X messages ⟨path, size⟩ hasher).run post () := by
  induction messages generalizing size hasher with
  | nil => exact received size
  | cons message rest ih =>
      cases message with
      | info size => exact refused _
      | notSet => exact refused _
      | chunkData chunk =>
          rw [receiveChunks, meets_run_bind]
          exact bounded_frontend_files _ _
            (bounded_append trivial _ _ inside _ (fun size => ih size _ received) failed)

theorem bounded_upload_received (messages : List UploadBlobRequest)
    (hash : X.blobHash (messages.tail.map UploadBlobRequest.chunk).flatten = bounds.blobHash)
    (post : Except Thrown (Except Status (BlobFile × String)) → Unit → Prop)
    (received : ∀ path size, bounds.TempPath path → post (.ok (.ok (⟨path, size⟩, bounds.blobHash))) ())
    (refused : ∀ outcome, (∀ value, outcome ≠ .ok (.ok value)) → post outcome ()) :
    meets bounds.service (receiveAndHashBlob X messages).run post () := by
  have stopped : ∀ status : Status, post (.ok (.error status)) () :=
    fun _ => refused _ (fun _ same => by cases same)
  have escaped : ∀ thrown : Thrown, post (.error thrown) () :=
    fun _ => refused _ (fun _ same => by cases same)
  rw [receiveAndHashBlob]
  cases messages.headD .notSet with
  | chunkData chunk => exact stopped _
  | notSet => exact stopped _
  | info size =>
      dsimp only
      rw [meets_catch, meets_run_bind, Frontend.rand, meets_run_perform]
      refine ⟨trivial, ?_⟩
      intro drawn mine
      dsimp only
      rw [meets_run_bind]
      refine bounded_frontend_files _ _ (bounded_create trivial _ ⟨drawn, mine, rfl⟩ _ ?_ ?_)
      · dsimp only
        rw [meets_run_bind]
        refine bounded_receive_chunks messages.tail _ ⟨drawn, mine, rfl⟩ _ _ _ ?_ stopped ?_
        · intro size
          dsimp only
          rw [BlobHasher.finalize_chunks, hash]
          split
          · exact stopped _
          · exact received _ _ ⟨drawn, mine, rfl⟩
        · intro thrown
          cases thrown <;> first | exact stopped _ | exact escaped _
      · intro thrown
        cases thrown <;> first | exact stopped _ | exact escaped _

theorem bounded_upload_send (may : bounds.writes) (nonempty : bounds.blobHash ≠ "") (path : String)
    (inside : bounds.TempPath path) (size : Nat) (worker : String) (known : bounds.known worker)
    (post : Except Thrown (Except String Unit) → Unit → Prop) (ends : ∀ outcome, post outcome ()) :
    meets bounds.service (sendBlobToWorker ⟨path, size⟩ bounds.blobHash worker).run post () := by
  rw [sendBlobToWorker, meets_catch, meets_run_bind, BlobFile.forEach]
  refine meets_for_chunks _ _ _ (fun it => it.filePath = path)
    (fun sent => ∀ message ∈ sent, message.blobHash = bounds.blobHash) _ _
    ?_ ?_ ?_ ?_ ?_ _ _ _ _ rfl (fun _ inside => by cases inside)
  · intro it next same read thrown
    refine bounded_frontend_files _ _ (bounded_deref _ it (same ▸ inside) _ ?_ thrown)
    exact fun chunk later again => read chunk later (again.trans same)
  · intro sent chunk next named more left
    rw [meets_run_bind, Frontend.writeSaveBlob, meets_run_perform]
    refine ⟨trivial, ?_⟩
    rintro (_ | _) -
    · dsimp only
      rw [if_neg (by simp), meets_run_bind, Frontend.cancelSaveBlob, meets_run_perform]
      exact ⟨⟨known, nonempty, named, may⟩, fun _ _ => left _ () (ends _)⟩
    · refine more _ ?_
      intro message member
      cases List.mem_append.mp member with
      | inl earlier => exact named message earlier
      | inr last => rw [List.mem_singleton.mp last]
  · intro sent named
    dsimp only
    rw [meets_run_bind, Frontend.finishSaveBlob, meets_run_perform]
    refine ⟨⟨known, nonempty, named, may⟩, ?_⟩
    rintro (status | _) - <;> exact ends _
  · intro thrown
    cases thrown <;> exact ends _
  · intro sent next named unwound
    rw [Frontend.cancelSaveBlob, meets_run_perform]
    refine ⟨⟨known, nonempty, named, may⟩, fun _ _ => unwound _ () (fun thrown => ?_)⟩
    cases thrown <;> exact ends _

theorem bounded_upload_send_all (may : bounds.writes) (nonempty : bounds.blobHash ≠ "")
    (path : String) (inside : bounds.TempPath path) (size : Nat) (workers : List String)
    (known : ∀ worker ∈ workers, bounds.known worker)
    (post : Except Thrown (Except Status Unit) → Unit → Prop) (ends : ∀ outcome, post outcome ()) :
    meets bounds.service (sendBlobToWorkers ⟨path, size⟩ bounds.blobHash workers).run post () := by
  induction workers with
  | nil => exact ends _
  | cons worker rest ih =>
      rw [sendBlobToWorkers, meets_run_bind]
      refine bounded_upload_send may nonempty path inside size worker (known worker List.mem_cons_self) _ ?_
      rintro (thrown | ⟨message | _⟩)
      · exact ends _
      · exact ends _
      · exact ih (fun other member => known other (List.mem_cons_of_mem worker member))

-- The client is told the hash of what it sent.
theorem bounded_upload (may : bounds.writes) (service : FrontendServiceImpl)
    (messages : List UploadBlobRequest)
    (hash : X.blobHash (messages.tail.map UploadBlobRequest.chunk).flatten = bounds.blobHash) :
    meets bounds.service (service.uploadBlob X messages).run (fun outcome _ => ∀ told,
      outcome = .ok (.ok told) → told = bounds.blobHash) () := by
  have nonempty : bounds.blobHash ≠ "" := hash ▸ (blob_hash_ordinary X _).1
  rw [uploadBlob, meets_run_bind]
  refine bounded_upload_received X messages hash _ ?_ ?_
  · intro path size inside
    dsimp only
    rw [meets_run_bind, getWorkersFromMaster, meets_run_bind, meets_run_perform]
    refine ⟨⟨rfl, may⟩, ?_⟩
    rintro (status | workers) known
    · exact fun _ returned => by cases returned
    · dsimp only
      rw [meets_run_pure]
      dsimp only
      rw [meets_run_bind]
      refine bounded_upload_send_all may nonempty path inside size workers known _ ?_
      rintro (thrown | ⟨status | _⟩)
      · exact fun _ returned => by cases returned
      · exact fun _ returned => by cases returned
      · dsimp only
        rw [meets_run_bind]
        refine bounded_frontend_files _ _ (bounded_remove trivial path inside _ ?_)
        rintro (thrown | removed)
        · exact fun _ returned => by cases returned
        · exact fun _ returned => (Except.ok.inj (Except.ok.inj returned)).symm
  · rintro (thrown | ⟨status | value⟩) failed
    · exact fun _ returned => by cases returned
    · exact fun _ returned => by cases returned
    · exact absurd rfl (failed value)

theorem bounded_forward (chunks : List Bytes)
    (post : Except Thrown (Except String Unit) → Unit → Prop) (ends : ∀ outcome, post outcome ()) :
    meets bounds.service (forwardChunks chunks).run post () := by
  induction chunks with
  | nil => exact ends _
  | cons chunk rest ih =>
      rw [forwardChunks, Frontend.writeToClient, meets_run_bind, meets_run_perform]
      refine ⟨trivial, ?_⟩
      rintro (_ | _) -
      · exact ends _
      · exact ih

theorem bounded_get (service : FrontendServiceImpl) :
    meets bounds.service (service.getBlob bounds.blobHash).run (fun _ _ => True) () := by
  rw [getBlob, meets_run_bind, getWorkerWithBlobId, meets_run_bind, meets_run_perform]
  refine ⟨rfl, ?_⟩
  rintro (status | worker) known
  · trivial
  · dsimp only
    rw [meets_run_pure]
    dsimp only
    rw [Frontend.workerGetBlob, meets_run_bind, meets_run_perform]
    refine ⟨⟨known, rfl⟩, ?_⟩
    rintro stream -
    dsimp only
    rw [meets_run_bind]
    refine bounded_forward stream.chunks _ ?_
    rintro (thrown | ⟨message | _⟩) <;> trivial

theorem bounded_deletion (may : bounds.writes) (service : FrontendServiceImpl) :
    meets bounds.service (service.deleteBlob bounds.blobHash).run (fun _ _ => True) () := by
  rw [FrontendServiceImpl.deleteBlob, meets_run_bind, meets_run_perform]
  refine ⟨⟨rfl, may⟩, ?_⟩
  rintro (status | _) - <;> trivial

end Service

section Programs

variable {bounds : Bounds}
  (standing : ∀ row, bounds.workerRow row → bounds.known row.workerAddress) (X : Xxh64)

include standing

-- Whatever a frontend asks within its bounds is handled within them.
theorem bounded_handlers (call : FrontendCall) (asks : bounds.Asks call) :
    meets bounds.contract (frontendImpl X call) (fun reply _ => bounds.Answers call reply) () := by
  cases call with
  | file call => exact ⟨asks, fun _ _ => trivial⟩
  | rand => exact ⟨trivial, fun _ mine => mine⟩
  | getWorkersToSaveBlob master request =>
      obtain ⟨same, may⟩ := asks
      obtain rfl : request = { blobHash := bounds.blobHash } := same
      exact bounded_placement standing may _ (fun _ known => known) (fun _ => trivial)
  | getWorkerWithBlob master hash =>
      obtain rfl : hash = bounds.blobHash := asks
      exact bounded_lookup standing _ (fun _ known => known) (fun _ => trivial)
  | masterDeleteBlob master hash =>
      obtain ⟨same, may⟩ := asks
      obtain rfl : hash = bounds.blobHash := same
      exact bounded_delete may _ (fun _ => trivial)
  | saveBlobWrite worker request => exact ⟨trivial, fun _ _ => trivial⟩
  | saveBlobFinish worker sent => exact bounded_save X sent asks _ (fun _ => trivial)
  | saveBlobCancel worker sent =>
      rw [frontendImpl, meets_bind]
      exact bounded_save X sent asks _ (fun _ => trivial)
  | workerGetBlob worker hash =>
      obtain ⟨known, same⟩ := asks
      obtain rfl : hash = bounds.blobHash := same
      exact bounded_stream known _ (fun _ => trivial)
  | writeToClient chunk => exact ⟨trivial, fun _ _ => trivial⟩

theorem upload_bounded (service : FrontendServiceImpl) (messages : List UploadBlobRequest)
    (hash : (Request.uploadBlob service messages).blobHash X = bounds.blobHash) (may : bounds.writes) :
    meets bounds.contract ((Request.uploadBlob service messages).program X)
      (fun response _ => ∀ told, response = .uploaded (.ok (.ok told)) → told = bounds.blobHash) () := by
  rw [Request.program, map_eq_pure_bind, meets_bind]
  refine confined_inline (frontendImpl X) (bounded_handlers standing X) _ _ ?_
  refine meets_mono confined_monotone _ _ _ _ ?_ (bounded_upload X may service messages hash)
  exact fun outcome _ right told answered => right told (ClientResponse.uploaded.inj answered)

theorem request_bounded (request : Request) (hash : request.blobHash X = bounds.blobHash)
    (may : request.Writes → bounds.writes) :
    meets bounds.contract (request.program X) (fun _ _ => True) () := by
  have handlers := bounded_handlers standing X
  cases request with
  | uploadBlob service messages =>
      exact meets_mono confined_monotone _ _ _ _ (fun _ _ _ => trivial)
        (upload_bounded standing X service messages hash (may trivial))
  | getBlob service blobId =>
      obtain rfl : blobId = bounds.blobHash := hash
      rw [Request.program, map_eq_pure_bind, meets_bind]
      refine confined_inline_with (clientStreamImpl X) ?_ _ [] (bounded_get service)
      intro call received asks
      rw [clientStreamImpl, meets_bind]
      exact handlers call asks
  | deleteBlob service blobHash =>
      obtain rfl : blobHash = bounds.blobHash := hash
      rw [Request.program, map_eq_pure_bind, meets_bind]
      exact confined_inline (frontendImpl X) handlers _ _ (bounded_deletion (may trivial) service)

end Programs

end BlobStore
