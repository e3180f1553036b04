import BlobStore.BlobRules
import BlobStore.FrontendService

set_option autoImplicit false

namespace BlobStore

open Effects FrontendServiceImpl

variable {τ : Type}

-- What a contract has to allow an upload. The ghost state is one of those that are
-- serving a blob while there are workers it still has to be sent to.
structure UploadRules (contract : Contract FrontendCall FrontendReply τ) (start : τ)
    (serving : String → List String → τ → Prop) (ended : τ → Prop) : Prop where
  files : ∀ call post ghost, (∀ reply, post reply ghost) → contract (.file call) post ghost
  draws : ∀ post ghost, (∀ reply, post reply ghost) → contract .rand post ghost
  writes : ∀ worker request post ghost, (∀ reply, post reply ghost) →
    contract (.saveBlobWrite worker request) post ghost
  places : ∀ master blobHash post, OrdinaryName blobHash →
    (∀ workers after, serving blobHash workers after → post (.ok workers) after) →
    (∀ status after, ended after → post (.error status) after) →
      contract (.getWorkersToSaveBlob master { blobHash := blobHash }) post start
  finishes : ∀ blobHash worker rest sent post ghost, serving blobHash (worker :: rest) ghost →
    (∀ message ∈ sent, message.blobHash = blobHash) →
    (∀ reply after, serving blobHash rest after → post reply after) →
      contract (.saveBlobFinish worker sent) post ghost
  cancels : ∀ blobHash worker rest sent post ghost, serving blobHash (worker :: rest) ghost →
    (∀ message ∈ sent, message.blobHash = blobHash) →
    (∀ reply after, serving blobHash rest after → post reply after) →
      contract (.saveBlobCancel worker sent) post ghost
  skips : ∀ blobHash worker rest ghost, serving blobHash (worker :: rest) ghost → serving blobHash rest ghost
  serves : ∀ blobHash rest ghost, serving blobHash rest ghost → ended ghost
  idle : ended start

section Upload

variable {contract : Contract FrontendCall FrontendReply τ} {start : τ}
  {serving : String → List String → τ → Prop}
  {ended : τ → Prop} (rules : UploadRules contract start serving ended)

include rules

theorem upload_files {α : Type} (program : FileM α) (post : Except Thrown α → τ → Prop) (ghost : τ)
    (ends : ∀ outcome, post outcome ghost) :
    meets contract (Frontend.onFrontendFiles program).run post ghost :=
  (meets_inline frontendFile program.run post ghost).mpr
    (meets_always program.run post ghost (fun call after every => rules.files call after ghost every) ends)

theorem upload_receive_chunks (X : Xxh64) (messages : List UploadBlobRequest) (file : BlobFile)
    (hasher : BlobHasher X)
    (post : Except Thrown (Except Status (BlobFile × BlobHasher X)) → τ → Prop) (ghost : τ)
    (ends : ∀ outcome, post outcome ghost) :
    meets contract (receiveChunks X messages file hasher).run post ghost := by
  induction messages generalizing file hasher with
  | nil => exact ends _
  | cons message rest ih =>
      cases message with
      | info size => exact ends _
      | notSet => exact ends _
      | chunkData chunk =>
          rw [receiveChunks, meets_run_bind]
          refine upload_files rules _ _ ghost ?_
          rintro (thrown | grown)
          · exact ends _
          · exact ih grown _

theorem upload_receive (X : Xxh64) (messages : List UploadBlobRequest)
    (post : Except Thrown (Except Status (BlobFile × String)) → τ → Prop) (ghost : τ)
    (received : ∀ file blobHash, OrdinaryName blobHash → post (.ok (.ok (file, blobHash))) ghost)
    (refused : ∀ status, post (.ok (.error status)) ghost) (thrown : ∀ error, post (.error error) ghost) :
    meets contract (receiveAndHashBlob X messages).run post ghost := by
  rw [receiveAndHashBlob]
  cases messages.headD .notSet with
  | chunkData chunk => exact refused _
  | notSet => exact refused _
  | info size =>
      dsimp only
      rw [meets_catch, meets_run_bind, Frontend.rand, meets_run_perform]
      refine rules.draws _ ghost ?_
      intro drawn
      dsimp only
      rw [meets_run_bind]
      refine upload_files rules _ _ ghost ?_
      rintro (error | file)
      · cases error with
        | fileSystemException what => exact refused _
        | _ => exact thrown _
      · dsimp only
        rw [meets_run_bind]
        refine upload_receive_chunks rules X messages.tail file _ _ ghost ?_
        rintro (error | ⟨status | ⟨grown, hasher⟩⟩)
        · cases error with
          | fileSystemException what => exact refused _
          | _ => exact thrown _
        · exact refused _
        · dsimp only
          split
          · exact refused _
          · exact received grown _ (repr_ordinary _)

theorem upload_send (blob : BlobFile) (blobHash worker : String) (rest : List String)
    (post : Except Thrown (Except String Unit) → τ → Prop) (ghost : τ)
    (now : serving blobHash (worker :: rest) ghost)
    (ends : ∀ outcome after, serving blobHash rest after → post outcome after) :
    meets contract (sendBlobToWorker blob blobHash worker).run post ghost := by
  have skipped := rules.skips blobHash worker rest ghost now
  rw [sendBlobToWorker, meets_catch, meets_run_bind, BlobFile.forEach]
  refine meets_for_chunks _ _ _ (fun _ => True)
    (fun sent => ∀ message ∈ sent, message.blobHash = blobHash) _ _ ?_ ?_ ?_ ?_ ?_ _ _ _ _
    trivial (fun _ inside => by cases inside)
  · intro it next _ read thrown
    refine upload_files rules _ _ _ ?_
    rintro (error | ⟨chunk, later⟩)
    · exact thrown error
    · exact read chunk later trivial
  · intro sent chunk next named more left
    rw [meets_run_bind, Frontend.writeSaveBlob, meets_run_perform]
    refine rules.writes _ _ _ ghost ?_
    rintro (_ | _)
    · dsimp only
      rw [if_neg (by simp), meets_run_bind, Frontend.cancelSaveBlob, meets_run_perform]
      exact rules.cancels blobHash worker rest sent _ ghost now named
        (fun _ after kept => left _ after (ends _ after kept))
    · refine more _ ?_
      intro message inside
      cases List.mem_append.mp inside with
      | inl earlier => exact named message earlier
      | inr last => rw [List.mem_singleton.mp last]
  · intro sent named
    dsimp only
    rw [meets_run_bind, Frontend.finishSaveBlob, meets_run_perform]
    refine rules.finishes blobHash worker rest sent _ ghost now named ?_
    rintro (status | _) after kept <;> exact ends _ after kept
  · intro thrown
    cases thrown <;> exact ends _ ghost skipped
  · intro sent next named unwound
    rw [Frontend.cancelSaveBlob, meets_run_perform]
    refine rules.cancels blobHash worker rest sent _ ghost now named ?_
    intro _ after kept
    refine unwound _ after (fun thrown => ?_)
    cases thrown <;> exact ends _ after kept

theorem upload_send_all (blob : BlobFile) (blobHash : String) (workers : List String)
    (post : Except Thrown (Except Status Unit) → τ → Prop) (ghost : τ) (now : serving blobHash workers ghost)
    (ends : ∀ outcome rest after, serving blobHash rest after → post outcome after) :
    meets contract (sendBlobToWorkers blob blobHash workers).run post ghost := by
  induction workers generalizing ghost with
  | nil => exact ends _ _ ghost now
  | cons worker rest ih =>
      rw [sendBlobToWorkers, meets_run_bind]
      refine upload_send rules blob blobHash worker rest _ ghost now ?_
      rintro (thrown | ⟨message | _⟩) after kept
      · exact ends _ _ after kept
      · exact ends _ _ after kept
      · exact ih after kept

-- An upload that stores its blob ends with the blob it has served.
theorem upload_ends (X : Xxh64) (service : FrontendServiceImpl) (messages : List UploadBlobRequest)
    (post : Except Thrown (Except Status String) → τ → Prop)
    (refused : ∀ outcome after, (∀ told, outcome ≠ .ok (.ok told)) → ended after → post outcome after)
    (stored : ∀ told rest after, serving told rest after → post (.ok (.ok told)) after) :
    meets contract (service.uploadBlob X messages).run post start := by
  have failed : ∀ status after, ended after → post (.ok (.error status)) after :=
    fun status after => refused _ after (fun _ same => by cases same)
  have thrownOut : ∀ thrown after, ended after → post (.error thrown) after :=
    fun thrown after => refused _ after (fun _ same => by cases same)
  rw [uploadBlob, meets_run_bind]
  refine upload_receive rules X messages _ start ?_ (fun _ => failed _ _ rules.idle)
    (fun _ => thrownOut _ _ rules.idle)
  intro file blobHash ordinary
  dsimp only
  rw [meets_run_bind, getWorkersFromMaster, meets_run_bind, meets_run_perform]
  refine rules.places _ blobHash _ ordinary ?_ (fun _ after => failed _ after)
  intro workers after serves
  dsimp only
  rw [meets_run_pure]
  dsimp only
  rw [meets_run_bind]
  refine upload_send_all rules file blobHash workers _ after serves ?_
  rintro (thrown | ⟨status | _⟩) rest later serves
  · exact thrownOut _ _ (rules.serves _ _ _ serves)
  · exact failed _ _ (rules.serves _ _ _ serves)
  · dsimp only
    rw [meets_run_bind]
    refine upload_files rules _ _ later ?_
    rintro (thrown | removed)
    · exact thrownOut _ _ (rules.serves _ _ _ serves)
    · exact stored _ _ _ serves

theorem upload_meets (X : Xxh64) (service : FrontendServiceImpl) (messages : List UploadBlobRequest) :
    meets contract (service.uploadBlob X messages).run (fun _ => ended) start :=
  upload_ends rules X service messages _ (fun _ _ _ ends => ends)
    (fun _ _ _ serves => rules.serves _ _ _ serves)

end Upload

end BlobStore
