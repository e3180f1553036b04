import BlobStore.SaveRules

set_option autoImplicit false

namespace BlobStore

open Effects FileSystem FrontendServiceImpl

-- A blob of this hash is on a worker and everybody can find it there.
structure StoredCopy (X : Xxh64) (blobHash : String) (cluster : Cluster) (worker : String) : Prop where
  registered : Registered cluster.tables worker
  saved : Copy .saved cluster.tables (blobHash, worker)
  file : ∃ bytes, (cluster.workers worker).content ("blobs/" ++ blobHash) = some bytes ∧
    X.blobHash bytes = blobHash

theorem stored_copy_congr {X : Xxh64} {blobHash worker : String} {before after : Cluster}
    (tables : after.tables = before.tables) (workers : after.workers = before.workers)
    (stored : StoredCopy X blobHash before worker) : StoredCopy X blobHash after worker :=
  ⟨tables ▸ stored.registered, tables ▸ stored.saved, workers ▸ stored.file⟩

theorem saved_content {address blobHash : String} {bytes : Bytes} {before after : Cluster}
    (ordinary : OrdinaryName blobHash) (saved : SavedOn address blobHash bytes before after) :
    (after.workers address).content ("blobs/" ++ blobHash) = some bytes := by
  obtain ⟨base, location, opens, workers⟩ := saved.workers
  obtain ⟨-, resolved, free⟩ := opens
  rw [join_blob blobHash ordinary] at resolved
  rw [workers, Function.update_self, content_put_file base location bytes free, if_pos resolved]

theorem stored_copy_saved {X : Xxh64} {address blobHash : String} {bytes : Bytes}
    {before after : Cluster} (ordinary : OrdinaryName blobHash)
    (saved : SavedOn address blobHash bytes before after) (verified : blobHash = X.blobHash bytes) :
    StoredCopy X blobHash after address :=
  ⟨saved.notified.registered, saved.notified.saved, bytes, saved_content ordinary saved, verified.symm⟩

theorem stored_copy_kept {X : Xxh64} {address other blobHash : String} {bytes : Bytes}
    {before after : Cluster} (saved : SavedOn address blobHash bytes before after)
    (different : other ≠ address) (stored : StoredCopy X blobHash before other) :
    StoredCopy X blobHash after other := by
  obtain ⟨base, location, -, workers⟩ := saved.workers
  obtain ⟨entry, there, is⟩ := stored.saved
  refine ⟨(saved.notified.workers other).mpr stored.registered, ⟨entry, ?_, is⟩, ?_⟩
  · rw [saved.notified.others _ (fun same => different (congrArg Prod.snd same))]
    exact there
  · rw [workers, Function.update_of_ne different]
    exact stored.file

section Observed

variable {τ : Type} {X : Xxh64} {note : (call : FrontendCall) → FrontendReply call → τ → τ}
  {ok : Choice → Prop} {trouble : Prop}

structure WatchesPlacements (note : (call : FrontendCall) → FrontendReply call → τ → τ) : Prop where
  others : ∀ call, (∀ master request, call ≠ .getWorkersToSaveBlob master request) →
    ∀ reply seen, note call reply seen = seen
  refusals : ∀ master request status seen,
    note (.getWorkersToSaveBlob master request) (.error status) seen = seen

def Outside (cluster : Cluster) (seen : τ) (whole : Cluster × τ) : Prop :=
  whole.1.tables = cluster.tables ∧ whole.1.workers = cluster.workers ∧ whole.2 = seen

theorem wp_frontend_file (watches : WatchesPlacements note) (cluster : Cluster) (seen : τ) (call : FileCall)
    (post : FileReply call → Cluster × τ → Prop) (whole : Cluster × τ) (outside : Outside cluster seen whole)
    (ends : ∀ reply after, Outside cluster seen after → post reply after) :
    wp (observed note (frontendSem X)) (EveryChoice ok) (frontendFile call) post whole := by
  rw [frontendFile, wp_perform]
  intro choices _
  exact ends _ _ ⟨outside.1, outside.2.1, (watches.others _ (by simp) _ _).trans outside.2.2⟩

theorem wp_on_frontend_files {α : Type} (watches : WatchesPlacements note) (cluster : Cluster)
    (seen : τ) (program : FileM α) (post : Except Thrown α → Cluster × τ → Prop)
    (whole : Cluster × τ) (outside : Outside cluster seen whole)
    (ends : ∀ outcome after, Outside cluster seen after → post outcome after) :
    wp (observed note (frontendSem X)) (EveryChoice ok) (Frontend.onFrontendFiles program).run post whole :=
  wp_inline_keeps frontendFile (Outside cluster seen) (wp_frontend_file watches cluster seen)
    program.run post whole outside ends

theorem wp_receive_chunks (watches : WatchesPlacements note) (cluster : Cluster) (seen : τ)
    (messages : List UploadBlobRequest) (blobFile : BlobFile) (blobHasher : BlobHasher X)
    (whole : Cluster × τ) (outside : Outside cluster seen whole) :
    wp (observed note (frontendSem X)) (EveryChoice ok) (receiveChunks X messages blobFile blobHasher).run
      (fun _ after => Outside cluster seen after) whole := by
  induction messages generalizing blobFile blobHasher whole with
  | nil => exact outside
  | cons request rest ih =>
      cases request with
      | info size => exact outside
      | notSet => exact outside
      | chunkData chunk =>
          rw [receiveChunks, wp_run_bind]
          refine wp_on_frontend_files watches cluster seen _ _ whole outside ?_
          intro outcome after kept
          cases outcome with
          | error thrown => exact kept
          | ok grown => exact ih grown _ after kept

def Hashed (cluster : Cluster) (seen : τ)
    (outcome : Except Thrown (Except Status (BlobFile × String))) (after : Cluster × τ) : Prop :=
  Outside cluster seen after ∧ ∀ received, outcome = .ok (.ok received) → OrdinaryName received.2

theorem not_hashed (cluster : Cluster) (seen : τ)
    (outcome : Except Thrown (Except Status (BlobFile × String))) (after : Cluster × τ)
    (outside : Outside cluster seen after) (failed : ∀ received, outcome ≠ .ok (.ok received)) :
    Hashed cluster seen outcome after :=
  ⟨outside, fun received returned => absurd returned (failed received)⟩

theorem wp_receive_and_hash_blob (watches : WatchesPlacements note) (cluster : Cluster) (seen : τ)
    (messages : List UploadBlobRequest) :
    wp (observed note (frontendSem X)) (EveryChoice ok) (receiveAndHashBlob X messages).run
      (Hashed cluster seen) (cluster, seen) := by
  have start : Outside cluster seen (cluster, seen) := ⟨rfl, rfl, rfl⟩
  have caught : ∀ error after, Outside cluster seen after →
      Caught (observed note (frontendSem X)) (EveryChoice ok)
      (fun what => pure (.error ⟨.cancelled, what⟩)) (Hashed cluster seen) (.error error) after :=
    fun error after kept => caught_error _ _ after (fun _ => not_hashed cluster seen _ after kept (by simp))
      (fun _ => not_hashed cluster seen _ after kept (by simp)) error
  rw [receiveAndHashBlob]
  cases messages.headD .notSet with
  | chunkData chunk => exact not_hashed cluster seen _ _ start (by simp)
  | notSet => exact not_hashed cluster seen _ _ start (by simp)
  | info blobSize =>
      refine wp_catch _ _ _ _ ?_
      rw [wp_run_bind, Frontend.rand, wp_run_perform]
      intro choices _
      have drawn : Outside cluster seen
          (observed note (frontendSem X) FrontendCall.rand choices (cluster, seen)).2 :=
        ⟨rfl, rfl, watches.others _ (by simp) _ _⟩
      dsimp only
      rw [wp_run_bind]
      refine wp_on_frontend_files watches cluster seen _ _ _ drawn ?_
      intro outcome after created
      cases outcome with
      | error thrown => exact caught thrown after created
      | ok blobFile =>
          dsimp only
          rw [wp_run_bind]
          refine wp_mono _ _ _ _ ?_ (wp_receive_chunks watches cluster seen _ blobFile _ after created)
          intro outcome after kept
          cases outcome with
          | error thrown => exact caught thrown after kept
          | ok result =>
              cases result with
              | error status => exact not_hashed cluster seen _ after kept (by simp)
              | ok received =>
                  dsimp only
                  split
                  · exact not_hashed cluster seen _ after kept (by simp)
                  · refine ⟨kept, ?_⟩
                    intro returned same
                    obtain rfl : (received.1, received.2.finalize) = returned :=
                      Except.ok.inj (Except.ok.inj same)
                    exact repr_ordinary _

-- A call that sends a blob to these workers ends well only with a copy on each.
def Sends {ε : Type} (X : Xxh64) (blobHash : String) (workers : List String) (cluster : Cluster) (seen : τ)
    (outcome : Except Thrown (Except ε Unit)) (after : Cluster × τ) : Prop :=
  after.2 = seen ∧ (outcome = .ok (.ok ()) → (∀ worker ∈ workers, StoredCopy X blobHash after.1 worker) ∧
    ∀ other, other ∉ workers → StoredCopy X blobHash cluster other → StoredCopy X blobHash after.1 other)

theorem unsent {ε : Type} (blobHash : String) (workers : List String) (cluster : Cluster) (seen : τ)
    (outcome : Except Thrown (Except ε Unit)) (after : Cluster × τ) (same : after.2 = seen)
    (failed : outcome ≠ .ok (.ok ())) :
    Sends X blobHash workers cluster seen outcome after := ⟨same, fun returned => absurd returned failed⟩

theorem wp_send_blob_to_worker (expects : Expects ok trouble)
    (writes : ∀ choice, ok choice → WholeWrites choice.file) (watches : WatchesPlacements note)
    (blob : BlobFile) (blobHash : String) (ordinary : OrdinaryName blobHash) (worker : String)
    (cluster : Cluster) (seen : τ) :
    wp (observed note (frontendSem X)) (EveryChoice ok) (sendBlobToWorker blob blobHash worker).run
      (Sends X blobHash [worker] cluster seen) (cluster, seen) := by
  have caught : ∀ error (after : Cluster × τ), after.2 = seen →
      Caught (observed note (frontendSem X)) (EveryChoice ok)
      (fun what => pure (.error ("Error while sending blob to worker: " ++ what)))
        (Sends X blobHash [worker] cluster seen)
      (.error error) after :=
    fun error after same => caught_error _ _ after (fun _ => unsent _ _ _ _ _ after same (by simp))
      (fun _ => unsent _ _ _ _ _ after same (by simp)) error
  rw [sendBlobToWorker]
  refine wp_catch _ _ _ _ ?_
  rw [wp_run_bind, BlobFile.forEach]
  refine wp_for_any_chunks MAX_CHUNK_SIZE _ _
    (fun (sent : List SaveBlobRequest) whole => Outside cluster seen whole ∧
      ∀ message ∈ sent, message.blobHash = blobHash)
    _ ?_ ?_ ?_ ?_ ?_ _ _ _ [] (cluster, seen) ⟨⟨rfl, rfl, rfl⟩, fun _ member => by cases member⟩
  · intro sent call next whole inv ends
    exact wp_frontend_file watches cluster seen call next whole inv.1
      (fun reply after kept => ends reply after ⟨kept, inv.2⟩)
  · intro sent whole chunk inv
    rw [wp_run_bind, Frontend.writeSaveBlob, wp_run_perform]
    intro choices _
    have kept : Outside cluster seen
        (observed note (frontendSem X) (.saveBlobWrite worker ⟨blobHash, chunk⟩) choices whole).2 :=
      ⟨inv.1.1, inv.1.2.1, (watches.others _ (by simp) _ _).trans inv.1.2.2⟩
    dsimp only
    split
    · refine ⟨kept, ?_⟩
      intro message member
      cases List.mem_append.mp member with
      | inl earlier => exact inv.2 message earlier
      | inr last => rw [List.mem_singleton.mp last]
    · rw [wp_run_bind, Frontend.cancelSaveBlob, wp_run_perform]
      intro more _
      exact unsent _ _ _ _ _ _ ((watches.others _ (by simp) _ _).trans kept.2.2) (by simp)
  · intro sent whole inv
    dsimp only [Caught]
    rw [wp_run_bind, Frontend.finishSaveBlob]
    obtain ⟨⟨tables, workers, same⟩, named⟩ := inv
    refine wp_run_observed_composed expects.fallback (frontendImpl X) note
      (FrontendCall.saveBlobFinish worker sent) _ whole.1 whole.2 ?_
    have quiet : ∀ reply, note (.saveBlobFinish worker sent) reply whole.2 = seen :=
      fun reply => (watches.others _ (by simp) reply _).trans same
    simp only [quiet]
    cases sent with
    | nil => exact wp_save_nothing X worker _ whole.1 (fun status after => unsent _ _ _ _ _ _ rfl (by simp))
    | cons first rest =>
        have hash : first.blobHash = blobHash := named first (by simp)
        refine wp_save_blob_call expects writes X worker first rest (hash ▸ ordinary.1) _ whole.1 ?_ ?_
        · intro after saved verified
          rw [hash] at saved verified
          refine ⟨rfl, fun _ => ⟨?_, ?_⟩⟩
          · intro each member
            rw [List.mem_singleton.mp member]
            exact stored_copy_saved ordinary saved verified
          · intro other outside stored
            exact stored_copy_kept saved (fun same => outside (by simp [same]))
              (stored_copy_congr tables workers stored)
        · exact fun _ status after => unsent _ _ _ _ _ _ rfl (by simp)
  · exact fun sent whole inv thrown => caught thrown whole inv.1.2.2
  · intro sent whole inv
    rw [Frontend.cancelSaveBlob, wp_run_perform]
    intro choices _ thrown
    exact caught thrown _ ((watches.others _ (by simp) _ _).trans inv.1.2.2)

theorem wp_send_blob_to_workers (expects : Expects ok trouble)
    (writes : ∀ choice, ok choice → WholeWrites choice.file) (watches : WatchesPlacements note)
    (blob : BlobFile) (blobHash : String) (ordinary : OrdinaryName blobHash) (workers : List String)
    (distinct : workers.Nodup) (cluster : Cluster) (seen : τ) :
    wp (observed note (frontendSem X)) (EveryChoice ok) (sendBlobToWorkers blob blobHash workers).run
      (Sends X blobHash workers cluster seen) (cluster, seen) := by
  induction workers generalizing cluster with
  | nil => exact ⟨rfl, fun _ => ⟨by simp, fun _ _ stored => stored⟩⟩
  | cons worker rest ih =>
      obtain ⟨fresh, distinctRest⟩ := List.nodup_cons.mp distinct
      rw [sendBlobToWorkers, wp_run_bind]
      refine wp_mono _ _ _ _ ?_
        (wp_send_blob_to_worker expects writes watches blob blobHash ordinary worker cluster seen)
      intro outcome after sent
      obtain ⟨middle, noted⟩ := after
      obtain ⟨rfl, stores⟩ := sent
      cases outcome with
      | error thrown => exact ⟨rfl, fun returned => by cases returned⟩
      | ok result =>
          cases result with
          | error message => exact ⟨rfl, fun returned => by cases returned⟩
          | ok _ =>
              obtain ⟨stored, others⟩ := stores rfl
              refine wp_mono _ _ _ _ ?_ (ih distinctRest middle)
              intro outcome after later
              refine ⟨later.1, ?_⟩
              intro returned
              obtain ⟨restStored, restOthers⟩ := later.2 returned
              constructor
              · intro each member
                cases List.mem_cons.mp member with
                | inl same => exact same ▸ restOthers worker fresh (stored worker (by simp))
                | inr inRest => exact restStored each inRest
              · intro other outside before
                have notInRest : other ∉ rest := fun inRest => outside (List.mem_cons_of_mem worker inRest)
                have notFirst : other ∉ [worker] := fun same => outside (by simp [List.mem_singleton.mp same])
                exact restOthers other notInRest (others other notFirst before)

end Observed

end BlobStore
