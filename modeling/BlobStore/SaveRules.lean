import BlobStore.CopyRules

set_option autoImplicit false

namespace BlobStore

open Effects FileSystem WorkerService

variable {ok : Choice → Prop} {trouble : Prop}

def SaveFails (X : Xxh64) (trouble : Prop) (address : String) (messages : List SaveBlobRequest)
    (blobHash : String) (cluster : Cluster) : Prop :=
  trouble ∨ (¬ ∃ base location, Opens (cluster.workers address) blobHash base location) ∨
    blobHash ≠ X.blobHash (payload messages) ∨
    cluster.tables.blobCopy.find? (blobHash, address) = none ∨ ¬ Registered cluster.tables address

structure SavedOn (address blobHash : String) (bytes : Bytes) (before after : Cluster) : Prop where
  notified : Notified ⟨address, blobHash⟩ before.tables after.tables
  frontend : after.frontend = before.frontend
  workers : ∃ base location, Opens (before.workers address) blobHash base location ∧
    after.workers = Function.update before.workers address (base.put location (.file bytes))

theorem wp_notify_on_cluster (expects : Expects ok trouble) (request : NotifyBlobSavedRequest)
    (post : Except Status Unit → Cluster → Prop) (cluster : Cluster)
    (notified : ∀ tables, Notified request cluster.tables tables → post (.ok ()) (withTables cluster tables))
    (failed : trouble ∨ cluster.tables.blobCopy.find? (request.blobHash, request.workerAddress) = none ∨
      ¬ Registered cluster.tables request.workerAddress → ∀ status after, post (.error status) after) :
    wp clusterSem ok (unary (dbOnCluster (MasterService.notifyBlobSaved request))) post cluster := by
  refine wp_unary expects _ post cluster ?_ (fun troubled message => failed (.inl troubled) _ _)
  refine wp_db_on_cluster _ _ cluster ?_
  refine wp_mono _ _ _ _ ?_ (wp_notify_blob_saved (expected_db expects) request cluster.tables)
  intro outcome after answer
  refine ⟨?_, fun troubled message => failed (.inl troubled) _ _⟩
  cases outcome with
  | ok _ => exact notified after.1 answer
  | error status => exact failed answer status _

theorem wp_save_blob (expects : Expects ok trouble)
    (writes : ∀ choice, ok choice → WholeWrites choice.file) (X : Xxh64) (address : String)
    (first : SaveBlobRequest) (rest : List SaveBlobRequest) (named : first.blobHash ≠ "")
    (post : Except Status Unit → Cluster → Prop) (cluster : Cluster)
    (saved : ∀ after, SavedOn address first.blobHash (payload (first :: rest)) cluster after →
      first.blobHash = X.blobHash (payload (first :: rest)) → post (.ok ()) after)
    (failed : SaveFails X trouble address (first :: rest) first.blobHash cluster →
      ∀ status after, post (.error status) after) :
    wp clusterSem ok (workerOnCluster address (WorkerService.saveBlob X address (first :: rest)))
      post cluster := by
  have whole : WritesWhole (FileChoices ok) := by
    intro choice allowed
    obtain ⟨all, allowed, rfl⟩ := allowed
    exact writes all allowed
  have thrown : SaveFails X trouble address (first :: rest) first.blobHash cluster →
      ∀ error after, post (handlerStatus (.error error)) after := by
    intro fails error after
    cases error <;> exact failed fails _ after
  refine wp_worker_on_cluster address _ post cluster ?_
  rw [WorkerService.saveBlob, wp_run_bind]
  refine (worker_files expects.fallback address).inline _ _ _ cluster ?_
  refine wp_receive_blob (expected_files expects) whole X first rest named _
    (cluster.workers address) ?_ ?_ ?_
  · intro base location opens verified
    dsimp only
    rw [wp_run_bind, masterNotifyBlobSaved]
    refine wp_run_composed expects.fallback (workerImpl address)
      (WorkerCall.notifyBlobSaved ⟨address, first.blobHash⟩) _ _ ?_
    refine wp_notify_on_cluster expects ⟨address, first.blobHash⟩ _ _ ?_ ?_
    · intro tables notified
      exact saved _ ⟨notified, rfl, base, location, opens, rfl⟩ verified
    · intro fails status after
      refine failed ?_ _ after
      rcases fails with troubled | missing | unknown
      · exact .inl troubled
      · exact .inr (.inr (.inr (.inl missing)))
      · exact .inr (.inr (.inr (.inr unknown)))
  · intro base location _ mismatch
    exact failed (.inr (.inr (.inl mismatch))) _ _
  · intro fails after
    have blocked : SaveFails X trouble address (first :: rest) first.blobHash cluster := by
      cases fails with
      | inl troubled => exact .inl troubled
      | inr closed => exact .inr (.inl closed)
    exact ⟨fun error => thrown blocked error _, fun status => failed blocked _ _⟩

-- A stream without a message ends the worker's process.
theorem wp_save_nothing (X : Xxh64) (address : String) (post : Except Status Unit → Cluster → Prop)
    (cluster : Cluster) (failed : ∀ status after, post (.error status) after) :
    wp clusterSem ok (saveBlobCall X address []) post cluster := by
  have handled : workerOnCluster address (WorkerService.saveBlob X address []) =
      pure (unavailable "Socket closed") := by
    rw [workerOnCluster, WorkerService.saveBlob,
      show receiveBlobFromFrontend X [] = throw .undefinedBehaviour from receive_nothing X]
    rfl
  rw [saveBlobCall, wp_bind, rpcFate, wp_perform]
  intro choice _
  simp only [clusterSem, List.take_nil, handled]
  cases choice.fate <;> exact failed _ _

theorem wp_save_blob_call (expects : Expects ok trouble)
    (writes : ∀ choice, ok choice → WholeWrites choice.file) (X : Xxh64) (address : String)
    (first : SaveBlobRequest) (rest : List SaveBlobRequest) (named : first.blobHash ≠ "")
    (post : Except Status Unit → Cluster → Prop) (cluster : Cluster)
    (saved : ∀ after, SavedOn address first.blobHash (payload (first :: rest)) cluster after →
      first.blobHash = X.blobHash (payload (first :: rest)) → post (.ok ()) after)
    (failed : SaveFails X trouble address (first :: rest) first.blobHash cluster →
      ∀ status after, post (.error status) after) :
    wp clusterSem ok (saveBlobCall X address (first :: rest)) post cluster := by
  have lost : trouble → ∀ (handler : ClusterM (Except Status Unit)) (message : String),
      wp clusterSem ok (handler >>= fun _ => pure (unavailable message)) post cluster := by
    intro troubled handler message
    rw [wp_bind]
    exact wp_always _ _ _ (fun _ after => failed (.inl troubled) _ after)
  rw [saveBlobCall]
  refine wp_rpc expects _ post cluster
    (wp_save_blob expects writes X address first rest named post cluster saved failed) ?_
  intro troubled fate other
  cases fate with
  | delivered => exact absurd rfl other
  | requestLost message => exact failed (.inl troubled) _ _
  | replyLost message => exact lost troubled _ message
  | cut reached message => exact lost troubled _ message

end BlobStore
