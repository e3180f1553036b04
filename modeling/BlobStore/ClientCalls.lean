import BlobStore.BlobMap
import BlobStore.FrontendGetBlob

set_option autoImplicit false

namespace BlobStore

open Effects FileSystem MasterDbRepository FrontendServiceImpl

variable {X : Xxh64} {blobs : List Bytes} {cluster : Cluster} {map : BlobMap X}

section Upload

theorem wp_place (blobHash master : String)
    (post : Except Thrown (Except Status (List String)) → Cluster → Prop) (cluster : Cluster)
    (named : ∀ addresses tables, Named blobHash 0 cluster.tables tables addresses →
      post (.ok (.ok addresses)) (withTables cluster tables))
    (refused : ∀ status tables, Reserves blobHash cluster.tables tables →
      Unplaceable blobHash 0 cluster.tables →
      post (.ok (.error status)) (withTables cluster tables)) :
    wp (frontendSem X) (EveryChoice Healthy) (getWorkersFromMaster blobHash master).run post cluster := by
  have watched : wp (observed quietFrontend (frontendSem X)) (EveryChoice Healthy)
      (getWorkersFromMaster blobHash master).run
      (fun outcome after => post outcome after.1) (cluster, ()) := by
    refine wp_get_workers_from_master expects_healthy watches_quietly blobHash master _ cluster () named ?_
    intro status tables stopped
    obtain ⟨reserves, cause⟩ := stopped.resolve_left id
    exact refused status tables reserves cause
  exact (wp_observed_iff _ post cluster ()).mp watched

-- One worker after the other. The map has the blob from the first one on.
theorem wp_send_all (apart : TellsApart X blobs) (path : String) (bytes : Bytes)
    (some_ : bytes ≠ []) (uploaded : bytes ∈ blobs) (workers : List String)
    (distinct : workers.Nodup) (cluster : Cluster) (map target : BlobMap X)
    (represents : Represents X blobs cluster map)
    (readable : cluster.frontend.content path = some bytes)
    (placed : ∀ worker ∈ workers, cluster.tables.blobCopy.find? (X.blobHash bytes, worker) ≠ none)
    (arrives : map.put bytes = target) (arrived : workers = [] → map = target) :
    wp (frontendSem X) (EveryChoice Healthy)
      (sendBlobToWorkers ⟨path, bytes.length⟩ (X.blobHash bytes) workers).run
      (fun outcome after => outcome = .ok (.ok ()) ∧ Represents X blobs after target ∧
        after.frontend = cluster.frontend) cluster := by
  induction workers generalizing cluster map with
  | nil => exact ⟨rfl, arrived rfl ▸ represents, rfl⟩
  | cons worker rest ih =>
      obtain ⟨fresh, distinctRest⟩ := List.nodup_cons.mp distinct
      have here := placed worker (by simp)
      have registered := represents.registered _ here
      have shelf := represents.shelves worker registered
      have opens := opens_blob _ shelf.blobs (X.blobHash bytes) (blob_hash_ordinary X bytes)
        (shelf_free shelf _)
      rw [sendBlobToWorkers, wp_run_bind]
      refine wp_mono _ _ _ _ ?_
        (wp_send_whole path (X.blobHash bytes) bytes rfl some_ worker cluster readable
          ⟨_, _, opens⟩ here registered)
      intro outcome after sent
      obtain ⟨rfl, saved⟩ := sent
      dsimp only
      refine wp_mono _ _ _ _ ?_ (ih distinctRest after target
        (arrives ▸ represents_saved represents apart uploaded registered saved)
          (saved.frontend ▸ readable) ?_ ?_ (fun _ => rfl))
      · intro outcome last done
        exact ⟨done.1, done.2.1, done.2.2.trans saved.frontend⟩
      · intro other member
        have different : (X.blobHash bytes, other) ≠ (X.blobHash bytes, worker) :=
          fun same => fresh ((Prod.mk.inj same).2 ▸ member)
        rw [saved.notified.others _ different]
        exact placed other (List.mem_cons_of_mem worker member)
      · rw [← arrives]
        exact map.put_again bytes

def UploadAnswer (X : Xxh64) (blobs : List Bytes) (bytes : Bytes) (before : Cluster) (map : BlobMap X)
    (outcome : Except Thrown (Except Status String)) (after : Cluster) : Prop :=
  (outcome = .ok (.ok (X.blobHash bytes)) ∧ Represents X blobs after (map.put bytes)) ∨
    ((∃ status, outcome = .ok (.error status)) ∧ Unplaceable (X.blobHash bytes) 0 before.tables ∧
      Represents X blobs after map)

theorem wp_upload_whole (represents : Represents X blobs cluster map) (apart : TellsApart X blobs)
    (service : FrontendServiceImpl) (chunks : List Bytes) (some_ : chunks.flatten ≠ [])
    (fits : chunks.flatten.length < 2 ^ 64) (uploaded : chunks.flatten ∈ blobs) :
    wp (frontendSem X) (EveryChoice Healthy) (service.uploadBlob X (uploadOf chunks)).run
      (UploadAnswer X blobs chunks.flatten cluster map) cluster := by
  have usable := represents.frontend
  rw [uploadBlob, wp_run_bind]
  refine wp_mono _ _ _ _ ?_ (wp_receive_upload chunks fits cluster usable)
  intro outcome received inFrontend
  obtain ⟨name, ordinary, rfl, rfl⟩ := inFrontend
  have resolved := resolve_blob cluster.frontend usable.blobs name ordinary
  have readable : (cluster.frontend.put (blobLocation cluster.frontend name)
      (.file chunks.flatten)).content ("blobs/" ++ name) =
      some chunks.flatten := by
    rw [content_put_file _ _ _ (usable.free name), if_pos resolved]
  have holding : Usable (cluster.frontend.put (blobLocation cluster.frontend name) (.file chunks.flatten)) :=
    usable_changed usable name (changes_put _ _ _) (by simp)
  have gone : Usable ((cluster.frontend.put (blobLocation cluster.frontend name) (.file chunks.flatten)).erase
      (blobLocation cluster.frontend name)) := by
    rw [erase_put]
    exact usable_changed usable name (changes_erase _ _) (by simp)
  dsimp only
  rw [wp_run_bind]
  refine wp_place _ _ _ _ ?_ ?_
  · intro addresses tables named
    have started := represents_reserved (represents_frontend represents _ holding) named.reserves
    dsimp only
    rw [wp_run_bind]
    refine wp_mono _ _ _ _ ?_ (wp_send_all apart ("blobs/" ++ name) chunks.flatten some_ uploaded
      addresses named.distinct _ map _
      started readable ?_ rfl ?_)
    · intro outcome sent done
      obtain ⟨rfl, stored, frontend⟩ := done
      dsimp only [withTables, withFrontend] at frontend ⊢
      rw [wp_run_bind]
      refine (frontend_files X).inline _ _ _ _ ?_
      rw [frontend]
      refine wp_remove_file tolerates_healthy _ _ _ (blobLocation cluster.frontend name) chunks.flatten
        ((resolve_put_file _ _ _ (usable.free name) _).trans resolved) (by simp) ?_ False.elim
      exact .inl ⟨rfl, represents_frontend stored _ gone⟩
    · intro worker member absent
      obtain ⟨entry, there, -⟩ := named.created worker member
      rw [show tables.blobCopy.find? (X.blobHash chunks.flatten, worker) = none from absent] at there
      cases there
    · intro none
      have three := named.three
      rw [none] at three
      cases three
  · intro status tables reserves cause
    exact .inr ⟨⟨status, rfl⟩, cause, represents_reserved (represents_frontend represents _ holding) reserves⟩

end Upload

section Get

theorem wp_forward_all (chunks received : List Bytes) (cluster : Cluster) :
    wp (observed noteClient (frontendSem X)) (EveryChoice Healthy) (forwardChunks chunks).run
      (fun outcome after => outcome = .ok (.ok ()) ∧ after = (cluster, received ++ chunks))
        (cluster, received) := by
  induction chunks generalizing received with
  | nil => exact ⟨rfl, by rw [List.append_nil]⟩
  | cons chunk rest ih =>
      rw [forwardChunks, wp_run_bind, Frontend.writeToClient]
      refine wp_run_observed_composed healthy_default (frontendImpl X) noteClient
        (FrontendCall.writeToClient chunk) _ cluster
        received ?_
      refine wp_stream_open expects_healthy _ cluster ?_ False.elim
      have later := ih (received ++ [chunk])
      rw [List.append_assoc, List.singleton_append] at later
      exact later

def GetAnswer (map : BlobMap X) (blobHash : String) (result : Except Thrown (Except Status Unit))
    (written : List Bytes) : Prop :=
  match map.lookup blobHash with
  | some bytes => result = .ok (.ok ()) ∧ written.flatten = bytes
  | none => ∃ status, result = .ok (.error status)

theorem wp_lookup (represents : Represents X blobs cluster map) (blobHash master : String)
    (post : Except Thrown (Except String String) → Cluster × List Bytes → Prop)
    (found : ∀ worker, Copy .saved cluster.tables (blobHash, worker) → post (.ok (.ok worker)) (cluster, []))
    (absent : map.lookup blobHash = none → ∀ message, post (.ok (.error message)) (cluster, [])) :
    wp (observed noteClient (frontendSem X)) (EveryChoice Healthy)
      (getWorkerWithBlobId blobHash master).run post (cluster, []) := by
  rw [getWorkerWithBlobId, wp_run_bind]
  refine wp_run_observed_composed healthy_default (frontendImpl X) noteClient
    (FrontendCall.getWorkerWithBlob master blobHash) _ cluster [] ?_
  refine wp_unary expects_healthy _ _ cluster ?_ False.elim
  refine wp_db_on_cluster _ _ cluster ?_
  refine wp_mono _ _ _ _ ?_ (wp_get_worker_with_blob (expected_db expects_healthy) blobHash cluster.tables)
  intro outcome after answer
  refine ⟨?_, False.elim⟩
  cases outcome with
  | ok worker =>
      obtain ⟨same, copy⟩ := answer
      rw [same]
      exact found worker copy
  | error status =>
      obtain ⟨same, cause⟩ := answer.resolve_left id
      rw [same]
      refine absent ?_ status.message
      cases held : map.lookup blobHash with
      | none => rfl
      | some bytes =>
          exfalso
          cases cause with
          | inl nobody =>
              obtain ⟨worker, copy⟩ := represents.backed blobHash bytes held
              exact nobody worker copy
          | inr stranger =>
              obtain ⟨worker, ⟨entry, there, -⟩, unknown⟩ := stranger
              exact unknown (represents.registered (blobHash, worker) (by simp [there]))

theorem wp_get_whole (represents : Represents X blobs cluster map) (service : FrontendServiceImpl)
    (blobHash : String) :
    wp (observed noteClient (frontendSem X)) (EveryChoice Healthy) (service.getBlob blobHash).run
      (fun outcome after => after.1 = cluster ∧ GetAnswer map blobHash outcome after.2) (cluster, []) := by
  rw [FrontendServiceImpl.getBlob, wp_run_bind]
  refine wp_lookup represents blobHash _ _ ?_ ?_
  · intro worker copy
    obtain ⟨bytes, held, stored⟩ := represents.saved blobHash worker copy
    obtain ⟨entry, there, -⟩ := copy
    have shelf := represents.shelves worker (represents.registered (blobHash, worker) (by simp [there]))
    have ordinary : OrdinaryName blobHash := map.named blobHash bytes held ▸ blob_hash_ordinary X bytes
    have content : (cluster.workers worker).content (joinPath "blobs" blobHash) = some bytes := by
      rw [join_blob blobHash ordinary, content_blob _ shelf.blobs blobHash ordinary]
      exact stored
    dsimp only
    rw [wp_run_bind, Frontend.workerGetBlob]
    refine wp_run_observed_composed healthy_default (frontendImpl X) noteClient
      (FrontendCall.workerGetBlob worker blobHash) _ cluster [] ?_
    refine wp_get_blob_call expects_healthy worker blobHash _ cluster ?_ False.elim
    intro outcome after contract
    obtain ⟨rfl, same, whole⟩ := (contract.2.resolve_left id) bytes shelf.blobs content
    dsimp only [noteClient]
    rw [wp_run_bind, same]
    refine wp_mono _ _ _ _ ?_ (wp_forward_all after.2 [] cluster)
    intro outcome last forwarded
    obtain ⟨rfl, rfl⟩ := forwarded
    refine ⟨rfl, ?_⟩
    rw [GetAnswer, held]
    exact ⟨rfl, whole⟩
  · intro missing message
    refine ⟨rfl, ?_⟩
    rw [GetAnswer, missing]
    exact ⟨_, rfl⟩

end Get

section Delete

theorem dropped_one (cluster : Cluster) (worker blobHash : String) (fs : FileSystem)
    (changes : ChangesOnly blobHash (cluster.workers worker) fs)
    (gone : fs.node (blobLocation (cluster.workers worker) blobHash) = none) :
    Dropped X blobHash cluster (withWorker cluster worker fs) := by
  refine ⟨rfl, rfl, ?_⟩
  intro other shelf
  by_cases same : other = worker
  · subst same
    rw [with_worker_at]
    exact ⟨shelf_changed shelf blobHash changes (.inl gone), stored_changed changes⟩
  · rw [with_worker_elsewhere cluster worker other fs same]
    exact ⟨shelf, fun _ _ => rfl⟩

theorem wp_delete_at_worker (worker blobHash : String) (ordinary : OrdinaryName blobHash) (cluster : Cluster)
    (shelf : Shelf X (cluster.workers worker)) :
    wp clusterSem Healthy (unary (workerOnCluster worker (WorkerService.deleteBlob blobHash)))
      (fun _ after => Dropped X blobHash cluster after) cluster := by
  have resolved := resolve_blob _ shelf.blobs blobHash ordinary
  refine wp_unary expects_healthy _ _ cluster ?_ False.elim
  refine wp_worker_on_cluster worker _ _ cluster ?_
  refine (worker_files healthy_default worker).inline _ _ _ cluster ?_
  refine wp_delete_file (expected_files expects_healthy) blobHash _ (cluster.workers worker) ?_ ?_ ?_
  · intro _ status
    rw [with_worker_same]
    exact ⟨dropped_refl X blobHash cluster, False.elim⟩
  · intro location bytes there file
    obtain rfl := Option.some.inj (resolved.symm.trans there)
    exact ⟨dropped_one cluster worker blobHash _ (changes_erase _ blobHash) (by simp), False.elim⟩
  · intro trouble
    have looked : (cluster.workers worker).lookup ("blobs/" ++ blobHash) =
        (cluster.workers worker).node (blobLocation (cluster.workers worker) blobHash) := by
      rw [FileSystem.lookup, resolved, Option.bind_some]
    rw [looked] at trouble
    exact absurd (trouble.resolve_left id) (shelf_free shelf blobHash)

theorem wp_delete_at_workers (blobHash : String) (copies : List BlobCopyDTO) (cluster : Cluster)
    (each : ∀ copy ∈ copies, copy.hash = blobHash ∧ OrdinaryName blobHash ∧
      Shelf X (cluster.workers copy.workerAddress)) :
    wp (composed masterImpl clusterSem) (EveryChoice Healthy)
      (MasterService.requestWorkersToDeleteBlob copies).run
      (fun outcome after => outcome = .ok () ∧ Dropped X blobHash cluster after) cluster := by
  induction copies generalizing cluster with
  | nil => exact ⟨rfl, dropped_refl X blobHash cluster⟩
  | cons copy rest ih =>
      obtain ⟨hash, ordinary, shelf⟩ := each copy (by simp)
      rw [MasterService.requestWorkersToDeleteBlob, MasterService.requestWorkerToDeleteBlob,
        wp_run_bind, wp_run_bind, hash]
      refine wp_run_composed healthy_default masterImpl
        (MasterCall.deleteAtWorker blobHash copy.workerAddress) _ cluster ?_
      refine wp_mono _ _ _ _ ?_ (wp_delete_at_worker copy.workerAddress blobHash ordinary cluster shelf)
      intro outcome middle dropped
      simp only [wp_run_pure]
      refine wp_mono _ _ _ _ ?_ (ih middle ?_)
      · intro outcome after later
        exact ⟨later.1, dropped_trans dropped later.2⟩
      · intro other member
        obtain ⟨same, _, shelved⟩ := each other (List.mem_cons_of_mem copy member)
        exact ⟨same, ordinary, (dropped.workers _ shelved).1⟩

theorem wp_delete_whole (represents : Represents X blobs cluster map)
    (service : FrontendServiceImpl) (blobHash : String) :
    wp (frontendSem X) (EveryChoice Healthy) (service.deleteBlob blobHash).run
      (fun outcome after => (∃ response, outcome = .ok response ∧ response.status = .ok ()) ∧
        Represents X blobs after (map.remove blobHash)) cluster := by
  rw [FrontendServiceImpl.deleteBlob, wp_run_bind]
  refine wp_run_composed healthy_default (frontendImpl X)
    (FrontendCall.masterDeleteBlob (service.getMasterServiceAddressBasedOnHash blobHash) blobHash)
    _ cluster ?_
  refine wp_unary expects_healthy _ _ cluster ?_ False.elim
  refine wp_inline masterImpl _ _ cluster ?_
  rw [MasterService.deleteBlob, wp_run_bind]
  refine wp_db_of_master healthy_default _ _ cluster ?_
  refine wp_select_blobs (expected_db expects_healthy) _ _ _ _ ?_ False.elim
  intro copies answers
  have saved := answer_saved cluster.tables.blobCopy blobHash copies answers
  dsimp only
  rw [wp_run_bind]
  refine wp_mono _ _ _ _ ?_ (wp_delete_at_workers (X := X) blobHash copies cluster ?_)
  · intro outcome after done
    obtain ⟨rfl, dropped⟩ := done
    refine wp_db_of_master healthy_default _ _ after ?_
    refine wp_commit (expected_db expects_healthy) _ _ _ _ ?_ (fun refused => by cases refused) False.elim
    intro tables applied
    obtain rfl := Option.some.inj applied
    exact ⟨⟨⟨_, rfl, rfl⟩, represents_deleted represents dropped⟩, False.elim⟩
  · intro copy member
    obtain ⟨stored, hash, state⟩ := (saved copy).mp member
    have there : cluster.tables.blobCopy.find? (blobHash, copy.workerAddress) = some copy :=
      (cluster.tables.blobCopy.find_some_iff _ _).mpr ⟨stored, by rw [BlobCopyDTO.key, hash]⟩
    obtain ⟨bytes, held, -⟩ := represents.saved blobHash copy.workerAddress ⟨copy, there, state⟩
    have ordinary : OrdinaryName blobHash := map.named blobHash bytes held ▸ blob_hash_ordinary X bytes
    exact ⟨hash, ordinary, represents.shelves _
      (represents.registered (blobHash, copy.workerAddress) (by simp [there]))⟩

end Delete

end BlobStore
