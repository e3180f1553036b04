import BlobStore.UploadRules
import BlobStore.WorkerRuns

set_option autoImplicit false

namespace BlobStore

open Effects FileSystem FrontendServiceImpl

section Observed

variable {τ : Type} {X : Xxh64} {note : (call : FrontendCall) → FrontendReply call → τ → τ}
  {ok : Choice → Prop} {trouble : Prop}

theorem wp_get_workers_from_master (expects : Expects ok trouble) (watches : WatchesPlacements note)
    (blobHash master : String)
    (post : Except Thrown (Except Status (List String)) → Cluster × τ → Prop) (cluster : Cluster)
    (seen : τ) (named : ∀ addresses tables, Named blobHash 0 cluster.tables tables addresses →
      post (.ok (.ok addresses))
      (withTables cluster tables,
        note (.getWorkersToSaveBlob master { blobHash := blobHash }) (.ok addresses) seen))
    (refused : ∀ status tables, trouble ∨ Reserves blobHash cluster.tables tables ∧
      Unplaceable blobHash 0 cluster.tables →
      post (.ok (.error status)) (withTables cluster tables, seen)) :
    wp (observed note (frontendSem X)) (EveryChoice ok)
      (getWorkersFromMaster blobHash master).run post (cluster, seen) := by
  rw [getWorkersFromMaster, wp_run_bind]
  refine wp_run_observed_composed expects.fallback (frontendImpl X) note _ _ cluster seen ?_
  refine wp_unary expects _ _ cluster ?_ ?_
  · refine wp_db_on_cluster _ _ cluster ?_
    refine wp_mono _ _ _ _ ?_ (wp_get_workers_to_save_blob (expected_db expects)
      { blobHash := blobHash } cluster.tables)
    intro outcome after answer
    constructor
    · cases outcome with
      | error status =>
          dsimp only
          rw [watches.refusals]
          exact refused _ _ answer
      | ok addresses => exact named addresses _ answer
    · intro troubled message
      dsimp only [unavailable]
      rw [watches.refusals]
      exact refused _ _ (.inl troubled)
  · intro troubled message
    dsimp only [unavailable]
    rw [watches.refusals]
    exact refused _ cluster.tables (.inl troubled)

-- An upload places its blob at most once, and ends well only with three copies.
structure Uploads (X : Xxh64) (note : (call : FrontendCall) → FrontendReply call → τ → τ)
    (cluster : Cluster) (seen : τ) (outcome : Except Thrown (Except Status String))
    (after : Cluster × τ) : Prop where
  placed : after.2 = seen ∨ ∃ master blobHash addresses tables,
    Named blobHash 0 cluster.tables tables addresses ∧
    after.2 = note (.getWorkersToSaveBlob master { blobHash := blobHash }) (.ok addresses) seen
  stored : ∀ blobHash, outcome = .ok (.ok blobHash) → ∃ workers : List String,
    workers.length = 3 ∧ workers.Nodup ∧
    ∀ worker ∈ workers, StoredCopy X blobHash after.1 worker

theorem wp_upload_blob (expects : Expects ok trouble)
    (writes : ∀ choice, ok choice → WholeWrites choice.file) (watches : WatchesPlacements note)
    (service : FrontendServiceImpl) (messages : List UploadBlobRequest)
    (cluster : Cluster) (seen : τ) :
    wp (observed note (frontendSem X)) (EveryChoice ok)
      (service.uploadBlob X messages).run (Uploads X note cluster seen)
      (cluster, seen) := by
  have stopped : ∀ (outcome : Except Thrown (Except Status String)) (after : Cluster × τ), after.2 = seen →
      (∀ blobHash, outcome ≠ .ok (.ok blobHash)) → Uploads X note cluster seen outcome after :=
    fun _ _ same failed => ⟨.inl same, fun blobHash returned => absurd returned (failed blobHash)⟩
  rw [uploadBlob, wp_run_bind]
  refine wp_mono _ _ _ _ ?_ (wp_receive_and_hash_blob watches cluster seen messages)
  intro outcome after received
  obtain ⟨middle, noted⟩ := after
  obtain ⟨⟨tables, -, rfl⟩, hashed⟩ := received
  cases outcome with
  | error thrown => exact stopped _ _ rfl (by simp)
  | ok result =>
      cases result with
      | error status => exact stopped _ _ rfl (by simp)
      | ok pair =>
          obtain ⟨blobFile, blobHash⟩ := pair
          have ordinary : OrdinaryName blobHash := hashed _ rfl
          dsimp only at tables ⊢
          rw [wp_run_bind]
          refine wp_get_workers_from_master expects watches blobHash _ _ middle noted ?_ ?_
          · intro addresses after named
            rw [tables] at named
            generalize service.getMasterServiceAddressBasedOnHash blobHash = master
            have placing : ∀ (outcome : Except Thrown (Except Status String)) (last : Cluster × τ),
                last.2 = note (.getWorkersToSaveBlob master { blobHash := blobHash }) (.ok addresses) noted →
                (∀ hash, outcome = .ok (.ok hash) → hash = blobHash ∧ ∀ worker ∈ addresses,
                  StoredCopy X blobHash last.1 worker) →
                Uploads X note cluster noted outcome last := by
              intro outcome last same stores
              refine ⟨.inr ⟨master, blobHash, addresses, after, named, same⟩, ?_⟩
              intro hash returned
              obtain ⟨rfl, stored⟩ := stores hash returned
              exact ⟨addresses, named.three, named.distinct, stored⟩
            dsimp only
            rw [wp_run_bind]
            refine wp_mono _ _ _ _ ?_
              (wp_send_blob_to_workers expects writes watches blobFile blobHash ordinary addresses
              named.distinct (withTables middle after) _)
            intro outcome last sent
            cases outcome with
            | error thrown => exact placing _ last sent.1 (by simp)
            | ok result =>
                cases result with
                | error status => exact placing _ last sent.1 (by simp)
                | ok _ =>
                    obtain ⟨stored, -⟩ := sent.2 rfl
                    dsimp only
                    rw [wp_run_bind]
                    refine wp_on_frontend_files watches last.1 last.2 _ _ last ⟨rfl, rfl, rfl⟩ ?_
                    intro outcome final outside
                    cases outcome with
                    | error thrown => exact placing _ final (outside.2.2.trans sent.1) (by simp)
                    | ok _ =>
                        refine placing _ final (outside.2.2.trans sent.1) ?_
                        intro hash returned
                        refine ⟨(Except.ok.inj (Except.ok.inj returned)).symm, ?_⟩
                        exact fun worker member =>
                          stored_copy_congr outside.1 outside.2.1 (stored worker member)
          · exact fun status after _ => stopped _ _ rfl (by simp)

end Observed

def uploadOf (chunks : List Bytes) : List UploadBlobRequest :=
  .info (UInt64.ofNat chunks.flatten.length) :: chunks.map .chunkData

-- Anything may fail or be lost, and the frontend's files may change under it. A
-- worker's append alone writes everything or says that it did not.
def WholeAppends (choice : Choice) : Prop := WholeWrites choice.file

theorem expects_whole_appends : Expects WholeAppends True :=
  ⟨fun _ short => (by cases short), fun _ _ => .inr trivial, fun _ _ => .inr trivial,
    fun _ _ => .inr trivial, fun _ _ => .inr trivial⟩

def quietFrontend : (call : FrontendCall) → FrontendReply call → Unit → Unit := fun _ _ seen => seen

theorem watches_quietly : WatchesPlacements quietFrontend := ⟨fun _ _ _ _ => rfl, fun _ _ _ _ => rfl⟩

theorem upload_ok_means_three_copies (X : Xxh64) (service : FrontendServiceImpl)
    (messages : List UploadBlobRequest) (choices : List (List Choice)) (cluster : Cluster)
    (whole : ∀ each ∈ choices, ∀ choice ∈ each, WholeAppends choice) :
    ∀ blobHash, (exec (frontendSem X) (service.uploadBlob X messages).run choices cluster).1 =
      .ok (.ok blobHash) →
      ∃ workers : List String, workers.length = 3 ∧ workers.Nodup ∧ ∀ worker ∈ workers,
        StoredCopy X blobHash (exec (frontendSem X)
          (service.uploadBlob X messages).run choices cluster).2.2 worker := by
  have met := wp_sound (EveryChoice WholeAppends) (service.uploadBlob X messages).run _ choices (cluster, ())
    (fun _ member => (by cases member)) whole
    (wp_upload_blob expects_whole_appends (fun _ allowed => allowed) watches_quietly service
      messages cluster ())
  obtain ⟨result, state⟩ := exec_observed (frontendSem X) quietFrontend
    (service.uploadBlob X messages).run choices cluster ()
  have stored := met.stored
  rw [result, state] at stored
  exact stored

def freshRows : List WorkerStateDTO := [⟨"worker-0", 5, 0, 0⟩, ⟨"worker-1", 5, 0, 0⟩, ⟨"worker-2", 5, 0, 0⟩]

theorem fresh_addresses : (freshRows.map WorkerStateDTO.workerAddress).Nodup := by decide

def threeFreshWorkers : Cluster where
  tables := ⟨Table.empty, ⟨freshRows, fresh_addresses⟩⟩
  workers := fun _ => freshWorker
  frontend := freshWorker

def oneMaster : FrontendServiceImpl := ⟨1, fun _ => 0⟩

theorem upload_ok_means_three_copies_run :
    ∃ workers : List String, workers.length = 3 ∧ workers.Nodup ∧ ∀ worker ∈ workers,
      StoredCopy referenceXxh64 "15154266338359012955"
        (exec (frontendSem referenceXxh64)
          (oneMaster.uploadBlob referenceXxh64 [.info 1, .chunkData [97]]).run []
          threeFreshWorkers).2.2 worker :=
  upload_ok_means_three_copies referenceXxh64 oneMaster [.info 1, .chunkData [97]]
    [] threeFreshWorkers (by simp)
    "15154266338359012955" (by decide +kernel)

end BlobStore
