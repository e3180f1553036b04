import BlobStore.Integrity
import BlobStore.Wreckage

set_option autoImplicit false

namespace BlobStore

open Effects FileSystem MasterDbRepository FrontendServiceImpl

variable {X : Xxh64} {cluster : Cluster}

section Delete

structure Cleared (before after : Cluster) : Prop where
  tables : after.tables = before.tables
  frontend : after.frontend = before.frontend
  usable : ∀ worker, Usable (before.workers worker) → Usable (after.workers worker)

theorem cleared_refl (cluster : Cluster) : Cleared cluster cluster := ⟨rfl, rfl, fun _ usable => usable⟩

theorem cleared_trans {before middle after : Cluster} (first : Cleared before middle)
    (second : Cleared middle after) : Cleared before after :=
  ⟨second.tables.trans first.tables, second.frontend.trans first.frontend,
    fun worker usable => second.usable worker (first.usable worker usable)⟩

theorem cleared_one {worker name : String} {fs : FileSystem}
    (changes : ChangesOnly name (cluster.workers worker) fs)
    (free : fs.node (blobLocation (cluster.workers worker) name) ≠ some .directory) :
    Cleared cluster (withWorker cluster worker fs) := by
  refine ⟨rfl, rfl, ?_⟩
  intro other usable
  by_cases same : other = worker
  · subst same
    rw [with_worker_at]
    exact usable_changed usable name changes free
  · rw [with_worker_elsewhere cluster worker other fs same]
    exact usable

theorem wp_clear_at_worker (worker blobHash : String) (ordinary : OrdinaryName blobHash) (cluster : Cluster)
    (usable : Usable (cluster.workers worker)) :
    wp clusterSem Healthy (unary (workerOnCluster worker (WorkerService.deleteBlob blobHash)))
      (fun _ after => Cleared cluster after) cluster := by
  have resolved := resolve_blob _ usable.blobs blobHash ordinary
  refine wp_unary expects_healthy _ _ cluster ?_ False.elim
  refine wp_worker_on_cluster worker _ _ cluster ?_
  refine (worker_files healthy_default worker).inline _ _ _ cluster ?_
  refine wp_delete_file (expected_files expects_healthy) blobHash _ (cluster.workers worker) ?_ ?_ ?_
  · intro _ status
    rw [with_worker_same]
    exact ⟨cleared_refl cluster, False.elim⟩
  · intro location bytes there file
    obtain rfl := Option.some.inj (resolved.symm.trans there)
    exact ⟨cleared_one (changes_erase _ blobHash) (by simp), False.elim⟩
  · intro trouble
    have looked : (cluster.workers worker).lookup ("blobs/" ++ blobHash) =
        (cluster.workers worker).node (blobLocation (cluster.workers worker) blobHash) := by
      rw [FileSystem.lookup, resolved, Option.bind_some]
    rw [looked] at trouble
    exact absurd (trouble.resolve_left id) (usable.free blobHash)

theorem wp_clear_at_workers (copies : List BlobCopyDTO) (cluster : Cluster)
    (each : ∀ copy ∈ copies, OrdinaryName copy.hash ∧ Usable (cluster.workers copy.workerAddress)) :
    wp (composed masterImpl clusterSem) (EveryChoice Healthy)
      (MasterService.requestWorkersToDeleteBlob copies).run
      (fun outcome after => outcome = .ok () ∧ Cleared cluster after) cluster := by
  induction copies generalizing cluster with
  | nil => exact ⟨rfl, cleared_refl cluster⟩
  | cons copy rest ih =>
      obtain ⟨ordinary, usable⟩ := each copy List.mem_cons_self
      rw [MasterService.requestWorkersToDeleteBlob, MasterService.requestWorkerToDeleteBlob,
        wp_run_bind, wp_run_bind]
      refine wp_run_composed healthy_default masterImpl
        (MasterCall.deleteAtWorker copy.hash copy.workerAddress) _ cluster ?_
      refine wp_mono _ _ _ _ ?_ (wp_clear_at_worker copy.workerAddress copy.hash ordinary cluster usable)
      intro outcome middle cleared
      simp only [wp_run_pure]
      refine wp_mono _ _ _ _ ?_ (ih middle ?_)
      · intro outcome after later
        exact ⟨later.1, cleared_trans cleared later.2⟩
      · intro other member
        obtain ⟨named, there⟩ := each other (List.mem_cons_of_mem copy member)
        exact ⟨named, cleared.usable _ there⟩

-- A deletion does its work in any cluster whose rows name blobs and workers: the files
-- that are missing, cut short or wrong do not stop it.
theorem wp_clear (X : Xxh64) (orderly : Orderly cluster) (service : FrontendServiceImpl) (blobHash : String) :
    wp (frontendSem X) (EveryChoice Healthy) (service.deleteBlob blobHash).run
      (fun outcome after => (∃ response, outcome = .ok response ∧ response.status = .ok ()) ∧
        ∃ middle, Cleared cluster middle ∧
            after = withTables middle (withoutRows blobHash middle.tables)) cluster := by
  rw [FrontendServiceImpl.deleteBlob, wp_run_bind]
  refine wp_run_composed healthy_default (frontendImpl X)
    (FrontendCall.masterDeleteBlob (service.getMasterServiceAddressBasedOnHash blobHash) blobHash)
    _ cluster ?_
  refine wp_unary expects_healthy _ _ cluster ?_ False.elim
  refine wp_inline masterImpl _ _ cluster ?_
  rw [MasterService.deleteBlob, wp_run_bind]
  refine wp_db_of_master healthy_default _ _ cluster ?_
  refine wp_select_blobs (expected_db expects_healthy) _ _ _ _ ?_ False.elim
  intro copies answers
  have saved := answer_saved cluster.tables.blobCopy blobHash copies answers
  have each : ∀ copy ∈ copies, OrdinaryName copy.hash ∧ Usable (cluster.workers copy.workerAddress) := by
    intro copy member
    obtain ⟨ordinary, known⟩ := orderly.rows copy ((saved copy).mp member).1
    exact ⟨ordinary, orderly.usable _ known⟩
  dsimp only
  rw [wp_run_bind]
  refine wp_mono _ _ _ _ ?_ (wp_clear_at_workers copies cluster each)
  intro outcome middle done
  obtain ⟨rfl, cleared⟩ := done
  refine wp_db_of_master healthy_default _ _ middle ?_
  refine wp_commit (expected_db expects_healthy) _ _ _ _ ?_ (fun refused => by cases refused) False.elim
  intro tables applied
  obtain rfl := Option.some.inj applied
  exact ⟨⟨⟨_, rfl, rfl⟩, middle, cleared, rfl⟩, False.elim⟩

end Delete

section Upload

-- A saved row, the worker in it and the whole file there.
structure Backed (blobHash : String) (bytes : Bytes) (cluster : Cluster) (worker : String) : Prop where
  saved : Copy .saved cluster.tables (blobHash, worker)
  registered : Registered cluster.tables worker
  blobs : HasBlobs (cluster.workers worker)
  content : (cluster.workers worker).content ("blobs/" ++ blobHash) = some bytes

theorem Backed.imp_frontend {blobHash : String} {bytes : Bytes} {worker : String} {fs : FileSystem}
    (backed : Backed blobHash bytes cluster worker) :
    Backed blobHash bytes (withFrontend cluster fs) worker :=
  ⟨backed.saved, backed.registered, backed.blobs, backed.content⟩

-- The workers still to be sent to have their rows, and every saved row is backed.
structure Filling (blobHash : String) (bytes : Bytes) (rest : List String) (cluster : Cluster) : Prop where
  usable : ∀ worker, Registered cluster.tables worker → Usable (cluster.workers worker)
  waiting : ∀ worker ∈ rest, cluster.tables.blobCopy.find? (blobHash, worker) ≠ none ∧
    Registered cluster.tables worker
  backed : ∀ worker, Copy .saved cluster.tables (blobHash, worker) → Backed blobHash bytes cluster worker

variable {blobHash worker : String} {bytes : Bytes} {rest : List String} {after : Cluster}

theorem filling_sent (ordinary : OrdinaryName blobHash)
    (now : Filling blobHash bytes (worker :: rest) cluster) (fresh : worker ∉ rest)
    (saved : SavedOn worker blobHash bytes cluster after) :
    Filling blobHash bytes rest after ∧ Backed blobHash bytes after worker := by
  obtain ⟨-, known⟩ := now.waiting worker List.mem_cons_self
  have standing := now.usable worker known
  obtain ⟨base, location, opened, workers⟩ := saved.workers
  obtain ⟨rfl, rfl⟩ :=
    opens_unique (opens_blob _ standing.blobs blobHash ordinary (standing.free blobHash)) opened
  have usable : ∀ other, Registered after.tables other → Usable (after.workers other) := by
    intro other registered
    rw [workers]
    by_cases same : other = worker
    · subst same
      rw [Function.update_self]
      exact usable_changed standing blobHash (changes_put _ _ _) (by simp)
    · rw [Function.update_of_ne same]
      exact now.usable other ((saved.notified.workers other).mp registered)
  have elsewhere : ∀ other, other ≠ worker → after.tables.blobCopy.find? (blobHash, other) =
      cluster.tables.blobCopy.find? (blobHash, other) :=
    fun other different => saved.notified.others _ (fun same => different (congrArg Prod.snd same))
  have here : Backed blobHash bytes after worker :=
    ⟨saved.notified.saved, saved.notified.registered,
      (usable worker saved.notified.registered).blobs, saved_content ordinary saved⟩
  refine ⟨⟨usable, ?_, ?_⟩, here⟩
  · intro other member
    obtain ⟨placed, registered⟩ := now.waiting other (List.mem_cons_of_mem worker member)
    rw [elsewhere other (fun same => fresh (same ▸ member))]
    exact ⟨placed, (saved.notified.workers other).mpr registered⟩
  · intro other copy
    by_cases same : other = worker
    · exact same ▸ here
    · obtain ⟨entry, there, state⟩ := copy
      have backed := now.backed other ⟨entry, (elsewhere other same).symm.trans there, state⟩
      refine ⟨⟨entry, there, state⟩, (saved.notified.workers other).mpr backed.registered, ?_, ?_⟩
      · rw [workers, Function.update_of_ne same]
        exact backed.blobs
      · rw [workers, Function.update_of_ne same]
        exact backed.content

theorem wp_fill (path : String) (bytes : Bytes) (some_ : bytes ≠ []) (workers : List String)
    (distinct : workers.Nodup) (cluster : Cluster)
    (readable : cluster.frontend.content path = some bytes)
    (now : Filling (X.blobHash bytes) bytes workers cluster)
    (one : workers ≠ [] ∨ ∃ worker, Backed (X.blobHash bytes) bytes cluster worker) :
    wp (frontendSem X) (EveryChoice Healthy)
      (sendBlobToWorkers ⟨path, bytes.length⟩ (X.blobHash bytes) workers).run
      (fun outcome after => outcome = .ok (.ok ()) ∧ after.frontend = cluster.frontend ∧
        Filling (X.blobHash bytes) bytes [] after ∧
        ∃ worker, Backed (X.blobHash bytes) bytes after worker) cluster := by
  induction workers generalizing cluster with
  | nil => exact ⟨rfl, rfl, now, one.resolve_left (fun empty => empty rfl)⟩
  | cons worker rest ih =>
      obtain ⟨fresh, distinctRest⟩ := List.nodup_cons.mp distinct
      obtain ⟨placed, registered⟩ := now.waiting worker List.mem_cons_self
      have standing := now.usable worker registered
      have opens := opens_blob _ standing.blobs (X.blobHash bytes)
        (blob_hash_ordinary X bytes) (standing.free _)
      rw [sendBlobToWorkers, wp_run_bind]
      refine wp_mono _ _ _ _ ?_
        (wp_send_whole path (X.blobHash bytes) bytes rfl some_ worker cluster readable
          ⟨_, _, opens⟩ placed registered)
      intro outcome after sent
      obtain ⟨rfl, saved⟩ := sent
      obtain ⟨filling, backed⟩ := filling_sent (blob_hash_ordinary X bytes) now fresh saved
      dsimp only
      refine wp_mono _ _ _ _ ?_
        (ih distinctRest after (saved.frontend ▸ readable) filling (.inr ⟨worker, backed⟩))
      intro outcome last done
      exact ⟨done.1, done.2.1.trans saved.frontend, done.2.2⟩

-- At least three workers with room, and no row of the blob anywhere: so it is placed.
theorem placeable {tables : Tables}
    (room : 3 ≤ tables.workerState.rows.countP (WorkerQuery.withFreeSpace 0 3).selects)
    (absent : ∀ worker, tables.blobCopy.find? (blobHash, worker) = none) :
    ¬ Unplaceable blobHash 0 tables := by
  intro cause
  cases cause with
  | inl few => omega
  | inr taken =>
      obtain ⟨worker, -, -, present⟩ := taken
      exact present (absent worker.workerAddress)

theorem filling_placed {tables : Tables} {addresses : List String}
    (usable : ∀ worker, Registered cluster.tables worker → Usable (cluster.workers worker))
    (absent : ∀ worker, cluster.tables.blobCopy.find? (blobHash, worker) = none)
    (named : Named blobHash 0 cluster.tables tables addresses) :
    Filling blobHash bytes addresses (withTables cluster tables) where
  usable := fun worker registered => usable worker ((named.reserves.workers worker).mp registered)
  waiting := by
    intro worker member
    obtain ⟨entry, there, -⟩ := named.created worker member
    have present : tables.blobCopy.find? (blobHash, worker) ≠ none := by simp [there]
    cases named.reserves.copies (blobHash, worker) with
    | inl kept => exact absurd (kept.trans (absent worker)) present
    | inr fresh => exact ⟨present, (named.reserves.workers worker).mpr fresh.2.2.1⟩
  backed := by
    intro worker copy
    obtain ⟨entry, there, saved⟩ := copy
    cases named.reserves.copies (blobHash, worker) with
    | inl kept => cases (kept.trans (absent worker)).symm.trans there
    | inr fresh =>
        obtain ⟨-, -, -, other, found, creating⟩ := fresh
        obtain rfl : entry = other := Option.some.inj (there.symm.trans found)
        cases saved.symm.trans creating

theorem wp_upload_cleared (service : FrontendServiceImpl) (chunks : List Bytes)
    (some_ : chunks.flatten ≠ []) (fits : chunks.flatten.length < 2 ^ 64) (cluster : Cluster)
    (usable : ∀ worker, Registered cluster.tables worker → Usable (cluster.workers worker))
    (frontend : Usable cluster.frontend)
    (room : 3 ≤ cluster.tables.workerState.rows.countP (WorkerQuery.withFreeSpace 0 3).selects)
    (absent : ∀ worker, cluster.tables.blobCopy.find? (X.blobHash chunks.flatten, worker) = none) :
    wp (frontendSem X) (EveryChoice Healthy) (service.uploadBlob X (uploadOf chunks)).run
      (fun outcome after => outcome = .ok (.ok (X.blobHash chunks.flatten)) ∧
        (∀ worker, Copy .saved after.tables (X.blobHash chunks.flatten, worker) →
          Backed (X.blobHash chunks.flatten) chunks.flatten after worker) ∧
        ∃ worker, Backed (X.blobHash chunks.flatten) chunks.flatten after worker) cluster := by
  rw [uploadBlob, wp_run_bind]
  refine wp_mono _ _ _ _ ?_ (wp_receive_upload chunks fits cluster frontend)
  intro outcome received inFrontend
  obtain ⟨name, ordinary, rfl, rfl⟩ := inFrontend
  have resolved := resolve_blob cluster.frontend frontend.blobs name ordinary
  have readable : (cluster.frontend.put (blobLocation cluster.frontend name)
      (.file chunks.flatten)).content ("blobs/" ++ name) =
      some chunks.flatten := by
    rw [content_put_file _ _ _ (frontend.free name), if_pos resolved]
  dsimp only
  rw [wp_run_bind]
  refine wp_place _ _ _ _ ?_ ?_
  · intro addresses tables named
    have filling : Filling (X.blobHash chunks.flatten) chunks.flatten addresses
        (withTables (withFrontend cluster (cluster.frontend.put
          (blobLocation cluster.frontend name) (.file chunks.flatten))) tables) :=
      filling_placed usable absent named
    have someWorker : addresses ≠ [] := by
      intro none
      have three := named.three
      rw [none] at three
      cases three
    dsimp only
    rw [wp_run_bind]
    refine wp_mono _ _ _ _ ?_ (wp_fill ("blobs/" ++ name) chunks.flatten some_ addresses
      named.distinct _ readable filling (.inl someWorker))
    intro outcome sent done
    obtain ⟨rfl, same, filled, one⟩ := done
    dsimp only [withTables, withFrontend] at same ⊢
    rw [wp_run_bind]
    refine (frontend_files X).inline _ _ _ _ ?_
    rw [same]
    refine wp_remove_file tolerates_healthy _ _ _ (blobLocation cluster.frontend name) chunks.flatten
      ((resolve_put_file _ _ _ (frontend.free name) _).trans resolved) (by simp) ?_ False.elim
    obtain ⟨worker, backed⟩ := one
    exact ⟨rfl, fun other copy => (filled.backed other copy).imp_frontend, worker, backed.imp_frontend⟩
  · intro status tables _ cause
    exact absurd cause (placeable room absent)

end Upload

section Get

theorem wp_lookup_backed (blobHash master : String) (right : Bytes → Prop) (cluster : Cluster)
    (backed : ∀ worker, Copy .saved cluster.tables (blobHash, worker) → ∃ bytes, right bytes ∧
      Backed blobHash bytes cluster worker)
    (one : ∃ worker, Copy .saved cluster.tables (blobHash, worker))
    (post : Except Thrown (Except String String) → Cluster × List Bytes → Prop)
    (found : ∀ worker bytes, right bytes → Backed blobHash bytes cluster worker →
      post (.ok (.ok worker)) (cluster, [])) :
    wp (observed noteClient (frontendSem X)) (EveryChoice Healthy)
      (getWorkerWithBlobId blobHash master).run post (cluster, []) := by
  rw [getWorkerWithBlobId, wp_run_bind]
  refine wp_run_observed_composed healthy_default (frontendImpl X) noteClient
    (FrontendCall.getWorkerWithBlob master blobHash) _ cluster [] ?_
  refine wp_unary expects_healthy _ _ cluster ?_ False.elim
  refine wp_db_on_cluster _ _ cluster ?_
  refine wp_mono _ _ _ _ ?_ (wp_get_worker_with_blob (expected_db expects_healthy) blobHash cluster.tables)
  intro outcome after answer
  refine ⟨?_, False.elim⟩
  cases outcome with
  | ok worker =>
      obtain ⟨same, copy⟩ := answer
      rw [same]
      obtain ⟨bytes, good, holds⟩ := backed worker copy
      exact found worker bytes good holds
  | error status =>
      obtain ⟨-, cause⟩ := answer.resolve_left id
      cases cause with
      | inl nobody =>
          obtain ⟨worker, copy⟩ := one
          exact absurd copy (nobody worker)
      | inr stranger =>
          obtain ⟨worker, copy, unknown⟩ := stranger
          obtain ⟨bytes, -, holds⟩ := backed worker copy
          exact absurd holds.registered unknown

-- Whichever saved copy is sent, it is one of those.
theorem wp_get_backed (X : Xxh64) (service : FrontendServiceImpl) (blobHash : String)
    (ordinary : OrdinaryName blobHash) (right : Bytes → Prop) (cluster : Cluster)
    (backed : ∀ worker, Copy .saved cluster.tables (blobHash, worker) → ∃ bytes, right bytes ∧
      Backed blobHash bytes cluster worker)
    (one : ∃ worker, Copy .saved cluster.tables (blobHash, worker)) :
    wp (observed noteClient (frontendSem X)) (EveryChoice Healthy) (service.getBlob blobHash).run
      (fun outcome after => outcome = .ok (.ok ()) ∧ right after.2.flatten) (cluster, []) := by
  rw [FrontendServiceImpl.getBlob, wp_run_bind]
  refine wp_lookup_backed blobHash _ right cluster backed one _ ?_
  intro worker bytes good holds
  have content : (cluster.workers worker).content (joinPath "blobs" blobHash) = some bytes := by
    rw [join_blob blobHash ordinary]
    exact holds.content
  dsimp only
  rw [wp_run_bind, Frontend.workerGetBlob]
  refine wp_run_observed_composed healthy_default (frontendImpl X) noteClient
    (FrontendCall.workerGetBlob worker blobHash) _ cluster [] ?_
  refine wp_get_blob_call expects_healthy worker blobHash _ cluster ?_ False.elim
  intro outcome after contract
  obtain ⟨rfl, same, whole⟩ := (contract.2.resolve_left id) bytes holds.blobs content
  dsimp only [noteClient]
  rw [wp_run_bind, same]
  refine wp_mono _ _ _ _ ?_ (wp_forward_all after.2 [] cluster)
  intro outcome last forwarded
  obtain ⟨rfl, rfl⟩ := forwarded
  refine ⟨rfl, ?_⟩
  have sent : after.2.flatten = bytes := whole
  rw [List.nil_append, sent]
  exact good

end Get

section Recovery

variable {ι : Type} [DecidableEq ι]

theorem sturdy_orderly {home now : Cluster} (sturdy : Sturdy home now) : Orderly now := by
  have same : ∀ worker, Registered now.tables worker ↔ Registered home.tables worker := by
    intro worker
    rw [Registered, Registered, sturdy.workerState]
  exact ⟨fun worker known => sturdy.usable worker ((same worker).mp known),
    fun row member => ⟨(sturdy.rows row member).2.1, (same _).mpr (sturdy.rows row member).2.2⟩⟩

end Recovery

def uploadAndGet : Bool → Request
  | false => .uploadBlob oneMaster [.info 1, .chunkData [97]]
  | true => .getBlob oneMaster "15154266338359012955"

-- The first worker keeps nothing of what it is sent and reports the copy as saved, then
-- the frontend is gone.
def brokenOff : List (Bool × Choice) := List.replicate 24 (false, { file := { fault := .shortWrite 0 } })

theorem three_fresh_sturdy : Sturdy threeFreshWorkers threeFreshWorkers where
  workerState := rfl
  rows := fun _ member => by cases member
  usable := fun _ _ => usable_empty fresh_worker_empty
  frontend := usable_empty fresh_worker_empty

end BlobStore
