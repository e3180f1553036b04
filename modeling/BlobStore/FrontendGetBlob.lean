import BlobStore.BlobStreams
import BlobStore.WorkerRuns

set_option autoImplicit false

namespace BlobStore

open Effects FileSystem FrontendServiceImpl

def noteClient : (call : FrontendCall) → FrontendReply call → List Bytes → List Bytes
  | .writeToClient chunk, true, received => received ++ [chunk]
  | _, _, received => received

section GetBlob

variable (X : Xxh64) (service : FrontendServiceImpl) (blobHash : String)

-- The lookup at the master, the first effect of the call.
def lookedUp (choices : List (List Choice)) (cluster : Cluster) : Except Status String × Cluster :=
  frontendSem X (.getWorkerWithBlob (service.getMasterServiceAddressBasedOnHash blobHash) blobHash)
    (choices.headD []) cluster

-- The stream of the chosen worker, the second.
def streamed (worker : String) (choices : List (List Choice)) (cluster : Cluster) : GetBlobStream :=
  (frontendSem X (.workerGetBlob worker blobHash) (choices.tail.headD [])
    (lookedUp X service blobHash choices cluster).2).1

def ClientTakes (count : Nat) (choices : List (List Choice)) : Prop :=
  ∀ index, index < count → ((choices.getD index []).headD default).streamOpen = true

def getBlobRun (choices : List (List Choice)) (cluster : Cluster) :
    Except Thrown (Except Status Unit) × List (List Choice) × Cluster × List Bytes :=
  exec (observed noteClient (frontendSem X)) (service.getBlob blobHash).run choices (cluster, [])

-- OK only when the client has received what the worker holds.
def OkMeansWhole (choices : List (List Choice)) (cluster : Cluster) : Prop :=
  let run := getBlobRun X service blobHash choices cluster
  run.1 = .ok (.ok ()) → ∃ worker, (lookedUp X service blobHash choices cluster).1 = .ok worker ∧
    (cluster.workers worker).content (joinPath "blobs" blobHash) = some run.2.2.2.flatten

-- The worker's stream has as many chunks as the file, or something else stops the call.
def StreamCovers (choices : List (List Choice)) (cluster : Cluster) : Prop :=
  match (lookedUp X service blobHash choices cluster).1 with
  | .error _ => True
  | .ok worker =>
      let chunks := (streamed X service blobHash worker choices cluster).chunks
      ¬ ClientTakes chunks.length choices.tail.tail ∨
        ∃ bytes, (cluster.workers worker).content (joinPath "blobs" blobHash) = some bytes ∧
          bytes.length ≤ chunks.length * MAX_CHUNK_SIZE

variable {X service blobHash}

theorem client_takes_cons (count : Nat) (choices : List (List Choice)) :
    ClientTakes (count + 1) choices ↔ ((choices.headD []).headD default).streamOpen = true ∧
      ClientTakes count choices.tail := by
  have tail : ∀ index, choices.tail.getD index [] = choices.getD (index + 1) [] := by
    intro index
    cases choices <;> simp
  have head : choices.headD [] = choices.getD 0 [] := by cases choices <;> rfl
  constructor
  · intro takes
    refine ⟨head ▸ takes 0 (by omega), ?_⟩
    intro index inside
    rw [tail]
    exact takes (index + 1) (by omega)
  · intro takes index inside
    cases index with
    | zero => exact head ▸ takes.1
    | succ index =>
        rw [← tail]
        exact takes.2 index (by omega)

theorem forward_chunks (chunks : List Bytes) (choices : List (List Choice))
    (cluster : Cluster) (received : List Bytes) :
    let run := exec (observed noteClient (frontendSem X))
      (forwardChunks chunks).run choices (cluster, received)
    (ClientTakes chunks.length choices ∧ run.1 = .ok (.ok ()) ∧ run.2.2.2 = received ++ chunks) ∨
      ¬ ClientTakes chunks.length choices ∧ ∃ message, run.1 = .ok (.error message) := by
  induction chunks generalizing choices received with
  | nil =>
      refine .inl ⟨?_, rfl, (List.append_nil received).symm⟩
      intro index inside
      cases inside
  | cons chunk rest ih =>
      rw [List.length_cons, client_takes_cons]
      have first : exec (observed noteClient (frontendSem X))
          (forwardChunks (chunk :: rest)).run choices (cluster, received) =
          exec (observed noteClient (frontendSem X))
            (ExceptT.run (if ((choices.headD []).headD default).streamOpen then forwardChunks rest
              else pure (.error "Broken client write stream - can't write next chunk"))) choices.tail
            (cluster, noteClient (.writeToClient chunk)
              ((choices.headD []).headD default).streamOpen received) := rfl
      rw [first]
      cases ((choices.headD []).headD default).streamOpen with
      | false => exact .inr ⟨by simp, _, rfl⟩
      | true =>
          have later := ih choices.tail (received ++ [chunk])
          rw [List.append_assoc, List.singleton_append] at later
          cases later with
          | inl all => exact .inl ⟨⟨rfl, all.1⟩, all.2⟩
          | inr broken => exact .inr ⟨fun takes => broken.1 takes.2, broken.2⟩

theorem lookup_keeps_workers (X : Xxh64) (service : FrontendServiceImpl) (blobHash : String)
    (choices : List (List Choice)) (cluster : Cluster) :
    (lookedUp X service blobHash choices cluster).2.workers = cluster.workers := by
  have kept : wp clusterSem (fun _ => True) (unary (dbOnCluster (MasterService.getWorkerWithBlob blobHash)))
      (fun _ after => after.workers = cluster.workers) cluster := by
    refine wp_unary expects_anything _ (fun _ after => after.workers = cluster.workers)
      cluster ?_ (fun _ _ => rfl)
    refine wp_db_on_cluster _ _ cluster ?_
    exact wp_always _ _ _ (fun _ _ => ⟨rfl, fun _ _ => rfl⟩)
  exact wp_sound _ _ _ (choices.headD []) cluster trivial (fun _ _ => trivial) kept

theorem streamed_delivered (X : Xxh64) (service : FrontendServiceImpl) (blobHash worker : String)
    (choices : List (List Choice)) (cluster : Cluster) :
    Delivered (cluster.workers worker) blobHash
      (streamed X service blobHash worker choices cluster).chunks := by
  rw [← lookup_keeps_workers X service blobHash choices cluster]
  have delivered : wp clusterSem (fun _ => True) (getBlobCall worker blobHash)
      (fun stream _ => Delivered ((lookedUp X service blobHash choices cluster).2.workers worker)
        blobHash stream.chunks)
      (lookedUp X service blobHash choices cluster).2 :=
    wp_get_blob_call expects_anything worker blobHash _ _ (fun _ _ contract => contract.1)
      (fun _ _ _ _ delivered => delivered)
  exact wp_sound _ _ _ (choices.tail.headD []) _ trivial (fun _ _ => trivial) delivered

theorem delivered_whole_iff (fs : FileSystem) (chunks : List Bytes)
    (delivered : Delivered fs blobHash chunks) :
    fs.content (joinPath "blobs" blobHash) = some chunks.flatten ↔
      ∃ bytes, fs.content (joinPath "blobs" blobHash) = some bytes ∧
          bytes.length ≤ chunks.length * MAX_CHUNK_SIZE := by
  have leading : ∀ bytes, fs.content (joinPath "blobs" blobHash) = some bytes → Leading bytes chunks := by
    intro bytes there
    cases delivered with
    | inl none =>
        rw [none]
        exact leading_nil bytes
    | inr some =>
        obtain ⟨base, other, made, now, leading⟩ := some
        obtain rfl := Option.some.inj ((content_grows fs base made _ bytes there).symm.trans now)
        exact leading
  constructor
  · intro there
    exact ⟨chunks.flatten, there, (leading_whole_iff (leading _ there)).mp rfl⟩
  · intro covered
    obtain ⟨bytes, there, enough⟩ := covered
    rw [(leading_whole_iff (leading bytes there)).mpr enough]
    exact there

theorem exec_lookup (choices : List (List Choice)) (cluster : Cluster) :
    exec (observed noteClient (frontendSem X))
        (getWorkerWithBlobId blobHash (service.getMasterServiceAddressBasedOnHash blobHash)).run
          choices (cluster, []) =
      (match (lookedUp X service blobHash choices cluster).1 with
        | .ok address => .ok (.ok address)
        | .error status => .ok (.error status.message), choices.tail,
            (lookedUp X service blobHash choices cluster).2, []) := by
  rw [getWorkerWithBlobId, exec_run_perform]
  have reply : observed noteClient (frontendSem X)
      (.getWorkerWithBlob (service.getMasterServiceAddressBasedOnHash blobHash) blobHash)
        (choices.headD default) (cluster, []) =
      ((lookedUp X service blobHash choices cluster).1,
        (lookedUp X service blobHash choices cluster).2, []) := rfl
  rw [reply]
  cases (lookedUp X service blobHash choices cluster).1 <;> rfl

theorem get_blob_refused (choices : List (List Choice)) (cluster : Cluster) (status : Status)
    (refused : (lookedUp X service blobHash choices cluster).1 = .error status) :
    (getBlobRun X service blobHash choices cluster).1 = .ok (.error ⟨.cancelled, status.message⟩) := by
  rw [getBlobRun, FrontendServiceImpl.getBlob, ExceptT.run_bind, exec_bind, exec_lookup, refused]
  rfl

theorem get_blob_forwards (choices : List (List Choice)) (cluster : Cluster) (worker : String)
    (found : (lookedUp X service blobHash choices cluster).1 = .ok worker) :
    ∃ before : Cluster,
      let run := exec (observed noteClient (frontendSem X))
        (forwardChunks (streamed X service blobHash worker choices cluster).chunks).run
          choices.tail.tail (before, [])
      (getBlobRun X service blobHash choices cluster).2.2.2 = run.2.2.2 ∧
        (run.1 = .ok (.ok ()) → (getBlobRun X service blobHash choices cluster).1 = .ok (.ok ())) ∧
        ∀ message, run.1 = .ok (.error message) →
          (getBlobRun X service blobHash choices cluster).1 = .ok (.error ⟨.cancelled, message⟩) := by
  refine ⟨(frontendSem X (.workerGetBlob worker blobHash) (choices.tail.headD [])
    (lookedUp X service blobHash choices cluster).2).2, ?_⟩
  rw [getBlobRun, FrontendServiceImpl.getBlob, ExceptT.run_bind, exec_bind, exec_lookup, found]
  dsimp only
  have reply : observed noteClient (frontendSem X) (.workerGetBlob worker blobHash)
      (choices.tail.headD default)
      ((lookedUp X service blobHash choices cluster).2, []) =
        (streamed X service blobHash worker choices cluster,
        (frontendSem X (.workerGetBlob worker blobHash) (choices.tail.headD [])
          (lookedUp X service blobHash choices cluster).2).2,
        []) := rfl
  rw [Frontend.workerGetBlob, exec_run_perform, reply, ExceptT.run_bind, exec_bind]
  generalize exec (observed noteClient (frontendSem X))
    (forwardChunks (streamed X service blobHash worker choices cluster).chunks).run choices.tail.tail _ = run
  obtain ⟨outcome, rest, after, received⟩ := run
  dsimp only
  refine ⟨?_, ?_, ?_⟩
  · cases outcome with
    | error thrown => rfl
    | ok result => cases result <;> rfl
  · intro passed
    rw [passed]
    rfl
  · intro message broken
    rw [broken]
    rfl

theorem ok_means_whole_iff (X : Xxh64) (service : FrontendServiceImpl) (blobHash : String)
    (choices : List (List Choice)) (cluster : Cluster) :
    OkMeansWhole X service blobHash choices cluster ↔ StreamCovers X service blobHash choices cluster := by
  have delivered := streamed_delivered X service blobHash
  rw [OkMeansWhole, StreamCovers]
  cases found : (lookedUp X service blobHash choices cluster).1 with
  | error status =>
      dsimp only
      rw [get_blob_refused choices cluster status found]
      simp
  | ok worker =>
      obtain ⟨before, received, passes, breaks⟩ := get_blob_forwards choices cluster worker found
      dsimp only
      rw [← delivered_whole_iff _ _ (delivered worker choices cluster)]
      cases forward_chunks (streamed X service blobHash worker choices cluster).chunks
        choices.tail.tail before [] with
      | inl all =>
          obtain ⟨takes, ended, forwarded⟩ := all
          rw [received, forwarded, passes ended, List.nil_append]
          constructor
          · intro whole
            obtain ⟨other, same, content⟩ := whole rfl
            obtain rfl := Except.ok.inj same
            exact .inr content
          · intro covers _
            exact ⟨worker, rfl, covers.resolve_left (fun broken => broken takes)⟩
      | inr broken =>
          obtain ⟨refuses, message, ended⟩ := broken
          rw [breaks message ended]
          exact iff_of_true (fun returned => by cases returned) (.inl refuses)

end GetBlob

-- A copy that is SAVED in the table and missing on its worker.
def missingFile : Cluster where
  tables := ⟨⟨[⟨"7", "worker-0", .saved, 0⟩], by decide⟩, ⟨[⟨"worker-0", 5, 0, 0⟩], by decide⟩⟩
  workers := fun _ => freshWorker
  frontend := freshWorker

theorem missing_file_is_ok : ¬ OkMeansWhole referenceXxh64 ⟨1, fun _ => 0⟩ "7" [] missingFile := by
  intro promise
  have ended : (getBlobRun referenceXxh64 ⟨1, fun _ => 0⟩ "7" [] missingFile).1 = .ok (.ok ()) := by rfl
  obtain ⟨worker, found, content⟩ := promise ended
  have chosen : (lookedUp referenceXxh64 ⟨1, fun _ => 0⟩ "7" [] missingFile).1 = .ok "worker-0" := by rfl
  obtain rfl := Except.ok.inj (chosen.symm.trans found)
  have missing : (missingFile.workers "worker-0").content (joinPath "blobs" "7") = none := by decide +kernel
  rw [missing] at content
  cases content

end BlobStore
