import BlobStore.WholeUploads

set_option autoImplicit false

namespace BlobStore

open Effects FileSystem FrontendServiceImpl

-- A frontend by itself: whatever the other components and the client's stream answer.
structure FrontendChoice where
  file : FileChoice := {}
  draw : Nat := 0
  placement : Except Status (List String) := .ok []
  holder : Except Status String := .ok ""
  deletion : Except Status Unit := .ok ()
  streamOpen : Bool := true
  finished : Except Status Unit := .ok ()
  stream : GetBlobStream := ⟨[], .ok ()⟩

instance : Inhabited FrontendChoice := ⟨{}⟩

-- Files are created and removed without fail; reads and appends may go wrong.
def createsOrRemoves : FileCall → Bool
  | .createDirectories _ => true
  | .openTrunc _ => true
  | .remove _ => true
  | _ => false

def frontendAloneSem : Sem FrontendCall FrontendReply FrontendChoice FileSystem
  | .file call, choice, fs => fileSem call (if createsOrRemoves call then default else choice.file) fs
  | .rand, choice, fs => (choice.draw, fs)
  | .getWorkersToSaveBlob _ _, choice, fs => (choice.placement, fs)
  | .getWorkerWithBlob _ _, choice, fs => (choice.holder, fs)
  | .masterDeleteBlob _ _, choice, fs => (choice.deletion, fs)
  | .saveBlobWrite _ _, choice, fs => (choice.streamOpen, fs)
  | .saveBlobFinish _ _, choice, fs => (choice.finished, fs)
  | .saveBlobCancel _ _, _, fs => ((), fs)
  | .workerGetBlob _ _, choice, fs => (choice.stream, fs)
  | .writeToClient _, choice, fs => (choice.streamOpen, fs)

variable {α : Type}

theorem exec_files_perform (call : FileCall) (rest : FileReply call → FileM α)
    (choices : List FrontendChoice) (fs : FileSystem) :
    let outcome := fileSem call (if createsOrRemoves call then default else (choices.headD default).file) fs
    exec frontendAloneSem (Failing.inline frontendFile (Failing.perform call >>= rest)).run choices fs =
      exec frontendAloneSem (Failing.inline frontendFile (rest outcome.1)).run choices.tail outcome.2 := rfl

theorem frontend_alone_files : ActsOnFiles frontendAloneSem (fun _ => True) frontendFile
      (fun _ => True) id (fun _ fs => fs) where
  setGet := fun _ => rfl
  inline := by
    intro α program post whole holds
    refine wp_inline_part (fun _ : FileChoice => True) frontendFile id (fun _ fs => fs)
      (fun _ _ => rfl) (fun _ _ _ => rfl) (fun _ => rfl)
      ?_ program.run post whole holds
    intro call after whole each
    rw [frontendFile, wp_perform]
    exact fun choice _ => each _ trivial

-- No other component reaches the frontend's files.
theorem unary_spares (handler : ClusterM (Except Status α))
    (holds : Spares clusterSem Cluster.frontend handler) :
    Spares clusterSem Cluster.frontend (unary handler) := by
  refine spares_bind _ _ (spares_perform _ (fun _ _ => rfl)) ?_
  intro fate
  cases fate with
  | delivered => exact holds
  | requestLost message => exact spares_pure _
  | replyLost message => exact spares_map _ _ holds
  | cut reached message => exact spares_map _ _ holds

theorem db_spares (program : DbM α) : Spares clusterSem Cluster.frontend (dbOnCluster program) :=
  spares_inline _ (fun _ => spares_perform _ (fun _ _ => rfl)) _

theorem worker_spares (address : String) (program : WorkerM (Except Status α)) :
    Spares clusterSem Cluster.frontend (workerOnCluster address program) := by
  rw [workerOnCluster, map_eq_pure_bind]
  refine spares_map _ _ (spares_inline _ ?_ _)
  intro call
  cases call with
  | file call => exact spares_perform _ (fun _ _ => rfl)
  | write chunk => exact spares_perform _ (fun _ _ => rfl)
  | notifyBlobSaved request => exact unary_spares _ (db_spares _)

theorem worker_stream_spares (address : String) (program : WorkerM (Except Status Unit)) :
    Spares clusterSem Cluster.frontend (workerStreamOnCluster address program) := by
  refine spares_map _ _ (spares_inline_with _ ?_ _ _)
  intro call written
  cases call with
  | file call => exact spares_map _ _ (spares_perform _ (fun _ _ => rfl))
  | write chunk => exact spares_map _ _ (spares_perform _ (fun _ _ => rfl))
  | notifyBlobSaved request => exact spares_map _ _ (unary_spares _ (db_spares _))

theorem master_spares (program : MasterM α) :
    Spares clusterSem Cluster.frontend (masterOnCluster program) := by
  refine spares_inline _ ?_ _
  intro call
  cases call with
  | spanner call => exact spares_perform _ (fun _ _ => rfl)
  | deleteAtWorker blobHash address => exact unary_spares _ (worker_spares address _)

theorem save_call_spares (X : Xxh64) (address : String) (sent : List SaveBlobRequest) :
    Spares clusterSem Cluster.frontend (saveBlobCall X address sent) := by
  refine spares_bind _ _ (spares_perform _ (fun _ _ => rfl)) ?_
  intro fate
  cases fate with
  | delivered => exact worker_spares address _
  | requestLost message => exact spares_pure _
  | replyLost message => exact spares_map _ _ (worker_spares address _)
  | cut reached message => exact spares_map _ _ (worker_spares address _)

theorem get_call_spares (address blobHash : String) :
    Spares clusterSem Cluster.frontend (getBlobCall address blobHash) := by
  refine spares_bind _ _ (spares_perform _ (fun _ _ => rfl)) ?_
  intro fate
  cases fate with
  | delivered => exact worker_stream_spares address _
  | requestLost message => exact spares_pure _
  | replyLost message => exact spares_map _ _ (worker_stream_spares address _)
  | cut reached message => exact spares_map _ _ (worker_stream_spares address _)

-- Nobody else touches the frontend's files, and none of its primitives fails outright.
structure OwnFiles (choice : Choice) : Prop where
  untampered : choice.tamper = id
  works : choice.frontendFile.failure = none

theorem own_files_default : OwnFiles default := ⟨rfl, rfl⟩

theorem creation_works (call : FileCall) (creates : createsOrRemoves call = true) (choice : FileChoice)
    (works : choice.failure = none) (fs : FileSystem) : fileSem call choice fs = fileSem call default fs := by
  have fallback : FileChoice.failure default = none := rfl
  cases call with
  | createDirectories path => simp only [fileSem, works, fallback]
  | openTrunc path => simp only [fileSem, works, fallback]
  | remove path => simp only [fileSem, works, fallback]
  | append | fileExists | fileSize | openRead | read | space => cases creates

theorem frontend_alone_covers (X : Xxh64) (call : FrontendCall) (choices : List Choice) (cluster : Cluster)
    (own : EveryChoice OwnFiles choices) :
    ∃ other, frontendAloneSem call other cluster.frontend =
      ((frontendSem X call choices cluster).1, (frontendSem X call choices cluster).2.frontend) := by
  cases call with
  | file call =>
      obtain ⟨untampered, works⟩ := first_choice own_files_default own
      have performed : ((frontendSem X (.file call) choices cluster).1,
          (frontendSem X (.file call) choices cluster).2.frontend) =
          fileSem call (choices.headD default).frontendFile
            ((choices.headD default).tamper cluster.frontend) := rfl
      rw [performed, untampered]
      refine ⟨{ file := (choices.headD default).frontendFile }, ?_⟩
      cases creates : createsOrRemoves call with
      | true =>
          rw [id, creation_works call creates _ works]
          simp only [frontendAloneSem, creates, if_true]
      | false => simp only [frontendAloneSem, creates, Bool.false_eq_true, if_false, id]
  | rand => exact ⟨{ draw := (choices.headD default).draw }, rfl⟩
  | getWorkersToSaveBlob master request =>
      refine ⟨{ placement := (frontendSem X (.getWorkersToSaveBlob master request) choices
        cluster).1 }, Prod.ext rfl ?_⟩
      exact (unary_spares _ (db_spares _) choices cluster).symm
  | getWorkerWithBlob master blobHash =>
      refine ⟨{ holder := (frontendSem X (.getWorkerWithBlob master blobHash) choices cluster).1 },
        Prod.ext rfl ?_⟩
      exact (unary_spares _ (db_spares _) choices cluster).symm
  | masterDeleteBlob master blobHash =>
      refine ⟨{ deletion := (frontendSem X (.masterDeleteBlob master blobHash) choices cluster).1 },
        Prod.ext rfl ?_⟩
      exact (unary_spares _ (master_spares _) choices cluster).symm
  | saveBlobWrite worker request => exact ⟨{ streamOpen := (choices.headD default).streamOpen }, rfl⟩
  | saveBlobFinish worker sent =>
      refine ⟨{ finished := (frontendSem X (.saveBlobFinish worker sent) choices cluster).1 },
        Prod.ext rfl ?_⟩
      exact (save_call_spares X worker sent choices cluster).symm
  | saveBlobCancel worker sent =>
      refine ⟨default, Prod.ext rfl ?_⟩
      exact (spares_map _ _ (save_call_spares X worker sent) choices cluster).symm
  | workerGetBlob worker blobHash =>
      refine ⟨{ stream := (frontendSem X (.workerGetBlob worker blobHash) choices cluster).1 },
        Prod.ext rfl ?_⟩
      exact (get_call_spares worker blobHash choices cluster).symm
  | writeToClient chunk => exact ⟨{ streamOpen := (choices.headD default).streamOpen }, rfl⟩

-- So whatever runs on the cluster with files of its own runs on a frontend by itself.
theorem cluster_run_alone (X : Xxh64) (program : FrontendM α) (choices : List (List Choice))
    (cluster : Cluster) (own : ∀ each ∈ choices, EveryChoice OwnFiles each) :
    ∃ others, (exec frontendAloneSem program.run others cluster.frontend).1 =
      (exec (frontendSem X) program.run choices cluster).1 ∧
      (exec frontendAloneSem program.run others cluster.frontend).2.2 =
        (exec (frontendSem X) program.run choices cluster).2.2.frontend := by
  have fallback : EveryChoice OwnFiles default := fun _ member => by cases member
  exact exec_covered fallback (frontend_alone_covers X) program.run choices cluster own

end BlobStore
