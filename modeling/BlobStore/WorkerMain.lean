import BlobStore.Cluster

set_option autoImplicit false

namespace BlobStore

open Effects

inductive WorkerMainCall where
  | file (call : FileCall)
  | registerWorker (request : RegisterWorkerRequest)

@[reducible] def WorkerMainReply : WorkerMainCall → Type
  | .file call => FileReply call
  | .registerWorker _ => Except Status Unit

abbrev WorkerMainM (α : Type) := Failing WorkerMainCall WorkerMainReply Thrown α

-- What is known of a worker when it starts to serve, or exit(1).
inductive WorkerStart where
  | exited
  | unregistered
  | registered (freeStorage : UInt64)
deriving DecidableEq

namespace WorkerMain

def mainFile (call : FileCall) : Program WorkerMainCall WorkerMainReply (FileReply call) :=
  Program.perform (WorkerMainCall.file call)

-- while (tries--), without the ten seconds of sleep.
def registerAtMaster (request : RegisterWorkerRequest) : Nat → WorkerMainM Bool
  | 0 => pure false
  | tries + 1 => do
      match ← (Failing.perform (WorkerMainCall.registerWorker request) : WorkerMainM
        (Except Status Unit)) with
      | .ok _ => pure true
      | .error _ => registerAtMaster request tries

def runWorker (workerServiceAddress : String) : WorkerMainM WorkerStart := do
  Failing.inline mainFile (createDirectories WorkerService.BLOBS_PATH)
  match ← Failing.inline mainFile WorkerService.getFreeStorage with
  | .error _ => pure .exited
  | .ok storage => do
      let registered ← registerAtMaster ⟨workerServiceAddress, toInt64 storage⟩ 10
      if registered then pure (.registered storage) else pure .unregistered

end WorkerMain

def workerMainImpl (address : String) : (call : WorkerMainCall) → ClusterM (WorkerMainReply call)
  | .file call => workerFileCall address call
  | .registerWorker request => unary (dbOnCluster (MasterService.registerWorker request))

def startWorker (address : String) : ClusterM (Except Thrown WorkerStart) :=
  Program.inline (workerMainImpl address) (WorkerMain.runWorker address).run

end BlobStore
