import BlobStore.FrontendService
import BlobStore.Library.Compose

set_option autoImplicit false

namespace BlobStore

open Effects

-- How far one call between two components gets. A cut stream loses its last
-- messages in either direction; a status of the library is never OK then.
inductive RpcFate where
  | delivered
  | requestLost (message : String)
  | replyLost (message : String)
  | cut (reached : Nat) (message : String)

-- The atomic steps of the whole cluster. Every master works on the one database.
inductive ClusterCall where
  | spanner (call : SpannerCall)
  | workerFile (address : String) (call : FileCall)
  | frontendFile (call : FileCall)
  | rpc
  | streamOpen
  | rand

@[reducible] def ClusterReply : ClusterCall → Type
  | .spanner call => SpannerReply call
  | .workerFile _ call => FileReply call
  | .frontendFile call => FileReply call
  | .rpc => RpcFate
  | .streamOpen => Bool
  | .rand => Nat

structure Choice where
  db : DbChoice := {}
  file : FileChoice := {}
  frontendFile : FileChoice := {}
  fate : RpcFate := .delivered
  streamOpen : Bool := true
  draw : Nat := 0
  tamper : FileSystem → FileSystem := id

instance : Inhabited Choice := ⟨{}⟩

structure Cluster where
  tables : Tables
  workers : String → FileSystem
  frontend : FileSystem

-- tamper is whatever happened to the frontend's files since its last call.
def clusterSem : Sem ClusterCall ClusterReply Choice Cluster
  | .spanner call, choice, cluster =>
      let outcome := spannerSem call choice.db cluster.tables
      (outcome.1, { cluster with tables := outcome.2 })
  | .workerFile address call, choice, cluster =>
      let outcome := fileSem call choice.file (cluster.workers address)
      (outcome.1, { cluster with workers := Function.update cluster.workers address outcome.2 })
  | .frontendFile call, choice, cluster =>
      let outcome := fileSem call choice.frontendFile (choice.tamper cluster.frontend)
      (outcome.1, { cluster with frontend := outcome.2 })
  | .rpc, choice, cluster => (choice.fate, cluster)
  | .streamOpen, choice, cluster => (choice.streamOpen, cluster)
  | .rand, choice, cluster => (choice.draw, cluster)

abbrev ClusterM (α : Type) := Program ClusterCall ClusterReply α

def rpcFate : ClusterM RpcFate := Program.perform ClusterCall.rpc

def unavailable {α : Type} (message : String) : Except Status α := .error ⟨.unavailable, message⟩

def unary {α : Type} (handler : ClusterM (Except Status α)) : ClusterM (Except Status α) := do
  match ← rpcFate with
  | .delivered => handler
  | .requestLost message => pure (unavailable message)
  | .replyLost message => do
      let _ ← handler
      pure (unavailable message)
  | .cut _ message => do
      let _ ← handler
      pure (unavailable message)

-- What the caller sees of a handler that throws, or brings its process down.
def handlerStatus {α : Type} : Except Thrown (Except Status α) → Except Status α
  | .ok status => status
  | .error (.fileSystemException what) => .error ⟨.unknown, what⟩
  | .error (.filesystemError what) => .error ⟨.unknown, what⟩
  | .error .undefinedBehaviour => unavailable "Socket closed"
  | .error .nonterminating => unavailable "Deadline Exceeded"

def spannerCall (call : SpannerCall) : ClusterM (SpannerReply call) :=
  Program.perform (ClusterCall.spanner call)
def workerFileCall (address : String) (call : FileCall) : ClusterM (FileReply call) :=
  Program.perform (ClusterCall.workerFile address call)
def frontendFileCall (call : FileCall) : ClusterM (FileReply call) :=
  Program.perform (ClusterCall.frontendFile call)
def streamOpenCall : ClusterM Bool := Program.perform ClusterCall.streamOpen
def randCall : ClusterM Nat := Program.perform ClusterCall.rand

def dbOnCluster {α : Type} (program : DbM α) : ClusterM (Except Status α) :=
  Program.inline spannerCall program.run

def workerImpl (address : String) : (call : WorkerCall) → ClusterM (WorkerReply call)
  | .file call => workerFileCall address call
  | .write _ => streamOpenCall
  | .notifyBlobSaved request => unary (dbOnCluster (MasterService.notifyBlobSaved request))

def workerOnCluster {α : Type} (address : String) (program : WorkerM (Except Status α)) :
    ClusterM (Except Status α) :=
  handlerStatus <$> Program.inline (workerImpl address) program.run

def workerStreamImpl (address : String) :
    (call : WorkerCall) → List Bytes → ClusterM (WorkerReply call × List Bytes)
  | .write chunk, written => do
      let isOpen ← streamOpenCall
      pure (isOpen, if isOpen then written ++ [chunk] else written)
  | .file call, written => do
      let reply ← workerFileCall address call
      pure (reply, written)
  | .notifyBlobSaved request, written => do
      let reply ← unary (dbOnCluster (MasterService.notifyBlobSaved request))
      pure (reply, written)

def workerStreamOnCluster (address : String) (program : WorkerM (Except Status Unit)) :
    ClusterM GetBlobStream := do
  let outcome ← Program.inlineWith (workerStreamImpl address) program.run []
  pure ⟨outcome.2, handlerStatus outcome.1⟩

def masterImpl : (call : MasterCall) → ClusterM (MasterReply call)
  | .spanner call => spannerCall call
  | .deleteAtWorker blobHash address => unary (workerOnCluster address (WorkerService.deleteBlob blobHash))

def masterOnCluster {α : Type} (program : MasterM α) : ClusterM (Except Status α) :=
  Program.inline masterImpl program.run

section Frontend

variable (X : Xxh64)

def saveBlobCall (address : String) (sent : List SaveBlobRequest) : ClusterM (Except Status Unit) := do
  match ← rpcFate with
  | .delivered => workerOnCluster address (WorkerService.saveBlob X address sent)
  | .requestLost message => pure (unavailable message)
  | .replyLost message => do
      let _ ← workerOnCluster address (WorkerService.saveBlob X address sent)
      pure (unavailable message)
  | .cut reached message => do
      let _ ← workerOnCluster address (WorkerService.saveBlob X address (sent.take reached))
      pure (unavailable message)

def getBlobCall (address blobHash : String) : ClusterM GetBlobStream := do
  match ← rpcFate with
  | .delivered => workerStreamOnCluster address (WorkerService.getBlob blobHash)
  | .requestLost message => pure ⟨[], unavailable message⟩
  | .replyLost message => do
      let stream ← workerStreamOnCluster address (WorkerService.getBlob blobHash)
      pure ⟨stream.chunks, unavailable message⟩
  | .cut reached message => do
      let stream ← workerStreamOnCluster address (WorkerService.getBlob blobHash)
      pure ⟨stream.chunks.take reached, unavailable message⟩

def frontendImpl : (call : FrontendCall) → ClusterM (FrontendReply call)
  | .file call => frontendFileCall call
  | .rand => randCall
  | .getWorkersToSaveBlob _ request => unary (dbOnCluster (MasterService.getWorkersToSaveBlob request))
  | .getWorkerWithBlob _ blobHash => unary (dbOnCluster (MasterService.getWorkerWithBlob blobHash))
  | .masterDeleteBlob _ blobHash => unary (masterOnCluster (MasterService.deleteBlob blobHash))
  | .saveBlobWrite _ _ => streamOpenCall
  | .saveBlobFinish worker sent => saveBlobCall X worker sent
  | .saveBlobCancel worker sent => do
      let _ ← saveBlobCall X worker sent
      pure ()
  | .workerGetBlob worker blobHash => getBlobCall worker blobHash
  | .writeToClient _ => streamOpenCall

def frontendSem : Sem FrontendCall FrontendReply (List Choice) Cluster := composed (frontendImpl X) clusterSem

end Frontend

end BlobStore
