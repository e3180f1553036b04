import BlobStore.Library.Ownership
import BlobStore.OperationPhases

set_option autoImplicit false

namespace BlobStore

open Effects FileSystem MasterDbRepository FrontendServiceImpl

inductive Request where
  | uploadBlob (service : FrontendServiceImpl) (messages : List UploadBlobRequest)
  | getBlob (service : FrontendServiceImpl) (blobId : String)
  | deleteBlob (service : FrontendServiceImpl) (blobHash : String)

def UploadBlobRequest.chunk : UploadBlobRequest → Bytes
  | .chunkData bytes => bytes
  | _ => []

-- The blob a request is about. An upload names it by the bytes it sends.
def Request.blobHash (X : Xxh64) : Request → String
  | .uploadBlob _ messages => X.blobHash (messages.tail.map UploadBlobRequest.chunk).flatten
  | .getBlob _ blobId => blobId
  | .deleteBlob _ blobHash => blobHash

def Request.Writes : Request → Prop
  | .getBlob _ _ => False
  | _ => True

def clientStreamImpl (X : Xxh64) (call : FrontendCall) (received : List Bytes) :
    ClusterM (FrontendReply call × List Bytes) := do
  let reply ← frontendImpl X call
  pure (reply, noteClient call reply received)

def Request.program (X : Xxh64) : Request → ClusterM ClientResponse
  | .uploadBlob service messages => ClientResponse.uploaded <$>
      Program.inline (frontendImpl X) (service.uploadBlob X messages).run
  | .getBlob service blobId =>
      (fun outcome => ClientResponse.got outcome.1 outcome.2) <$>
        Program.inlineWith (clientStreamImpl X) (service.getBlob blobId).run []
  | .deleteBlob service blobHash =>
      ClientResponse.deleted <$> Program.inline (frontendImpl X) (service.deleteBlob blobHash).run

-- What a caller sees of a handler is its answer, or that none came.
theorem meets_unary {τ α : Type} {contract : Contract ClusterCall ClusterReply τ}
    (monotone : contract.Monotone)
    (wire : ∀ post ghost, (∀ fate, post fate ghost) → contract .rpc post ghost)
    (handler : ClusterM (Except Status α)) (post : Except Status α → τ → Prop) (ghost : τ)
    (holds : meets contract handler
      (fun outcome after => post outcome after ∧ ∀ message, post (unavailable message) after) ghost)
    (unheard : ∀ message, post (unavailable message) ghost) :
    meets contract (unary handler) post ghost := by
  have dropped : ∀ message, meets contract (handler >>= fun _ => pure (unavailable message)) post ghost := by
    intro message
    rw [meets_bind]
    exact meets_mono monotone _ _ _ _ (fun _ _ both => both.2 message) holds
  rw [unary, meets_bind, rpcFate, meets_perform]
  apply wire
  intro fate
  cases fate with
  | delivered => exact meets_mono monotone _ _ _ _ (fun _ _ both => both.1) holds
  | requestLost message => exact unheard message
  | replyLost message => exact dropped message
  | cut reached message => exact dropped message

def FileWithin (paths : String → Prop) : FileCall → Prop
  | .createDirectories path => path = "blobs"
  | .openTrunc path => paths path
  | .append path _ => paths path
  | .fileExists path => paths path
  | .fileSize path => paths path
  | .remove path => paths path
  | .openRead path => paths path
  | .read path _ _ => paths path
  | .space _ => False

-- The primitives that change a file.
def Alters : FileCall → Prop
  | .openTrunc _ => True
  | .append _ _ => True
  | .remove _ => True
  | _ => False

-- One request's share of the cluster: the rows and the workers' files of its blob, the
-- temp files it may draw, and the workers there are. A download writes nothing there.
structure Bounds where
  blobHash : String
  drawn : Nat → Prop
  known : String → Prop
  workerRow : WorkerStateDTO → Prop
  writes : Prop

namespace Bounds

variable (bounds : Bounds)

-- A size the request gives is always 0, since no frontend sets one.
def OwnRow (entry : BlobCopyDTO) : Prop :=
  entry.hash = bounds.blobHash ∧ entry.sizeMb = 0 ∧ bounds.known entry.workerAddress

-- The two spellings that the workers use.
def BlobPath (path : String) : Prop :=
  path = joinPath "blobs" bounds.blobHash ∨ path = "blobs/" ++ bounds.blobHash

def TempPath (path : String) : Prop :=
  ∃ drawn, bounds.drawn drawn ∧ path = joinPath "blobs" ("temp" ++ toString drawn ++ ".blob")

-- A worker's row is written back as it was read, and no other way.
def Rows : SpannerCall → Prop
  | .commit (.insertBlob entry) => bounds.OwnRow entry ∧ bounds.writes
  | .commit (.updateBlob entry) => bounds.OwnRow entry ∧ bounds.writes
  | .commit (.deleteBlobsByHash hash) => hash = bounds.blobHash ∧ bounds.writes
  | .commit (.updateWorker row) => bounds.workerRow row ∧ bounds.writes
  | .commit _ => False
  | .selectBlobs (.savedByHash hash) => hash = bounds.blobHash
  | .selectBlobs (.byHashAndWorker hash _) => hash = bounds.blobHash
  | .selectWorkers _ => True

def RowReplies : (call : SpannerCall) → SpannerReply call → Prop
  | .selectBlobs _, .ok rows => ∀ row ∈ rows, bounds.OwnRow row
  | .selectWorkers _, .ok rows => ∀ row ∈ rows, bounds.workerRow row
  | _, _ => True

def Touches : ClusterCall → Prop
  | .spanner call => bounds.Rows call
  | .workerFile address call =>
      bounds.known address ∧ FileWithin bounds.BlobPath call ∧ (Alters call → bounds.writes)
  | .frontendFile call => FileWithin bounds.TempPath call
  | _ => True

def Replies : (call : ClusterCall) → ClusterReply call → Prop
  | .spanner call, reply => bounds.RowReplies call reply
  | .rand, drawn => bounds.drawn drawn
  | _, _ => True

def contract : Contract ClusterCall ClusterReply Unit := confined bounds.Touches bounds.Replies

structure SendsTo (worker : String) (sent : List SaveBlobRequest) : Prop where
  known : bounds.known worker
  nonempty : bounds.blobHash ≠ ""
  named : ∀ message ∈ sent, message.blobHash = bounds.blobHash
  writes : bounds.writes

-- The same one level up, for what a frontend asks of the others.
def Asks : FrontendCall → Prop
  | .file call => FileWithin bounds.TempPath call
  | .getWorkersToSaveBlob _ request => request = { blobHash := bounds.blobHash } ∧ bounds.writes
  | .getWorkerWithBlob _ hash => hash = bounds.blobHash
  | .masterDeleteBlob _ hash => hash = bounds.blobHash ∧ bounds.writes
  | .saveBlobFinish worker sent => bounds.SendsTo worker sent
  | .saveBlobCancel worker sent => bounds.SendsTo worker sent
  | .workerGetBlob worker hash => bounds.known worker ∧ hash = bounds.blobHash
  | _ => True

def Answers : (call : FrontendCall) → FrontendReply call → Prop
  | .rand, drawn => bounds.drawn drawn
  | .getWorkersToSaveBlob _ _, .ok addresses => ∀ address ∈ addresses, bounds.known address
  | .getWorkerWithBlob _ _, .ok address => bounds.known address
  | _, _ => True

def service : Contract FrontendCall FrontendReply Unit := confined bounds.Asks bounds.Answers

end Bounds

end BlobStore
