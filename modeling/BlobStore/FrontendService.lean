import BlobStore.WorkerService

set_option autoImplicit false

namespace BlobStore

open Effects

-- oneof data of the client's upload stream.
inductive UploadBlobRequest where
  | info (sizeBytes : UInt64)
  | chunkData (bytes : Bytes)
  | notSet
deriving DecidableEq

structure GetBlobStream where
  chunks : List Bytes
  status : Except Status Unit

-- A frontend uses its own files, rand(), the stream of the client it serves, and
-- the other components. Messages of a SaveBlob stream travel with the effect that
-- ends it: finished by WritesDone and Finish, or dropped with its writer.
inductive FrontendCall where
  | file (call : FileCall)
  | rand
  | getWorkersToSaveBlob (master : String) (request : GetWorkersToSaveBlobRequest)
  | getWorkerWithBlob (master : String) (blobHash : String)
  | masterDeleteBlob (master : String) (blobHash : String)
  | saveBlobWrite (worker : String) (request : SaveBlobRequest)
  | saveBlobFinish (worker : String) (sent : List SaveBlobRequest)
  | saveBlobCancel (worker : String) (sent : List SaveBlobRequest)
  | workerGetBlob (worker : String) (blobHash : String)
  | writeToClient (chunk : Bytes)

@[reducible] def FrontendReply : FrontendCall → Type
  | .file call => FileReply call
  | .rand => Nat
  | .getWorkersToSaveBlob _ _ => Except Status (List String)
  | .getWorkerWithBlob _ _ => Except Status String
  | .masterDeleteBlob _ _ => Except Status Unit
  | .saveBlobWrite _ _ => Bool
  | .saveBlobFinish _ _ => Except Status Unit
  | .saveBlobCancel _ _ => Unit
  | .workerGetBlob _ _ => GetBlobStream
  | .writeToClient _ => Bool

abbrev FrontendM (α : Type) := Failing FrontendCall FrontendReply Thrown α

def frontendFile (call : FileCall) : Program FrontendCall FrontendReply (FileReply call) :=
  Program.perform (FrontendCall.file call)

namespace Frontend

def onFrontendFiles {α : Type} (program : FileM α) : FrontendM α := Failing.inline frontendFile program

def rand : FrontendM Nat := Failing.perform FrontendCall.rand
def writeSaveBlob (worker : String) (request : SaveBlobRequest) : FrontendM Bool :=
  Failing.perform (FrontendCall.saveBlobWrite worker request)
def finishSaveBlob (worker : String) (sent : List SaveBlobRequest) : FrontendM (Except Status Unit) :=
  Failing.perform (FrontendCall.saveBlobFinish worker sent)
def cancelSaveBlob (worker : String) (sent : List SaveBlobRequest) : FrontendM Unit :=
  Failing.perform (FrontendCall.saveBlobCancel worker sent)
def writeToClient (chunk : Bytes) : FrontendM Bool := Failing.perform (FrontendCall.writeToClient chunk)
def workerGetBlob (worker blobHash : String) : FrontendM GetBlobStream :=
  Failing.perform (FrontendCall.workerGetBlob worker blobHash)

end Frontend

structure FrontendServiceImpl where
  mastersCount : Nat
  stdHash : String → Nat

namespace FrontendServiceImpl

open Frontend

variable (X : Xxh64) (service : FrontendServiceImpl)

def getMasterServiceAddressBasedOnHash (hash : String) : String :=
  "master-" ++ toString (service.stdHash hash % service.mastersCount) ++ ".master-service:50042"

def sendBlobToWorker (blob : BlobFile) (blobHash workerAddress : String) : FrontendM (Except String Unit) :=
  catchFileSystemException
    (do
      let flow ← blob.forEach MAX_CHUNK_SIZE frontendFile
        (fun sent chunk => do
          let request : SaveBlobRequest := ⟨blobHash, chunk⟩
          let written ← writeSaveBlob workerAddress request
          if written then pure (.next (sent ++ [request]))
          else do
            cancelSaveBlob workerAddress sent
            pure (.leave "Failed to save blob to worker - broken stream"))
        (fun sent => cancelSaveBlob workerAddress sent) []
      match flow with
      | .leave message => pure (.error message)
      | .next sent => do
          match ← finishSaveBlob workerAddress sent with
          | .ok _ => pure (.ok ())
          | .error status => pure (.error status.message))
    (fun what => pure (.error ("Error while sending blob to worker: " ++ what)))

-- while (reader->Read(&request)), over the messages that are still to come.
def receiveChunks : List UploadBlobRequest → BlobFile → BlobHasher X →
      FrontendM (Except Status (BlobFile × BlobHasher X))
  | [], blobFile, blobHasher => pure (.ok (blobFile, blobHasher))
  | .chunkData chunk :: rest, blobFile, blobHasher => do
      let blobFile ← onFrontendFiles (blobFile.appendChunk chunk)
      receiveChunks rest blobFile (blobHasher.addChunk chunk)
  | _ :: _, _, _ => pure (.error ⟨.invalidArgument, "Request missing chunk data."⟩)

-- The first Read is not checked: on an empty stream the request stays unset.
def receiveAndHashBlob (messages : List UploadBlobRequest) : FrontendM (Except Status (BlobFile × String)) :=
  match messages.headD .notSet with
  | .info blobSize =>
      catchFileSystemException
        (do
          let drawn ← rand
          let blobFilename := "temp" ++ toString drawn ++ ".blob"
          let blobFile ← onFrontendFiles (BlobFile.create blobFilename)
          match ← receiveChunks X messages.tail blobFile BlobHasher.new with
          | .error status => pure (.error status)
          | .ok (blobFile, blobHasher) =>
              let blobHash := blobHasher.finalize
              if blobFile.fileSize ≠ blobSize.toNat then
                pure (.error ⟨.invalidArgument, "Blob file size mismatch."⟩)
              else pure (.ok (blobFile, blobHash)))
        (fun what => pure (.error ⟨.cancelled, what⟩))
  | _ => pure (.error ⟨.invalidArgument, "Request should start with blob info."⟩)

-- size_mb of the request is never set, so it keeps its default 0.
def getWorkersFromMaster (blobHash masterAddress : String) : FrontendM (Except Status (List String)) := do
  match ← (Failing.perform (FrontendCall.getWorkersToSaveBlob masterAddress { blobHash := blobHash }) :
      FrontendM (Except Status (List String))) with
  | .ok addresses => pure (.ok addresses)
  | .error status => pure (.error ⟨.cancelled, status.message⟩)

def getWorkerWithBlobId (blobId masterAddress : String) : FrontendM (Except String String) := do
  match ← (Failing.perform (FrontendCall.getWorkerWithBlob masterAddress blobId) : FrontendM
    (Except Status String)) with
  | .ok address => pure (.ok address)
  | .error status => pure (.error status.message)

-- for (const auto& worker_address : workers)
def sendBlobToWorkers (blob : BlobFile) (blobHash : String) : List String → FrontendM (Except Status Unit)
  | [] => pure (.ok ())
  | workerAddress :: rest => do
      match ← sendBlobToWorker blob blobHash workerAddress with
      | .error message => pure (.error ⟨.cancelled, message⟩)
      | .ok _ => sendBlobToWorkers blob blobHash rest

-- The value of an OK upload is the blob_hash of the response.
def uploadBlob (messages : List UploadBlobRequest) : FrontendM (Except Status String) := do
  match ← receiveAndHashBlob X messages with
  | .error status => pure (.error status)
  | .ok (blobFile, blobHash) => do
      match ← getWorkersFromMaster blobHash (service.getMasterServiceAddressBasedOnHash blobHash) with
      | .error status => pure (.error status)
      | .ok workers => do
          match ← sendBlobToWorkers blobFile blobHash workers with
          | .error status => pure (.error status)
          | .ok _ => do
              let _ ← onFrontendFiles blobFile.remove
              pure (.ok blobHash)

-- while (reader->Read(&worker_response)). The reader's final status is not asked for.
def forwardChunks : List Bytes → FrontendM (Except String Unit)
  | [] => pure (.ok ())
  | chunk :: rest => do
      let written ← writeToClient chunk
      if written then forwardChunks rest
      else pure (.error "Broken client write stream - can't write next chunk")

def getBlob (blobId : String) : FrontendM (Except Status Unit) := do
  match ← getWorkerWithBlobId blobId (service.getMasterServiceAddressBasedOnHash blobId) with
  | .error message => pure (.error ⟨.cancelled, message⟩)
  | .ok workerAddress => do
      let stream ← workerGetBlob workerAddress blobId
      match ← forwardChunks stream.chunks with
      | .error message => pure (.error ⟨.cancelled, message⟩)
      | .ok _ => pure (.ok ())

def failedRequest (performedAction : String) : String := "Failed to " ++ performedAction ++ "."

structure DeleteBlobResponse where
  deleteResult : String
  status : Except Status Unit

def deleteBlob (blobHash : String) : FrontendM DeleteBlobResponse := do
  match ← (Failing.perform (FrontendCall.masterDeleteBlob
    (service.getMasterServiceAddressBasedOnHash blobHash) blobHash) :
      FrontendM (Except Status Unit)) with
  | .error _ => pure ⟨failedRequest "delete request to master", .error ⟨.cancelled, ""⟩⟩
  | .ok _ => pure ⟨"Blob deleted successfully.", .ok ()⟩

end FrontendServiceImpl

end BlobStore
