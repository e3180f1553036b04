import BlobStore.BlobFile
import BlobStore.MasterService

set_option autoImplicit false

namespace BlobStore

open Effects

structure SaveBlobRequest where
  blobHash : String
  chunkData : Bytes
deriving DecidableEq

inductive WorkerCall where
  | file (call : FileCall)
  | write (chunk : Bytes)
  | notifyBlobSaved (request : NotifyBlobSavedRequest)

@[reducible] def WorkerReply : WorkerCall → Type
  | .file call => FileReply call
  | .write _ => Bool
  | .notifyBlobSaved _ => Except Status Unit

abbrev WorkerM (α : Type) := Failing WorkerCall WorkerReply Thrown α

def workerFile (call : FileCall) : Program WorkerCall WorkerReply (FileReply call) :=
  Program.perform (WorkerCall.file call)

def onWorkerFiles {α : Type} (program : FileM α) : WorkerM α := Failing.inline workerFile program

def writeResponse (chunk : Bytes) : WorkerM Bool := Failing.perform (WorkerCall.write chunk)

def masterNotifyBlobSaved (request : NotifyBlobSavedRequest) : WorkerM (Except Status Unit) :=
  Failing.perform (WorkerCall.notifyBlobSaved request)

-- try { ... } catch (const BlobFile::FileSystemException &fse) { ... }
def catchFileSystemException {E : Type} {R : E → Type} {α : Type} (body : Failing E R Thrown α)
    (handler : String → Failing E R Thrown α) : Failing E R Thrown α :=
  ExceptT.mk (body.run >>= fun outcome =>
    match outcome with
    | .error (.fileSystemException what) => (handler what).run
    | other => pure other)

namespace WorkerService

variable (X : Xxh64)

def BLOBS_PATH : String := "blobs/"

structure Receiving (X : Xxh64) where
  requestHash : String
  blobFile : Option BlobFile
  blobHasher : BlobHasher X

-- while (reader->Read(&request)), over the messages that are still to come.
def receiveMessages : List SaveBlobRequest → Receiving X → FileM (Receiving X)
  | [], state => pure state
  | request :: rest, state => do
      let state ←
        if state.requestHash = "" then do
          let blobFile ← BlobFile.create request.blobHash
          pure { state with requestHash := request.blobHash, blobFile := some blobFile }
        else pure state
      match state.blobFile with
      | none => throw .undefinedBehaviour
      | some blobFile => do
          let blobFile ← blobFile.appendChunk request.chunkData
          receiveMessages rest { state with
            blobFile := some blobFile
            blobHasher := state.blobHasher.addChunk request.chunkData }

def receiveBlobFromFrontend (messages : List SaveBlobRequest) : FileM (Except Status String) :=
  catchFileSystemException
    (do
      let state ← receiveMessages X messages ⟨"", none, BlobHasher.new⟩
      let blobHash := state.blobHasher.finalize
      if state.requestHash ≠ blobHash then
        match state.blobFile with
        | none => throw .undefinedBehaviour
        | some blobFile => do
            let _ ← blobFile.remove
            pure (.error ⟨.invalidArgument, "Blob hash mismatch."⟩)
      else pure (.ok state.requestHash))
    (fun what => pure (.error ⟨.cancelled, what⟩))

def sendBlobToFrontend (blobHash : String) : WorkerM (Except Status Unit) :=
  catchFileSystemException
    (do
      let blobFile ← onWorkerFiles (BlobFile.load blobHash)
      let flow ← blobFile.forEach MAX_CHUNK_SIZE workerFile
        (fun _ chunk => do
          let written ← writeResponse chunk
          if written then pure (.next ())
          else pure (.leave ⟨.invalidArgument, "Write stream was closed."⟩))
        (fun _ => pure ()) ()
      match flow with
      | .leave (status : Status) => pure (.error status)
      | .next _ => pure (.ok ()))
    (fun what => pure (.error ⟨.cancelled, what⟩))

-- The path is built by concatenation here, not by operator/.
def deleteFile (hash : String) : FileM (Except Status Unit) :=
  let filepath := BLOBS_PATH ++ hash
  catchFileSystemException
    (do
      let present ← fileExists filepath
      if present then do
        let _ ← removeFile filepath
        pure (.ok ())
      else pure (.error ⟨.cancelled, "Error while deleting blob: file not found " ++ filepath⟩))
    (fun what => pure (.error ⟨.cancelled, what⟩))

def saveBlob (workerAddress : String) (messages : List SaveBlobRequest) : WorkerM (Except Status Unit) := do
  match ← onWorkerFiles (receiveBlobFromFrontend X messages) with
  | .error status => pure (.error status)
  | .ok hash => do
      match ← masterNotifyBlobSaved ⟨workerAddress, hash⟩ with
      | .ok _ => pure (.ok ())
      | .error status => pure (.error ⟨.cancelled, status.message⟩)

def getBlob (blobHash : String) : WorkerM (Except Status Unit) := sendBlobToFrontend blobHash

def deleteBlob (blobHash : String) : WorkerM (Except Status Unit) := onWorkerFiles (deleteFile blobHash)

def getFreeStorage : FileM (Except Status UInt64) := do
  match ← (Failing.perform (FileCall.space BLOBS_PATH) : FileM (Except String UInt64)) with
  | .ok free => pure (.ok free)
  | .error what => pure (.error ⟨.cancelled, what⟩)

end WorkerService

inductive WorkerOp where
  | saveBlob (messages : List SaveBlobRequest)
  | getBlob (blobHash : String)
  | deleteBlob (blobHash : String)

def WorkerOp.program (X : Xxh64) (workerAddress : String) : WorkerOp → WorkerM (Except Status Unit)
  | .saveBlob messages => WorkerService.saveBlob X workerAddress messages
  | .getBlob blobHash => WorkerService.getBlob blobHash
  | .deleteBlob blobHash => WorkerService.deleteBlob blobHash

structure WorkerChoice where
  file : FileChoice := {}
  streamOpen : Bool := true
  master : Except Status Unit := .ok ()

instance : Inhabited WorkerChoice := ⟨{}⟩

def workerSem : Sem WorkerCall WorkerReply WorkerChoice FileSystem
  | .file call, choice, fs => fileSem call choice.file fs
  | .write _, choice, fs => (choice.streamOpen, fs)
  | .notifyBlobSaved _, choice, fs => (choice.master, fs)

end BlobStore
