import BlobStore.MasterDb

set_option autoImplicit false

namespace BlobStore

open Effects MasterDbRepository

structure GetWorkersToSaveBlobRequest where
  blobHash : String
  sizeMb : UInt64 := 0

structure NotifyBlobSavedRequest where
  workerAddress : String
  blobHash : String

structure RegisterWorkerRequest where
  address : String
  spaceAvailable : Int

-- static_cast<int64_t> of an unsigned 64-bit value.
def toInt64 (value : UInt64) : Int :=
  if value.toNat < 2 ^ 63 then (value.toNat : Int) else (value.toNat : Int) - 2 ^ 64

inductive MasterCall where
  | spanner (call : SpannerCall)
  | deleteAtWorker (blobHash workerAddress : String)

@[reducible] def MasterReply : MasterCall → Type
  | .spanner call => SpannerReply call
  | .deleteAtWorker _ _ => Except Status Unit

abbrev MasterM (α : Type) := Failing MasterCall MasterReply Status α

def onDb {α : Type} (program : DbM α) : MasterM α :=
  Failing.inline (fun call => Program.perform (MasterCall.spanner call)) program

namespace MasterService

-- The body of the for loop of GetWorkersToSaveBlob, over the workers still to do.
def reserveWorkers (blobHash : String) (blobSizeMb : Int) : List WorkerStateDTO → DbM (List String)
  | [] => pure []
  | worker :: rest => do
      addBlobEntry ⟨blobHash, worker.workerAddress, .duringCreation, blobSizeMb⟩
      updateWorkerState { worker with lockedSpaceMb := blobSizeMb + worker.lockedSpaceMb }
      let addresses ← reserveWorkers blobHash blobSizeMb rest
      pure (worker.workerAddress :: addresses)

-- The addresses travel in the response, which the caller sees on success only.
def getWorkersToSaveBlob (request : GetWorkersToSaveBlobRequest) : DbM (List String) := do
  let blobSizeMb := toInt64 request.sizeMb
  let workers ← getWorkersWithFreeSpace blobSizeMb 3
  reserveWorkers request.blobHash blobSizeMb workers

def getWorkerWithBlob (blobHash : String) : DbM String := do
  match ← querySavedBlobByHash blobHash with
  | [] => throw ⟨.cancelled, "Error: Blob with requested hash doesn't exist"⟩
  | blobCopy :: _ => do
      let workerState ← getWorkerState blobCopy.workerAddress
      pure workerState.workerAddress

def notifyBlobSaved (request : NotifyBlobSavedRequest) : DbM Unit := do
  match ← queryBlobByHashAndWorkerId request.blobHash request.workerAddress with
  | [blob] => do
      updateBlobEntry { blob with state := .saved }
      let workerState ← getWorkerState request.workerAddress
      updateWorkerState { workerState with
        lockedSpaceMb := workerState.lockedSpaceMb - blob.sizeMb
        availableSpaceMb := workerState.availableSpaceMb - blob.sizeMb }
  | _ => throw ⟨.cancelled, "Wrong query result"⟩

def registerWorker (request : RegisterWorkerRequest) : DbM Unit := do
  deleteWorkerState request.address
  deleteBlobEntriesByWorkerAddress request.address
  addWorkerState ⟨request.address, request.spaceAvailable, 0, 0⟩

-- Errors of a worker are only logged.
def requestWorkerToDeleteBlob (blobHash workerAddress : String) : MasterM Unit := do
  let _ ← Failing.perform (MasterCall.deleteAtWorker blobHash workerAddress)
  pure ()

def requestWorkersToDeleteBlob : List BlobCopyDTO → MasterM Unit
  | [] => pure ()
  | blobCopy :: rest => do
      requestWorkerToDeleteBlob blobCopy.hash blobCopy.workerAddress
      requestWorkersToDeleteBlob rest

def deleteBlob (blobHash : String) : MasterM Unit := do
  let blobCopies ← onDb (querySavedBlobByHash blobHash)
  requestWorkersToDeleteBlob blobCopies
  onDb (deleteBlobEntryByHash blobHash)

end MasterService

inductive MasterOp where
  | registerWorker (request : RegisterWorkerRequest)
  | getWorkersToSaveBlob (request : GetWorkersToSaveBlobRequest)
  | getWorkerWithBlob (blobHash : String)
  | notifyBlobSaved (request : NotifyBlobSavedRequest)
  | deleteBlob (blobHash : String)

inductive MasterResponse where
  | addresses (addresses : List String)
  | address (address : String)
  | done
deriving DecidableEq

def MasterOp.program : MasterOp → MasterM MasterResponse
  | .registerWorker request => do
      onDb (MasterService.registerWorker request)
      pure .done
  | .getWorkersToSaveBlob request => do
      let addresses ← onDb (MasterService.getWorkersToSaveBlob request)
      pure (.addresses addresses)
  | .getWorkerWithBlob blobHash => do
      let address ← onDb (MasterService.getWorkerWithBlob blobHash)
      pure (.address address)
  | .notifyBlobSaved request => do
      onDb (MasterService.notifyBlobSaved request)
      pure .done
  | .deleteBlob blobHash => do
      MasterService.deleteBlob blobHash
      pure .done

-- The master on its own: what a worker answers to a deletion is arbitrary.
structure MasterChoice where
  db : DbChoice := {}
  worker : Except Status Unit := .ok ()

instance : Inhabited MasterChoice := ⟨{}⟩

def masterSem : Sem MasterCall MasterReply MasterChoice Tables
  | .spanner call, choice, tables => spannerSem call choice.db tables
  | .deleteAtWorker _ _, choice, tables => (choice.worker, tables)

def masterStep (turn : MasterOp × List MasterChoice) (tables : Tables) :
    Except Status MasterResponse × Tables :=
  let outcome := exec masterSem turn.1.program.run turn.2 tables
  (outcome.1, outcome.2.2)

end BlobStore
