import BlobStore.Library.Program
import BlobStore.Library.Table

set_option autoImplicit false

namespace BlobStore

open Effects

-- The codes this repository names. OK is not among them: a call that returns OK
-- is the ok case of an Except.
inductive StatusCode where
  | cancelled
  | invalidArgument
  | notFound
  | resourceExhausted
  | unavailable
  | unknown
deriving DecidableEq

structure Status where
  code : StatusCode
  message : String
deriving DecidableEq

inductive BlobState where
  | duringCreation
  | saved
deriving DecidableEq

structure BlobCopyDTO where
  hash : String
  workerAddress : String
  state : BlobState
  sizeMb : Int
deriving DecidableEq

structure WorkerStateDTO where
  workerAddress : String
  availableSpaceMb : Int
  lockedSpaceMb : Int
  lastHeartbeatEpochTs : Int
deriving DecidableEq

def BlobCopyDTO.key (entry : BlobCopyDTO) : String × String := (entry.hash, entry.workerAddress)

abbrev BlobTable := Table (String × String) BlobCopyDTO BlobCopyDTO.key
abbrev WorkerTable := Table String WorkerStateDTO WorkerStateDTO.workerAddress

structure Tables where
  blobCopy : BlobTable
  workerState : WorkerTable

def Tables.empty : Tables := ⟨Table.empty, Table.empty⟩

-- The columns are INT64 and the code adds in int64_t; both are exact integers here. The
-- two agree on every call whose sums stay in this range. A placement of a size that is not
-- negative stays in it while no lock is negative or above the space (`WithinSpace`), since
-- the query compares first; a run that may leave it is asked not to (`WorkerStateDTO.Fits`).
def InInt64 (value : Int) : Prop := -2 ^ 63 ≤ value ∧ value < 2 ^ 63

instance : DecidablePred InInt64 :=
  fun value => inferInstanceAs (Decidable (-2 ^ 63 ≤ value ∧ value < 2 ^ 63))

inductive Mutation where
  | insertBlob (entry : BlobCopyDTO)
  | updateBlob (entry : BlobCopyDTO)
  | deleteBlobsByHash (hash : String)
  | deleteBlobsByWorker (workerAddress : String)
  | insertWorker (workerState : WorkerStateDTO)
  | updateWorker (workerState : WorkerStateDTO)
  | deleteWorker (workerAddress : String)

-- An insert of a key that exists and an update of one that does not are refused.
def Mutation.apply (mutation : Mutation) (tables : Tables) : Option Tables :=
  match mutation with
  | .insertBlob entry => (tables.blobCopy.insert entry).map (fun rows => { tables with blobCopy := rows })
  | .updateBlob entry => (tables.blobCopy.update entry).map (fun rows => { tables with blobCopy := rows })
  | .deleteBlobsByHash hash =>
      some { tables with blobCopy := tables.blobCopy.delete (fun entry => entry.hash = hash) }
  | .deleteBlobsByWorker workerAddress =>
      some { tables with
        blobCopy := tables.blobCopy.delete (fun entry => entry.workerAddress = workerAddress) }
  | .insertWorker workerState =>
      (tables.workerState.insert workerState).map (fun rows => { tables with workerState := rows })
  | .updateWorker workerState =>
      (tables.workerState.update workerState).map (fun rows => { tables with workerState := rows })
  | .deleteWorker workerAddress =>
      some { tables with
        workerState := tables.workerState.delete (fun row => row.workerAddress = workerAddress) }

inductive BlobQuery where
  | savedByHash (hash : String)
  | byHashAndWorker (hash workerAddress : String)

def BlobQuery.selects (query : BlobQuery) (entry : BlobCopyDTO) : Bool :=
  match query with
  | .savedByHash hash => entry.hash = hash ∧ entry.state = .saved
  | .byHashAndWorker hash workerAddress => entry.hash = hash ∧ entry.workerAddress = workerAddress

inductive WorkerQuery where
  | byAddress (workerAddress : String)
  | withFreeSpace (spaceNeeded : Int) (limit : Nat)

def WorkerQuery.selects (query : WorkerQuery) (row : WorkerStateDTO) : Bool :=
  match query with
  | .byAddress workerAddress => row.workerAddress = workerAddress
  | .withFreeSpace spaceNeeded _ => spaceNeeded ≤ row.availableSpaceMb - row.lockedSpaceMb

def WorkerQuery.cut (query : WorkerQuery) (rows : List WorkerStateDTO) : List WorkerStateDTO :=
  match query with
  | .byAddress _ => rows
  | .withFreeSpace _ limit => rows.take limit

-- The database scans a table in any order it likes.
structure RowOrder (ρ : Type) where
  order : List ρ → List ρ
  perm : ∀ rows, (order rows).Perm rows

def RowOrder.stored {ρ : Type} : RowOrder ρ := ⟨id, fun _ => .rfl⟩

-- A failing commit may or may not have been applied.
inductive DbFault where
  | none
  | lost
  | applied
deriving DecidableEq

structure DbChoice where
  fault : DbFault := .none
  message : String := ""
  blobOrder : RowOrder BlobCopyDTO := .stored
  workerOrder : RowOrder WorkerStateDTO := .stored

instance : Inhabited DbChoice := ⟨{}⟩

inductive SpannerCall where
  | commit (mutation : Mutation)
  | selectBlobs (query : BlobQuery)
  | selectWorkers (query : WorkerQuery)

@[reducible] def SpannerReply : SpannerCall → Type
  | .commit _ => Except String Unit
  | .selectBlobs _ => Except String (List BlobCopyDTO)
  | .selectWorkers _ => Except String (List WorkerStateDTO)

def commitSem (mutation : Mutation) (choice : DbChoice) (tables : Tables) : Except String Unit × Tables :=
  match choice.fault with
  | .none =>
      match mutation.apply tables with
      | some after => (.ok (), after)
      | none => (.error choice.message, tables)
  | .lost => (.error choice.message, tables)
  | .applied => (.error choice.message, (mutation.apply tables).getD tables)

def spannerSem : Sem SpannerCall SpannerReply DbChoice Tables
  | .commit mutation, choice, tables => commitSem mutation choice tables
  | .selectBlobs query, choice, tables =>
      if choice.fault = .none then
        (.ok ((choice.blobOrder.order tables.blobCopy.rows).filter query.selects), tables)
      else (.error choice.message, tables)
  | .selectWorkers query, choice, tables =>
      if choice.fault = .none then
        (.ok (query.cut ((choice.workerOrder.order tables.workerState.rows).filter query.selects)), tables)
      else (.error choice.message, tables)

abbrev DbM (α : Type) := Failing SpannerCall SpannerReply Status α

def toGrpcStatus (message : String) : Status := ⟨.cancelled, message⟩

def orStatus {α : Type} (outcome : Except String α) : DbM α :=
  match outcome with
  | .ok value => pure value
  | .error message => throw (toGrpcStatus message)

def commit (mutation : Mutation) : DbM Unit := Failing.perform (SpannerCall.commit mutation) >>= orStatus
def selectBlobs (query : BlobQuery) : DbM (List BlobCopyDTO) :=
  Failing.perform (SpannerCall.selectBlobs query) >>= orStatus
def selectWorkers (query : WorkerQuery) : DbM (List WorkerStateDTO) :=
  Failing.perform (SpannerCall.selectWorkers query) >>= orStatus

namespace MasterDbRepository

def addBlobEntry (entry : BlobCopyDTO) : DbM Unit := commit (.insertBlob entry)
def updateBlobEntry (entry : BlobCopyDTO) : DbM Unit := commit (.updateBlob entry)
def querySavedBlobByHash (hash : String) : DbM (List BlobCopyDTO) := selectBlobs (.savedByHash hash)
def queryBlobByHashAndWorkerId (hash workerAddress : String) : DbM (List BlobCopyDTO) :=
  selectBlobs (.byHashAndWorker hash workerAddress)
def deleteBlobEntryByHash (hash : String) : DbM Unit := commit (.deleteBlobsByHash hash)
def deleteBlobEntriesByWorkerAddress (workerAddress : String) : DbM Unit :=
  commit (.deleteBlobsByWorker workerAddress)
def addWorkerState (workerState : WorkerStateDTO) : DbM Unit := commit (.insertWorker workerState)
def updateWorkerState (workerState : WorkerStateDTO) : DbM Unit := commit (.updateWorker workerState)
def deleteWorkerState (workerAddress : String) : DbM Unit := commit (.deleteWorker workerAddress)

def getWorkerState (workerAddress : String) : DbM WorkerStateDTO := do
  match ← selectWorkers (.byAddress workerAddress) with
  | row :: _ => pure row
  | [] => throw ⟨.notFound, "No worker state exists with given id"⟩

def getWorkersWithFreeSpace (spaceNeeded : Int) (numWorkers : Nat) : DbM (List WorkerStateDTO) := do
  let result ← selectWorkers (.withFreeSpace spaceNeeded numWorkers)
  if result.length < numWorkers then
    throw ⟨.resourceExhausted, "Requested " ++ toString numWorkers ++ " workers, but only " ++
      toString result.length ++ " workers matching the criteria exist"⟩
  else pure result

end MasterDbRepository

end BlobStore
