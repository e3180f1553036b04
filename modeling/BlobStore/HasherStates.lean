import BlobStore.FrontendService
import BlobStore.Library.Handles

set_option autoImplicit false

namespace BlobStore

open Effects

-- The functions of xxhash.h that take a pointer to a state.
inductive XxhCall where
  | reset
  | update (bytes : Bytes)
  | digest

@[reducible] def XxhReply : XxhCall → Type
  | .reset => Bool
  | .update _ => Bool
  | .digest => UInt64

-- A new state has no content until it is reset. The functions report an error for a null
-- pointer only, and c_str() is none.
@[reducible] def xxhStates (X : Xxh64) : Interface where
  Value := Option X.State
  Op := XxhCall
  Reply := XxhReply
  fresh := none
  ready
    | .reset, _ => true
    | _, state => state.isSome
  act
    | .reset, _ => (true, some X.reset)
    | .update bytes, some state => (true, some (X.update state bytes))
    | .update _, none => (false, none)
    | .digest, some state => (X.digest state, some state)
    | .digest, none => (0, none)

inductive Escaping where
  | thrown (exception : Thrown)
  | runtimeError (what : String)
deriving DecidableEq

abbrev StateM (E : Type) (R : E → Type) (X : Xxh64) (α : Type) :=
  Failing (HandleCall E (xxhStates X)) (HandleReply R (xxhStates X)) Escaping α

section Programs

variable {E : Type} {R : E → Type} {X : Xxh64} {α : Type}

def escape : Except Thrown α → Except Escaping α
  | .ok value => .ok value
  | .error exception => .error (.thrown exception)

def withoutStates (program : Failing E R Thrown α) : StateM E R X α :=
  ExceptT.mk (onBase program.run >>= fun outcome => pure (escape outcome))

def onStates {F : Type} {S : F → Type} (impl : (call : E) → Program F S (R call))
    (program : StateM E R X α) : StateM F S X α :=
  ExceptT.mk (program.run.inline (besideHandles impl))

-- try { ... } catch (const BlobFile::FileSystemException &fse) { ... }
def catchFileSystem (body : StateM E R X α) (handler : String → StateM E R X α) : StateM E R X α :=
  ExceptT.mk (body.run >>= fun outcome =>
    match outcome with
    | .error (.thrown (.fileSystemException what)) => (handler what).run
    | other => pure other)

def XXH64_createState : StateM E R X (Option Nat) := Failing.perform HandleCall.create

def XXH64_reset (state : Nat) : StateM E R X Bool :=
  @Failing.perform (HandleCall E (xxhStates X)) (HandleReply R (xxhStates X)) Escaping
    (.apply state XxhCall.reset)

def XXH64_update (state : Nat) (bytes : Bytes) : StateM E R X Bool :=
  @Failing.perform (HandleCall E (xxhStates X)) (HandleReply R (xxhStates X)) Escaping
    (.apply state (XxhCall.update bytes))

def XXH64_digest (state : Nat) : StateM E R X UInt64 :=
  @Failing.perform (HandleCall E (xxhStates X)) (HandleReply R (xxhStates X)) Escaping
    (.apply state XxhCall.digest)

def XXH64_freeState (state : Nat) : StateM E R X Unit := Failing.perform (HandleCall.free state)

-- The class BlobHasher with its pointer.
structure StateHasher where
  state : Nat

namespace StateHasher

def create : StateM E R X StateHasher := do
  match ← XXH64_createState with
  | none => throw (.runtimeError "XXH64_createState failed")
  | some state => do
      let done ← XXH64_reset state
      if done then pure ⟨state⟩ else throw (.runtimeError "XXH64_reset failed")

def addChunk (hasher : StateHasher) (bytes : Bytes) : StateM E R X Unit := do
  let done ← XXH64_update hasher.state bytes
  if done then pure () else throw (.runtimeError "XXH64_update failed")

def finalize (hasher : StateHasher) : StateM E R X String := do
  let hash ← XXH64_digest hasher.state
  XXH64_freeState hasher.state
  pure (Nat.repr hash.toNat)

end StateHasher

end Programs

-- The functions that hash what they receive, once more, with the state behind its pointer.
namespace OnStates

variable (X : Xxh64)

def receiveMessages (blobHasher : StateHasher) :
    List SaveBlobRequest → String → Option BlobFile → StateM FileCall FileReply X (String × Option BlobFile)
  | [], requestHash, blobFile => pure (requestHash, blobFile)
  | request :: rest, requestHash, blobFile => do
      let (requestHash, blobFile) ←
        if requestHash = "" then do
          let created ← withoutStates (BlobFile.create request.blobHash)
          pure (request.blobHash, some created)
        else pure (requestHash, blobFile)
      match blobFile with
      | none => throw (.thrown .undefinedBehaviour)
      | some blobFile => do
          let blobFile ← withoutStates (blobFile.appendChunk request.chunkData)
          blobHasher.addChunk request.chunkData
          receiveMessages blobHasher rest requestHash (some blobFile)

def receiveBlobFromFrontend (messages : List SaveBlobRequest) :
    StateM FileCall FileReply X (Except Status String) :=
  catchFileSystem
    (do
      let blobHasher ← StateHasher.create
      let (requestHash, blobFile) ← receiveMessages X blobHasher messages "" none
      let blobHash ← blobHasher.finalize
      if requestHash ≠ blobHash then
        match blobFile with
        | none => throw (.thrown .undefinedBehaviour)
        | some blobFile => do
            let _ ← withoutStates blobFile.remove
            pure (.error ⟨.invalidArgument, "Blob hash mismatch."⟩)
      else pure (.ok requestHash))
    (fun what => pure (.error ⟨.cancelled, what⟩))

def saveBlob (workerAddress : String) (messages : List SaveBlobRequest) :
    StateM WorkerCall WorkerReply X (Except Status Unit) := do
  match ← onStates workerFile (receiveBlobFromFrontend X messages) with
  | .error status => pure (.error status)
  | .ok hash => do
      match ← withoutStates (masterNotifyBlobSaved ⟨workerAddress, hash⟩) with
      | .ok _ => pure (.ok ())
      | .error status => pure (.error ⟨.cancelled, status.message⟩)

def receiveChunks (blobHasher : StateHasher) :
    List UploadBlobRequest → BlobFile → StateM FrontendCall FrontendReply X (Except Status BlobFile)
  | [], blobFile => pure (.ok blobFile)
  | .chunkData chunk :: rest, blobFile => do
      let blobFile ← withoutStates (Frontend.onFrontendFiles (blobFile.appendChunk chunk))
      blobHasher.addChunk chunk
      receiveChunks blobHasher rest blobFile
  | _ :: _, _ => pure (.error ⟨.invalidArgument, "Request missing chunk data."⟩)

def receiveAndHashBlob (messages : List UploadBlobRequest) :
    StateM FrontendCall FrontendReply X (Except Status (BlobFile × String)) :=
  match messages.headD .notSet with
  | .info blobSize =>
      catchFileSystem
        (do
          let blobHasher ← StateHasher.create
          let drawn ← withoutStates Frontend.rand
          let blobFilename := "temp" ++ toString drawn ++ ".blob"
          let blobFile ← withoutStates (Frontend.onFrontendFiles (BlobFile.create blobFilename))
          match ← receiveChunks X blobHasher messages.tail blobFile with
          | .error status => pure (.error status)
          | .ok blobFile => do
              let blobHash ← blobHasher.finalize
              if blobFile.fileSize ≠ blobSize.toNat then
                pure (.error ⟨.invalidArgument, "Blob file size mismatch."⟩)
              else pure (.ok (blobFile, blobHash)))
        (fun what => pure (.error ⟨.cancelled, what⟩))
  | _ => pure (.error ⟨.invalidArgument, "Request should start with blob info."⟩)

def uploadBlob (service : FrontendServiceImpl) (messages : List UploadBlobRequest) :
    StateM FrontendCall FrontendReply X (Except Status String) := do
  match ← receiveAndHashBlob X messages with
  | .error status => pure (.error status)
  | .ok (blobFile, blobHash) => withoutStates do
      match ← FrontendServiceImpl.getWorkersFromMaster blobHash
        (service.getMasterServiceAddressBasedOnHash blobHash) with
      | .error status => pure (.error status)
      | .ok workers => do
          match ← FrontendServiceImpl.sendBlobToWorkers blobFile blobHash workers with
          | .error status => pure (.error status)
          | .ok _ => do
              let _ ← Frontend.onFrontendFiles blobFile.remove
              pure (.ok blobHash)

end OnStates

end BlobStore
