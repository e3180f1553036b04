import BlobStore.ClientCalls
import BlobStore.Library.Refinement

set_option autoImplicit false

namespace BlobStore

open Effects FileSystem FrontendServiceImpl

inductive ClientOp where
  | uploadBlob (chunks : List Bytes)
  | getBlob (blobId : String)
  | deleteBlob (blobHash : String)

inductive ClientResponse where
  | uploaded (result : Except Thrown (Except Status String))
  | got (result : Except Thrown (Except Status Unit)) (written : List Bytes)
  | deleted (result : Except Thrown DeleteBlobResponse)

abbrev ClientTurn := ClientOp × List (List Choice)

def clientStep (X : Xxh64) (service : FrontendServiceImpl) (turn : ClientTurn) (cluster : Cluster) :
    ClientResponse × Cluster :=
  match turn.1 with
  | .uploadBlob chunks =>
      let run := exec (frontendSem X) (service.uploadBlob X (uploadOf chunks)).run turn.2 cluster
      (.uploaded run.1, run.2.2)
  | .getBlob blobId =>
      let run := getBlobRun X service blobId turn.2 cluster
      (.got run.1 run.2.2.2, run.2.2.1)
  | .deleteBlob blobHash =>
      let run := exec (frontendSem X) (service.deleteBlob blobHash).run turn.2 cluster
      (.deleted run.1, run.2.2)

-- The size of a blob travels as a 64-bit number.
def ClientOp.Correct : ClientOp → Prop
  | .uploadBlob chunks => chunks.flatten ≠ [] ∧ chunks.flatten.length < 2 ^ 64
  | _ => True

def ClientOp.blob? : ClientOp → Option Bytes
  | .uploadBlob chunks => some chunks.flatten
  | _ => none

def uploadedBlobs (turns : List ClientTurn) : List Bytes := turns.filterMap (fun turn => turn.1.blob?)

def blobSpec (X : Xxh64) : Spec ClientTurn ClientResponse (BlobMap X) where
  allowed := fun map turn response =>
    match turn.1, response with
    | .uploadBlob chunks, .uploaded result =>
        result = .ok (.ok (X.blobHash chunks.flatten)) ∨ ∃ status, result = .ok (.error status)
    | .getBlob blobId, .got result written => GetAnswer map blobId result written
    | .deleteBlob _, .deleted result => ∃ response, result = .ok response ∧ response.status = .ok ()
    | _, _ => False
  next := fun map turn response =>
    match turn.1, response with
    | .uploadBlob chunks, .uploaded (.ok (.ok _)) => map.put chunks.flatten
    | .deleteBlob blobHash, _ => map.remove blobHash
    | _, _ => map

-- An upload is refused for lack of space, or for a row that is there already.
def RefusedForCause (X : Xxh64) (taken : Transition ClientTurn Cluster ClientResponse) : Prop :=
  ∀ chunks status, taken.op.1 = .uploadBlob chunks → taken.result = .uploaded (.ok (.error status)) →
    Unplaceable (X.blobHash chunks.flatten) 0 taken.before.tables

theorem client_step_refines {X : Xxh64} {blobs : List Bytes} (apart : TellsApart X blobs)
    (service : FrontendServiceImpl) (cluster : Cluster) (map : BlobMap X) (turn : ClientTurn)
    (represents : Represents X blobs cluster map)
    (healthy : ∀ choices ∈ turn.2, ∀ choice ∈ choices, Healthy choice) (correct : turn.1.Correct)
    (known : ∀ bytes, turn.1.blob? = some bytes → bytes ∈ blobs) :
    (blobSpec X).allowed map turn (clientStep X service turn cluster).1 ∧
      RefusedForCause X (transition (clientStep X service) cluster turn) ∧
      Represents X blobs (clientStep X service turn cluster).2
        ((blobSpec X).next map turn (clientStep X service turn cluster).1) := by
  obtain ⟨op, choices⟩ := turn
  have fallback : EveryChoice Healthy default := fun _ member => by cases member
  cases op with
  | uploadBlob chunks =>
      have answer := wp_sound (EveryChoice Healthy) _ _ choices cluster fallback healthy
        (wp_upload_whole represents apart service chunks correct.1 correct.2 (known _ rfl))
      have step : clientStep X service (.uploadBlob chunks, choices) cluster =
          (.uploaded (exec (frontendSem X) (service.uploadBlob X (uploadOf chunks)).run choices cluster).1,
            (exec (frontendSem X) (service.uploadBlob X (uploadOf chunks)).run choices cluster).2.2) := rfl
      rw [RefusedForCause, transition, step]
      cases answer with
      | inl stored =>
          obtain ⟨result, kept⟩ := stored
          rw [result]
          exact ⟨.inl rfl, fun _ _ _ refused => (by cases refused), kept⟩
      | inr refused =>
          obtain ⟨⟨status, result⟩, cause, kept⟩ := refused
          rw [result]
          refine ⟨.inr ⟨status, rfl⟩, ?_, kept⟩
          intro same _ op _
          obtain rfl := ClientOp.uploadBlob.inj op
          exact cause
  | getBlob blobId =>
      have answer := wp_sound (EveryChoice Healthy) _ _ choices (cluster, []) fallback healthy
        (wp_get_whole represents service blobId)
      obtain ⟨same, answered⟩ := answer
      refine ⟨answered, fun _ _ op _ => (by cases op), ?_⟩
      have after : (clientStep X service (.getBlob blobId, choices) cluster).2 = cluster := same
      rw [after]
      exact represents
  | deleteBlob blobHash =>
      have answer := wp_sound (EveryChoice Healthy) _ _ choices cluster fallback healthy
        (wp_delete_whole represents service blobHash)
      exact ⟨answer.1, fun _ _ op _ => (by cases op), answer.2⟩

theorem client_runs_refine_one_map (X : Xxh64) (service : FrontendServiceImpl) (cluster : Cluster)
    (turns : List ClientTurn) (unused : cluster.tables.blobCopy = Table.empty)
    (workers : ∀ worker, Registered cluster.tables worker → EmptyBlobs (cluster.workers worker))
    (frontend : EmptyBlobs cluster.frontend)
    (healthy : ∀ turn ∈ turns, ∀ choices ∈ turn.2, ∀ choice ∈ choices, Healthy choice)
    (correct : ∀ turn ∈ turns, turn.1.Correct) (apart : TellsApart X (uploadedBlobs turns)) :
    (blobSpec X).Explains NamedMap.empty (transitions (clientStep X service) cluster turns) ∧
      ∀ taken ∈ transitions (clientStep X service) cluster turns, RefusedForCause X taken := by
  refine (blobSpec X).simulation (clientStep X service) (Represents X (uploadedBlobs turns))
    (fun turn => turn ∈ turns)
    (RefusedForCause X) ?_ cluster NamedMap.empty turns
      (represents_start X _ cluster unused workers frontend) (fun _ member => member)
  intro state map turn represents member
  refine client_step_refines apart service state map turn represents
    (healthy turn member) (correct turn member) ?_
  intro bytes blob
  exact List.mem_filterMap.mpr ⟨turn, member, blob⟩

theorem client_runs_refine_one_map_run :
    let turns : List ClientTurn := [(.uploadBlob [[97], [98]], []), (.uploadBlob [[97, 98]], []),
      (.getBlob "7347350983217793633", []), (.deleteBlob "7347350983217793633", []),
        (.getBlob "7347350983217793633", [])]
    (blobSpec referenceXxh64).Explains NamedMap.empty
      (transitions (clientStep referenceXxh64 oneMaster) threeFreshWorkers turns) ∧
      ∀ taken ∈ transitions (clientStep referenceXxh64 oneMaster) threeFreshWorkers turns,
          RefusedForCause referenceXxh64 taken :=
  client_runs_refine_one_map referenceXxh64 oneMaster threeFreshWorkers _ rfl
    (fun _ _ => fresh_worker_empty) fresh_worker_empty
    (by simp) (by simp [ClientOp.Correct])
    (by simp [TellsApart, uploadedBlobs, ClientOp.blob?])

end BlobStore
