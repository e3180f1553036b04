import BlobStore.ClusterRules
import BlobStore.SendRules

set_option autoImplicit false

namespace BlobStore

open Effects FileSystem WorkerService

def Delivered (fs : FileSystem) (blobHash : String) (chunks : List Bytes) : Prop :=
  chunks = [] ∨ ∃ base bytes, makeBlobs fs = some base ∧
    base.content (joinPath "blobs" blobHash) = some bytes ∧ Leading bytes chunks

theorem delivered_take {fs : FileSystem} {blobHash : String} {chunks : List Bytes}
    (delivered : Delivered fs blobHash chunks) (reached : Nat) :
    Delivered fs blobHash (chunks.take reached) := by
  cases delivered with
  | inl none => exact .inl (by rw [none, List.take_nil])
  | inr some =>
      obtain ⟨base, bytes, made, there, leading⟩ := some
      exact .inr ⟨base, bytes, made, there, leading_take leading reached⟩

variable {ok : Choice → Prop} {trouble : Prop}

-- What a worker's stream is when it ends: part of a file, and all of it when
-- nothing goes wrong.
def StreamContract (trouble : Prop) (address blobHash : String) (cluster : Cluster)
    (outcome : Except Thrown (Except Status Unit)) (after : Cluster × List Bytes) : Prop :=
  Delivered (cluster.workers address) blobHash after.2 ∧
    (trouble ∨ ∀ bytes, HasBlobs (cluster.workers address) →
      (cluster.workers address).content (joinPath "blobs" blobHash) = some bytes →
        outcome = .ok (.ok ()) ∧ after.1 = cluster ∧ after.2.flatten = bytes)

theorem wp_stream_write (expects : Expects ok trouble) (address : String) (chunk : Bytes)
    (post : Except Thrown Bool → Cluster × List Bytes → Prop) (cluster : Cluster)
    (written : List Bytes) (opened : post (.ok true) (cluster, written ++ [chunk]))
    (closed : trouble → post (.ok false) (cluster, written)) :
    wp (composedWith (workerStreamImpl address) clusterSem) (EveryChoice ok)
      (writeResponse chunk).run post (cluster, written) := by
  refine wp_run_composed_with expects.fallback (workerStreamImpl address)
    (WorkerCall.write chunk) post cluster written ?_
  rw [workerStreamImpl, wp_bind]
  exact wp_stream_open expects _ cluster opened closed

theorem wp_stream_blob (expects : Expects ok trouble) (address blobHash : String) (cluster : Cluster) :
    wp (composedWith (workerStreamImpl address) clusterSem) (EveryChoice ok)
      (WorkerService.getBlob blobHash).run
      (StreamContract trouble address blobHash cluster) (cluster, []) := by
  have delivered : ∀ base bytes chunks, Streaming (cluster.workers address) blobHash base bytes chunks →
      Delivered (cluster.workers address) blobHash chunks :=
    fun base bytes chunks streaming => .inr ⟨base, bytes, streaming.made, streaming.there, streaming.leading⟩
  refine wp_send_blob (expected_files expects) (streaming_worker_files expects.fallback address) blobHash
    (fun base chunks => (withWorker cluster address base, chunks)) _ (cluster, []) (fun _ => rfl)
    (fun base _ => with_worker_at cluster address base) ?_ ?_ ?_ ?_ ?_
  · intro base bytes chunks chunk next streaming opened refused
    refine wp_stream_write expects address chunk next _ chunks opened ?_
    intro troubled
    exact refused _ (fun _ => ⟨delivered base bytes chunks streaming, .inl troubled⟩)
  · intro base bytes chunks streaming whole
    refine ⟨delivered base bytes chunks streaming, .inr ?_⟩
    intro held blobs content
    obtain rfl := Option.some.inj ((make_blobs _ blobs).symm.trans streaming.made)
    obtain rfl := Option.some.inj (streaming.there.symm.trans content)
    exact ⟨rfl, with_worker_same cluster address, whole⟩
  · intro troubled base bytes chunks streaming status
    exact ⟨delivered base bytes chunks streaming, .inl troubled⟩
  · intro base made missing status
    refine ⟨.inl rfl, .inr ?_⟩
    intro bytes blobs content
    obtain rfl := Option.some.inj ((make_blobs _ blobs).symm.trans made)
    rw [FileSystem.content, missing] at content
    cases content
  · intro failed outcome after
    refine ⟨.inl rfl, ?_⟩
    rcases failed with troubled | unmade | directory
    · exact .inl troubled
    · refine .inr (fun bytes blobs _ => ?_)
      rw [make_blobs _ blobs] at unmade
      cases unmade
    · refine .inr (fun bytes blobs content => ?_)
      obtain ⟨base, made, there⟩ := directory
      obtain rfl := Option.some.inj ((make_blobs _ blobs).symm.trans made)
      rw [FileSystem.content, there] at content
      cases content

theorem wp_stream_on_cluster (expects : Expects ok trouble) (address blobHash : String)
    (post : GetBlobStream → Cluster → Prop) (cluster : Cluster)
    (ended : ∀ outcome after, StreamContract trouble address blobHash cluster outcome after →
      post ⟨after.2, handlerStatus outcome⟩ after.1) :
    wp clusterSem ok (workerStreamOnCluster address (WorkerService.getBlob blobHash)) post cluster := by
  rw [workerStreamOnCluster, wp_bind]
  refine wp_inline_with (workerStreamImpl address) _ _ cluster [] ?_
  exact wp_mono _ _ _ _ ended (wp_stream_blob expects address blobHash cluster)

theorem wp_get_blob_call (expects : Expects ok trouble) (address blobHash : String)
    (post : GetBlobStream → Cluster → Prop) (cluster : Cluster)
    (ended : ∀ outcome after, StreamContract trouble address blobHash cluster outcome after →
      post ⟨after.2, handlerStatus outcome⟩ after.1)
    (failed : trouble → ∀ chunks status after, Delivered (cluster.workers address) blobHash chunks →
      post ⟨chunks, status⟩ after) :
    wp clusterSem ok (getBlobCall address blobHash) post cluster := by
  rw [getBlobCall]
  refine wp_rpc expects _ post cluster (wp_stream_on_cluster expects address blobHash post cluster ended) ?_
  intro troubled fate other
  cases fate with
  | delivered => exact absurd rfl other
  | requestLost message => exact failed troubled _ _ _ (.inl rfl)
  | replyLost message =>
      dsimp only
      rw [wp_bind]
      exact wp_stream_on_cluster expects address blobHash _ cluster
        (fun _ after contract => failed troubled _ _ after.1 contract.1)
  | cut reached message =>
      dsimp only
      rw [wp_bind]
      exact wp_stream_on_cluster expects address blobHash _ cluster
        (fun _ after contract => failed troubled _ _ after.1 (delivered_take contract.1 reached))

end BlobStore
