import BlobStore.MasterRules
import BlobStore.Library.Local

set_option autoImplicit false

namespace BlobStore

open Effects MasterDbRepository

abbrev MasterStep (ι : Type) := Step ι MasterCall MasterReply Tables
abbrev MasterPool (ι : Type) := Pool ι MasterCall MasterReply (Except Status MasterResponse) Tables

-- Calls on any number of masters that share the database. One turn is one read,
-- one commit, or one request to a worker.
def masterPool {ι : Type} (ops : ι → MasterOp) (tables : Tables) : MasterPool ι :=
  Pool.start (fun proc => (ops proc).program.run) tables

theorem commit_tables (mutation : Mutation) (choice : DbChoice) (tables : Tables) :
    (commitSem mutation choice tables).2 = tables ∨
      mutation.apply tables = some (commitSem mutation choice tables).2 := by
  unfold commitSem
  cases choice.fault with
  | none => cases applied : mutation.apply tables <;> simp
  | lost => exact .inl rfl
  | applied => cases applied : mutation.apply tables <;> simp

theorem commit_accepted (mutation : Mutation) (choice : DbChoice) (tables : Tables)
    (accepted : (commitSem mutation choice tables).1 = .ok ()) :
    mutation.apply tables = some (commitSem mutation choice tables).2 := by
  unfold commitSem at accepted ⊢
  cases fault : choice.fault with
  | none => cases applied : mutation.apply tables <;> simp_all
  | lost => simp [fault] at accepted
  | applied => simp [fault] at accepted

theorem select_tables (choice : DbChoice) (tables : Tables) :
    (∀ query, (spannerSem (.selectBlobs query) choice tables).2 = tables) ∧
      ∀ query, (spannerSem (.selectWorkers query) choice tables).2 = tables := by
  constructor
  · intro query
    simp only [spannerSem]
    split <;> rfl
  · intro query
    simp only [spannerSem]
    split <;> rfl

inductive RowChange (call : MasterCall) (key : String × String)
    (before after : Option BlobCopyDTO) : Prop where
  | kept (same : after = before)
  | inserted (entry : BlobCopyDTO) (effect : call = .spanner (.commit (.insertBlob entry)))
      (keyed : entry.key = key)
      (absent : before = none) (present : after = some entry)
  | updated (entry old : BlobCopyDTO) (effect : call = .spanner (.commit (.updateBlob entry)))
      (keyed : entry.key = key)
      (present : before = some old) (replaced : after = some entry)
  | deleted (absent : after = none)

theorem mutation_row_change (mutation : Mutation) (tables after : Tables) (key : String × String)
    (applied : mutation.apply tables = some after) :
    RowChange (.spanner (.commit mutation)) key (tables.blobCopy.find? key) (after.blobCopy.find? key) := by
  have deletion : ∀ doomed : BlobCopyDTO → Bool,
      RowChange (.spanner (.commit mutation)) key (tables.blobCopy.find? key)
        ((tables.blobCopy.delete doomed).find? key) := by
    intro doomed
    rw [Table.find_delete]
    cases found : tables.blobCopy.find? key with
    | none => exact .kept rfl
    | some entry =>
        by_cases gone : doomed entry
        · exact .deleted (by simp [gone])
        · exact .kept (by simp [gone])
  cases mutation with
  | insertBlob entry =>
      obtain ⟨rows, inserted, rfl⟩ := insert_blob_apply applied
      have lookup := Table.find_insert inserted key
      by_cases same : entry.key = key
      · have absent := ((Table.insert_some_iff _ _ _).mp inserted).1
        exact .inserted entry rfl same (same ▸ absent) (lookup.trans (if_pos same))
      · exact .kept (lookup.trans (if_neg same))
  | updateBlob entry =>
      obtain ⟨rows, updated, rfl⟩ := update_blob_apply applied
      have lookup := Table.find_update updated key
      by_cases same : entry.key = key
      · cases found : tables.blobCopy.find? key with
        | none =>
            rw [← same] at found
            rw [(Table.update_none_iff _ _).mpr found] at updated
            cases updated
        | some old => exact .updated entry old rfl same rfl (lookup.trans (if_pos same))
      · exact .kept (lookup.trans (if_neg same))
  | deleteBlobsByHash hash =>
      cases applied
      exact deletion _
  | deleteBlobsByWorker workerAddress =>
      cases applied
      exact deletion _
  | insertWorker row =>
      obtain ⟨rows, -, rfl⟩ := insert_worker_apply applied
      exact .kept rfl
  | updateWorker row =>
      obtain ⟨rows, -, rfl⟩ := update_worker_apply applied
      exact .kept rfl
  | deleteWorker workerAddress =>
      cases applied
      exact .kept rfl

theorem row_change (call : MasterCall) (choice : MasterChoice) (tables : Tables) (key : String × String) :
    RowChange call key (tables.blobCopy.find? key) ((masterSem call choice tables).2.blobCopy.find? key) := by
  cases call with
  | deleteAtWorker blobHash workerAddress => exact .kept rfl
  | spanner call =>
      cases call with
      | commit mutation =>
          cases commit_tables mutation choice.db tables with
          | inl same => exact .kept (congrArg (fun after => after.blobCopy.find? key) same)
          | inr applied => exact mutation_row_change mutation tables _ key applied
      | selectBlobs query =>
          exact .kept (congrArg (fun after => after.blobCopy.find? key)
            ((select_tables choice.db tables).1 query))
      | selectWorkers query =>
          exact .kept (congrArg (fun after => after.blobCopy.find? key)
            ((select_tables choice.db tables).2 query))

section Alone

variable {τ α : Type} {note : (call : SpannerCall) → SpannerReply call → τ → τ}
  {ok : ((call : SpannerCall) → SpannerReply call) → Prop}

theorem alone_commit (mutation : Mutation) (post : Except Status Unit → τ → Prop) (seen : τ)
    (accepted : post (.ok ()) (note (.commit mutation) (.ok ()) seen))
    (failed : ∀ replies message, ok replies → replies (.commit mutation) = .error message →
      post (.error (toGrpcStatus message)) (note (.commit mutation) (.error message) seen)) :
    wp (alone note) ok (commit mutation).run post seen := by
  rw [commit, wp_run_bind, wp_run_perform]
  intro replies allowed
  dsimp only [alone]
  cases reply : replies (.commit mutation) with
  | ok value => exact accepted
  | error message => exact failed replies message allowed reply

theorem alone_select_blobs (query : BlobQuery) (post : Except Status (List BlobCopyDTO) → τ → Prop) (seen : τ)
    (answered : ∀ replies rows, ok replies → replies (.selectBlobs query) = .ok rows →
      post (.ok rows) (note (.selectBlobs query) (.ok rows) seen))
    (failed : ∀ replies message, ok replies → replies (.selectBlobs query) = .error message →
      post (.error (toGrpcStatus message)) (note (.selectBlobs query) (.error message) seen)) :
    wp (alone note) ok (selectBlobs query).run post seen := by
  rw [selectBlobs, wp_run_bind, wp_run_perform]
  intro replies allowed
  dsimp only [alone]
  cases reply : replies (.selectBlobs query) with
  | ok rows => exact answered replies rows allowed reply
  | error message => exact failed replies message allowed reply

theorem alone_select_workers (query : WorkerQuery)
    (post : Except Status (List WorkerStateDTO) → τ → Prop) (seen : τ)
    (answered : ∀ replies rows, ok replies → replies (.selectWorkers query) = .ok rows →
      post (.ok rows) (note (.selectWorkers query) (.ok rows) seen))
    (failed : ∀ replies message, ok replies → replies (.selectWorkers query) = .error message →
      post (.error (toGrpcStatus message)) (note (.selectWorkers query) (.error message) seen)) :
    wp (alone note) ok (selectWorkers query).run post seen := by
  rw [selectWorkers, wp_run_bind, wp_run_perform]
  intro replies allowed
  dsimp only [alone]
  cases reply : replies (.selectWorkers query) with
  | ok rows => exact answered replies rows allowed reply
  | error message => exact failed replies message allowed reply

end Alone

theorem alone_on_db {τ α : Type} {note : (call : MasterCall) → MasterReply call → τ → τ}
    {ok : ((call : MasterCall) → MasterReply call) → Prop} (program : DbM α)
    (post : Except Status α → τ → Prop) (seen : τ)
    (holds : wp (alone (fun call reply => note (.spanner call) reply)) (fun replies => ∃ all,
      ok all ∧ replies = fun call => all (.spanner call)) program.run post seen) :
    wp (alone note) ok (onDb program).run post seen := by
  refine wp_inline_part _ _ id (fun _ part => part) ?_ ?_ ?_ ?_ program.run post seen holds
  · exact fun _ _ => rfl
  · exact fun _ _ _ => rfl
  · exact fun _ => rfl
  · intro call after whole each replies allowed
    exact each (fun call => replies (.spanner call)) ⟨replies, allowed, rfl⟩

end BlobStore
