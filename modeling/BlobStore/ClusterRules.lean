import BlobStore.Cluster
import BlobStore.BlobRules
import BlobStore.MasterRules

set_option autoImplicit false

namespace BlobStore

open Effects FileSystem

-- The choices of a cluster in which everything works, but for trouble that is expected.
structure Expects (ok : Choice → Prop) (trouble : Prop) : Prop where
  fallback : ok default
  files : ∀ choice, ok choice → FileHealthy choice.file ∨ trouble
  db : ∀ choice, ok choice → DbHealthy choice.db ∨ trouble
  fates : ∀ choice, ok choice → choice.fate = .delivered ∨ trouble
  streams : ∀ choice, ok choice → choice.streamOpen = true ∨ trouble

def FileChoices (ok : Choice → Prop) (choice : FileChoice) : Prop := ∃ whole, ok whole ∧ whole.file = choice
def DbChoices (ok : Choice → Prop) (choice : DbChoice) : Prop := ∃ whole, ok whole ∧ whole.db = choice

variable {ok : Choice → Prop} {trouble : Prop}

theorem expected_files (expects : Expects ok trouble) : Tolerates (FileChoices ok) trouble := by
  intro choice allowed
  obtain ⟨whole, allowed, rfl⟩ := allowed
  exact expects.files whole allowed

theorem expected_db (expects : Expects ok trouble) : DbTolerates (DbChoices ok) trouble := by
  intro choice allowed
  obtain ⟨whole, allowed, rfl⟩ := allowed
  exact expects.db whole allowed

theorem expects_anything : Expects (fun _ => True) True :=
  ⟨trivial, fun _ _ => .inr trivial, fun _ _ => .inr trivial, fun _ _ => .inr trivial,
    fun _ _ => .inr trivial⟩

theorem wp_rpc {α : Type} (expects : Expects ok trouble) (next : RpcFate → ClusterM α)
    (post : α → Cluster → Prop) (cluster : Cluster)
    (delivered : wp clusterSem ok (next .delivered) post cluster)
    (failed : trouble → ∀ fate, fate ≠ .delivered → wp clusterSem ok (next fate) post cluster) :
    wp clusterSem ok (rpcFate >>= next) post cluster := by
  rw [wp_bind, rpcFate, wp_perform]
  intro choice allowed
  simp only [clusterSem]
  by_cases fate : choice.fate = .delivered
  · rw [fate]
    exact delivered
  · exact failed ((expects.fates choice allowed).resolve_left fate) choice.fate fate

-- The caller of a handler may be told that it is unavailable after it has run.
theorem wp_unary {α : Type} (expects : Expects ok trouble) (handler : ClusterM (Except Status α))
    (post : Except Status α → Cluster → Prop) (cluster : Cluster)
    (holds : wp clusterSem ok handler
      (fun outcome after => post outcome after ∧
        (trouble → ∀ message, post (unavailable message) after)) cluster)
    (lost : trouble → ∀ message, post (unavailable message) cluster) :
    wp clusterSem ok (unary handler) post cluster := by
  have replyLost : trouble → ∀ message,
      wp clusterSem ok (handler >>= fun _ => pure (unavailable message)) post cluster := by
    intro troubled message
    rw [wp_bind]
    exact wp_mono _ _ _ _ (fun _ _ kept => kept.2 troubled message) holds
  rw [unary]
  refine wp_rpc expects _ post cluster (wp_mono _ _ _ _ (fun _ _ kept => kept.1) holds) ?_
  intro troubled fate other
  cases fate with
  | delivered => exact absurd rfl other
  | requestLost message => exact lost troubled message
  | replyLost message => exact replyLost troubled message
  | cut reached message => exact replyLost troubled message

theorem wp_stream_open (expects : Expects ok trouble) (post : Bool → Cluster → Prop)
    (cluster : Cluster) (opened : post true cluster) (closed : trouble → post false cluster) :
    wp clusterSem ok streamOpenCall post cluster := by
  rw [streamOpenCall, wp_perform]
  intro choice allowed
  simp only [clusterSem]
  cases isOpen : choice.streamOpen with
  | true => exact opened
  | false => exact closed ((expects.streams choice allowed).resolve_left (by simp [isOpen]))

def withTables (cluster : Cluster) (tables : Tables) : Cluster := { cluster with tables := tables }

def withWorker (cluster : Cluster) (address : String) (fs : FileSystem) : Cluster :=
  { cluster with workers := Function.update cluster.workers address fs }

def quietDb : (call : SpannerCall) → SpannerReply call → Unit → Unit := fun _ _ seen => seen

def wpDb {α : Type} (ok : DbChoice → Prop) (program : DbM α)
    (post : Except Status α → Tables → Prop) (tables : Tables) : Prop :=
  wp (observed quietDb spannerSem) ok program.run (fun outcome after => post outcome after.1) (tables, ())

theorem wp_db_on_cluster {α : Type} (program : DbM α) (post : Except Status α → Cluster → Prop)
    (cluster : Cluster)
    (holds : wpDb (DbChoices ok) program
      (fun outcome tables => post outcome (withTables cluster tables)) cluster.tables) :
    wp clusterSem ok (dbOnCluster program) post cluster := by
  have alone : wp spannerSem (DbChoices ok) program.run
      (fun outcome tables => post outcome (withTables cluster tables)) cluster.tables :=
    (wp_observed_iff program.run _ cluster.tables ()).mp holds
  refine wp_inline_part (DbChoices ok) spannerCall Cluster.tables withTables (fun _ _ => rfl)
    (fun _ _ _ => rfl) (fun _ => rfl) ?_
    program.run post cluster alone
  intro call after whole each
  rw [spannerCall, wp_perform]
  exact fun choice allowed => each choice.db ⟨choice, allowed, rfl⟩

theorem with_worker_same (cluster : Cluster) (address : String) :
    withWorker cluster address (cluster.workers address) = cluster := by
  rw [withWorker, Function.update_eq_self]

theorem with_worker_twice (cluster : Cluster) (address : String) (one two : FileSystem) :
    withWorker (withWorker cluster address one) address two = withWorker cluster address two := by
  simp only [withWorker, Function.update_idem]

theorem with_worker_at (cluster : Cluster) (address : String) (fs : FileSystem) :
    (withWorker cluster address fs).workers address = fs := Function.update_self _ _ _

theorem with_worker_elsewhere (cluster : Cluster) (address other : String) (fs : FileSystem)
    (different : other ≠ address) :
    (withWorker cluster address fs).workers other = cluster.workers other :=
  Function.update_of_ne different _ _

theorem worker_files (fallback : ok default) (address : String) :
    ActsOnFiles (composed (workerImpl address) clusterSem) (EveryChoice ok) workerFile (FileChoices ok)
      (fun cluster => cluster.workers address) (fun cluster fs => withWorker cluster address fs) where
  setGet := fun cluster => with_worker_same cluster address
  inline := by
    intro α program post whole holds
    refine wp_inline_part (FileChoices ok) workerFile (fun cluster : Cluster => cluster.workers address)
      (fun cluster fs => withWorker cluster address fs) (fun cluster fs => with_worker_at cluster address fs)
      (fun cluster one two => with_worker_twice cluster address one two)
        (fun cluster => with_worker_same cluster address) ?_
      program.run post whole holds
    intro call after whole each
    rw [workerFile, wp_perform]
    exact fun choices every => each (choices.headD default).file ⟨_, first_choice fallback every, rfl⟩

theorem streaming_worker_files (fallback : ok default) (address : String) :
    ActsOnFiles (composedWith (workerStreamImpl address) clusterSem)
      (EveryChoice ok) workerFile (FileChoices ok)
      (fun whole => whole.1.workers address) (fun whole fs => (withWorker whole.1 address fs, whole.2)) where
  setGet := fun whole => congrArg (·, whole.2) (with_worker_same whole.1 address)
  inline := by
    intro α program post whole holds
    refine wp_inline_part (FileChoices ok) workerFile
      (fun whole : Cluster × List Bytes => whole.1.workers address)
      (fun whole fs => (withWorker whole.1 address fs, whole.2))
        (fun whole fs => with_worker_at whole.1 address fs)
      (fun whole one two => congrArg (·, whole.2) (with_worker_twice whole.1 address one two))
      (fun whole => congrArg (·, whole.2) (with_worker_same whole.1 address)) ?_ program.run post whole holds
    intro call after whole each
    rw [workerFile, wp_perform]
    exact fun choices every => each (choices.headD default).file ⟨_, first_choice fallback every, rfl⟩

theorem wp_worker_on_cluster {α : Type} (address : String) (program : WorkerM (Except Status α))
    (post : Except Status α → Cluster → Prop) (cluster : Cluster)
    (holds : wp (composed (workerImpl address) clusterSem) (EveryChoice ok) program.run
      (fun outcome after => post (handlerStatus outcome) after) cluster) :
    wp clusterSem ok (workerOnCluster address program) post cluster := by
  rw [workerOnCluster, map_eq_pure_bind, wp_bind]
  exact wp_inline (workerImpl address) program.run _ cluster holds

theorem wp_db_of_master {α : Type} (fallback : ok default) (program : DbM α)
    (post : Except Status α → Cluster → Prop) (cluster : Cluster)
    (holds : wpDb (DbChoices ok) program
      (fun outcome tables => post outcome (withTables cluster tables)) cluster.tables) :
    wp (composed masterImpl clusterSem) (EveryChoice ok) (onDb program).run post cluster := by
  have alone : wp spannerSem (DbChoices ok) program.run
      (fun outcome tables => post outcome (withTables cluster tables)) cluster.tables :=
    (wp_observed_iff program.run _ cluster.tables ()).mp holds
  refine wp_inline_part (DbChoices ok) _ Cluster.tables withTables (fun _ _ => rfl)
    (fun _ _ _ => rfl) (fun _ => rfl) ?_
    program.run post cluster alone
  intro call after whole each
  rw [wp_perform]
  exact fun choices every => each (choices.headD default).db ⟨_, first_choice fallback every, rfl⟩

end BlobStore
