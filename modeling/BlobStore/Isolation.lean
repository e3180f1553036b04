import BlobStore.RequestPlaces

set_option autoImplicit false

namespace BlobStore

open Effects FileSystem

variable {ι : Type} [DecidableEq ι]

-- Any number of uploads, downloads and deletions at once. One turn is one step of a
-- file, one of the database, or one message.
def requestPool (X : Xxh64) (requests : ι → Request) (cluster : Cluster) :
    Pool ι ClusterCall ClusterReply ClientResponse Cluster :=
  Pool.start (fun proc => (requests proc).program X) cluster

theorem registered_rows (tables : Tables) :
    ∀ row ∈ tables.workerState.rows, Registered tables row.workerAddress := by
  intro row member absent
  cases (tables.workerState.find_self row member).symm.trans absent

theorem file_system_ext {one two : FileSystem} (root : one.cwd = two.cwd)
    (nodes : ∀ location, one.node location = two.node location) :
    one = two := by
  obtain ⟨oneRoot, oneNodes⟩ := one
  obtain ⟨twoRoot, twoNodes⟩ := two
  obtain rfl : oneRoot = twoRoot := root
  obtain rfl : oneNodes = twoNodes := Finmap.ext_lookup nodes
  rfl

theorem same_rows_of_each {one two : BlobTable} (same : ∀ hash, rowsOf hash one = rowsOf hash two) :
    one.rows.Perm two.rows := by
  rw [List.perm_iff_count]
  intro row
  have counted : ∀ table : BlobTable, (rowsOf row.hash table).count row = table.rows.count row :=
    fun table => List.count_filter (decide_eq_true rfl)
  rw [← counted one, ← counted two, same]

-- The order of the rows is the database's own affair.
structure SameCluster (one two : Cluster) : Prop where
  workerState : one.tables.workerState = two.tables.workerState
  blobCopy : one.tables.blobCopy.rows.Perm two.tables.blobCopy.rows
  workers : one.workers = two.workers
  frontend : one.frontend = two.frontend

theorem same_everywhere {home one two : Cluster} (first : Steady home one)
    (second : Steady home two) (same : ∀ place, SameAt place one two) :
    SameCluster one two where
  workerState := first.workerState.trans second.workerState.symm
  blobCopy := same_rows_of_each (fun hash => same (.blobRows hash))
  workers := funext fun worker => file_system_ext ((first.roots worker).trans (second.roots worker).symm)
    (fun location => same (.workerFile worker location))
  frontend := file_system_ext (first.frontendRoot.trans second.frontendRoot.symm)
    (fun location => same (.frontendFile location))

omit [DecidableEq ι] in
theorem requests_within (X : Xxh64) (requests : ι → Request) (draws : ι → Nat)
    (home : Cluster) (calm : Steady home home) :
    Pool.Within (Steady home) (fun proc => (boundsOf home ((requests proc).blobHash X) (draws proc)).Touches)
      (fun proc => (boundsOf home ((requests proc).blobHash X) (draws proc)).Replies)
        (requestPool X requests home) := by
  refine ⟨calm, fun proc => ?_⟩
  have bounded : meets (boundsOf home ((requests proc).blobHash X) (draws proc)).contract
      ((requests proc).program X) (fun _ _ => True) () :=
    request_bounded (registered_rows home.tables) X (requests proc) rfl (fun _ => trivial)
  exact bounded

-- The rows of the workers never change, whatever requests run and whatever fails: no
-- frontend gives a size, so what a master writes back is what it read.
theorem worker_rows_never_change (X : Xxh64) (requests : ι → Request) (cluster : Cluster)
    (unsized : ∀ row ∈ cluster.tables.blobCopy.rows, row.sizeMb = 0) (schedule : List (ι × Choice)) :
    ((requestPool X requests cluster).run clusterSem schedule).state.tables.workerState =
      cluster.tables.workerState := by
  let bounds : ι → Bounds := fun proc =>
    ⟨(requests proc).blobHash X, fun _ => True, fun _ => True,
      fun row => row ∈ cluster.tables.workerState.rows, True⟩
  let inv : Cluster → Prop := fun now =>
    now.tables.workerState = cluster.tables.workerState ∧ ∀ row ∈ now.tables.blobCopy.rows, row.sizeMb = 0
  have keeps : KeepsBounds clusterSem inv (fun proc => (bounds proc).Touches)
      (fun proc => (bounds proc).Replies) (fun _ _ _ => True) := by
    rintro proc call choice now ⟨standing, zero⟩ touches -
    cases call with
    | spanner call =>
        obtain ⟨applied, replied⟩ := spanner_stays call touches (rows_stay standing)
          (fun row member => ⟨zero row member, trivial⟩) choice.db
        have unchanged := spanner_standing call touches (rows_stay standing.symm) choice.db
        refine ⟨⟨unchanged.trans standing, fun row member => ?_⟩, replied⟩
        rcases applied.rows row member with before | mine
        · exact zero row before
        · exact mine.2.1
    | workerFile worker call => exact ⟨⟨standing, zero⟩, trivial⟩
    | frontendFile call => exact ⟨⟨standing, zero⟩, trivial⟩
    | rpc => exact ⟨⟨standing, zero⟩, trivial⟩
    | streamOpen => exact ⟨⟨standing, zero⟩, trivial⟩
    | rand => exact ⟨⟨standing, zero⟩, trivial⟩
  have begins : Pool.Within inv (fun proc => (bounds proc).Touches)
      (fun proc => (bounds proc).Replies) (requestPool X requests cluster) := by
    refine ⟨⟨rfl, unsized⟩, fun proc => ?_⟩
    have bounded : meets (bounds proc).contract ((requests proc).program X) (fun _ _ => True) () :=
      request_bounded (fun _ _ => trivial) X (requests proc) rfl (fun _ => trivial)
    exact bounded
  have anything : Pool.Along clusterSem (Pool.Permits (fun _ _ _ => True))
      (requestPool X requests cluster) schedule :=
    Pool.along_of_prefixes clusterSem _ _ schedule (fun _ _ _ _ _ _ _ => trivial)
  exact (Pool.within_run keeps begins anything).1.1

def uploadAndRemove : Bool → Request
  | false => .uploadBlob oneMaster [.info 1, .chunkData [97]]
  | true => .deleteBlob oneMaster "7"

def drawOf : Bool → Nat
  | false => 0
  | true => 1

-- The deletion runs in the middle of the upload.
def takingTurns : List (Bool × Choice) :=
  (List.replicate 12 false ++ List.replicate 3 true ++ List.replicate 37 false).map
    (fun proc => (proc, { draw := drawOf proc }))

theorem taking_turns_own (pool : Pool Bool ClusterCall ClusterReply ClientResponse Cluster) :
    Pool.Along clusterSem (Pool.Permits (OwnDraw drawOf)) pool takingTurns := by
  refine Pool.along_mono clusterSem (fun _ turn => turn.2 = { draw := drawOf turn.1 }) _ ?_ pool takingTurns
    (Pool.along_of_forall clusterSem (fun turn => turn.2 = { draw := drawOf turn.1 }) pool takingTurns ?_)
  · intro pool turn chosen call next _
    rw [chosen]
    cases call <;> first | rfl | trivial
  · intro turn member
    obtain ⟨proc, -, rfl⟩ := List.mem_map.mp member
    rfl

theorem three_fresh_steady : Steady threeFreshWorkers threeFreshWorkers where
  workerState := rfl
  rows := fun _ member => by cases member
  roots := fun _ => rfl
  usable := fun _ _ => usable_empty fresh_worker_empty
  frontendRoot := rfl
  frontend := usable_empty fresh_worker_empty

theorem both_different :
    Function.Injective (fun proc => (uploadAndRemove proc).blobHash referenceXxh64) := by
  decide +kernel

theorem draw_of_inj : Function.Injective drawOf := by decide

theorem both_ordinary (proc : Bool) : OrdinaryName ((uploadAndRemove proc).blobHash referenceXxh64) := by
  cases proc with
  | false => exact blob_hash_ordinary referenceXxh64 _
  | true => exact (by decide)

theorem worker_rows_never_change_run :
    ((requestPool referenceXxh64 uploadAndRemove threeFreshWorkers).run clusterSem
      takingTurns).state.tables.workerState =
      threeFreshWorkers.tables.workerState :=
  worker_rows_never_change referenceXxh64 uploadAndRemove threeFreshWorkers (by decide) takingTurns

end BlobStore
