import BlobStore.Isolation
import BlobStore.Library.Answers

set_option autoImplicit false

namespace BlobStore

open Effects FileSystem MasterDbRepository FrontendServiceImpl

-- What no request spoils, whatever it leaves behind: the workers and their space, the
-- directories, and that every row names a blob and a worker.
structure Sturdy (home now : Cluster) : Prop where
  workerState : now.tables.workerState = home.tables.workerState
  rows : ∀ row ∈ now.tables.blobCopy.rows, row.sizeMb = 0 ∧ OrdinaryName row.hash ∧
    Registered home.tables row.workerAddress
  usable : ∀ worker, Registered home.tables worker → Usable (now.workers worker)
  frontend : Usable now.frontend

-- A client may ask for any text. Under a name that no blob can have there are no rows,
-- and so there is no worker to ask.
def Inquires (blobHash : String) : ClusterCall → Prop
  | .spanner (.selectBlobs query) => query = .savedByHash blobHash
  | .spanner (.commit mutation) => mutation = .deleteBlobsByHash blobHash
  | .rpc => True
  | _ => False

def FindsNothing : (call : ClusterCall) → ClusterReply call → Prop
  | .spanner (.selectBlobs _), .ok rows => rows = []
  | _, _ => True

section Inquiries

variable {blobHash : String}

theorem inquiry_unary {α : Type} (handler : ClusterM (Except Status α))
    (post : Except Status α → Unit → Prop)
    (holds : meets (confined (Inquires blobHash) FindsNothing) handler post ())
    (unheard : ∀ message, post (unavailable message) ()) :
    meets (confined (Inquires blobHash) FindsNothing) (unary handler) post () := by
  apply meets_unary confined_monotone
  · exact fun _ _ every => ⟨trivial, fun fate _ => every fate⟩
  · exact meets_mono confined_monotone handler _ _ () (fun _ _ answered => ⟨answered, unheard⟩) holds
  · exact unheard

theorem inquiry_lookup (post : Except Status String → Unit → Prop)
    (nothing : ∀ status, post (.error status) ()) :
    meets (confined (Inquires blobHash) FindsNothing)
      (unary (dbOnCluster (MasterService.getWorkerWithBlob blobHash))) post () := by
  apply inquiry_unary
  · rw [dbOnCluster, meets_inline, MasterService.getWorkerWithBlob, querySavedBlobByHash,
      selectBlobs, bind_assoc, meets_run_bind, meets_run_perform]
    constructor
    · rfl
    · intro reply found
      cases reply with
      | error message => exact nothing _
      | ok rows =>
          obtain rfl : rows = [] := found
          exact nothing _
  · exact fun message => nothing _

theorem inquiry_delete (post : Except Status Unit → Unit → Prop) (ends : ∀ outcome, post outcome ()) :
    meets (confined (Inquires blobHash) FindsNothing)
      (unary (masterOnCluster (MasterService.deleteBlob blobHash))) post () := by
  apply inquiry_unary
  · rw [masterOnCluster, meets_inline, MasterService.deleteBlob, meets_run_bind,
      querySavedBlobByHash, selectBlobs, onDb]
    apply (meets_inline _ _ _ _).mpr
    rw [meets_run_bind, meets_run_perform]
    constructor
    · rfl
    · intro reply found
      cases reply with
      | error message => exact ends _
      | ok rows =>
          obtain rfl : rows = [] := found
          constructor
          · rfl
          · intro reply _
            cases reply <;> exact ends _
  · exact fun message => ends _

theorem inquiry_get (X : Xxh64) (service : FrontendServiceImpl) :
    meets (confined (Inquires blobHash) FindsNothing) ((Request.getBlob service blobHash).program X)
      (fun _ _ => True) () := by
  rw [Request.program, map_eq_pure_bind, meets_bind]
  apply (meets_inline_with _ _ _ _ _).mpr
  rw [FrontendServiceImpl.getBlob, meets_run_bind, getWorkerWithBlobId, meets_run_bind,
    meets_run_perform, clientStreamImpl, meets_bind]
  exact inquiry_lookup _ (fun _ => trivial)

theorem inquiry_deletion (X : Xxh64) (service : FrontendServiceImpl) :
    meets (confined (Inquires blobHash) FindsNothing)
      ((Request.deleteBlob service blobHash).program X) (fun _ _ => True) () := by
  rw [Request.program, map_eq_pure_bind, meets_bind, meets_inline, FrontendServiceImpl.deleteBlob,
    meets_run_bind, meets_run_perform]
  apply inquiry_delete
  intro outcome
  cases outcome <;> trivial

-- And leaves everything as it is.
theorem inquiry_idle {now : Cluster}
    (unlike : ∀ row ∈ now.tables.blobCopy.rows, row.hash ≠ blobHash) (call : ClusterCall)
    (choice : Choice) (asks : Inquires blobHash call) : (clusterSem call choice now).2 = now ∧
    FindsNothing call (clusterSem call choice now).1 := by
  cases call with
  | spanner call =>
      cases call with
      | selectBlobs query =>
          obtain rfl : query = .savedByHash blobHash := asks
          have none : (choice.db.blobOrder.order now.tables.blobCopy.rows).filter
              (BlobQuery.savedByHash blobHash).selects = [] := by
            rw [List.filter_eq_nil_iff]
            intro row member selected
            have stored := (choice.db.blobOrder.perm _).mem_iff.mp member
            simp only [BlobQuery.selects, decide_eq_true_eq] at selected
            exact unlike row stored selected.1
          simp only [clusterSem, spannerSem]
          by_cases healthy : choice.db.fault = .none
          · rw [if_pos healthy, none]
            exact ⟨rfl, rfl⟩
          · rw [if_neg healthy]
            exact ⟨rfl, trivial⟩
      | commit mutation =>
          obtain rfl : mutation = .deleteBlobsByHash blobHash := asks
          have nothing : now.tables.blobCopy.delete (fun entry => entry.hash = blobHash) =
              now.tables.blobCopy :=
            Table.delete_spared _ _ (fun row member => decide_eq_false (unlike row member))
          have same : (commitSem (.deleteBlobsByHash blobHash) choice.db now.tables).2 = now.tables := by
            cases commit_tables (.deleteBlobsByHash blobHash) choice.db now.tables with
            | inl same => exact same
            | inr applied =>
                rw [Mutation.apply, nothing] at applied
                exact (Option.some.inj applied).symm
          simp only [clusterSem, spannerSem, same]
          exact ⟨trivial, trivial⟩
      | selectWorkers query => exact asks.elim
  | rpc => exact ⟨rfl, trivial⟩
  | workerFile worker call => exact asks.elim
  | frontendFile call => exact asks.elim
  | streamOpen => exact asks.elim
  | rand => exact asks.elim

-- What a request does to the cluster, whatever name it was given.
def Reaches (bounds : Bounds) (call : ClusterCall) : Prop :=
  if OrdinaryName bounds.blobHash then bounds.Touches call else Inquires bounds.blobHash call

def Hears (bounds : Bounds) (call : ClusterCall) (reply : ClusterReply call) : Prop :=
  if OrdinaryName bounds.blobHash then bounds.Replies call reply else FindsNothing call reply

theorem request_reaches {bounds : Bounds}
    (standing : ∀ row, bounds.workerRow row → bounds.known row.workerAddress) (X : Xxh64)
    (request : Request) (hash : request.blobHash X = bounds.blobHash)
    (may : request.Writes → bounds.writes) :
    meets (confined (Reaches bounds) (Hears bounds)) (request.program X) (fun _ _ => True) () := by
  by_cases ordinary : OrdinaryName bounds.blobHash
  · have reaches : Reaches bounds = bounds.Touches := funext fun _ => if_pos ordinary
    have hears : Hears bounds = bounds.Replies := funext fun _ => funext fun _ => if_pos ordinary
    rw [reaches, hears]
    exact request_bounded standing X request hash may
  · have reaches : Reaches bounds = Inquires bounds.blobHash := funext fun _ => if_neg ordinary
    have hears : Hears bounds = FindsNothing := funext fun _ => funext fun _ => if_neg ordinary
    rw [reaches, hears]
    cases request with
    | uploadBlob service messages => exact absurd (hash ▸ blob_hash_ordinary X _) ordinary
    | getBlob service blobId =>
        obtain rfl : blobId = bounds.blobHash := hash
        exact inquiry_get X service
    | deleteBlob service blobHash =>
        obtain rfl : blobHash = bounds.blobHash := hash
        exact inquiry_deletion X service

end Inquiries

section Run

variable {home now : Cluster}

-- Any draw is possible here, also one that another request has drawn.
def anyDraw (home : Cluster) (blobHash : String) : Bounds where
  blobHash := blobHash
  drawn := fun _ => True
  known := Registered home.tables
  workerRow := fun row => row ∈ home.tables.workerState.rows
  writes := True

theorem one_temp_file {blobHash : String} (call : FileCall)
    (within : FileWithin (anyDraw home blobHash).TempPath call) :
    ∃ drawn, FileWithin (PathOf (tempFile drawn)) call := by
  have named : ∀ path, (anyDraw home blobHash).TempPath path → ∃ drawn, PathOf (tempFile drawn) path := by
    intro path inside
    obtain ⟨drawn, -, leads⟩ := inside
    exact ⟨drawn, .inl leads⟩
  cases call with
  | createDirectories path => exact ⟨0, within⟩
  | space path => exact within.elim
  | _ => exact named _ within

theorem sturdy_rows {blobHash : String} (sturdy : Sturdy home now)
    (ordinary : OrdinaryName blobHash) {tables : Tables}
    (spared : Spared (anyDraw home blobHash) now.tables tables)
    (standing : tables.workerState = now.tables.workerState) :
    Sturdy home { now with tables := tables } where
  workerState := standing.trans sturdy.workerState
  usable := sturdy.usable
  frontend := sturdy.frontend
  rows := by
    intro row member
    cases spared.rows row member with
    | inl before => exact sturdy.rows row before
    | inr own =>
        obtain ⟨hash, size, known⟩ := own
        exact ⟨size, hash ▸ ordinary, known⟩

theorem sturdy_step {blobHash : String} (sturdy : Sturdy home now) (call : ClusterCall)
    (choice : Choice) (reaches : Reaches (anyDraw home blobHash) call)
    (spares : ∀ fs, Usable fs → Usable (choice.tamper fs)) :
    Sturdy home (clusterSem call choice now).2 ∧
      Hears (anyDraw home blobHash) call (clusterSem call choice now).1 := by
  by_cases ordinary : OrdinaryName (anyDraw home blobHash).blobHash
  · rw [Reaches, if_pos ordinary] at reaches
    rw [Hears, if_pos ordinary]
    cases call with
    | spanner call =>
        have standing : ∀ row ∈ now.tables.blobCopy.rows, row.sizeMb = 0 ∧
            Registered home.tables row.workerAddress :=
          fun row member => ⟨(sturdy.rows row member).1, (sturdy.rows row member).2.2⟩
        have stays : Spared (anyDraw home blobHash) now.tables (spannerSem call choice.db now.tables).2 ∧
            (anyDraw home blobHash).RowReplies call (spannerSem call choice.db now.tables).1 :=
          spanner_stays call reaches (rows_stay sturdy.workerState) standing choice.db
        have unchanged := spanner_standing call reaches (rows_stay sturdy.workerState.symm) choice.db
        exact ⟨sturdy_rows sturdy ordinary stays.1 unchanged, stays.2⟩
    | workerFile worker call =>
        obtain ⟨known, within, -⟩ := reaches
        obtain ⟨-, changes, free⟩ := one_file (sturdy.usable worker known) ordinary call within choice.file
        constructor
        · refine ⟨sturdy.workerState, sturdy.rows, ?_, sturdy.frontend⟩
          intro other registered
          by_cases here : other = worker
          · subst here
            simp only [clusterSem, Function.update_self]
            exact usable_changed (sturdy.usable other known) _ changes free
          · simp only [clusterSem, Function.update_of_ne here]
            exact sturdy.usable other registered
        · trivial
    | frontendFile call =>
        obtain ⟨drawn, within⟩ := one_temp_file call reaches
        obtain ⟨-, changes, free⟩ := one_file (spares _ sturdy.frontend)
          (temp_ordinary drawn) call within choice.frontendFile
        exact ⟨⟨sturdy.workerState, sturdy.rows, sturdy.usable,
          usable_changed (spares _ sturdy.frontend) _ changes free⟩, trivial⟩
    | rpc => exact ⟨sturdy, trivial⟩
    | streamOpen => exact ⟨sturdy, trivial⟩
    | rand => exact ⟨sturdy, trivial⟩
  · rw [Reaches, if_neg ordinary] at reaches
    rw [Hears, if_neg ordinary]
    have unlike : ∀ row ∈ now.tables.blobCopy.rows, row.hash ≠ blobHash :=
      fun row member same => ordinary (same ▸ (sturdy.rows row member).2.1)
    obtain ⟨same, finds⟩ := inquiry_idle unlike call choice reaches
    exact ⟨same.symm ▸ sturdy, finds⟩

variable {ι : Type} [DecidableEq ι]

-- The files of a frontend may change between its calls, but their directory stays.
def SparesFrontend (choice : Choice) : Prop := ∀ fs, Usable fs → Usable (choice.tamper fs)

theorem sturdy_run (X : Xxh64) (requests : ι → Request) (home : Cluster) (sturdy : Sturdy home home)
    (schedule : List (ι × Choice)) (spares : ∀ turn ∈ schedule, SparesFrontend turn.2) :
    Sturdy home ((requestPool X requests home).run clusterSem schedule).state := by
  have keeps : KeepsBounds clusterSem (Sturdy home)
      (fun proc => Reaches (anyDraw home ((requests proc).blobHash X)))
      (fun proc => Hears (anyDraw home ((requests proc).blobHash X)))
        (fun _ _ choice => SparesFrontend choice) :=
    fun proc call choice now standing reaches allowed => sturdy_step standing call choice reaches allowed
  have begins : Pool.Within (Sturdy home) (fun proc => Reaches (anyDraw home ((requests proc).blobHash X)))
      (fun proc => Hears (anyDraw home ((requests proc).blobHash X))) (requestPool X requests home) :=
    ⟨sturdy, fun proc => request_reaches (registered_rows home.tables) X
      (requests proc) rfl (fun _ => trivial)⟩
  have along : Pool.Along clusterSem (Pool.Permits (fun _ _ choice => SparesFrontend choice))
      (requestPool X requests home) schedule := by
    refine Pool.along_mono clusterSem (fun _ turn => SparesFrontend turn.2) _ ?_ _ schedule
      (Pool.along_of_forall clusterSem (fun turn => SparesFrontend turn.2) _ schedule spares)
    exact fun _ _ kind _ _ _ => kind
  exact (Pool.within_run keeps begins along).1

end Run

end BlobStore
