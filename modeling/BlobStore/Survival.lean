import BlobStore.Registrations
import BlobStore.Recovery

set_option autoImplicit false

namespace BlobStore

open Effects FileSystem MasterDbRepository FrontendServiceImpl

section Starts

variable {address : String}

-- What a worker asks for as it starts: files of its own, and the commits of its
-- registration.
def StartCalls (address : String) : ClusterCall → Prop
  | .workerFile worker _ => worker = address
  | .spanner (.commit mutation) => ∃ space, Registering ⟨address, space⟩ mutation
  | .rpc => True
  | _ => False

-- Whether it has seen the rows of its copies deleted.
def noteCleared : (call : ClusterCall) → ClusterReply call → Bool → Bool
  | .spanner (.commit (.deleteBlobsByWorker _)), .ok _, _ => true
  | _, _, cleared => cleared

def startContract (address : String) : Contract ClusterCall ClusterReply Bool :=
  noting noteCleared (fun call _ => StartCalls address call) (fun _ _ _ => True)

def startRows (address : String) : Contract SpannerCall SpannerReply Bool :=
  fun call => startContract address (.spanner call)

theorem start_commit (mutation : Mutation) (space : Int)
    (mine : Registering ⟨address, space⟩ mutation) (post : Except Status Unit → Bool → Prop)
    (cleared : Bool)
    (done : post (.ok ()) (noteCleared (.spanner (.commit mutation)) (.ok ()) cleared))
    (failed : ∀ status ghost, post (.error status) ghost) :
    meets (startRows address) (commit mutation).run post cleared := by
  rw [commit, meets_run_bind, meets_run_perform]
  constructor
  · exact ⟨space, mine⟩
  · intro reply _
    cases reply with
    | error message => exact failed _ _
    | ok _ => exact done

theorem start_register (space : Int) (post : Except Status Unit → Bool → Prop) (cleared : Bool)
    (done : post (.ok ()) true) (failed : ∀ status ghost, post (.error status) ghost) :
    meets (startContract address)
      (unary (dbOnCluster (MasterService.registerWorker ⟨address, space⟩))) post cleared := by
  have handled : ∀ (post : Except Status Unit → Bool → Prop), post (.ok ()) true →
      (∀ status ghost, post (.error status) ghost) →
      meets (startContract address)
        (dbOnCluster (MasterService.registerWorker ⟨address, space⟩)) post cleared := by
    intro post done failed
    apply (meets_inline spannerCall _ post cleared).mpr
    rw [MasterService.registerWorker, meets_run_bind]
    refine start_commit (.deleteWorker address) space .deletesRow _ _ ?_ failed
    dsimp only
    rw [meets_run_bind]
    refine start_commit (.deleteBlobsByWorker address) space .deletesCopies _ _ ?_ failed
    exact start_commit (.insertWorker ⟨address, space, 0, 0⟩) space .inserts _ _ done failed
  apply meets_unary noting_monotone
  · exact fun _ _ every => ⟨trivial, fun fate _ => every fate⟩
  · exact handled _ ⟨done, fun _ => failed _ _⟩ (fun _ _ => ⟨failed _ _, fun _ => failed _ _⟩)
  · exact fun _ => failed _ _

def mainContract (address : String) : Contract WorkerMainCall WorkerMainReply Bool :=
  fun call after => meets (startContract address) (workerMainImpl address call) after

theorem start_files {α : Type} (program : FileM α) (post : Except Thrown α → Bool → Prop) (cleared : Bool)
    (ends : ∀ outcome, post outcome cleared) :
    meets (mainContract address) (Failing.inline WorkerMain.mainFile program).run post cleared := by
  apply (meets_inline WorkerMain.mainFile program.run post cleared).mpr
  apply meets_always
  · exact fun call after every => ⟨rfl, fun reply _ => every reply⟩
  · exact ends

theorem start_at_master (space : Int) (tries : Nat) (post : Except Thrown Bool → Bool → Prop) (cleared : Bool)
    (accepted : post (.ok true) true) (exhausted : ∀ later, post (.ok false) later) :
    meets (mainContract address) (WorkerMain.registerAtMaster ⟨address, space⟩ tries).run post cleared := by
  induction tries generalizing cleared with
  | zero => exact exhausted cleared
  | succ tries ih =>
      rw [WorkerMain.registerAtMaster, meets_run_bind, meets_run_perform]
      apply start_register
      · exact accepted
      · exact fun _ later => ih later

-- A worker that serves as registered has seen the rows of its copies deleted.
theorem start_worker (address : String) :
    meets (startContract address) (startWorker address)
      (fun outcome cleared => ∀ free, outcome = .ok (.registered free) → cleared = true)
      false := by
  rw [startWorker, meets_inline, WorkerMain.runWorker, meets_run_bind]
  apply start_files
  intro made
  cases made with
  | error thrown => exact fun _ returned => by cases returned
  | ok _ =>
      dsimp only
      rw [meets_run_bind]
      apply start_files
      intro measured
      cases measured with
      | error thrown => exact fun _ returned => by cases returned
      | ok result =>
          cases result with
          | error status => exact fun _ returned => by cases returned
          | ok storage =>
              dsimp only
              rw [meets_run_bind]
              apply start_at_master
              · exact fun _ _ => rfl
              · exact fun _ _ returned => by cases returned

end Starts

-- Requests of clients, and workers that start, or start again.
inductive Activity where
  | client (request : Request)
  | start (address : String)

inductive ActivityOutcome where
  | answered (response : ClientResponse)
  | started (outcome : Except Thrown WorkerStart)

def Activity.program (X : Xxh64) : Activity → ClusterM ActivityOutcome
  | .client request => ActivityOutcome.answered <$> request.program X
  | .start address => ActivityOutcome.started <$> startWorker address

-- Nobody uploads the blob or deletes it; anybody may download it.
def Activity.Spares (X : Xxh64) (blobHash : String) : Activity → Prop
  | .client request => request.Writes → request.blobHash X ≠ blobHash
  | .start _ => True

structure Kept (blobHash : String) (bytes : Bytes) (cluster : Cluster) (worker : String) : Prop where
  backed : Backed blobHash bytes cluster worker
  usable : Usable (cluster.workers worker)

-- What a step of any of them leaves of a blob, on the workers that keep running.
structure Leaves (blobHash : String) (bytes : Bytes) (running : String → Prop)
    (before after : Cluster) : Prop where
  rows : ∀ row ∈ after.tables.blobCopy.rows,
    row ∈ before.tables.blobCopy.rows ∨ row.sizeMb = 0 ∧ OrdinaryName row.hash ∧ row.hash ≠ blobHash
  kept : ∀ worker, running worker → Kept blobHash bytes before worker → Kept blobHash bytes after worker

section Steps

variable {blobHash : String} {bytes : Bytes} {running : String → Prop} {now : Cluster}

theorem leaves_refl : Leaves blobHash bytes running now now :=
  ⟨fun _ member => .inl member, fun _ _ kept => kept⟩

theorem leaves_tables {tables : Tables}
    (rows : ∀ row ∈ tables.blobCopy.rows, row ∈ now.tables.blobCopy.rows ∨ row.sizeMb = 0 ∧
      OrdinaryName row.hash ∧ row.hash ≠ blobHash)
    (copies : ∀ worker, running worker →
      tables.blobCopy.find? (blobHash, worker) = now.tables.blobCopy.find? (blobHash, worker))
    (registered : ∀ worker, running worker → Registered now.tables worker →
      Registered tables worker) :
    Leaves blobHash bytes running now { now with tables := tables } where
  rows := rows
  kept := by
    intro worker runs kept
    obtain ⟨entry, there, saved⟩ := kept.backed.saved
    have saved : Copy .saved tables (blobHash, worker) := ⟨entry, (copies worker runs).trans there, saved⟩
    exact ⟨⟨saved, registered worker runs kept.backed.registered, kept.backed.blobs,
      kept.backed.content⟩, kept.usable⟩

theorem leaves_files {worker : String} {fs : FileSystem}
    (keeps : running worker → Usable (now.workers worker) →
      Usable fs ∧ fs.content ("blobs/" ++ blobHash) = (now.workers worker).content ("blobs/" ++ blobHash)) :
    Leaves blobHash bytes running now (withWorker now worker fs) where
  rows := fun _ member => .inl member
  kept := by
    intro other runs kept
    by_cases same : other = worker
    · subst same
      obtain ⟨usable, content⟩ := keeps runs kept.usable
      have there := with_worker_at now other fs
      refine ⟨⟨kept.backed.saved, kept.backed.registered, ?_, ?_⟩, ?_⟩ <;> rw [there]
      · exact usable.blobs
      · exact content.trans kept.backed.content
      · exact usable
    · have there := with_worker_elsewhere now worker other fs same
      refine ⟨⟨kept.backed.saved, kept.backed.registered, ?_, ?_⟩, ?_⟩ <;> rw [there]
      · exact kept.backed.blobs
      · exact kept.backed.content
      · exact kept.usable

theorem content_of_node {before after : FileSystem} (first : HasBlobs before)
    (second : HasBlobs after) (ordinary : OrdinaryName blobHash)
    (node : after.node (blobLocation after blobHash) = before.node (blobLocation before blobHash)) :
    after.content ("blobs/" ++ blobHash) = before.content ("blobs/" ++ blobHash) := by
  rw [content_of_resolve _ _ _ (resolve_blob after second blobHash ordinary),
    content_of_resolve _ _ _ (resolve_blob before first blobHash ordinary), node]

theorem one_file_read (call : FileCall) (reads : ¬ Alters call) (choice : FileChoice) (node : Option Node) :
    (oneFile call choice node).2 = node := by
  cases call with
  | openTrunc path => exact absurd trivial reads
  | append path chunk => exact absurd trivial reads
  | remove path => exact absurd trivial reads
  | openRead path => rfl
  | read path offset count => rfl
  | space path => rfl
  | createDirectories path => rw [oneFile]; split <;> rfl
  | fileExists path => rw [oneFile]; split <;> rfl
  | fileSize path =>
      cases works : choice.failure with
      | some reason => simp only [oneFile, works]
      | none =>
          cases node with
          | none => simp only [oneFile, works]
          | some node => cases node <;> simp only [oneFile, works]

-- A request about another blob, or one that only reads.
def bystander (blobHash : String) (known : String → Prop) (name : String) : Bounds where
  blobHash := name
  drawn := fun _ => True
  known := known
  workerRow := fun row => known row.workerAddress
  writes := name ≠ blobHash

-- What one of its steps leaves of the blob.
structure Untouched (blobHash : String) (known : String → Prop) (before after : Cluster) : Prop where
  registered : ∀ worker, Registered after.tables worker ↔ Registered before.tables worker
  copies : rowsOf blobHash after.tables.blobCopy = rowsOf blobHash before.tables.blobCopy
  rows : ∀ row ∈ after.tables.blobCopy.rows,
    row ∈ before.tables.blobCopy.rows ∨ row.sizeMb = 0 ∧ OrdinaryName row.hash ∧
      known row.workerAddress ∧ row.hash ≠ blobHash
  usable : ∀ worker, Usable (before.workers worker) → Usable (after.workers worker)
  nodes : ∀ worker, Usable (before.workers worker) ∨ ¬ known worker →
    blobNode after (blobHash, worker) = blobNode before (blobHash, worker)

variable {known : String → Prop}

theorem untouched_refl : Untouched blobHash known now now :=
  ⟨fun _ => .rfl, rfl, fun _ member => .inl member, fun _ usable => usable, fun _ _ => rfl⟩

theorem leaves_untouched {after : Cluster} (ordinary : OrdinaryName blobHash)
    (untouched : Untouched blobHash known now after) :
    Leaves blobHash bytes running now after where
  rows := by
    intro row member
    cases untouched.rows row member with
    | inl before => exact .inl before
    | inr fresh => exact .inr ⟨fresh.1, fresh.2.1, fresh.2.2.2⟩
  kept := by
    intro worker _ kept
    have usable := untouched.usable worker kept.usable
    have node := untouched.nodes worker (.inl kept.usable)
    obtain ⟨entry, there, saved⟩ := kept.backed.saved
    rw [find_row_of, ← untouched.copies, ← find_row_of] at there
    exact ⟨⟨⟨entry, there, saved⟩, (untouched.registered worker).mpr kept.backed.registered, usable.blobs,
      (content_of_node kept.usable.blobs usable.blobs ordinary node).trans kept.backed.content⟩, usable⟩

theorem request_keeps_node {fs : FileSystem} {name : String} (usable : Usable fs)
    (named : OrdinaryName name) (call : FileCall)
    (within : FileWithin (bystander blobHash known name).BlobPath call)
    (apart : Alters call → name ≠ blobHash) (choice : FileChoice) :
    Usable (fileSem call choice fs).2 ∧
      (fileSem call choice fs).2.node (blobLocation (fileSem call choice fs).2 blobHash) =
        fs.node (blobLocation fs blobHash) := by
  obtain ⟨answer, changes, free⟩ := one_file usable named call within choice
  refine ⟨usable_changed usable name changes free, ?_⟩
  by_cases same : blobHash = name
  · subst same
    have reads : ¬ Alters call := fun alters => apart alters rfl
    rw [location_kept changes,
      ← one_file_read call reads choice (fs.node (blobLocation fs blobHash)), ← answer]
  · exact entry_kept changes blobHash same

theorem request_untouched_file {name worker : String} (named : OrdinaryName name)
    (there : known worker) (call : FileCall)
    (within : FileWithin (bystander blobHash known name).BlobPath call)
    (apart : Alters call → name ≠ blobHash) (choice : FileChoice) :
    Untouched blobHash known now (withWorker now worker (fileSem call choice (now.workers worker)).2) where
  registered := fun _ => .rfl
  copies := rfl
  rows := fun _ member => .inl member
  usable := by
    intro other usable
    by_cases same : other = worker
    · subst same
      rw [with_worker_at]
      exact (request_keeps_node usable named call within apart choice).1
    · rw [with_worker_elsewhere now worker other _ same]
      exact usable
  nodes := by
    intro other outside
    by_cases same : other = worker
    · subst same
      simp only [blobNode, with_worker_at]
      exact (request_keeps_node (outside.resolve_right (fun unknown => unknown there))
        named call within apart choice).2
    · simp only [blobNode, with_worker_elsewhere now worker other _ same]

theorem request_untouched_rows {name : String} (named : OrdinaryName name)
    (standing : ∀ row ∈ now.tables.blobCopy.rows, row.sizeMb = 0 ∧ known row.workerAddress)
    (workers : ∀ row ∈ now.tables.workerState.rows, known row.workerAddress) (call : SpannerCall)
    (within : (bystander blobHash known name).Rows call) (choice : DbChoice) :
    Untouched blobHash known now { now with tables := (spannerSem call choice now.tables).2 } ∧
      (bystander blobHash known name).RowReplies call (spannerSem call choice now.tables).1 := by
  obtain ⟨spared, replied⟩ := spanner_stays call within workers standing choice
  refine ⟨?_, replied⟩
  by_cases same : name = blobHash
  · -- A download commits nothing.
    have unchanged : (spannerSem call choice now.tables).2 = now.tables := by
      cases call with
      | commit mutation => cases mutation <;> first | exact absurd same within.2 | exact within.elim
      | selectBlobs query => exact (select_tables choice now.tables).1 query
      | selectWorkers query => exact (select_tables choice now.tables).2 query
    rw [unchanged]
    exact untouched_refl
  · constructor
    · exact spared.registered
    · exact spared.others blobHash (Ne.symm same)
    · intro row member
      cases spared.rows row member with
      | inl before => exact .inl before
      | inr own =>
          obtain ⟨hash, size, there⟩ := own
          exact .inr ⟨size, hash ▸ named, there, fun hashed => same (hash.symm.trans hashed)⟩
    · exact fun _ usable => usable
    · exact fun _ _ => rfl

theorem request_untouched (name : String)
    (standing : ∀ row ∈ now.tables.blobCopy.rows, row.sizeMb = 0 ∧ OrdinaryName row.hash ∧
      known row.workerAddress)
    (workers : ∀ row ∈ now.tables.workerState.rows, known row.workerAddress) (call : ClusterCall)
    (choice : Choice) (reaches : Reaches (bystander blobHash known name) call) :
    Untouched blobHash known now (clusterSem call choice now).2 ∧
      Hears (bystander blobHash known name) call (clusterSem call choice now).1 := by
  by_cases named : OrdinaryName (bystander blobHash known name).blobHash
  · rw [Reaches, if_pos named] at reaches
    rw [Hears, if_pos named]
    cases call with
    | spanner call =>
        exact request_untouched_rows named
          (fun row member => ⟨(standing row member).1, (standing row member).2.2⟩)
          workers call reaches choice.db
    | workerFile worker call =>
        obtain ⟨there, within, apart⟩ := reaches
        exact ⟨request_untouched_file named there call within apart choice.file, trivial⟩
    | frontendFile call =>
        exact ⟨⟨fun _ => .rfl, rfl, fun _ member => .inl member, fun _ usable => usable,
          fun _ _ => rfl⟩, trivial⟩
    | rpc => exact ⟨untouched_refl, trivial⟩
    | streamOpen => exact ⟨untouched_refl, trivial⟩
    | rand => exact ⟨untouched_refl, trivial⟩
  · rw [Reaches, if_neg named] at reaches
    rw [Hears, if_neg named]
    have unlike : ∀ row ∈ now.tables.blobCopy.rows, row.hash ≠ name :=
      fun row member same => named (same ▸ (standing row member).2.1)
    obtain ⟨same, finds⟩ := inquiry_idle unlike call choice reaches
    exact ⟨same.symm ▸ untouched_refl, finds⟩

theorem other_copies_kept {address worker : String} {before after : Tables}
    (same : withoutWorker address after = withoutWorker address before) (apart : worker ≠ address) :
    after.blobCopy.find? (blobHash, worker) = before.blobCopy.find? (blobHash, worker) := by
  have copies : ∀ tables : Tables, (withoutWorker address tables).blobCopy.find?
      (blobHash, worker) = tables.blobCopy.find? (blobHash, worker) := by
    intro tables
    refine Table.find_spared _ _ _ ?_
    intro row keyed
    have named : row.workerAddress = worker := congrArg Prod.snd keyed
    exact decide_eq_false (fun mine => apart (named.symm.trans mine))
  rw [← copies after, same, copies]

theorem other_worker_kept {address worker : String} {before after : Tables}
    (same : withoutWorker address after = withoutWorker address before) (apart : worker ≠ address) :
    Registered after worker ↔ Registered before worker := by
  have rows : ∀ tables : Tables, (withoutWorker address tables).workerState.find? worker =
      tables.workerState.find? worker := by
    intro tables
    refine Table.find_spared _ _ _ ?_
    intro row named
    exact decide_eq_false (fun mine => apart (named.symm.trans mine))
  rw [Registered, Registered, ← rows after, same, rows]

theorem registering_rows {request : RegisterWorkerRequest} {mutation : Mutation}
    {before after : Tables} (mine : Registering request mutation)
    (applied : mutation.apply before = some after) :
    ∀ row ∈ after.blobCopy.rows, row ∈ before.blobCopy.rows := by
  cases mine with
  | deletesRow =>
      obtain rfl := Option.some.inj applied
      exact fun _ member => member
  | deletesCopies =>
      obtain rfl := Option.some.inj applied
      exact fun row member => ((Table.mem_delete _ _ row).mp member).1
  | inserts =>
      obtain ⟨rows, -, rfl⟩ := Option.map_eq_some_iff.mp applied
      exact fun _ member => member

theorem start_leaves {address : String} (apart : ∀ worker, running worker → worker ≠ address)
    (call : ClusterCall) (choice : Choice) (calls : StartCalls address call) :
    Leaves blobHash bytes running now (clusterSem call choice now).2 := by
  cases call with
  | spanner call =>
      cases call with
      | commit mutation =>
          obtain ⟨space, mine⟩ := calls
          have leaves : ∀ after, mutation.apply now.tables = some after →
              Leaves blobHash bytes running now { now with tables := after } := by
            intro after applied
            have others := registering_others mine applied
            apply leaves_tables
            · exact fun row member => .inl (registering_rows mine applied row member)
            · exact fun worker runs => other_copies_kept others (apart worker runs)
            · exact fun worker runs => (other_worker_kept others (apart worker runs)).mpr
          cases commit_tables mutation choice.db now.tables with
          | inl same =>
              simp only [clusterSem, spannerSem, same]
              exact leaves_refl
          | inr applied => exact leaves _ applied
      | selectBlobs query => exact calls.elim
      | selectWorkers query => exact calls.elim
  | workerFile worker call =>
      obtain rfl : worker = address := calls
      exact leaves_files (fun runs _ => absurd rfl (apart worker runs))
  | rpc => exact leaves_refl
  | frontendFile call => exact calls.elim
  | streamOpen => exact calls.elim
  | rand => exact calls.elim

-- When a worker has seen the rows of its copies deleted, they are.
theorem start_clears {address : String} (call : ClusterCall) (choice : Choice)
    (calls : StartCalls address call) (cleared : Bool)
    (noted : noteCleared call (clusterSem call choice now).1 cleared = true) :
    cleared = true ∨ ∀ row ∈ (clusterSem call choice now).2.tables.blobCopy.rows,
      row.workerAddress ≠ address := by
  cases call with
  | spanner call =>
      cases call with
      | commit mutation =>
          have mine : ∃ space, Registering ⟨address, space⟩ mutation := calls
          obtain ⟨space, mine⟩ := mine
          cases mine with
          | deletesRow => exact .inl noted
          | inserts => exact .inl noted
          | deletesCopies =>
              cases reply : (clusterSem (.spanner (.commit (.deleteBlobsByWorker address))) choice now).1 with
              | error message =>
                  rw [reply] at noted
                  exact .inl noted
              | ok _ =>
                  right
                  have applied := commit_accepted (.deleteBlobsByWorker address) choice.db now.tables reply
                  intro row member
                  simp only [clusterSem, spannerSem] at member
                  rw [← Option.some.inj applied, Table.mem_delete] at member
                  exact of_decide_eq_false member.2
      | selectBlobs query => exact calls.elim
      | selectWorkers query => exact calls.elim
  | workerFile worker call => exact .inl noted
  | rpc => exact .inl noted
  | frontendFile call => exact calls.elim
  | streamOpen => exact calls.elim
  | rand => exact calls.elim

end Steps

section Run

variable {ι : Type} [DecidableEq ι]

def activityPool (X : Xxh64) (activities : ι → Activity) (cluster : Cluster) :
    Pool ι ClusterCall ClusterReply ActivityOutcome Cluster :=
  Pool.start (fun proc => (activities proc).program X) cluster

def Restarts (activities : ι → Activity) (worker : String) : Prop := ∃ proc, activities proc = .start worker

def isRegistered : ClusterM ActivityOutcome → Bool
  | .pure (.started (.ok (.registered _))) => true
  | _ => false

def Activity.Calls (X : Xxh64) (blobHash : String) : Activity → ClusterCall → Prop
  | .client request => Reaches (bystander blobHash (fun _ => True) (request.blobHash X))
  | .start address => StartCalls address

def Activity.Hears (X : Xxh64) (blobHash : String) :
    Activity → (call : ClusterCall) → ClusterReply call → Prop
  | .client request => BlobStore.Hears (bystander blobHash (fun _ => True) (request.blobHash X))
  | .start _ => fun _ _ => True

def Activity.Ends : Activity → ActivityOutcome → Bool → Prop
  | .start _, .started outcome, cleared => ∀ free, outcome = .ok (.registered free) → cleared = true
  | _, _, _ => True

structure Surviving (activities : ι → Activity) (home : Cluster) (blobHash : String) (bytes : Bytes)
    (now : Cluster) (cleared : ι → Bool) :
    Prop where
  rows : ∀ row ∈ now.tables.blobCopy.rows, row.sizeMb = 0 ∧ OrdinaryName row.hash
  older : ∀ row ∈ now.tables.blobCopy.rows, row.hash = blobHash → row ∈ home.tables.blobCopy.rows
  kept : ∀ worker, ¬ Restarts activities worker → Kept blobHash bytes home worker →
    Kept blobHash bytes now worker
  gone : ∀ proc address, activities proc = .start address → cleared proc = true →
    ∀ row ∈ now.tables.blobCopy.rows, row.hash = blobHash → row.workerAddress ≠ address

variable {activities : ι → Activity} {home now after : Cluster} {blobHash : String} {bytes : Bytes}

omit [DecidableEq ι] in
theorem surviving_left {cleared later : ι → Bool}
    (survives : Surviving activities home blobHash bytes now cleared)
    (leaves : Leaves blobHash bytes (fun worker => ¬ Restarts activities worker) now after)
    (newly : ∀ proc address, activities proc = .start address → later proc = true →
      cleared proc = true ∨ ∀ row ∈ after.tables.blobCopy.rows, row.workerAddress ≠ address) :
    Surviving activities home blobHash bytes after later where
  rows := by
    intro row member
    cases leaves.rows row member with
    | inl before => exact survives.rows row before
    | inr fresh => exact ⟨fresh.1, fresh.2.1⟩
  older := by
    intro row member hash
    cases leaves.rows row member with
    | inl before => exact survives.older row before hash
    | inr fresh => exact absurd hash fresh.2.2
  kept := fun worker runs whole => leaves.kept worker runs (survives.kept worker runs whole)
  gone := by
    intro proc address starts noted row member hash
    cases newly proc address starts noted with
    | inr emptied => exact emptied row member
    | inl already =>
        cases leaves.rows row member with
        | inl before => exact survives.gone proc address starts already row before hash
        | inr fresh => exact absurd hash fresh.2.2

theorem surviving_step (X : Xxh64) (ordinary : OrdinaryName blobHash) (proc : ι)
    (call : ClusterCall) (choice : Choice) (cleared : ι → Bool)
    (survives : Surviving activities home blobHash bytes now cleared)
    (calls : (activities proc).Calls X blobHash call) :
    (activities proc).Hears X blobHash call (clusterSem call choice now).1 ∧
      Surviving activities home blobHash bytes (clusterSem call choice now).2
        (Function.update cleared proc (noteCleared call (clusterSem call choice now).1 (cleared proc))) := by
  cases kind : activities proc with
  | client request =>
      rw [kind] at calls
      have standing : ∀ row ∈ now.tables.blobCopy.rows, row.sizeMb = 0 ∧ OrdinaryName row.hash ∧ True :=
        fun row member => ⟨(survives.rows row member).1, (survives.rows row member).2, trivial⟩
      obtain ⟨untouched, hears⟩ :=
        request_untouched (request.blobHash X) standing (fun _ _ => trivial) call choice calls
      refine ⟨hears, surviving_left survives (leaves_untouched ordinary untouched) ?_⟩
      intro other address starts noted
      have different : other ≠ proc := by
        intro same
        rw [same, kind] at starts
        cases starts
      rw [Function.update_of_ne different] at noted
      exact .inl noted
  | start address =>
      rw [kind] at calls
      have apart : ∀ worker, ¬ Restarts activities worker → worker ≠ address :=
        fun worker runs same => runs ⟨proc, same ▸ kind⟩
      refine ⟨trivial, surviving_left survives (start_leaves apart call choice calls) ?_⟩
      intro other named starts noted
      by_cases same : other = proc
      · subst same
        rw [Function.update_self] at noted
        obtain rfl : address = named := Activity.start.inj (kind.symm.trans starts)
        exact start_clears call choice calls _ noted
      · rw [Function.update_of_ne same] at noted
        exact .inl noted

def activityContract (X : Xxh64) (blobHash : String) (activity : Activity) :
    Contract ClusterCall ClusterReply Bool :=
  noting noteCleared (fun call _ => activity.Calls X blobHash call)
    (fun call reply _ => activity.Hears X blobHash call reply)

omit [DecidableEq ι] in
theorem activity_meets (X : Xxh64) (blobHash : String) (activity : Activity)
    (spares : activity.Spares X blobHash) :
    meets (activityContract X blobHash activity) (activity.program X) activity.Ends false := by
  cases activity with
  | client request =>
      rw [Activity.program, map_eq_pure_bind, meets_bind]
      exact meets_beside noteCleared _ false (request_reaches (fun _ _ => trivial) X request rfl spares)
  | start address =>
      rw [Activity.program, map_eq_pure_bind, meets_bind]
      exact start_worker address

theorem registered_cleared {contract : Contract ClusterCall ClusterReply Bool} {address : String}
    {program : ClusterM ActivityOutcome} {cleared : Bool} (registered : isRegistered program = true)
    (ended : meets contract program (Activity.Ends (.start address)) cleared) : cleared = true := by
  cases program with
  | call effect next => cases registered
  | pure value =>
      cases value with
      | answered response => cases registered
      | started outcome =>
          cases outcome with
          | error thrown => cases registered
          | ok start =>
              cases start with
              | exited => cases registered
              | unregistered => cases registered
              | registered free => exact ended free rfl

theorem surviving_run (X : Xxh64) (activities : ι → Activity) (home : Cluster) (blobHash : String)
    (ordinary : OrdinaryName blobHash) (bytes : Bytes)
    (standing : ∀ row ∈ home.tables.blobCopy.rows, row.sizeMb = 0 ∧ OrdinaryName row.hash)
    (procs : ι → ClusterM ActivityOutcome)
    (meet : ∀ proc, meets (activityContract X blobHash (activities proc)) (procs proc)
      (activities proc).Ends false) (schedule : List (ι × Choice)) :
    ∃ cleared, Surviving activities home blobHash bytes
      ((Pool.start procs home).run clusterSem schedule).state cleared ∧
      ∀ proc, isRegistered (((Pool.start procs home).run clusterSem schedule).procs proc) = true →
        ∀ address, activities proc = .start address → cleared proc = true := by
  obtain ⟨cleared, survives, programs⟩ :=
    Pool.noted_holds clusterSem false (fun proc => (activities proc).Ends)
    (Surviving activities home blobHash bytes) (fun _ => True)
    (fun proc call choice _ _ survives _ calls =>
      surviving_step X ordinary proc call choice _ survives calls) procs home schedule meet
    ⟨standing, fun _ member _ => member, fun _ _ whole => whole, fun _ _ _ noted => by cases noted⟩
      (fun _ _ => trivial)
  refine ⟨cleared, survives, ?_⟩
  intro proc registered address starts
  have ended := programs proc
  rw [starts] at ended
  exact registered_cleared registered ended

-- The copies on the workers that keep running stay, and once the others are registered
-- again only those are left.
theorem restarts_survived (X : Xxh64) (activities : ι → Activity) (home : Cluster)
    (blobHash : String) (ordinary : OrdinaryName blobHash) (right : Bytes → Prop)
    (standing : ∀ row ∈ home.tables.blobCopy.rows, row.sizeMb = 0 ∧ OrdinaryName row.hash)
    (procs : ι → ClusterM ActivityOutcome)
    (meet : ∀ proc, meets (activityContract X blobHash (activities proc)) (procs proc)
      (activities proc).Ends false)
    (stored : ∀ worker, Copy .saved home.tables (blobHash, worker) → Restarts activities worker ∨
      ∃ bytes, right bytes ∧ Kept blobHash bytes home worker)
    (one : ∃ worker bytes, ¬ Restarts activities worker ∧ Kept blobHash bytes home worker)
    (schedule : List (ι × Choice)) :
    let after := (Pool.start procs home).run clusterSem schedule
    (∀ worker bytes, ¬ Restarts activities worker → Kept blobHash bytes home worker →
      Kept blobHash bytes after.state worker) ∧
      ((∀ proc address, activities proc = .start address → isRegistered (after.procs proc) = true) →
        ∀ (service : FrontendServiceImpl) (getting : List (List Choice)),
          (∀ choices ∈ getting, ∀ choice ∈ choices, Healthy choice) →
          ∃ received, (clientStep X service (.getBlob blobHash, getting) after.state).1 =
              .got (.ok (.ok ())) received ∧ right received.flatten) := by
  intro after
  have stays : ∀ worker bytes, ¬ Restarts activities worker → Kept blobHash bytes home worker →
      Kept blobHash bytes after.state worker := by
    intro worker bytes runs whole
    obtain ⟨cleared, survives, -⟩ :=
      surviving_run X activities home blobHash ordinary bytes standing procs meet schedule
    exact survives.kept worker runs whole
  refine ⟨stays, ?_⟩
  intro registered service getting healthy
  obtain ⟨cleared, survives, back⟩ :=
    surviving_run X activities home blobHash ordinary [] standing procs meet schedule
  have backed : ∀ worker, Copy .saved after.state.tables (blobHash, worker) → ∃ bytes, right bytes ∧
      Backed blobHash bytes after.state worker := by
    intro worker copy
    obtain ⟨row, there, saved⟩ := copy
    obtain ⟨member, keyed⟩ := (Table.find_some_iff _ _ _).mp there
    have hash : row.hash = blobHash := congrArg Prod.fst keyed
    have before := survives.older row member hash
    by_cases restarts : Restarts activities worker
    · obtain ⟨proc, starts⟩ := restarts
      have named : row.workerAddress = worker := congrArg Prod.snd keyed
      exact absurd named (survives.gone proc worker starts
        (back proc (registered proc worker starts) worker starts) row member hash)
    · have copy : Copy .saved home.tables (blobHash, worker) :=
        ⟨row, (Table.find_some_iff _ _ _).mpr ⟨before, keyed⟩, saved⟩
      obtain ⟨bytes, good, kept⟩ := (stored worker copy).resolve_left restarts
      exact ⟨bytes, good, (stays worker bytes restarts kept).backed⟩
  have some_ : ∃ worker, Copy .saved after.state.tables (blobHash, worker) := by
    obtain ⟨worker, bytes, runs, whole⟩ := one
    exact ⟨worker, (stays worker bytes runs whole).backed.saved⟩
  obtain ⟨sent, whole⟩ :=
    wp_sound (EveryChoice Healthy) (service.getBlob blobHash).run _ getting (after.state, [])
    (fun _ member => by cases member) healthy
      (wp_get_backed X service blobHash ordinary right after.state backed some_)
  exact ⟨_, congrArg (fun result => ClientResponse.got result _) sent, whole⟩

-- A stored blob outlives the loss of any of its workers but one. The others come back
-- with whatever is left on their disks, while clients go on with any other blob and keep
-- asking for this one, and anything may fail: once those workers are registered again,
-- a download returns the bytes.
theorem stored_blob_survives_restarts (X : Xxh64) (activities : ι → Activity) (home : Cluster)
    (blobHash : String) (ordinary : OrdinaryName blobHash) (bytes : Bytes)
    (standing : ∀ row ∈ home.tables.blobCopy.rows, row.sizeMb = 0 ∧ OrdinaryName row.hash)
    (spares : ∀ proc, (activities proc).Spares X blobHash)
    (stored : ∀ worker, Copy .saved home.tables (blobHash, worker) → Restarts activities worker ∨
      Kept blobHash bytes home worker)
    (one : ∃ worker, ¬ Restarts activities worker ∧ Kept blobHash bytes home worker)
    (schedule : List (ι × Choice)) :
    let after := (activityPool X activities home).run clusterSem schedule
    (∀ worker, ¬ Restarts activities worker → Kept blobHash bytes home worker →
      Kept blobHash bytes after.state worker) ∧
      ((∀ proc address, activities proc = .start address → isRegistered (after.procs proc) = true) →
        ∀ (service : FrontendServiceImpl) (getting : List (List Choice)),
          (∀ choices ∈ getting, ∀ choice ∈ choices, Healthy choice) →
          ∃ received, (clientStep X service (.getBlob blobHash, getting) after.state).1 =
            .got (.ok (.ok ())) received ∧
            received.flatten = bytes) := by
  obtain ⟨holder, runs, held⟩ := one
  obtain ⟨stays, downloads⟩ :=
    restarts_survived X activities home blobHash ordinary (fun got => got = bytes) standing
    (fun proc => (activities proc).program X)
      (fun proc => activity_meets X blobHash (activities proc) (spares proc))
    (fun worker copy => (stored worker copy).imp_right (fun kept => ⟨bytes, rfl, kept⟩))
      ⟨holder, bytes, runs, held⟩ schedule
  exact ⟨fun worker => stays worker bytes, downloads⟩

end Run

def savedRows : List BlobCopyDTO :=
  ["worker-0", "worker-1", "worker-2"].map (fun worker => ⟨"7", worker, .saved, 0⟩)

def holdsSeven : FileSystem := freshWorker.put ["app", "blobs", "7"] (.file [97])

-- Blob 7 was on three workers, and the disks of two of them are empty now.
def afterPowerCut : Cluster where
  tables := ⟨⟨savedRows, by decide⟩, ⟨freshRows, fresh_addresses⟩⟩
  workers := fun worker => if worker = "worker-0" then holdsSeven else ⟨["app"], ∅⟩
  frontend := freshWorker

def meanwhile : Bool × Bool → Activity
  | (true, true) => .start "worker-1"
  | (true, false) => .start "worker-2"
  | (false, true) => .client (.uploadBlob oneMaster [.info 1, .chunkData [97]])
  | (false, false) => .client (.getBlob oneMaster "7")

def turns (proc : Bool × Bool) (count : Nat) : List ((Bool × Bool) × Choice) :=
  List.replicate count (proc, default)

-- The first reply to worker-1 is lost.
def comingBack : List ((Bool × Bool) × Choice) :=
  turns (false, true) 8 ++ turns (true, true) 2 ++
    [((true, true), { fate := .replyLost "Socket closed" })] ++ turns (false, false) 3 ++
    turns (true, false) 4 ++ turns (true, true) 7 ++ turns (false, true) 6 ++ turns (true, false) 2

theorem holds_seven_usable : Usable holdsSeven := by
  constructor
  · simp [HasBlobs, holdsSeven, freshWorker]
  · intro name
    rw [holdsSeven, node_put]
    split
    · simp
    · exact (usable_empty fresh_worker_empty).free name

theorem worker_0_runs : ¬ Restarts meanwhile "worker-0" := by
  intro restarts
  obtain ⟨⟨one, two⟩, starts⟩ := restarts
  cases one <;> cases two <;> simp [meanwhile] at starts

theorem worker_0_holds_seven : Kept "7" [97] afterPowerCut "worker-0" where
  backed :=
    ⟨⟨⟨"7", "worker-0", .saved, 0⟩, by decide,
      rfl⟩, by simp [Registered, afterPowerCut, Table.find?, freshRows],
      holds_seven_usable.blobs, by decide +kernel⟩
  usable := holds_seven_usable

theorem meanwhile_spares (proc : Bool × Bool) : (meanwhile proc).Spares referenceXxh64 "7" := by
  obtain ⟨starts, one⟩ := proc
  cases starts with
  | true => cases one <;> trivial
  | false =>
      cases one with
      | true =>
          have other :
              (Request.uploadBlob oneMaster [.info 1, .chunkData [97]]).blobHash referenceXxh64 ≠ "7" := by
            decide +kernel
          exact fun _ => other
      | false => exact fun writes => writes.elim

theorem seven_stored (worker : String) (copy : Copy .saved afterPowerCut.tables ("7", worker)) :
    Restarts meanwhile worker ∨ Kept "7" [97] afterPowerCut worker := by
  obtain ⟨row, there, -⟩ := copy
  obtain ⟨member, keyed⟩ := (Table.find_some_iff _ _ _).mp there
  obtain rfl : row.workerAddress = worker := congrArg Prod.snd keyed
  obtain ⟨worker, one, rfl⟩ := List.mem_map.mp member
  simp only [List.mem_cons, List.not_mem_nil, or_false] at one
  rcases one with rfl | rfl | rfl
  · exact .inr worker_0_holds_seven
  · exact .inl ⟨(true, true), rfl⟩
  · exact .inl ⟨(true, false), rfl⟩

theorem stored_blob_survives_restarts_run :
    let after := (activityPool referenceXxh64 meanwhile afterPowerCut).run clusterSem comingBack
    rowsOf "7" after.state.tables.blobCopy = [⟨"7", "worker-0", .saved, 0⟩] ∧
      Kept "7" [97] after.state "worker-0" ∧
      ∃ received, (clientStep referenceXxh64 oneMaster (.getBlob "7", []) after.state).1 =
          .got (.ok (.ok ())) received ∧ received.flatten = [97] := by
  intro after
  obtain ⟨kept, downloads⟩ := stored_blob_survives_restarts referenceXxh64 meanwhile afterPowerCut
    "7" (by decide) [97] (by decide)
    meanwhile_spares seven_stored ⟨"worker-0", worker_0_runs, worker_0_holds_seven⟩ comingBack
  refine ⟨by decide +kernel, kept "worker-0" worker_0_runs worker_0_holds_seven,
    downloads ?_ oneMaster [] (fun _ member => by cases member)⟩
  have both : isRegistered (after.procs (true, true)) = true ∧
      isRegistered (after.procs (true, false)) = true := by decide +kernel
  intro proc address starts
  obtain ⟨one, two⟩ := proc
  cases one with
  | false => cases two <;> cases starts
  | true => cases two with
    | true => exact both.1
    | false => exact both.2

end BlobStore
