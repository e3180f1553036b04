import BlobStore.MasterPool
import BlobStore.OperationPhases

set_option autoImplicit false

namespace BlobStore

open Effects FileSystem WorkerService

-- Of the frontends' own files nothing is asked: uploads may even share them.
structure NothingFails (choice : Choice) : Prop where
  file : FileHealthy choice.file
  db : DbHealthy choice.db
  delivered : choice.fate = .delivered

def HasFile (cluster : Cluster) (copy : String × String) : Prop :=
  ∃ bytes, (cluster.workers copy.2).node (blobLocation (cluster.workers copy.2) copy.1) = some (.file bytes)

def EveryFileKnown (cluster : Cluster) : Prop :=
  ∀ copy : String × String, Registered cluster.tables copy.2 → HasFile cluster copy →
    cluster.tables.blobCopy.find? copy ≠ none

def rowStates (tables : Tables) (copy : String × String) : Option BlobState :=
  (tables.blobCopy.find? copy).map BlobCopyDTO.state

section Files

variable {fs : FileSystem} {name : String} {choice : FileChoice} (usable : Usable fs)
  (ordinary : OrdinaryName name)
  (healthy : FileHealthy choice)

include usable ordinary healthy

theorem blob_opened : fileSem (.openTrunc (WorkerService.BLOBS_PATH ++ name)) choice fs =
    (true, fs.put (blobLocation fs name) (.file [])) := by
  have resolved : fs.resolve (WorkerService.BLOBS_PATH ++ name) = some (blobLocation fs name) :=
    resolve_blob fs usable.blobs name ordinary
  simp only [fileSem, healthy_failure healthy, resolved, if_neg (usable.free name)]

theorem blob_appended (chunk : Bytes) :
    ∃ bytes, fileSem (.append (WorkerService.BLOBS_PATH ++ name) chunk) choice fs =
    (true, fs.put (blobLocation fs name) (.file bytes)) := by
  have resolved : fs.resolve (WorkerService.BLOBS_PATH ++ name) = some (blobLocation fs name) :=
    resolve_blob fs usable.blobs name ordinary
  simp only [fileSem, healthy_failure healthy, resolved]
  cases there : fs.node (blobLocation fs name) with
  | none => exact ⟨_, rfl⟩
  | some node =>
      cases node with
      | file old => exact ⟨_, rfl⟩
      | directory => exact absurd there (usable.free name)

theorem blob_exists : fileSem (.fileExists (WorkerService.BLOBS_PATH ++ name)) choice fs =
    (.ok (fs.node (blobLocation fs name)).isSome, fs) := by
  have resolved : fs.resolve (WorkerService.BLOBS_PATH ++ name) = some (blobLocation fs name) :=
    resolve_blob fs usable.blobs name ordinary
  simp only [fileSem, healthy_failure healthy, FileSystem.lookup, resolved, Option.bind_some]

theorem blob_removed : ∃ removed after,
      fileSem (.remove (WorkerService.BLOBS_PATH ++ name)) choice fs = (.ok removed, after) ∧
    ChangesOnly name fs after ∧ after.node (blobLocation fs name) = none := by
  have resolved : fs.resolve (WorkerService.BLOBS_PATH ++ name) = some (blobLocation fs name) :=
    resolve_blob fs usable.blobs name ordinary
  simp only [fileSem, healthy_failure healthy, resolved]
  cases there : fs.node (blobLocation fs name) with
  | none => exact ⟨_, _, rfl, ⟨rfl, fun _ _ => rfl⟩, there⟩
  | some node =>
      cases node with
      | file old => exact ⟨_, _, rfl, changes_erase fs name, by simp⟩
      | directory => exact absurd there (usable.free name)

end Files

section Pool

variable {ι : Type}

def ClusterCall.reserves : ClusterCall → Option String
  | .spanner (.commit (.insertBlob entry)) => some entry.hash
  | _ => none

def ClusterCall.asksForSaved : ClusterCall → Option String
  | .spanner (.selectBlobs (.savedByHash hash)) => some hash
  | _ => none

-- No copy of a blob is reserved between the query of a deletion of it and the removal of
-- its rows, and no deletion makes its query while an upload holds a copy.
def NoOverlap (call : ClusterCall) (phases : ι → Phase) : Prop :=
  (∀ hash ∈ call.reserves, ∀ proc, ¬ (phases proc).Deletes hash) ∧
    ∀ hash ∈ call.asksForSaved, ∀ proc, ∀ copy ∈ (phases proc).copies, copy.1 ≠ hash

instance [Fintype ι] (call : ClusterCall) (phases : ι → Phase) : Decidable (NoOverlap call phases) :=
  inferInstanceAs (Decidable (_ ∧ _))

structure Consistent (registered : String → Prop) (cluster : Cluster) (phases : ι → Phase) : Prop where
  workers : ∀ worker, Registered cluster.tables worker ↔ registered worker
  usable : ∀ worker, registered worker → Usable (cluster.workers worker)
  rows : ∀ copy : String × String, cluster.tables.blobCopy.find? copy ≠ none →
    OrdinaryName copy.1 ∧ registered copy.2
  known : ∀ proc blobHash remaining, phases proc = .deleting blobHash remaining →
    ∀ worker ∈ remaining, OrdinaryName blobHash ∧ registered worker
  ledger : CopyLedger (fun copy => registered copy.2 ∧ HasFile cluster copy) (rowStates cluster.tables) phases

variable {registered : String → Prop} {cluster : Cluster} {phases : ι → Phase} {proc : ι}

theorem consistent_start (cluster : Cluster) (unused : cluster.tables.blobCopy = Table.empty)
    (workers : ∀ worker, Registered cluster.tables worker → EmptyBlobs (cluster.workers worker)) :
    Consistent (Registered cluster.tables) cluster (fun _ : ι => .holding []) := by
  have usable : ∀ worker, Registered cluster.tables worker → Usable (cluster.workers worker) :=
    fun worker known => ⟨(workers worker known).1, fun name => by simp [(workers worker known).2 name]⟩
  have absent : ∀ copy, cluster.tables.blobCopy.find? copy = none := fun copy => by rw [unused]; rfl
  have noFiles : (fun copy : String × String => Registered cluster.tables copy.2 ∧
      HasFile cluster copy) = fun _ => False := by
    funext copy
    refine eq_false ?_
    rintro ⟨known, bytes, there⟩
    rw [(workers copy.2 known).2 copy.1] at there
    cases there
  have noRows : rowStates cluster.tables = fun _ => none := funext fun copy => by rw [rowStates, absent]; rfl
  refine ⟨fun _ => Iff.rfl, usable, fun copy present => absurd (absent copy) present, nofun, ?_⟩
  rw [noFiles, noRows]
  exact ledger_start

theorem held_row (now : Consistent registered cluster phases) (proc : ι) {copy : String × String}
    (member : copy ∈ (phases proc).copies) :
    ∃ row, cluster.tables.blobCopy.find? copy = some row := by
  obtain ⟨row, found, -⟩ := Option.map_eq_some_iff.mp (now.ledger.held proc copy member)
  exact ⟨row, found⟩

theorem held_good (now : Consistent registered cluster phases) (proc : ι) {copy : String × String}
    (member : copy ∈ (phases proc).copies) :
    OrdinaryName copy.1 ∧ registered copy.2 :=
  now.rows copy (Option.ne_none_iff_exists'.mpr (held_row now proc member))

theorem states_set {rows : BlobTable} {tables : Tables} {entry : BlobCopyDTO}
    (lookup : ∀ copy, rows.find? copy = if entry.key = copy then some entry else tables.blobCopy.find? copy) :
    rowStates { tables with blobCopy := rows } = Function.update (rowStates tables) entry.key
      (some entry.state) := by
  funext copy
  rw [rowStates, Function.update_apply, lookup]
  by_cases here : copy = entry.key
  · rw [if_pos here, if_pos here.symm]
    rfl
  · rw [if_neg here, if_neg (Ne.symm here), rowStates]

theorem rows_set {rows : BlobTable} (now : Consistent registered cluster phases)
    {entry : BlobCopyDTO} (lookup : ∀ copy, rows.find? copy = if entry.key = copy then some entry
      else cluster.tables.blobCopy.find? copy)
    (good : OrdinaryName entry.hash ∧ registered entry.workerAddress) (copy : String × String)
    (present : rows.find? copy ≠ none) :
    OrdinaryName copy.1 ∧ registered copy.2 := by
  rw [lookup] at present
  by_cases here : entry.key = copy
  · exact here ▸ good
  · rw [if_neg here] at present
    exact now.rows copy present

variable [DecidableEq ι]

theorem known_update {phase : Phase} (now : Consistent registered cluster phases)
    (mine : ∀ blobHash remaining, phase = .deleting blobHash remaining → ∀ worker ∈ remaining,
      OrdinaryName blobHash ∧ registered worker)
    (other : ι) (blobHash : String) (remaining : List String)
    (deletes : Function.update phases proc phase other = .deleting blobHash remaining) :
    ∀ worker ∈ remaining, OrdinaryName blobHash ∧ registered worker := by
  rcases phase_after deletes with ⟨-, here⟩ | ⟨-, before⟩
  · exact mine blobHash remaining here
  · exact now.known other blobHash remaining before

theorem consistent_quiet {after : Cluster} {phase : Phase}
    (now : Consistent registered cluster phases) (here : phases proc = phase)
    (copies : after.tables.blobCopy = cluster.tables.blobCopy)
    (workers : ∀ worker, Registered after.tables worker ↔ Registered cluster.tables worker)
    (files : after.workers = cluster.workers) :
    Consistent registered after (Function.update phases proc phase) := by
  rw [← here, Function.update_eq_self]
  obtain ⟨⟨rows, states⟩, fs, frontend⟩ := after
  obtain rfl : rows = cluster.tables.blobCopy := copies
  obtain rfl : fs = cluster.workers := files
  exact ⟨fun worker => (workers worker).trans (now.workers worker), now.usable,
    now.rows, now.known, now.ledger⟩

theorem consistent_rest (now : Consistent registered cluster phases) (ended : (phases proc).Ended) :
    Consistent registered cluster (Function.update phases proc (.holding [])) :=
  ⟨now.workers, now.usable, now.rows, known_update now nofun, ledger_rest now.ledger ended⟩

section Rows

theorem insert_step (now : Consistent registered cluster phases) (entry : BlobCopyDTO)
    (choice : DbChoice) (healthy : DbHealthy choice)
    (apart : ∀ other, ¬ (phases other).Deletes entry.hash) (copies : List (String × String))
    (phase : phases proc = .holding copies) (ordinary : OrdinaryName entry.hash)
    (there : registered entry.workerAddress) (during : entry.state = .duringCreation) :
    let outcome := spannerSem (.commit (.insertBlob entry)) choice cluster.tables
    (outcome.1 = .ok () → entry.key ∉ copies) ∧ Consistent registered (withTables cluster outcome.2)
      (Function.update phases proc (noteRows (.commit (.insertBlob entry)) outcome.1 (.holding copies))) := by
  dsimp only
  rcases healthy_commit (.insertBlob entry) choice healthy cluster.tables with
    ⟨-, refused⟩ | ⟨after, applied, accepted⟩
  · rw [refused]
    exact ⟨nofun, consistent_quiet now phase rfl (fun _ => Iff.rfl) rfl⟩
  · obtain ⟨rows, inserted, rfl⟩ := insert_blob_apply applied
    have absent := ((cluster.tables.blobCopy.insert_some_iff _ _).mp inserted).1
    have fresh : rowStates cluster.tables entry.key = none := by rw [rowStates, absent]; rfl
    have lookup := Table.find_insert inserted
    rw [accepted]
    refine ⟨fun _ member => ?_, now.workers, now.usable, rows_set now lookup ⟨ordinary, there⟩,
      known_update now nofun, ?_⟩
    · have held := now.ledger.held proc entry.key (by rw [phase]; exact member)
      cases fresh.symm.trans held
    · show CopyLedger _ (rowStates { cluster.tables with blobCopy := rows }) _
      rw [states_set lookup, during]
      exact ledger_reserve now.ledger phase fresh apart

theorem update_step (now : Consistent registered cluster phases) (entry : BlobCopyDTO)
    (choice : DbChoice) (healthy : DbHealthy choice) (copies : List (String × String))
    (phase : phases proc = .writing copies entry.key) (saved : entry.state = .saved) :
    let outcome := spannerSem (.commit (.updateBlob entry)) choice cluster.tables
    outcome.1 = .ok () ∧ Consistent registered (withTables cluster outcome.2)
      (Function.update phases proc
        (noteRows (.commit (.updateBlob entry)) outcome.1 (.writing copies entry.key))) := by
  have member := now.ledger.written proc copies entry.key phase
  have held : entry.key ∈ (phases proc).copies := by rw [phase]; exact member
  obtain ⟨row, found⟩ := held_row now proc held
  dsimp only
  rcases healthy_commit (.updateBlob entry) choice healthy cluster.tables with
    ⟨failed, -⟩ | ⟨after, applied, accepted⟩
  · exact absurd failed (update_blob_accepted found)
  · obtain ⟨rows, updated, rfl⟩ := update_blob_apply applied
    have lookup := Table.find_update updated
    rw [accepted]
    refine ⟨rfl, now.workers, now.usable, rows_set now lookup (held_good now proc held),
      known_update now nofun, ?_⟩
    show CopyLedger _ (rowStates { cluster.tables with blobCopy := rows }) _
    rw [states_set lookup, saved]
    exact ledger_save now.ledger phase

theorem forget_step (now : Consistent registered cluster phases) (blobHash : String)
    (choice : DbChoice) (healthy : DbHealthy choice) (phase : phases proc = .deleting blobHash []) :
    let outcome := spannerSem (.commit (.deleteBlobsByHash blobHash)) choice cluster.tables
    outcome.1 = .ok () ∧ Consistent registered (withTables cluster outcome.2)
      (Function.update phases proc
        (noteRows (.commit (.deleteBlobsByHash blobHash)) outcome.1 (.deleting blobHash []))) := by
  dsimp only
  rcases healthy_commit (.deleteBlobsByHash blobHash) choice healthy cluster.tables with
    ⟨failed, -⟩ | ⟨after, applied, accepted⟩
  · cases failed
  · obtain rfl := Option.some.inj applied
    have lookup : ∀ copy : String × String,
        (cluster.tables.blobCopy.delete (fun entry => entry.hash = blobHash)).find? copy =
        if copy.1 = blobHash then none else cluster.tables.blobCopy.find? copy := by
      intro copy
      rw [Table.find_delete]
      cases found : cluster.tables.blobCopy.find? copy with
      | none => simp
      | some row =>
          have keyed : row.hash = copy.1 :=
            congrArg Prod.fst ((cluster.tables.blobCopy.find_some_iff _ _).mp found).2
          by_cases same : copy.1 = blobHash <;> simp [keyed, same]
    rw [accepted]
    refine ⟨rfl, now.workers, now.usable, ?_, known_update now nofun, ?_⟩
    · intro copy present
      rw [withTables, lookup] at present
      by_cases same : copy.1 = blobHash
      · exact absurd (if_pos same) present
      · rw [if_neg same] at present
        exact now.rows copy present
    · have states : rowStates { cluster.tables with
          blobCopy := cluster.tables.blobCopy.delete (fun entry => entry.hash = blobHash) } =
          fun copy => if copy.1 = blobHash then none else rowStates cluster.tables copy := by
        funext copy
        rw [rowStates, lookup]
        by_cases same : copy.1 = blobHash
        · rw [if_pos same, if_pos same]
          rfl
        · rw [if_neg same, if_neg same, rowStates]
      show CopyLedger _
          (rowStates { cluster.tables with
            blobCopy := cluster.tables.blobCopy.delete (fun entry => entry.hash = blobHash) }) _
      rw [states]
      exact ledger_forget now.ledger phase

theorem query_step (now : Consistent registered cluster phases) (blobHash : String)
    (choice : DbChoice) (healthy : DbHealthy choice)
    (apart : ∀ other, ∀ copy ∈ (phases other).copies, copy.1 ≠ blobHash)
    (phase : phases proc = .holding []) :
    let outcome := spannerSem (.selectBlobs (.savedByHash blobHash)) choice cluster.tables
    (∃ rows, outcome.1 = .ok rows ∧ ∀ row ∈ rows, row.hash = blobHash) ∧
      Consistent registered (withTables cluster outcome.2)
      (Function.update phases proc
        (noteRows (.selectBlobs (.savedByHash blobHash)) outcome.1 (.holding []))) := by
  obtain ⟨rows, reply, answers⟩ := select_blobs_answers (.savedByHash blobHash) choice healthy cluster.tables
  have members := answer_saved cluster.tables.blobCopy blobHash rows answers
  dsimp only
  rw [reply, (select_tables choice cluster.tables).1]
  refine ⟨⟨rows, rfl, fun row member => ((members row).mp member).2.1⟩, now.workers, now.usable,
    now.rows, known_update now ?_, ?_⟩
  · rintro _ _ ⟨⟩ worker asked
    obtain ⟨row, member, rfl⟩ := List.mem_map.mp asked
    obtain ⟨stored, rfl, -⟩ := (members row).mp member
    exact now.rows row.key
      (Option.ne_none_iff_exists'.mpr ⟨row, cluster.tables.blobCopy.find_self row stored⟩)
  · refine ledger_query now.ledger phase apart ?_
    intro worker saved
    obtain ⟨row, found, is⟩ := Option.map_eq_some_iff.mp saved
    obtain ⟨stored, keyed⟩ := (cluster.tables.blobCopy.find_some_iff _ _).mp found
    obtain ⟨rfl, rfl⟩ := Prod.mk.inj keyed
    exact List.mem_map.mpr ⟨row, (members row).mpr ⟨stored, rfl, is⟩, rfl⟩

theorem rows_step (now : Consistent registered cluster phases) (call : SpannerCall)
    (choice : DbChoice) (healthy : DbHealthy choice) (apart : NoOverlap (.spanner call) phases)
    (asks : permittedRows registered call (phases proc)) :
    possibleRows registered call (spannerSem call choice cluster.tables).1 (phases proc) ∧
      Consistent registered (withTables cluster (spannerSem call choice cluster.tables).2)
        (Function.update phases proc
          (noteRows call (spannerSem call choice cluster.tables).1 (phases proc))) := by
  generalize here : phases proc = phase at asks ⊢
  cases call with
  | selectWorkers query =>
      obtain ⟨rows, reply, answers⟩ := select_workers_answers query choice healthy cluster.tables
      rw [reply, (select_tables choice cluster.tables).2]
      refine ⟨?_, consistent_quiet now here rfl (fun _ => Iff.rfl) rfl⟩
      rintro _ ⟨⟩ row member
      obtain ⟨scan, perm, rfl⟩ := answers
      have stored : row ∈ cluster.tables.workerState.rows := by
        cases query with
        | byAddress address => exact perm.mem_iff.mp (List.mem_of_mem_filter member)
        | withFreeSpace space limit =>
            exact perm.mem_iff.mp (List.mem_of_mem_filter (List.mem_of_mem_take member))
      exact (now.workers _).mp (Option.ne_none_iff_exists'.mpr
        ⟨row, cluster.tables.workerState.find_self row stored⟩)
  | selectBlobs query =>
      cases query with
      | savedByHash blobHash =>
          cases phase with
          | holding copies =>
              obtain rfl : copies = [] := asks
              exact query_step now blobHash choice healthy (apart.2 blobHash rfl) here
          | writing copies copy => exact asks.elim
          | deleting hash remaining => exact asks.elim
      | byHashAndWorker blobHash worker =>
          cases phase with
          | holding copies => exact asks.elim
          | deleting hash remaining => exact asks.elim
          | writing copies copy =>
              obtain rfl : copy = (blobHash, worker) := asks
              have member := now.ledger.written proc copies _ here
              obtain ⟨row, found⟩ := held_row now proc
                (show (blobHash, worker) ∈ (phases proc).copies by rw [here]; exact member)
              obtain ⟨rows, reply, answers⟩ := select_blobs_answers
                (.byHashAndWorker blobHash worker) choice healthy cluster.tables
              obtain rfl := answer_by_hash_and_worker _ _ _ _ answers
              rw [reply, (select_tables choice cluster.tables).1, found]
              refine ⟨⟨row, rfl, ((cluster.tables.blobCopy.find_some_iff _ _).mp found).2⟩, ?_⟩
              exact consistent_quiet now here rfl (fun _ => Iff.rfl) rfl
  | commit mutation =>
      cases mutation with
      | deleteBlobsByWorker address => exact asks.elim
      | insertWorker row => exact asks.elim
      | deleteWorker address => exact asks.elim
      | updateWorker row =>
          refine ⟨trivial, ?_⟩
          rcases healthy_commit (.updateWorker row) choice healthy cluster.tables with
            ⟨-, refused⟩ | ⟨after, applied, accepted⟩
          · rw [refused]
            exact consistent_quiet now here rfl (fun _ => Iff.rfl) rfl
          · obtain ⟨rows, updated, rfl⟩ := update_worker_apply applied
            rw [accepted]
            exact consistent_quiet now here rfl (registered_update updated) rfl
      | insertBlob entry =>
          cases phase with
          | writing copies copy => exact asks.elim
          | deleting hash remaining => exact asks.elim
          | holding copies =>
              obtain ⟨ordinary, there, during⟩ := asks
              exact insert_step now entry choice healthy (apart.1 entry.hash rfl)
                copies here ordinary there during
      | updateBlob entry =>
          cases phase with
          | holding copies => exact asks.elim
          | deleting hash remaining => exact asks.elim
          | writing copies copy =>
              obtain ⟨rfl, saved⟩ := asks
              exact update_step now entry choice healthy copies here saved
      | deleteBlobsByHash blobHash =>
          cases phase with
          | holding copies => exact asks.elim
          | writing copies copy => exact asks.elim
          | deleting hash remaining =>
              obtain ⟨rfl, rfl⟩ := asks
              exact forget_step now hash choice healthy here

end Rows

section Files

variable {name worker : String} {fs : FileSystem}

theorem has_file_elsewhere (changes : ChangesOnly name (cluster.workers worker) fs) (copy : String × String)
    (there : HasFile (withWorker cluster worker fs) copy) : copy = (name, worker) ∨ HasFile cluster copy := by
  obtain ⟨hash, address⟩ := copy
  obtain ⟨bytes, stored⟩ := there
  by_cases same : address = worker
  · subst same
    by_cases named : hash = name
    · exact .inl (by rw [named])
    · rw [with_worker_at, entry_kept changes hash named] at stored
      exact .inr ⟨bytes, stored⟩
  · rw [with_worker_elsewhere cluster worker address fs same] at stored
    exact .inr ⟨bytes, stored⟩

theorem consistent_file {phase : Phase} (now : Consistent registered cluster phases)
    (changes : ChangesOnly name (cluster.workers worker) fs)
    (free : fs.node (blobLocation (cluster.workers worker) name) ≠ some .directory)
    (mine : ∀ blobHash remaining, phase = .deleting blobHash remaining → ∀ worker ∈ remaining,
      OrdinaryName blobHash ∧ registered worker)
    (ledger : (∀ copy, registered copy.2 ∧ HasFile (withWorker cluster worker fs) copy →
      copy = (name, worker) ∨ registered copy.2 ∧ HasFile cluster copy) →
      CopyLedger (fun copy => registered copy.2 ∧ HasFile (withWorker cluster worker fs) copy)
      (rowStates cluster.tables) (Function.update phases proc phase)) :
    Consistent registered (withWorker cluster worker fs) (Function.update phases proc phase) := by
  refine ⟨now.workers, ?_, now.rows, known_update now mine, ledger ?_⟩
  · intro other known
    by_cases same : other = worker
    · subst same
      rw [with_worker_at]
      exact usable_changed (now.usable other known) name changes free
    · rw [with_worker_elsewhere cluster worker other fs same]
      exact now.usable other known
  · exact fun copy there => (has_file_elsewhere changes copy there.2).imp id (fun before => ⟨there.1, before⟩)

theorem no_file_here (changes : ChangesOnly name (cluster.workers worker) fs)
    (gone : fs.node (blobLocation (cluster.workers worker) name) = none) :
    ¬ HasFile (withWorker cluster worker fs) (name, worker) := by
  rintro ⟨bytes, stored⟩
  rw [with_worker_at, location_kept changes, gone] at stored
  cases stored

theorem open_step (now : Consistent registered cluster phases) (choice : FileChoice)
    (healthy : FileHealthy choice) {copies : List (String × String)}
    (phase : phases proc = .holding copies) (member : (name, worker) ∈ copies) :
    let outcome := fileSem (.openTrunc (WorkerService.BLOBS_PATH ++ name)) choice (cluster.workers worker)
    outcome.1 = true ∧ Consistent registered (withWorker cluster worker outcome.2)
      (Function.update phases proc
      (noteFile worker (.openTrunc (WorkerService.BLOBS_PATH ++ name)) outcome.1 (.holding copies))) := by
  have good := held_good now proc (by rw [phase]; exact member)
  dsimp only
  rw [blob_opened (now.usable worker good.2) good.1 healthy, noted_open member]
  refine ⟨rfl, consistent_file now (changes_put _ _ _) (by simp) nofun (fun more => ?_)⟩
  exact ledger_write now.ledger phase (.inl rfl) member more

theorem append_step (now : Consistent registered cluster phases) (chunk : Bytes)
    (choice : FileChoice) (healthy : FileHealthy choice) {copies : List (String × String)}
    (phase : phases proc = .writing copies (name, worker)) :
    let outcome := fileSem (.append (WorkerService.BLOBS_PATH ++ name) chunk) choice (cluster.workers worker)
    outcome.1 = true ∧
      Consistent registered (withWorker cluster worker outcome.2)
        (Function.update phases proc (.writing copies (name, worker))) := by
  have member := now.ledger.written proc copies _ phase
  have good := held_good now proc (by rw [phase]; exact member)
  obtain ⟨bytes, appended⟩ := blob_appended (now.usable worker good.2) good.1 healthy chunk
  dsimp only
  rw [appended]
  refine ⟨rfl, consistent_file now (changes_put _ _ _) (by simp) nofun (fun more => ?_)⟩
  exact ledger_write now.ledger phase (.inr rfl) member more

theorem drop_step (now : Consistent registered cluster phases) (choice : FileChoice)
    (healthy : FileHealthy choice) {copies : List (String × String)}
    (phase : phases proc = .writing copies (name, worker)) :
    let outcome := fileSem (.remove (WorkerService.BLOBS_PATH ++ name)) choice (cluster.workers worker)
    (∃ removed, outcome.1 = .ok removed) ∧
      Consistent registered (withWorker cluster worker outcome.2) (Function.update phases proc
      (noteFile worker (.remove (WorkerService.BLOBS_PATH ++ name)) outcome.1
        (.writing copies (name, worker)))) := by
  have member := now.ledger.written proc copies _ phase
  have good := held_good now proc (by rw [phase]; exact member)
  obtain ⟨removed, after, performed, changes, gone⟩ := blob_removed (now.usable worker good.2) good.1 healthy
  dsimp only
  rw [performed]
  refine ⟨⟨removed, rfl⟩, consistent_file now changes (by simp [gone]) nofun (fun more => ?_)⟩
  exact ledger_drop now.ledger phase (fun there => no_file_here changes gone there.2) more

-- A worker that has been asked holds no file of the blob, whether one was removed or
-- there was none.
theorem asked_step {rest : List String} (now : Consistent registered cluster phases)
    (phase : phases proc = .deleting name (worker :: rest))
    (changes : ChangesOnly name (cluster.workers worker) fs)
    (gone : fs.node (blobLocation (cluster.workers worker) name) = none) :
    Consistent registered (withWorker cluster worker fs)
      (Function.update phases proc (.deleting name rest)) := by
  refine consistent_file now changes (by simp [gone]) ?_ (fun more => ?_)
  · rintro _ _ ⟨⟩ other member
    exact now.known proc name _ phase other (List.mem_cons_of_mem worker member)
  · exact ledger_ask now.ledger phase (fun there => no_file_here changes gone there.2) more

theorem remove_step {rest : List String} (now : Consistent registered cluster phases)
    (choice : FileChoice) (healthy : FileHealthy choice)
    (phase : phases proc = .deleting name (worker :: rest)) :
    let outcome := fileSem (.remove (WorkerService.BLOBS_PATH ++ name)) choice (cluster.workers worker)
    (∃ removed, outcome.1 = .ok removed) ∧
      Consistent registered (withWorker cluster worker outcome.2) (Function.update phases proc
      (noteFile worker (.remove (WorkerService.BLOBS_PATH ++ name)) outcome.1
        (.deleting name (worker :: rest)))) := by
  have good := now.known proc name _ phase worker List.mem_cons_self
  obtain ⟨removed, after, performed, changes, gone⟩ := blob_removed (now.usable worker good.2) good.1 healthy
  dsimp only
  rw [performed]
  exact ⟨⟨removed, rfl⟩, asked_step now phase changes gone⟩

theorem exists_step {rest : List String} (now : Consistent registered cluster phases)
    (choice : FileChoice) (healthy : FileHealthy choice)
    (phase : phases proc = .deleting name (worker :: rest)) :
    let outcome := fileSem (.fileExists (WorkerService.BLOBS_PATH ++ name)) choice (cluster.workers worker)
    (∃ present, outcome.1 = .ok present) ∧
      Consistent registered (withWorker cluster worker outcome.2) (Function.update phases proc
      (noteFile worker (.fileExists (WorkerService.BLOBS_PATH ++ name)) outcome.1
        (.deleting name (worker :: rest)))) := by
  have good := now.known proc name _ phase worker List.mem_cons_self
  dsimp only
  rw [blob_exists (now.usable worker good.2) good.1 healthy]
  refine ⟨⟨_, rfl⟩, ?_⟩
  cases there : (cluster.workers worker).node (blobLocation (cluster.workers worker) name) with
  | none => exact asked_step now phase ⟨rfl, fun _ _ => rfl⟩ there
  | some node =>
      rw [with_worker_same]
      exact consistent_quiet now phase rfl (fun _ => Iff.rfl) rfl

theorem file_step (now : Consistent registered cluster phases) (worker : String) (call : FileCall)
    (choice : FileChoice) (healthy : FileHealthy choice)
    (asks : permittedFile worker call (phases proc)) :
    possibleFile call (fileSem call choice (cluster.workers worker)).1 ∧
      Consistent registered (withWorker cluster worker (fileSem call choice (cluster.workers worker)).2)
        (Function.update phases proc
          (noteFile worker call (fileSem call choice (cluster.workers worker)).1 (phases proc))) := by
  generalize here : phases proc = phase at asks ⊢
  cases call with
  | fileSize path => cases phase <;> exact asks.elim
  | openRead path => cases phase <;> exact asks.elim
  | read path offset count => cases phase <;> exact asks.elim
  | space path => cases phase <;> exact asks.elim
  | createDirectories path =>
      cases phase with
      | writing copies copy => exact asks.elim
      | deleting blobHash remaining => exact asks.elim
      | holding copies =>
          obtain ⟨rfl, copy, member, rfl⟩ := asks
          have good := held_good now proc (by rw [here]; exact member)
          rw [blobs_stay (healthy_failure healthy) (now.usable copy.2 good.2).blobs, with_worker_same]
          exact ⟨rfl, consistent_quiet now here rfl (fun _ => Iff.rfl) rfl⟩
  | openTrunc path =>
      cases phase with
      | writing copies copy => exact asks.elim
      | deleting blobHash remaining => exact asks.elim
      | holding copies =>
          obtain ⟨⟨name, address⟩, member, rfl, rfl⟩ := asks
          exact open_step now choice healthy here member
  | append path chunk =>
      cases phase with
      | holding copies => exact asks.elim
      | deleting blobHash remaining => exact asks.elim
      | writing copies copy =>
          obtain ⟨name, address⟩ := copy
          obtain ⟨rfl, rfl⟩ := asks
          exact append_step now chunk choice healthy here
  | remove path =>
      cases phase with
      | holding copies => exact asks.elim
      | writing copies copy =>
          obtain ⟨name, address⟩ := copy
          obtain ⟨rfl, rfl⟩ := asks
          exact drop_step now choice healthy here
      | deleting blobHash remaining =>
          cases remaining with
          | nil => cases asks.1
          | cons address rest =>
              obtain ⟨same, rfl⟩ := asks
              obtain rfl := Option.some.inj same
              exact remove_step now choice healthy here
  | fileExists path =>
      cases phase with
      | holding copies => exact asks.elim
      | writing copies copy => exact asks.elim
      | deleting blobHash remaining =>
          cases remaining with
          | nil => cases asks.1
          | cons address rest =>
              obtain ⟨same, rfl⟩ := asks
              obtain rfl := Option.some.inj same
              exact exists_step now choice healthy here

end Files

theorem cluster_step (call : ClusterCall) (choice : Choice) (cluster : Cluster) (phases : ι → Phase)
    (proc : ι) (now : Consistent registered cluster phases)
    (allowed : NothingFails choice ∧ NoOverlap call phases)
    (asks : permitted registered call (phases proc)) :
    possible registered call (clusterSem call choice cluster).1 (phases proc) ∧
      Consistent registered (clusterSem call choice cluster).2
      (Function.update phases proc (notePhase call (clusterSem call choice cluster).1 (phases proc))) := by
  obtain ⟨works, apart⟩ := allowed
  cases call with
  | spanner call => exact rows_step now call choice.db works.db apart asks
  | workerFile address call => exact file_step now address call choice.file works.file asks
  | frontendFile call => exact ⟨trivial, consistent_quiet now rfl rfl (fun _ => Iff.rfl) rfl⟩
  | rpc => exact ⟨works.delivered, consistent_quiet now rfl rfl (fun _ => Iff.rfl) rfl⟩
  | streamOpen => exact ⟨trivial, consistent_quiet now rfl rfl (fun _ => Iff.rfl) rfl⟩
  | rand => exact ⟨trivial, consistent_quiet now rfl rfl (fun _ => Iff.rfl) rfl⟩

-- Any number of uploads and deletions, through any frontends and masters. One turn is
-- one step of a file, one of the database, or one delivery.
def operationPool (X : Xxh64) (ops : ι → FrontendOp) (cluster : Cluster) :
    Pool ι ClusterCall ClusterReply ClientResponse Cluster :=
  Pool.start (fun proc => (ops proc).program X) cluster

def phasesOf (pool : Pool ι ClusterCall ClusterReply ClientResponse Cluster) : ι → Phase :=
  pool.ghosts notePhase (.holding [])

def NothingOverlaps (pool : Pool ι ClusterCall ClusterReply ClientResponse Cluster)
    (turn : ι × Choice) : Prop :=
  match pool.procs turn.1 with
  | .pure _ => True
  | .call call _ => NoOverlap call (phasesOf pool)

instance [Fintype ι] (pool : Pool ι ClusterCall ClusterReply ClientResponse Cluster) (turn : ι × Choice) :
    Decidable (NothingOverlaps pool turn) :=
  match shape : pool.procs turn.1 with
  | .pure _ => isTrue (by rw [NothingOverlaps, shape]; trivial)
  | .call call _ => decidable_of_iff (NoOverlap call (phasesOf pool)) (by rw [NothingOverlaps, shape])

def NoneInFlight (pool : Pool ι ClusterCall ClusterReply ClientResponse Cluster) : Prop :=
  ∀ proc, (∃ response, pool.procs proc = .pure response) ∨ ∀ step ∈ pool.history, step.proc ≠ proc

theorem consistent_run (X : Xxh64) (ops : ι → FrontendOp) (cluster : Cluster)
    (unused : cluster.tables.blobCopy = Table.empty)
    (workers : ∀ worker, Registered cluster.tables worker → EmptyBlobs (cluster.workers worker))
    (schedule : List (ι × Choice)) (works : ∀ turn ∈ schedule, NothingFails turn.2)
    (apart : Pool.Along clusterSem NothingOverlaps (operationPool X ops cluster) schedule) :
    Consistent (Registered cluster.tables) ((operationPool X ops cluster).run clusterSem schedule).state
      (phasesOf ((operationPool X ops cluster).run clusterSem schedule)) := by
  refine Pool.shared_holds clusterSem (Phase.holding []) Phase.Ended (Consistent (Registered cluster.tables))
    (fun call choice phases => NothingFails choice ∧ NoOverlap call phases) cluster_step
      (fun _ _ _ now ended => consistent_rest now ended)
    (fun proc => (ops proc).program X) cluster schedule
      (fun proc => operation_meets (Registered cluster.tables) X (ops proc))
    (consistent_start cluster unused workers) ?_
  refine Pool.along_mono clusterSem
    (fun pool turn => NothingFails turn.2 ∧ NothingOverlaps pool turn) _ ?_ _ schedule ?_
  · intro pool turn both call next shape
    have apart := both.2
    rw [NothingOverlaps, shape] at apart
    exact ⟨both.1, apart⟩
  · exact Pool.along_and clusterSem _ _ _ schedule
      (Pool.along_of_forall clusterSem (fun turn => NothingFails turn.2) _ schedule works) apart

theorem phases_in_flight {pool : Pool ι ClusterCall ClusterReply ClientResponse Cluster}
    (done : NoneInFlight pool) (proc : ι) :
    phasesOf pool proc = .holding [] := by
  rw [phasesOf, Pool.ghosts]
  rcases done proc with ⟨response, finished⟩ | unbegun
  · rw [finished]
    rfl
  · have none : pool.history.filter (fun step => step.proc = proc) = [] := by
      rw [List.filter_eq_nil_iff]
      exact fun step member => by simpa using unbegun step member
    rw [noted, none]
    cases pool.procs proc <;> rfl

end Pool

def uploadAndDelete (blobHash : String) : Bool → FrontendOp
  | false => .uploadBlob oneMaster [.info 1, .chunkData [97]]
  | true => .deleteBlob oneMaster blobHash

-- The upload has reserved its three copies when the deletion runs, and then goes on.
def deletedMeanwhile : List (Bool × Choice) :=
  (List.replicate 12 false ++ List.replicate 3 true ++ List.replicate 37 false).map (fun proc => (proc, {}))

theorem deleted_healthy : ∀ turn ∈ deletedMeanwhile, NothingFails turn.2 := by
  intro turn member
  obtain ⟨proc, -, rfl⟩ := List.mem_map.mp member
  exact ⟨rfl, rfl, rfl⟩

def hasAnswered (pool : Pool Bool ClusterCall ClusterReply ClientResponse Cluster) (proc : Bool) : Bool :=
  match pool.procs proc with
  | .pure _ => true
  | .call _ _ => false

theorem answered_all {pool : Pool Bool ClusterCall ClusterReply ClientResponse Cluster}
    (answered : ∀ proc, hasAnswered pool proc = true) :
    NoneInFlight pool := by
  intro proc
  have done := answered proc
  rw [hasAnswered] at done
  cases shape : pool.procs proc with
  | pure response => exact .inl ⟨response, rfl⟩
  | call call next =>
      rw [shape] at done
      cases done

end BlobStore
