import BlobStore.DutyLedger
import BlobStore.DutyRequests
import BlobStore.Isolation
import Mathlib.Data.Fintype.Basic

set_option autoImplicit false

namespace BlobStore

open Effects FileSystem

-- A saved copy whose file is there has bytes of the right hash in it.
def Intact (X : Xxh64) (cluster : Cluster) : Prop :=
  ∀ row ∈ cluster.tables.blobCopy.rows, row.state = .saved → ∀ bytes,
    (cluster.workers row.workerAddress).content ("blobs/" ++ row.hash) = some bytes →
      X.blobHash bytes = row.hash

-- Its workers can be worked with, and its rows name blobs and workers.
structure Orderly (cluster : Cluster) : Prop where
  usable : ∀ worker, Registered cluster.tables worker → Usable (cluster.workers worker)
  rows : ∀ row ∈ cluster.tables.blobCopy.rows, OrdinaryName row.hash ∧
    Registered cluster.tables row.workerAddress

def blobNode (cluster : Cluster) (copy : String × String) : Option Node :=
  (cluster.workers copy.2).node (blobLocation (cluster.workers copy.2) copy.1)

variable {ι : Type}

structure Upright (X : Xxh64) (registered : String → Prop) (cluster : Cluster)
    (duties : ι → Duty) : Prop where
  workers : ∀ worker, Registered cluster.tables worker ↔ registered worker
  usable : ∀ worker, registered worker → Usable (cluster.workers worker)
  rows : ∀ row ∈ cluster.tables.blobCopy.rows, OrdinaryName row.hash ∧ registered row.workerAddress
  ledger : DutyLedger X (blobNode cluster) (rowStates cluster.tables) duties

section Invariant

variable {X : Xxh64} {registered : String → Prop} {cluster : Cluster} {duties : ι → Duty} {proc : ι}

theorem row_state {tables : Tables} {copy : String × String} {state : BlobState}
    (is : rowStates tables copy = some state) :
    ∃ row ∈ tables.blobCopy.rows, row.key = copy ∧ row.state = state := by
  obtain ⟨row, found, stands⟩ := Option.map_eq_some_iff.mp is
  obtain ⟨stored, keyed⟩ := (tables.blobCopy.find_some_iff _ _).mp found
  exact ⟨row, stored, keyed, stands⟩

theorem state_of_row {tables : Tables} {row : BlobCopyDTO} (stored : row ∈ tables.blobCopy.rows) :
    rowStates tables row.key = some row.state := by
  rw [rowStates, tables.blobCopy.find_self row stored]
  rfl

theorem node_of_content {cluster : Cluster} {blobHash worker : String}
    (usable : Usable (cluster.workers worker)) (ordinary : OrdinaryName blobHash) (bytes : Bytes) :
    (cluster.workers worker).content ("blobs/" ++ blobHash) = some bytes ↔
      blobNode cluster (blobHash, worker) = some (.file bytes) := by
  rw [content_of_resolve _ _ _ (resolve_blob _ usable.blobs blobHash ordinary), blobNode]
  cases (cluster.workers worker).node (blobLocation (cluster.workers worker) blobHash) with
  | none => simp
  | some node => cases node <;> simp

theorem upright_start (orderly : Orderly cluster) (intact : Intact X cluster) :
    Upright X (Registered cluster.tables) cluster (fun _ : ι => {}) where
  workers := fun _ => Iff.rfl
  usable := orderly.usable
  rows := orderly.rows
  ledger := by
    refine ⟨fun _ => kept_idle, (fun _ _ _ member => by cases member), ?_⟩
    rintro ⟨hash, worker⟩ bytes saved there
    obtain ⟨row, stored, keyed, is⟩ := row_state saved
    obtain ⟨rfl, rfl⟩ := Prod.mk.inj keyed
    obtain ⟨ordinary, known⟩ := orderly.rows row stored
    exact intact row stored is bytes ((node_of_content (orderly.usable _ known) ordinary bytes).mpr there)

theorem upright_orderly (now : Upright X registered cluster duties) : Orderly cluster where
  usable := fun worker known => now.usable worker ((now.workers worker).mp known)
  rows := fun row stored => ⟨(now.rows row stored).1, (now.workers _).mpr (now.rows row stored).2⟩

theorem upright_intact (now : Upright X registered cluster duties) : Intact X cluster := by
  intro row stored saved bytes there
  obtain ⟨ordinary, known⟩ := now.rows row stored
  refine now.ledger.intact row.key bytes ?_ ((node_of_content (now.usable _ known) ordinary bytes).mp there)
  rw [state_of_row stored, saved]

theorem held_known (now : Upright X registered cluster duties) {copy : String × String}
    (held : copy ∈ (duties proc).copies) :
    OrdinaryName copy.1 ∧ registered copy.2 := by
  obtain ⟨row, stored, rfl, -⟩ := row_state ((now.ledger.kept proc).held copy held)
  exact now.rows row stored

theorem listed_known (now : Upright X registered cluster duties) {reading : Reading}
    (reads : (duties proc).reading = some reading) {worker : String}
    (listed : worker ∈ reading.workers) : OrdinaryName reading.blobHash ∧ registered worker := by
  obtain ⟨row, stored, keyed, -⟩ := row_state ((now.ledger.kept proc).listed reading reads worker listed)
  have known := now.rows row stored
  obtain ⟨hash, address⟩ := Prod.mk.inj keyed
  rw [hash, address] at known
  exact known

variable [DecidableEq ι]

theorem upright_noted {duty : Duty} (now : Upright X registered cluster duties)
    (ledger : DutyLedger X (blobNode cluster) (rowStates cluster.tables) (Function.update duties proc duty)) :
    Upright X registered cluster (Function.update duties proc duty) :=
  ⟨now.workers, now.usable, now.rows, ledger⟩

theorem upright_same (now : Upright X registered cluster duties) :
    Upright X registered cluster (Function.update duties proc (duties proc)) := by
  rw [Function.update_eq_self]
  exact now

end Invariant

section Rows

variable {X : Xxh64} {registered : String → Prop} {cluster : Cluster}
  {duties : ι → Duty} {proc : ι} [DecidableEq ι]

-- A commit is refused, or it is applied, whether it says so or not.
theorem commit_cases (mutation : Mutation) (choice : DbChoice) (tables : Tables) :
    (∃ message, commitSem mutation choice tables = (.error message, tables)) ∨
      ∃ after, mutation.apply tables = some after ∧
        (commitSem mutation choice tables = (.ok (), after) ∨
          ∃ message, commitSem mutation choice tables = (.error message, after)) := by
  rw [commitSem]
  cases applied : mutation.apply tables with
  | none => cases choice.fault <;> exact .inl ⟨_, rfl⟩
  | some after =>
      cases choice.fault with
      | none => exact .inr ⟨after, rfl, .inl rfl⟩
      | lost => exact .inl ⟨_, rfl⟩
      | applied => exact .inr ⟨after, rfl, .inr ⟨_, rfl⟩⟩

theorem upright_rows {rows : BlobTable} {duty : Duty} (now : Upright X registered cluster duties)
    (known : ∀ row ∈ rows.rows, OrdinaryName row.hash ∧ registered row.workerAddress)
    (ledger : DutyLedger X (blobNode cluster) (rowStates { cluster.tables with blobCopy := rows })
      (Function.update duties proc duty)) :
    Upright X registered (withTables cluster { cluster.tables with blobCopy := rows })
      (Function.update duties proc duty) :=
  ⟨now.workers, now.usable, known, ledger⟩

theorem upright_insert (now : Upright X registered cluster duties) (entry : BlobCopyDTO)
    (choice : DbChoice) (ordinary : OrdinaryName entry.hash)
    (there : registered entry.workerAddress) (during : entry.state = .duringCreation) :
    let outcome := spannerSem (.commit (.insertBlob entry)) choice cluster.tables
    dutyRowReplies registered (.commit (.insertBlob entry)) outcome.1 (duties proc) ∧
      Upright X registered (withTables cluster outcome.2)
        (Function.update duties proc
          (noteDutyRows (.commit (.insertBlob entry)) outcome.1 (duties proc))) := by
  dsimp only
  rw [spannerSem]
  rcases commit_cases (.insertBlob entry) choice cluster.tables with
    ⟨message, refused⟩ | ⟨after, applied, result⟩
  · rw [refused]
    exact ⟨trivial, upright_same now⟩
  · obtain ⟨rows, inserted, rfl⟩ := insert_blob_apply applied
    have absent := ((cluster.tables.blobCopy.insert_some_iff _ _).mp inserted).1
    have fresh : rowStates cluster.tables entry.key = none := by rw [rowStates, absent]; rfl
    have states : rowStates { cluster.tables with blobCopy := rows } =
        Function.update (rowStates cluster.tables) entry.key (some .duringCreation) := by
      rw [states_set (Table.find_insert inserted), during]
    have known : ∀ row ∈ rows.rows, OrdinaryName row.hash ∧ registered row.workerAddress := by
      intro row member
      rw [((cluster.tables.blobCopy.insert_some_iff _ _).mp inserted).2] at member
      cases List.mem_cons.mp member with
      | inl here => exact here ▸ ⟨ordinary, there⟩
      | inr stored => exact now.rows row stored
    rcases result with accepted | ⟨message, unheard⟩
    · rw [accepted]
      exact ⟨fresh_unheld now.ledger fresh proc,
        upright_rows now known (states ▸ ledger_reserves now.ledger fresh)⟩
    · rw [unheard]
      exact ⟨trivial, upright_rows now known (states ▸ ledger_reserves_unheard now.ledger fresh)⟩

theorem upright_update (now : Upright X registered cluster duties) (entry : BlobCopyDTO)
    (choice : DbChoice) (held : entry.key ∈ (duties proc).copies) (saved : entry.state = .saved)
    {bytes : Bytes} (writing : (duties proc).writing = some (entry.key, bytes))
    (hashed : X.blobHash bytes = entry.hash) :
    let outcome := spannerSem (.commit (.updateBlob entry)) choice cluster.tables
    Upright X registered (withTables cluster outcome.2)
      (Function.update duties proc (noteDutyRows (.commit (.updateBlob entry)) outcome.1 (duties proc))) := by
  dsimp only
  rw [spannerSem]
  rcases commit_cases (.updateBlob entry) choice cluster.tables with
    ⟨message, refused⟩ | ⟨after, applied, result⟩
  · rw [refused]
    exact upright_noted now (ledger_gives_up now.ledger)
  · obtain ⟨rows, updated, rfl⟩ := update_blob_apply applied
    have states : rowStates { cluster.tables with blobCopy := rows } =
        Function.update (rowStates cluster.tables) entry.key (some .saved) := by
      rw [states_set (Table.find_update updated), saved]
    have known : ∀ row ∈ rows.rows, OrdinaryName row.hash ∧ registered row.workerAddress := by
      intro row member
      rw [Table.rows_of_update updated] at member
      obtain ⟨old, stored, rfl⟩ := List.mem_map.mp member
      split
      · exact held_known now held
      · exact now.rows old stored
    have ledger := ledger_confirms now.ledger held writing hashed
    rcases result with accepted | ⟨message, unheard⟩
    · rw [accepted]
      exact upright_rows now known (states ▸ ledger)
    · rw [unheard]
      exact upright_rows now known (states ▸ ledger)

theorem states_forgotten (tables : Tables) (blobHash : String) :
    rowStates { tables with blobCopy := tables.blobCopy.delete (fun entry => entry.hash = blobHash) } =
      fun copy => if copy.1 = blobHash then none else rowStates tables copy := by
  funext copy
  rw [rowStates, Table.find_delete, rowStates]
  cases found : tables.blobCopy.find? copy with
  | none => simp
  | some row =>
      have keyed : row.hash = copy.1 := congrArg Prod.fst ((tables.blobCopy.find_some_iff _ _).mp found).2
      by_cases same : copy.1 = blobHash <;> simp [keyed, same]

theorem upright_forget (now : Upright X registered cluster duties) (blobHash : String) (choice : DbChoice)
    (alone : ∀ other, other ≠ proc → ¬ (duties other).Busy blobHash) (copies : (duties proc).copies = []) :
    let outcome := spannerSem (.commit (.deleteBlobsByHash blobHash)) choice cluster.tables
    Upright X registered (withTables cluster outcome.2)
      (Function.update duties proc
        (noteDutyRows (.commit (.deleteBlobsByHash blobHash)) outcome.1 (duties proc))) := by
  dsimp only
  rw [spannerSem]
  rcases commit_cases (.deleteBlobsByHash blobHash) choice cluster.tables with
    ⟨message, refused⟩ | ⟨after, applied, result⟩
  · rw [refused]
    exact upright_noted now (ledger_drops now.ledger)
  · obtain rfl := Option.some.inj applied
    have known : ∀ row ∈ (cluster.tables.blobCopy.delete (fun entry => entry.hash = blobHash)).rows,
        OrdinaryName row.hash ∧ registered row.workerAddress :=
      fun row member => now.rows row ((Table.mem_delete _ _ row).mp member).1
    have ledger := ledger_forgets now.ledger blobHash alone copies
    rcases result with accepted | ⟨message, unheard⟩
    · rw [accepted]
      exact upright_rows now known (states_forgotten cluster.tables blobHash ▸ ledger)
    · rw [unheard]
      exact upright_rows now known (states_forgotten cluster.tables blobHash ▸ ledger)

theorem upright_lists (now : Upright X registered cluster duties) (blobHash : String) (choice : DbChoice) :
    let outcome := spannerSem (.selectBlobs (.savedByHash blobHash)) choice cluster.tables
    dutyRowReplies registered (.selectBlobs (.savedByHash blobHash)) outcome.1 (duties proc) ∧
      Upright X registered (withTables cluster outcome.2)
        (Function.update duties proc
          (noteDutyRows (.selectBlobs (.savedByHash blobHash)) outcome.1 (duties proc))) := by
  dsimp only
  rw [spannerSem]
  by_cases healthy : choice.fault = .none
  · rw [if_pos healthy]
    have members : ∀ row ∈ (choice.blobOrder.order
        cluster.tables.blobCopy.rows).filter (BlobQuery.savedByHash blobHash).selects,
        row ∈ cluster.tables.blobCopy.rows ∧ row.hash = blobHash ∧ row.state = .saved := by
      intro row member
      obtain ⟨ordered, selected⟩ := List.mem_filter.mp member
      exact ⟨(choice.blobOrder.perm _).mem_iff.mp ordered, by simpa [BlobQuery.selects] using selected⟩
    refine ⟨?_, upright_noted now (ledger_lists now.ledger blobHash _ ?_)⟩
    · intro row member
      obtain ⟨stored, rfl, -⟩ := members row member
      obtain ⟨ordinary, known⟩ := now.rows row stored
      exact ⟨rfl, ordinary, known⟩
    · intro worker member
      obtain ⟨row, listed, rfl⟩ := List.mem_map.mp member
      obtain ⟨stored, rfl, saved⟩ := members row listed
      rw [← saved]
      exact state_of_row stored
  · rw [if_neg healthy]
    exact ⟨trivial, upright_same now⟩

-- A deletion takes the rows of its blob away while no other request is busy with it.
def ClusterCall.forgets : ClusterCall → Option String
  | .spanner (.commit (.deleteBlobsByHash blobHash)) => some blobHash
  | _ => none

def DeletesAlone (call : ClusterCall) (duties : ι → Duty) : Prop :=
  ∀ blobHash ∈ call.forgets, ∀ one other, (duties one).Busy blobHash →
    (duties other).Busy blobHash → one = other

instance [Fintype ι] (call : ClusterCall) (duties : ι → Duty) : Decidable (DeletesAlone call duties) :=
  inferInstanceAs (Decidable (∀ blobHash ∈ call.forgets, _))

theorem workers_answered {tables : Tables}
    (workers : ∀ worker, Registered tables worker ↔ registered worker) (query : WorkerQuery)
    (choice : DbChoice) (duty : Duty) : dutyRowReplies registered (.selectWorkers query)
    (spannerSem (.selectWorkers query) choice tables).1 duty := by
  rw [spannerSem]
  by_cases healthy : choice.fault = .none
  · rw [if_pos healthy]
    intro row member
    have selected : row ∈ (choice.workerOrder.order tables.workerState.rows).filter query.selects := by
      cases query with
      | byAddress address => exact member
      | withFreeSpace space limit => exact List.mem_of_mem_take member
    obtain ⟨ordered, matching⟩ := List.mem_filter.mp selected
    refine ⟨(workers _).mp (registered_rows tables row ((choice.workerOrder.perm _).mem_iff.mp ordered)), ?_⟩
    rintro address rfl
    simpa [WorkerQuery.selects] using matching
  · rw [if_neg healthy]
    trivial

theorem copies_answered (hash worker : String) (choice : DbChoice) (tables : Tables) (duty : Duty) :
    dutyRowReplies registered (.selectBlobs (.byHashAndWorker hash worker))
      (spannerSem (.selectBlobs (.byHashAndWorker hash worker)) choice tables).1
      duty := by
  rw [spannerSem]
  by_cases healthy : choice.fault = .none
  · rw [if_pos healthy]
    intro row member
    have selected : row.hash = hash ∧ row.workerAddress = worker := by
      simpa [BlobQuery.selects] using (List.mem_filter.mp member).2
    exact Prod.ext selected.1 selected.2
  · rw [if_neg healthy]
    trivial

theorem upright_row_step (now : Upright X registered cluster duties) (call : SpannerCall) (choice : DbChoice)
    (alone : DeletesAlone (.spanner call) duties) (asks : dutyRows X registered call (duties proc)) :
    let outcome := spannerSem call choice cluster.tables
    dutyRowReplies registered call outcome.1 (duties proc) ∧
      Upright X registered (withTables cluster outcome.2)
        (Function.update duties proc (noteDutyRows call outcome.1 (duties proc))) := by
  cases call with
  | selectWorkers query =>
      refine ⟨workers_answered now.workers query choice _, ?_⟩
      rw [(select_tables choice cluster.tables).2]
      exact upright_same now
  | selectBlobs query =>
      cases query with
      | savedByHash hash => exact upright_lists now hash choice
      | byHashAndWorker hash worker =>
          refine ⟨copies_answered hash worker choice cluster.tables _, ?_⟩
          rw [(select_tables choice cluster.tables).1]
          exact upright_same now
  | commit mutation =>
      cases mutation with
      | insertBlob entry => exact upright_insert now entry choice asks.1 asks.2.1 asks.2.2
      | updateBlob entry =>
          obtain ⟨held, saved, bytes, writing, hashed⟩ := asks
          exact ⟨trivial, upright_update now entry choice held saved writing hashed⟩
      | deleteBlobsByHash hash =>
          obtain ⟨copies, reading, reads, same⟩ := asks
          refine ⟨trivial, upright_forget now hash choice ?_ copies⟩
          exact fun other different busy =>
            different (alone hash rfl other proc busy (.inr ⟨reading, reads, same⟩))
      | updateWorker row =>
          refine ⟨trivial, ?_⟩
          rw [spannerSem]
          rcases commit_cases (.updateWorker row) choice cluster.tables with
            ⟨message, refused⟩ | ⟨after, applied, result⟩
          · rw [refused]
            exact upright_same now
          · obtain ⟨rows, updated, rfl⟩ := update_worker_apply applied
            have kept : Upright X registered
                (withTables cluster { cluster.tables with workerState := rows }) duties :=
              ⟨fun worker => (registered_update updated worker).trans (now.workers worker),
                now.usable, now.rows, now.ledger⟩
            rcases result with accepted | ⟨message, unheard⟩
            · rw [accepted]
              exact upright_same kept
            · rw [unheard]
              exact upright_same kept
      | deleteBlobsByWorker address => exact asks.elim
      | insertWorker row => exact asks.elim
      | deleteWorker address => exact asks.elim

end Rows

section Files

variable {X : Xxh64} {registered : String → Prop} {cluster : Cluster} {duties : ι → Duty} {proc : ι}
  {name worker : String} {fs : FileSystem}

theorem blob_node_changed (changes : ChangesOnly name (cluster.workers worker) fs) :
    blobNode (withWorker cluster worker fs) =
      Function.update (blobNode cluster) (name, worker)
        (fs.node (blobLocation (cluster.workers worker) name)) := by
  funext copy
  obtain ⟨hash, address⟩ := copy
  rw [Function.update_apply, blobNode]
  by_cases same : address = worker
  · subst same
    dsimp only
    rw [with_worker_at]
    by_cases named : hash = name
    · rw [if_pos (by rw [named]), location_kept changes, named]
    · rw [if_neg (fun both => named (congrArg Prod.fst both)), entry_kept changes hash named, blobNode]
  · dsimp only
    rw [with_worker_elsewhere cluster worker address fs same,
      if_neg (fun both => same (congrArg Prod.snd both)), blobNode]

variable [DecidableEq ι]

theorem upright_file {duty : Duty} {node : Option Node} (now : Upright X registered cluster duties)
    (changes : ChangesOnly name (cluster.workers worker) fs)
    (free : fs.node (blobLocation (cluster.workers worker) name) ≠ some .directory)
    (there : fs.node (blobLocation (cluster.workers worker) name) = node)
    (ledger : DutyLedger X (Function.update (blobNode cluster) (name, worker) node)
      (rowStates cluster.tables) (Function.update duties proc duty)) :
    Upright X registered (withWorker cluster worker fs) (Function.update duties proc duty) := by
  refine ⟨now.workers, ?_, now.rows, ?_⟩
  · intro other known
    by_cases same : other = worker
    · subst same
      rw [with_worker_at]
      exact usable_changed (now.usable other known) name changes free
    · rw [with_worker_elsewhere cluster worker other fs same]
      exact now.usable other known
  · rw [blob_node_changed changes, there]
    exact ledger

-- The file stays what it was.
theorem upright_untouched {duty : Duty} (now : Upright X registered cluster duties)
    (changes : ChangesOnly name (cluster.workers worker) fs)
    (free : fs.node (blobLocation (cluster.workers worker) name) ≠ some .directory)
    (there : fs.node (blobLocation (cluster.workers worker) name) = blobNode cluster (name, worker))
    (ledger : DutyLedger X (blobNode cluster) (rowStates cluster.tables)
      (Function.update duties proc duty)) :
    Upright X registered (withWorker cluster worker fs) (Function.update duties proc duty) := by
  refine upright_file now changes free there ?_
  rw [Function.update_eq_self]
  exact ledger

theorem upright_still {duty : Duty} (now : Upright X registered cluster duties)
    (ledger : DutyLedger X (blobNode cluster) (rowStates cluster.tables) (Function.update duties proc duty)) :
    Upright X registered (withWorker cluster worker (cluster.workers worker))
      (Function.update duties proc duty) := by
  rw [with_worker_same]
  exact upright_noted now ledger

theorem upright_open (now : Upright X registered cluster duties) (choice : FileChoice)
    (held : (name, worker) ∈ (duties proc).copies) :
    let outcome := fileSem (.openTrunc (WorkerService.BLOBS_PATH ++ name)) choice (cluster.workers worker)
    Upright X registered (withWorker cluster worker outcome.2)
      (Function.update duties proc
        (noteDutyFile worker (.openTrunc (WorkerService.BLOBS_PATH ++ name)) outcome.1
          (duties proc))) := by
  obtain ⟨ordinary, known⟩ := held_known now held
  obtain ⟨same, changes, free⟩ := one_file (now.usable worker known) ordinary
    (.openTrunc (WorkerService.BLOBS_PATH ++ name)) (.inr rfl) choice
  dsimp only
  rw [oneFile] at same
  cases works : choice.failure with
  | some reason =>
      rw [works] at same
      obtain ⟨reply, node⟩ := Prod.mk.inj same
      rw [reply]
      exact upright_untouched now changes free node (upright_same now).ledger
  | none =>
      rw [works] at same
      obtain ⟨reply, node⟩ := Prod.mk.inj same
      rw [reply, duty_noted_open held]
      exact upright_file now changes free node (ledger_writes now.ledger held [])

theorem upright_append (now : Upright X registered cluster duties) (chunk : Bytes)
    (choice : FileChoice) (whole : WholeWrites choice) {bytes : Bytes}
    (held : (name, worker) ∈ (duties proc).copies)
    (writing : (duties proc).writing = some ((name, worker), bytes)) :
    let outcome := fileSem (.append (WorkerService.BLOBS_PATH ++ name) chunk) choice (cluster.workers worker)
    Upright X registered (withWorker cluster worker outcome.2)
      (Function.update duties proc
        (noteDutyFile worker (.append (WorkerService.BLOBS_PATH ++ name) chunk) outcome.1
          (duties proc))) := by
  obtain ⟨ordinary, known⟩ := held_known now held
  obtain ⟨same, changes, free⟩ := one_file (now.usable worker known) ordinary
    (.append (WorkerService.BLOBS_PATH ++ name) chunk) (.inr rfl) choice
  have there : (cluster.workers worker).node (blobLocation (cluster.workers worker) name) =
      some (.file bytes) :=
    (now.ledger.kept proc).written _ bytes writing held
  dsimp only
  cases works : choice.failure with
  | some reason =>
      simp only [oneFile, works] at same
      obtain ⟨reply, node⟩ := Prod.mk.inj same
      rw [reply]
      exact upright_untouched now changes free node (upright_same now).ledger
  | none =>
      simp only [oneFile, works, there, written_whole whole] at same
      obtain ⟨reply, node⟩ := Prod.mk.inj same
      have noted : noteDutyFile worker (.append (WorkerService.BLOBS_PATH ++ name) chunk) true (duties proc) =
          { duties proc with writing := some ((name, worker), bytes ++ chunk) } := by
        rw [noteDutyFile, writing]
        rfl
      rw [reply, noted]
      exact upright_file now changes free node (ledger_writes now.ledger held (bytes ++ chunk))

theorem upright_remove (now : Upright X registered cluster duties) (choice : FileChoice)
    (ordinary : OrdinaryName name) (known : registered worker)
    (mine : (name, worker) ∈ (duties proc).copies ∨
      rowStates cluster.tables (name, worker) = some .saved) :
    let outcome := fileSem (.remove (WorkerService.BLOBS_PATH ++ name)) choice (cluster.workers worker)
    Upright X registered (withWorker cluster worker outcome.2)
      (Function.update duties proc { duties proc with writing := none }) := by
  obtain ⟨same, changes, free⟩ := one_file (now.usable worker known) ordinary
    (.remove (WorkerService.BLOBS_PATH ++ name)) (.inr rfl) choice
  dsimp only
  rw [oneFile] at same
  cases works : choice.failure with
  | some reason =>
      rw [works] at same
      obtain ⟨-, node⟩ := Prod.mk.inj same
      have kept := now.ledger.kept proc
      refine upright_untouched now changes free node ?_
      exact ledger_noted now.ledger ⟨kept.held, (fun _ _ writing => by cases writing), kept.listed,
        kept.served, kept.ahead⟩ (fun _ member => member)
  | none =>
      rw [works] at same
      obtain ⟨-, node⟩ := Prod.mk.inj same
      exact upright_file now changes free node (ledger_removes now.ledger mine)

theorem upright_read (now : Upright X registered cluster duties) (count : Nat) (choice : FileChoice)
    {reading : Reading} (reads : (duties proc).reading = some reading)
    (first : reading.workers.head? = some worker) :
    let call := FileCall.read (WorkerService.BLOBS_PATH ++ reading.blobHash) reading.got.length count
    let outcome := fileSem call choice (cluster.workers worker)
    dutyFileReplies X call outcome.1 (duties proc) ∧
      Upright X registered (withWorker cluster worker outcome.2)
        (Function.update duties proc (noteDutyFile worker call outcome.1 (duties proc))) := by
  obtain ⟨ordinary, known⟩ := listed_known now reads (List.mem_of_head? first)
  have resolved : (cluster.workers worker).resolve ("blobs/" ++ reading.blobHash) = _ :=
    resolve_blob _ (now.usable worker known).blobs _ ordinary
  have received : ∀ bytes : Bytes, choice.received bytes <+: bytes := by
    intro bytes
    rw [FileChoice.received]
    split
    · exact List.nil_prefix
    · exact List.take_prefix _ _
    · exact List.prefix_rfl
  have present : choice.received (((((cluster.workers worker).content
        (WorkerService.BLOBS_PATH ++ reading.blobHash)).getD []).drop reading.got.length).take count) = [] ∨
      ∃ bytes, blobNode cluster (reading.blobHash, worker) = some (.file bytes) ∧
        choice.received (((((cluster.workers worker).content
          (WorkerService.BLOBS_PATH ++ reading.blobHash)).getD []).drop reading.got.length).take count) <+:
            bytes.drop reading.got.length := by
    cases there : (cluster.workers worker).content (WorkerService.BLOBS_PATH ++ reading.blobHash) with
    | none => exact .inl (List.prefix_nil.mp (by simpa using received []))
    | some bytes =>
        refine .inr ⟨bytes, (node_of_content (now.usable worker known) ordinary bytes).mp there, ?_⟩
        exact (received _).trans (List.take_prefix _ _)
  obtain ⟨served, ledger⟩ := ledger_reads now.ledger reads first present
  dsimp only
  rw [fileSem]
  refine ⟨?_, ?_⟩
  · intro other same
    obtain rfl := Option.some.inj (reads.symm.trans same)
    exact served
  · rw [noteDutyFile, reads, Option.map_some]
    exact upright_still now ledger

theorem quiet_files (call : FileCall) (choice : FileChoice) (fs : FileSystem)
    (quiet : ∀ path, call ≠ .createDirectories path ∧ call ≠ .openTrunc path ∧
      (∀ chunk, call ≠ .append path chunk) ∧ call ≠ .remove path) :
    (fileSem call choice fs).2 = fs := by
  cases call with
  | createDirectories path => exact absurd rfl (quiet path).1
  | openTrunc path => exact absurd rfl (quiet path).2.1
  | append path chunk => exact absurd rfl ((quiet path).2.2.1 chunk)
  | remove path => exact absurd rfl (quiet path).2.2.2
  | fileExists path => rw [fileSem]; split <;> rfl
  | fileSize path => rw [fileSem]; split <;> rfl
  | openRead path => rfl
  | read path offset count => rfl
  | space path => rw [fileSem]; split <;> [rfl; (split <;> rfl)]

theorem upright_file_step (now : Upright X registered cluster duties) (worker : String)
    (call : FileCall) (choice : FileChoice) (whole : WholeWrites choice)
    (asks : dutyFile registered worker call (duties proc)) :
    let outcome := fileSem call choice (cluster.workers worker)
    dutyFileReplies X call outcome.1 (duties proc) ∧
      Upright X registered (withWorker cluster worker outcome.2)
        (Function.update duties proc (noteDutyFile worker call outcome.1 (duties proc))) := by
  have still : Upright X registered (withWorker cluster worker (cluster.workers worker))
      (Function.update duties proc (duties proc)) :=
    upright_still now (upright_same now).ledger
  cases call with
  | createDirectories path =>
      obtain ⟨rfl, known⟩ := asks
      refine ⟨trivial, ?_⟩
      cases works : choice.failure with
      | none =>
          rw [blobs_stay works (now.usable worker known).blobs]
          exact still
      | some reason =>
          rw [fileSem, works]
          exact still
  | openTrunc path =>
      obtain ⟨⟨name, address⟩, held, rfl, rfl⟩ := asks
      exact ⟨trivial, upright_open now choice held⟩
  | append path chunk =>
      obtain ⟨⟨name, address⟩, bytes, writing, held, rfl, rfl⟩ := asks
      exact ⟨trivial, upright_append now chunk choice whole held writing⟩
  | remove path =>
      refine ⟨trivial, ?_⟩
      rcases asks with ⟨⟨name, address⟩, bytes, writing, held, rfl, rfl⟩ | ⟨reading, reads, listed, rfl⟩
      · obtain ⟨ordinary, known⟩ := held_known now held
        exact upright_remove now choice ordinary known (.inl held)
      · obtain ⟨ordinary, known⟩ := listed_known now reads listed
        exact upright_remove now choice ordinary known
          (.inr ((now.ledger.kept proc).listed reading reads worker listed))
  | read path offset count =>
      obtain ⟨reading, reads, first, rfl, rfl⟩ := asks
      exact upright_read now count choice reads first
  | fileExists path =>
      refine ⟨trivial, ?_⟩
      rw [quiet_files _ _ _ (fun _ => by simp)]
      exact still
  | fileSize path =>
      refine ⟨trivial, ?_⟩
      rw [quiet_files _ _ _ (fun _ => by simp)]
      exact still
  | openRead path =>
      refine ⟨trivial, ?_⟩
      rw [quiet_files _ _ _ (fun _ => by simp)]
      exact still
  | space path =>
      refine ⟨trivial, ?_⟩
      rw [quiet_files _ _ _ (fun _ => by simp)]
      exact still

end Files

section Pool

variable {X : Xxh64} {registered : String → Prop} [DecidableEq ι]

theorem upright_step (call : ClusterCall) (choice : Choice) (cluster : Cluster) (duties : ι → Duty) (proc : ι)
    (now : Upright X registered cluster duties) (allowed : WholeWrites choice.file ∧ DeletesAlone call duties)
    (asks : dutyPermits X registered call (duties proc)) :
    dutyReplies X registered call (clusterSem call choice cluster).1 (duties proc) ∧
      Upright X registered (clusterSem call choice cluster).2
      (Function.update duties proc (noteDuty call (clusterSem call choice cluster).1 (duties proc))) := by
  obtain ⟨whole, alone⟩ := allowed
  cases call with
  | spanner call => exact upright_row_step now call choice.db alone asks
  | workerFile worker call => exact upright_file_step now worker call choice.file whole asks
  | frontendFile call => exact ⟨trivial, upright_same ⟨now.workers, now.usable, now.rows, now.ledger⟩⟩
  | rpc => exact ⟨trivial, upright_same now⟩
  | streamOpen => exact ⟨trivial, upright_same now⟩
  | rand => exact ⟨trivial, upright_same now⟩

def dutiesOf (pool : Pool ι ClusterCall ClusterReply ClientResponse Cluster) : ι → Duty :=
  pool.ghosts noteDuty {}

def DeletionsAlone (pool : Pool ι ClusterCall ClusterReply ClientResponse Cluster)
    (turn : ι × Choice) : Prop :=
  match pool.procs turn.1 with
  | .pure _ => True
  | .call call _ => DeletesAlone call (dutiesOf pool)

instance [Fintype ι] (pool : Pool ι ClusterCall ClusterReply ClientResponse Cluster) (turn : ι × Choice) :
    Decidable (DeletionsAlone pool turn) :=
  match shape : pool.procs turn.1 with
  | .pure _ => isTrue (by rw [DeletionsAlone, shape]; trivial)
  | .call call _ => decidable_of_iff (DeletesAlone call (dutiesOf pool)) (by rw [DeletionsAlone, shape])

end Pool

def uploadGetAndDelete : Fin 3 → Request
  | 0 => .uploadBlob oneMaster [.info 1, .chunkData [97]]
  | 1 => .getBlob oneMaster "15154266338359012955"
  | 2 => .deleteBlob oneMaster "15154266338359012955"

-- The blob is read from the first worker while the upload goes on to the second, and
-- deleted when all three have it.
def readThenDeleted : List (Fin 3 × Choice) :=
  (List.replicate 24 (0 : Fin 3) ++ List.replicate 12 1 ++ List.replicate 26 0 ++
    List.replicate 12 2).map (fun proc => (proc, {}))

def receivedBy {ι : Type} (pool : Pool ι ClusterCall ClusterReply ClientResponse Cluster)
    (proc : ι) : List Bytes :=
  match pool.procs proc with
  | .pure (.got _ received) => received
  | _ => []

def isDeleted {ι : Type} (pool : Pool ι ClusterCall ClusterReply ClientResponse Cluster) (proc : ι) : Bool :=
  match pool.procs proc with
  | .pure (.deleted (.ok response)) => response.status = .ok ()
  | _ => false

theorem three_fresh_orderly : Orderly threeFreshWorkers :=
  ⟨fun _ _ => usable_empty fresh_worker_empty, fun _ member => by cases member⟩

end BlobStore
