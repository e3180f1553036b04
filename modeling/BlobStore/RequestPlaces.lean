import BlobStore.OrphanFiles
import BlobStore.RequestBounds

set_option autoImplicit false

namespace BlobStore

open Effects FileSystem

section Files

-- What a primitive does to the one file its path leads to.
def oneFile : (call : FileCall) → FileChoice → Option Node → FileReply call × Option Node
  | .createDirectories _, choice, node =>
      match choice.failure with
      | some reason => (.error reason, node)
      | none => (.ok (), node)
  | .openTrunc _, choice, node =>
      match choice.failure with
      | some _ => (false, node)
      | none => (true, some (.file []))
  | .append _ chunk, choice, node =>
      match choice.failure, node with
      | none, some (.file old) => (true, some (.file (old ++ choice.written chunk)))
      | none, none => (true, some (.file (choice.written chunk)))
      | _, _ => (false, node)
  | .fileExists _, choice, node =>
      match choice.failure with
      | some reason => (.error reason, node)
      | none => (.ok node.isSome, node)
  | .fileSize _, choice, node =>
      match choice.failure, node with
      | none, some (.file bytes) => (.ok bytes.length, node)
      | none, some .directory => (.error "cannot get file size: Is a directory", node)
      | none, none => (.error "cannot get file size: No such file or directory", node)
      | some reason, _ => (.error reason, node)
  | .remove _, choice, node =>
      match choice.failure with
      | some reason => (.error reason, node)
      | none => (.ok node.isSome, none)
  | .openRead _, choice, node => (choice.failure.isNone && node.isSome, node)
  | .read _ offset count, choice, node =>
      let bytes := match node with
        | some (.file bytes) => bytes
        | _ => []
      (choice.received ((bytes.drop offset).take count), node)
  | .space _, choice, node => (.error (choice.failure.getD ""), node)

def PathOf (name path : String) : Prop := path = joinPath "blobs" name ∨ path = "blobs/" ++ name

theorem path_of_eq {name path : String} (ordinary : OrdinaryName name) (leads : PathOf name path) :
    path = "blobs/" ++ name := by
  rcases leads with leads | leads
  · rw [leads, join_blob name ordinary]
  · exact leads

theorem one_file {fs : FileSystem} {name : String} (usable : Usable fs)
    (ordinary : OrdinaryName name) (call : FileCall) (within : FileWithin (PathOf name) call)
    (choice : FileChoice) :
    ((fileSem call choice fs).1, (fileSem call choice fs).2.node (blobLocation fs name)) =
        oneFile call choice (fs.node (blobLocation fs name)) ∧
      ChangesOnly name fs (fileSem call choice fs).2 ∧
        (fileSem call choice fs).2.node (blobLocation fs name) ≠ some .directory := by
  have resolved : fs.resolve ("blobs/" ++ name) = some (blobLocation fs name) :=
    resolve_blob fs usable.blobs name ordinary
  have free := usable.free name
  have same : ChangesOnly name fs fs := ⟨rfl, fun _ _ => rfl⟩
  cases call with
  | createDirectories path =>
      obtain rfl : path = "blobs" := within
      cases works : choice.failure with
      | none =>
          rw [blobs_stay works usable.blobs, oneFile, works]
          exact ⟨rfl, same, free⟩
      | some reason =>
          simp only [fileSem, oneFile, works]
          exact ⟨trivial, same, free⟩
  | openTrunc path =>
      obtain rfl := path_of_eq ordinary within
      cases works : choice.failure with
      | none =>
          simp only [fileSem, oneFile, works, resolved, if_neg free, node_put, if_true]
          exact ⟨trivial, changes_put fs name _, by simp⟩
      | some reason =>
          simp only [fileSem, oneFile, works]
          exact ⟨trivial, same, free⟩
  | append path chunk =>
      obtain rfl := path_of_eq ordinary within
      cases works : choice.failure with
      | none =>
          cases there : fs.node (blobLocation fs name) with
          | none =>
              simp only [fileSem, oneFile, works, resolved, there, node_put, if_true]
              exact ⟨trivial, changes_put fs name _, by simp⟩
          | some node =>
              cases node with
              | directory => exact absurd there free
              | file old =>
                  simp only [fileSem, oneFile, works, resolved, there, node_put, if_true]
                  exact ⟨trivial, changes_put fs name _, by simp⟩
      | some reason =>
          simp only [fileSem, oneFile, works]
          exact ⟨trivial, same, free⟩
  | fileExists path =>
      obtain rfl := path_of_eq ordinary within
      cases works : choice.failure with
      | none =>
          simp only [fileSem, oneFile, works, lookup, resolved, Option.bind_some]
          exact ⟨trivial, same, free⟩
      | some reason =>
          simp only [fileSem, oneFile, works]
          exact ⟨trivial, same, free⟩
  | fileSize path =>
      obtain rfl := path_of_eq ordinary within
      cases works : choice.failure with
      | none =>
          cases there : fs.node (blobLocation fs name) with
          | none =>
              simp only [fileSem, oneFile, works, lookup, resolved, Option.bind_some, there]
              exact ⟨trivial, same, by simp⟩
          | some node =>
              cases node with
              | directory => exact absurd there free
              | file old =>
                  simp only [fileSem, oneFile, works, lookup, resolved, Option.bind_some, there]
                  exact ⟨trivial, same, by simp⟩
      | some reason =>
          simp only [fileSem, oneFile, works]
          exact ⟨trivial, same, free⟩
  | remove path =>
      obtain rfl := path_of_eq ordinary within
      cases works : choice.failure with
      | none =>
          cases there : fs.node (blobLocation fs name) with
          | none =>
              simp only [fileSem, oneFile, works, resolved, there]
              exact ⟨rfl, same, by simp⟩
          | some node =>
              cases node with
              | directory => exact absurd there free
              | file old =>
                  simp only [fileSem, oneFile, works, resolved, there, node_erase, if_true]
                  exact ⟨rfl, changes_erase fs name, by simp⟩
      | some reason =>
          simp only [fileSem, oneFile, works]
          exact ⟨trivial, same, free⟩
  | openRead path =>
      obtain rfl := path_of_eq ordinary within
      simp only [fileSem, oneFile, lookup, resolved, Option.bind_some]
      exact ⟨trivial, same, free⟩
  | read path offset count =>
      obtain rfl := path_of_eq ordinary within
      simp only [fileSem, oneFile, content_of_resolve fs _ _ resolved]
      refine ⟨?_, same, free⟩
      cases there : fs.node (blobLocation fs name) with
      | none => rfl
      | some node => cases node <;> rfl
  | space path => exact absurd within id

end Files

section Rows

def rowsOf (hash : String) (table : BlobTable) : List BlobCopyDTO :=
  table.rows.filter (fun entry => entry.hash = hash)

theorem find_row_of (table : BlobTable) (hash worker : String) :
    table.find? (hash, worker) = (rowsOf hash table).find? (fun entry => entry.key = (hash, worker)) := by
  rw [Table.find?, rowsOf, List.find?_filter]
  refine congrArg (fun test => table.rows.find? test) (funext fun entry => ?_)
  by_cases same : entry.key = (hash, worker)
  · have hashed : entry.hash = hash := congrArg Prod.fst same
    simp [same, hashed]
  · simp [same]

-- What a commit does to the rows of its blob: none when the database refuses it.
def ownRows : Mutation → List BlobCopyDTO → Option (List BlobCopyDTO)
  | .insertBlob entry, rows =>
      if rows.find? (fun other => other.key = entry.key) = none then some (entry :: rows) else none
  | .updateBlob entry, rows =>
      if rows.find? (fun other => other.key = entry.key) = none then none
      else some (rows.map (fun old => if old.key = entry.key then entry else old))
  | .deleteBlobsByHash _, _ => some []
  | _, rows => some rows

variable {bounds : Bounds} {tables : Tables}

structure Spared (bounds : Bounds) (tables after : Tables) : Prop where
  registered : ∀ worker, Registered after worker ↔ Registered tables worker
  others : ∀ hash, hash ≠ bounds.blobHash → rowsOf hash after.blobCopy = rowsOf hash tables.blobCopy
  rows : ∀ row ∈ after.blobCopy.rows, row ∈ tables.blobCopy.rows ∨ bounds.OwnRow row

theorem spared_refl (bounds : Bounds) (tables : Tables) : Spared bounds tables tables :=
  ⟨fun _ => .rfl, fun _ _ => rfl, fun _ member => .inl member⟩

theorem mapped_row (entry : BlobCopyDTO) (hash : String) (old : BlobCopyDTO) :
    decide ((if old.key = entry.key then entry else old).hash = hash) = decide (old.hash = hash) := by
  by_cases same : old.key = entry.key
  · have hashed : old.hash = entry.hash := congrArg Prod.fst same
    rw [if_pos same, hashed]
  · rw [if_neg same]

theorem rows_of_updated {rows : BlobTable} {entry : BlobCopyDTO}
    (updated : tables.blobCopy.update entry = some rows) (hash : String) :
    rowsOf hash rows = (rowsOf hash tables.blobCopy).map
      (fun old => if old.key = entry.key then entry else old) := by
  rw [rowsOf, Table.rows_of_update updated, List.filter_map]
  refine congrArg (fun kept => (tables.blobCopy.rows.filter kept).map _) (funext fun old => ?_)
  exact mapped_row entry hash old

theorem apply_spares (mutation : Mutation) (within : bounds.Rows (.commit mutation)) {after : Tables}
    (applied : mutation.apply tables = some after) : Spared bounds tables after := by
  cases mutation with
  | insertBlob entry =>
      obtain ⟨own, -⟩ := within
      obtain ⟨rows, inserted, rfl⟩ := Option.map_eq_some_iff.mp applied
      obtain ⟨-, stored⟩ := (tables.blobCopy.insert_some_iff rows entry).mp inserted
      refine ⟨fun _ => .rfl, fun other different => ?_, fun row member => ?_⟩
      · have elsewhere : entry.hash ≠ other := fun same => different (same.symm.trans own.1)
        simp [rowsOf, stored, elsewhere]
      · dsimp only at member
        rw [stored] at member
        cases List.mem_cons.mp member with
        | inl here => exact .inr (here ▸ own)
        | inr stored => exact .inl stored
  | updateBlob entry =>
      obtain ⟨own, -⟩ := within
      obtain ⟨rows, updated, rfl⟩ := Option.map_eq_some_iff.mp applied
      refine ⟨fun _ => .rfl, fun other different => ?_, fun row member => ?_⟩
      · dsimp only
        rw [rows_of_updated updated]
        refine (List.map_congr_left ?_).trans (List.map_id _)
        intro old member
        have hashed : old.hash = other := by simpa using (List.mem_filter.mp member).2
        refine if_neg (fun same => different ?_)
        have keyed : old.hash = entry.hash := congrArg Prod.fst same
        rw [← hashed, keyed, own.1]
      · dsimp only at member
        rw [Table.rows_of_update updated] at member
        obtain ⟨old, stored, rfl⟩ := List.mem_map.mp member
        split
        · exact .inr own
        · exact .inl stored
  | deleteBlobsByHash hash =>
      obtain ⟨rfl, -⟩ : hash = bounds.blobHash ∧ bounds.writes := within
      obtain rfl := Option.some.inj applied
      refine ⟨fun _ => .rfl, fun other different => ?_,
        fun row member => .inl ((Table.mem_delete _ _ row).mp member).1⟩
      simp only [rowsOf, Table.delete, List.filter_filter]
      refine List.filter_congr ?_
      intro row _
      by_cases hashed : row.hash = other
      · have elsewhere : row.hash ≠ bounds.blobHash := fun same => different (hashed.symm.trans same)
        simp [hashed, different]
      · simp [hashed]
  | updateWorker row =>
      obtain ⟨rows, updated, rfl⟩ := Option.map_eq_some_iff.mp applied
      exact ⟨registered_update updated, fun _ _ => rfl, fun _ member => .inl member⟩
  | deleteBlobsByWorker address => exact absurd within id
  | insertWorker row => exact absurd within id
  | deleteWorker address => exact absurd within id

-- The rows of the workers are there as they were read, so writing one back changes nothing.
theorem apply_standing (mutation : Mutation) (within : bounds.Rows (.commit mutation))
    (standing : ∀ row, bounds.workerRow row → row ∈ tables.workerState.rows) {after : Tables}
    (applied : mutation.apply tables = some after) :
    after.workerState = tables.workerState := by
  cases mutation with
  | insertBlob entry =>
      obtain ⟨rows, -, rfl⟩ := Option.map_eq_some_iff.mp applied
      rfl
  | updateBlob entry =>
      obtain ⟨rows, -, rfl⟩ := Option.map_eq_some_iff.mp applied
      rfl
  | deleteBlobsByHash hash =>
      obtain rfl := Option.some.inj applied
      rfl
  | updateWorker row =>
      rw [Mutation.apply, Table.update_self tables.workerState row (standing row within.1)] at applied
      obtain rfl := Option.some.inj applied
      rfl
  | deleteBlobsByWorker address => exact absurd within id
  | insertWorker row => exact absurd within id
  | deleteWorker address => exact absurd within id

theorem rows_stay {one two : WorkerTable} (same : one = two) : ∀ row ∈ one.rows, row ∈ two.rows :=
  fun _ stored => same ▸ stored

theorem apply_own (mutation : Mutation) (within : bounds.Rows (.commit mutation))
    (standing : ∀ row, bounds.workerRow row → row ∈ tables.workerState.rows) :
    (mutation.apply tables).map (fun after => rowsOf bounds.blobHash after.blobCopy) =
        ownRows mutation (rowsOf bounds.blobHash tables.blobCopy) := by
  have found : ∀ entry : BlobCopyDTO, bounds.OwnRow entry →
      tables.blobCopy.find? entry.key = (rowsOf bounds.blobHash tables.blobCopy).find?
        (fun other => other.key = entry.key) := by
    intro entry own
    rw [← own.1]
    exact find_row_of tables.blobCopy entry.hash entry.workerAddress
  cases mutation with
  | insertBlob entry =>
      obtain ⟨own, -⟩ := within
      cases inserted : tables.blobCopy.insert entry with
      | none =>
          have present := (tables.blobCopy.insert_none_iff entry).mp inserted
          rw [found entry own] at present
          rw [Mutation.apply, inserted, ownRows, if_neg present]
          rfl
      | some rows =>
          obtain ⟨absent, stored⟩ := (tables.blobCopy.insert_some_iff rows entry).mp inserted
          rw [found entry own] at absent
          rw [Mutation.apply, inserted, ownRows, if_pos absent]
          simp [rowsOf, stored, own.1]
  | updateBlob entry =>
      obtain ⟨own, -⟩ := within
      cases updated : tables.blobCopy.update entry with
      | none =>
          have absent := (tables.blobCopy.update_none_iff entry).mp updated
          rw [found entry own] at absent
          rw [Mutation.apply, updated, ownRows, if_pos absent]
          rfl
      | some rows =>
          have present : tables.blobCopy.find? entry.key ≠ none := by
            intro absent
            cases ((tables.blobCopy.update_none_iff entry).mpr absent).symm.trans updated
          rw [found entry own] at present
          rw [Mutation.apply, updated, ownRows, if_neg present]
          exact congrArg some (rows_of_updated updated bounds.blobHash)
  | deleteBlobsByHash hash =>
      obtain ⟨rfl, -⟩ : hash = bounds.blobHash ∧ bounds.writes := within
      simp [Mutation.apply, ownRows, rowsOf, Table.delete]
  | updateWorker row =>
      rw [Mutation.apply, Table.update_self tables.workerState row (standing row within.1)]
      rfl
  | deleteBlobsByWorker address => exact absurd within id
  | insertWorker row => exact absurd within id
  | deleteWorker address => exact absurd within id

theorem commit_follows (mutation : Mutation) (within : bounds.Rows (.commit mutation))
    (other : Tables) (standing : ∀ row, bounds.workerRow row → row ∈ tables.workerState.rows)
    (workers : other.workerState = tables.workerState)
    (same : rowsOf bounds.blobHash tables.blobCopy = rowsOf bounds.blobHash other.blobCopy)
    (choice : DbChoice) :
    (commitSem mutation choice other).1 = (commitSem mutation choice tables).1 ∧
      rowsOf bounds.blobHash (commitSem mutation choice tables).2.blobCopy = rowsOf bounds.blobHash
        (commitSem mutation choice other).2.blobCopy := by
  have alike := apply_own mutation within standing
  rw [same, ← apply_own mutation within (fun row stored => workers ▸ standing row stored)] at alike
  rw [commitSem, commitSem]
  cases result : mutation.apply tables with
  | none =>
      rw [result] at alike
      have refused : mutation.apply other = none := Option.map_eq_none_iff.mp alike.symm
      rw [refused]
      cases choice.fault <;> exact ⟨rfl, same⟩
  | some after =>
      rw [result] at alike
      obtain ⟨otherAfter, accepted, rows⟩ := Option.map_eq_some_iff.mp alike.symm
      rw [accepted]
      cases choice.fault with
      | none => exact ⟨rfl, rows.symm⟩
      | lost => exact ⟨rfl, same⟩
      | applied => exact ⟨rfl, rows.symm⟩

-- An order of the one table that brings the kept rows in the order they have in the other.
theorem order_matching {ρ : Type} [DecidableEq ρ] (order : RowOrder ρ) (kept : ρ → Bool)
    (one other : List ρ) (same : one.filter kept = other.filter kept) : ∃ matching : RowOrder ρ,
    (matching.order other).filter kept = (order.order one).filter kept := by
  have perm : ∀ rows,
      (if rows = other then (order.order one).filter kept ++ other.filter (fun row => !kept row)
        else rows).Perm rows := by
    intro rows
    by_cases here : rows = other
    · subst here
      rw [if_pos rfl]
      have ordered : ((order.order one).filter kept).Perm (rows.filter kept) :=
        same ▸ (order.perm one).filter kept
      exact (ordered.append_right _).trans (List.filter_append_perm kept rows)
    · rw [if_neg here]
  refine ⟨⟨_, perm⟩, ?_⟩
  dsimp only
  rw [if_pos rfl, List.filter_append, List.filter_filter, List.filter_filter]
  simp

theorem selected_own (query : BlobQuery) (within : bounds.Rows (.selectBlobs query))
    (row : BlobCopyDTO) (selected : query.selects row = true) :
    row.hash = bounds.blobHash := by
  cases query with
  | savedByHash hash =>
      obtain rfl : hash = bounds.blobHash := within
      simp only [BlobQuery.selects, decide_eq_true_eq] at selected
      exact selected.1
  | byHashAndWorker hash worker =>
      obtain rfl : hash = bounds.blobHash := within
      simp only [BlobQuery.selects, decide_eq_true_eq] at selected
      exact selected.1

-- Rows as the cluster leaves them: of size 0, on workers that there are.
def Unsized (bounds : Bounds) (tables : Tables) : Prop :=
  ∀ row ∈ tables.blobCopy.rows, row.sizeMb = 0 ∧ bounds.known row.workerAddress

theorem spanner_stays (call : SpannerCall) (within : bounds.Rows call)
    (stored : ∀ row ∈ tables.workerState.rows, bounds.workerRow row)
    (unsized : Unsized bounds tables) (choice : DbChoice) :
    Spared bounds tables (spannerSem call choice tables).2 ∧
      bounds.RowReplies call (spannerSem call choice tables).1 := by
  cases call with
  | commit mutation =>
      refine ⟨?_, trivial⟩
      cases commit_tables mutation choice tables with
      | inl same =>
          rw [spannerSem, same]
          exact spared_refl bounds tables
      | inr applied => exact apply_spares mutation within applied
  | selectBlobs query =>
      rw [spannerSem]
      by_cases healthy : choice.fault = .none
      · rw [if_pos healthy]
        refine ⟨spared_refl bounds tables, fun row member => ?_⟩
        obtain ⟨ordered, selected⟩ := List.mem_filter.mp member
        obtain ⟨size, known⟩ := unsized row ((choice.blobOrder.perm _).mem_iff.mp ordered)
        exact ⟨selected_own query within row selected, size, known⟩
      · rw [if_neg healthy]
        exact ⟨spared_refl bounds tables, trivial⟩
  | selectWorkers query =>
      rw [spannerSem]
      by_cases healthy : choice.fault = .none
      · rw [if_pos healthy]
        refine ⟨spared_refl bounds tables, fun row member => ?_⟩
        have selected : row ∈ (choice.workerOrder.order tables.workerState.rows).filter query.selects := by
          cases query with
          | byAddress address => exact member
          | withFreeSpace space limit => exact List.mem_of_mem_take member
        exact stored row ((choice.workerOrder.perm _).mem_iff.mp (List.mem_filter.mp selected).1)
      · rw [if_neg healthy]
        exact ⟨spared_refl bounds tables, trivial⟩

theorem spanner_standing (call : SpannerCall) (within : bounds.Rows call)
    (standing : ∀ row, bounds.workerRow row → row ∈ tables.workerState.rows) (choice : DbChoice) :
    (spannerSem call choice tables).2.workerState = tables.workerState := by
  cases call with
  | commit mutation =>
      cases commit_tables mutation choice tables with
      | inl same => exact congrArg Tables.workerState same
      | inr applied => exact apply_standing mutation within standing applied
  | selectBlobs query => rw [(select_tables choice tables).1]
  | selectWorkers query => rw [(select_tables choice tables).2]

theorem spanner_follows (call : SpannerCall) (within : bounds.Rows call) (other : Tables)
    (standing : ∀ row, bounds.workerRow row → row ∈ tables.workerState.rows)
    (workers : other.workerState = tables.workerState)
    (same : rowsOf bounds.blobHash tables.blobCopy = rowsOf bounds.blobHash other.blobCopy)
    (choice : DbChoice) : ∃ order,
      (spannerSem call { choice with blobOrder := order } other).1 = (spannerSem call choice tables).1 ∧
        rowsOf bounds.blobHash (spannerSem call choice tables).2.blobCopy =
          rowsOf bounds.blobHash (spannerSem call { choice with blobOrder := order } other).2.blobCopy := by
  cases call with
  | commit mutation =>
      exact ⟨choice.blobOrder, commit_follows mutation within other standing workers same choice⟩
  | selectWorkers query =>
      refine ⟨choice.blobOrder, ?_⟩
      simp only [spannerSem, workers]
      split <;> exact ⟨rfl, same⟩
  | selectBlobs query =>
      obtain ⟨order, matched⟩ := order_matching choice.blobOrder
        (fun entry => decide (entry.hash = bounds.blobHash)) tables.blobCopy.rows
        other.blobCopy.rows same
      have through : ∀ rows : List BlobCopyDTO,
          rows.filter query.selects =
            (rows.filter (fun entry => decide (entry.hash = bounds.blobHash))).filter
            query.selects := by
        intro rows
        rw [List.filter_filter]
        refine List.filter_congr fun row _ => ?_
        cases selected : query.selects row with
        | false => rfl
        | true => simp [selected_own query within row selected]
      refine ⟨order, ?_⟩
      have rows : (order.order other.blobCopy.rows).filter query.selects =
          (choice.blobOrder.order tables.blobCopy.rows).filter query.selects := by
        rw [through, matched, ← through]
      simp only [spannerSem, rows]
      split <;> exact ⟨rfl, same⟩

end Rows

inductive ClusterPlace where
  | blobRows (hash : String)
  | workerFile (worker : String) (location : Location)
  | frontendFile (location : Location)

def SameAt : ClusterPlace → Cluster → Cluster → Prop
  | .blobRows hash, one, two => rowsOf hash one.tables.blobCopy = rowsOf hash two.tables.blobCopy
  | .workerFile worker location, one, two =>
      (one.workers worker).node location = (two.workers worker).node location
  | .frontendFile location, one, two => one.frontend.node location = two.frontend.node location

theorem same_at_equivalence (place : ClusterPlace) : Equivalence (SameAt place) := by
  cases place <;> exact ⟨fun _ => rfl, fun same => Eq.symm same, fun one two => Eq.trans one two⟩

def tempFile (drawn : Nat) : String := "temp" ++ toString drawn ++ ".blob"

theorem temp_file_inj (one two : Nat) (same : tempFile one = tempFile two) : one = two := by
  simp only [tempFile, String.append_left_inj, String.append_right_inj] at same
  exact Nat.repr_inj.mp same

-- What one request owns of the cluster, at home when the run begins.
def Owns (home : Cluster) (blobHash : String) (drawn : Nat) : ClusterPlace → Prop
  | .blobRows hash => hash = blobHash
  | .workerFile worker location => location = blobLocation (home.workers worker) blobHash
  | .frontendFile location => location = blobLocation home.frontend (tempFile drawn)

def boundsOf (home : Cluster) (blobHash : String) (drawn : Nat) : Bounds where
  blobHash := blobHash
  drawn := fun number => number = drawn
  known := Registered home.tables
  workerRow := fun row => row ∈ home.tables.workerState.rows
  writes := True

structure Steady (home cluster : Cluster) : Prop where
  workerState : cluster.tables.workerState = home.tables.workerState
  rows : ∀ row ∈ cluster.tables.blobCopy.rows, row.sizeMb = 0 ∧ Registered home.tables row.workerAddress
  roots : ∀ worker, (cluster.workers worker).cwd = (home.workers worker).cwd
  usable : ∀ worker, Registered home.tables worker → Usable (cluster.workers worker)
  frontendRoot : cluster.frontend.cwd = home.frontend.cwd
  frontend : Usable cluster.frontend

-- The draw of a request is its own, and nothing else writes to the frontend's files.
def OwnDraw {ι : Type} (draws : ι → Nat) (proc : ι) (call : ClusterCall) (choice : Choice) : Prop :=
  match call with
  | .rand => choice.draw = draws proc
  | .frontendFile _ => choice.tamper = id
  | _ => True

-- The same failures; the database may list rows in another order.
def SameFaults (choice matching : Choice) : Prop :=
  ∃ order, matching = { choice with db := { choice.db with blobOrder := order } }

section Shares

variable {home cluster : Cluster} {blobHash : String} {drawn : Nat}

theorem temp_path_of {path : String} (inside : (boundsOf home blobHash drawn).TempPath path) :
    PathOf (tempFile drawn) path := by
  obtain ⟨number, mine, leads⟩ := inside
  obtain rfl : number = drawn := mine
  exact .inl leads

theorem file_within_mono {one two : String → Prop} (wider : ∀ path, one path → two path)
    (call : FileCall) (within : FileWithin one call) :
    FileWithin two call := by
  cases call <;> first | exact within | exact wider _ within

variable (steady : Steady home cluster) (ordinary : OrdinaryName blobHash)

include steady ordinary

theorem shares_keep {ι : Type} {draws : ι → Nat} {proc : ι} (call : ClusterCall) (choice : Choice)
    (touches : (boundsOf home blobHash (draws proc)).Touches call)
    (allowed : OwnDraw draws proc call choice) :
    Steady home (clusterSem call choice cluster).2 ∧
      (boundsOf home blobHash (draws proc)).Replies call (clusterSem call choice cluster).1 := by
  cases call with
  | spanner call =>
      obtain ⟨applied, replied⟩ :=
        spanner_stays call touches (rows_stay steady.workerState) steady.rows choice.db
      have standing := spanner_standing call touches (rows_stay steady.workerState.symm) choice.db
      refine ⟨⟨standing.trans steady.workerState, ?_, steady.roots, steady.usable,
        steady.frontendRoot, steady.frontend⟩, replied⟩
      intro row member
      rcases applied.rows row member with before | own
      · exact steady.rows row before
      · exact ⟨own.2.1, own.2.2⟩
  | workerFile worker call =>
      obtain ⟨known, within, -⟩ := touches
      obtain ⟨-, changes, free⟩ := one_file (steady.usable worker known) ordinary call within choice.file
      refine ⟨⟨steady.workerState, steady.rows, ?_, ?_, steady.frontendRoot, steady.frontend⟩, trivial⟩
      · intro other
        by_cases here : other = worker
        · subst here
          simp only [clusterSem, Function.update_self]
          exact changes.1.trans (steady.roots other)
        · simp only [clusterSem, Function.update_of_ne here]
          exact steady.roots other
      · intro other registered
        by_cases here : other = worker
        · subst here
          simp only [clusterSem, Function.update_self]
          exact usable_changed (steady.usable other known) _ changes free
        · simp only [clusterSem, Function.update_of_ne here]
          exact steady.usable other registered
  | frontendFile call =>
      have calm : choice.tamper = id := allowed
      have within := file_within_mono (fun _ => temp_path_of) call touches
      obtain ⟨-, changes, free⟩ :=
        one_file steady.frontend (temp_ordinary (draws proc)) call within choice.frontendFile
      refine ⟨⟨steady.workerState, steady.rows, steady.roots, steady.usable, ?_, ?_⟩, trivial⟩
      · simp only [clusterSem, calm, id]
        exact changes.1.trans steady.frontendRoot
      · simp only [clusterSem, calm, id]
        exact usable_changed steady.frontend _ changes free
  | rpc => exact ⟨steady, trivial⟩
  | streamOpen => exact ⟨steady, trivial⟩
  | rand => exact ⟨steady, allowed⟩

theorem shares_spare {ι : Type} {draws : ι → Nat} {proc : ι} (call : ClusterCall) (choice : Choice)
    (place : ClusterPlace) (touches : (boundsOf home blobHash (draws proc)).Touches call)
    (allowed : OwnDraw draws proc call choice) (foreign : ¬ Owns home blobHash (draws proc) place) :
    SameAt place (clusterSem call choice cluster).2 cluster := by
  cases call with
  | spanner call =>
      obtain ⟨applied, -⟩ := spanner_stays call touches (rows_stay steady.workerState) steady.rows choice.db
      cases place with
      | blobRows hash => exact applied.others hash foreign
      | workerFile worker location => rfl
      | frontendFile location => rfl
  | workerFile worker call =>
      obtain ⟨known, within, -⟩ := touches
      obtain ⟨-, changes, -⟩ := one_file (steady.usable worker known) ordinary call within choice.file
      cases place with
      | blobRows hash => rfl
      | frontendFile location => rfl
      | workerFile other location =>
          simp only [SameAt, clusterSem]
          by_cases here : other = worker
          · subst here
            rw [Function.update_self]
            refine changes.2 location (fun same => foreign ?_)
            rw [Owns, same, blobLocation, blobLocation, steady.roots]
          · rw [Function.update_of_ne here]
  | frontendFile call =>
      have calm : choice.tamper = id := allowed
      have within := file_within_mono (fun _ => temp_path_of) call touches
      obtain ⟨-, changes, -⟩ :=
        one_file steady.frontend (temp_ordinary (draws proc)) call within choice.frontendFile
      cases place with
      | blobRows hash => rfl
      | workerFile worker location => rfl
      | frontendFile location =>
          simp only [SameAt, clusterSem, calm, id]
          refine changes.2 location (fun same => foreign ?_)
          rw [Owns, same, tempFile, blobLocation, blobLocation, steady.frontendRoot]
  | rpc => exact (same_at_equivalence place).refl cluster
  | streamOpen => exact (same_at_equivalence place).refl cluster
  | rand => exact (same_at_equivalence place).refl cluster

theorem shares_follow {ι : Type} {draws : ι → Nat} {proc : ι} {other : Cluster}
    (there : Steady home other) (call : ClusterCall) (choice : Choice)
    (touches : (boundsOf home blobHash (draws proc)).Touches call)
    (allowed : OwnDraw draws proc call choice)
    (agree : ∀ place, Owns home blobHash (draws proc) place → SameAt place cluster other) :
    ∃ matching, SameFaults choice matching ∧ OwnDraw draws proc call matching ∧
      (clusterSem call matching other).1 = (clusterSem call choice cluster).1 ∧
      ∀ place, Owns home blobHash (draws proc) place →
          SameAt place (clusterSem call choice cluster).2 (clusterSem call matching other).2 := by
  have itself : SameFaults choice choice := ⟨choice.db.blobOrder, rfl⟩
  cases call with
  | spanner call =>
      obtain ⟨order, reply, rows⟩ :=
        spanner_follows call touches other.tables (rows_stay steady.workerState.symm)
        (there.workerState.trans steady.workerState.symm)
        (agree (.blobRows blobHash) rfl) choice.db
      refine ⟨_, ⟨order, rfl⟩, trivial, reply, ?_⟩
      intro place owner
      cases place with
      | blobRows hash =>
          obtain rfl : hash = blobHash := owner
          exact rows
      | workerFile worker location => exact agree _ owner
      | frontendFile location => exact agree _ owner
  | workerFile worker call =>
      obtain ⟨known, within, -⟩ := touches
      have root : blobLocation (other.workers worker) blobHash =
          blobLocation (cluster.workers worker) blobHash := by
        rw [blobLocation, blobLocation, steady.roots, there.roots]
      have node : (cluster.workers worker).node (blobLocation (cluster.workers worker) blobHash) =
          (other.workers worker).node (blobLocation (cluster.workers worker) blobHash) := by
        refine agree (.workerFile worker _) ?_
        rw [Owns, blobLocation, blobLocation, steady.roots]
      have mine := (one_file (steady.usable worker known) ordinary call within choice.file).1
      have theirs := (one_file (there.usable worker known) ordinary call within choice.file).1
      rw [root, ← node, ← mine, Prod.mk.injEq] at theirs
      refine ⟨choice, itself, trivial, theirs.1, ?_⟩
      intro place owner
      cases place with
      | blobRows hash => exact agree (.blobRows hash) owner
      | frontendFile location => exact agree (.frontendFile location) owner
      | workerFile named location =>
          simp only [SameAt, clusterSem]
          by_cases here : named = worker
          · subst here
            rw [Function.update_self, Function.update_self]
            have here : location = blobLocation (cluster.workers named) blobHash := by
              rw [show location = blobLocation (home.workers named) blobHash from owner,
                blobLocation, blobLocation, steady.roots]
            rw [here]
            exact theirs.2.symm
          · rw [Function.update_of_ne here, Function.update_of_ne here]
            exact agree (.workerFile named location) owner
  | frontendFile call =>
      have calm : choice.tamper = id := allowed
      have within := file_within_mono (fun _ => temp_path_of) call touches
      have root : blobLocation other.frontend (tempFile (draws proc)) =
          blobLocation cluster.frontend (tempFile (draws proc)) := by
        rw [blobLocation, blobLocation, steady.frontendRoot, there.frontendRoot]
      have owned : ∀ location, Owns home blobHash (draws proc) (.frontendFile location) ↔
          location = blobLocation cluster.frontend (tempFile (draws proc)) := by
        intro location
        rw [Owns, blobLocation, blobLocation, steady.frontendRoot]
      have node : cluster.frontend.node (blobLocation cluster.frontend (tempFile (draws proc))) =
          other.frontend.node (blobLocation cluster.frontend (tempFile (draws proc))) :=
            agree (.frontendFile _) ((owned _).mpr rfl)
      have mine := (one_file steady.frontend (temp_ordinary (draws proc)) call within choice.frontendFile).1
      have theirs := (one_file there.frontend (temp_ordinary (draws proc)) call within choice.frontendFile).1
      rw [show "temp" ++ toString (draws proc) ++ ".blob" = tempFile (draws proc) from rfl] at mine theirs
      rw [root, ← node, ← mine, Prod.mk.injEq] at theirs
      refine ⟨choice, itself, calm, ?_, ?_⟩
      · simp only [clusterSem, calm, id]
        exact theirs.1
      · intro place owner
        cases place with
        | blobRows hash => exact agree (.blobRows hash) owner
        | workerFile worker location => exact agree (.workerFile worker location) owner
        | frontendFile location =>
            simp only [SameAt, clusterSem, calm, id]
            rw [(owned location).mp owner]
            exact theirs.2.symm
  | rpc => exact ⟨choice, itself, trivial, rfl, agree⟩
  | streamOpen => exact ⟨choice, itself, trivial, rfl, agree⟩
  | rand => exact ⟨choice, itself, allowed, rfl, agree⟩

end Shares

theorem request_ownership {ι : Type} (home : Cluster) (hashes : ι → String) (draws : ι → Nat)
    (ordinary : ∀ proc, OrdinaryName (hashes proc)) (different : Function.Injective hashes)
    (drawn : Function.Injective draws) :
    Ownership clusterSem (Steady home) SameAt (fun proc => Owns home (hashes proc) (draws proc))
      (fun proc => (boundsOf home (hashes proc) (draws proc)).Touches)
        (fun proc => (boundsOf home (hashes proc) (draws proc)).Replies)
      (OwnDraw draws) SameFaults where
  alike := same_at_equivalence
  likes := fun choice => ⟨choice.db.blobOrder, rfl⟩
  apart := by
    intro one two place first second
    cases place with
    | blobRows hash =>
        have first : hash = hashes one := first
        have second : hash = hashes two := second
        exact different (first.symm.trans second)
    | workerFile worker location =>
        have first : location = blobLocation (home.workers worker) (hashes one) := first
        have second : location = blobLocation (home.workers worker) (hashes two) := second
        exact different ((blob_location_inj _ _ _).mp (first.symm.trans second))
    | frontendFile location =>
        have first : location = blobLocation home.frontend (tempFile (draws one)) := first
        have second : location = blobLocation home.frontend (tempFile (draws two)) := second
        exact drawn (temp_file_inj _ _ ((blob_location_inj _ _ _).mp (first.symm.trans second)))
  keeps := fun proc call choice _ steady touches allowed =>
    shares_keep steady (ordinary proc) call choice touches allowed
  spares := fun proc call choice _ place steady touches allowed foreign =>
    shares_spare steady (ordinary proc) call choice place touches allowed foreign
  follows := fun proc call choice _ _ steady there touches allowed agree =>
    shares_follow steady (ordinary proc) there call choice touches allowed agree

end BlobStore
