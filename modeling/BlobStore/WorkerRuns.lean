import BlobStore.SendRules
import BlobStore.Library.Runs

set_option autoImplicit false

namespace BlobStore

open Effects FileSystem WorkerService

abbrev WorkerLog := List (Event WorkerCall WorkerReply)

-- What others see of a call: its writes to the stream and its notifications.
def noteWorker : (call : WorkerCall) → WorkerReply call → WorkerLog → WorkerLog
  | .file _, _, log => log
  | call, reply, log => log ++ [⟨call, reply⟩]

def sentChunk : Event WorkerCall WorkerReply → Option Bytes
  | ⟨.write chunk, true⟩ => some chunk
  | _ => none

def sentChunks (log : WorkerLog) : List Bytes := log.filterMap sentChunk

def Unbroken (log : WorkerLog) : Prop := ∀ chunk, (⟨.write chunk, false⟩ : Event WorkerCall WorkerReply) ∉ log

def Notifies (request : NotifyBlobSavedRequest) (log : WorkerLog) : Prop :=
  ∃ reply, (⟨.notifyBlobSaved request, reply⟩ : Event WorkerCall WorkerReply) ∈ log

structure WorkerOutcome where
  result : Except Thrown (Except Status Unit)
  log : WorkerLog

def workerStep (X : Xxh64) (workerAddress : String) (turn : WorkerOp × List WorkerChoice) (fs : FileSystem) :
    WorkerOutcome × FileSystem :=
  let outcome := exec (observed noteWorker workerSem) (turn.1.program X workerAddress).run turn.2 (fs, [])
  (⟨outcome.1, outcome.2.2.2⟩, outcome.2.2.1)

def WorkerHealthy (choice : WorkerChoice) : Prop := FileHealthy choice.file

def storedFile (fs : FileSystem) (name : String) : Option Bytes :=
  match fs.node (blobLocation fs name) with
  | some (.file bytes) => some bytes
  | _ => none

theorem content_blob (fs : FileSystem) (blobs : HasBlobs fs) (name : String) (ordinary : OrdinaryName name) :
    fs.content ("blobs/" ++ name) = storedFile fs name :=
  content_of_resolve fs _ _ (resolve_blob fs blobs name ordinary)

-- The directory of a worker between two calls: nothing but files, each named by the
-- hash of what it holds.
structure Shelf (X : Xxh64) (fs : FileSystem) : Prop where
  blobs : HasBlobs fs
  hashed : ∀ name, fs.node (blobLocation fs name) = none ∨
    ∃ bytes, fs.node (blobLocation fs name) = some (.file bytes) ∧ X.blobHash bytes = name

def EmptyBlobs (fs : FileSystem) : Prop := HasBlobs fs ∧ ∀ name, fs.node (blobLocation fs name) = none

def ChangesOnly (name : String) (before after : FileSystem) : Prop :=
  after.cwd = before.cwd ∧ ∀ location, location ≠ blobLocation before name →
    after.node location = before.node location

def firstName (messages : List SaveBlobRequest) : String :=
  (messages.head?.map SaveBlobRequest.blobHash).getD ""

def WorkerContract (X : Xxh64) (workerAddress : String) (op : WorkerOp) (before : FileSystem)
    (outcome : WorkerOutcome) (after : FileSystem) : Prop :=
  match op with
  | .saveBlob messages =>
      ChangesOnly (firstName messages) before after ∧
        (Notifies ⟨workerAddress, firstName messages⟩ outcome.log ↔
          firstName messages = X.blobHash (payload messages)) ∧
        storedFile after (firstName messages) =
          if firstName messages = X.blobHash (payload messages) then some (payload messages) else none
  | .getBlob blobHash =>
      after = before ∧ (Unbroken outcome.log →
        (outcome.result = .ok (.ok ()) ↔ storedFile before blobHash ≠ none) ∧
          ∀ bytes, storedFile before blobHash = some bytes → (sentChunks outcome.log).flatten = bytes)
  | .deleteBlob blobHash =>
      ChangesOnly blobHash before after ∧ storedFile after blobHash = none ∧
        (outcome.result = .ok (.ok ()) ↔ storedFile before blobHash ≠ none)

theorem shelf_free {X : Xxh64} {fs : FileSystem} (shelf : Shelf X fs) (name : String) :
    fs.node (blobLocation fs name) ≠ some .directory := by
  cases shelf.hashed name with
  | inl none => simp [none]
  | inr file =>
      obtain ⟨bytes, there, -⟩ := file
      simp [there]

theorem changes_put (fs : FileSystem) (name : String) (node : Node) :
    ChangesOnly name fs (fs.put (blobLocation fs name) node) :=
  ⟨rfl, fun location different => by rw [node_put, if_neg different]⟩

theorem changes_erase (fs : FileSystem) (name : String) :
    ChangesOnly name fs (fs.erase (blobLocation fs name)) :=
  ⟨rfl, fun location different => by rw [node_erase, if_neg different]⟩

theorem blobs_elsewhere (fs : FileSystem) (name : String) : fs.cwd ++ ["blobs"] ≠ blobLocation fs name := by
  simp [blobLocation]

theorem location_kept {name : String} {before after : FileSystem}
    (changes : ChangesOnly name before after) (other : String) :
    blobLocation after other = blobLocation before other := by rw [blobLocation, blobLocation, changes.1]

theorem entry_kept {name : String} {before after : FileSystem}
    (changes : ChangesOnly name before after) (other : String) (different : other ≠ name) :
    after.node (blobLocation after other) = before.node (blobLocation before other) := by
  rw [location_kept changes other]
  exact changes.2 _ (fun equal => different ((blob_location_inj before other name).mp equal))

theorem blobs_kept {name : String} {before after : FileSystem} (blobs : HasBlobs before)
    (changes : ChangesOnly name before after) :
    HasBlobs after := by
  rw [HasBlobs, changes.1, changes.2 _ (blobs_elsewhere before name)]
  exact blobs

theorem shelf_changed {X : Xxh64} {before after : FileSystem} (shelf : Shelf X before)
    (name : String) (changes : ChangesOnly name before after)
    (entry : after.node (blobLocation before name) = none ∨
      ∃ bytes, after.node (blobLocation before name) = some (.file bytes) ∧
      X.blobHash bytes = name) : Shelf X after := by
  refine ⟨blobs_kept shelf.blobs changes, ?_⟩
  intro other
  by_cases same : other = name
  · subst same
    rw [location_kept changes]
    exact entry
  · rw [entry_kept changes other same]
    exact shelf.hashed other

theorem worker_acts_where (ok : FileChoice → Prop) {τ : Type}
    {note : (call : WorkerCall) → WorkerReply call → τ → τ}
    (quiet : ∀ call reply seen, note (.file call) reply seen = seen) :
    ActsOnFiles (observed note workerSem) (fun choice => ok choice.file) workerFile ok Prod.fst
      (fun whole part => (part, whole.2)) where
  setGet := fun _ => rfl
  inline := by
    intro α program post whole holds
    refine wp_inline_part ok workerFile Prod.fst (fun whole part => (part, whole.2))
      (fun _ _ => rfl) (fun _ _ _ => rfl)
      (fun _ => rfl) ?_ program.run post whole holds
    intro call after whole each
    rw [workerFile, wp_perform]
    intro choice allowed
    simpa only [observed, workerSem, quiet] using each choice.file allowed

theorem worker_acts {τ : Type} {note : (call : WorkerCall) → WorkerReply call → τ → τ}
    (quiet : ∀ call reply seen, note (.file call) reply seen = seen) :
    ActsOnFiles (observed note workerSem) WorkerHealthy workerFile FileHealthy Prod.fst
      (fun whole part => (part, whole.2)) :=
  worker_acts_where FileHealthy quiet

theorem log_acts : ActsOnFiles (observed noteWorker workerSem) WorkerHealthy workerFile FileHealthy Prod.fst
    (fun whole part => (part, whole.2)) := worker_acts (fun _ _ _ => rfl)

theorem stored_put (fs : FileSystem) (name : String) (bytes : Bytes) :
    storedFile (fs.put (blobLocation fs name) (.file bytes)) name = some bytes := by
  simp [storedFile, show blobLocation (fs.put (blobLocation fs name) (.file bytes)) name =
    blobLocation fs name from rfl]

theorem stored_erase (fs : FileSystem) (name : String) :
    storedFile (fs.erase (blobLocation fs name)) name = none := by
  simp [storedFile, show blobLocation (fs.erase (blobLocation fs name)) name = blobLocation fs name from rfl]

theorem save_contract (X : Xxh64) (workerAddress : String) (first : SaveBlobRequest)
    (rest : List SaveBlobRequest) (fs : FileSystem) (shelf : Shelf X fs)
    (ordinary : OrdinaryName first.blobHash) :
    wp (observed noteWorker workerSem) WorkerHealthy
      (WorkerService.saveBlob X workerAddress (first :: rest)).run
      (fun result after => Shelf X after.1 ∧
        WorkerContract X workerAddress (.saveBlob (first :: rest)) fs ⟨result, after.2⟩ after.1)
      (fs, []) := by
  have opens := opens_blob fs shelf.blobs first.blobHash ordinary (shelf_free shelf _)
  rw [WorkerService.saveBlob, wp_run_bind]
  refine log_acts.inline _ _ _ (fs, []) ?_
  refine wp_receive_blob tolerates_healthy healthy_writes_whole X first rest ordinary.1 _ fs ?_ ?_ ?_
  · intro base location opened verified
    obtain ⟨rfl, rfl⟩ := opens_unique opens opened
    have stored : Shelf X (fs.put (blobLocation fs first.blobHash) (.file (payload (first :: rest)))) ∧
        ∀ result reply, WorkerContract X workerAddress (.saveBlob (first :: rest)) fs
          ⟨result, [⟨.notifyBlobSaved ⟨workerAddress, first.blobHash⟩, reply⟩]⟩
          (fs.put (blobLocation fs first.blobHash) (.file (payload (first :: rest)))) := by
      have changes := changes_put fs first.blobHash (.file (payload (first :: rest)))
      refine ⟨shelf_changed shelf _ changes (.inr ⟨_, by simp, verified.symm⟩),
        fun result reply => ⟨changes, ?_, ?_⟩⟩
      · exact iff_of_true ⟨reply, List.mem_singleton.mpr rfl⟩ verified
      · exact (stored_put fs first.blobHash _).trans (if_pos verified).symm
    dsimp only
    rw [wp_run_bind, masterNotifyBlobSaved, wp_run_perform]
    intro choice healthy
    simp only [observed, workerSem, noteWorker, List.nil_append]
    cases choice.master <;> exact ⟨stored.1, stored.2 _ _⟩
  · intro base location opened mismatch
    obtain ⟨rfl, rfl⟩ := opens_unique opens opened
    have changes := changes_erase fs first.blobHash
    rw [erase_put]
    refine ⟨shelf_changed shelf _ changes (.inl (by simp)), changes, ?_, ?_⟩
    · exact iff_of_false (fun notified => List.not_mem_nil notified.choose_spec) mismatch
    · exact (stored_erase fs first.blobHash).trans (if_neg mismatch).symm
  · intro trouble
    exact absurd ⟨fs, _, opens⟩ (trouble.resolve_left id)

theorem wp_write_response (chunk : Bytes)
    (post : Except Thrown Bool → FileSystem × WorkerLog → Prop) (fs : FileSystem) (log : WorkerLog)
    (opened : post (.ok true) (fs, log ++ [⟨.write chunk, true⟩]))
    (closed : post (.ok false) (fs, log ++ [⟨.write chunk, false⟩])) :
    wp (observed noteWorker workerSem) WorkerHealthy (writeResponse chunk).run post (fs, log) := by
  rw [writeResponse, wp_run_perform]
  intro choice _
  simp only [observed, workerSem, noteWorker]
  cases choice.streamOpen with
  | true => exact opened
  | false => exact closed

def written (chunks : List Bytes) : WorkerLog := chunks.map (fun chunk => ⟨.write chunk, true⟩)

theorem sent_written (chunks : List Bytes) : sentChunks (written chunks) = chunks := by
  simp [sentChunks, written, Function.comp_def, sentChunk]

theorem get_contract (X : Xxh64) (workerAddress blobHash : String) (fs : FileSystem) (shelf : Shelf X fs)
    (ordinary : OrdinaryName blobHash) :
    wp (observed noteWorker workerSem) WorkerHealthy (WorkerService.getBlob blobHash).run
      (fun result after => Shelf X after.1 ∧
        WorkerContract X workerAddress (.getBlob blobHash) fs ⟨result, after.2⟩ after.1) (fs, []) := by
  have content := content_blob fs shelf.blobs blobHash ordinary
  have path := join_blob blobHash ordinary
  refine wp_send_blob tolerates_healthy log_acts blobHash
    (fun base chunks => (base, written chunks)) _ (fs, [])
    (fun _ => rfl) (fun _ _ => rfl) ?_ ?_ (fun troubled => troubled.elim) ?_ ?_
  · intro base bytes chunks chunk next streaming opened refused
    obtain rfl := Option.some.inj ((make_blobs fs shelf.blobs).symm.trans streaming.made)
    refine wp_write_response chunk next fs (written chunks) ?_ ?_
    · simpa [written] using opened
    · refine refused _ (fun status => ⟨shelf, rfl, fun unbroken => ?_⟩)
      exact absurd (List.mem_append_right _ (List.mem_singleton.mpr rfl)) (unbroken chunk)
  · intro base bytes chunks streaming whole
    obtain rfl := Option.some.inj ((make_blobs fs shelf.blobs).symm.trans streaming.made)
    have stored : storedFile fs blobHash = some bytes := by rw [← content, ← path]; exact streaming.there
    refine ⟨shelf, rfl, fun _ => ⟨by simp [stored], ?_⟩⟩
    intro held there
    rw [stored] at there
    rw [sent_written, whole, Option.some.inj there]
  · intro base made missing status
    obtain rfl := Option.some.inj ((make_blobs fs shelf.blobs).symm.trans made)
    have absent : storedFile fs blobHash = none := by
      rw [← content, ← path, FileSystem.content, missing]
    refine ⟨shelf, rfl, fun _ => ⟨by simp [absent], ?_⟩⟩
    intro held there
    rw [absent] at there
    cases there
  · intro trouble
    exfalso
    rcases trouble with troubled | unmade | directory
    · exact troubled
    · rw [make_blobs fs shelf.blobs] at unmade
      cases unmade
    · obtain ⟨base, made, there⟩ := directory
      obtain rfl := Option.some.inj ((make_blobs fs shelf.blobs).symm.trans made)
      rw [path, FileSystem.lookup, resolve_blob fs shelf.blobs blobHash ordinary] at there
      exact shelf_free shelf blobHash there

theorem delete_contract (X : Xxh64) (workerAddress blobHash : String) (fs : FileSystem) (shelf : Shelf X fs)
    (ordinary : OrdinaryName blobHash) :
    wp (observed noteWorker workerSem) WorkerHealthy (WorkerService.deleteBlob blobHash).run
      (fun result after => Shelf X after.1 ∧
        WorkerContract X workerAddress (.deleteBlob blobHash) fs ⟨result, after.2⟩ after.1) (fs, []) := by
  have resolved := resolve_blob fs shelf.blobs blobHash ordinary
  have looked : fs.lookup ("blobs/" ++ blobHash) = fs.node (blobLocation fs blobHash) := by
    rw [FileSystem.lookup, resolved, Option.bind_some]
  refine log_acts.inline _ _ _ (fs, []) ?_
  refine wp_delete_file tolerates_healthy blobHash _ fs ?_ ?_ ?_
  · intro absent status
    rw [looked] at absent
    have none : storedFile fs blobHash = none := by rw [storedFile, absent]
    exact ⟨shelf, ⟨rfl, fun _ _ => rfl⟩, none, by simp [none]⟩
  · intro location bytes there file
    obtain rfl := Option.some.inj (resolved.symm.trans there)
    have changes := changes_erase fs blobHash
    have stored : storedFile fs blobHash = some bytes := by rw [storedFile, file]
    exact ⟨shelf_changed shelf _ changes (.inl (by simp)), changes,
      stored_erase fs blobHash, by simp [stored]⟩
  · intro trouble
    rw [looked] at trouble
    exact absurd (trouble.resolve_left id) (shelf_free shelf blobHash)

def WorkerOp.Admissible : WorkerOp → Prop
  | .saveBlob messages => messages ≠ [] ∧ ∀ message ∈ messages, OrdinaryName message.blobHash
  | .getBlob blobHash => OrdinaryName blobHash
  | .deleteBlob blobHash => OrdinaryName blobHash

theorem call_contract (X : Xxh64) (workerAddress : String) (op : WorkerOp)
    (admissible : op.Admissible) (fs : FileSystem) (shelf : Shelf X fs) :
    wp (observed noteWorker workerSem) WorkerHealthy (op.program X workerAddress).run
      (fun result after => Shelf X after.1 ∧
        WorkerContract X workerAddress op fs ⟨result, after.2⟩ after.1) (fs, []) := by
  cases op with
  | saveBlob messages =>
      cases messages with
      | nil => exact absurd rfl admissible.1
      | cons first rest =>
          exact save_contract X workerAddress first rest fs shelf (admissible.2 first (by simp))
  | getBlob blobHash => exact get_contract X workerAddress blobHash fs shelf admissible
  | deleteBlob blobHash => exact delete_contract X workerAddress blobHash fs shelf admissible

theorem empty_shelf (X : Xxh64) (fs : FileSystem) (empty : EmptyBlobs fs) : Shelf X fs :=
  ⟨empty.1, fun name => .inl (empty.2 name)⟩

theorem worker_runs_keep_contracts (X : Xxh64) (workerAddress : String) (fs : FileSystem)
    (turns : List (WorkerOp × List WorkerChoice)) (empty : EmptyBlobs fs)
    (healthy : ∀ turn ∈ turns, ∀ choice ∈ turn.2, WorkerHealthy choice)
    (admissible : ∀ turn ∈ turns, turn.1.Admissible) :
    ∀ taken ∈ transitions (workerStep X workerAddress) fs turns,
      Shelf X taken.before ∧ WorkerContract X workerAddress taken.op.1 taken.before taken.result taken.after ∧
        Shelf X taken.after := by
  refine transitions_hold (workerStep X workerAddress) (Shelf X)
    (fun turn _ => (∀ choice ∈ turn.2, WorkerHealthy choice) ∧ turn.1.Admissible)
    (fun taken => WorkerContract X workerAddress taken.op.1 taken.before taken.result taken.after) ?_ fs turns
    (empty_shelf X fs empty) ?_
  · intro state turn shelf good
    have met := wp_sound WorkerHealthy (turn.1.program X workerAddress).run _ turn.2 (state, []) rfl good.1
      (call_contract X workerAddress turn.1 good.2 state shelf)
    exact ⟨met.2, met.1⟩
  · intro taken member
    have scheduled := transition_op _ fs turns taken member
    exact ⟨healthy _ scheduled, admissible _ scheduled⟩

def freshWorker : FileSystem := (⟨["app"], ∅⟩ : FileSystem).put ["app", "blobs"] .directory

theorem fresh_worker_empty : EmptyBlobs freshWorker := by
  refine ⟨by simp [HasBlobs, freshWorker], fun name => ?_⟩
  rw [freshWorker, node_put, if_neg (by simp [blobLocation])]
  exact Finmap.lookup_empty _

theorem worker_runs_keep_contracts_run :
    let earlier : List (WorkerOp × List WorkerChoice) :=
      [(.saveBlob [⟨"15154266338359012955", [97]⟩], []), (.getBlob "15154266338359012955", [])]
    let taken := transition (workerStep referenceXxh64 "worker-0")
      (finalState (workerStep referenceXxh64 "worker-0") freshWorker earlier)
        (.deleteBlob "15154266338359012955", [])
    Shelf referenceXxh64 taken.before ∧
      WorkerContract referenceXxh64 "worker-0" taken.op.1 taken.before taken.result taken.after ∧
      Shelf referenceXxh64 taken.after := by
  intro earlier taken
  have ordinary : OrdinaryName "15154266338359012955" := by decide
  exact worker_runs_keep_contracts referenceXxh64 "worker-0" freshWorker
    (earlier ++ [(.deleteBlob "15154266338359012955", [])]) fresh_worker_empty (by simp [earlier])
    (by simp [earlier, WorkerOp.Admissible, ordinary]) taken (last_transition _ freshWorker earlier _)

end BlobStore
