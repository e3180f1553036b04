import BlobStore.ReceiveFailures

set_option autoImplicit false

namespace BlobStore

open Effects FileSystem WorkerService

-- The catch clauses of the handlers take this exception and no other.
def Catchable {α : Type} (outcome : Except Thrown α) : Prop :=
  ∀ thrown, outcome = .error thrown → ∃ what, thrown = .fileSystemException what

theorem cancel_caught_iff {α : Type} (outcome : Except Thrown (Except Status α)) :
    (∃ status, cancelCaught outcome = .ok status) ↔ Catchable outcome := by
  cases outcome with
  | ok status => exact iff_of_true ⟨status, rfl⟩ (fun thrown failed => by cases failed)
  | error thrown =>
      cases thrown with
      | fileSystemException what =>
          exact iff_of_true ⟨_, rfl⟩ (fun thrown failed => ⟨what, (Except.error.inj failed).symm⟩)
      | filesystemError what => simp [cancelCaught, Catchable]
      | undefinedBehaviour => simp [cancelCaught, Catchable]
      | nonterminating => simp [cancelCaught, Catchable]

-- How BlobFile::Load can end, with what it leaves behind.
inductive LoadOutcome (name : String) (choices : List FileChoice) (fs : FileSystem) :
    Except Thrown BlobFile → FileSystem → Prop where
  | noDirectory (what : String) (unmade : ¬ ∃ base, DirectoryMade choices fs base) :
      LoadOutcome name choices fs (.error (.filesystemError what)) fs
  | unanswered (what : String) (base : FileSystem) (made : DirectoryMade choices fs base)
      (failed : (choiceAt choices 1).failure ≠ none) :
        LoadOutcome name choices fs (.error (.filesystemError what)) base
  | missing (what : String) (base : FileSystem) (made : DirectoryMade choices fs base)
      (answered : (choiceAt choices 1).failure = none)
      (absent : base.lookup (joinPath "blobs" name) = none) :
        LoadOutcome name choices fs (.error (.fileSystemException what)) base
  | unmeasured (what : String) (base : FileSystem) (node : Node) (made : DirectoryMade choices fs base)
      (there : base.lookup (joinPath "blobs" name) = some node)
        (failed : (choiceAt choices 2).failure ≠ none ∨ node = .directory) :
      LoadOutcome name choices fs (.error (.filesystemError what)) base
  | loaded (base : FileSystem) (bytes : Bytes) (made : DirectoryMade choices fs base)
      (answered : (choiceAt choices 1).failure = none)
      (there : base.lookup (joinPath "blobs" name) = some (.file bytes))
        (measured : (choiceAt choices 2).failure = none) :
      LoadOutcome name choices fs (.ok ⟨joinPath "blobs" name, bytes.length⟩) base

-- Neither create_directories nor exists throws, and file_size neither where it is called.
def LoadsOrMisses (name : String) (choices : List FileChoice) (fs : FileSystem) : Prop :=
  ∃ base, DirectoryMade choices fs base ∧ (choiceAt choices 1).failure = none ∧
    ∀ node, base.lookup (joinPath "blobs" name) = some node →
      (choiceAt choices 2).failure = none ∧ node ≠ .directory

theorem exec_load (name : String) (choices : List FileChoice) (fs : FileSystem) :
    LoadOutcome name choices fs (exec fileSem (BlobFile.load name).run choices fs).1
      (exec fileSem (BlobFile.load name).run choices fs).2.2 := by
  have second : choiceAt choices 1 = choices.tail.headD default := by rw [choiceAt, List.drop_one]
  have third : choiceAt choices 2 = choices.tail.tail.headD default := by
    rw [choiceAt, ← List.drop_one, ← List.drop_one, List.drop_drop]
  rw [BlobFile.load, show BlobFile.BLOBS_PATH = "blobs" from rfl]
  rcases exec_create_directories choices fs with ⟨base, made, directories⟩ | ⟨unmade, what, directories⟩
  · rw [exec_run_bind_ok _ _ _ _ _ (congrArg Prod.fst directories), directories]
    dsimp only
    rw [fileExists, bind_assoc, exec_run_perform]
    simp only [fileSem]
    cases asked : (choices.tail.headD default).failure with
    | some reason => exact .unanswered reason base made (by rw [second, asked]; simp)
    | none =>
        cases there : base.lookup (joinPath "blobs" name) with
        | none => exact .missing _ base made (second ▸ asked) there
        | some node =>
            simp only [orThrow, pure_bind, Option.isSome_some, if_true]
            rw [fileSizeOf, bind_assoc, exec_run_perform]
            simp only [fileSem, there]
            cases measured : (choices.tail.tail.headD default).failure with
            | some reason =>
                exact .unmeasured reason base node made there (.inl (by rw [third, measured]; simp))
            | none =>
                cases node with
                | directory => exact .unmeasured _ base .directory made there (.inr rfl)
                | file bytes => exact .loaded base bytes made (second ▸ asked) there (third ▸ measured)
  · rw [exec_run_bind_error _ _ _ _ _ (congrArg Prod.fst directories), directories]
    exact .noDirectory what unmade

theorem load_catchable_iff {name : String} {choices : List FileChoice} {fs after : FileSystem}
    {outcome : Except Thrown BlobFile} (load : LoadOutcome name choices fs outcome after) :
    Catchable outcome ↔ LoadsOrMisses name choices fs := by
  have only : ∀ base, DirectoryMade choices fs base →
      (LoadsOrMisses name choices fs ↔ (choiceAt choices 1).failure = none ∧
      ∀ node, base.lookup (joinPath "blobs" name) = some node →
          (choiceAt choices 2).failure = none ∧ node ≠ .directory) := by
    intro base made
    constructor
    · rintro ⟨other, again, loads⟩
      obtain rfl := Option.some.inj (made.2.symm.trans again.2)
      exact loads
    · exact fun loads => ⟨base, made, loads⟩
  cases load with
  | noDirectory what unmade =>
      exact iff_of_false (by simp [Catchable]) (fun loads => unmade (loads.imp (fun _ loads => loads.1)))
  | unanswered what base made failed =>
      rw [only after made]
      exact iff_of_false (by simp [Catchable]) (fun loads => failed loads.1)
  | missing what base made answered absent =>
      rw [only after made]
      exact iff_of_true (by simp [Catchable]) ⟨answered, by simp [absent]⟩
  | unmeasured what base node made there failed =>
      rw [only after made]
      exact iff_of_false (by simp [Catchable])
        (fun loads => failed.elim (fun faulty => faulty (loads.2 node there).1)
          (loads.2 node there).2)
  | loaded base bytes made answered there measured =>
      rw [only after made]
      refine iff_of_true (by simp [Catchable]) ⟨answered, ?_⟩
      rintro node found
      obtain rfl := Option.some.inj (there.symm.trans found)
      exact ⟨measured, by simp⟩

theorem wp_any_write (chunk : Bytes) (post : Except Thrown Bool → FileSystem × WorkerLog → Prop)
    (state : FileSystem × WorkerLog) (holds : ∀ opened log, post (.ok opened) (state.1, log)) :
    wp (observed noteWorker workerSem) (fun _ => True) (writeResponse chunk).run post state := by
  rw [writeResponse, wp_run_perform]
  exact fun choice _ => holds _ _

-- Once the file is loaded, what the loop can throw is caught, whatever the file and the stream do.
theorem sending_catchable (blobHash : String) (bytes : Bytes) (base : FileSystem) (log : WorkerLog)
    (there : base.content (joinPath "blobs" blobHash) = some bytes) :
    wp (observed noteWorker workerSem) (fun _ => True) (ExceptT.run (do
        let flow ← (BlobFile.mk (joinPath "blobs" blobHash) bytes.length).forEach MAX_CHUNK_SIZE workerFile
          (fun _ chunk => do
            let written ← writeResponse chunk
            if written then pure (.next ())
            else pure (.leave ⟨.invalidArgument, "Write stream was closed."⟩))
          (fun _ => pure ()) ()
        match flow with
        | .leave (status : Status) => pure (.error status)
        | .next _ => pure (.ok ()) : WorkerM (Except Status Unit)))
      (fun outcome _ => Catchable outcome) (base, log) := by
  rw [wp_run_bind, BlobFile.forEach, BlobFile.begin]
  refine wp_for_chunks (fun _ _ => .inr trivial)
    (worker_acts_where (fun _ => True) (fun _ _ _ => rfl)) MAX_CHUNK_SIZE (by decide) _ _
    (joinPath "blobs" blobHash) bytes
      (fun _ _ whole => whole.1.content (joinPath "blobs" blobHash) = some bytes) _ ?_ ?_ ?_ ?_
    (bytes.length + 1) 0 none _ () (base, log) (by omega) (by omega) rfl (.inl rfl) there
  · exact fun _ _ whole readable => readable
  · intro _ _ whole chunk readable _ _
    rw [wp_run_bind]
    refine wp_any_write chunk _ whole ?_
    rintro (_ | _) written
    · exact fun thrown failed => by cases failed
    · exact readable
  · exact fun _ whole _ thrown failed => by cases failed
  · exact fun _ _ _ whole what _ thrown failed => ⟨what, (Except.error.inj failed).symm⟩

theorem send_ends_iff (X : Xxh64) (workerAddress blobHash : String)
    (choices : List WorkerChoice) (fs : FileSystem) :
    (∃ status, (workerStep X workerAddress (.getBlob blobHash, choices) fs).1.result = .ok status) ↔
      LoadsOrMisses blobHash (choices.map WorkerChoice.file) fs := by
  have load := exec_load blobHash (choices.map WorkerChoice.file) fs
  obtain ⟨result, files⟩ := exec_on_worker_files (BlobFile.load blobHash) choices fs []
  rw [← load_catchable_iff load]
  rw [workerStep, WorkerOp.program, WorkerService.getBlob, sendBlobToFrontend,
    exec_cancel_caught, cancel_caught_iff]
  cases outcome : (exec fileSem (BlobFile.load blobHash).run (choices.map WorkerChoice.file) fs).1 with
  | error thrown =>
      rw [exec_run_bind_error _ _ _ _ _ (result.trans outcome)]
      simp [Catchable]
  | ok blob =>
      rw [exec_run_bind_ok _ _ _ _ _ (result.trans outcome), files]
      refine iff_of_true ?_ (fun thrown failed => by cases failed)
      rw [outcome] at load
      generalize (exec fileSem (BlobFile.load blobHash).run (choices.map WorkerChoice.file)
        fs).2.2 = after at load ⊢
      cases load with
      | loaded base bytes made answered there measured =>
          refine wp_sound _ _ _ _ _ trivial (fun _ _ => trivial)
            (sending_catchable blobHash bytes after [] ?_)
          rw [content, there]

-- Neither exists throws, nor remove where it is called.
def RemovesOrMisses (path : String) (choices : List FileChoice) (fs : FileSystem) : Prop :=
  (choiceAt choices 0).failure = none ∧
    ((fs.lookup path).isSome = true → (choiceAt choices 1).failure = none ∧
    ∀ location, fs.resolve path = some location → fs.node location = some .directory →
      endsInDot path = false ∧ fs.hasChildren location = false)

theorem remove_catchable_iff (path : String) (choice : FileChoice) (fs : FileSystem) :
    (∃ removed, (fileSem (.remove path) choice fs).1 = .ok removed) ↔ choice.failure = none ∧
      ∀ location, fs.resolve path = some location → fs.node location = some .directory →
        endsInDot path = false ∧ fs.hasChildren location = false := by
  simp only [fileSem]
  cases failure : choice.failure with
  | some reason => simp
  | none =>
      cases resolved : fs.resolve path with
      | none => simp
      | some location =>
          cases there : fs.node location with
          | none => simp [there]
          | some node =>
              cases node with
              | file bytes => simp [there]
              | directory =>
                  cases endsInDot path <;> cases children : fs.hasChildren location <;> simp [there, children]

theorem delete_ends_iff (X : Xxh64) (workerAddress blobHash : String)
    (choices : List WorkerChoice) (fs : FileSystem) :
    (∃ status, (workerStep X workerAddress (.deleteBlob blobHash, choices) fs).1.result = .ok status) ↔
      RemovesOrMisses ("blobs/" ++ blobHash) (choices.map WorkerChoice.file) fs := by
  obtain ⟨result, -⟩ := exec_on_worker_files (deleteFile blobHash) choices fs []
  have same : (workerStep X workerAddress (.deleteBlob blobHash, choices) fs).1.result =
      (exec fileSem (deleteFile blobHash).run (choices.map WorkerChoice.file) fs).1 := result
  generalize choices.map WorkerChoice.file = given at same ⊢
  have first : choiceAt given 0 = given.headD default := by rw [choiceAt, List.drop_zero]
  have second : choiceAt given 1 = given.tail.headD default := by rw [choiceAt, List.drop_one]
  rw [same, deleteFile, exec_cancel_caught, cancel_caught_iff,
    show BLOBS_PATH ++ blobHash = "blobs/" ++ blobHash from rfl, fileExists,
    bind_assoc, exec_run_perform, RemovesOrMisses, first, second]
  have thrown : ∀ (what : String) (rest : List FileChoice) (after : FileSystem),
      ¬ Catchable (exec fileSem
        (ExceptT.run (throw (.filesystemError what) : FileM (Except Status Unit))) rest after).1 := by
    intro what rest after catchable
    obtain ⟨other, same⟩ := catchable _ rfl
    cases same
  simp only [fileSem]
  cases (given.headD default).failure with
  | some reason => exact iff_of_false (thrown reason _ _) (by simp)
  | none =>
      cases present : (fs.lookup ("blobs/" ++ blobHash)).isSome with
      | false => exact iff_of_true (fun thrown failed => by cases failed) (by simp)
      | true =>
          simp only [orThrow, pure_bind, if_true, true_and, true_implies]
          rw [removeFile, bind_assoc, exec_run_perform, ← remove_catchable_iff]
          cases (fileSem (.remove ("blobs/" ++ blobHash)) (given.tail.headD default) fs).1 with
          | error what => exact iff_of_false (thrown what _ _) (by simp)
          | ok removed => exact iff_of_true (fun thrown failed => by cases failed) ⟨removed, rfl⟩

-- A call of std::filesystem that throws is not among those the handlers catch.
def NothingThrows (X : Xxh64) (op : WorkerOp) (choices : List FileChoice) (fs : FileSystem) : Prop :=
  match op with
  | .saveBlob messages => EndsWithStatus X messages choices fs
  | .getBlob blobHash => LoadsOrMisses blobHash choices fs
  | .deleteBlob blobHash => RemovesOrMisses ("blobs/" ++ blobHash) choices fs

theorem worker_ends_with_status_iff (X : Xxh64) (workerAddress : String) (op : WorkerOp)
    (choices : List WorkerChoice) (fs : FileSystem) (some_ : op ≠ .saveBlob []) :
    (∃ status, (workerStep X workerAddress (op, choices) fs).1.result = .ok status) ↔
      NothingThrows X op (choices.map WorkerChoice.file) fs := by
  cases op with
  | saveBlob messages =>
      cases messages with
      | nil => exact absurd rfl some_
      | cons first rest => exact (save_result X workerAddress first rest choices fs).2
  | getBlob blobHash => exact send_ends_iff X workerAddress blobHash choices fs
  | deleteBlob blobHash => exact delete_ends_iff X workerAddress blobHash choices fs

theorem worker_ends_with_status_iff_run :
    (∃ status, (workerStep referenceXxh64 "worker-0"
        (.deleteBlob "7", [{ file := { fault := .fails "Permission denied" } }])
        freshWorker).1.result = .ok status) ↔
        NothingThrows referenceXxh64 (.deleteBlob "7")
          [{ fault := .fails "Permission denied" }] freshWorker :=
  worker_ends_with_status_iff referenceXxh64 "worker-0" (.deleteBlob "7")
    [{ file := { fault := .fails "Permission denied" } }]
    freshWorker (by simp)

-- The empty name is the directory itself, which exists and has no file size.
theorem empty_name_escapes :
    ¬ ∃ status, (workerStep referenceXxh64 "worker-0" (.getBlob "", []) freshWorker).1.result =
      .ok status := by
  have thrown : (workerStep referenceXxh64 "worker-0" (.getBlob "", []) freshWorker).1.result =
      .error (.filesystemError "cannot get file size: Is a directory") := by decide +kernel
  rintro ⟨status, returned⟩
  cases thrown.symm.trans returned

end BlobStore
