import BlobStore.PathTargets
import BlobStore.ConcurrentSaves

set_option autoImplicit false

namespace BlobStore

open Effects FileSystem WorkerService

def FileCall.getsAt : FileCall → Option String
  | .openTrunc path => some path
  | .append path _ => some path
  | .read path _ _ => some path
  | .remove path => some path
  | _ => none

-- Whether a primitive creates, changes, reads or removes its file. What exists and how
-- long it is can be asked without; the directory that is made is always the same one.
def FileCall.getsThrough : FileCall → FileChoice → FileSystem → Bool
  | .openTrunc path, choice, fs => (fileSem (.openTrunc path) choice fs).1
  | .append path chunk, choice, fs => (fileSem (.append path chunk) choice fs).1
  | .read path _ _, _, fs => (fs.content path).isSome
  | .remove path, choice, fs =>
      match (fileSem (.remove path) choice fs).1 with
      | .ok removed => removed
      | .error _ => false
  | _, _, _ => false

def touched (call : FileCall) (choice : FileChoice) (fs : FileSystem) : List Location :=
  if call.getsThrough choice fs then (call.getsAt.bind fs.resolve).toList else []

def noteTouched : WorkerCall → WorkerChoice → FileSystem → List Location → List Location
  | .file call, choice, fs, seen => seen ++ touched call choice.file fs
  | _, _, _, seen => seen

def touches (X : Xxh64) (workerAddress : String) (op : WorkerOp) (choices : List WorkerChoice)
    (fs : FileSystem) : List Location :=
  (exec (watched noteTouched workerSem) (op.program X workerAddress).run choices (fs, [])).2.2.2

def InBlobs (cwd location : Location) : Prop := location.dropLast = cwd ++ ["blobs"]

def WorkerOp.path : WorkerOp → String
  | .saveBlob messages => joinPath "blobs" (firstName messages)
  | .getBlob blobHash => joinPath "blobs" blobHash
  | .deleteBlob blobHash => "blobs/" ++ blobHash

-- Where its path leads, the operation cannot get at anything: it has to go through
-- that place as through a directory.
def WorkerOp.Refused (cwd : Location) (op : WorkerOp) : Prop :=
  match op with
  | .deleteBlob _ => endsInDot op.path = true ∨
      ∃ place ∈ goesThrough cwd op.path, leadsTo cwd op.path <+: place ∧ leadsTo cwd op.path ≠ place
  | _ => ∃ place ∈ (cwd ++ ["blobs"]) :: goesThrough cwd op.path, leadsTo cwd op.path <+: place

def StaysInBlobs (cwd : Location) (op : WorkerOp) : Prop := InBlobs cwd (leadsTo cwd op.path) ∨ op.Refused cwd

def WorkerOp.opens : WorkerOp → Prop
  | .deleteBlob _ => False
  | _ => True

instance (cwd location : Location) : Decidable (InBlobs cwd location) := inferInstanceAs (Decidable (_ = _))

instance (cwd : Location) : (op : WorkerOp) → Decidable (op.Refused cwd)
  | .saveBlob _ => inferInstanceAs (Decidable (∃ place ∈ _, _))
  | .getBlob _ => inferInstanceAs (Decidable (∃ place ∈ _, _))
  | .deleteBlob _ => inferInstanceAs (Decidable (_ ∨ ∃ place ∈ _, _))

instance (cwd : Location) (op : WorkerOp) : Decidable (StaysInBlobs cwd op) :=
  inferInstanceAs (Decidable (_ ∨ _))

theorem touched_resolves {call : FileCall} {choice : FileChoice} {fs : FileSystem}
    {location : Location} (member : location ∈ touched call choice fs) :
    ∃ path, call.getsAt = some path ∧ fs.resolve path = some location := by
  rw [touched] at member
  split at member
  · exact Option.bind_eq_some_iff.mp (Option.mem_toList.mp member)
  · cases member

-- The contract of a program that gets at one path only.
def onPath (path : String) : Contract FileCall FileReply Unit :=
  fun call post ghost => (∀ other, call.getsAt = some other → other = path) ∧ ∀ reply, post reply ghost

-- That of one which the path keeps out: it does not open the file, or not remove it.
def keptOut (path : String) (opens : Prop) : Contract FileCall FileReply Bool
  | .createDirectories made, post, _ =>
      made = "blobs" ∧ (∀ what, post (.error what) false) ∧ post (.ok ()) true
  | .openTrunc other, post, made => other = path ∧ opens ∧ made = true ∧ post false made
  | .fileExists _, post, made => ∀ reply, post reply made
  | .fileSize other, post, made => other = path ∧ opens ∧ made = true ∧ ∀ what, post (.error what) made
  | .remove other, post, made => other = path ∧ ¬ opens ∧ ∀ reply, reply ≠ .ok true → post reply made
  | _, _, _ => False

-- And that of one which gets at the path when everything works.
def getsThere (path : String) (opens : Prop) : Contract FileCall FileReply Bool
  | _, post, true => ∀ reply, post reply true
  | .createDirectories made, post, false => made = "blobs" ∧ opens ∧ post (.ok ()) false
  | .fileExists other, post, false => other = path ∧ post (.ok true) false
  | .fileSize other, post, false => other = path ∧ opens ∧ post (.ok 1) false
  | .openRead other, post, false => other = path ∧ opens ∧ post true false
  | .openTrunc other, post, false => other = path ∧ opens ∧ post true true
  | .read other _ _, post, false => other = path ∧ opens ∧ ∀ reply, post reply true
  | .remove other, post, false => other = path ∧ ∀ reply, post reply true
  | _, _, false => False

def withFiles {τ : Type} (files : Contract FileCall FileReply τ) : Contract WorkerCall WorkerReply τ
  | .file call, post, ghost => files call post ghost
  | .write _, post, ghost => ∀ reply, post reply ghost
  | .notifyBlobSaved _, post, ghost => ∀ reply, post reply ghost

theorem meets_on_worker_files {τ α : Type} {files : Contract FileCall FileReply τ} (program : FileM α)
    (post : Except Thrown α → τ → Prop) (ghost : τ) :
    meets (withFiles files) (onWorkerFiles program).run post ghost ↔ meets files program.run post ghost :=
  meets_inline workerFile program.run post ghost

theorem file_cwd (call : FileCall) (choice : FileChoice) (fs : FileSystem) :
    (fileSem call choice fs).2.cwd = fs.cwd := by
  have change := file_change call choice fs
  generalize (fileSem call choice fs).2 = after at change ⊢
  cases change with
  | kept => rfl
  | made _ cwd grown => exact cwd
  | wrote location bytes touches free => rfl
  | removed location touches bare => rfl

theorem keeps_on_path (cwd : Location) (path : String) :
    Keeps (watched noteTouched workerSem) (fun _ => True)
      (fun state _ => state.1.cwd = cwd ∧ ∀ location ∈ state.2, location = leadsTo cwd path)
        (withFiles (onPath path)) := by
  intro call post state ghost choice related _ met
  obtain ⟨here, only⟩ := related
  cases call with
  | write chunk => exact ⟨ghost, ⟨here, only⟩, met _⟩
  | notifyBlobSaved request => exact ⟨ghost, ⟨here, only⟩, met _⟩
  | file call =>
      refine ⟨ghost, ⟨(file_cwd call choice.file state.1).trans here, ?_⟩, met.2 _⟩
      intro location member
      cases List.mem_append.mp member with
      | inl earlier => exact only location earlier
      | inr now =>
          obtain ⟨other, gets, resolved⟩ := touched_resolves now
          obtain rfl := met.1 other gets
          exact here ▸ ((resolve_iff state.1 other location).mp resolved).2

section OnPath

variable {path : String}

theorem on_path_quiet (call : FileCall) (quiet : call.getsAt = none)
    (post : FileReply call → Unit → Prop) (ghost : Unit) :
    onPath path call post ghost ↔ ∀ reply, post reply ghost := by
  simp [onPath, quiet]

theorem on_path_at (call : FileCall) (gets : call.getsAt = some path)
    (post : FileReply call → Unit → Prop) (ghost : Unit) :
    onPath path call post ghost ↔ ∀ reply, post reply ghost := by
  simp [onPath, gets]

theorem on_path_append (size : Nat) (chunk : Bytes) (post : Except Thrown BlobFile → Unit → Prop)
    (ghost : Unit) (appended : ∀ size, post (.ok ⟨path, size⟩) ghost)
    (thrown : ∀ error, post (.error error) ghost) :
    meets (onPath path) ((⟨path, size⟩ : BlobFile).appendChunk chunk).run post ghost := by
  rw [BlobFile.appendChunk, appendTo, meets_run_bind, meets_run_perform, on_path_at _ rfl]
  intro isOpen
  cases isOpen with
  | false => exact thrown _
  | true => exact appended _

theorem on_path_receive_messages (X : Xxh64) (messages : List SaveBlobRequest) (hash : String)
    (named : hash ≠ "") (size : Nat) (hasher : BlobHasher X)
    (post : Except Thrown (Receiving X) → Unit → Prop) (ghost : Unit)
    (received : ∀ size hasher, post (.ok ⟨hash, some ⟨path, size⟩, hasher⟩) ghost)
    (thrown : ∀ error, post (.error error) ghost) :
    meets (onPath path) (receiveMessages X messages ⟨hash, some ⟨path, size⟩, hasher⟩).run post ghost := by
  induction messages generalizing size hasher with
  | nil => exact received size hasher
  | cons request rest ih =>
      rw [receive_message X request rest hash named, meets_run_bind]
      refine on_path_append size request.chunkData _ ghost ?_ thrown
      exact fun size => ih size _

theorem on_path_open (name : String) (post : Except Thrown BlobFile → Unit → Prop) (ghost : Unit)
    (opened : ∀ size, post (.ok ⟨joinPath "blobs" name, size⟩) ghost)
    (thrown : ∀ error, post (.error error) ghost) :
    meets (onPath (joinPath "blobs" name)) (BlobFile.create name).run post ghost := by
  rw [BlobFile.create, createDirectories, meets_run_bind, meets_run_bind,
    meets_run_perform, on_path_quiet _ rfl]
  rintro (error | made)
  · exact thrown _
  · dsimp only [orThrow]
    rw [meets_run_pure, openTruncate, meets_run_bind, meets_run_perform, on_path_at _ rfl]
    intro isOpen
    cases isOpen with
    | false => exact thrown _
    | true => exact opened 0

theorem on_path_receive (X : Xxh64) (first : SaveBlobRequest) (rest : List SaveBlobRequest)
    (named : first.blobHash ≠ "") (post : Except Thrown (Except Status String) → Unit → Prop)
    (ghost : Unit) (ends : ∀ outcome, post outcome ghost) :
    meets (onPath (joinPath "blobs" first.blobHash))
      (receiveBlobFromFrontend X (first :: rest)).run post ghost := by
  rw [receiveBlobFromFrontend, meets_catch, receive_first_message, bind_assoc, meets_run_bind]
  refine on_path_open first.blobHash _ ghost (fun size => ?_) (fun error => by cases error <;> exact ends _)
  dsimp only
  rw [bind_assoc, meets_run_bind]
  refine on_path_append size first.chunkData _ ghost (fun size => ?_)
    (fun error => by cases error <;> exact ends _)
  dsimp only
  rw [meets_run_bind]
  refine on_path_receive_messages X rest first.blobHash named size _ _ ghost (fun size hasher => ?_)
    (fun error => by cases error <;> exact ends _)
  dsimp only
  split
  · rw [BlobFile.remove, removeFile, bind_assoc, meets_run_bind, meets_run_perform, on_path_at _ rfl]
    rintro (error | removed) <;> exact ends _
  · exact ends _

theorem on_path_load (name : String) (post : Except Thrown BlobFile → Unit → Prop) (ghost : Unit)
    (loaded : ∀ size, post (.ok ⟨joinPath "blobs" name, size⟩) ghost)
    (thrown : ∀ error, post (.error error) ghost) :
    meets (onPath path) (BlobFile.load name).run post ghost := by
  rw [BlobFile.load, createDirectories, meets_run_bind, meets_run_bind,
    meets_run_perform, on_path_quiet _ rfl]
  rintro (error | made)
  · exact thrown _
  · dsimp only [orThrow]
    rw [meets_run_pure, fileExists, meets_run_bind, meets_run_bind, meets_run_perform, on_path_quiet _ rfl]
    rintro (error | ⟨_ | _⟩)
    · exact thrown _
    · exact thrown _
    · dsimp only [orThrow]
      rw [meets_run_pure]
      dsimp only
      rw [if_pos rfl, meets_run_bind, fileSizeOf, meets_run_bind, meets_run_perform, on_path_quiet _ rfl]
      rintro (error | size)
      · exact thrown _
      · exact loaded size

theorem on_path_deref (it : ChunkIterator) (there : it.filePath = path)
    (post : Except Thrown (Bytes × ChunkIterator) → Unit → Prop) (ghost : Unit)
    (read : ∀ chunk next, next.increment.filePath = path → post (.ok (chunk, next)) ghost)
    (thrown : ∀ error, post (.error error) ghost) :
    meets (onPath path) (it.deref MAX_CHUNK_SIZE).run post ghost := by
  have reads : ∀ opened : ChunkIterator, opened.filePath = path →
      ∀ position, opened.fileStream = some position →
      meets (onPath path) (opened.readChunk MAX_CHUNK_SIZE >>= fun read =>
        pure (read.1, { read.2 with currentChunk := some read.1 }) :
          FileM (Bytes × ChunkIterator)).run post ghost := by
    intro opened same position stream
    rw [ChunkIterator.readChunk, stream]
    dsimp only
    rw [meets_run_bind, readAt, meets_run_bind, meets_run_perform]
    refine (on_path_at _ (by rw [FileCall.getsAt, same]) _ ghost).mpr (fun buffer => ?_)
    dsimp only
    split
    · exact thrown _
    · exact read _ _ same
  have derefs : ∀ opened : ChunkIterator, opened.filePath = path →
      ∀ position, opened.fileStream = some position →
      meets (onPath path) (opened.deref MAX_CHUNK_SIZE).run post ghost := by
    intro opened same position stream
    rw [ChunkIterator.deref, ChunkIterator.createStreamIfNecessary, stream]
    dsimp only
    rw [pure_bind]
    cases opened.currentChunk with
    | some chunk => exact read _ _ same
    | none => exact reads opened same position stream
  cases stream : it.fileStream with
  | some position => exact derefs it there position stream
  | none =>
      rw [ChunkIterator.deref, ChunkIterator.createStreamIfNecessary, stream]
      dsimp only
      rw [bind_assoc, openForReading, meets_run_bind, meets_run_perform, on_path_quiet _ rfl]
      rintro (_ | _)
      · exact thrown _
      · exact derefs { it with fileStream := some it.nextByte } there it.nextByte rfl

theorem op_on_path (X : Xxh64) (workerAddress : String) (op : WorkerOp)
    (named : ∀ messages, op = .saveBlob messages → firstName messages ≠ "") :
    meets (withFiles (onPath op.path)) (op.program X workerAddress).run (fun _ _ => True) () := by
  cases op with
  | saveBlob messages =>
      match messages, named messages rfl with
      | first :: rest, named =>
      rw [WorkerOp.program, WorkerService.saveBlob, meets_run_bind, meets_on_worker_files]
      refine on_path_receive X first rest named _ () ?_
      rintro (error | ⟨status | hash⟩)
      · trivial
      · trivial
      · dsimp only
        rw [masterNotifyBlobSaved, meets_run_bind, meets_run_perform]
        rintro (status | notified) <;> trivial
  | getBlob blobHash =>
      rw [WorkerOp.program, WorkerService.getBlob, sendBlobToFrontend, meets_catch,
        meets_run_bind, meets_on_worker_files]
      refine on_path_load blobHash _ () (fun size => ?_) (fun error => by cases error <;> trivial)
      dsimp only
      rw [meets_run_bind, BlobFile.forEach]
      refine meets_for_chunks _ _ _ (fun it => it.filePath = joinPath "blobs" blobHash)
        (fun _ => True) _ () ?_ ?_ ?_ ?_ ?_ _ _ _ _
        rfl trivial
      · intro it next there read thrown
        exact (meets_on_worker_files _ _ ()).mpr (on_path_deref it there next () read thrown)
      · intro _ chunk next _ more left
        rw [meets_run_bind, writeResponse, meets_run_perform]
        rintro (_ | _)
        · exact left _ _ trivial
        · exact more () trivial
      · exact fun _ _ => trivial
      · exact fun thrown => by cases thrown <;> trivial
      · exact fun _ _ _ ends => ends _ _ (fun thrown => by cases thrown <;> trivial)
  | deleteBlob blobHash =>
      rw [WorkerOp.program, WorkerService.deleteBlob, meets_on_worker_files, deleteFile,
        meets_catch, fileExists, bind_assoc, meets_run_bind, meets_run_perform, on_path_quiet _ rfl]
      rintro (error | ⟨_ | _⟩)
      · trivial
      · trivial
      · dsimp only [orThrow]
        rw [pure_bind, if_pos rfl, removeFile, bind_assoc, meets_run_bind, meets_run_perform]
        refine (on_path_at _ rfl _ ()).mpr ?_
        rintro (error | removed) <;> trivial

end OnPath

section KeptOut

variable {cwd : Location} {path : String}

theorem refused_directory {fs : FileSystem} (tree : FileTree fs) (here : fs.cwd = cwd)
    (blobs : HasBlobs fs)
    (refused : ∃ place ∈ (cwd ++ ["blobs"]) :: goesThrough cwd path, leadsTo cwd path <+: place)
    (location : Location) (resolved : fs.resolve path = some location) :
    fs.node location = some .directory := by
  subst here
  obtain ⟨through, rfl⟩ := (resolve_iff fs path location).mp resolved
  obtain ⟨place, member, above⟩ := refused
  cases List.mem_cons.mp member with
  | inl directory => exact tree_directory tree blobs (directory ▸ above)
  | inr passed => exact tree_directory tree (through place passed) above

theorem refused_open {fs : FileSystem}
    (refused : ∀ location, fs.resolve path = some location → fs.node location = some .directory)
    (choice : FileChoice) : fileSem (.openTrunc path) choice fs = (false, fs) := by
  simp only [fileSem]
  cases choice.failure with
  | some reason => rfl
  | none =>
      cases resolved : fs.resolve path with
      | none => rfl
      | some location => exact if_pos (refused location resolved)

theorem refused_size {fs : FileSystem}
    (refused : ∀ location, fs.resolve path = some location → fs.node location = some .directory)
    (choice : FileChoice) : ∃ what, fileSem (.fileSize path) choice fs = (.error what, fs) := by
  simp only [fileSem, FileSystem.lookup]
  cases choice.failure with
  | some reason => exact ⟨reason, rfl⟩
  | none =>
      cases resolved : fs.resolve path with
      | none => exact ⟨_, rfl⟩
      | some location => exact ⟨_, by rw [Option.bind_some, refused location resolved]⟩

theorem unremoved_remove {fs : FileSystem} {choice : FileChoice}
    (unremoved : (fileSem (.remove path) choice fs).1 ≠ .ok true) :
    (fileSem (.remove path) choice fs).2 = fs ∧ touched (.remove path) choice fs = [] := by
  constructor
  · revert unremoved
    simp only [fileSem]
    split
    · exact fun _ => rfl
    · exact fun _ => rfl
    · split
      · exact fun _ => rfl
      · exact fun removed => absurd rfl removed
      · split
        · exact fun _ => rfl
        · split
          · exact fun _ => rfl
          · exact fun removed => absurd rfl removed
  · have stopped : FileCall.getsThrough (.remove path) choice fs = false := by
      rw [FileCall.getsThrough]
      cases result : (fileSem (.remove path) choice fs).1 with
      | error what => rfl
      | ok removed => cases removed with
        | false => rfl
        | true => exact absurd result unremoved
    rw [touched, stopped]
    rfl

theorem keeps_kept_out (opens : Prop) (ok : WorkerChoice → Prop)
    (refused : opens → ∃ place ∈ (cwd ++ ["blobs"]) :: goesThrough cwd path,
      leadsTo cwd path <+: place)
    (unremoved : ¬ opens → ∀ fs choice, FileTree fs → fs.cwd = cwd →
      (fileSem (.remove path) choice fs).1 ≠ .ok true) :
    Keeps (watched noteTouched workerSem) ok
      (fun state made => FileTree state.1 ∧ state.1.cwd = cwd ∧
        (made = true → HasBlobs state.1) ∧ state.2 = [])
      (withFiles (keptOut path opens)) := by
  rintro call post ⟨fs, seen⟩ made choice ⟨tree, here, blobs, rfl⟩ _ met
  dsimp only at tree here blobs
  cases call with
  | write chunk => exact ⟨made, ⟨tree, here, blobs, rfl⟩, met _⟩
  | notifyBlobSaved request => exact ⟨made, ⟨tree, here, blobs, rfl⟩, met _⟩
  | file call =>
  have stays : (fileSem call choice.file fs).2 = fs → touched call choice.file fs = [] →
      ∀ now : Bool, (now = true → HasBlobs fs) →
      let after := (watched noteTouched workerSem (.file call) choice (fs, [])).2
      FileTree after.1 ∧ after.1.cwd = cwd ∧ (now = true → HasBlobs after.1) ∧ after.2 = [] := by
    intro kept untouched now directory
    simp only [watched, workerSem, noteTouched, kept, untouched]
    exact ⟨tree, here, directory, rfl⟩
  cases call with
  | append other chunk => exact met.elim
  | openRead other => exact met.elim
  | read other offset count => exact met.elim
  | space other => exact met.elim
  | createDirectories other =>
      obtain ⟨rfl, failed, created⟩ := met
      rcases create_blobs_cases choice.file fs with ⟨-, what, result⟩ | ⟨-, base, base_made, result⟩
      · refine ⟨false, stays (by rw [result]) rfl false (fun open_ => by cases open_), ?_⟩
        simpa only [watched, workerSem, result] using failed what
      · refine ⟨true, ⟨?_, ?_, fun _ => ?_, rfl⟩, ?_⟩
        all_goals simp only [watched, workerSem, result]
        · exact tree_make_blobs tree base_made
        · exact (make_directories_grows _ _ _ _ base_made).1.trans here
        · exact blobs_made base_made
        · exact created
  | fileExists other =>
      have kept : (fileSem (.fileExists other) choice.file fs).2 = fs := by
        simp only [fileSem]
        cases choice.file.failure <;> rfl
      exact ⟨made, stays kept rfl made blobs, met _⟩
  | openTrunc other =>
      obtain ⟨rfl, opening, rfl, closed⟩ := met
      have result := refused_open (refused_directory tree here (blobs rfl) (refused opening)) choice.file
      refine ⟨true, stays (by rw [result]) ?_ true blobs, ?_⟩
      · rw [touched, FileCall.getsThrough, result]
        rfl
      · simpa only [watched, workerSem, result] using closed
  | fileSize other =>
      obtain ⟨rfl, opening, rfl, failed⟩ := met
      obtain ⟨what, result⟩ :=
        refused_size (refused_directory tree here (blobs rfl) (refused opening)) choice.file
      refine ⟨true, stays (by rw [result]) rfl true blobs, ?_⟩
      simpa only [watched, workerSem, result] using failed what
  | remove other =>
      obtain ⟨rfl, closed, failed⟩ := met
      have fails := unremoved closed fs choice.file tree here
      obtain ⟨kept, untouched⟩ := unremoved_remove fails
      exact ⟨made, stays kept untouched made blobs, failed _ fails⟩

theorem kept_out_create (X : Xxh64) (first : SaveBlobRequest) (rest : List SaveBlobRequest) (made : Bool)
    (post : Except Thrown (Except Status String) → Bool → Prop) (ends : ∀ outcome made, post outcome made) :
    meets (keptOut (joinPath "blobs" first.blobHash) True)
      (receiveBlobFromFrontend X (first :: rest)).run post made := by
  rw [receiveBlobFromFrontend, meets_catch, receive_first_message, bind_assoc, meets_run_bind,
    BlobFile.create, createDirectories, meets_run_bind, meets_run_bind, meets_run_perform]
  refine ⟨rfl, fun what => ends _ _, ?_⟩
  dsimp only [orThrow]
  rw [meets_run_pure, openTruncate, meets_run_bind, meets_run_perform]
  exact ⟨rfl, trivial, rfl, ends _ _⟩

theorem kept_out_load (name : String) (made : Bool) (post : Except Thrown BlobFile → Bool → Prop)
    (thrown : ∀ error made, post (.error error) made) :
    meets (keptOut (joinPath "blobs" name) True) (BlobFile.load name).run post made := by
  rw [BlobFile.load, createDirectories, meets_run_bind, meets_run_bind, meets_run_perform]
  refine ⟨rfl, fun what => thrown _ _, ?_⟩
  dsimp only [orThrow]
  rw [meets_run_pure, fileExists, meets_run_bind, meets_run_bind, meets_run_perform]
  rintro (error | ⟨_ | _⟩)
  · exact thrown _ _
  · exact thrown _ _
  · dsimp only [orThrow]
    rw [meets_run_pure]
    dsimp only
    rw [if_pos rfl, meets_run_bind, fileSizeOf, meets_run_bind, meets_run_perform]
    exact ⟨rfl, trivial, rfl, fun what => thrown _ _⟩

theorem op_kept_out (X : Xxh64) (workerAddress : String) (op : WorkerOp) :
    meets (withFiles (keptOut op.path op.opens))
      (op.program X workerAddress).run (fun _ _ => True) false := by
  cases op with
  | saveBlob messages =>
      rw [WorkerOp.program, WorkerService.saveBlob, meets_run_bind, meets_on_worker_files]
      cases messages with
      | nil =>
          rw [receiveBlobFromFrontend, meets_catch, receiveMessages, pure_bind]
          dsimp only
          split
          · trivial
          · exact fun reply => by cases reply <;> trivial
      | cons first rest =>
          refine kept_out_create X first rest false _ ?_
          rintro (error | ⟨status | hash⟩) made
          · trivial
          · trivial
          · dsimp only
            rw [masterNotifyBlobSaved, meets_run_bind, meets_run_perform]
            rintro (status | notified) <;> trivial
  | getBlob blobHash =>
      rw [WorkerOp.program, WorkerService.getBlob, sendBlobToFrontend, meets_catch,
        meets_run_bind, meets_on_worker_files]
      refine kept_out_load blobHash false _ (fun error made => by cases error <;> trivial)
  | deleteBlob blobHash =>
      rw [WorkerOp.program, WorkerService.deleteBlob, meets_on_worker_files, deleteFile,
        meets_catch, fileExists, bind_assoc, meets_run_bind, meets_run_perform]
      rintro (error | ⟨_ | _⟩)
      · trivial
      · trivial
      · dsimp only [orThrow]
        rw [pure_bind, if_pos rfl, removeFile, bind_assoc, meets_run_bind, meets_run_perform]
        refine ⟨rfl, id, ?_⟩
        rintro (error | removed) _ <;> trivial

theorem refused_remove {fs : FileSystem} (tree : FileTree fs) (blobHash : String) (choice : FileChoice)
    (refused : (WorkerOp.deleteBlob blobHash).Refused fs.cwd) :
    (fileSem (.remove (WorkerOp.deleteBlob blobHash).path) choice fs).1 ≠ .ok true := by
  generalize named : (WorkerOp.deleteBlob blobHash).path = path
  rw [WorkerOp.Refused, named] at refused
  simp only [fileSem]
  cases choice.failure with
  | some reason => exact fun same => by cases same
  | none =>
      cases resolved : fs.resolve path with
      | none => exact fun same => by cases same
      | some location =>
          obtain ⟨through, rfl⟩ := (resolve_iff fs path location).mp resolved
          have directory : fs.node (leadsTo fs.cwd path) = some .directory := by
            cases refused with
            | inl dot =>
                obtain ⟨place, member, above⟩ :=
                  target_of_dot (origin fs.cwd path) (components path) (of_decide_eq_true dot)
                cases List.mem_cons.mp member with
                | inl first => exact tree_directory tree (tree_origin tree path) (first ▸ above)
                | inr passed => exact tree_directory tree (through place passed) above
            | inr inside =>
                obtain ⟨place, passed, above, -⟩ := inside
                exact tree_directory tree (through place passed) above
          dsimp only
          rw [directory]
          dsimp only
          cases refused with
          | inl dot =>
              rw [if_pos dot]
              exact fun same => by cases same
          | inr inside =>
              obtain ⟨place, passed, above, different⟩ := inside
              rw [if_pos (tree_has_children tree (through place passed) above different)]
              split <;> exact fun same => by cases same

end KeptOut

theorem unnamed_leads (cwd : Location) : leadsTo cwd (joinPath "blobs" "") = cwd ++ ["blobs"] := by
  have relative : isAbsolute (joinPath "blobs" "") = false := by decide
  have parts : components (joinPath "blobs" "") = ["blobs", ""] := by decide
  rw [leadsTo, origin, relative, parts]
  rfl

theorem stays_in_blobs (X : Xxh64) (workerAddress : String) (op : WorkerOp) (fs : FileSystem)
    (tree : FileTree fs) (stays : StaysInBlobs fs.cwd op) (choices : List WorkerChoice) :
    ∀ location ∈ touches X workerAddress op choices fs, InBlobs fs.cwd location := by
  cases stays with
  | inl inside =>
      have named : ∀ messages, op = .saveBlob messages → firstName messages ≠ "" := by
        rintro messages rfl unnamed
        rw [WorkerOp.path, unnamed, unnamed_leads, InBlobs, List.dropLast_concat] at inside
        exact absurd inside (by simp)
      have kept := wp_of_meets (keeps_on_path fs.cwd op.path) _ _ (fs, []) () ⟨rfl, by simp⟩
        (op_on_path X workerAddress op named)
      obtain ⟨-, ⟨-, only⟩, -⟩ :=
        wp_sound (fun _ => True) _ _ choices (fs, []) trivial (fun _ _ => trivial) kept
      exact fun location member => only location member ▸ inside
  | inr refused =>
      have opening : op.opens → ∃ place ∈ (fs.cwd ++ ["blobs"]) :: goesThrough fs.cwd op.path,
          leadsTo fs.cwd op.path <+: place := by
        intro opens
        cases op with
        | saveBlob messages => exact refused
        | getBlob blobHash => exact refused
        | deleteBlob blobHash => exact opens.elim
      have unremoved : ¬ op.opens → ∀ after choice, FileTree after → after.cwd = fs.cwd →
          (fileSem (.remove op.path) choice after).1 ≠ .ok true := by
        intro closed after choice kept same
        cases op with
        | saveBlob messages => exact absurd trivial closed
        | getBlob blobHash => exact absurd trivial closed
        | deleteBlob blobHash => exact refused_remove kept blobHash choice (same ▸ refused)
      have kept := wp_of_meets (keeps_kept_out op.opens (fun _ => True) opening unremoved) _ _ (fs, []) false
        ⟨tree, rfl, nofun, rfl⟩ (op_kept_out X workerAddress op)
      obtain ⟨-, ⟨-, -, -, none⟩, -⟩ :=
        wp_sound (fun _ => True) _ _ choices (fs, []) trivial (fun _ _ => trivial) kept
      intro location member
      rw [touches, none] at member
      cases member

section GetsThere

variable {path : String} {base : FileSystem} {location : Location} {opens : Prop}

theorem noted_grows {log : List Location} (call : WorkerCall) (choice : WorkerChoice)
    (fs : FileSystem) (member : location ∈ log) :
    location ∈ noteTouched call choice fs log := by
  cases call with
  | file call => exact List.mem_append_left _ member
  | write chunk => exact member
  | notifyBlobSaved request => exact member

theorem gets_there_settled (path : String) (opens : Prop) (call : FileCall)
    (post : FileReply call → Bool → Prop) :
    getsThere path opens call post true ↔ ∀ reply, post reply true := by
  cases call <;> exact Iff.rfl

theorem worker_settled (path : String) (opens : Prop) (call : WorkerCall)
    (post : WorkerReply call → Bool → Prop) :
    withFiles (getsThere path opens) call post true ↔ ∀ reply, post reply true := by
  cases call with
  | file call => exact gets_there_settled path opens call post
  | write chunk => exact Iff.rfl
  | notifyBlobSaved request => exact Iff.rfl

def Reached (location : Location) (base : FileSystem) (state : FileSystem × List Location) : Bool → Prop
  | true => location ∈ state.2
  | false => state.1 = base

theorem keeps_gets_there (resolved : base.resolve path = some location)
    (there : base.node location ≠ none) (blobs : opens → HasBlobs base)
    (file : opens → base.node location = some (.file [0]))
    (removes : ∀ choice, FileHealthy choice → (fileSem (.remove path) choice base).1 = .ok true) :
    Keeps (watched noteTouched workerSem) WorkerHealthy (Reached location base)
      (withFiles (getsThere path opens)) := by
  rintro call post ⟨fs, log⟩ (_ | _) choice related healthy met
  · obtain rfl : fs = base := related
    have works := healthy_failure healthy
    have touches : ∀ call : FileCall, call.getsAt = some path → call.getsThrough choice.file fs = true →
        location ∈ noteTouched (.file call) choice fs log := by
      intro call gets through
      refine List.mem_append_right _ ?_
      rw [touched, if_pos through, gets, Option.bind_some, resolved]
      exact List.mem_singleton.mpr rfl
    have stays : ∀ (call : FileCall) (reply : FileReply call), fileSem call choice.file fs = (reply, fs) →
        Reached location fs (watched noteTouched workerSem (.file call) choice (fs, log)).2 false := by
      intro call reply result
      rw [watched, workerSem, result]
      rfl
    have found : fs.lookup path = fs.node location := by rw [FileSystem.lookup, resolved, Option.bind_some]
    have present : (fs.lookup path).isSome = true := by
      rw [found]
      exact Option.isSome_iff_ne_none.mpr there
    cases call with
    | write chunk => exact ⟨false, rfl, met _⟩
    | notifyBlobSaved request => exact ⟨false, rfl, met _⟩
    | file call =>
    cases call with
    | append other chunk => exact met.elim
    | space other => exact met.elim
    | createDirectories other =>
        obtain ⟨rfl, opening, made⟩ := met
        have result := blobs_stay works (blobs opening)
        refine ⟨false, stays _ _ result, ?_⟩
        simpa only [watched, workerSem, result] using made
    | fileExists other =>
        obtain ⟨rfl, exists_⟩ := met
        have result : fileSem (.fileExists other) choice.file fs = (.ok true, fs) := by
          simp only [fileSem, works, present]
        refine ⟨false, stays _ _ result, ?_⟩
        simpa only [watched, workerSem, result] using exists_
    | fileSize other =>
        obtain ⟨rfl, opening, sized⟩ := met
        have result : fileSem (.fileSize other) choice.file fs = (.ok 1, fs) := by
          simp only [fileSem, works, found, file opening]
          rfl
        refine ⟨false, stays _ _ result, ?_⟩
        simpa only [watched, workerSem, result] using sized
    | openRead other =>
        obtain ⟨rfl, opening, opened⟩ := met
        refine ⟨false, rfl, ?_⟩
        have result : (fileSem (.openRead other) choice.file fs).1 = true := by
          rw [fileSem, works, present]; rfl
        simpa only [watched, workerSem, result] using opened
    | openTrunc other =>
        obtain ⟨rfl, opening, opened⟩ := met
        have result : (fileSem (.openTrunc other) choice.file fs).1 = true := by
          simp only [fileSem, works, resolved]
          rw [if_neg (by simp [file opening])]
        refine ⟨true, touches _ rfl result, ?_⟩
        simpa only [watched, workerSem, result] using opened
    | read other offset count =>
        obtain ⟨rfl, opening, any⟩ := met
        refine ⟨true, touches _ rfl ?_, any _⟩
        rw [FileCall.getsThrough, content_of_resolve fs other location resolved, file opening]
        rfl
    | remove other =>
        obtain ⟨rfl, any⟩ := met
        refine ⟨true, touches _ rfl ?_, any _⟩
        rw [FileCall.getsThrough, removes choice.file healthy]
  · exact ⟨true, noted_grows call choice fs related, (worker_settled path opens call post).mp met _⟩

theorem gets_there_monotone (path : String) (opens : Prop) : (getsThere path opens).Monotone := by
  rintro call first second (_ | _) weaker met
  · cases call with
    | createDirectories made => exact ⟨met.1, met.2.1, weaker _ _ met.2.2⟩
    | openTrunc other => exact ⟨met.1, met.2.1, weaker _ _ met.2.2⟩
    | append other chunk => exact met
    | fileExists other => exact ⟨met.1, weaker _ _ met.2⟩
    | fileSize other => exact ⟨met.1, met.2.1, weaker _ _ met.2.2⟩
    | remove other => exact ⟨met.1, fun reply => weaker _ _ (met.2 reply)⟩
    | openRead other => exact ⟨met.1, met.2.1, weaker _ _ met.2.2⟩
    | read other offset count => exact ⟨met.1, met.2.1, fun reply => weaker _ _ (met.2.2 reply)⟩
    | space other => exact met
  · rw [gets_there_settled] at met ⊢
    exact fun reply => weaker reply true (met reply)

theorem with_files_monotone {τ : Type} {files : Contract FileCall FileReply τ}
    (monotone : files.Monotone) : (withFiles files).Monotone := by
  intro call first second ghost weaker met
  cases call with
  | file call => exact monotone call first second ghost weaker met
  | write chunk => exact fun reply => weaker reply ghost (met reply)
  | notifyBlobSaved request => exact fun reply => weaker reply ghost (met reply)

-- From where it has got at the path, a program may go on as it likes.
def GetsThere {α : Type} (path : String) (opens : Prop) (program : FileM α) : Prop :=
  meets (getsThere path opens) program.run (fun _ seen => seen = true) false

def WorkerGetsThere {α : Type} (path : String) (opens : Prop) (program : WorkerM α) : Prop :=
  meets (withFiles (getsThere path opens)) program.run (fun _ seen => seen = true) false

theorem gets_there_bind {α β : Type} (path : String) (opens : Prop) (program : FileM α) (rest : α → FileM β)
    (gets : GetsThere path opens program) : GetsThere path opens (program >>= rest) := by
  rw [GetsThere, ExceptT.run_bind]
  exact meets_bind_settled (gets_there_monotone path opens) true
    (fun call after => (gets_there_settled path opens call after).mpr)
    program.run _ false gets

theorem gets_there_catch {α : Type} (path : String) (opens : Prop) (program : FileM α)
    (handler : String → FileM α) (gets : GetsThere path opens program) :
    GetsThere path opens (catchFileSystemException program handler) :=
  meets_bind_settled (gets_there_monotone path opens) true
    (fun call after => (gets_there_settled path opens call after).mpr)
    program.run _ false gets

theorem worker_gets_there_catch {α : Type} (path : String) (opens : Prop) (program : WorkerM α)
    (handler : String → WorkerM α) (gets : WorkerGetsThere path opens program) :
    WorkerGetsThere path opens (catchFileSystemException program handler) :=
  meets_bind_settled (with_files_monotone (gets_there_monotone path opens)) true
    (fun call after => (worker_settled path opens call after).mpr) program.run _ false gets

theorem worker_gets_there_bind {α β : Type} (path : String) (opens : Prop) (program : WorkerM α)
    (rest : α → WorkerM β) (gets : WorkerGetsThere path opens program) :
    WorkerGetsThere path opens (program >>= rest) := by
  rw [WorkerGetsThere, ExceptT.run_bind]
  exact meets_bind_settled (with_files_monotone (gets_there_monotone path opens)) true
    (fun call after => (worker_settled path opens call after).mpr) program.run _ false gets

theorem gets_there_create (name : String) :
    GetsThere (joinPath "blobs" name) True (BlobFile.create name) := by
  rw [GetsThere, BlobFile.create, createDirectories, meets_run_bind, meets_run_bind, meets_run_perform]
  refine ⟨rfl, trivial, ?_⟩
  dsimp only [orThrow]
  rw [meets_run_pure, openTruncate, meets_run_bind, meets_run_perform]
  exact ⟨rfl, trivial, rfl⟩

theorem gets_there_load (name : String) (post : Except Thrown BlobFile → Bool → Prop)
    (loaded : post (.ok ⟨joinPath "blobs" name, 1⟩) false) :
    meets (getsThere (joinPath "blobs" name) True) (BlobFile.load name).run post false := by
  rw [BlobFile.load, createDirectories, meets_run_bind, meets_run_bind, meets_run_perform]
  refine ⟨rfl, trivial, ?_⟩
  dsimp only [orThrow]
  rw [meets_run_pure, fileExists, meets_run_bind, meets_run_bind, meets_run_perform]
  refine ⟨rfl, ?_⟩
  dsimp only [orThrow]
  rw [meets_run_pure]
  dsimp only
  rw [if_pos rfl, meets_run_bind, fileSizeOf, meets_run_bind, meets_run_perform]
  exact ⟨rfl, trivial, loaded⟩

theorem gets_there_deref (name : String) :
    GetsThere (joinPath "blobs" name) True
      ((⟨joinPath "blobs" name, 1⟩ : BlobFile).begin.deref MAX_CHUNK_SIZE) := by
  rw [GetsThere, BlobFile.begin, ChunkIterator.deref, ChunkIterator.createStreamIfNecessary]
  dsimp only
  rw [bind_assoc, openForReading, meets_run_bind, meets_run_perform]
  refine ⟨rfl, trivial, ?_⟩
  dsimp only
  rw [if_pos rfl, pure_bind, ChunkIterator.readChunk]
  dsimp only
  rw [bind_assoc]
  exact gets_there_bind _ _ (readAt _ _ _) _ ⟨rfl, trivial, fun buffer => rfl⟩

theorem op_gets_there (X : Xxh64) (workerAddress : String) (op : WorkerOp)
    (some_ : ∀ messages, op = .saveBlob messages → messages ≠ []) :
    WorkerGetsThere op.path op.opens (op.program X workerAddress) := by
  cases op with
  | saveBlob messages =>
      match messages, some_ messages rfl with
      | first :: rest, _ =>
      refine worker_gets_there_bind _ _ (onWorkerFiles (receiveBlobFromFrontend X (first :: rest))) _ ?_
      refine (meets_on_worker_files _ _ false).mpr (gets_there_catch _ _ _ _ (gets_there_bind _ _ _ _ ?_))
      rw [receive_first_message]
      exact gets_there_bind _ _ _ _ (gets_there_create first.blobHash)
  | getBlob blobHash =>
      refine worker_gets_there_catch _ _ _ _ ?_
      rw [WorkerGetsThere, meets_run_bind, meets_on_worker_files]
      refine gets_there_load blobHash _ (worker_gets_there_bind _ _ _ _ ?_)
      rw [BlobFile.forEach, forChunks, if_pos (show (BlobFile.begin ⟨_, 1⟩).differs _ = true from rfl)]
      refine worker_gets_there_bind _ _ _ _ ?_
      rw [WorkerGetsThere, meets_run_attempt]
      exact (meets_on_worker_files _ _ false).mpr (gets_there_deref blobHash)
  | deleteBlob blobHash =>
      refine (meets_on_worker_files _ _ false).mpr (gets_there_catch _ _ _ _ ?_)
      rw [GetsThere, fileExists, bind_assoc, meets_run_bind, meets_run_perform]
      refine ⟨rfl, ?_⟩
      dsimp only [orThrow]
      rw [pure_bind, if_pos rfl]
      refine gets_there_bind _ _ (removeFile _) _ ⟨rfl, ?_⟩
      rintro (error | removed) <;> rfl

theorem touches_reached (X : Xxh64) (workerAddress : String) (op : WorkerOp)
    (some_ : ∀ messages, op = .saveBlob messages → messages ≠ [])
    (keeps : Keeps (watched noteTouched workerSem) WorkerHealthy (Reached location base)
      (withFiles (getsThere op.path op.opens))) :
    location ∈ touches X workerAddress op [] base := by
  have met := wp_of_meets keeps _ _ (base, []) false rfl (op_gets_there X workerAddress op some_)
  obtain ⟨seen, reached, rfl⟩ := wp_sound WorkerHealthy _ _ [] (base, []) rfl (by simp) met
  exact reached

end GetsThere

section Outside

variable {cwd : Location} {path : String}

theorem target_above (cwd : Location) (path : String) :
    ∃ place ∈ cwd :: goesThrough cwd path, (leadsTo cwd path).dropLast <+: place := by
  obtain ⟨place, member, above⟩ := target_parent (origin cwd path) (components path)
  cases List.mem_cons.mp member with
  | inr passed => exact ⟨place, List.mem_cons_of_mem _ passed, above⟩
  | inl first =>
      refine ⟨cwd, List.mem_cons_self, above.trans ?_⟩
      subst first
      unfold origin
      split
      · exact List.nil_prefix
      · exact List.prefix_rfl

theorem resolves_in {fs : FileSystem} (here : fs.cwd = cwd)
    (through : ∀ place ∈ goesThrough cwd path, fs.node place = some .directory) :
    fs.resolve path = some (leadsTo cwd path) := by
  subst here
  exact (resolve_iff fs path _).mpr ⟨through, rfl⟩

-- A file at the end of the path and nothing else but directories.
def fileAt (cwd : Location) (path : String) : FileSystem :=
  (directoriesTo cwd ((cwd ++ ["blobs"]) :: goesThrough cwd path)).put (leadsTo cwd path) (.file [0])

theorem file_at_open
    (free : ∀ place ∈ (cwd ++ ["blobs"]) :: goesThrough cwd path, ¬ leadsTo cwd path <+: place) :
    FileTree (fileAt cwd path) ∧ (fileAt cwd path).cwd = cwd ∧ HasBlobs (fileAt cwd path) ∧
      (fileAt cwd path).resolve path = some (leadsTo cwd path) := by
  have nodes := directories_to_node cwd
  have here : (fileAt cwd path).cwd = cwd := directories_to_cwd _ _
  have directory : ∀ place ∈ (cwd ++ ["blobs"]) :: goesThrough cwd path,
      (fileAt cwd path).node place = some .directory := by
    intro place member
    have different : place ≠ leadsTo cwd path := fun same => free place member (same ▸ List.prefix_rfl)
    rw [fileAt, node_put, if_neg different, nodes, if_pos]
    exact ⟨place, List.mem_cons_of_mem _ member, List.prefix_rfl⟩
  refine ⟨?_, here, ?_, ?_⟩
  · refine tree_put (directories_to_tree _ _) _ _ ?_ ?_
    · rw [nodes, if_neg]
      · exact nofun
      · rintro ⟨place, member, above⟩
        cases List.mem_cons.mp member with
        | inl first => exact free _ List.mem_cons_self (above.trans (first ▸ List.prefix_append _ _))
        | inr further => exact free place further above
    · rw [nodes, if_pos]
      obtain ⟨place, member, above⟩ := target_above cwd path
      refine ⟨place, ?_, above⟩
      cases List.mem_cons.mp member with
      | inl first => exact first ▸ List.mem_cons_self
      | inr passing => exact List.mem_cons_of_mem _ (List.mem_cons_of_mem _ passing)
  · rw [HasBlobs, here]
    exact directory _ List.mem_cons_self
  · exact resolves_in here (fun place member => directory place (List.mem_cons_of_mem _ member))

-- An empty directory there.
def directoryAt (cwd : Location) (path : String) : FileSystem :=
  directoriesTo cwd (leadsTo cwd path :: goesThrough cwd path)

theorem through_blobs (cwd : Location) (blobHash : String) :
    cwd ++ ["blobs"] ∈ goesThrough cwd ("blobs/" ++ blobHash) := by
  have relative : isAbsolute ("blobs/" ++ blobHash) = false := by simp [isAbsolute, String.toList_append]
  have letters : ("blobs/" ++ blobHash).toList.takeWhile (· ≠ Char.ofNat 0) =
      ['b', 'l', 'o', 'b', 's'] ++ '/' :: blobHash.toList.takeWhile (· ≠ Char.ofNat 0) := by
    rw [String.toList_append]
    rfl
  have plain : ∀ character ∈ ['b', 'l', 'o', 'b', 's'], (character == '/') = false := by simp
  rw [goesThrough, origin, relative, components, letters, List.splitOn_eq_splitOnP,
    List.splitOnP_append_cons_of_forall_mem plain '/' (by decide)]
  cases split : List.splitOnP (fun character => character == '/')
    (blobHash.toList.takeWhile (· ≠ Char.ofNat 0)) with
  | nil => exact absurd split (List.splitOnP_ne_nil _ _)
  | cons first rest => simp [passes]

theorem directory_at_removed (dotless : endsInDot path = false)
    (last : ∀ place ∈ goesThrough cwd path, leadsTo cwd path <+: place → leadsTo cwd path = place)
    (blobs : cwd ++ ["blobs"] ∈ goesThrough cwd path) :
    (directoryAt cwd path).resolve path = some (leadsTo cwd path) ∧
      (directoryAt cwd path).node (leadsTo cwd path) = some .directory ∧
      ∀ choice, FileHealthy choice → (fileSem (.remove path) choice (directoryAt cwd path)).1 = .ok true := by
  have nodes : ∀ location, (directoryAt cwd path).node location = _ := fun location =>
    directories_to_node cwd location (leadsTo cwd path :: goesThrough cwd path)
  have directory : ∀ place ∈ leadsTo cwd path :: goesThrough cwd path,
      (directoryAt cwd path).node place = some .directory := by
    intro place member
    rw [nodes, if_pos ⟨place, List.mem_cons_of_mem _ member, List.prefix_rfl⟩]
  have resolved : (directoryAt cwd path).resolve path = some (leadsTo cwd path) :=
    resolves_in (directories_to_cwd _ _) (fun place member => directory place (List.mem_cons_of_mem _ member))
  have empty : (directoryAt cwd path).hasChildren (leadsTo cwd path) = false := by
    rw [hasChildren, decide_eq_false_iff_not]
    rintro ⟨child, key, nonempty, parent⟩
    have below : leadsTo cwd path <+: child := parent ▸ List.dropLast_prefix child
    have longer : (leadsTo cwd path).length < child.length := by
      rw [← parent, List.length_dropLast]
      have := List.length_pos_iff.mpr nonempty
      omega
    obtain ⟨place, member, above⟩ : ∃ place ∈ cwd :: leadsTo cwd path :: goesThrough cwd path,
        child <+: place := by
      by_contra nowhere
      obtain ⟨node, there⟩ := Option.isSome_iff_exists.mp (Finmap.lookup_isSome.mpr (Finmap.mem_keys.mp key))
      have absent := nodes child
      rw [if_neg nowhere] at absent
      cases there.symm.trans absent
    have length := above.length_le
    rcases List.mem_cons.mp member with rfl | later
    · have inside := last _ blobs ((below.trans above).trans (List.prefix_append _ _))
      have := congrArg List.length inside
      rw [List.length_append, List.length_singleton] at this
      omega
    · rcases List.mem_cons.mp later with rfl | passed
      · omega
      · have := congrArg List.length (last place passed (below.trans above))
        omega
  refine ⟨resolved, directory _ List.mem_cons_self, ?_⟩
  intro choice healthy
  simp only [fileSem, healthy_failure healthy, resolved, directory _ List.mem_cons_self, dotless,
    empty, Bool.false_eq_true, if_false]

end Outside

theorem gets_out (X : Xxh64) (workerAddress : String) (op : WorkerOp)
    (cwd : Location) (free : ¬ op.Refused cwd) :
    ∃ fs, FileTree fs ∧ fs.cwd = cwd ∧ leadsTo cwd op.path ∈ touches X workerAddress op [] fs := by
  have nonempty : ∀ messages, op = .saveBlob messages → messages ≠ [] := by
    rintro messages rfl rfl
    refine free ⟨cwd ++ ["blobs"], List.mem_cons_self, ?_⟩
    rw [show (WorkerOp.saveBlob []).path = joinPath "blobs" "" from rfl, unnamed_leads]
  have opening : op.opens →
      (∀ place ∈ (cwd ++ ["blobs"]) :: goesThrough cwd op.path, ¬ leadsTo cwd op.path <+: place) →
      ∃ fs, FileTree fs ∧ fs.cwd = cwd ∧ leadsTo cwd op.path ∈ touches X workerAddress op [] fs := by
    intro opens outside
    obtain ⟨tree, here, blobs, resolved⟩ := file_at_open outside
    have there : (fileAt cwd op.path).node (leadsTo cwd op.path) = some (.file [0]) := by
      rw [fileAt, node_put, if_pos rfl]
    refine ⟨fileAt cwd op.path, tree, here, touches_reached X workerAddress op nonempty ?_⟩
    refine keeps_gets_there resolved (by simp [there]) (fun _ => blobs) (fun _ => there) ?_
    intro choice healthy
    simp only [fileSem, healthy_failure healthy, resolved, there]
  cases op with
  | saveBlob messages => exact opening trivial (fun place member above => free ⟨place, member, above⟩)
  | getBlob blobHash => exact opening trivial (fun place member above => free ⟨place, member, above⟩)
  | deleteBlob blobHash =>
      obtain ⟨dotless, last⟩ := not_or.mp free
      have ends : ∀ place ∈ goesThrough cwd (WorkerOp.deleteBlob blobHash).path,
          leadsTo cwd (WorkerOp.deleteBlob blobHash).path <+: place →
            leadsTo cwd (WorkerOp.deleteBlob blobHash).path = place := by
        intro place member above
        by_contra different
        exact last ⟨place, member, above, different⟩
      obtain ⟨resolved, there, removes⟩ :=
        directory_at_removed (Bool.eq_false_iff.mpr dotless) ends (through_blobs cwd blobHash)
      refine ⟨directoryAt cwd (WorkerOp.deleteBlob blobHash).path, directories_to_tree _ _,
        directories_to_cwd _ _, ?_⟩
      refine touches_reached X workerAddress _ nonempty ?_
      exact keeps_gets_there resolved (by simp [there]) False.elim False.elim removes

theorem touches_only_blobs_iff (X : Xxh64) (workerAddress : String) (op : WorkerOp) (cwd : Location) :
    (∀ fs, FileTree fs → fs.cwd = cwd →
      ∀ choices, ∀ location ∈ touches X workerAddress op choices fs, InBlobs cwd location) ↔
      StaysInBlobs cwd op := by
  constructor
  · intro only
    by_contra out
    obtain ⟨elsewhere, free⟩ := not_or.mp out
    obtain ⟨fs, tree, here, reached⟩ := gets_out X workerAddress op cwd free
    exact elsewhere (only fs tree here [] _ reached)
  · rintro stays fs tree rfl choices
    exact stays_in_blobs X workerAddress op fs tree stays choices

theorem get_blob_reads_passwd :
    let fs := fileAt ["app"] "/etc/passwd"
    let step := workerStep referenceXxh64 "worker-0" (.getBlob "/etc/passwd", []) fs
    (touches referenceXxh64 "worker-0" (.getBlob "/etc/passwd") [] fs = [["etc", "passwd"]] ∧
      sentChunks step.1.log = [[0]]) ∧
      ¬ ∀ fs, FileTree fs → fs.cwd = ["app"] → ∀ choices,
        ∀ location ∈ touches referenceXxh64 "worker-0" (.getBlob "/etc/passwd") choices fs,
            InBlobs ["app"] location := by
  intro fs step
  have reads : touches referenceXxh64 "worker-0" (.getBlob "/etc/passwd") [] fs =
      [["etc", "passwd"]] := by decide +kernel
  refine ⟨⟨reads, by decide +kernel⟩, fun only => ?_⟩
  obtain ⟨tree, here, -⟩ :=
    file_at_open (show ∀ place ∈ (["app"] ++ ["blobs"]) :: goesThrough ["app"] "/etc/passwd",
    ¬ leadsTo ["app"] "/etc/passwd" <+: place by decide +kernel)
  have outside := only fs tree here [] ["etc", "passwd"] (by rw [reads]; exact List.mem_singleton.mpr rfl)
  exact absurd outside (by decide)

-- Even the empty name is not harmless: with it the directory itself is deleted, once it is empty.
example : ¬ StaysInBlobs ["app"] (.saveBlob [⟨"../config", [0]⟩]) ∧ ¬ StaysInBlobs ["app"] (.deleteBlob "") ∧
    StaysInBlobs ["app"] (.deleteBlob "..") ∧
      StaysInBlobs ["app"] (.saveBlob [⟨"17241709254077376921", []⟩]) := by decide +kernel

end BlobStore
