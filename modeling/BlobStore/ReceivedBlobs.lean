import BlobStore.BlobRules

set_option autoImplicit false

namespace BlobStore

open Effects FileSystem WorkerService

def choiceAt (choices : List FileChoice) (index : Nat) : FileChoice := (choices.drop index).headD default

def chunksOf (messages : List SaveBlobRequest) : List Bytes := messages.map SaveBlobRequest.chunkData

-- What the appends leave in the file, chunk by chunk, until one of them cannot open it.
def landed : List Bytes → List FileChoice → Bytes
  | [], _ => []
  | chunk :: rest, choices =>
      match (choices.headD default).failure with
      | some _ => []
      | none => (choices.headD default).written chunk ++ landed rest choices.tail

def allOpened : List Bytes → List FileChoice → Bool
  | [], _ => true
  | _ :: rest, choices => (choices.headD default).failure.isNone && allOpened rest choices.tail

theorem exec_append_chunk (file : BlobFile) (chunk : Bytes) (choices : List FileChoice)
    (base : FileSystem) (location : Location) (old : Bytes)
    (resolved : base.resolve file.filePath = some location)
    (free : base.node location ≠ some .directory) :
    exec fileSem (file.appendChunk chunk).run choices (base.put location (.file old)) =
      match (choices.headD default).failure with
      | some _ =>
          (.error (.fileSystemException
            ("Failed to open file " ++ file.filePath ++ " for appending")), choices.tail,
          base.put location (.file old))
      | none => (.ok ⟨file.filePath, (file.fileSize + chunk.length) % 2 ^ 64⟩, choices.tail,
          base.put location (.file (old ++ (choices.headD default).written chunk))) := by
  have there : (base.put location (.file old)).resolve file.filePath = some location :=
    (resolve_put_file base location old free _).trans resolved
  rw [BlobFile.appendChunk, appendTo, exec_run_perform]
  simp only [fileSem, there, node_put]
  cases (choices.headD default).failure with
  | some reason => rfl
  | none =>
      simp only [put_put]
      rfl

theorem exec_receive_messages (X : Xxh64) (messages : List SaveBlobRequest) (hash : String)
    (named : hash ≠ "") (path : String) (size : Nat) (hasher : BlobHasher X)
    (choices : List FileChoice) (base : FileSystem) (location : Location) (old : Bytes)
    (resolved : base.resolve path = some location) (free : base.node location ≠ some .directory) :
    let chunks := chunksOf messages
    let outcome := exec fileSem (receiveMessages X messages ⟨hash, some ⟨path, size⟩, hasher⟩).run choices
      (base.put location (.file old))
    outcome.2.2 = base.put location (.file (old ++ landed chunks choices)) ∧
      if allOpened chunks choices then
        outcome.2.1 = choices.drop messages.length ∧
          ∃ last, outcome.1 = .ok ⟨hash, some ⟨path, last⟩, hasher.addChunks chunks⟩
      else ∃ what, outcome.1 = .error (.fileSystemException what) := by
  induction messages generalizing size hasher choices old with
  | nil => exact ⟨by rw [chunksOf, List.map_nil, landed, List.append_nil]; rfl, rfl, size, rfl⟩
  | cons request rest ih =>
      have appended :=
        exec_append_chunk ⟨path, size⟩ request.chunkData choices base location old resolved free
      simp only [chunksOf, List.map_cons, landed, allOpened]
      rw [receive_message X request rest hash named]
      cases failure : (choices.headD default).failure with
      | some reason =>
          rw [failure] at appended
          rw [exec_run_bind_error _ _ _ _ _ (congrArg Prod.fst appended), appended, List.append_nil]
          exact ⟨rfl, _, rfl⟩
      | none =>
          rw [failure] at appended
          rw [exec_run_bind_ok _ _ _ _ _ (congrArg Prod.fst appended), appended]
          have later := ih ((size + request.chunkData.length) % 2 ^ 64)
            (hasher.addChunk request.chunkData) choices.tail
            (old ++ (choices.headD default).written request.chunkData)
          dsimp only at later
          rw [List.append_assoc] at later
          simpa [BlobHasher.addChunks, chunksOf] using later

-- What BlobFile::New needs: its two primitives work, and the name leads to a place
-- where a file can be.
def DirectoryMade (choices : List FileChoice) (fs base : FileSystem) : Prop :=
  (choiceAt choices 0).failure = none ∧ makeBlobs fs = some base

structure TargetOpened (name : String) (choices : List FileChoice) (fs base : FileSystem)
    (location : Location) : Prop where
  made : (choiceAt choices 0).failure = none
  opened : (choiceAt choices 1).failure = none
  opens : Opens fs name base location

inductive CreateOutcome (name : String) (choices : List FileChoice) (fs : FileSystem) :
    Except Thrown BlobFile × List FileChoice × FileSystem → Prop where
  | noDirectory (what : String) (rest : List FileChoice) (unmade : ¬ ∃ base, DirectoryMade choices fs base) :
      CreateOutcome name choices fs (.error (.filesystemError what), rest, fs)
  | notOpened (what : String) (rest : List FileChoice) (base : FileSystem)
      (made : DirectoryMade choices fs base)
      (closed : ¬ ∃ base location, TargetOpened name choices fs base location) :
      CreateOutcome name choices fs (.error (.fileSystemException what), rest, base)
  | opened (base : FileSystem) (location : Location) (target : TargetOpened name choices fs base location) :
      CreateOutcome name choices fs
        (.ok ⟨joinPath "blobs" name, 0⟩, choices.drop 2, base.put location (.file []))

theorem exec_create_directories (choices : List FileChoice) (fs : FileSystem) :
    let outcome := exec fileSem (createDirectories "blobs").run choices fs
    (∃ base, DirectoryMade choices fs base ∧ outcome = (.ok (), choices.tail, base)) ∨
      (¬ ∃ base, DirectoryMade choices fs base) ∧
        ∃ what, outcome = (.error (.filesystemError what), choices.tail, fs) := by
  have first : (choiceAt choices 0) = choices.headD default := by rw [choiceAt, List.drop_zero]
  rw [createDirectories, exec_run_perform]
  rcases create_blobs_cases (choices.headD default) fs with
    ⟨cause, what, result⟩ | ⟨works, base, made, result⟩
  · refine .inr ⟨?_, what, by rw [result]; rfl⟩
    rintro ⟨base, works, made⟩
    rcases cause with ⟨reason, failure⟩ | unmade
    · cases (first ▸ works).symm.trans failure
    · cases made.symm.trans unmade
  · exact .inl ⟨base, ⟨first ▸ works, made⟩, by rw [result]; rfl⟩

theorem exec_open_truncate (path : String) (choices : List FileChoice) (fs : FileSystem) :
    let outcome := exec fileSem (openTruncate path).run choices fs
    (∃ location, (choices.headD default).failure = none ∧ fs.resolve path = some location ∧
      fs.node location ≠ some .directory ∧
        outcome = (.ok true, choices.tail, fs.put location (.file []))) ∨
      (¬ ∃ location, (choices.headD default).failure = none ∧ fs.resolve path = some location ∧
        fs.node location ≠ some .directory) ∧ outcome = (.ok false, choices.tail, fs) := by
  have performed : exec fileSem (openTruncate path).run choices fs =
      (.ok (fileSem (.openTrunc path) (choices.headD default) fs).1, choices.tail,
        (fileSem (.openTrunc path) (choices.headD default) fs).2) := rfl
  dsimp only
  rw [performed]
  simp only [fileSem]
  cases failure : (choices.headD default).failure with
  | some reason => exact .inr ⟨fun opens => (by cases opens.choose_spec.1), rfl⟩
  | none =>
      cases resolved : fs.resolve path with
      | none => exact .inr ⟨fun opens => (by cases opens.choose_spec.2.1), rfl⟩
      | some location =>
          by_cases directory : fs.node location = some .directory
          · refine .inr ⟨?_, by simp [directory]⟩
            rintro ⟨other, -, same, free⟩
            exact free (Option.some.inj same ▸ directory)
          · exact .inl ⟨location, rfl, rfl, directory, by simp [directory]⟩

theorem exec_create (name : String) (choices : List FileChoice) (fs : FileSystem) :
    CreateOutcome name choices fs (exec fileSem (BlobFile.create name).run choices fs) := by
  have second : choiceAt choices 1 = choices.tail.headD default := by rw [choiceAt, List.drop_one]
  have twice : choices.tail.tail = choices.drop 2 := by rw [← List.drop_one, ← List.drop_one, List.drop_drop]
  rw [BlobFile.create, show BlobFile.BLOBS_PATH = "blobs" from rfl]
  rcases exec_create_directories choices fs with ⟨base, made, directories⟩ | ⟨unmade, what, directories⟩
  · rw [exec_run_bind_ok _ _ _ _ _ (congrArg Prod.fst directories), directories]
    dsimp only
    rcases exec_open_truncate (joinPath "blobs" name) choices.tail base with
      ⟨location, works, resolved, free, opened⟩ | ⟨closed, opened⟩
    · rw [exec_run_bind_ok _ _ _ _ _ (congrArg Prod.fst opened), opened, twice]
      exact .opened base location ⟨made.1, second ▸ works, made.2, resolved, free⟩
    · rw [exec_run_bind_ok _ _ _ _ _ (congrArg Prod.fst opened), opened]
      refine .notOpened _ _ base made ?_
      rintro ⟨other, location, -, works, again, resolved, free⟩
      obtain rfl := Option.some.inj (made.2.symm.trans again)
      exact closed ⟨location, second ▸ works, resolved, free⟩
  · rw [exec_run_bind_error _ _ _ _ _ (congrArg Prod.fst directories), directories]
    exact .noDirectory what _ unmade

def cancelCaught {α : Type} : Except Thrown (Except Status α) → Except Thrown (Except Status α)
  | .error (.fileSystemException what) => .ok (.error ⟨.cancelled, what⟩)
  | other => other

theorem exec_cancel_caught {E : Type} {R : E → Type} {C σ α : Type} [Inhabited C] (sem : Sem E R C σ)
    (body : Failing E R Thrown (Except Status α)) (choices : List C) (state : σ) :
    exec sem (catchFileSystemException body (fun what => pure (.error ⟨.cancelled, what⟩))).run choices
        state =
      (cancelCaught (exec sem body.run choices state).1, (exec sem body.run choices state).2) := by
  rw [catchFileSystemException, ExceptT.run_mk, exec_bind]
  cases (exec sem body.run choices state).1 with
  | ok status => rfl
  | error thrown => cases thrown <;> rfl

theorem exec_remove_file (path : String) (choices : List FileChoice) (base : FileSystem)
    (location : Location) (bytes : Bytes) (resolved : base.resolve path = some location)
    (there : base.node location = some (.file bytes)) :
    exec fileSem (removeFile path).run choices base =
      match (choices.headD default).failure with
      | some what => (.error (.filesystemError what), choices.tail, base)
      | none => (.ok true, choices.tail, base.erase location) := by
  rw [removeFile, exec_run_perform]
  simp only [fileSem, resolved]
  cases (choices.headD default).failure with
  | some reason => rfl
  | none =>
      simp only [there]
      rfl

-- How receiving a stream of at least one message can end, with what it leaves behind.
inductive ReceiveOutcome (X : Xxh64) (first : SaveBlobRequest) (rest : List SaveBlobRequest)
    (choices : List FileChoice) (fs : FileSystem) :
    Except Thrown (Except Status String) × FileSystem → Prop where
  | noDirectory (what : String) (unmade : ¬ ∃ base, DirectoryMade choices fs base) :
      ReceiveOutcome X first rest choices fs (.error (.filesystemError what), fs)
  | notOpened (status : Status) (base : FileSystem) (made : DirectoryMade choices fs base)
      (closed : ¬ ∃ base location, TargetOpened first.blobHash choices fs base location) :
      ReceiveOutcome X first rest choices fs (.ok (.error status), base)
  | broken (status : Status) (base : FileSystem) (location : Location)
      (target : TargetOpened first.blobHash choices fs base location)
      (stopped : allOpened (chunksOf (first :: rest)) (choices.drop 2) = false) :
      ReceiveOutcome X first rest choices fs (.ok (.error status),
        base.put location (.file (landed (chunksOf (first :: rest)) (choices.drop 2))))
  | rejected (status : Status) (base : FileSystem) (location : Location)
      (target : TargetOpened first.blobHash choices fs base location)
      (whole : allOpened (chunksOf (first :: rest)) (choices.drop 2) = true)
      (mismatch : first.blobHash ≠ X.blobHash (payload (first :: rest)))
      (removed : (choiceAt choices (2 + (first :: rest).length)).failure = none) :
      ReceiveOutcome X first rest choices fs (.ok (.error status), base.erase location)
  | unremoved (what : String) (base : FileSystem) (location : Location)
      (target : TargetOpened first.blobHash choices fs base location)
      (whole : allOpened (chunksOf (first :: rest)) (choices.drop 2) = true)
      (mismatch : first.blobHash ≠ X.blobHash (payload (first :: rest)))
      (failed : (choiceAt choices (2 + (first :: rest).length)).failure ≠ none) :
      ReceiveOutcome X first rest choices fs (.error (.filesystemError what),
        base.put location (.file (landed (chunksOf (first :: rest)) (choices.drop 2))))
  | accepted (base : FileSystem) (location : Location)
      (target : TargetOpened first.blobHash choices fs base location)
      (whole : allOpened (chunksOf (first :: rest)) (choices.drop 2) = true)
      (verified : first.blobHash = X.blobHash (payload (first :: rest))) :
      ReceiveOutcome X first rest choices fs (.ok (.ok first.blobHash),
        base.put location (.file (landed (chunksOf (first :: rest)) (choices.drop 2))))

-- The path of the empty name is the directory itself.
theorem opens_named {fs base : FileSystem} {name : String} {location : Location}
    (opens : Opens fs name base location) : name ≠ "" := by
  rintro rfl
  obtain ⟨made, resolved, free⟩ := opens
  have blobs := blobs_made made
  have reached : base.resolve (joinPath "blobs" "") = some (base.cwd ++ ["blobs"]) := by
    have relative : isAbsolute (joinPath "blobs" "") = false := by decide
    have parts : components (joinPath "blobs" "") = ["blobs", ""] := by decide
    rw [resolve, relative, parts]
    simp [walk, show base.node (base.cwd ++ ["blobs"]) = some .directory from blobs]
  obtain rfl := Option.some.inj (resolved.symm.trans reached)
  exact free blobs

-- The file is removed, or the call of remove throws and it stays.
theorem exec_refused {X : Xxh64} {first : SaveBlobRequest} {rest : List SaveBlobRequest}
    {choices : List FileChoice} {fs base : FileSystem} {location : Location}
    (target : TargetOpened first.blobHash choices fs base location)
    (whole : allOpened (chunksOf (first :: rest)) (choices.drop 2) = true)
    (mismatch : first.blobHash ≠ X.blobHash (payload (first :: rest))) (status : Status) :
    let outcome := exec fileSem (removeFile (joinPath "blobs" first.blobHash) >>=
      fun _ => pure (.error status)).run
      (choices.drop (2 + (first :: rest).length))
        (base.put location (.file (landed (chunksOf (first :: rest)) (choices.drop 2))))
    ReceiveOutcome X first rest choices fs (cancelCaught outcome.1, outcome.2.2) := by
  obtain ⟨-, resolved, free⟩ := target.opens
  have removes :=
    exec_remove_file (joinPath "blobs" first.blobHash) (choices.drop (2 + (first :: rest).length))
    (base.put location (.file (landed (chunksOf (first :: rest)) (choices.drop 2)))) location _
    ((resolve_put_file base location _ free _).trans resolved) (by rw [node_put, if_pos rfl])
  dsimp only
  cases failure : (choiceAt choices (2 + (first :: rest).length)).failure with
  | some reason =>
      rw [show ((choices.drop (2 + (first :: rest).length)).headD default).failure =
        some reason from failure] at removes
      rw [exec_run_bind_error _ _ _ _ _ (congrArg Prod.fst removes), removes]
      exact .unremoved reason base location target whole mismatch
        (by rw [failure]; exact Option.some_ne_none reason)
  | none =>
      rw [show ((choices.drop (2 + (first :: rest).length)).headD default).failure =
        none from failure] at removes
      rw [exec_run_bind_ok _ _ _ _ _ (congrArg Prod.fst removes), removes, erase_put]
      exact .rejected _ base location target whole mismatch failure

theorem exec_receive_blob (X : Xxh64) (first : SaveBlobRequest) (rest : List SaveBlobRequest)
    (choices : List FileChoice) (fs : FileSystem) :
    let outcome := exec fileSem (receiveBlobFromFrontend X (first :: rest)).run choices fs
    ReceiveOutcome X first rest choices fs (outcome.1, outcome.2.2) := by
  have create := exec_create first.blobHash choices fs
  dsimp only
  rw [receiveBlobFromFrontend, exec_cancel_caught, receive_first_message, bind_assoc]
  generalize same : exec fileSem (BlobFile.create first.blobHash).run choices fs = created at create
  cases create with
  | noDirectory what _ unmade =>
      rw [exec_run_bind_error _ _ _ _ _ (congrArg Prod.fst same), same]
      exact .noDirectory what unmade
  | notOpened what _ base made closed =>
      rw [exec_run_bind_error _ _ _ _ _ (congrArg Prod.fst same), same]
      exact .notOpened _ base made closed
  | opened base location target =>
      obtain ⟨made, resolved, free⟩ := target.opens
      have named := opens_named target.opens
      obtain ⟨files, result⟩ := exec_receive_messages X (first :: rest) first.blobHash named
        (joinPath "blobs" first.blobHash) 0
        BlobHasher.new (choices.drop 2) base location [] resolved free
      rw [exec_run_bind_ok _ _ _ _ _ (congrArg Prod.fst same), same]
      rw [← receive_message X first rest first.blobHash named]
      rw [List.nil_append] at files
      cases whole : allOpened (chunksOf (first :: rest)) (choices.drop 2) with
      | false =>
          rw [whole] at result
          obtain ⟨what, failed⟩ := result
          rw [exec_run_bind_error _ _ _ _ _ failed, files]
          exact .broken _ base location target whole
      | true =>
          rw [whole, if_pos rfl] at result
          obtain ⟨remaining, last, succeeds⟩ := result
          rw [exec_run_bind_ok _ _ _ _ _ succeeds, files, remaining, List.drop_drop]
          have hashed : ((BlobHasher.new : BlobHasher X).addChunks (chunksOf (first :: rest))).finalize =
            X.blobHash (payload (first :: rest)) := BlobHasher.finalize_chunks _
          dsimp only
          rw [hashed]
          by_cases verified : first.blobHash = X.blobHash (payload (first :: rest))
          · rw [if_neg (fun different => different verified)]
            exact .accepted base location target whole verified
          · rw [if_pos verified, BlobFile.remove]
            exact exec_refused target whole verified _

end BlobStore
