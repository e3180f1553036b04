import BlobStore.ReceivedBlobs
import BlobStore.WorkerRuns
import BlobStore.Cluster

set_option autoImplicit false

namespace BlobStore

open Effects FileSystem WorkerService

theorem target_unique {name : String} {choices : List FileChoice} {fs one two : FileSystem}
    {first second : Location} (former : TargetOpened name choices fs one first)
    (latter : TargetOpened name choices fs two second) :
    one = two ∧ first = second := opens_unique former.opens latter.opens

theorem make_blobs_cases {fs base : FileSystem} (made : makeBlobs fs = some base) :
    base = fs ∨ fs.node (fs.cwd ++ ["blobs"]) = none ∧ base = fs.put (fs.cwd ++ ["blobs"]) .directory := by
  cases there : fs.node (fs.cwd ++ ["blobs"]) with
  | none =>
      refine .inr ⟨rfl, ?_⟩
      have step : makeBlobs fs = some (fs.put (fs.cwd ++ ["blobs"]) .directory) := by
        simp [makeBlobs, makeDirectories, there]
      exact Option.some.inj (made.symm.trans step)
  | some node =>
      cases node with
      | directory => exact .inl (Option.some.inj (made.symm.trans (make_blobs fs there)))
      | file bytes => simp [makeBlobs, makeDirectories, there] at made

-- Making the directory adds no file and loses none.
theorem made_file_iff {fs base : FileSystem} (made : makeBlobs fs = some base)
    (location : Location) (bytes : Bytes) :
    base.node location = some (.file bytes) ↔ fs.node location = some (.file bytes) := by
  rcases make_blobs_cases made with rfl | ⟨absent, rfl⟩
  · exact Iff.rfl
  · rw [node_put]
    split
    · rename_i same
      rw [same, absent]
      simp
    · exact Iff.rfl

def KeepsBlobs (before after : FileSystem) : Prop :=
  ∀ location bytes, before.cwd ++ ["blobs"] <+: location → before.node location = some (.file bytes) →
    after.node location = some (.file bytes)

theorem keeps_put_iff {fs base : FileSystem} (made : makeBlobs fs = some base)
    (location : Location) (bytes : Bytes) :
    KeepsBlobs fs (base.put location (.file bytes)) ↔
      ∀ old, fs.cwd ++ ["blobs"] <+: location → fs.node location = some (.file old) → bytes = old := by
  constructor
  · intro keeps old inside there
    have kept := keeps location old inside there
    rw [node_put, if_pos rfl] at kept
    exact Node.file.inj (Option.some.inj kept)
  · intro same other old inside there
    rw [node_put]
    split
    · rename_i here
      rw [same old (here ▸ inside) (here ▸ there)]
    · exact (made_file_iff made other old).mpr there

theorem keeps_erase_iff {fs base : FileSystem} (made : makeBlobs fs = some base) (location : Location) :
    KeepsBlobs fs (base.erase location) ↔
      ∀ old, fs.cwd ++ ["blobs"] <+: location → fs.node location ≠ some (.file old) := by
  constructor
  · intro keeps old inside there
    have kept := keeps location old inside there
    rw [node_erase, if_pos rfl] at kept
    cases kept
  · intro free other old inside there
    rw [node_erase]
    split
    · rename_i here
      exact absurd (here ▸ there) (free old (here ▸ inside))
    · exact (made_file_iff made other old).mpr there

-- The stream does not open its target, or no file is there, or the appends stop
-- short after having written what was there.
def SparesTarget (messages : List SaveBlobRequest) (choices : List FileChoice) (fs : FileSystem) : Prop :=
  ∀ base location old, TargetOpened (firstName messages) choices fs base location →
    fs.cwd ++ ["blobs"] <+: location →
    fs.node location = some (.file old) →
    allOpened (chunksOf messages) (choices.drop 2) = false ∧ landed (chunksOf messages) (choices.drop 2) = old

theorem exec_receive_nothing (X : Xxh64) (choices : List FileChoice) (fs : FileSystem) :
    exec fileSem (receiveBlobFromFrontend X []).run choices fs =
      (.error .undefinedBehaviour, choices, fs) := by
  rw [receive_nothing]
  rfl

theorem refused_stream_keeps_blobs_iff (X : Xxh64) (messages : List SaveBlobRequest)
    (choices : List FileChoice) (fs : FileSystem) (status : Status)
    (refused : (exec fileSem (receiveBlobFromFrontend X messages).run choices fs).1 =
      .ok (.error status)) :
    KeepsBlobs fs (exec fileSem (receiveBlobFromFrontend X messages).run choices fs).2.2 ↔
      SparesTarget messages choices fs := by
  cases messages with
  | nil =>
      rw [exec_receive_nothing] at refused
      cases refused
  | cons first rest =>
      have received := exec_receive_blob X first rest choices fs
      dsimp only at received
      rw [refused] at received
      generalize (exec fileSem (receiveBlobFromFrontend X (first :: rest)).run choices fs).2.2 =
        after at received
      have only : ∀ base location, TargetOpened first.blobHash choices fs base location →
          (SparesTarget (first :: rest) choices fs ↔ ∀ old, fs.cwd ++ ["blobs"] <+: location →
            fs.node location = some (.file old) →
            allOpened (chunksOf (first :: rest)) (choices.drop 2) = false ∧
              landed (chunksOf (first :: rest)) (choices.drop 2) = old) := by
        intro base location target
        constructor
        · exact fun spares old => spares base location old target
        · intro spares other place old again
          obtain ⟨rfl, rfl⟩ := target_unique target again
          exact spares old
      cases received with
      | notOpened _ base made closed =>
          refine iff_of_true (fun location bytes _ there =>
            (made_file_iff made.2 location bytes).mpr there) ?_
          exact fun base location _ target => absurd ⟨base, location, target⟩ closed
      | broken _ base location target stopped =>
          rw [only base location target, keeps_put_iff target.opens.1]
          simp [stopped]
      | rejected _ base location target whole mismatch removed =>
          rw [only base location target, keeps_erase_iff target.opens.1]
          simp [whole]

def holdingA : FileSystem := freshWorker.put ["app", "blobs", "15154266338359012955"] (.file [97])

theorem refused_stream_keeps_blobs_iff_run :
    let messages : List SaveBlobRequest := [⟨"7", [97]⟩]
    KeepsBlobs holdingA (exec fileSem (receiveBlobFromFrontend referenceXxh64 messages).run [] holdingA).2.2 ↔
      SparesTarget messages [] holdingA :=
  refused_stream_keeps_blobs_iff referenceXxh64 [⟨"7", [97]⟩] [] holdingA
    ⟨.invalidArgument, "Blob hash mismatch."⟩
    (by decide +kernel)

-- The stream claims the name of a stored blob, brings other bytes and is refused; the
-- stored blob is gone.
theorem refused_stream_destroys_blob :
    let outcome := exec fileSem
      (receiveBlobFromFrontend referenceXxh64 [⟨"15154266338359012955", [98]⟩]).run [] holdingA
    outcome.1 = .ok (.error ⟨.invalidArgument, "Blob hash mismatch."⟩) ∧
      storedFile holdingA "15154266338359012955" = some [97] ∧
        storedFile outcome.2.2 "15154266338359012955" = none ∧
      ¬ KeepsBlobs holdingA outcome.2.2 := by
  intro outcome
  have gone : outcome.2.2.node ["app", "blobs", "15154266338359012955"] = none := by decide +kernel
  refine ⟨by decide +kernel, by decide +kernel, by decide +kernel, ?_⟩
  intro keeps
  have kept := keeps ["app", "blobs", "15154266338359012955"] [97] (by decide) (by decide +kernel)
  rw [gone] at kept
  cases kept

theorem exec_on_worker_files {α : Type} (program : FileM α) (choices : List WorkerChoice)
    (fs : FileSystem) (log : WorkerLog) :
    let part := exec fileSem program.run (choices.map WorkerChoice.file) fs
    let result := exec (observed noteWorker workerSem) (onWorkerFiles program).run choices (fs, log)
    result.1 = part.1 ∧ result.2.2 = (part.2.2, log) := by
  have parts : ∀ effect (choices : List WorkerChoice) (whole : FileSystem × WorkerLog),
      exec (observed noteWorker workerSem) (workerFile effect) choices whole =
        ((fileSem effect (choices.headD default).file whole.1).1, choices.tail,
          ((fileSem effect (choices.headD default).file whole.1).2, whole.2)) := fun _ _ _ => rfl
  have inlined :=
    exec_inline_part workerFile WorkerChoice.file Prod.fst (fun whole part => (part, whole.2)) rfl
    (fun _ _ => rfl) (fun _ _ _ => rfl) (fun _ => rfl) parts program.run choices (fs, log)
  exact ⟨inlined.1, inlined.2.2⟩

-- The handler on top: it notifies exactly when the stream was accepted, after its last
-- file primitive.
theorem save_step (X : Xxh64) (workerAddress : String) (messages : List SaveBlobRequest)
    (choices : List WorkerChoice) (fs : FileSystem) :
    let received := exec fileSem (receiveBlobFromFrontend X messages).run (choices.map WorkerChoice.file) fs
    let step := workerStep X workerAddress (.saveBlob messages, choices) fs
    step.2 = received.2.2 ∧
      match received.1 with
      | .ok (.ok hash) =>
          ∃ reply status, step.1 = ⟨.ok status, [⟨.notifyBlobSaved ⟨workerAddress, hash⟩, reply⟩]⟩
      | .ok (.error status) => step.1 = ⟨.ok (.error status), []⟩
      | .error thrown => step.1 = ⟨.error thrown, []⟩ := by
  obtain ⟨result, files⟩ := exec_on_worker_files (receiveBlobFromFrontend X messages) choices fs []
  dsimp only at result files ⊢
  rw [workerStep, WorkerOp.program, WorkerService.saveBlob]
  cases outcome : (exec fileSem (receiveBlobFromFrontend X messages).run
    (choices.map WorkerChoice.file) fs).1 with
  | error thrown =>
      rw [exec_run_bind_error _ _ _ _ _ (result.trans outcome), files]
      exact ⟨rfl, rfl⟩
  | ok received =>
      rw [exec_run_bind_ok _ _ _ _ _ (result.trans outcome), files]
      cases received with
      | error status => exact ⟨rfl, rfl⟩
      | ok hash =>
          dsimp only
          rw [masterNotifyBlobSaved, exec_run_perform]
          simp only [observed, workerSem, noteWorker, List.nil_append]
          generalize ((exec (observed noteWorker workerSem)
            (onWorkerFiles (receiveBlobFromFrontend X messages)).run choices
            (fs, [])).2.1.headD default).master = answer
          cases answer with
          | ok _ => exact ⟨rfl, _, _, rfl⟩
          | error status => exact ⟨rfl, _, _, rfl⟩

-- The file at a path, if there is one, was there before or is whole.
def LeavesWhole (path : String) (whole : Bytes) (before after : FileSystem) : Prop :=
  ∀ location bytes, after.resolve path = some location → after.node location = some (.file bytes) →
    before.node location = some (.file bytes) ∨ bytes = whole

def SavesWhole (workerAddress : String) (messages : List SaveBlobRequest) (before : FileSystem)
    (outcome : WorkerOutcome) (after : FileSystem) : Prop :=
  (∀ blobHash, Notifies ⟨workerAddress, blobHash⟩ outcome.log →
    after.content (joinPath "blobs" blobHash) = some (payload messages)) ∧
  (outcome.result ≠ .ok (.ok ()) →
    LeavesWhole (joinPath "blobs" (firstName messages)) (payload messages) before after)

-- Every byte lands; or the stream is refused for its hash and the file removed; or
-- what a call in error has written is what was there before.
def LandsAt (X : Xxh64) (messages : List SaveBlobRequest) (choices : List FileChoice)
    (fs : FileSystem) (location : Location) : Prop :=
  let written := landed (chunksOf messages) (choices.drop 2)
  let whole := allOpened (chunksOf messages) (choices.drop 2) = true
  let mismatch := firstName messages ≠ X.blobHash (payload messages)
  written = payload messages ∨ whole ∧ mismatch ∧ (choiceAt choices (2 + messages.length)).failure = none ∨
    (whole → mismatch) ∧ fs.node location = some (.file written)

def LandsWhole (X : Xxh64) (messages : List SaveBlobRequest) (choices : List FileChoice)
    (fs : FileSystem) : Prop :=
  ∀ base location, TargetOpened (firstName messages) choices fs base location →
    LandsAt X messages choices fs location

theorem lands_whole_iff {X : Xxh64} {first : SaveBlobRequest} {rest : List SaveBlobRequest}
    {choices : List FileChoice} {fs base : FileSystem} {location : Location}
    (target : TargetOpened first.blobHash choices fs base location) :
    LandsWhole X (first :: rest) choices fs ↔ LandsAt X (first :: rest) choices fs location := by
  constructor
  · exact fun lands => lands base location target
  · intro lands other place again
    obtain ⟨rfl, rfl⟩ := target_unique target again
    exact lands

theorem leaves_put_iff {fs base : FileSystem} {name : String} {location : Location}
    (opens : Opens fs name base location) (written whole : Bytes) :
    LeavesWhole (joinPath "blobs" name) whole fs (base.put location (.file written)) ↔
      written = whole ∨ fs.node location = some (.file written) := by
  obtain ⟨made, resolved, free⟩ := opens
  have there := (resolve_put_file base location written free (joinPath "blobs" name)).trans resolved
  constructor
  · intro leaves
    exact (leaves location written there (by rw [node_put, if_pos rfl])).symm
  · intro kept place bytes reached found
    obtain rfl := Option.some.inj (there.symm.trans reached)
    rw [node_put, if_pos rfl] at found
    obtain rfl := Node.file.inj (Option.some.inj found)
    exact kept.symm

theorem leaves_erase {fs base : FileSystem} {name : String} {location : Location}
    (opens : Opens fs name base location) (whole : Bytes) :
    LeavesWhole (joinPath "blobs" name) whole fs (base.erase location) := by
  obtain ⟨-, resolved, free⟩ := opens
  have there : (base.erase location).resolve (joinPath "blobs" name) = some location := by
    rw [← resolved]
    refine resolve_congr (base.erase location) base rfl ?_ _
    intro other
    rw [node_erase]
    by_cases same : other = location
    · subst same
      simp [free]
    · simp [same]
  intro place bytes reached found
  obtain rfl := Option.some.inj (there.symm.trans reached)
  rw [node_erase, if_pos rfl] at found
  cases found

theorem content_put {fs base : FileSystem} {name : String} {location : Location}
    (opens : Opens fs name base location) (bytes : Bytes) :
    (base.put location (.file bytes)).content (joinPath "blobs" name) = some bytes := by
  obtain ⟨-, resolved, free⟩ := opens
  rw [content_put_file base location bytes free, if_pos resolved]

theorem saves_whole_silent {workerAddress : String} {messages : List SaveBlobRequest}
    {before after : FileSystem} {result : Except Thrown (Except Status Unit)}
    (failed : result ≠ .ok (.ok ())) :
    SavesWhole workerAddress messages before ⟨result, []⟩ after ↔
      LeavesWhole (joinPath "blobs" (firstName messages)) (payload messages) before after := by
  constructor
  · exact fun saves => saves.2 failed
  · exact fun leaves => ⟨fun _ notified => absurd notified.choose_spec List.not_mem_nil, fun _ => leaves⟩

theorem saves_whole_reported {workerAddress blobHash : String} {messages : List SaveBlobRequest}
    {before after : FileSystem} {result : Except Thrown (Except Status Unit)}
    {reply : Except Status Unit} :
    SavesWhole workerAddress messages before
      ⟨result, [⟨.notifyBlobSaved ⟨workerAddress, blobHash⟩, reply⟩]⟩ after ↔
      after.content (joinPath "blobs" blobHash) = some (payload messages) ∧
        (result ≠ .ok (.ok ()) → LeavesWhole (joinPath "blobs" (firstName messages))
          (payload messages) before after) := by
  refine and_congr_left' ⟨fun kept => kept blobHash ⟨reply, List.mem_singleton.mpr rfl⟩, ?_⟩
  rintro stored name ⟨other, member⟩
  have same := List.mem_singleton.mp member
  injection same with call
  injection call with request
  injection request with _ named
  rw [named]
  exact stored

theorem saves_whole_iff (X : Xxh64) (workerAddress : String) (messages : List SaveBlobRequest)
    (some_ : messages ≠ []) (choices : List WorkerChoice) (fs : FileSystem) :
    let step := workerStep X workerAddress (.saveBlob messages, choices) fs
    SavesWhole workerAddress messages fs step.1 step.2 ↔
      LandsWhole X messages (choices.map WorkerChoice.file) fs := by
  match messages, some_ with
  | first :: rest, _ =>
  obtain ⟨files, reported⟩ := save_step X workerAddress (first :: rest) choices fs
  have received := exec_receive_blob X first rest (choices.map WorkerChoice.file) fs
  dsimp only at files reported received ⊢
  rw [files]
  generalize choices.map WorkerChoice.file = given at reported received ⊢
  generalize exec fileSem (receiveBlobFromFrontend X (first :: rest)).run given fs = outcome
    at received reported ⊢
  obtain ⟨result, remaining, after⟩ := outcome
  dsimp only at received reported ⊢
  cases received with
  | noDirectory what unmade =>
      rw [reported, saves_whole_silent (by simp)]
      refine iff_of_true (fun location bytes _ there => .inl there) ?_
      exact fun base location target => absurd ⟨base, target.made, target.opens.1⟩ unmade
  | notOpened status base made closed =>
      dsimp only at reported
      rw [reported, saves_whole_silent (by simp)]
      refine iff_of_true (fun location bytes _ there =>
        .inl ((made_file_iff made.2 location bytes).mp there)) ?_
      exact fun base location target => absurd ⟨base, location, target⟩ closed
  | broken status base location target stopped =>
      dsimp only at reported
      rw [reported, saves_whole_silent (by simp), lands_whole_iff target]
      refine (leaves_put_iff target.opens _ _).trans ?_
      simp [LandsAt, stopped]
  | rejected status base location target whole mismatch removed =>
      dsimp only at reported
      rw [reported, saves_whole_silent (by simp), lands_whole_iff target]
      refine iff_of_true (leaves_erase target.opens _) ?_
      exact .inr (.inl ⟨whole, mismatch, removed⟩)
  | unremoved what base location target whole mismatch failed =>
      rw [reported, saves_whole_silent (by simp), lands_whole_iff target]
      refine (leaves_put_iff target.opens _ _).trans ?_
      have named : firstName (first :: rest) ≠ X.blobHash (payload (first :: rest)) := mismatch
      simp [LandsAt, whole, named, failed, -List.length_cons]
  | accepted base location target whole verified =>
      obtain ⟨reply, status, noted⟩ := reported
      have named : firstName (first :: rest) = X.blobHash (payload (first :: rest)) := verified
      rw [noted, saves_whole_reported, lands_whole_iff target, content_put target.opens]
      constructor
      · exact fun saves => .inl (Option.some.inj saves.1)
      · rintro (landed | ⟨-, mismatch, -⟩ | ⟨mismatch, -⟩)
        · exact ⟨congrArg some landed, fun _ => (leaves_put_iff target.opens _ _).mpr (.inl landed)⟩
        · exact absurd named mismatch
        · exact absurd named (mismatch whole)

theorem saves_whole_iff_run :
    let choices : List WorkerChoice := [{}, {}, { file := { fault := .shortWrite 1 } }]
    let step := workerStep referenceXxh64 "worker-0" (.saveBlob [⟨"7", [97, 98]⟩], choices) freshWorker
    SavesWhole "worker-0" [⟨"7", [97, 98]⟩] freshWorker step.1 step.2 ↔
      LandsWhole referenceXxh64 [⟨"7", [97, 98]⟩] (choices.map WorkerChoice.file) freshWorker :=
  saves_whole_iff referenceXxh64 "worker-0" [⟨"7", [97, 98]⟩] (by simp)
    [{}, {}, { file := { fault := .shortWrite 1 } }] freshWorker

-- The disk is full: no byte of the chunk reaches the file, and the master is told that
-- the blob is saved.
theorem short_write_is_notified :
    let step := workerStep referenceXxh64 "worker-0"
      (.saveBlob [⟨"15154266338359012955", [97]⟩],
        [{}, {}, { file := { fault := .shortWrite 0 } }]) freshWorker
    (step.1.result = .ok (.ok ()) ∧ storedFile step.2 "15154266338359012955" = some []) ∧
      ¬ SavesWhole "worker-0" [⟨"15154266338359012955", [97]⟩] freshWorker step.1 step.2 := by
  intro step
  have accepted : (exec fileSem (receiveBlobFromFrontend referenceXxh64 [⟨"15154266338359012955", [97]⟩]).run
      [{}, {}, { fault := .shortWrite 0 }] freshWorker).1 =
        .ok (.ok "15154266338359012955") := by decide +kernel
  have notified : Notifies ⟨"worker-0", "15154266338359012955"⟩ step.1.log := by
    have reported := (save_step referenceXxh64 "worker-0" [⟨"15154266338359012955", [97]⟩]
      [{}, {}, { file := { fault := .shortWrite 0 } }] freshWorker).2
    simp only [List.map_cons, List.map_nil, show (exec fileSem _ _ _).1 = _ from accepted] at reported
    obtain ⟨reply, status, noted⟩ := reported
    exact ⟨reply, by rw [show step.1 = _ from noted]; exact List.mem_singleton.mpr rfl⟩
  have served : step.2.content (joinPath "blobs" "15154266338359012955") = some [] := by decide +kernel
  refine ⟨by decide +kernel, fun saves => ?_⟩
  have whole := saves.1 "15154266338359012955" notified
  rw [served] at whole
  exact absurd whole (by decide)

-- The handler returns a status unless the stream is empty, or a call of std::filesystem throws.
def EndsWithStatus (X : Xxh64) (messages : List SaveBlobRequest) (choices : List FileChoice)
    (fs : FileSystem) : Prop :=
  messages ≠ [] ∧ (∃ base, DirectoryMade choices fs base) ∧
    ∀ base location, TargetOpened (firstName messages) choices fs base location →
      allOpened (chunksOf messages) (choices.drop 2) = true →
        firstName messages ≠ X.blobHash (payload messages) →
        (choiceAt choices (2 + messages.length)).failure = none

theorem receive_result (X : Xxh64) (first : SaveBlobRequest) (rest : List SaveBlobRequest)
    (choices : List FileChoice) (fs after : FileSystem)
    (result : Except Thrown (Except Status String))
    (received : ReceiveOutcome X first rest choices fs (result, after)) :
    result ≠ .error .undefinedBehaviour ∧
      ((∃ status, result = .ok status) ↔ EndsWithStatus X (first :: rest) choices fs) := by
  have targeted : ∀ base location, TargetOpened first.blobHash choices fs base location →
      ∃ base, DirectoryMade choices fs base :=
    fun base location target => ⟨base, target.made, target.opens.1⟩
  cases received with
  | noDirectory what unmade => exact ⟨by simp, iff_of_false (by simp) (fun ends => unmade ends.2.1)⟩
  | notOpened status base made closed =>
      refine ⟨by simp, iff_of_true ⟨_, rfl⟩ ⟨by simp, ⟨_, made⟩, ?_⟩⟩
      exact fun base location target => absurd ⟨base, location, target⟩ closed
  | broken status base location target stopped =>
      refine ⟨by simp, iff_of_true ⟨_, rfl⟩ ⟨by simp, targeted base location target, ?_⟩⟩
      intro _ _ _ whole
      rw [stopped] at whole
      cases whole
  | rejected status base location target whole mismatch removed =>
      exact ⟨by simp, iff_of_true ⟨_, rfl⟩ ⟨by simp, targeted base location target, fun _ _ _ _ _ => removed⟩⟩
  | unremoved what base location target whole mismatch failed =>
      exact ⟨by simp, iff_of_false (by simp)
        (fun ends => failed (ends.2.2 base location target whole mismatch))⟩
  | accepted base location target whole verified =>
      refine ⟨by simp, iff_of_true ⟨_, rfl⟩ ⟨by simp, targeted base location target, ?_⟩⟩
      exact fun _ _ _ _ mismatch => absurd verified mismatch

theorem save_result (X : Xxh64) (workerAddress : String) (first : SaveBlobRequest)
    (rest : List SaveBlobRequest) (choices : List WorkerChoice) (fs : FileSystem) :
    let result := (workerStep X workerAddress (.saveBlob (first :: rest), choices) fs).1.result
    result ≠ .error .undefinedBehaviour ∧
      ((∃ status, result = .ok status) ↔
        EndsWithStatus X (first :: rest) (choices.map WorkerChoice.file) fs) := by
  obtain ⟨-, reported⟩ := save_step X workerAddress (first :: rest) choices fs
  have received := exec_receive_blob X first rest (choices.map WorkerChoice.file) fs
  dsimp only at reported received ⊢
  generalize (workerStep X workerAddress (.saveBlob (first :: rest), choices) fs).1 = outcome at reported ⊢
  generalize exec fileSem (receiveBlobFromFrontend X (first :: rest)).run
    (choices.map WorkerChoice.file) fs = run
    at received reported
  obtain ⟨defined, ends⟩ := receive_result X first rest _ fs _ _ received
  rw [← ends]
  rcases run with ⟨thrown | ⟨status | hash⟩, remaining, after⟩
  · dsimp only at reported defined ⊢
    rw [reported]
    simpa using defined
  · dsimp only at reported
    rw [reported]
    simp
  · obtain ⟨reply, status, noted⟩ := reported
    rw [noted]
    simp

theorem save_ends_with_status_iff (X : Xxh64) (workerAddress : String) (messages : List SaveBlobRequest)
    (choices : List WorkerChoice) (fs : FileSystem) :
    let result := (workerStep X workerAddress (.saveBlob messages, choices) fs).1.result
    (result ≠ .error .undefinedBehaviour ↔ messages ≠ []) ∧
      (result ≠ .error .undefinedBehaviour ∧ (∃ status, result = .ok status) ↔
        EndsWithStatus X messages (choices.map WorkerChoice.file) fs) := by
  cases messages with
  | nil =>
      obtain ⟨-, reported⟩ := save_step X workerAddress [] choices fs
      dsimp only at reported ⊢
      rw [exec_receive_nothing] at reported
      rw [reported]
      simp [EndsWithStatus]
  | cons first rest =>
      obtain ⟨defined, ends⟩ := save_result X workerAddress first rest choices fs
      exact ⟨iff_of_true defined (by simp), by rw [and_iff_right defined, ends]⟩

-- An empty blob has no chunk, so its stream has no message.
theorem send_empty_blob (path blobHash workerAddress : String) :
    FrontendServiceImpl.sendBlobToWorker ⟨path, 0⟩ blobHash workerAddress =
      catchFileSystemException
        (do
          match ← Frontend.finishSaveBlob workerAddress [] with
          | .ok _ => pure (.ok ())
          | .error status => pure (.error status.message))
        (fun what => pure (.error ("Error while sending blob to worker: " ++ what))) := rfl

theorem empty_blob_breaks_worker :
    let cluster : Cluster := ⟨Tables.empty, fun _ => freshWorker, freshWorker⟩
    let blob : BlobFile := ⟨"blobs/temp7.blob", 0⟩
    (exec (frontendSem referenceXxh64)
      (FrontendServiceImpl.sendBlobToWorker blob "17241709254077376921" "worker-0").run []
        cluster).1 = .ok (.error "Socket closed") ∧
      (workerStep referenceXxh64 "worker-0" (.saveBlob [], []) freshWorker).1.result =
        .error .undefinedBehaviour := by
  decide +kernel

end BlobStore
