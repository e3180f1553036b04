import BlobStore.BlobRules
import BlobStore.HasherRules
import BlobStore.Library.Ownership

set_option autoImplicit false

namespace BlobStore

open Effects

section Worker

variable {τ : Type} {X : Xxh64} {note : (call : FileCall) → FileReply call → τ → τ}
  {failed : τ → Prop} {start seen : τ}

-- While a blob is received.
def Hashing (failed : τ → Prop) (handle : Nat) (held : HasherHolding X) (seen : τ) :
    Except Thrown (WorkerService.Receiving X) → Prop
  | .ok state => held = oneHandle handle (some state.blobHasher.state) ∧ ¬ failed seen
  | .error _ => (∃ value, held = oneHandle handle value) ∧ failed seen

def withoutHasher (state : WorkerService.Receiving X) : String × Option BlobFile :=
  (state.requestHash, state.blobFile)

theorem receive_on_states (request : SaveBlobRequest) (rest : List SaveBlobRequest)
    (hasher : StateHasher) (hash : String) (named : hash ≠ "") (file : BlobFile) :
    OnStates.receiveMessages X hasher (request :: rest) hash (some file) = (do
      let file ← withoutStates (file.appendChunk request.chunkData)
      hasher.addChunk request.chunkData
      OnStates.receiveMessages X hasher rest hash (some file)) := by
  simp only [OnStates.receiveMessages, named, if_false, pure_bind]

theorem receive_first_on_states (request : SaveBlobRequest) (rest : List SaveBlobRequest)
    (hasher : StateHasher) (file : Option BlobFile) :
    OnStates.receiveMessages X hasher (request :: rest) "" file = (do
      let file ← withoutStates (BlobFile.create request.blobHash)
      let file ← withoutStates (file.appendChunk request.chunkData)
      hasher.addChunk request.chunkData
      OnStates.receiveMessages X hasher rest request.blobHash (some file)) := by
  simp only [OnStates.receiveMessages, if_true, pure_bind]

theorem tracks_messages (notes : Notes note failed) (handle : Nat) (messages : List SaveBlobRequest)
    (requestHash : String) (blobFile : Option BlobFile)
    (opened : requestHash = "" ∨ blobFile ≠ none) (state : X.State) (clean : ¬ failed seen) :
    Tracks note start withoutHasher (Hashing failed handle) (oneHandle handle (some state)) seen
      (OnStates.receiveMessages X ⟨handle⟩ messages requestHash blobFile)
      (WorkerService.receiveMessages X messages ⟨requestHash, blobFile, ⟨state⟩⟩) := by
  induction messages generalizing requestHash blobFile state seen with
  | nil => exact tracks_pure (⟨requestHash, blobFile, ⟨state⟩⟩ : WorkerService.Receiving X) ⟨rfl, clean⟩
  | cons request rest ih =>
      -- one more chunk in the open file
      have grows : ∀ (hash : String) (file : BlobFile) (seen : τ), ¬ failed seen →
          Tracks note start withoutHasher (Hashing failed handle) (oneHandle handle (some state)) seen
            (do
              let blobFile ← withoutStates (file.appendChunk request.chunkData)
              (StateHasher.mk handle).addChunk request.chunkData
              OnStates.receiveMessages X ⟨handle⟩ rest hash (some blobFile))
            (do
              let blobFile ← file.appendChunk request.chunkData
              WorkerService.receiveMessages X rest
                ⟨hash, some blobFile, ⟨X.update state request.chunkData⟩⟩) := by
        intro hash file seen clean
        refine tracks_writing (hears_append notes file request.chunkData clean) _ _ ?_ ?_
        · intro seen grown clean
          exact tracks_added handle state request.chunkData _ _
            (ih hash (some grown) (.inr (by simp)) _ clean)
        · intro seen thrown bad
          exact ⟨⟨_, rfl⟩, bad⟩
      by_cases unnamed : requestHash = ""
      · subst unnamed
        rw [receive_first_message, receive_first_on_states]
        refine tracks_writing (hears_create notes request.blobHash clean) _ _ ?_ ?_
        · intro seen file clean
          exact grows request.blobHash file seen clean
        · intro seen thrown bad
          exact ⟨⟨_, rfl⟩, bad⟩
      · cases blobFile with
        | none => exact absurd rfl (opened.resolve_left unnamed)
        | some file =>
            rw [receive_message X request rest requestHash unnamed,
              receive_on_states request rest ⟨handle⟩ requestHash unnamed]
            exact grows requestHash file seen clean

theorem tracks_receive (notes : Notes note failed) (messages : List SaveBlobRequest)
    (clean : ¬ failed start) :
    Tracks note start id (fun held after _ => FreedUnless failed held after) noHandles start
      (OnStates.receiveBlobFromFrontend X messages) (WorkerService.receiveBlobFromFrontend X messages) := by
  rw [OnStates.receiveBlobFromFrontend, WorkerService.receiveBlobFromFrontend]
  refine tracks_catch (fun what => (.error ⟨.cancelled, what⟩ : Except Status String)) ?_
  refine tracks_created _ _ ?_
  intro handle
  refine tracks_bind (tracks_messages notes handle messages "" none (.inl rfl) X.reset clean) _ _ ?_ ?_
  · intro held seen state ends
    obtain ⟨rfl, clean⟩ := ends
    refine tracks_finalized handle state.blobHasher _ _ ?_
    dsimp only [withoutHasher]
    by_cases same : state.requestHash = state.blobHasher.finalize
    · rw [if_neg (fun different => different same), if_neg (fun different => different same)]
      exact tracks_pure (Except.ok state.requestHash : Except Status String) (Or.inl ⟨rfl, clean⟩)
    · rw [if_pos same, if_pos same]
      cases state.blobFile with
      | none => exact tracks_throw Thrown.undefinedBehaviour (Or.inl ⟨rfl, clean⟩)
      | some blobFile =>
          have removes : Tracks note start id
              (fun (held : HasherHolding X) after _ => FreedUnless failed held after) noHandles seen
              (withoutStates blobFile.remove) blobFile.remove :=
            tracks_without_states _ (meets_mono hearing_monotone _ _ _ _
              (fun _ _ clean => .inl ⟨rfl, clean⟩) (hears_remove notes blobFile clean))
          refine tracks_bind removes _ _ ?_ (fun held seen thrown ends => ends)
          intro held seen removed ends
          exact tracks_pure
            (Except.error ⟨.invalidArgument, "Blob hash mismatch."⟩ : Except Status String) ends
  · intro held seen thrown ends
    obtain ⟨⟨value, one⟩, bad⟩ := ends
    exact .inr ⟨⟨handle, value, one⟩, bad⟩

-- A call of a worker that failed to write.
def WorkerWriteFailed (event : Event WorkerCall WorkerReply) : Prop :=
  match event.effect, event.reply with
  | .file call, reply => FailedWrite call reply
  | _, _ => False

def hasWorkerFailed (log : List (Event WorkerCall WorkerReply)) : Prop :=
  ∃ event ∈ log, WorkerWriteFailed event

theorem worker_failed_snoc (log : List (Event WorkerCall WorkerReply))
    (event : Event WorkerCall WorkerReply) :
    hasWorkerFailed (log ++ [event]) ↔ hasWorkerFailed log ∨ WorkerWriteFailed event := by
  simp only [hasWorkerFailed, List.mem_append, List.mem_singleton, or_and_right, exists_or, exists_eq_left]

theorem tracks_save (X : Xxh64) (workerAddress : String) (messages : List SaveBlobRequest) :
    Tracks logged [] id (fun (held : HasherHolding X) log _ =>
      FreedUnless hasWorkerFailed held log) noHandles []
      (OnStates.saveBlob X workerAddress messages) (WorkerService.saveBlob X workerAddress messages) := by
  have notes : Notes (fun call reply log => logged (WorkerCall.file call) reply log) hasWorkerFailed :=
    ⟨fun call reply log => worker_failed_snoc log ⟨.file call, reply⟩⟩
  have fresh : ¬ hasWorkerFailed [] := by
    intro failed
    obtain ⟨event, member, -⟩ := failed
    cases member
  have inside : Tracks logged [] id
      (fun (held : HasherHolding X) log _ => FreedUnless hasWorkerFailed held log) noHandles []
      (onStates workerFile (OnStates.receiveBlobFromFrontend X messages))
        (onWorkerFiles (WorkerService.receiveBlobFromFrontend X messages)) :=
    tracks_on_states workerFile (fun call seen reply => rfl) (tracks_receive notes messages fresh)
  rw [OnStates.saveBlob, WorkerService.saveBlob]
  refine tracks_bind inside _ _ ?_ (fun held log thrown ends => ends)
  intro held log outcome ends
  cases outcome with
  | error status => exact tracks_pure (Except.error status : Except Status Unit) ends
  | ok hash =>
      have notifies : Tracks logged [] id
          (fun (held : HasherHolding X) log _ => FreedUnless hasWorkerFailed held log) held log
          (withoutStates (masterNotifyBlobSaved ⟨workerAddress, hash⟩))
            (masterNotifyBlobSaved ⟨workerAddress, hash⟩) := by
        refine tracks_without_states _ ?_
        rw [masterNotifyBlobSaved, meets_run_perform]
        intro reply
        have still : hasWorkerFailed (logged (.notifyBlobSaved ⟨workerAddress, hash⟩) reply log) ↔
            hasWorkerFailed log :=
          (worker_failed_snoc log ⟨.notifyBlobSaved ⟨workerAddress, hash⟩, reply⟩).trans (or_iff_left id)
        rw [FreedUnless, still]
        exact ends
      refine tracks_bind notifies _ _ ?_ (fun held log thrown ends => ends)
      intro held log answer ends
      cases answer with
      | ok _ => exact tracks_pure (Except.ok () : Except Status Unit) ends
      | error status =>
          exact tracks_pure (Except.error ⟨.cancelled, status.message⟩ : Except Status Unit) ends

-- However the saves of one worker interleave, with whatever failures: no state is used
-- before its reset or after it is freed, or freed twice; each save answers as with a
-- hasher that is a value, unless there is no memory for its state, and then it has done
-- nothing; and in the end there is one live state for each save that failed to write.
theorem saves_free_their_states {ι C σ : Type} [DecidableEq ι] (X : Xxh64)
    (sem : Sem WorkerCall WorkerReply C σ) (workerAddress : String)
    (calls : ι → List SaveBlobRequest) (state : σ) (schedule : List (ι × (C × Bool))) :
    let after :=
      (Pool.start (fun proc => (OnStates.saveBlob X workerAddress (calls proc)).run)
        (state, Heap.empty)).run
      (handleSem (xxhStates X) sem) schedule
    after.state.2.misused = false ∧
      ∃ kept, List.Sublist kept (schedule.map (fun turn => (turn.1, turn.2.1))) ∧
      let other :=
        (Pool.start (fun proc => (WorkerService.saveBlob X workerAddress (calls proc)).run)
          state).run sem kept
      after.state.1 = other.state ∧
      (∀ proc outcome, after.procs proc = .pure outcome →
        (outcome = outOfMemory ∧ ∀ step ∈ other.history, step.proc ≠ proc) ∨
          ∃ answer, other.procs proc = .pure answer ∧ outcome = escape answer) ∧
      ((∀ proc, ∃ outcome, after.procs proc = .pure outcome) →
        after.state.2.live =
          {proc | ∃ step ∈ other.history, step.proc = proc ∧ WorkerWriteFailed step.event}.ncard) := by
  intro after
  obtain ⟨clean, kept, sub, same, answers, count⟩ :=
    states_accounted sem (fun proc => tracks_save X workerAddress (calls proc)) state schedule
  refine ⟨clean, kept, sub, same, ?_, ?_⟩
  · intro proc outcome ended
    exact (answers proc outcome ended).imp_left (fun refused => ⟨refused.1, nothing_logged _ proc refused.2⟩)
  · intro finished
    refine (count finished).trans (congrArg Set.ncard (Set.ext fun proc => ?_))
    refine Iff.trans ?_ (logged_iff _ proc WorkerWriteFailed)
    refine and_iff_right_of_imp (fun failed refused => ?_)
    obtain ⟨-, nothing⟩ := (answers proc outOfMemory refused).resolve_right (fun answered => by
      obtain ⟨answer, -, same⟩ := answered
      exact escape_not_refused answer same.symm)
    obtain ⟨event, member, -⟩ := failed
    rw [nothing] at member
    cases member

end Worker

section Frontend

variable {X : Xxh64}

def FrontendWriteFailed (event : Event FrontendCall FrontendReply) : Prop :=
  match event.effect, event.reply with
  | .file call, reply => FailedWrite call reply
  | _, _ => False

def hasFrontendFailed (log : List (Event FrontendCall FrontendReply)) : Prop :=
  ∃ event ∈ log, FrontendWriteFailed event

theorem frontend_failed_snoc (log : List (Event FrontendCall FrontendReply))
    (event : Event FrontendCall FrontendReply) :
    hasFrontendFailed (log ++ [event]) ↔ hasFrontendFailed log ∨ FrontendWriteFailed event := by
  simp only [hasFrontendFailed, List.mem_append, List.mem_singleton, or_and_right, exists_or, exists_eq_left]

theorem frontend_file_notes :
    Notes (fun call reply log => logged (FrontendCall.file call) reply log) hasFrontendFailed :=
  ⟨fun call reply log => frontend_failed_snoc log ⟨.file call, reply⟩⟩

theorem hears_frontend_files {α : Type} (program : FileM α)
    (post : Except Thrown α → List (Event FrontendCall FrontendReply) → Prop)
    (log : List (Event FrontendCall FrontendReply))
    (hears : meets (hearing (fun call reply log => logged (FrontendCall.file call) reply log))
      program.run post log) :
    meets (hearing logged) (Frontend.onFrontendFiles program).run post log :=
  (meets_inline frontendFile program.run post log).mpr hears

-- Calls that cannot fail to write.
def Harmless : FrontendCall → Prop
  | .file call => ∀ reply, ¬ FailedWrite call reply
  | _ => True

def onlyHarmless : Contract FrontendCall FrontendReply Unit := confined Harmless (fun _ _ => True)

theorem hears_harmless {α : Type} (program : Program FrontendCall FrontendReply α)
    (log : List (Event FrontendCall FrontendReply))
    (harmless : meets onlyHarmless program (fun _ _ => True) ()) :
    meets (hearing logged) program (fun _ after => hasFrontendFailed after ↔ hasFrontendFailed log) log := by
  have any : ∀ after, (hasFrontendFailed after ↔ hasFrontendFailed log) →
      meets (hearing logged) program (fun _ after => hasFrontendFailed after ↔
        hasFrontendFailed log) after := by
    induction program with
    | pure value => exact fun after same => same
    | call call next ih =>
        intro after same reply
        refine ih reply (harmless.2 reply trivial) _ ?_
        have spares : ¬ FrontendWriteFailed ⟨call, reply⟩ := by
          cases call with
          | file call => exact harmless.1 reply
          | _ => exact id
        exact (frontend_failed_snoc after ⟨call, reply⟩).trans ((or_iff_left spares).trans same)
  exact any log Iff.rfl

theorem confined_run_bind {E : Type} {R : E → Type} {touches : E → Prop} {α β : Type}
    {program : Failing E R Thrown α} {rest : α → Failing E R Thrown β}
    (first : meets (confined touches (fun _ _ => True)) program.run (fun _ _ => True) ())
    (later : ∀ value, meets (confined touches (fun _ _ => True))
      (rest value).run (fun _ _ => True) ()) :
    meets (confined touches (fun _ _ => True)) (program >>= rest).run (fun _ _ => True) () := by
  rw [meets_run_bind]
  refine meets_mono confined_monotone _ _ _ () ?_ first
  intro outcome _ _
  cases outcome with
  | ok value => exact later value
  | error thrown => trivial

def onlyReads : Contract FileCall FileReply Unit :=
  confined (fun call => ∀ reply, ¬ FailedWrite call reply) (fun _ _ => True)

theorem reads_chunk (maxChunk : Nat) (it : ChunkIterator) :
    meets onlyReads (it.readChunk maxChunk).run (fun _ _ => True) () := by
  rw [ChunkIterator.readChunk]
  cases it.fileStream with
  | none => trivial
  | some position =>
      refine confined_run_bind ⟨fun _ => id, fun _ _ => trivial⟩ (fun buffer => ?_)
      by_cases short : buffer.length < min maxChunk (subU64 it.fileSize it.nextByte)
      · rw [if_pos short]
        trivial
      · rw [if_neg short]
        trivial

theorem reads_stream (it : ChunkIterator) :
    meets onlyReads it.createStreamIfNecessary.run (fun _ _ => True) () := by
  rw [ChunkIterator.createStreamIfNecessary]
  cases it.fileStream with
  | some position => trivial
  | none =>
      refine confined_run_bind ⟨fun _ => id, fun _ _ => trivial⟩ (fun opened => ?_)
      cases opened <;> trivial

theorem harmless_deref (maxChunk : Nat) (it : ChunkIterator) :
    meets onlyHarmless (Failing.inline frontendFile (it.deref maxChunk)).run (fun _ _ => True) () := by
  have reads : meets onlyReads (it.deref maxChunk).run (fun _ _ => True) () := by
    refine confined_run_bind (reads_stream it) (fun it => ?_)
    cases it.currentChunk with
    | some chunk => trivial
    | none => exact confined_run_bind (reads_chunk maxChunk it) (fun _ => trivial)
  exact (meets_inline frontendFile (it.deref maxChunk).run _ ()).mpr reads

theorem harmless_send (blob : BlobFile) (blobHash worker : String) :
    meets onlyHarmless (FrontendServiceImpl.sendBlobToWorker blob blobHash worker).run
      (fun _ _ => True) () := by
  rw [FrontendServiceImpl.sendBlobToWorker, meets_catch, meets_run_bind, BlobFile.forEach]
  refine meets_for_chunks _ _ _ (fun _ => True) (fun _ => True) _ _ ?_ ?_ ?_ ?_ ?_ _ _ _ _ trivial trivial
  · intro it next _ read thrown
    refine meets_mono confined_monotone _ _ _ () ?_ (harmless_deref MAX_CHUNK_SIZE it)
    intro outcome _ _
    cases outcome with
    | ok chunk => exact read chunk.1 chunk.2 trivial
    | error error => exact thrown error
  · intro sent chunk next _ more left
    rw [meets_run_bind, Frontend.writeSaveBlob, meets_run_perform]
    refine ⟨trivial, fun written _ => ?_⟩
    cases written with
    | false =>
        dsimp only
        rw [if_neg (by simp), meets_run_bind, Frontend.cancelSaveBlob, meets_run_perform]
        exact ⟨trivial, fun _ _ => left _ () trivial⟩
    | true => exact more _ trivial
  · intro sent _
    dsimp only
    rw [meets_run_bind, Frontend.finishSaveBlob, meets_run_perform]
    refine ⟨trivial, fun reply _ => ?_⟩
    cases reply <;> trivial
  · intro thrown
    cases thrown <;> trivial
  · intro sent next _ unwound
    rw [Frontend.cancelSaveBlob, meets_run_perform]
    exact ⟨trivial, fun _ _ => unwound _ () (fun thrown => by cases thrown <;> trivial)⟩

theorem harmless_send_all (blob : BlobFile) (blobHash : String) (workers : List String) :
    meets onlyHarmless (FrontendServiceImpl.sendBlobToWorkers blob blobHash workers).run
      (fun _ _ => True) () := by
  induction workers with
  | nil => trivial
  | cons worker rest ih =>
      rw [FrontendServiceImpl.sendBlobToWorkers]
      refine confined_run_bind (harmless_send blob blobHash worker) (fun outcome => ?_)
      cases outcome with
      | error message => trivial
      | ok _ => exact ih

theorem harmless_workers (blobHash master : String) :
    meets onlyHarmless (FrontendServiceImpl.getWorkersFromMaster blobHash master).run
      (fun _ _ => True) () := by
  rw [FrontendServiceImpl.getWorkersFromMaster]
  refine confined_run_bind ⟨trivial, fun _ _ => trivial⟩ (fun outcome => ?_)
  cases outcome <;> trivial

def AllChunks (messages : List UploadBlobRequest) : Prop :=
  ∀ message ∈ messages, ∃ chunk, message = .chunkData chunk

abbrev FrontendLog := List (Event FrontendCall FrontendReply)

-- While chunks are received.
def Chunking (handle : Nat) (messages : List UploadBlobRequest) (held : HasherHolding X) (log : FrontendLog) :
    Except Thrown (Except Status (BlobFile × BlobHasher X)) → Prop
  | .ok (.ok outcome) => held = oneHandle handle (some outcome.2.state) ∧
      ¬ (hasFrontendFailed log ∨ ¬ AllChunks messages)
  | _ => (∃ value, held = oneHandle handle value) ∧ (hasFrontendFailed log ∨ ¬ AllChunks messages)

theorem all_chunks_cons (chunk : Bytes) (rest : List UploadBlobRequest) :
    AllChunks (.chunkData chunk :: rest) ↔ AllChunks rest := by
  rw [AllChunks, List.forall_mem_cons]
  exact and_iff_right ⟨chunk, rfl⟩

theorem not_all_chunks {message : UploadBlobRequest} {rest : List UploadBlobRequest}
    (other : ∀ chunk, message ≠ .chunkData chunk) :
    ¬ AllChunks (message :: rest) := by
  intro all
  obtain ⟨chunk, same⟩ := all message List.mem_cons_self
  exact other chunk same

theorem tracks_chunks (handle : Nat) (messages : List UploadBlobRequest) (file : BlobFile)
    (hasher : BlobHasher X) (log : FrontendLog) (clean : ¬ hasFrontendFailed log) :
    Tracks logged [] (fun outcome => Prod.fst <$> outcome) (Chunking handle messages)
      (oneHandle handle (some hasher.state)) log
      (OnStates.receiveChunks X ⟨handle⟩ messages file)
        (FrontendServiceImpl.receiveChunks X messages file hasher) := by
  induction messages generalizing file hasher log with
  | nil =>
      refine tracks_pure (Except.ok (file, hasher) : Except Status (BlobFile × BlobHasher X)) ⟨rfl, ?_⟩
      intro leaks
      exact leaks.elim clean (fun missing => missing (fun _ member => by cases member))
  | cons message rest ih =>
      have refuses : (∀ chunk, message ≠ .chunkData chunk) →
          Chunking handle (message :: rest) (oneHandle handle (some hasher.state)) log
            (.ok (.error ⟨.invalidArgument, "Request missing chunk data."⟩)) :=
        fun other => ⟨⟨_, rfl⟩, .inr (not_all_chunks other)⟩
      cases message with
      | info size =>
          exact tracks_pure (Except.error _ : Except Status (BlobFile × BlobHasher X))
            (refuses (fun _ same => by cases same))
      | notSet =>
          exact tracks_pure (Except.error _ : Except Status (BlobFile × BlobHasher X))
            (refuses (fun _ same => by cases same))
      | chunkData chunk =>
          have same : @Chunking X handle (.chunkData chunk :: rest) = Chunking handle rest := by
            funext held log outcome
            cases outcome with
            | error thrown => simp only [Chunking, all_chunks_cons]
            | ok answer => cases answer <;> simp only [Chunking, all_chunks_cons]
          rw [same, OnStates.receiveChunks, FrontendServiceImpl.receiveChunks]
          refine tracks_writing (hears_frontend_files _ _ log
            (hears_append frontend_file_notes file chunk clean)) _ _ ?_ ?_
          · intro log grown clean
            exact tracks_added handle hasher.state chunk _ _ (ih grown (hasher.addChunk chunk) log clean)
          · intro log thrown bad
            exact ⟨⟨_, rfl⟩, .inl bad⟩

-- Once the client has begun with an info, each failed write and each message that is no
-- chunk leaves the state behind.
def UploadLeaks (messages : List UploadBlobRequest) (log : FrontendLog) : Prop :=
  (∃ size, messages.head? = some (.info size)) ∧ (hasFrontendFailed log ∨ ¬ AllChunks messages.tail)

theorem tracks_receive_upload (messages : List UploadBlobRequest) :
    Tracks logged [] id (fun (held : HasherHolding X) log _ =>
      FreedUnless (UploadLeaks messages) held log) noHandles []
      (OnStates.receiveAndHashBlob X messages) (FrontendServiceImpl.receiveAndHashBlob X messages) := by
  have fresh : ¬ hasFrontendFailed [] := fun failed => by
    obtain ⟨event, member, -⟩ := failed
    cases member
  have refuses : (¬ ∃ size, messages.head? = some (.info size)) →
      Tracks logged [] id (fun (held : HasherHolding X) log _ =>
        FreedUnless (UploadLeaks messages) held log) noHandles []
        (pure (Except.error ⟨.invalidArgument, "Request should start with blob info."⟩ : Except
          Status (BlobFile × String)))
        (pure (Except.error ⟨.invalidArgument, "Request should start with blob info."⟩)) :=
    fun other => tracks_pure (Except.error _ : Except Status (BlobFile × String))
      (.inl ⟨rfl, fun leaks => other leaks.1⟩)
  cases messages with
  | nil => exact refuses (by simp)
  | cons message rest =>
      cases message with
      | chunkData chunk => exact refuses (by simp)
      | notSet => exact refuses (by simp)
      | info size =>
          have leaks : ∀ log, UploadLeaks (.info size :: rest) log ↔
              hasFrontendFailed log ∨ ¬ AllChunks rest :=
            fun log => and_iff_right ⟨size, rfl⟩
          simp only [FreedUnless, leaks]
          refine tracks_catch (fun what => (.error ⟨.cancelled, what⟩ : Except Status (BlobFile × String))) ?_
          refine tracks_created _ _ ?_
          intro handle
          have draws : Tracks logged [] id (fun (held : HasherHolding X) log outcome =>
              (∃ drawn, outcome = .ok drawn) ∧ held = oneHandle handle (some X.reset) ∧
                ¬ hasFrontendFailed log) (oneHandle handle (some X.reset)) []
                (withoutStates Frontend.rand) Frontend.rand := by
            refine tracks_without_states _ ?_
            rw [Frontend.rand, meets_run_perform]
            intro drawn
            exact ⟨⟨drawn, rfl⟩, rfl, fun failed =>
              ((frontend_failed_snoc [] ⟨.rand, drawn⟩).mp failed).elim fresh id⟩
          refine tracks_bind draws _ _ ?_ ?_
          · intro held log drawn ends
            obtain ⟨-, rfl, clean⟩ := ends
            refine tracks_writing
              (hears_frontend_files _ _ log (hears_create frontend_file_notes _ clean)) _ _ ?_ ?_
            · intro log file clean
              refine tracks_bind (tracks_chunks handle rest file BlobHasher.new log clean) _ _ ?_ ?_
              · intro held log outcome ends
                cases outcome with
                | error status =>
                    obtain ⟨⟨value, one⟩, leaks⟩ := ends
                    exact tracks_pure (Except.error status : Except Status (BlobFile × String))
                      (.inr ⟨⟨handle, value, one⟩, leaks⟩)
                | ok outcome =>
                    obtain ⟨rfl, none⟩ := ends
                    refine tracks_finalized handle outcome.2 _ _ ?_
                    dsimp only
                    by_cases whole : outcome.1.fileSize = size.toNat
                    · rw [if_neg (fun different => different whole),
                        if_neg (fun different => different whole)]
                      exact tracks_pure (Except.ok (outcome.1, outcome.2.finalize) : Except Status
                        (BlobFile × String)) (.inl ⟨rfl, none⟩)
                    · rw [if_pos whole, if_pos whole]
                      exact tracks_pure (Except.error _ : Except Status (BlobFile × String))
                        (.inl ⟨rfl, none⟩)
              · intro held log thrown ends
                obtain ⟨⟨value, one⟩, leaks⟩ := ends
                exact .inr ⟨⟨handle, value, one⟩, leaks⟩
            · intro log thrown bad
              exact .inr ⟨⟨handle, _, rfl⟩, .inl bad⟩
          · intro held log thrown ends
            obtain ⟨⟨drawn, same⟩, -⟩ := ends
            cases same

theorem tracks_upload (service : FrontendServiceImpl) (messages : List UploadBlobRequest) :
    Tracks logged [] id (fun (held : HasherHolding X) log _ =>
      FreedUnless (UploadLeaks messages) held log) noHandles []
      (OnStates.uploadBlob X service messages) (service.uploadBlob X messages) := by
  refine tracks_bind (tracks_receive_upload messages) _ _ ?_ (fun held log thrown ends => ends)
  intro held log outcome ends
  cases outcome with
  | error status => exact tracks_pure (Except.error status : Except Status String) ends
  | ok received =>
      refine tracks_without_states _ (meets_mono hearing_monotone _ _ _ _ ?_ (hears_harmless _ log ?_))
      · intro outcome after same
        have leaks : UploadLeaks messages after ↔ UploadLeaks messages log :=
          and_congr_right' (or_congr_left same)
        rw [FreedUnless, leaks]
        exact ends
      · refine confined_run_bind (harmless_workers _ _) (fun workers => ?_)
        cases workers with
        | error status => trivial
        | ok workers =>
            refine confined_run_bind (harmless_send_all _ _ workers) (fun sent => ?_)
            cases sent with
            | error status => trivial
            | ok _ =>
                have removes : meets onlyReads received.1.remove.run (fun _ _ => True) () :=
                  confined_run_bind ⟨fun _ => id, fun _ _ => trivial⟩
                    (fun reply => by cases reply <;> trivial)
                exact confined_run_bind
                  ((meets_inline frontendFile received.1.remove.run _ ()).mpr removes)
                  (fun _ => trivial)

-- The same of the uploads to one frontend. Here a client can make a state leak with a
-- message that is no chunk.
theorem uploads_free_their_states {ι C σ : Type} [DecidableEq ι] (X : Xxh64)
    (sem : Sem FrontendCall FrontendReply C σ) (service : FrontendServiceImpl)
    (streams : ι → List UploadBlobRequest) (state : σ) (schedule : List (ι × (C × Bool))) :
    let after :=
      (Pool.start (fun proc => (OnStates.uploadBlob X service (streams proc)).run)
        (state, Heap.empty)).run
      (handleSem (xxhStates X) sem) schedule
    after.state.2.misused = false ∧
      ∃ kept, List.Sublist kept (schedule.map (fun turn => (turn.1, turn.2.1))) ∧
      let other := (Pool.start (fun proc => (service.uploadBlob X (streams proc)).run) state).run sem kept
      after.state.1 = other.state ∧
      (∀ proc outcome, after.procs proc = .pure outcome →
        (outcome = outOfMemory ∧ ∀ step ∈ other.history, step.proc ≠ proc) ∨
          ∃ answer, other.procs proc = .pure answer ∧ outcome = escape answer) ∧
      ((∀ proc, ∃ outcome, after.procs proc = .pure outcome) →
        after.state.2.live = {proc | after.procs proc ≠ .pure outOfMemory ∧
          (∃ size, (streams proc).head? = some (.info size)) ∧
          ((∃ step ∈ other.history, step.proc = proc ∧ FrontendWriteFailed step.event) ∨
            ¬ AllChunks (streams proc).tail)}.ncard) := by
  intro after
  obtain ⟨clean, kept, sub, same, answers, count⟩ :=
    states_accounted sem (fun proc => tracks_upload service (streams proc)) state schedule
  refine ⟨clean, kept, sub, same, ?_, ?_⟩
  · intro proc outcome ended
    exact (answers proc outcome ended).imp_left (fun refused => ⟨refused.1, nothing_logged _ proc refused.2⟩)
  · intro finished
    refine (count finished).trans (congrArg Set.ncard (Set.ext fun proc => ?_))
    exact and_congr_right' (and_congr_right' (or_congr_left (logged_iff _ proc FrontendWriteFailed)))

end Frontend

end BlobStore
