import BlobStore.Library.Pieces
import BlobStore.FrontendAlone

set_option autoImplicit false

namespace BlobStore

open Effects FileSystem FrontendServiceImpl

section Send

-- A read hands out all it was asked for.
def readsFull (bytes : Bytes) (size next : Nat) (choice : FileChoice) : Prop :=
  (choice.received ((bytes.drop next).take (min MAX_CHUNK_SIZE (size - next)))).length =
    min MAX_CHUNK_SIZE (size - next)

-- What is left of a stream to a worker: every chunk is read in full and written, and the
-- worker's answer is OK.
def Streams (bytes : Bytes) (size : Nat) : Nat → Nat → List FrontendChoice → Prop
  | 0, _, choices => (choices.headD default).finished = .ok ()
  | count + 1, next, choices => readsFull bytes size next (choices.headD default).file ∧
      (choices.tail.headD default).streamOpen = true ∧
      Streams bytes size count (next + min MAX_CHUNK_SIZE (size - next)) choices.tail.tail

-- An empty blob is not opened for reading.
def Sent (bytes : Bytes) (size : Nat) (choices : List FrontendChoice) : Prop :=
  if size = 0 then Streams bytes size 0 0 choices
  else (choices.headD default).file.failure = none ∧
    Streams bytes size (size ⌈/⌉ MAX_CHUNK_SIZE) 0 choices.tail

def sentChoices (size : Nat) : Nat := if size = 0 then 1 else 2 * (size ⌈/⌉ MAX_CHUNK_SIZE) + 2

def SentToAll (bytes : Bytes) (size : Nat) : List String → List FrontendChoice → Prop
  | [], _ => True
  | _ :: rest, choices =>
      Sent bytes size choices ∧ SentToAll bytes size rest (choices.drop (sentChoices size))

theorem exec_frontend_deref {path : String} {bytes : Bytes} {size next : Nat} (inside : next ≤ size)
    (choices : List FrontendChoice) (fs : FileSystem) (there : fs.content path = some bytes) :
    let run := exec frontendAloneSem
      (Failing.inline frontendFile
        (ChunkIterator.deref MAX_CHUNK_SIZE ⟨next, size, path, some next, none⟩)).run choices fs
    readsFull bytes size next (choices.headD default).file ∧
      (∃ chunk, chunk.length = min MAX_CHUNK_SIZE (size - next) ∧
        run = (.ok (chunk, ⟨next, size, path, some (next + chunk.length), some chunk⟩), choices.tail, fs)) ∨
      ¬ readsFull bytes size next (choices.headD default).file ∧ ∃ thrown,
          run = (.error thrown, choices.tail, fs) := by
  have left : subU64 size next = size - next := if_pos inside
  have opened : ChunkIterator.createStreamIfNecessary ⟨next, size, path, some next, none⟩ =
      pure ⟨next, size, path, some next, none⟩ := rfl
  have received :=
    (received_within (choices.headD default).file
      ((bytes.drop next).take (min MAX_CHUNK_SIZE (size - next)))).length_le
  rw [List.length_take] at received
  dsimp only
  rw [ChunkIterator.deref, opened, pure_bind]
  dsimp only
  rw [ChunkIterator.readChunk]
  dsimp only
  rw [left, bind_assoc, readAt, exec_files_perform]
  simp only [createsOrRemoves, fileSem, there, Option.getD_some, Bool.false_eq_true, if_false, readsFull]
  generalize (choices.headD default).file.received
    ((bytes.drop next).take (min MAX_CHUNK_SIZE (size - next))) = chunk at received ⊢
  by_cases short : chunk.length < min MAX_CHUNK_SIZE (size - next)
  · rw [if_pos short]
    exact .inr ⟨by omega, _, rfl⟩
  · rw [if_neg short]
    exact .inl ⟨by omega, chunk, by omega, rfl⟩

-- The body of the loop of send_blob_to_worker, and what follows the loop.
def sendChunk (blobHash workerAddress : String) (sent : List SaveBlobRequest) (chunk : Bytes) :
    FrontendM (Flow (List SaveBlobRequest) String) := do
  let request : SaveBlobRequest := ⟨blobHash, chunk⟩
  let written ← Frontend.writeSaveBlob workerAddress request
  if written then pure (.next (sent ++ [request]))
  else do
    Frontend.cancelSaveBlob workerAddress sent
    pure (.leave "Failed to save blob to worker - broken stream")

def finishStream (workerAddress : String) :
    Flow (List SaveBlobRequest) String → FrontendM (Except String Unit)
  | .leave message => pure (.error message)
  | .next sent => do
      match ← Frontend.finishSaveBlob workerAddress sent with
      | .ok _ => pure (.ok ())
      | .error status => pure (.error status.message)

theorem send_blob_eq (blob : BlobFile) (blobHash workerAddress : String) :
    sendBlobToWorker blob blobHash workerAddress = catchFileSystemException
      (blob.forEach MAX_CHUNK_SIZE frontendFile (sendChunk blobHash workerAddress)
        (Frontend.cancelSaveBlob workerAddress) [] >>=
        finishStream workerAddress)
      (fun what => pure (.error ("Error while sending blob to worker: " ++ what))) := rfl

theorem finish_ends_iff (workerAddress : String) (sent : List SaveBlobRequest)
    (choices rest : List FrontendChoice) (fs after : FileSystem) :
    exec frontendAloneSem (finishStream workerAddress (.next sent)).run choices fs =
      (.ok (.ok ()), rest, after) ↔
      (choices.headD default).finished = .ok () ∧ rest = choices.tail ∧ after = fs := by
  rw [finishStream, Frontend.finishSaveBlob, exec_run_perform]
  simp only [frontendAloneSem]
  cases (choices.headD default).finished with
  | error status =>
      exact iff_of_false (fun same => by cases (Prod.mk.inj same).1) (fun both => by cases both.1)
  | ok _ =>
      constructor
      · rintro ⟨⟩
        exact ⟨rfl, rfl, rfl⟩
      · rintro ⟨-, rfl, rfl⟩
        rfl

-- A round of the loop once its chunk is read, or could not be read.
def sendRound (blobHash workerAddress : String) (fuel : Nat) (last : ChunkIterator)
    (sent : List SaveBlobRequest) :
    Except Thrown (Bytes × ChunkIterator) → FrontendM (Flow (List SaveBlobRequest) String)
  | .error thrown => do
      Frontend.cancelSaveBlob workerAddress sent
      throw thrown
  | .ok (chunk, it) => do
      match ← sendChunk blobHash workerAddress sent chunk with
      | .leave result => pure (.leave result)
      | .next sent =>
          forChunks MAX_CHUNK_SIZE frontendFile (sendChunk blobHash workerAddress)
            (Frontend.cancelSaveBlob workerAddress) fuel it.increment last sent

theorem exec_loop_step (blobHash workerAddress : String) (fuel : Nat) (it last : ChunkIterator)
    (sent : List SaveBlobRequest) (choices : List FrontendChoice) (fs : FileSystem)
    (more : it.differs last = true) :
    let read := exec frontendAloneSem (Failing.inline frontendFile (it.deref MAX_CHUNK_SIZE)).run choices fs
    exec frontendAloneSem
      (ExceptT.run (forChunks MAX_CHUNK_SIZE frontendFile (sendChunk blobHash workerAddress)
        (Frontend.cancelSaveBlob workerAddress) (fuel + 1) it last sent >>=
          finishStream workerAddress)) choices fs =
      exec frontendAloneSem (ExceptT.run
        (sendRound blobHash workerAddress fuel last sent read.1 >>= finishStream workerAddress))
        read.2.1 read.2.2 := by
  dsimp only
  rw [forChunks, if_pos more, bind_assoc,
    exec_run_bind_ok _ _ _ _ _ (by rw [exec_run_attempt]), exec_run_attempt]
  generalize exec frontendAloneSem
    (ExceptT.run (Failing.inline frontendFile (it.deref MAX_CHUNK_SIZE))) choices fs = read
  obtain ⟨result, left, now⟩ := read
  cases result with
  | error thrown => rfl
  | ok read =>
      dsimp only
      rw [sendRound]
      congr 3
      refine bind_congr ?_
      rintro (sent | message) <;> rfl

theorem stream_ends_iff (blobHash workerAddress path : String) (bytes : Bytes) (size : Nat)
    (last : ChunkIterator) (ends : last.nextByte = size) (fuel next count : Nat)
    (sent : List SaveBlobRequest) (choices rest : List FrontendChoice) (fs after : FileSystem)
    (there : fs.content path = some bytes) (fuelLeft : size < fuel + next) (inside : next ≤ size)
    (left : count = (size - next) ⌈/⌉ MAX_CHUNK_SIZE) :
    exec frontendAloneSem
      (ExceptT.run (forChunks MAX_CHUNK_SIZE frontendFile (sendChunk blobHash workerAddress)
        (Frontend.cancelSaveBlob workerAddress) fuel ⟨next, size, path, some next, none⟩ last
          sent >>= finishStream workerAddress))
        choices fs = (.ok (.ok ()), rest, after) ↔
      Streams bytes size count next choices ∧ rest = choices.drop (2 * count + 1) ∧ after = fs := by
  induction fuel generalizing next count sent choices with
  | zero => omega
  | succ fuel ih =>
      by_cases finished : next = size
      · subst finished
        obtain rfl : count = 0 := by rw [left, Nat.sub_self, zero_ceilDiv]
        rw [forChunks, if_neg (by simp [ChunkIterator.differs, ends]), pure_bind, finish_ends_iff]
        simp [Streams]
      · have more : 0 < size - next := by omega
        obtain ⟨later, rfl⟩ : ∃ later, count = later + 1 := ⟨_, left.trans (ceil_succ (by decide) more)⟩
        have fewer : later = (size - (next + min MAX_CHUNK_SIZE (size - next))) ⌈/⌉ MAX_CHUNK_SIZE := by
          rw [ceil_succ (by decide) more] at left
          rw [← Nat.sub_sub]
          omega
        have positive : 0 < MAX_CHUNK_SIZE := by decide
        have twice : choices.drop (2 * (later + 1) + 1) = choices.tail.tail.drop (2 * later + 1) := by
          rw [← List.drop_one, ← List.drop_one, List.drop_drop, List.drop_drop]
          congr 1
          omega
        rw [exec_loop_step _ _ _ _ _ _ _ _ (by simpa [ChunkIterator.differs, ends] using finished), Streams]
        rcases exec_frontend_deref inside choices fs there with
          ⟨full, chunk, length, read⟩ | ⟨short, thrown, read⟩
        · rw [read]
          dsimp only
          rw [sendRound, sendChunk, Frontend.writeSaveBlob, bind_assoc, bind_assoc, exec_run_perform]
          have written : frontendAloneSem (.saveBlobWrite workerAddress ⟨blobHash, chunk⟩)
              (choices.tail.headD default) fs =
              ((choices.tail.headD default).streamOpen, fs) := rfl
          rw [written, and_iff_right full]
          dsimp only
          generalize (choices.tail.headD default).streamOpen = opened
          cases opened with
          | false =>
              exact iff_of_false (fun same => by cases (Prod.mk.inj same).1) (fun both => by cases both.1.1)
          | true =>
              rw [if_pos rfl, pure_bind, and_iff_right rfl, twice, ← length]
              rw [← length] at fewer
              exact ih (next + chunk.length) later _ _ (by omega) (by omega) fewer
        · rw [read]
          exact iff_of_false (fun same => by cases (Prod.mk.inj same).1) (fun both => short both.1.1)

theorem catch_message_iff {ε : Type} (body : FrontendM (Except ε Unit)) (convert : String → ε)
    (choices rest : List FrontendChoice) (fs after : FileSystem) :
    exec frontendAloneSem
      (catchFileSystemException body (fun what => pure (.error (convert what)))).run choices fs =
        (.ok (.ok ()), rest, after) ↔
      exec frontendAloneSem body.run choices fs = (.ok (.ok ()), rest, after) := by
  rw [catchFileSystemException, ExceptT.run_mk, exec_bind]
  generalize exec frontendAloneSem body.run choices fs = outcome
  obtain ⟨result, left, last⟩ := outcome
  cases result with
  | ok value => exact Iff.rfl
  | error thrown =>
      cases thrown with
      | fileSystemException what =>
          exact iff_of_false (fun same => by cases (Prod.mk.inj same).1)
            (fun same => by cases (Prod.mk.inj same).1)
      | filesystemError what => exact Iff.rfl
      | undefinedBehaviour => exact Iff.rfl
      | nonterminating => exact Iff.rfl

-- The first read of the loop opens the file.
theorem exec_first_deref {path : String} {bytes : Bytes} (size : Nat)
    (choices : List FrontendChoice) (fs : FileSystem) (there : fs.content path = some bytes) :
    let run := exec frontendAloneSem
      (Failing.inline frontendFile
        (ChunkIterator.deref MAX_CHUNK_SIZE ⟨0, size, path, none, none⟩)).run
      choices fs
    ((choices.headD default).file.failure = none → run = exec frontendAloneSem
      (Failing.inline frontendFile
        (ChunkIterator.deref MAX_CHUNK_SIZE ⟨0, size, path, some 0, none⟩)).run choices.tail fs) ∧
      ((choices.headD default).file.failure ≠ none → ∃ thrown, run = (.error thrown, choices.tail, fs)) := by
  have opened : ChunkIterator.createStreamIfNecessary ⟨0, size, path, some 0, none⟩ =
      pure ⟨0, size, path, some 0, none⟩ := rfl
  dsimp only
  rw [ChunkIterator.deref, ChunkIterator.deref, opened, pure_bind, ChunkIterator.createStreamIfNecessary]
  dsimp only
  rw [bind_assoc, openForReading, exec_files_perform]
  have reply : fileSem (.openRead path) (choices.headD default).file fs =
      ((choices.headD default).file.failure.isNone, fs) := by
    simp [fileSem, content_exists there]
  simp only [createsOrRemoves, Bool.false_eq_true, if_false]
  rw [reply]
  dsimp only
  cases (choices.headD default).file.failure with
  | none => exact ⟨fun _ => rfl, fun failed => absurd rfl failed⟩
  | some reason => exact ⟨(fun works => by cases works), fun _ => ⟨_, rfl⟩⟩

theorem sent_iff (blobHash workerAddress path : String) (bytes : Bytes) (size : Nat)
    (choices rest : List FrontendChoice) (fs after : FileSystem)
    (there : fs.content path = some bytes) :
    exec frontendAloneSem (sendBlobToWorker ⟨path, size⟩ blobHash workerAddress).run choices fs =
      (.ok (.ok ()), rest, after) ↔
      Sent bytes size choices ∧ rest = choices.drop (sentChoices size) ∧ after = fs := by
  rw [send_blob_eq, catch_message_iff, BlobFile.forEach, BlobFile.begin, Sent, sentChoices]
  dsimp only
  have stream := stream_ends_iff blobHash workerAddress path bytes size
    (BlobFile.finish ⟨path, size⟩) rfl (size + 1) 0
    (size ⌈/⌉ MAX_CHUNK_SIZE) [] choices.tail rest fs after there (by omega) (by omega) rfl
  by_cases empty : size = 0
  · subst empty
    rw [if_pos rfl, if_pos rfl, forChunks,
      if_neg (by simp [ChunkIterator.differs, BlobFile.finish]), pure_bind, finish_ends_iff,
      Streams, List.drop_one]
  · have differs : ∀ stream, ChunkIterator.differs ⟨0, size, path, stream, none⟩
        (BlobFile.finish ⟨path, size⟩) = true :=
      fun _ => by simpa [ChunkIterator.differs, BlobFile.finish] using Ne.symm empty
    obtain ⟨opens, fails⟩ := exec_first_deref size choices fs there
    have shift : choices.drop (2 * (size ⌈/⌉ MAX_CHUNK_SIZE) + 2) =
        choices.tail.drop (2 * (size ⌈/⌉ MAX_CHUNK_SIZE) + 1) := by
      rw [← List.drop_one, List.drop_drop]
      congr 1
      omega
    rw [if_neg empty, if_neg empty, shift, and_assoc, ← stream, exec_loop_step _ _ _ _ _ _ _ _ (differs _),
      exec_loop_step _ _ _ _ _ _ _ _ (differs _)]
    by_cases works : (choices.headD default).file.failure = none
    · rw [opens works, and_iff_right works]
    · obtain ⟨thrown, failed⟩ := fails works
      rw [failed]
      exact iff_of_false (fun same => by cases (Prod.mk.inj same).1) (fun both => works both.1)

theorem wp_send_keeps_files (blobHash workerAddress path : String) (bytes : Bytes) (size : Nat)
    (fs : FileSystem) (there : fs.content path = some bytes) :
    wp frontendAloneSem (fun _ => True) (sendBlobToWorker ⟨path, size⟩ blobHash workerAddress).run
      (fun _ after => after = fs) fs := by
  rw [send_blob_eq]
  refine wp_catch _ _ _ _ ?_
  rw [wp_run_bind, BlobFile.forEach]
  refine wp_for_recorded_chunks (fun _ _ => Or.inr trivial) frontend_alone_files MAX_CHUNK_SIZE
    (by decide) _ _ path size bytes
    (fun _ _ whole => whole = fs) _ ?_ ?_ ?_ ?_ (size + 1) 0 none _ [] fs
      (by omega) (by omega) rfl (.inl rfl) rfl
  · rintro next sent whole rfl
    exact there
  · rintro next sent whole chunk rfl _ _ _
    rw [sendChunk, Frontend.writeSaveBlob, wp_run_bind, wp_run_perform]
    intro choice _
    have written : frontendAloneSem (.saveBlobWrite workerAddress ⟨blobHash, chunk⟩) choice whole =
        (choice.streamOpen, whole) := rfl
    rw [written]
    cases choice.streamOpen with
    | true => exact rfl
    | false => exact fun _ _ => rfl
  · rintro sent whole rfl
    dsimp only
    rw [finishStream, Frontend.finishSaveBlob, wp_run_bind, wp_run_perform]
    intro choice _
    have finished : frontendAloneSem (.saveBlobFinish workerAddress sent) choice whole =
        (choice.finished, whole) := rfl
    rw [finished]
    cases choice.finished with
    | ok _ => exact rfl
    | error status => exact rfl
  · rintro next sent whole what rfl _ _
    exact fun _ _ => rfl

-- The blob goes to every worker, or it stops at the first that does not take it whole.
theorem sent_to_all_iff (blobHash path : String) (bytes : Bytes) (size : Nat)
    (workers : List String) (choices : List FrontendChoice) (fs : FileSystem)
    (there : fs.content path = some bytes) :
    let outcome := exec frontendAloneSem (sendBlobToWorkers ⟨path, size⟩ blobHash workers).run choices fs
    outcome.2.2 = fs ∧ (outcome.1 = .ok (.ok ()) ↔ SentToAll bytes size workers choices) := by
  induction workers generalizing choices with
  | nil => exact ⟨rfl, iff_of_true rfl trivial⟩
  | cons workerAddress rest ih =>
      have kept := wp_sound (fun _ => True)
        (sendBlobToWorker ⟨path, size⟩ blobHash workerAddress).run
        (fun _ after => after = fs) choices fs
        trivial (fun _ _ => trivial) (wp_send_keeps_files blobHash workerAddress path bytes size fs there)
      have sent := fun left => sent_iff blobHash workerAddress path bytes size choices left fs fs there
      dsimp only
      rw [sendBlobToWorkers, SentToAll, ExceptT.run_bind, exec_bind]
      generalize exec frontendAloneSem (sendBlobToWorker ⟨path, size⟩ blobHash workerAddress).run
        choices fs = outcome at kept sent
      by_cases taken : Sent bytes size choices
      · rw [(sent _).mpr ⟨taken, rfl, rfl⟩, and_iff_right taken]
        exact ih _
      · obtain ⟨result, left, after⟩ := outcome
        obtain rfl : after = fs := kept
        have failed : result ≠ .ok (.ok ()) := fun succeeded => taken ((sent left).mp (by rw [succeeded])).1
        cases result with
        | error thrown => exact ⟨rfl, iff_of_false (fun same => by cases same) (fun both => taken both.1)⟩
        | ok answer =>
            cases answer with
            | error message =>
                exact ⟨rfl, iff_of_false (fun same => by cases same) (fun both => taken both.1)⟩
            | ok _ => exact absurd rfl failed

end Send

end BlobStore
