import BlobStore.BlobRules
import BlobStore.WorkerRuns
import BlobStore.Library.Pieces

set_option autoImplicit false

namespace BlobStore

open Effects FileSystem

-- for (chunk : blob) with a body of which only the chunks it is given matter.
inductive LoopCall where
  | file (call : FileCall)
  | yield (chunk : Bytes)

@[reducible] def LoopReply : LoopCall → Type
  | .file call => FileReply call
  | .yield _ => Unit

-- meanwhile is whatever the body and everybody else did to the files.
structure LoopChoice where
  file : FileChoice := {}
  meanwhile : FileSystem → FileSystem := id

instance : Inhabited LoopChoice := ⟨{}⟩

def loopFile (call : FileCall) : Program LoopCall LoopReply (FileReply call) :=
  Program.perform (LoopCall.file call)

-- The second component is what has been handed out so far.
def loopSem : Sem LoopCall LoopReply LoopChoice (FileSystem × List Bytes)
  | .file call, choice, (fs, yielded) =>
      let outcome := fileSem call choice.file fs
      (outcome.1, outcome.2, yielded)
  | .yield chunk, choice, (fs, yielded) => ((), choice.meanwhile fs, yielded ++ [chunk])

def yieldChunks (maxChunk : Nat) (blob : BlobFile) : Failing LoopCall LoopReply Thrown (Flow Unit Unit) :=
  blob.forEach maxChunk loopFile
    (fun _ chunk => do
      let _ ← Failing.perform (LoopCall.yield chunk)
      pure (.next ()))
    (fun _ => pure ()) ()

-- The files work, and nobody changes the one that is read.
structure LeavesFile (path : String) (choice : LoopChoice) : Prop where
  works : FileHealthy choice.file
  kept : ∀ fs, (choice.meanwhile fs).content path = fs.content path

theorem loop_files (path : String) :
    ActsOnFiles loopSem (LeavesFile path) loopFile FileHealthy Prod.fst
      (fun whole fs => (fs, whole.2)) where
  setGet := fun _ => rfl
  inline := by
    intro α program post whole holds
    refine wp_inline_part FileHealthy loopFile Prod.fst (fun whole fs => (fs, whole.2))
      (fun _ _ => rfl) (fun _ _ _ => rfl) (fun _ => rfl)
      ?_ program.run post whole holds
    intro call after whole each
    rw [loopFile, wp_perform]
    exact fun choice leaves => each choice.file leaves.works

-- What has been handed out when the iterator stands at next.
structure Yielding (maxChunk : Nat) (blob : BlobFile) (bytes : Bytes) (next : Nat)
    (whole : FileSystem × List Bytes) : Prop where
  there : whole.1.content blob.filePath = some bytes
  inside : next ≤ bytes.length
  handed : ∃ count, count ≤ blob.fileSize ⌈/⌉ maxChunk ∧ next = min (count * maxChunk) blob.fileSize ∧
    whole.2 = pieces maxChunk (bytes.take blob.fileSize) count

-- How the loop ends. A file that is too short ends it by the exception, after all the
-- chunks that the file is long enough for.
inductive LoopEnds (maxChunk : Nat) (blob : BlobFile) (bytes : Bytes) :
    Except Thrown (Flow Unit Unit) → FileSystem × List Bytes → Prop where
  | whole (after : FileSystem) (long : blob.fileSize ≤ bytes.length) :
      LoopEnds maxChunk blob bytes (.ok (.next ()))
        (after, pieces maxChunk (bytes.take blob.fileSize) (blob.fileSize ⌈/⌉ maxChunk))
  | short (what : String) (after : FileSystem) (missing : bytes.length < blob.fileSize) :
      LoopEnds maxChunk blob bytes (.error (.fileSystemException what))
        (after, pieces maxChunk bytes (bytes.length / maxChunk))

section Loop

variable {maxChunk : Nat} {blob : BlobFile} {bytes : Bytes} {next : Nat}

theorem yielding_between {whole : FileSystem × List Bytes}
    (yielding : Yielding maxChunk blob bytes next whole) (more : next < blob.fileSize) :
    ∃ count, next = count * maxChunk ∧ whole.2 = pieces maxChunk (bytes.take blob.fileSize) count := by
  obtain ⟨count, -, stands, handed⟩ := yielding.handed
  exact ⟨count, by omega, handed⟩

theorem yielding_next {fs : FileSystem} {yielded : List Bytes} {chunk : Bytes}
    (positive : 0 < maxChunk) (yielding : Yielding maxChunk blob bytes next (fs, yielded))
    (more : next < blob.fileSize)
    (read : chunk = (bytes.drop next).take (min maxChunk (blob.fileSize - next)))
    (length : chunk.length = min maxChunk (blob.fileSize - next)) (after : FileSystem)
    (kept : after.content blob.filePath = fs.content blob.filePath) :
    Yielding maxChunk blob bytes (next + chunk.length) (after, yielded ++ [chunk]) := by
  obtain ⟨count, rfl, handed⟩ := yielding_between yielding more
  have inFile : chunk.length ≤ bytes.length - count * maxChunk := by
    rw [read, List.length_take, List.length_drop]
    omega
  refine ⟨kept.trans yielding.there, ?_, count + 1, ?_, ?_, ?_⟩
  · have inside := yielding.inside
    omega
  · exact (lt_ceil_iff positive _ _).mpr more
  · rw [length, Nat.succ_mul]
    omega
  · rw [pieces_succ, ← handed, read, List.drop_take, List.take_take]

theorem yielding_done {whole : FileSystem × List Bytes} (positive : 0 < maxChunk)
    (yielding : Yielding maxChunk blob bytes blob.fileSize whole) :
    LoopEnds maxChunk blob bytes (.ok (.next ())) whole := by
  obtain ⟨after, yielded⟩ := whole
  obtain ⟨count, needed, stands, handed⟩ := yielding.handed
  have all : blob.fileSize ⌈/⌉ maxChunk ≤ count := by
    rw [ceilDiv_le_iff_le_mul positive, Nat.mul_comm]
    omega
  obtain rfl : count = blob.fileSize ⌈/⌉ maxChunk := Nat.le_antisymm needed all
  obtain rfl : yielded = _ := handed
  exact .whole after yielding.inside

theorem yielding_short {whole : FileSystem × List Bytes}
    (yielding : Yielding maxChunk blob bytes next whole) (more : next < blob.fileSize)
    (short : bytes.length < next + min maxChunk (blob.fileSize - next)) (what : String) :
    LoopEnds maxChunk blob bytes (.error (.fileSystemException what)) whole := by
  obtain ⟨after, yielded⟩ := whole
  obtain ⟨count, rfl, handed⟩ := yielding_between yielding more
  have inside := yielding.inside
  have missing : bytes.length < blob.fileSize := by omega
  have fitting : bytes.length / maxChunk = count := by
    refine Nat.div_eq_of_lt_le inside ?_
    rw [Nat.succ_mul]
    omega
  obtain rfl : yielded = _ := handed
  rw [List.take_of_length_le missing.le, ← fitting]
  exact .short what after missing

theorem wp_yield_chunks (positive : 0 < maxChunk) (blob : BlobFile) (fs : FileSystem)
    (there : fs.content blob.filePath = some bytes) :
    wp loopSem (LeavesFile blob.filePath)
      (yieldChunks maxChunk blob).run (LoopEnds maxChunk blob bytes) (fs, []) := by
  rw [yieldChunks, BlobFile.forEach, BlobFile.begin]
  refine wp_for_recorded_chunks tolerates_healthy (loop_files blob.filePath) maxChunk positive _ _
    blob.filePath blob.fileSize bytes
    (fun next _ whole => Yielding maxChunk blob bytes next whole) _ ?_ ?_ ?_ ?_
      (blob.fileSize + 1) 0 none blob.finish () (fs, [])
    (by omega) (by omega) rfl (.inl rfl) ?_
  · exact fun next _ whole yielding => yielding.there
  · rintro next _ ⟨now, yielded⟩ chunk yielding more read length
    rw [wp_run_bind, wp_run_perform]
    intro choice leaves
    exact yielding_next positive yielding more read length _ (leaves.kept now)
  · exact fun _ whole yielding => yielding_done positive yielding
  · intro next _ whole what yielding more short
    exact yielding_short yielding more (short.resolve_left id) what
  · exact ⟨there, Nat.zero_le _, 0, Nat.zero_le _, by simp, rfl⟩

theorem ends_whole {outcome : Except Thrown (Flow Unit Unit)} {whole : FileSystem × List Bytes}
    (positive : 0 < maxChunk) (ends : LoopEnds maxChunk blob bytes outcome whole)
    (long : blob.fileSize ≤ bytes.length) :
    outcome = .ok (.next ()) ∧ whole.2.length = blob.fileSize ⌈/⌉ maxChunk ∧
      Cut maxChunk (bytes.take blob.fileSize) whole.2 := by
  cases ends with
  | whole after _ =>
      have cut := pieces_cut positive (bytes.take blob.fileSize)
      rw [List.length_take, Nat.min_eq_left long] at cut
      exact ⟨rfl, length_pieces _ _ _, cut⟩
  | short what after missing => omega

theorem ends_short {outcome : Except Thrown (Flow Unit Unit)} {whole : FileSystem × List Bytes}
    (ends : LoopEnds maxChunk blob bytes outcome whole) (missing : bytes.length < blob.fileSize) :
    (∃ what, outcome = .error (.fileSystemException what)) ∧ whole.2.flatten <+: bytes := by
  cases ends with
  | whole after long => omega
  | short what after _ =>
      refine ⟨⟨what, rfl⟩, ?_⟩
      dsimp only
      rw [flatten_pieces]
      exact List.take_prefix _ _

-- The iterators whose position the loop compares with the end of the file.
inductive LoopReaches (maxChunk : Nat) (blob : BlobFile) (bytes : Bytes) : ChunkIterator → Prop where
  | begins : LoopReaches maxChunk blob bytes blob.begin
  | advances (it after : ChunkIterator) (chunk : Bytes) (choices : List FileChoice) (fs : FileSystem)
      (reached : LoopReaches maxChunk blob bytes it) (more : it.differs blob.finish = true)
      (works : ∀ choice ∈ choices, FileHealthy choice) (there : fs.content blob.filePath = some bytes)
      (read : (exec fileSem (it.deref maxChunk).run choices fs).1 = .ok (chunk, after)) :
      LoopReaches maxChunk blob bytes after.increment

-- The stream, once it is open, stands where the iterator does.
structure InStep (blob : BlobFile) (it : ChunkIterator) : Prop where
  path : it.filePath = blob.filePath
  size : it.fileSize = blob.fileSize
  uncached : it.currentChunk = none
  stands : it.fileStream = some it.nextByte ∨ it.fileStream = none
  inside : it.nextByte ≤ blob.fileSize

theorem reached_in_step {it : ChunkIterator} (reached : LoopReaches maxChunk blob bytes it) :
    InStep blob it := by
  induction reached with
  | begins => exact ⟨rfl, rfl, rfl, .inr rfl, Nat.zero_le _⟩
  | advances it after chunk choices fs _ more works there read inStep =>
      have left : subU64 it.fileSize it.nextByte = blob.fileSize - it.nextByte := by
        rw [inStep.size, subU64, if_pos inStep.inside]
      have holds : wp fileSem FileHealthy (it.deref maxChunk).run
          (fun outcome _ => ∀ chunk after, outcome = .ok (chunk, after) →
            InStep blob after.increment) fs := by
        refine wp_deref tolerates_healthy maxChunk it it.nextByte bytes _ fs
          (inStep.path ▸ there) inStep.uncached
          (inStep.stands.imp id (fun closed => ⟨closed, rfl⟩)) ?_ ?_
        · rintro chunk - length _ _ ⟨⟩
          rw [left] at length
          have inside := inStep.inside
          exact ⟨inStep.path, inStep.size, rfl, .inl rfl, by simp only [ChunkIterator.increment]; omega⟩
        · exact fun _ what chunk after returned => by cases returned
      exact wp_sound FileHealthy _ _ choices fs rfl works holds chunk after read

-- MAX is any limit, and the recorded size may be larger or smaller than the file.
theorem blob_loop_yields_recorded (positive : 0 < maxChunk) (blob : BlobFile) (bytes : Bytes)
    (fs : FileSystem) (there : fs.content blob.filePath = some bytes) (choices : List LoopChoice)
    (leaves : ∀ choice ∈ choices, LeavesFile blob.filePath choice) :
    let run := exec loopSem (yieldChunks maxChunk blob).run choices (fs, [])
    let chunks := run.2.2.2
    run.1 ≠ .error .nonterminating ∧
      (blob.fileSize ≤ bytes.length → run.1 = .ok (.next ()) ∧ chunks.length = blob.fileSize ⌈/⌉ maxChunk ∧
        Cut maxChunk (bytes.take blob.fileSize) chunks) ∧
      (bytes.length < blob.fileSize → (∃ what, run.1 = .error (.fileSystemException what)) ∧
        chunks.flatten <+: bytes) ∧
      ∀ it, LoopReaches maxChunk blob bytes it →
        it.nextByte ≤ blob.fileSize ∧
          (subU64 it.fileSize it.nextByte : Int) = (blob.fileSize : Int) - it.nextByte := by
  intro run chunks
  have ends : LoopEnds maxChunk blob bytes run.1 run.2.2 :=
    wp_sound _ _ _ choices (fs, []) ⟨rfl, fun _ => rfl⟩ leaves (wp_yield_chunks positive blob fs there)
  have reaches : ∀ it, LoopReaches maxChunk blob bytes it →
      it.nextByte ≤ blob.fileSize ∧
        (subU64 it.fileSize it.nextByte : Int) = (blob.fileSize : Int) - it.nextByte := by
    intro it reached
    have inStep := reached_in_step reached
    refine ⟨inStep.inside, ?_⟩
    rw [inStep.size, subU64, if_pos inStep.inside]
    exact Int.ofNat_sub inStep.inside
  refine ⟨?_, ends_whole positive ends, ends_short ends, reaches⟩
  intro stuck
  rw [stuck] at ends
  cases ends

end Loop

-- Three bytes of which two go in one chunk.
def letters : FileSystem := freshWorker.put ["app", "blobs", "7"] (.file [97, 98, 99])

theorem blob_loop_yields_recorded_run :
    (exec loopSem (yieldChunks 2 ⟨"blobs/7", 3⟩).run [] (letters, [])).2.2.2.length = 2 ∧
      Cut 2 [97, 98, 99] (exec loopSem (yieldChunks 2 ⟨"blobs/7", 3⟩).run [] (letters, [])).2.2.2 :=
  ((blob_loop_yields_recorded (by decide) ⟨"blobs/7", 3⟩ [97, 98, 99] letters (by decide +kernel)
    [] (by simp)).2.1 (by decide)).2

-- A file that is one byte short.
example : (exec loopSem (yieldChunks 2 ⟨"blobs/7", 4⟩).run [] (letters, [])).2.2.2 =
      [[97, 98]] := by decide +kernel

end BlobStore
