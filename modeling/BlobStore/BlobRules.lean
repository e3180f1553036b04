import BlobStore.FileRules

set_option autoImplicit false

namespace BlobStore

open Effects FileSystem WorkerService

-- BlobFile::New can open its file at this location, in this file system.
def Opens (fs : FileSystem) (name : String) (base : FileSystem) (location : Location) : Prop :=
  makeBlobs fs = some base ∧ base.resolve (joinPath "blobs" name) = some location ∧
    base.node location ≠ some .directory

theorem opens_blob (fs : FileSystem) (blobs : HasBlobs fs) (name : String) (ordinary : OrdinaryName name)
    (free : fs.node (blobLocation fs name) ≠ some .directory) : Opens fs name fs (blobLocation fs name) := by
  refine ⟨make_blobs fs blobs, ?_, free⟩
  rw [join_blob name ordinary]
  exact resolve_blob fs blobs name ordinary

theorem opens_unique {fs one two : FileSystem} {name : String} {first second : Location}
    (former : Opens fs name one first) (latter : Opens fs name two second) :
    one = two ∧ first = second := by
  obtain ⟨made, resolved, -⟩ := former
  obtain ⟨again, same, -⟩ := latter
  obtain rfl := Option.some.inj (made.symm.trans again)
  exact ⟨rfl, Option.some.inj (resolved.symm.trans same)⟩

def payload (messages : List SaveBlobRequest) : Bytes := (messages.map SaveBlobRequest.chunkData).flatten

theorem receive_message (X : Xxh64) (request : SaveBlobRequest) (rest : List SaveBlobRequest)
    (hash : String) (named : hash ≠ "") (file : BlobFile) (hasher : BlobHasher X) :
    receiveMessages X (request :: rest) ⟨hash, some file, hasher⟩ = (do
      let file ← file.appendChunk request.chunkData
      receiveMessages X rest ⟨hash, some file, hasher.addChunk request.chunkData⟩) := by
  simp only [receiveMessages, named, if_false, pure_bind]

theorem receive_first_message (X : Xxh64) (request : SaveBlobRequest) (rest : List SaveBlobRequest)
    (file : Option BlobFile) (hasher : BlobHasher X) :
    receiveMessages X (request :: rest) ⟨"", file, hasher⟩ = (do
      let file ← BlobFile.create request.blobHash
      let file ← file.appendChunk request.chunkData
      receiveMessages X rest ⟨request.blobHash, some file, hasher.addChunk request.chunkData⟩) := by
  simp only [receiveMessages, if_true, pure_bind]

theorem receive_nothing (X : Xxh64) :
    (receiveBlobFromFrontend X []).run = pure (.error .undefinedBehaviour) := by
  have unnamed : ("" : String) ≠ X.blobHash [] := fun same => (blob_hash_ordinary X []).1 same.symm
  have hashed : (BlobHasher.new : BlobHasher X).finalize = X.blobHash [] := BlobHasher.finalize_chunks []
  have received : receiveMessages X [] ⟨"", none, BlobHasher.new⟩ = pure ⟨"", none, BlobHasher.new⟩ := rfl
  rw [receiveBlobFromFrontend, received, pure_bind]
  dsimp only
  rw [hashed, if_pos unnamed]
  rfl

section Rules

variable {ok : FileChoice → Prop} {trouble : Prop} (kind : Tolerates ok trouble)

include kind

theorem wp_create (name : String) (post : Except Thrown BlobFile → FileSystem → Prop)
    (fs : FileSystem)
    (created : ∀ base location, Opens fs name base location →
      post (.ok ⟨joinPath "blobs" name, 0⟩) (base.put location (.file [])))
    (failed : (trouble ∨ ¬ ∃ base location, Opens fs name base location) →
      ∀ thrown after, post (.error thrown) after) :
    wp fileSem ok (BlobFile.create name).run post fs := by
  rw [BlobFile.create, wp_run_bind]
  refine wp_create_blobs kind _ fs ?_ ?_
  · intro base made
    dsimp only
    rw [wp_run_bind]
    refine wp_open_truncate kind _ _ base ?_ ?_
    · exact fun location resolved free => created base location ⟨made, resolved, free⟩
    · intro closed
      refine failed ?_ _ _
      cases closed with
      | inl troubled => exact .inl troubled
      | inr blocked =>
          right
          intro opens
          obtain ⟨other, location, again, resolved, free⟩ := opens
          obtain rfl := Option.some.inj (made.symm.trans again)
          exact free (blocked location resolved)
  · intro unmade thrown
    refine failed ?_ thrown fs
    cases unmade with
    | inl troubled => exact .inl troubled
    | inr none =>
        right
        intro opens
        obtain ⟨base, location, made, -⟩ := opens
        rw [none] at made
        cases made

theorem wp_append_chunk (writes : WritesWhole ok) (file : BlobFile) (chunk : Bytes)
    (post : Except Thrown BlobFile → FileSystem → Prop) (base : FileSystem) (location : Location)
    (old : Bytes) (resolved : base.resolve file.filePath = some location)
    (free : base.node location ≠ some .directory)
    (appended : post (.ok ⟨file.filePath, (file.fileSize + chunk.length) % 2 ^ 64⟩)
      (base.put location (.file (old ++ chunk))))
    (failed : trouble → ∀ thrown after, post (.error thrown) after) :
    wp fileSem ok (file.appendChunk chunk).run post (base.put location (.file old)) := by
  rw [BlobFile.appendChunk, wp_run_bind]
  refine wp_append kind writes _ _ _ _ location old
    ((resolve_put_file base location old free _).trans resolved) (by simp) ?_ ?_
  · rw [put_put]
    exact appended
  · exact fun troubled => failed troubled _ _

theorem wp_receive_messages (writes : WritesWhole ok) (X : Xxh64) (messages : List SaveBlobRequest)
    (hash : String) (named : hash ≠ "") (path : String) (size : Nat) (hasher : BlobHasher X)
    (post : Except Thrown (Receiving X) → FileSystem → Prop) (base : FileSystem)
    (location : Location) (old : Bytes) (resolved : base.resolve path = some location)
    (free : base.node location ≠ some .directory)
    (received : ∀ last,
      post (.ok ⟨hash, some ⟨path, last⟩,
        hasher.addChunks (messages.map SaveBlobRequest.chunkData)⟩)
        (base.put location (.file (old ++ payload messages))))
    (failed : trouble → ∀ thrown after, post (.error thrown) after) :
    wp fileSem ok (receiveMessages X messages ⟨hash, some ⟨path, size⟩, hasher⟩).run post
      (base.put location (.file old)) := by
  induction messages generalizing size hasher old with
  | nil =>
      have done := received size
      simp only [payload, BlobHasher.addChunks, List.map_nil, List.foldl_nil,
        List.flatten_nil, List.append_nil] at done
      exact done
  | cons request rest ih =>
      rw [receive_message X request rest hash named, wp_run_bind]
      refine wp_append_chunk kind writes _ _ _ base location old resolved free ?_ failed
      refine ih _ (hasher.addChunk request.chunkData) (old ++ request.chunkData) ?_
      intro last
      simpa [payload, BlobHasher.addChunks, List.append_assoc] using received last

-- A stream that is not empty, to a name that is not empty either.
theorem wp_receive_blob (writes : WritesWhole ok) (X : Xxh64) (first : SaveBlobRequest)
    (rest : List SaveBlobRequest) (named : first.blobHash ≠ "")
    (post : Except Thrown (Except Status String) → FileSystem → Prop) (fs : FileSystem)
    (verified : ∀ base location, Opens fs first.blobHash base location →
      first.blobHash = X.blobHash (payload (first :: rest)) →
      post (.ok (.ok first.blobHash)) (base.put location (.file (payload (first :: rest)))))
    (mismatch : ∀ base location, Opens fs first.blobHash base location →
      first.blobHash ≠ X.blobHash (payload (first :: rest)) →
      post (.ok (.error ⟨.invalidArgument, "Blob hash mismatch."⟩))
      ((base.put location (.file (payload (first :: rest)))).erase location))
    (failed : (trouble ∨ ¬ ∃ base location, Opens fs first.blobHash base location) → ∀ after,
      (∀ thrown, post (.error thrown) after) ∧ ∀ status, post (.ok (.error status)) after) :
    wp fileSem ok (receiveBlobFromFrontend X (first :: rest)).run post fs := by
  have thrown : (trouble ∨ ¬ ∃ base location, Opens fs first.blobHash base location) → ∀ error after,
      Caught fileSem ok (fun what => pure (.error ⟨.cancelled, what⟩)) post (.error error) after :=
    fun troubled error after =>
      caught_error _ post after (failed troubled after).1 (failed troubled after).2 error
  rw [receiveBlobFromFrontend]
  refine wp_catch _ _ _ _ ?_
  rw [wp_run_bind, receive_first_message, wp_run_bind]
  refine wp_create kind _ _ _ ?_ (fun troubled error after => thrown troubled error after)
  intro base location opens
  dsimp only
  rw [wp_run_bind]
  obtain ⟨made, resolved, free⟩ := opens
  refine wp_append_chunk kind writes _ _ _ base location [] resolved free ?_
    (fun troubled error after => thrown (.inl troubled) error after)
  refine wp_receive_messages kind writes X rest first.blobHash named _ _ _ _ base location _ resolved free ?_
    (fun troubled error after => thrown (.inl troubled) error after)
  intro last
  dsimp only
  have hashed : ((BlobHasher.new.addChunk first.chunkData).addChunks
      (rest.map SaveBlobRequest.chunkData)).finalize =
      X.blobHash (payload (first :: rest)) :=
    BlobHasher.finalize_chunks ((first :: rest).map SaveBlobRequest.chunkData)
  rw [hashed]
  have gathered : [] ++ first.chunkData ++ payload rest = payload (first :: rest) := by simp [payload]
  rw [gathered]
  by_cases same : first.blobHash = X.blobHash (payload (first :: rest))
  · rw [if_neg (fun different => different same)]
    exact verified base location ⟨made, resolved, free⟩ same
  · rw [if_pos same, wp_run_bind]
    refine wp_remove_file kind _ _ _ location (payload (first :: rest))
      ((resolve_put_file base location _ free _).trans resolved) (by simp) ?_
        (fun troubled error => thrown (.inl troubled) error _)
    exact mismatch base location ⟨made, resolved, free⟩ same

theorem wp_load (name : String) (post : Except Thrown BlobFile → FileSystem → Prop) (fs : FileSystem)
    (loaded : ∀ base bytes, makeBlobs fs = some base → base.content (joinPath "blobs" name) = some bytes →
      post (.ok ⟨joinPath "blobs" name, bytes.length⟩) base)
    (missing : ∀ base what, makeBlobs fs = some base → base.lookup (joinPath "blobs" name) = none →
      post (.error (.fileSystemException what)) base)
    (failed : trouble ∨ makeBlobs fs = none ∨
        (∃ base, makeBlobs fs = some base ∧ base.lookup (joinPath "blobs" name) = some .directory) →
      ∀ thrown after, post (.error thrown) after) :
    wp fileSem ok (BlobFile.load name).run post fs := by
  rw [BlobFile.load, wp_run_bind]
  refine wp_create_blobs kind _ fs ?_ ?_
  · intro base made
    dsimp only
    rw [wp_run_bind]
    refine wp_file_exists kind _ _ base ?_ (fun troubled thrown => failed (.inl troubled) thrown base)
    dsimp only
    by_cases present : (base.lookup (joinPath BlobFile.BLOBS_PATH name)).isSome = true
    · rw [if_pos present, wp_run_bind]
      refine wp_file_size kind _ _ base (fun bytes there => loaded base bytes made there) ?_
      intro trouble thrown
      refine failed ?_ thrown base
      cases trouble with
      | inl troubled => exact .inl troubled
      | inr unread =>
          obtain ⟨node, there⟩ := Option.isSome_iff_exists.mp present
          cases node with
          | directory => exact .inr (.inr ⟨base, made, there⟩)
          | file bytes => simp [content, there] at unread
    · rw [if_neg present]
      exact missing base _ made (Option.not_isSome_iff_eq_none.mp present)
  · intro unmade thrown
    refine failed ?_ thrown fs
    cases unmade with
    | inl troubled => exact .inl troubled
    | inr none => exact .inr (.inl none)

theorem wp_delete_file (hash : String)
    (post : Except Thrown (Except Status Unit) → FileSystem → Prop) (fs : FileSystem)
    (absent : fs.lookup ("blobs/" ++ hash) = none → ∀ status, post (.ok (.error status)) fs)
    (present : ∀ location bytes, fs.resolve ("blobs/" ++ hash) = some location →
      fs.node location = some (.file bytes) → post (.ok (.ok ())) (fs.erase location))
    (failed : trouble ∨ fs.lookup ("blobs/" ++ hash) = some .directory →
      ∀ outcome after, post outcome after) :
    wp fileSem ok (deleteFile hash).run post fs := by
  rw [deleteFile]
  refine wp_catch _ _ _ _ ?_
  have thrown : trouble ∨ fs.lookup ("blobs/" ++ hash) = some .directory → ∀ outcome after,
      Caught fileSem ok (fun what => pure (.error ⟨.cancelled, what⟩)) post outcome after := by
    intro troubled outcome after
    cases outcome with
    | ok status => exact failed troubled _ _
    | error error =>
        exact caught_error _ post after (fun _ => failed troubled _ _) (fun _ => failed troubled _ _) error
  rw [wp_run_bind]
  refine wp_file_exists kind _ _ fs ?_ (fun troubled _ => thrown (.inl troubled) _ _)
  dsimp only
  have path : BLOBS_PATH ++ hash = "blobs/" ++ hash := rfl
  rw [path]
  cases resolved : fs.resolve ("blobs/" ++ hash) with
  | none =>
      have none : fs.lookup ("blobs/" ++ hash) = none := by simp [lookup, resolved]
      rw [none]
      exact absent none _
  | some location =>
      have looked : fs.lookup ("blobs/" ++ hash) = fs.node location := by simp [lookup, resolved]
      rw [looked] at absent failed thrown ⊢
      cases there : fs.node location with
      | none => exact absent there _
      | some node =>
          cases node with
          | file bytes =>
              rw [Option.isSome_some, if_pos rfl, wp_run_bind]
              exact wp_remove_file kind _ _ fs location bytes resolved there
                (present location bytes resolved there)
                (fun troubled _ => thrown (.inl troubled) _ _)
          | directory =>
              exact wp_always _ _ _ (fun outcome after => thrown (.inr there) outcome after)

-- The stream need not stand at next_byte, nor the file be as long as recorded.
theorem wp_deref (maxChunk : Nat) (it : ChunkIterator) (position : Nat) (bytes : Bytes)
    (post : Except Thrown (Bytes × ChunkIterator) → FileSystem → Prop) (fs : FileSystem)
    (there : fs.content it.filePath = some bytes) (uncached : it.currentChunk = none)
    (stands : it.fileStream = some position ∨ it.fileStream = none ∧ position = it.nextByte)
    (read : ∀ chunk, chunk = (bytes.drop position).take
      (min maxChunk (subU64 it.fileSize it.nextByte)) →
      chunk.length = min maxChunk (subU64 it.fileSize it.nextByte) →
      post (.ok (chunk,
        { it with fileStream := some (position + chunk.length), currentChunk := some chunk })) fs)
    (failed : trouble ∨ bytes.length < position + min maxChunk (subU64 it.fileSize it.nextByte) →
      ∀ what, post (.error (.fileSystemException what)) fs) :
    wp fileSem ok (it.deref maxChunk).run post fs := by
  have opened : wp fileSem ok it.createStreamIfNecessary.run
      (fun outcome after => after = fs ∧ (outcome = .ok { it with fileStream := some position } ∨
        trouble ∧ ∃ what, outcome = .error (.fileSystemException what))) fs := by
    obtain ⟨next, size, path, stream, chunk⟩ := it
    rcases stands with already | ⟨closed, rfl⟩
    · obtain rfl : stream = some position := already
      exact ⟨rfl, .inl rfl⟩
    · obtain rfl : stream = none := closed
      rw [ChunkIterator.createStreamIfNecessary, wp_run_bind]
      refine wp_open_for_reading kind _ _ fs bytes there ?_ ?_
      · exact ⟨rfl, .inl rfl⟩
      · exact fun troubled => ⟨rfl, .inr ⟨troubled, _, rfl⟩⟩
  rw [ChunkIterator.deref, wp_run_bind]
  refine wp_mono _ _ _ _ ?_ opened
  intro outcome after result
  obtain ⟨rfl, result⟩ := result
  cases result with
  | inr troubled =>
      obtain ⟨troubled, what, rfl⟩ := troubled
      exact failed (.inl troubled) what
  | inl open_ =>
      subst open_
      dsimp only
      rw [uncached]
      dsimp only
      rw [wp_run_bind, ChunkIterator.readChunk, wp_run_bind]
      refine wp_read_at kind _ _ _ _ after bytes there ?_ ?_
      · dsimp only
        by_cases short : ((bytes.drop position).take (min maxChunk (subU64 it.fileSize it.nextByte))).length <
            min maxChunk (subU64 it.fileSize it.nextByte)
        · rw [if_pos short]
          rw [List.length_take, List.length_drop] at short
          exact failed (.inr (by omega)) _
        · rw [if_neg short]
          rw [List.length_take] at short
          exact read _ rfl (by rw [List.length_take]; omega)
      · intro troubled buffer short
        rw [List.length_take] at short
        dsimp only at short ⊢
        rw [if_pos (by omega)]
        exact failed (.inl troubled) _

end Rules

-- A process whose file calls act on one part of its state.
structure ActsOnFiles {F : Type} {S : F → Type} {D τ : Type} (outer : Sem F S D τ) (okOuter : D → Prop)
    (file : (call : FileCall) → Program F S (FileReply call)) (ok : FileChoice → Prop)
    (get : τ → FileSystem) (set : τ → FileSystem → τ) : Prop where
  setGet : ∀ whole, set whole (get whole) = whole
  inline : ∀ (α : Type) (program : FileM α) (post : Except Thrown α → τ → Prop) (whole : τ),
    wp fileSem ok program.run (fun value part => post value (set whole part)) (get whole) →
      wp outer okOuter (Failing.inline file program).run post whole

section Loop

variable {F : Type} {S : F → Type} {D τ β ρ : Type} {outer : Sem F S D τ} {okOuter : D → Prop}
  {file : (call : FileCall) → Program F S (FileReply call)} {ok : FileChoice → Prop} {trouble : Prop}
  {get : τ → FileSystem} {set : τ → FileSystem → τ}

-- The loop over a file that the body leaves alone hands it out from the first byte
-- to the last one that is recorded. The induction is on the fuel, of which every
-- byte left has one unit.
theorem wp_for_recorded_chunks (kind : Tolerates ok trouble)
    (acts : ActsOnFiles outer okOuter file ok get set) (maxChunk : Nat) (positive : 0 < maxChunk)
    (body : β → Bytes → Failing F S Thrown (Flow β ρ)) (unwind : β → Failing F S Thrown Unit)
    (path : String) (size : Nat) (bytes : Bytes) (inv : Nat → β → τ → Prop)
    (post : Except Thrown (Flow β ρ) → τ → Prop)
    (readable : ∀ next accumulator whole, inv next accumulator whole →
      (get whole).content path = some bytes)
    (step : ∀ next accumulator whole chunk, inv next accumulator whole → next < size →
      chunk = (bytes.drop next).take (min maxChunk (size - next)) →
      chunk.length = min maxChunk (size - next) →
      wp outer okOuter (body accumulator chunk).run (fun outcome after => match outcome with
        | .ok (.next accumulator) => inv (next + chunk.length) accumulator after
        | .ok (.leave result) => post (.ok (.leave result)) after
        | .error thrown => post (.error thrown) after) whole)
    (done : ∀ accumulator whole, inv size accumulator whole → post (.ok (.next accumulator)) whole)
    (failed : ∀ next accumulator whole what, inv next accumulator whole → next < size →
      trouble ∨ bytes.length < next + min maxChunk (size - next) →
      wp outer okOuter (unwind accumulator).run (fun outcome after =>
        match outcome with
        | .ok _ => post (.error (.fileSystemException what)) after
        | .error thrown => post (.error thrown) after) whole)
    (fuel next : Nat) (stream : Option Nat) (last : ChunkIterator) (accumulator : β) (whole : τ)
    (enough : size < fuel + next) (inside : next ≤ size) (ends : last.nextByte = size)
    (current : stream = none ∨ stream = some next) (now : inv next accumulator whole) :
    wp outer okOuter (forChunks maxChunk file body unwind fuel
      ⟨next, size, path, stream, none⟩ last accumulator).run
      post whole := by
  induction fuel generalizing next stream accumulator whole with
  | zero => omega
  | succ fuel ih =>
      rw [forChunks, ChunkIterator.differs, ends]
      by_cases finished : next = size
      · subst finished
        rw [if_neg (by simp)]
        exact done accumulator whole now
      · have more : next < size := Nat.lt_of_le_of_ne inside finished
        have left : subU64 size next = size - next := if_pos inside
        rw [if_pos (by simpa using finished), wp_run_bind, wp_run_attempt]
        refine acts.inline _ _ _ whole ?_
        refine wp_deref kind maxChunk ⟨next, size, path, stream, none⟩ next bytes _
          (get whole) (readable _ _ _ now) rfl
          (current.symm.imp id (fun none => ⟨none, rfl⟩)) ?_ ?_
        · intro chunk read length
          rw [left] at read length
          rw [acts.setGet]
          dsimp only
          rw [wp_run_bind]
          refine wp_mono _ _ _ _ ?_ (step next accumulator whole chunk now more read length)
          intro outcome after met
          cases outcome with
          | error thrown => exact met
          | ok flow =>
              cases flow with
              | leave result => exact met
              | next accumulator =>
                  exact ih (next + chunk.length) (some (next + chunk.length)) accumulator after
                    (by omega) (by omega) (.inr rfl) met
        · intro short what
          rw [left] at short
          rw [acts.setGet]
          dsimp only
          rw [wp_run_bind]
          refine wp_mono _ _ _ _ ?_ (failed next accumulator whole what now more short)
          intro outcome after met
          cases outcome with
          | ok _ => exact met
          | error thrown => exact met

-- The file is as long as recorded.
theorem wp_for_chunks (kind : Tolerates ok trouble)
    (acts : ActsOnFiles outer okOuter file ok get set) (maxChunk : Nat) (positive : 0 < maxChunk)
    (body : β → Bytes → Failing F S Thrown (Flow β ρ)) (unwind : β → Failing F S Thrown Unit)
    (path : String) (bytes : Bytes) (inv : Nat → β → τ → Prop)
    (post : Except Thrown (Flow β ρ) → τ → Prop)
    (readable : ∀ next accumulator whole, inv next accumulator whole →
      (get whole).content path = some bytes)
    (step : ∀ next accumulator whole chunk, inv next accumulator whole → next < bytes.length →
      chunk = (bytes.drop next).take maxChunk →
      wp outer okOuter (body accumulator chunk).run (fun outcome after => match outcome with
        | .ok (.next accumulator) => inv (next + chunk.length) accumulator after
        | .ok (.leave result) => post (.ok (.leave result)) after
        | .error thrown => post (.error thrown) after) whole)
    (done : ∀ accumulator whole, inv bytes.length accumulator whole → post (.ok (.next accumulator)) whole)
    (failed : trouble → ∀ next accumulator whole what, inv next accumulator whole →
      wp outer okOuter (unwind accumulator).run (fun outcome after =>
        match outcome with
        | .ok _ => post (.error (.fileSystemException what)) after
        | .error thrown => post (.error thrown) after) whole)
    (fuel next : Nat) (stream : Option Nat) (last : ChunkIterator) (accumulator : β) (whole : τ)
    (enough : bytes.length < fuel + next) (inside : next ≤ bytes.length) (ends : last.nextByte = bytes.length)
    (current : stream = none ∨ stream = some next) (now : inv next accumulator whole) :
    wp outer okOuter (forChunks maxChunk file body unwind fuel
      ⟨next, bytes.length, path, stream, none⟩ last accumulator).run
      post whole := by
  refine wp_for_recorded_chunks kind acts maxChunk positive body unwind path bytes.length
    bytes inv post readable ?_ done ?_
    fuel next stream last accumulator whole enough inside ends current now
  · intro next accumulator whole chunk now more read _
    refine step next accumulator whole chunk now more (read.trans ?_)
    rw [← List.length_drop, List.take_eq_take_iff]
    omega
  · intro next accumulator whole what now more short
    exact failed (short.resolve_right (by omega)) next accumulator whole what now

theorem wp_for_any_chunks (maxChunk : Nat) (body : β → Bytes → Failing F S Thrown (Flow β ρ))
    (unwind : β → Failing F S Thrown Unit) (inv : β → τ → Prop)
    (post : Except Thrown (Flow β ρ) → τ → Prop)
    (reads : ∀ accumulator call (next : FileReply call → τ → Prop) whole, inv accumulator whole →
      (∀ reply after, inv accumulator after → next reply after) →
      wp outer okOuter (file call) next whole)
    (step : ∀ accumulator whole chunk, inv accumulator whole →
      wp outer okOuter (body accumulator chunk).run (fun outcome after => match outcome with
        | .ok (.next accumulator) => inv accumulator after
        | .ok (.leave result) => post (.ok (.leave result)) after
        | .error thrown => post (.error thrown) after) whole)
    (done : ∀ accumulator whole, inv accumulator whole → post (.ok (.next accumulator)) whole)
    (stuck : ∀ accumulator whole, inv accumulator whole → ∀ thrown, post (.error thrown) whole)
    (unwinds : ∀ accumulator whole, inv accumulator whole →
      wp outer okOuter (unwind accumulator).run (fun _ after => ∀ thrown, post (.error thrown) after) whole)
    (fuel : Nat) (it last : ChunkIterator) (accumulator : β) (whole : τ) (now : inv accumulator whole) :
    wp outer okOuter (forChunks maxChunk file body unwind fuel it last accumulator).run post whole := by
  induction fuel generalizing it accumulator whole with
  | zero => exact stuck accumulator whole now _
  | succ fuel ih =>
      rw [forChunks]
      by_cases more : it.differs last = true
      · rw [if_pos more, wp_run_bind, wp_run_attempt]
        refine wp_inline_keeps file (inv accumulator) (reads accumulator)
          (it.deref maxChunk).run _ whole now ?_
        intro outcome after kept
        cases outcome with
        | error thrown =>
            dsimp only
            rw [wp_run_bind]
            refine wp_mono _ _ _ _ ?_ (unwinds accumulator after kept)
            intro outcome last failed
            cases outcome <;> exact failed _
        | ok read =>
            dsimp only
            rw [wp_run_bind]
            refine wp_mono _ _ _ _ ?_ (step accumulator after read.1 kept)
            intro outcome last met
            cases outcome with
            | error thrown => exact met
            | ok flow =>
                cases flow with
                | leave result => exact met
                | next accumulator => exact ih _ accumulator last met
      · rw [if_neg more]
        exact done accumulator whole now

end Loop

section LoopContract

variable {F : Type} {S : F → Type} {τ β ρ : Type} {contract : Contract F S τ}
  {file : (call : FileCall) → Program F S (FileReply call)}

-- A loop whose rounds leave the ghost state as it is.
theorem meets_for_chunks (maxChunk : Nat) (body : β → Bytes → Failing F S Thrown (Flow β ρ))
    (unwind : β → Failing F S Thrown Unit) (good : ChunkIterator → Prop) (inv : β → Prop)
    (post : Except Thrown (Flow β ρ) → τ → Prop) (ghost : τ)
    (reads : ∀ it (next : Except Thrown (Bytes × ChunkIterator) → τ → Prop), good it →
      (∀ chunk later, good later.increment → next (.ok (chunk, later)) ghost) →
      (∀ thrown, next (.error thrown) ghost) →
      meets contract (Failing.inline file (it.deref maxChunk)).run next ghost)
    (step : ∀ accumulator chunk (next : Except Thrown (Flow β ρ) → τ → Prop), inv accumulator →
      (∀ later, inv later → next (.ok (.next later)) ghost) →
      (∀ result after, post (.ok (.leave result)) after → next (.ok (.leave result)) after) →
      meets contract (body accumulator chunk).run next ghost)
    (done : ∀ accumulator, inv accumulator → post (.ok (.next accumulator)) ghost)
    (stuck : ∀ thrown, post (.error thrown) ghost)
    (unwinds : ∀ accumulator (next : Except Thrown Unit → τ → Prop), inv accumulator →
      (∀ outcome after, (∀ thrown, post (.error thrown) after) → next outcome after) →
      meets contract (unwind accumulator).run next ghost)
    (fuel : Nat) (it last : ChunkIterator) (accumulator : β)
    (begins : good it) (now : inv accumulator) :
    meets contract (forChunks maxChunk file body unwind fuel it last accumulator).run post ghost := by
  induction fuel generalizing it accumulator with
  | zero => exact stuck _
  | succ fuel ih =>
      rw [forChunks]
      split
      · rw [meets_run_bind, meets_run_attempt]
        refine reads it _ begins ?_ ?_
        · intro chunk later kept
          dsimp only
          rw [meets_run_bind]
          refine step accumulator chunk _ now ?_ ?_
          · exact fun accumulator holds => ih later.increment accumulator kept holds
          · exact fun result after left => left
        · intro thrown
          dsimp only
          rw [meets_run_bind]
          refine unwinds accumulator _ now ?_
          rintro (error | unwound) after stops <;> exact stops _
      · exact done accumulator now

end LoopContract

end BlobStore
