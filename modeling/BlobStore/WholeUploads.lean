import BlobStore.UploadCopies

set_option autoImplicit false

namespace BlobStore

open Effects FileSystem FrontendServiceImpl

-- Nothing fails, nothing is lost, and nobody touches the frontend's files between
-- its calls. The order of query results and the numbers drawn stay open.
structure Healthy (choice : Choice) : Prop where
  file : FileHealthy choice.file
  frontendFile : FileHealthy choice.frontendFile
  db : DbHealthy choice.db
  delivered : choice.fate = .delivered
  streams : choice.streamOpen = true
  untouched : choice.tamper = id

theorem healthy_default : Healthy default := ⟨rfl, rfl, rfl, rfl, rfl, rfl⟩

theorem expects_healthy : Expects Healthy False where
  fallback := healthy_default
  files := fun _ healthy => .inl healthy.file
  db := fun _ healthy => .inl healthy.db
  fates := fun _ healthy => .inl healthy.delivered
  streams := fun _ healthy => .inl healthy.streams

theorem healthy_whole_writes : ∀ choice, Healthy choice → WholeWrites choice.file :=
  fun choice healthy => healthy_writes_whole choice.file healthy.file

def withFrontend (cluster : Cluster) (fs : FileSystem) : Cluster := { cluster with frontend := fs }

theorem frontend_files (X : Xxh64) :
    ActsOnFiles (frontendSem X) (EveryChoice Healthy) frontendFile FileHealthy
      Cluster.frontend withFrontend where
  setGet := fun _ => rfl
  inline := by
    intro α program post whole holds
    refine wp_inline_part FileHealthy frontendFile Cluster.frontend withFrontend (fun _ _ => rfl)
      (fun _ _ _ => rfl) (fun _ => rfl) ?_
      program.run post whole holds
    intro call after whole each
    rw [frontendFile, wp_perform]
    intro choices every
    have healthy : Healthy (choices.headD default) := first_choice healthy_default every
    have performed : frontendSem X (.file call) choices whole =
        ((fileSem call (choices.headD default).frontendFile
          ((choices.headD default).tamper whole.frontend)).1,
          withFrontend whole (fileSem call (choices.headD default).frontendFile
            ((choices.headD default).tamper whole.frontend)).2) := rfl
    rw [performed, healthy.untouched]
    exact each _ healthy.frontendFile

structure Usable (fs : FileSystem) : Prop where
  blobs : HasBlobs fs
  free : ∀ name, fs.node (blobLocation fs name) ≠ some .directory

theorem usable_changed {before after : FileSystem} (usable : Usable before) (name : String)
    (changes : ChangesOnly name before after)
    (free : after.node (blobLocation before name) ≠ some .directory) : Usable after := by
  refine ⟨blobs_kept usable.blobs changes, ?_⟩
  intro other
  by_cases same : other = name
  · subst same
    rw [location_kept changes]
    exact free
  · rw [entry_kept changes other same]
    exact usable.free other

theorem temp_ordinary (drawn : Nat) : OrdinaryName ("temp" ++ toString drawn ++ ".blob") := by
  have letters : ("temp" ++ toString drawn ++ ".blob").toList =
      ['t', 'e', 'm', 'p'] ++ (Nat.repr drawn).toList ++ ['.', 'b', 'l', 'o', 'b'] := by
    simp [String.toList_append, toString]
  have digits := digits_of_repr drawn
  have first : ∀ text : String, text.toList.head? ≠ some 't' →
      "temp" ++ toString drawn ++ ".blob" ≠ text := by
    intro text other same
    rw [← same, letters] at other
    exact other rfl
  have outside : ∀ character : Char, character.isDigit = false →
      character ∉ ['t', 'e', 'm', 'p', '.', 'b', 'l', 'o', 'b'] →
      character ∉ ("temp" ++ toString drawn ++ ".blob").toList := by
    intro character plain elsewhere member
    rw [letters] at member
    rcases List.mem_append.mp member with front | back
    · rcases List.mem_append.mp front with word | number
      · exact elsewhere (List.mem_append_left ['.', 'b', 'l', 'o', 'b'] word)
      · rw [digits character number] at plain
        cases plain
    · exact elsewhere (List.mem_append_right ['t', 'e', 'm', 'p'] back)
  exact ⟨first "" (by decide), first "." (by decide), first ".." (by decide),
    outside '/' (by decide) (by decide), outside (Char.ofNat 0) (by decide) (by decide)⟩

section Upload

variable {X : Xxh64}

theorem wp_receive_all (chunks : List Bytes) (path : String) (size : Nat) (hasher : BlobHasher X)
    (cluster : Cluster) (base : FileSystem) (location : Location) (old : Bytes)
    (resolved : base.resolve path = some location) (free : base.node location ≠ some .directory)
    (fits : size + chunks.flatten.length < 2 ^ 64) :
    wp (frontendSem X) (EveryChoice Healthy) (receiveChunks X (chunks.map .chunkData) ⟨path, size⟩ hasher).run
      (fun outcome after => outcome =
        .ok (.ok (⟨path, size + chunks.flatten.length⟩, hasher.addChunks chunks)) ∧
        after = withFrontend cluster (base.put location (.file (old ++ chunks.flatten))))
      (withFrontend cluster (base.put location (.file old))) := by
  induction chunks generalizing size hasher old with
  | nil =>
      rw [List.flatten_nil, List.append_nil]
      exact ⟨rfl, rfl⟩
  | cons chunk rest ih =>
      rw [List.flatten_cons, List.length_append] at fits
      rw [List.map_cons, receiveChunks, wp_run_bind]
      refine (frontend_files X).inline _ _ _ _ ?_
      refine wp_append_chunk tolerates_healthy healthy_writes_whole ⟨path, size⟩ chunk _ base
        location old resolved free ?_ False.elim
      have grown : (size + chunk.length) % 2 ^ 64 = size + chunk.length := Nat.mod_eq_of_lt (by omega)
      dsimp only
      rw [grown]
      refine wp_mono _ _ _ _ ?_ (ih (size + chunk.length) (hasher.addChunk chunk) (old ++ chunk) (by omega))
      intro outcome after received
      rw [List.flatten_cons, List.length_append, ← Nat.add_assoc, ← List.append_assoc]
      exact received

theorem wp_receive_upload (chunks : List Bytes) (fits : chunks.flatten.length < 2 ^ 64) (cluster : Cluster)
    (usable : Usable cluster.frontend) :
    wp (frontendSem X) (EveryChoice Healthy) (receiveAndHashBlob X (uploadOf chunks)).run
      (fun outcome after => ∃ name, OrdinaryName name ∧
        outcome = .ok (.ok (⟨"blobs/" ++ name, chunks.flatten.length⟩, X.blobHash chunks.flatten)) ∧
        after = withFrontend cluster (cluster.frontend.put
          (blobLocation cluster.frontend name) (.file chunks.flatten))) cluster := by
  have size : (UInt64.ofNat chunks.flatten.length).toNat = chunks.flatten.length :=
    UInt64.toNat_ofNat_of_lt' fits
  rw [receiveAndHashBlob, uploadOf]
  dsimp only [List.headD_cons, List.tail_cons]
  refine wp_catch _ _ _ _ ?_
  rw [wp_run_bind, Frontend.rand, wp_run_perform]
  intro choices _
  have drawn : frontendSem X .rand choices cluster = ((choices.headD default).draw, cluster) := rfl
  rw [drawn]
  dsimp only
  have ordinary := temp_ordinary (choices.headD default).draw
  generalize "temp" ++ toString (choices.headD default).draw ++ ".blob" = name at ordinary
  have opens := opens_blob cluster.frontend usable.blobs name ordinary (usable.free name)
  rw [wp_run_bind]
  refine (frontend_files X).inline _ _ _ _ ?_
  refine wp_create tolerates_healthy name _ cluster.frontend ?_
    (fun blocked => absurd ⟨_, _, opens⟩ (blocked.resolve_left id))
  intro base location opened
  obtain ⟨rfl, rfl⟩ := opens_unique opens opened
  have resolved := resolve_blob cluster.frontend usable.blobs name ordinary
  dsimp only
  rw [wp_run_bind, join_blob name ordinary]
  refine wp_mono _ _ _ _ ?_
    (wp_receive_all chunks ("blobs/" ++ name) 0 BlobHasher.new cluster cluster.frontend
    (blobLocation cluster.frontend name) [] resolved (usable.free name) (by omega))
  intro outcome after received
  obtain ⟨rfl, rfl⟩ := received
  dsimp only
  rw [Nat.zero_add, size, if_neg (fun different => different rfl), BlobHasher.finalize_chunks]
  exact ⟨name, ordinary, rfl, rfl⟩

theorem wp_send_whole (path blobHash : String) (bytes : Bytes) (named : blobHash = X.blobHash bytes)
    (some_ : bytes ≠ []) (worker : String) (cluster : Cluster)
    (readable : cluster.frontend.content path = some bytes)
    (opens : ∃ base location, Opens (cluster.workers worker) blobHash base location)
    (placed : cluster.tables.blobCopy.find? (blobHash, worker) ≠ none)
    (registered : Registered cluster.tables worker) :
    wp (frontendSem X) (EveryChoice Healthy) (sendBlobToWorker ⟨path, bytes.length⟩ blobHash worker).run
      (fun outcome after => outcome = .ok (.ok ()) ∧
        SavedOn worker blobHash bytes cluster after) cluster := by
  rw [sendBlobToWorker]
  refine wp_catch _ _ _ _ ?_
  rw [wp_run_bind, BlobFile.forEach]
  refine wp_for_chunks tolerates_healthy (frontend_files X) MAX_CHUNK_SIZE (by decide) _ _ path bytes
    (fun next (sent : List SaveBlobRequest) whole => whole = cluster ∧ payload sent = bytes.take next ∧
      ∀ message ∈ sent, message.blobHash = blobHash)
    _ ?_ ?_ ?_ False.elim (bytes.length + 1) 0 none _ [] cluster (by omega) (by omega) rfl (.inl rfl)
    ⟨rfl, rfl, fun _ member => by cases member⟩
  · intro next sent whole inv
    rw [inv.1]
    exact readable
  · intro next sent whole chunk inv more read
    obtain ⟨same, gathered, hashes⟩ := inv
    rw [wp_run_bind, Frontend.writeSaveBlob]
    refine wp_run_composed healthy_default (frontendImpl X)
      (FrontendCall.saveBlobWrite worker ⟨blobHash, chunk⟩) _ whole ?_
    refine wp_stream_open expects_healthy _ whole ?_ False.elim
    dsimp only
    rw [if_pos rfl]
    refine ⟨same, ?_, ?_⟩
    · have part : (bytes.drop next).take chunk.length = chunk := by
        rw [read, List.take_eq_take_iff, List.length_take]
        omega
      rw [List.take_add, part, ← gathered]
      simp [payload]
    · intro message member
      cases List.mem_append.mp member with
      | inl earlier => exact hashes message earlier
      | inr last => rw [List.mem_singleton.mp last]
  · intro sent whole inv
    obtain ⟨same, gathered, hashes⟩ := inv
    rw [List.take_length] at gathered
    dsimp only [Caught]
    rw [wp_run_bind, Frontend.finishSaveBlob, same]
    refine wp_run_composed healthy_default (frontendImpl X)
      (FrontendCall.saveBlobFinish worker sent) _ cluster ?_
    cases sent with
    | nil => exact absurd gathered.symm some_
    | cons first rest =>
        have hash : first.blobHash = blobHash := hashes first (by simp)
        have ordinary : first.blobHash ≠ "" := by
          rw [hash, named]
          exact (blob_hash_ordinary X bytes).1
        refine wp_save_blob_call expects_healthy healthy_whole_writes X worker
          first rest ordinary _ cluster ?_ ?_
        · intro after saved _
          rw [hash, gathered] at saved
          exact ⟨rfl, saved⟩
        · intro fails
          rw [SaveFails, hash, gathered] at fails
          rcases fails with troubled | closed | unverified | missing | unknown
          · exact troubled.elim
          · exact absurd opens closed
          · exact absurd named unverified
          · exact absurd missing placed
          · exact absurd registered unknown

end Upload

end BlobStore
