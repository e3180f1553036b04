import BlobStore.WholeUploads

set_option autoImplicit false

namespace BlobStore

open Effects FileSystem FrontendServiceImpl

-- What a client has to send: the size, then chunks that add up to it.
def WellFormed (messages : List UploadBlobRequest) (size : UInt64) (chunks : List Bytes) : Prop :=
  messages = .info size :: chunks.map .chunkData ∧ (chunks.map List.length).sum = size.toNat

def UploadBlobRequest.sent : UploadBlobRequest → Nat
  | .chunkData bytes => bytes.length
  | _ => 0

def sentBytes (messages : List UploadBlobRequest) : Nat := (messages.map UploadBlobRequest.sent).sum

theorem sent_chunks (chunks : List Bytes) : sentBytes (chunks.map .chunkData) = chunks.flatten.length := by
  rw [sentBytes, List.map_map, List.length_flatten]
  rfl

theorem info_chunks_inj {one two : UInt64} {first second : List Bytes}
    (same : UploadBlobRequest.info one :: first.map .chunkData = .info two ::
      second.map .chunkData) : one = two ∧ first = second := by
  injection same with size chunks
  injection size with size
  refine ⟨size, List.map_injective_iff.mpr ?_ chunks⟩
  intro left right equal
  injection equal

theorem well_formed_unique {messages : List UploadBlobRequest} {one two : UInt64}
    {first second : List Bytes} (former : WellFormed messages one first)
    (latter : WellFormed messages two second) : one = two ∧ first = second :=
  info_chunks_inj (former.1.symm.trans latter.1)

section Receive

variable {X : Xxh64}

-- A message that is not a chunk ends the loop with an error, whatever came before it.
theorem wp_receive_misplaced (messages : List UploadBlobRequest)
    (misplaced : ¬ ∃ chunks : List Bytes, messages = chunks.map .chunkData) (path : String)
    (size : Nat) (hasher : BlobHasher X) (cluster : Cluster) (base : FileSystem)
    (location : Location) (old : Bytes) (resolved : base.resolve path = some location)
    (free : base.node location ≠ some .directory) :
    wp (frontendSem X) (EveryChoice Healthy) (receiveChunks X messages ⟨path, size⟩ hasher).run
      (fun outcome _ => ∃ status, outcome = .ok (.error status))
        (withFrontend cluster (base.put location (.file old))) := by
  induction messages generalizing size hasher old with
  | nil => exact absurd ⟨[], rfl⟩ misplaced
  | cons message rest ih =>
      cases message with
      | info _ => exact ⟨_, rfl⟩
      | notSet => exact ⟨_, rfl⟩
      | chunkData chunk =>
          have later : ¬ ∃ chunks : List Bytes, rest = chunks.map .chunkData := by
            rintro ⟨chunks, rfl⟩
            exact misplaced ⟨chunk :: chunks, rfl⟩
          rw [receiveChunks, wp_run_bind]
          refine (frontend_files X).inline _ _ _ _ ?_
          refine wp_append_chunk tolerates_healthy healthy_writes_whole ⟨path, size⟩ chunk _ base
            location old resolved free ?_ False.elim
          exact ih later _ _ _

def Received (X : Xxh64) (messages : List UploadBlobRequest)
    (outcome : Except Thrown (Except Status (BlobFile × String))) (after : Cluster) : Prop :=
  (∃ size chunks path, WellFormed messages size chunks ∧
    outcome = .ok (.ok (⟨path, size.toNat⟩, X.blobHash chunks.flatten)) ∧
    after.frontend.content path = some chunks.flatten) ∨
  (¬ ∃ size chunks, WellFormed messages size chunks) ∧ ∃ status, outcome = .ok (.error status)

theorem wp_receive_blob_info (size : UInt64) (messages : List UploadBlobRequest)
    (fits : sentBytes messages < 2 ^ 64) (cluster : Cluster) (name : String) (base : FileSystem)
    (location : Location) (opens : Opens cluster.frontend name base location) :
    wp (frontendSem X) (EveryChoice Healthy)
      (receiveChunks X messages ⟨joinPath "blobs" name, 0⟩ BlobHasher.new >>= fun received =>
        match received with
        | .error status => pure (.error status)
        | .ok (blobFile, blobHasher) =>
            let blobHash := blobHasher.finalize
            if blobFile.fileSize ≠ size.toNat then
              pure (.error ⟨.invalidArgument, "Blob file size mismatch."⟩)
            else pure (.ok (blobFile, blobHash))).run
      (Received X (.info size :: messages)) (withFrontend cluster (base.put location (.file []))) := by
  obtain ⟨made, resolved, free⟩ := opens
  rw [wp_run_bind]
  by_cases chunked : ∃ chunks : List Bytes, messages = chunks.map .chunkData
  · obtain ⟨chunks, rfl⟩ := chunked
    rw [sent_chunks] at fits
    refine wp_mono _ _ _ _ ?_ (wp_receive_all chunks (joinPath "blobs" name) 0 BlobHasher.new
      cluster base location [] resolved free (by omega))
    intro outcome after received
    obtain ⟨rfl, rfl⟩ := received
    dsimp only
    rw [Nat.zero_add, BlobHasher.finalize_chunks]
    by_cases whole : chunks.flatten.length = size.toNat
    · rw [if_neg (not_not_intro whole), whole]
      refine .inl ⟨size, chunks, _, ⟨rfl, by rw [← List.length_flatten]; exact whole⟩, rfl, ?_⟩
      exact (content_put_file base location _ free _).trans (if_pos resolved)
    · rw [if_pos whole]
      refine .inr ⟨?_, _, rfl⟩
      rintro ⟨other, parts, formed, sum⟩
      obtain ⟨rfl, rfl⟩ := info_chunks_inj formed
      rw [← List.length_flatten] at sum
      exact whole sum
  · refine wp_mono _ _ _ _ ?_ (wp_receive_misplaced messages chunked (joinPath "blobs" name) 0
      BlobHasher.new cluster base location []
      resolved free)
    rintro _ after ⟨status, rfl⟩
    refine .inr ⟨?_, status, rfl⟩
    rintro ⟨other, parts, formed, -⟩
    exact chunked ⟨parts, (List.cons.inj formed).2⟩

theorem wp_receive_any_upload (messages : List UploadBlobRequest)
    (fits : sentBytes messages < 2 ^ 64) (cluster : Cluster)
    (opens : ∀ drawn : Nat, ∃ base location,
      Opens cluster.frontend ("temp" ++ toString drawn ++ ".blob") base location) :
    wp (frontendSem X) (EveryChoice Healthy) (receiveAndHashBlob X messages).run
      (Received X messages) cluster := by
  have unformed : ∀ {messages : List UploadBlobRequest}, (∀ size, messages.head? ≠ some (.info size)) →
      ¬ ∃ size chunks, WellFormed messages size chunks := by
    rintro _ other ⟨size, chunks, rfl, -⟩
    exact other size rfl
  rw [receiveAndHashBlob]
  cases messages with
  | nil => exact .inr ⟨unformed (by simp), _, rfl⟩
  | cons message rest =>
      cases message with
      | chunkData chunk => exact .inr ⟨unformed (by simp), _, rfl⟩
      | notSet => exact .inr ⟨unformed (by simp), _, rfl⟩
      | info size =>
          have bounded : sentBytes rest < 2 ^ 64 := by
            have same : sentBytes (.info size :: rest) = 0 + sentBytes rest := List.sum_cons
            omega
          dsimp only [List.headD_cons, List.tail_cons]
          refine wp_catch _ _ _ _ ?_
          rw [wp_run_bind, Frontend.rand, wp_run_perform]
          intro choices _
          have drawn : frontendSem X .rand choices cluster = ((choices.headD default).draw, cluster) := rfl
          rw [drawn]
          dsimp only
          obtain ⟨base, location, opened⟩ := opens (choices.headD default).draw
          rw [wp_run_bind]
          refine (frontend_files X).inline _ _ _ _ ?_
          refine wp_create tolerates_healthy _ _ cluster.frontend ?_
            (fun blocked => absurd ⟨_, _, opened⟩ (blocked.resolve_left id))
          intro other place again
          refine wp_mono _ _ _ _ ?_ (wp_receive_blob_info size rest bounded cluster _ other place again)
          rintro outcome after (⟨size, chunks, path, formed, rfl, stored⟩ | ⟨unformed, status, rfl⟩)
          · exact .inl ⟨size, chunks, path, formed, rfl, stored⟩
          · exact .inr ⟨unformed, status, rfl⟩

-- for (chunk : blob) gathered += chunk, over a blob file of the frontend.
def readBack (file : BlobFile) : FrontendM (Flow Bytes Unit) :=
  file.forEach MAX_CHUNK_SIZE frontendFile (fun gathered chunk => pure (.next (gathered ++ chunk)))
    (fun _ => pure ()) []

theorem wp_read_back (path : String) (bytes : Bytes) (cluster : Cluster)
    (there : cluster.frontend.content path = some bytes) :
    wp (frontendSem X) (EveryChoice Healthy) (readBack ⟨path, bytes.length⟩).run
      (fun outcome _ => outcome = .ok (.next bytes)) cluster := by
  rw [readBack, BlobFile.forEach]
  refine wp_for_chunks tolerates_healthy (frontend_files X) MAX_CHUNK_SIZE (by decide) _ _ path bytes
    (fun next gathered whole => whole = cluster ∧ gathered = bytes.take next) _ ?_ ?_ ?_ False.elim
      (bytes.length + 1) 0 none _ []
    cluster (by omega) (by omega) rfl (.inl rfl) ⟨rfl, rfl⟩
  · intro next gathered whole inv
    rw [inv.1]
    exact there
  · intro next gathered whole chunk inv more read
    obtain ⟨rfl, rfl⟩ := inv
    refine ⟨rfl, ?_⟩
    have part : (bytes.drop next).take chunk.length = chunk := by
      rw [read, List.take_eq_take_iff, List.length_take]
      omega
    rw [List.take_add, part]
  · intro gathered whole inv
    rw [inv.2, List.take_length]

end Receive

theorem upload_received_iff (X : Xxh64) (messages : List UploadBlobRequest)
    (fits : sentBytes messages < 2 ^ 64) (choices : List (List Choice))
    (healthy : ∀ each ∈ choices, EveryChoice Healthy each) (cluster : Cluster)
    (opens : ∀ drawn : Nat, ∃ base location,
      Opens cluster.frontend ("temp" ++ toString drawn ++ ".blob") base location) :
    let outcome := exec (frontendSem X) (receiveAndHashBlob X messages).run choices cluster
    ((∃ received, outcome.1 = .ok (.ok received)) ↔ ∃ size chunks, WellFormed messages size chunks) ∧
      ∀ size chunks file hash, WellFormed messages size chunks → outcome.1 = .ok (.ok (file, hash)) →
        outcome.2.2.frontend.content file.filePath = some chunks.flatten ∧ file.fileSize = size.toNat ∧
          hash = X.blobHash chunks.flatten ∧
          ∀ reading, (∀ each ∈ reading, EveryChoice Healthy each) →
            (exec (frontendSem X) (readBack file).run reading outcome.2.2).1 =
              .ok (.next chunks.flatten) := by
  intro outcome
  have fallback : EveryChoice Healthy default := fun _ member => by cases member
  have received := wp_sound (EveryChoice Healthy) (receiveAndHashBlob X messages).run
    (Received X messages) choices cluster fallback
    healthy (wp_receive_any_upload messages fits cluster opens)
  rcases received with ⟨size, chunks, path, formed, result, stored⟩ | ⟨unformed, status, result⟩
  · refine ⟨iff_of_true ⟨_, result⟩ ⟨size, chunks, formed⟩, ?_⟩
    intro other parts file hash again returned
    obtain ⟨rfl, rfl⟩ := well_formed_unique formed again
    obtain ⟨rfl, rfl⟩ := Prod.mk.inj (Except.ok.inj (Except.ok.inj (result.symm.trans returned)))
    refine ⟨stored, rfl, rfl, ?_⟩
    intro reading works
    have size : size.toNat = chunks.flatten.length := by rw [List.length_flatten]; exact formed.2.symm
    rw [size]
    exact wp_sound (EveryChoice Healthy) (readBack ⟨path, chunks.flatten.length⟩).run
      (fun (outcome : Except Thrown (Flow Bytes Unit)) (_ : Cluster) =>
        outcome = .ok (.next chunks.flatten)) reading _ fallback works
      (wp_read_back path chunks.flatten _ stored)
  · refine ⟨iff_of_false ?_ unformed, ?_⟩
    · rintro ⟨received, returned⟩
      cases result.symm.trans returned
    · exact fun size chunks _ _ formed => absurd ⟨size, chunks, formed⟩ unformed

theorem fresh_opens (drawn : Nat) :
    ∃ base location, Opens freshWorker ("temp" ++ toString drawn ++ ".blob") base location := by
  have empty := fresh_worker_empty
  exact ⟨_, _, opens_blob freshWorker empty.1 _ (temp_ordinary drawn) (by rw [empty.2]; simp)⟩

def idleCluster : Cluster := ⟨Tables.empty, fun _ => freshWorker, freshWorker⟩

theorem upload_received_iff_run :
    let outcome := exec (frontendSem referenceXxh64)
      (receiveAndHashBlob referenceXxh64 [.info 2, .chunkData [97], .chunkData [98]]).run [] idleCluster
    (∃ received, outcome.1 = .ok (.ok received)) ∧
      outcome.2.2.frontend.content "blobs/temp0.blob" = some ([[97], [98]] : List Bytes).flatten := by
  have formed : WellFormed [.info 2, .chunkData [97], .chunkData [98]] 2 [[97], [98]] := ⟨rfl, rfl⟩
  have result : (exec (frontendSem referenceXxh64)
      (receiveAndHashBlob referenceXxh64 [.info 2, .chunkData [97], .chunkData [98]]).run [] idleCluster).1 =
        .ok (.ok (⟨"blobs/temp0.blob", 2⟩, referenceXxh64.blobHash [97, 98])) := by decide +kernel
  obtain ⟨accepts, stores⟩ := upload_received_iff referenceXxh64
    [.info 2, .chunkData [97], .chunkData [98]] (by decide) [] (by simp)
    idleCluster fresh_opens
  exact ⟨accepts.mpr ⟨2, [[97], [98]], formed⟩, (stores 2 [[97], [98]] _ _ formed result).1⟩

end BlobStore
