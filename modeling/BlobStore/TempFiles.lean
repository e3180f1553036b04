import BlobStore.ReceiveFailures
import BlobStore.ReceivedUploads
import BlobStore.SentBlobs

set_option autoImplicit false

namespace BlobStore

open Effects FileSystem FrontendServiceImpl

-- Expected::and_then over a call that returns an Expected.
def andThen {α β : Type} (program : FrontendM (Except Status α)) (next : α → FrontendM (Except Status β)) :
    FrontendM (Except Status β) := do
  match ← program with
  | .error status => pure (.error status)
  | .ok value => next value

section AndThen

variable {α β : Type} (program : FrontendM (Except Status α))
  (next : α → FrontendM (Except Status β)) (choices : List FrontendChoice)
  (fs : FileSystem)

theorem exec_and_then_ok (value : α) (left : List FrontendChoice) (after : FileSystem)
    (succeeds : exec frontendAloneSem program.run choices fs = (.ok (.ok value), left, after)) :
    exec frontendAloneSem (andThen program next).run choices fs =
      exec frontendAloneSem (next value).run left after := by
  rw [andThen, ExceptT.run_bind, exec_bind, succeeds]

theorem exec_and_then_stopped
    (stopped : ∀ value, (exec frontendAloneSem program.run choices fs).1 ≠ .ok (.ok value)) :
    let outcome := exec frontendAloneSem (andThen program next).run choices fs
    (∀ value, outcome.1 ≠ .ok (.ok value)) ∧
      outcome.2.2 = (exec frontendAloneSem program.run choices fs).2.2 := by
  dsimp only
  rw [andThen, ExceptT.run_bind, exec_bind]
  generalize exec frontendAloneSem program.run choices fs = outcome at stopped
  obtain ⟨result, left, after⟩ := outcome
  cases result with
  | error thrown => exact ⟨fun _ same => (by cases same), rfl⟩
  | ok answer =>
      cases answer with
      | error status => exact ⟨fun _ same => (by cases same), rfl⟩
      | ok value => exact absurd rfl (stopped value)

end AndThen

-- What follows in UploadBlob once the blob is received.
def placeBlob (service : FrontendServiceImpl) (blobFile : BlobFile) (blobHash : String) :
    FrontendM (Except Status String) :=
  andThen (getWorkersFromMaster blobHash (service.getMasterServiceAddressBasedOnHash blobHash)) fun workers =>
    andThen (sendBlobToWorkers blobFile blobHash workers) fun _ => do
      let _ ← Frontend.onFrontendFiles blobFile.remove
      pure (.ok blobHash)

theorem upload_blob_eq (X : Xxh64) (service : FrontendServiceImpl) (messages : List UploadBlobRequest) :
    service.uploadBlob X messages =
      andThen (receiveAndHashBlob X messages) fun received => placeBlob service received.1 received.2 := by
  rw [uploadBlob, andThen]
  refine bind_congr ?_
  intro received
  cases received with
  | error status => rfl
  | ok received =>
      dsimp only
      rw [placeBlob, andThen]
      refine bind_congr ?_
      intro placed
      cases placed with
      | error status => rfl
      | ok workers =>
          dsimp only
          rw [andThen]
          refine bind_congr ?_
          intro sent
          cases sent with
          | error status => rfl
          | ok _ => rfl

-- Every worker that the master names takes the whole file.
def TakenByAll (bytes : Bytes) (size : Nat) (choices : List FrontendChoice) : Prop :=
  ∃ workers, (choices.headD default).placement = .ok workers ∧ SentToAll bytes size workers choices.tail

section Placed

variable (service : FrontendServiceImpl) {path : String} {base : FileSystem} {location : Location}
  (resolved : base.resolve path = some location) (free : base.node location ≠ some .directory)

include resolved free

theorem exec_remove_temp (size : Nat) (bytes : Bytes) (blobHash : String) (choices : List FrontendChoice) :
    (exec frontendAloneSem (ExceptT.run (do
      let _ ← Frontend.onFrontendFiles (BlobFile.remove ⟨path, size⟩)
      pure (.ok blobHash : Except Status String))) choices (base.put location (.file bytes))).2.2 =
        base.erase location := by
  have there : (base.put location (.file bytes)).resolve path = some location :=
    (resolve_put_file base location bytes free _).trans resolved
  have removed : fileSem (.remove path) default (base.put location (.file bytes)) =
      (.ok true, base.erase location) := by
    have works : FileChoice.failure default = none := rfl
    simp [fileSem, works, there, erase_put]
  have performed := exec_files_perform (.remove path) (fun outcome => orThrow outcome) choices
    (base.put location (.file bytes))
  simp only [createsOrRemoves, if_true] at performed
  rw [removed] at performed
  rw [Frontend.onFrontendFiles, BlobFile.remove, removeFile,
    exec_run_bind_ok _ _ _ _ true (congrArg Prod.fst performed), performed]
  rfl

theorem place_blob_files (size : Nat) (bytes : Bytes) (blobHash : String) (choices : List FrontendChoice) :
    let after :=
      (exec frontendAloneSem (placeBlob service ⟨path, size⟩ blobHash).run choices
        (base.put location (.file bytes))).2.2
    TakenByAll bytes size choices ∧ after = base.erase location ∨
      ¬ TakenByAll bytes size choices ∧ after = base.put location (.file bytes) := by
  have there : (base.put location (.file bytes)).content path = some bytes :=
    (content_put_file base location bytes free path).trans (if_pos resolved)
  dsimp only
  rw [placeBlob]
  cases placed : (choices.headD default).placement with
  | error status =>
      have asked : exec frontendAloneSem
          (getWorkersFromMaster blobHash (service.getMasterServiceAddressBasedOnHash blobHash)).run
            choices (base.put location (.file bytes)) =
            (.ok (.error ⟨.cancelled, status.message⟩), choices.tail, base.put location (.file bytes)) := by
        rw [getWorkersFromMaster, exec_run_perform, frontendAloneSem, placed]
        rfl
      rw [(exec_and_then_stopped _ _ _ _ (by rw [asked]; intro _ same; cases same)).2, asked]
      refine .inr ⟨?_, rfl⟩
      rintro ⟨workers, named, -⟩
      cases placed.symm.trans named
  | ok workers =>
      have asked : exec frontendAloneSem
          (getWorkersFromMaster blobHash (service.getMasterServiceAddressBasedOnHash blobHash)).run
            choices (base.put location (.file bytes)) =
            (.ok (.ok workers), choices.tail, base.put location (.file bytes)) := by
        rw [getWorkersFromMaster, exec_run_perform, frontendAloneSem, placed]
        rfl
      have only : TakenByAll bytes size choices ↔ SentToAll bytes size workers choices.tail := by
        constructor
        · rintro ⟨others, named, all⟩
          obtain rfl := Except.ok.inj (placed.symm.trans named)
          exact all
        · exact fun all => ⟨workers, placed, all⟩
      obtain ⟨kept, all⟩ := sent_to_all_iff blobHash path bytes size workers choices.tail
        (base.put location (.file bytes)) there
      rw [exec_and_then_ok _ _ _ _ _ _ _ asked, only, ← all]
      by_cases taken :
        (exec frontendAloneSem (sendBlobToWorkers ⟨path, size⟩ blobHash workers).run choices.tail
          (base.put location (.file bytes))).1 = .ok (.ok ())
      · refine .inl ⟨taken, ?_⟩
        rw [exec_and_then_ok _ _ _ _ () _ (base.put location (.file bytes))
          (Prod.ext taken (Prod.ext rfl kept))]
        exact exec_remove_temp resolved free _ _ _ _
      · refine .inr ⟨taken, ?_⟩
        rw [(exec_and_then_stopped _ _ _ _ (fun _ => taken)).2, kept]

end Placed

section Received

variable {X : Xxh64} {base : FileSystem} {location : Location}

theorem exec_frontend_create {fs : FileSystem} {name : String} (opens : Opens fs name base location)
    (choices : List FrontendChoice) :
    exec frontendAloneSem (Frontend.onFrontendFiles (BlobFile.create name)).run choices fs =
      (.ok ⟨joinPath "blobs" name, 0⟩, choices.drop 2, base.put location (.file [])) := by
  obtain ⟨made, resolved, free⟩ := opens
  have works : FileChoice.failure default = none := rfl
  have directory : fileSem (.createDirectories "blobs") default fs = (.ok (), base) := by
    rcases create_blobs_cases default fs with ⟨⟨reason, fails⟩ | unmade, -⟩ | ⟨-, other, again, result⟩
    · cases works.symm.trans fails
    · cases made.symm.trans unmade
    · obtain rfl := Option.some.inj (made.symm.trans again)
      exact result
  have opened : fileSem (.openTrunc (joinPath "blobs" name)) default base =
      (true, base.put location (.file [])) := by
    simp [fileSem, works, resolved, free]
  rw [Frontend.onFrontendFiles, BlobFile.create, createDirectories, bind_assoc, exec_files_perform]
  simp only [createsOrRemoves, if_true]
  rw [show BlobFile.BLOBS_PATH = "blobs" from rfl, directory, orThrow, pure_bind]
  dsimp only
  rw [openTruncate, exec_files_perform]
  simp only [createsOrRemoves, if_true]
  rw [opened, ← List.drop_one, ← List.drop_one, List.drop_drop]
  rfl

theorem exec_frontend_append (file : BlobFile) (chunk : Bytes) (choices : List FrontendChoice) (old : Bytes)
    (resolved : base.resolve file.filePath = some location) (free : base.node location ≠ some .directory) :
    exec frontendAloneSem (Frontend.onFrontendFiles (file.appendChunk chunk)).run choices
      (base.put location (.file old)) =
      match (choices.headD default).file.failure with
      | some _ =>
          (.error (.fileSystemException
            ("Failed to open file " ++ file.filePath ++ " for appending")), choices.tail,
          base.put location (.file old))
      | none => (.ok ⟨file.filePath, (file.fileSize + chunk.length) % 2 ^ 64⟩, choices.tail,
          base.put location (.file (old ++ (choices.headD default).file.written chunk))) := by
  have there : (base.put location (.file old)).resolve file.filePath = some location :=
    (resolve_put_file base location old free _).trans resolved
  rw [Frontend.onFrontendFiles, BlobFile.appendChunk, appendTo, exec_files_perform]
  simp only [createsOrRemoves, Bool.false_eq_true, if_false, fileSem, there, node_put]
  cases (choices.headD default).file.failure with
  | some reason => rfl
  | none =>
      simp only [put_put]
      rfl

theorem cancel_caught_stopped {α : Type} {result : Except Thrown (Except Status α)}
    (stopped : ∀ value, result ≠ .ok (.ok value)) (value : α) :
    cancelCaught result ≠ .ok (.ok value) := by
  cases result with
  | ok answer => exact stopped value
  | error thrown => cases thrown <;> exact fun same => by cases same

theorem head_file (choices : List FrontendChoice) :
    (choices.map FrontendChoice.file).headD default = (choices.headD default).file :=
  head_map FrontendChoice.file rfl choices

-- The stream ended after these chunks, and each of them found the file open.
theorem received_chunks (chunks : List Bytes) (path : String) (size : Nat) (small : size < 2 ^ 64)
    (hasher : BlobHasher X) (choices : List FrontendChoice) (old : Bytes)
    (resolved : base.resolve path = some location) (free : base.node location ≠ some .directory)
    (opened : allOpened chunks (choices.map FrontendChoice.file) = true) :
    exec frontendAloneSem (receiveChunks X (chunks.map .chunkData) ⟨path, size⟩ hasher).run choices
      (base.put location (.file old)) =
      (.ok (.ok (⟨path, (size + chunks.flatten.length) % 2 ^ 64⟩, hasher.addChunks chunks)),
        choices.drop chunks.length,
        base.put location (.file (old ++ landed chunks (choices.map FrontendChoice.file)))) := by
  induction chunks generalizing size hasher choices old with
  | nil =>
      rw [landed, List.append_nil, List.flatten_nil, List.length_nil, Nat.add_zero, Nat.mod_eq_of_lt small]
      rfl
  | cons chunk rest ih =>
      rw [allOpened, head_file, Bool.and_eq_true, Option.isNone_iff_eq_none, ← List.map_tail] at opened
      obtain ⟨works, later⟩ := opened
      have appended := exec_frontend_append ⟨path, size⟩ chunk choices old resolved free
      rw [works] at appended
      rw [List.map_cons, receiveChunks, exec_run_bind_ok _ _ _ _ _ (congrArg Prod.fst appended), appended]
      dsimp only
      rw [ih _ (Nat.mod_lt _ (by decide)) _ _ _ later, Nat.mod_add_mod, landed, head_file, works,
        List.flatten_cons, List.length_append,
        Nat.add_assoc, ← List.map_tail, List.append_assoc, ← List.drop_one, List.drop_drop, Nat.add_comm 1]
      rfl

theorem stopped_chunks (messages : List UploadBlobRequest) (path : String) (size : Nat)
    (hasher : BlobHasher X) (choices : List FrontendChoice) (old : Bytes)
    (resolved : base.resolve path = some location) (free : base.node location ≠ some .directory)
    (stopped : ¬ ∃ chunks : List Bytes, messages = chunks.map .chunkData ∧
      allOpened chunks (choices.map FrontendChoice.file) = true) :
    let outcome := exec frontendAloneSem (receiveChunks X messages ⟨path, size⟩ hasher).run choices
      (base.put location (.file old))
    (∀ received, outcome.1 ≠ .ok (.ok received)) ∧ ∃ bytes,
      outcome.2.2 = base.put location (.file bytes) := by
  induction messages generalizing size hasher choices old with
  | nil => exact absurd ⟨[], rfl, rfl⟩ stopped
  | cons message rest ih =>
      cases message with
      | info _ => exact ⟨fun _ same => (by cases same), old, rfl⟩
      | notSet => exact ⟨fun _ same => (by cases same), old, rfl⟩
      | chunkData chunk =>
          have appended := exec_frontend_append ⟨path, size⟩ chunk choices old resolved free
          dsimp only
          rw [receiveChunks]
          cases failure : (choices.headD default).file.failure with
          | some reason =>
              rw [failure] at appended
              rw [exec_run_bind_error _ _ _ _ _ (congrArg Prod.fst appended), appended]
              exact ⟨fun _ same => (by cases same), old, rfl⟩
          | none =>
              rw [failure] at appended
              rw [exec_run_bind_ok _ _ _ _ _ (congrArg Prod.fst appended), appended]
              refine ih _ _ _ _ ?_
              rintro ⟨chunks, rfl, opened⟩
              refine stopped ⟨chunk :: chunks, rfl, ?_⟩
              rw [allOpened, head_file, failure, ← List.map_tail]
              exact opened

-- The client sends chunks of the size it announced, and every append opens the file.
def ReceivesAll (size : UInt64) (messages : List UploadBlobRequest) (choices : List FrontendChoice)
    (chunks : List Bytes) : Prop :=
  messages = chunks.map .chunkData ∧ allOpened chunks (choices.map FrontendChoice.file) = true ∧
    chunks.flatten.length % 2 ^ 64 = size.toNat

def tempName (choices : List FrontendChoice) : String :=
  "temp" ++ toString (choices.headD default).draw ++ ".blob"

section Info

variable {fs : FileSystem} {choices : List FrontendChoice} (size : UInt64) (messages : List UploadBlobRequest)

-- Receives into the new file, then compares the sizes.
def receiveInto (X : Xxh64) (size : UInt64) (messages : List UploadBlobRequest) (blobFile : BlobFile) :
    FrontendM (Except Status (BlobFile × String)) :=
  andThen (receiveChunks X messages blobFile BlobHasher.new) fun received =>
    if received.1.fileSize ≠ size.toNat then pure (.error ⟨.invalidArgument, "Blob file size mismatch."⟩)
    else pure (.ok (received.1, received.2.finalize))

theorem receive_info_eq (X : Xxh64) :
    receiveAndHashBlob X (.info size :: messages) = catchFileSystemException
      (do
        let drawn ← Frontend.rand
        let blobFile ← Frontend.onFrontendFiles (BlobFile.create ("temp" ++ toString drawn ++ ".blob"))
        receiveInto X size messages blobFile)
      (fun what => pure (.error ⟨.cancelled, what⟩)) := by
  rw [receiveAndHashBlob]
  refine congrArg (fun body => catchFileSystemException body _) ?_
  refine bind_congr (fun drawn => bind_congr (fun blobFile => bind_congr ?_))
  intro received
  cases received with
  | error status => rfl
  | ok received => rfl

theorem exec_receive_info (opens : Opens fs (tempName choices) base location) :
    let outcome := exec frontendAloneSem
      (receiveInto X size messages ⟨joinPath "blobs" (tempName choices), 0⟩).run (choices.drop 3)
      (base.put location (.file []))
    exec frontendAloneSem (receiveAndHashBlob X (.info size :: messages)).run choices fs =
      (cancelCaught outcome.1, outcome.2) := by
  have third : choices.tail.drop 2 = choices.drop 3 := by rw [← List.drop_one, List.drop_drop]
  have created := exec_frontend_create opens choices.tail
  have drawn : frontendAloneSem .rand (choices.headD default) fs = ((choices.headD default).draw, fs) := rfl
  dsimp only
  rw [receive_info_eq, exec_cancel_caught, Frontend.rand, exec_run_perform, drawn]
  dsimp only
  rw [← tempName, exec_run_bind_ok _ _ _ _ _ (congrArg Prod.fst created), created, third]

variable {path : String} (resolved : base.resolve path = some location)
  (free : base.node location ≠ some .directory)

include resolved free

theorem received_all {chunks : List Bytes} (all : ReceivesAll size messages choices chunks) :
    exec frontendAloneSem (receiveInto X size messages ⟨path, 0⟩).run choices (base.put location (.file [])) =
      (.ok (.ok (⟨path, size.toNat⟩, X.blobHash chunks.flatten)), choices.drop chunks.length,
        base.put location (.file (landed chunks (choices.map FrontendChoice.file)))) := by
  obtain ⟨rfl, opened, announced⟩ := all
  have received := received_chunks (X := X) chunks path 0 (by decide) BlobHasher.new choices
    [] resolved free opened
  rw [Nat.zero_add, announced, List.nil_append] at received
  rw [receiveInto, exec_and_then_ok _ _ _ _ _ _ _ received, if_neg (not_not_intro rfl),
    BlobHasher.finalize_chunks]
  rfl

theorem received_part (part : ¬ ∃ chunks, ReceivesAll size messages choices chunks) :
    let outcome := exec frontendAloneSem (receiveInto X size messages ⟨path, 0⟩).run choices
      (base.put location (.file []))
    (∀ received, outcome.1 ≠ .ok (.ok received)) ∧ ∃ bytes,
      outcome.2.2 = base.put location (.file bytes) := by
  dsimp only
  rw [receiveInto]
  by_cases whole : ∃ chunks : List Bytes, messages = chunks.map .chunkData ∧
    allOpened chunks (choices.map FrontendChoice.file) = true
  · obtain ⟨chunks, rfl, opened⟩ := whole
    have received := received_chunks chunks path 0 (by decide) (BlobHasher.new : BlobHasher X)
      choices [] resolved free opened
    have other : (0 + chunks.flatten.length) % 2 ^ 64 ≠ size.toNat := by
      rw [Nat.zero_add]
      exact fun announced => part ⟨chunks, rfl, opened, announced⟩
    rw [exec_and_then_ok _ _ _ _ _ _ _ received, if_pos other]
    exact ⟨fun _ same => (by cases same), _, rfl⟩
  · obtain ⟨stopped, files⟩ := stopped_chunks messages path 0 (BlobHasher.new : BlobHasher X)
      choices [] resolved free whole
    obtain ⟨ends, same⟩ := exec_and_then_stopped _ (fun received => if received.1.fileSize ≠ size.toNat then
      pure (.error ⟨.invalidArgument, "Blob file size mismatch."⟩)
        else pure (.ok (received.1, received.2.finalize))) _ _ stopped
    exact ⟨ends, same ▸ files⟩

end Info

end Received

def SameBlobFiles (before after : FileSystem) : Prop :=
  ∀ location bytes, before.cwd ++ ["blobs"] <+: location →
    (after.node location = some (.file bytes) ↔ before.node location = some (.file bytes))

-- The first message is not a size, or the whole upload goes well.
def LeavesNoTemp (messages : List UploadBlobRequest) (choices : List FrontendChoice) : Prop :=
  match messages with
  | .info size :: rest => ∃ chunks, ReceivesAll size rest (choices.drop 3) chunks ∧
      TakenByAll (landed chunks ((choices.drop 3).map FrontendChoice.file)) size.toNat
        (choices.drop (3 + chunks.length))
  | _ => True

theorem temp_opens {fs base : FileSystem} (made : makeBlobs fs = some base) (choices : List FrontendChoice)
    (unused : fs.node (blobLocation fs (tempName choices)) = none) :
    Opens fs (tempName choices) base (blobLocation fs (tempName choices)) := by
  have ordinary := temp_ordinary (choices.headD default).draw
  have resolved := resolve_blob base (blobs_made made) (tempName choices) ordinary
  rw [← join_blob (tempName choices) ordinary] at resolved
  rcases make_blobs_cases made with rfl | ⟨-, rfl⟩
  · exact ⟨made, resolved, by rw [unused]; simp⟩
  · refine ⟨made, resolved, ?_⟩
    rw [node_put, if_neg (by simp [blobLocation]), unused]
    simp

theorem same_erase {fs base : FileSystem} (made : makeBlobs fs = some base) {location : Location}
    (unused : fs.node location = none) :
    SameBlobFiles fs (base.erase location) := by
  intro other bytes _
  rw [node_erase]
  split
  · rename_i here
    rw [here, unused]
  · exact made_file_iff made other bytes

theorem not_same_put {fs base : FileSystem} {name : String} (bytes : Bytes)
    (unused : fs.node (blobLocation fs name) = none) :
    ¬ SameBlobFiles fs (base.put (blobLocation fs name) (.file bytes)) := by
  intro same
  have there := (same (blobLocation fs name) bytes ⟨[name], by simp [blobLocation]⟩).mp
    (by rw [node_put, if_pos rfl])
  rw [unused] at there
  cases there

theorem temp_file_removed_iff (X : Xxh64) (service : FrontendServiceImpl) (messages : List UploadBlobRequest)
    (choices : List FrontendChoice) (fs base : FileSystem) (made : makeBlobs fs = some base)
    (unused : fs.node (blobLocation fs (tempName choices)) = none) :
    SameBlobFiles fs (exec frontendAloneSem (service.uploadBlob X messages).run choices fs).2.2 ↔
      LeavesNoTemp messages choices := by
  have untouched : ∀ after, after = fs → (SameBlobFiles fs after ↔ True) := by
    rintro after rfl
    exact iff_of_true (fun _ _ _ => Iff.rfl) trivial
  cases messages with
  | nil => exact untouched _ rfl
  | cons message rest =>
      cases message with
      | chunkData chunk => exact untouched _ rfl
      | notSet => exact untouched _ rfl
      | info size =>
          have opens := temp_opens made choices unused
          have start := exec_receive_info (X := X) size rest opens
          obtain ⟨-, resolved, free⟩ := opens
          dsimp only at start
          rw [upload_blob_eq]
          by_cases whole : ∃ chunks, ReceivesAll size rest (choices.drop 3) chunks
          · obtain ⟨chunks, all⟩ := whole
            have only : LeavesNoTemp (.info size :: rest) choices ↔
                TakenByAll (landed chunks ((choices.drop 3).map FrontendChoice.file)) size.toNat
                  (choices.drop (3 + chunks.length)) := by
              refine ⟨?_, fun taken => ⟨chunks, all, taken⟩⟩
              rintro ⟨others, again, taken⟩
              obtain ⟨-, rfl⟩ :=
                info_chunks_inj (congrArg (List.cons (.info size)) (all.1.symm.trans again.1))
              exact taken
            rw [received_all size rest resolved free all, List.drop_drop] at start
            rw [exec_and_then_ok _ _ _ _ _ _ _ start, only]
            rcases place_blob_files service resolved free size.toNat
              (landed chunks ((choices.drop 3).map FrontendChoice.file))
              (X.blobHash chunks.flatten) (choices.drop (3 + chunks.length)) with
                ⟨taken, files⟩ | ⟨refused, files⟩
            · rw [files]
              exact iff_of_true (same_erase made unused) taken
            · rw [files]
              exact iff_of_false (not_same_put _ unused) refused
          · obtain ⟨stopped, bytes, files⟩ := received_part (X := X) size rest resolved free whole
            rw [(exec_and_then_stopped _ _ _ _
              (by rw [start]; exact cancel_caught_stopped stopped)).2, start, files]
            refine iff_of_false (not_same_put _ unused) ?_
            rintro ⟨chunks, all, -⟩
            exact whole ⟨chunks, all⟩

theorem temp_file_removed_iff_run :
    let choices : List FrontendChoice := [{}, {}, {}, {}, {}, { placement := .ok ["worker-0"] }]
    SameBlobFiles freshWorker
      (exec frontendAloneSem (oneMaster.uploadBlob referenceXxh64
        [.info 2, .chunkData [97], .chunkData [98]]).run choices freshWorker).2.2 := by
  intro choices
  have unused : freshWorker.node (blobLocation freshWorker (tempName choices)) = none :=
    fresh_worker_empty.2 _
  refine (temp_file_removed_iff referenceXxh64 oneMaster [.info 2, .chunkData [97], .chunkData [98]]
    choices freshWorker freshWorker
    (make_blobs freshWorker fresh_worker_empty.1) unused).mpr ?_
  refine ⟨[[97], [98]], ⟨rfl, rfl, rfl⟩, ["worker-0"], rfl, ?_, trivial⟩
  have once : UInt64.toNat 2 ⌈/⌉ MAX_CHUNK_SIZE = 1 := by decide +kernel
  rw [Sent, if_neg (by decide), once]
  exact ⟨rfl, rfl, rfl, rfl⟩

-- One byte comes where two were announced.
theorem size_mismatch_leaves_temp :
    let outcome := exec frontendAloneSem
      (oneMaster.uploadBlob referenceXxh64 [.info 2, .chunkData [97]]).run [] freshWorker
    makeBlobs freshWorker = some freshWorker ∧
      freshWorker.node (blobLocation freshWorker (tempName [])) = none ∧
      outcome.1 = .ok (.error ⟨.invalidArgument, "Blob file size mismatch."⟩) ∧
      outcome.2.2.node ["app", "blobs", "temp0.blob"] = some (.file [97]) ∧
        ¬ SameBlobFiles freshWorker outcome.2.2 := by
  intro outcome
  have left : outcome.2.2.node ["app", "blobs", "temp0.blob"] = some (.file [97]) := by decide +kernel
  refine ⟨make_blobs freshWorker fresh_worker_empty.1, fresh_worker_empty.2 _, by decide +kernel, left, ?_⟩
  intro same
  have before := (same ["app", "blobs", "temp0.blob"] [97] (by decide)).mp left
  cases before.symm.trans (fresh_worker_empty.2 "temp0.blob")

end BlobStore
