import BlobStore.ClientRuns
import BlobStore.CopyLedger
import BlobStore.UploadContract

set_option autoImplicit false

namespace BlobStore

open Effects FileSystem WorkerService MasterDbRepository FrontendServiceImpl

def noteRows : (call : SpannerCall) → SpannerReply call → Phase → Phase
  | .commit (.insertBlob entry), .ok _, .holding copies => .holding (copies ++ [entry.key])
  | .commit (.updateBlob entry), .ok _, .writing copies _ => .holding (copies.filter (· ≠ entry.key))
  | .commit (.deleteBlobsByHash _), .ok _, .deleting _ _ => .holding []
  | .selectBlobs (.savedByHash hash), .ok rows, .holding _ =>
      .deleting hash (rows.map BlobCopyDTO.workerAddress)
  | _, _, phase => phase

def noteFile (address : String) : (call : FileCall) → FileReply call → Phase → Phase
  | .openTrunc path, true, .holding copies =>
      match copies.find? (fun copy => copy.2 = address ∧ WorkerService.BLOBS_PATH ++ copy.1 = path) with
      | some copy => .writing copies copy
      | none => .holding copies
  | .remove _, .ok _, .writing copies _ => .holding copies
  | .remove _, .ok _, .deleting blobHash (_ :: rest) => .deleting blobHash rest
  | .fileExists _, .ok false, .deleting blobHash (_ :: rest) => .deleting blobHash rest
  | _, _, phase => phase

def notePhase : (call : ClusterCall) → ClusterReply call → Phase → Phase
  | .spanner call, reply, phase => noteRows call reply phase
  | .workerFile address call, reply, phase => noteFile address call reply phase
  | _, _, phase => phase

section Contract

variable (registered : String → Prop)

-- What uploads and deletions do to the database in each phase, and to files below.
def permittedRows : SpannerCall → Phase → Prop
  | .selectWorkers _, _ => True
  | .commit (.updateWorker _), _ => True
  | .commit (.insertBlob entry), .holding _ =>
      OrdinaryName entry.hash ∧ registered entry.workerAddress ∧ entry.state = .duringCreation
  | .commit (.updateBlob entry), .writing _ copy => entry.key = copy ∧ entry.state = .saved
  | .commit (.deleteBlobsByHash hash), .deleting blobHash remaining => blobHash = hash ∧ remaining = []
  | .selectBlobs (.byHashAndWorker hash address), .writing _ copy => copy = (hash, address)
  | .selectBlobs (.savedByHash _), .holding copies => copies = []
  | _, _ => False

def permittedFile (address : String) : FileCall → Phase → Prop
  | .createDirectories path, .holding copies => path = "blobs" ∧ ∃ copy ∈ copies, copy.2 = address
  | .openTrunc path, .holding copies =>
      ∃ copy ∈ copies, copy.2 = address ∧ path = WorkerService.BLOBS_PATH ++ copy.1
  | .append path _, .writing _ copy => copy.2 = address ∧ path = WorkerService.BLOBS_PATH ++ copy.1
  | .remove path, .writing _ copy => copy.2 = address ∧ path = WorkerService.BLOBS_PATH ++ copy.1
  | .remove path, .deleting blobHash remaining =>
      remaining.head? = some address ∧ path = WorkerService.BLOBS_PATH ++ blobHash
  | .fileExists path, .deleting blobHash remaining =>
      remaining.head? = some address ∧ path = WorkerService.BLOBS_PATH ++ blobHash
  | _, _ => False

def permitted : ClusterCall → Phase → Prop
  | .spanner call, phase => permittedRows registered call phase
  | .workerFile address call, phase => permittedFile address call phase
  | _, _ => True

def possibleRows : (call : SpannerCall) → SpannerReply call → Phase → Prop
  | .selectWorkers _, reply, _ => ∀ rows, reply = .ok rows → ∀ row ∈ rows, registered row.workerAddress
  | .commit (.insertBlob entry), reply, .holding copies => reply = .ok () → entry.key ∉ copies
  | .commit (.updateBlob _), reply, _ => reply = .ok ()
  | .commit (.deleteBlobsByHash _), reply, _ => reply = .ok ()
  | .selectBlobs (.byHashAndWorker hash address), reply, _ =>
      ∃ row, reply = .ok [row] ∧ row.key = (hash, address)
  | .selectBlobs (.savedByHash hash), reply, _ => ∃ rows, reply = .ok rows ∧ ∀ row ∈ rows, row.hash = hash
  | _, _, _ => True

def possibleFile : (call : FileCall) → FileReply call → Prop
  | .createDirectories _, reply => reply = .ok ()
  | .openTrunc _, reply => reply = true
  | .append _ _, reply => reply = true
  | .fileExists _, reply => ∃ present, reply = .ok present
  | .remove _, reply => ∃ removed, reply = .ok removed
  | _, _ => True

def possible : (call : ClusterCall) → ClusterReply call → Phase → Prop
  | .rpc, fate, _ => fate = .delivered
  | .spanner call, reply, phase => possibleRows registered call reply phase
  | .workerFile _ call, reply, _ => possibleFile call reply
  | _, _, _ => True

def operationContract : Contract ClusterCall ClusterReply Phase :=
  noting notePhase (permitted registered) (possible registered)

def rowsContract : Contract SpannerCall SpannerReply Phase :=
  fun call => operationContract registered (.spanner call)

def filesContract (address : String) : Contract FileCall FileReply Phase :=
  fun call => operationContract registered (.workerFile address call)

end Contract

section Calls

variable {registered : String → Prop} {α : Type}

theorem meets_delivered (handler : ClusterM (Except Status α))
    (post : Except Status α → Phase → Prop) (phase : Phase)
    (holds : meets (operationContract registered) handler post phase) :
    meets (operationContract registered) (unary handler) post phase := by
  rw [unary, meets_bind, rpcFate, meets_perform]
  refine ⟨trivial, ?_⟩
  rintro _ rfl
  exact holds

theorem meets_db (program : DbM α) (post : Except Status α → Phase → Prop) (phase : Phase) :
    meets (operationContract registered) (dbOnCluster program) post phase ↔
      meets (rowsContract registered) program.run post phase :=
  meets_inline spannerCall program.run post phase

theorem meets_worker (address : String) (program : WorkerM (Except Status α))
    (post : Except Status α → Phase → Prop) (phase : Phase) :
    meets (operationContract registered) (workerOnCluster address program) post phase ↔
      meets (fun call after => meets (operationContract registered) (workerImpl address call) after)
        program.run (fun outcome => post (handlerStatus outcome)) phase := by
  rw [workerOnCluster, map_eq_pure_bind, meets_bind]
  exact meets_inline (workerImpl address) program.run _ phase

theorem meets_worker_files (address : String) (program : FileM α)
    (post : Except Thrown α → Phase → Prop) (phase : Phase) :
    meets (fun call after => meets (operationContract registered) (workerImpl address call) after)
      (onWorkerFiles program).run post phase ↔
      meets (filesContract registered address) program.run post phase :=
  meets_inline workerFile program.run post phase

theorem meets_master_db (program : DbM α) (post : Except Status α → Phase → Prop) (phase : Phase) :
    meets (fun call after => meets (operationContract registered) (masterImpl call) after)
      (onDb program).run post phase ↔
      meets (rowsContract registered) program.run post phase :=
  meets_inline (fun call : SpannerCall =>
    (Program.perform (MasterCall.spanner call) : Program MasterCall MasterReply (SpannerReply call)))
    program.run post phase

end Calls

section Place

variable {registered : String → Prop}

def keysOf (blobHash : String) (workers : List String) : List (String × String) :=
  workers.map (fun worker => (blobHash, worker))

theorem meets_reserve (blobHash : String) (size : Int) (ordinary : OrdinaryName blobHash)
    (workers : List WorkerStateDTO) (known : ∀ worker ∈ workers, registered worker.workerAddress)
    (copies : List (String × String)) (distinct : copies.Nodup)
    (post : Except Status (List String) → Phase → Prop)
    (placed : ∀ addresses, (copies ++ keysOf blobHash addresses).Nodup →
      post (.ok addresses) (.holding (copies ++ keysOf blobHash addresses)))
    (refused : ∀ status held, post (.error status) (.holding held)) :
    meets (rowsContract registered) (MasterService.reserveWorkers blobHash size workers).run post
      (.holding copies) := by
  induction workers generalizing copies post with
  | nil =>
      have none := placed []
      rw [keysOf, List.map_nil, List.append_nil] at none
      exact none distinct
  | cons worker rest ih =>
      rw [MasterService.reserveWorkers, addBlobEntry, commit, bind_assoc, meets_run_bind, meets_run_perform]
      refine ⟨⟨ordinary, known worker List.mem_cons_self, rfl⟩, ?_⟩
      rintro (message | _) fresh
      · exact refused _ _
      · have grown : (copies ++ [(blobHash, worker.workerAddress)]).Nodup :=
          distinct.append (List.nodup_singleton _) (List.disjoint_singleton.mpr (fresh rfl))
        dsimp only [orStatus]
        rw [pure_bind, updateWorkerState, commit, bind_assoc, meets_run_bind, meets_run_perform]
        refine ⟨trivial, ?_⟩
        rintro (message | _) -
        · exact refused _ _
        · dsimp only [orStatus]
          rw [pure_bind, meets_run_bind]
          refine ih (fun other member => known other (List.mem_cons_of_mem worker member)) _ grown _
            ?_ (fun status held => refused status held)
          intro addresses whole
          have split : copies ++ [(blobHash, worker.workerAddress)] ++ keysOf blobHash addresses =
              copies ++ keysOf blobHash (worker.workerAddress :: addresses) := by simp [keysOf]
          rw [split] at whole
          have done := placed _ whole
          rw [← split] at done
          exact done

theorem meets_place (request : GetWorkersToSaveBlobRequest)
    (ordinary : OrdinaryName request.blobHash) (post : Except Status (List String) → Phase → Prop)
    (placed : ∀ addresses, addresses.Nodup →
      post (.ok addresses) (.holding (keysOf request.blobHash addresses)))
    (refused : ∀ status held, post (.error status) (.holding held)) :
    meets (operationContract registered)
      (unary (dbOnCluster (MasterService.getWorkersToSaveBlob request))) post (.holding []) := by
  refine meets_delivered _ _ _ ((meets_db _ _ _).mpr ?_)
  rw [MasterService.getWorkersToSaveBlob, getWorkersWithFreeSpace, selectWorkers, bind_assoc,
    bind_assoc, meets_run_bind, meets_run_perform]
  refine ⟨trivial, ?_⟩
  rintro (message | rows) known
  · exact refused _ _
  · dsimp only [orStatus]
    rw [pure_bind]
    split
    · exact refused _ _
    · rw [pure_bind]
      refine meets_reserve request.blobHash _ ordinary rows (known rows rfl) [] List.nodup_nil post ?_ refused
      intro addresses distinct
      exact placed addresses (List.Nodup.of_map _ distinct)

end Place

section Save

variable {registered : String → Prop} {copies : List (String × String)} {blobHash worker : String}

theorem rows_updated (entry : BlobCopyDTO) (keyed : entry.key = (blobHash, worker))
    (saved : entry.state = .saved) (post : Except String Unit → Phase → Prop)
    (holds : post (.ok ()) (.holding (copies.filter (· ≠ (blobHash, worker))))) :
    rowsContract registered (.commit (.updateBlob entry)) post (.writing copies (blobHash, worker)) := by
  refine ⟨⟨keyed, saved⟩, ?_⟩
  rintro _ rfl
  rw [← keyed] at holds
  exact holds

theorem meets_notify (post : Except Status Unit → Phase → Prop)
    (ends : ∀ outcome, post outcome (.holding (copies.filter (· ≠ (blobHash, worker))))) :
    meets (operationContract registered)
      (unary (dbOnCluster (MasterService.notifyBlobSaved ⟨worker, blobHash⟩))) post
      (.writing copies (blobHash, worker)) := by
  refine meets_delivered _ _ _ ((meets_db _ _ _).mpr ?_)
  rw [MasterService.notifyBlobSaved, queryBlobByHashAndWorkerId, selectBlobs, bind_assoc,
    meets_run_bind, meets_run_perform]
  refine ⟨rfl, ?_⟩
  rintro _ ⟨row, rfl, keyed⟩
  dsimp only [orStatus]
  rw [pure_bind]
  dsimp only
  rw [updateBlobEntry, commit, bind_assoc, meets_run_bind, meets_run_perform]
  refine rows_updated { row with state := .saved } keyed rfl _ ?_
  dsimp only [orStatus]
  rw [pure_bind, getWorkerState, selectWorkers, bind_assoc, bind_assoc, meets_run_bind, meets_run_perform]
  refine ⟨trivial, ?_⟩
  rintro (message | rows) -
  · exact ends _
  · dsimp only [orStatus]
    rw [pure_bind]
    cases rows with
    | nil => exact ends _
    | cons state rest =>
        dsimp only
        rw [pure_bind, updateWorkerState, commit, meets_run_bind, meets_run_perform]
        refine ⟨trivial, ?_⟩
        rintro (message | _) - <;> exact ends _

theorem noted_open (member : (blobHash, worker) ∈ copies) :
    noteFile worker (.openTrunc (WorkerService.BLOBS_PATH ++ blobHash)) true (.holding copies) =
      .writing copies (blobHash, worker) := by
  have found : copies.find? (fun copy => copy.2 = worker ∧
      WorkerService.BLOBS_PATH ++ copy.1 = WorkerService.BLOBS_PATH ++ blobHash) =
      some (blobHash, worker) := by
    cases search : copies.find? (fun copy => copy.2 = worker ∧
      WorkerService.BLOBS_PATH ++ copy.1 = WorkerService.BLOBS_PATH ++ blobHash) with
    | none =>
        have missed := List.find?_eq_none.mp search (blobHash, worker) member
        simp at missed
    | some copy =>
        have right := List.find?_some search
        simp only [decide_eq_true_eq, String.append_right_inj] at right
        rw [← right.1, ← right.2]
  simp only [noteFile, found]

theorem file_opened (member : (blobHash, worker) ∈ copies) (post : Bool → Phase → Prop)
    (holds : post true (.writing copies (blobHash, worker))) :
    filesContract registered worker (.openTrunc (WorkerService.BLOBS_PATH ++ blobHash)) post
      (.holding copies) := by
  refine ⟨⟨_, member, rfl, rfl⟩, ?_⟩
  rintro _ rfl
  rw [notePhase, noted_open member]
  exact holds

theorem meets_append (size : Nat) (chunk : Bytes) (post : Except Thrown BlobFile → Phase → Prop)
    (appended : ∀ size, post (.ok ⟨WorkerService.BLOBS_PATH ++ blobHash, size⟩)
      (.writing copies (blobHash, worker))) :
    meets (filesContract registered worker)
      (BlobFile.appendChunk ⟨WorkerService.BLOBS_PATH ++ blobHash, size⟩ chunk).run post
      (.writing copies (blobHash, worker)) := by
  rw [BlobFile.appendChunk, appendTo, meets_run_bind, meets_run_perform]
  refine ⟨⟨rfl, rfl⟩, ?_⟩
  rintro _ rfl
  exact appended _

theorem meets_receive_messages (X : Xxh64) (named : blobHash ≠ "") (messages : List SaveBlobRequest)
    (size : Nat) (hasher : BlobHasher X) (post : Except Thrown (Receiving X) → Phase → Prop)
    (received : ∀ size hasher,
      post (.ok ⟨blobHash, some ⟨WorkerService.BLOBS_PATH ++ blobHash, size⟩, hasher⟩)
      (.writing copies (blobHash, worker))) :
    meets (filesContract registered worker)
      (receiveMessages X messages
        ⟨blobHash, some ⟨WorkerService.BLOBS_PATH ++ blobHash, size⟩, hasher⟩).run post
      (.writing copies (blobHash, worker)) := by
  induction messages generalizing size hasher with
  | nil => exact received size hasher
  | cons request rest ih =>
      rw [receive_message X request rest blobHash named, meets_run_bind]
      exact meets_append size request.chunkData _ (fun size => ih size _)

theorem meets_create (ordinary : OrdinaryName blobHash) (member : (blobHash, worker) ∈ copies)
    (post : Except Thrown BlobFile → Phase → Prop)
    (opened : post (.ok ⟨WorkerService.BLOBS_PATH ++ blobHash, 0⟩)
      (.writing copies (blobHash, worker))) :
    meets (filesContract registered worker) (BlobFile.create blobHash).run post (.holding copies) := by
  rw [BlobFile.create, createDirectories, bind_assoc, meets_run_bind, meets_run_perform]
  refine ⟨⟨rfl, _, member, rfl⟩, ?_⟩
  rintro _ rfl
  dsimp only [orThrow]
  rw [pure_bind, show joinPath BlobFile.BLOBS_PATH blobHash = WorkerService.BLOBS_PATH ++
    blobHash from join_blob blobHash ordinary, openTruncate, meets_run_bind, meets_run_perform]
  exact file_opened member _ opened

theorem meets_receive (X : Xxh64) (messages : List SaveBlobRequest) (ordinary : OrdinaryName blobHash)
    (named : ∀ message ∈ messages, message.blobHash = blobHash) (member : (blobHash, worker) ∈ copies)
    (post : Except Thrown (Except Status String) → Phase → Prop)
    (accepted : post (.ok (.ok blobHash)) (.writing copies (blobHash, worker)))
    (refused : ∀ outcome, (∀ hash, outcome ≠ .ok (.ok hash)) → post outcome (.holding copies)) :
    meets (filesContract registered worker) (receiveBlobFromFrontend X messages).run post
      (.holding copies) := by
  cases messages with
  | nil =>
      rw [receive_nothing]
      exact refused _ (fun _ same => by cases same)
  | cons first rest =>
      obtain rfl := named first List.mem_cons_self
      rw [receiveBlobFromFrontend, meets_catch, receive_first_message, bind_assoc, meets_run_bind]
      refine meets_create ordinary member _ ?_
      dsimp only
      rw [bind_assoc, meets_run_bind]
      refine meets_append 0 first.chunkData _ (fun size => ?_)
      dsimp only
      rw [meets_run_bind]
      refine meets_receive_messages X ordinary.1 rest size _ _ (fun size hasher => ?_)
      dsimp only
      split
      · rw [BlobFile.remove, removeFile, bind_assoc, meets_run_bind, meets_run_perform]
        refine ⟨⟨rfl, rfl⟩, ?_⟩
        rintro _ ⟨removed, rfl⟩
        exact refused _ (fun _ same => by cases same)
      · exact accepted

theorem meets_save (X : Xxh64) (sent : List SaveBlobRequest) (ordinary : OrdinaryName blobHash)
    (named : ∀ message ∈ sent, message.blobHash = blobHash) (member : (blobHash, worker) ∈ copies)
    (post : Except Status Unit → Phase → Prop) (kept : ∀ outcome, post outcome (.holding copies))
    (saved : ∀ outcome, post outcome (.holding (copies.filter (· ≠ (blobHash, worker))))) :
    meets (operationContract registered) (saveBlobCall X worker sent) post (.holding copies) := by
  rw [saveBlobCall, meets_bind, rpcFate, meets_perform]
  refine ⟨trivial, ?_⟩
  rintro _ rfl
  dsimp only
  rw [meets_worker, WorkerService.saveBlob, meets_run_bind, meets_worker_files]
  refine meets_receive X sent ordinary named member _ ?_ ?_
  · dsimp only
    rw [masterNotifyBlobSaved, meets_run_bind, meets_run_perform]
    refine meets_notify _ ?_
    rintro (status | _) <;> exact saved _
  · rintro (thrown | ⟨status | hash⟩) failed
    · exact kept _
    · exact kept _
    · exact absurd rfl (failed hash)

end Save

section Delete

variable {registered : String → Prop} {blobHash worker : String} {rest : List String}

theorem meets_delete_file (post : Except Thrown (Except Status Unit) → Phase → Prop)
    (ends : ∀ outcome, post outcome (.deleting blobHash rest)) :
    meets (filesContract registered worker) (deleteFile blobHash).run post
      (.deleting blobHash (worker :: rest)) := by
  rw [deleteFile, meets_catch, fileExists, bind_assoc, meets_run_bind, meets_run_perform]
  refine ⟨⟨rfl, rfl⟩, ?_⟩
  rintro _ ⟨_ | _, rfl⟩
  · exact ends _
  · dsimp only [orThrow]
    rw [pure_bind, if_pos rfl, removeFile, bind_assoc, meets_run_bind, meets_run_perform]
    refine ⟨⟨rfl, rfl⟩, ?_⟩
    rintro _ ⟨removed, rfl⟩
    exact ends _

theorem meets_request (rows : List BlobCopyDTO) (named : ∀ row ∈ rows, row.hash = blobHash)
    (post : Except Status Unit → Phase → Prop) (asked : post (.ok ()) (.deleting blobHash [])) :
    meets (fun call after => meets (operationContract registered) (masterImpl call) after)
      (MasterService.requestWorkersToDeleteBlob rows).run post
        (.deleting blobHash (rows.map BlobCopyDTO.workerAddress)) := by
  induction rows with
  | nil => exact asked
  | cons row rest ih =>
      obtain rfl := named row List.mem_cons_self
      rw [MasterService.requestWorkersToDeleteBlob, MasterService.requestWorkerToDeleteBlob,
        bind_assoc, meets_run_bind, meets_run_perform]
      refine meets_delivered _ _ _ ((meets_worker _ _ _ _).mpr ?_)
      rw [WorkerService.deleteBlob, meets_worker_files]
      refine meets_delete_file _ (fun outcome => ?_)
      exact ih (fun other member => named other (List.mem_cons_of_mem row member))

theorem meets_delete (blobHash : String) (post : Except Status Unit → Phase → Prop)
    (deleted : post (.ok ()) (.holding [])) :
    meets (operationContract registered)
      (unary (masterOnCluster (MasterService.deleteBlob blobHash))) post (.holding []) := by
  refine meets_delivered _ _ _ ((meets_inline masterImpl _ post _).mpr ?_)
  rw [MasterService.deleteBlob, meets_run_bind, meets_master_db, querySavedBlobByHash, selectBlobs,
    meets_run_bind, meets_run_perform]
  refine ⟨rfl, ?_⟩
  rintro _ ⟨rows, rfl, named⟩
  dsimp only [orStatus]
  rw [meets_run_pure]
  dsimp only
  rw [meets_run_bind]
  refine meets_request rows named _ ?_
  rw [meets_master_db, deleteBlobEntryByHash, commit, meets_run_bind, meets_run_perform]
  refine ⟨⟨rfl, rfl⟩, ?_⟩
  rintro _ rfl
  exact deleted

end Delete

inductive FrontendOp where
  | uploadBlob (service : FrontendServiceImpl) (messages : List UploadBlobRequest)
  | deleteBlob (service : FrontendServiceImpl) (blobHash : String)

def FrontendOp.program (X : Xxh64) : FrontendOp → ClusterM ClientResponse
  | .uploadBlob service messages => ClientResponse.uploaded <$>
      Program.inline (frontendImpl X) (service.uploadBlob X messages).run
  | .deleteBlob service blobHash =>
      ClientResponse.deleted <$> Program.inline (frontendImpl X) (service.deleteBlob blobHash).run

section Operations

variable (registered : String → Prop) (X : Xxh64)

def Serving (blobHash : String) (rest : List String) (phase : Phase) : Prop :=
  OrdinaryName blobHash ∧ rest.Nodup ∧ ∃ copies, phase = .holding copies ∧
    ∀ worker ∈ rest, (blobHash, worker) ∈ copies

theorem serving_skips {blobHash worker : String} {rest : List String} {phase : Phase}
    (serves : Serving blobHash (worker :: rest) phase) :
    Serving blobHash rest phase := by
  obtain ⟨ordinary, distinct, copies, same, inside⟩ := serves
  exact ⟨ordinary, (List.nodup_cons.mp distinct).2, copies, same,
    fun other member => inside other (List.mem_cons_of_mem worker member)⟩

theorem serving_saves {blobHash worker : String} {rest : List String} {copies : List (String × String)}
    (serves : Serving blobHash (worker :: rest) (.holding copies)) :
    Serving blobHash rest (.holding (copies.filter (· ≠ (blobHash, worker)))) := by
  obtain ⟨ordinary, distinct, _, ⟨⟩, inside⟩ := serves
  obtain ⟨fresh, distinctRest⟩ := List.nodup_cons.mp distinct
  refine ⟨ordinary, distinctRest, _, rfl, ?_⟩
  intro other member
  have different : other ≠ worker := fun same => fresh (same ▸ member)
  exact List.mem_filter.mpr ⟨inside other (List.mem_cons_of_mem worker member), by simp [different]⟩

theorem serving_sent {blobHash worker : String} {rest : List String} {sent : List SaveBlobRequest}
    {phase : Phase} (serves : Serving blobHash (worker :: rest) phase)
    (named : ∀ message ∈ sent, message.blobHash = blobHash)
    (post : Except Status Unit → Phase → Prop)
    (ends : ∀ reply after, Serving blobHash rest after → post reply after) :
    meets (operationContract registered) (saveBlobCall X worker sent) post phase := by
  have whole := serves
  obtain ⟨ordinary, -, copies, rfl, inside⟩ := serves
  exact meets_save X sent ordinary named (inside worker List.mem_cons_self) post
    (fun outcome => ends outcome _ (serving_skips whole))
    (fun outcome => ends outcome _ (serving_saves whole))

theorem operation_rules :
    UploadRules (fun call after => meets (operationContract registered) (frontendImpl X call) after)
      (.holding []) Serving Phase.Ended where
  files := fun _ _ _ every => ⟨trivial, fun reply _ => every reply⟩
  draws := fun _ _ every => ⟨trivial, fun reply _ => every reply⟩
  writes := fun _ _ _ _ every => ⟨trivial, fun reply _ => every reply⟩
  places := by
    intro master blobHash post ordinary placed refused
    refine meets_place _ ordinary post ?_ (fun status held => refused status _ ⟨held, rfl⟩)
    intro addresses distinct
    exact placed addresses _ ⟨ordinary, distinct, _, rfl,
      fun worker member => List.mem_map.mpr ⟨worker, member, rfl⟩⟩
  finishes := fun _ _ _ _ _ _ serves named ends => serving_sent registered X serves named _ ends
  cancels := by
    intro blobHash worker rest sent post phase serves named ends
    rw [frontendImpl, meets_bind]
    exact serving_sent registered X serves named _ (fun _ after kept => ends () after kept)
  skips := fun _ _ _ _ serves => serving_skips serves
  serves := fun _ _ _ ⟨_, _, copies, same, _⟩ => ⟨copies, same⟩
  idle := ⟨[], rfl⟩

theorem operation_meets (op : FrontendOp) :
    meets (operationContract registered) (op.program X) (fun _ => Phase.Ended) (.holding []) := by
  cases op with
  | uploadBlob service messages =>
      rw [FrontendOp.program, map_eq_pure_bind, meets_bind, meets_inline]
      exact upload_meets (operation_rules registered X) X service messages
  | deleteBlob service blobHash =>
      rw [FrontendOp.program, map_eq_pure_bind, meets_bind, meets_inline,
        FrontendServiceImpl.deleteBlob, meets_run_bind, meets_run_perform]
      exact meets_delete blobHash _ ⟨[], rfl⟩

end Operations

end BlobStore
