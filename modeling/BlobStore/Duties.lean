import BlobStore.Library.Answers
import BlobStore.Requests

set_option autoImplicit false

namespace BlobStore

open Effects FileSystem WorkerService MasterDbRepository FrontendServiceImpl

-- The saved copies of a blob that a request has looked up, and what it has read of the
-- first one.
structure Reading where
  blobHash : String
  workers : List String
  got : Bytes

-- What a request has in hand: the copies it has reserved, the one whose file it writes,
-- with the bytes so far, and what it reads.
structure Duty where
  copies : List (String × String) := []
  writing : Option ((String × String) × Bytes) := none
  reading : Option Reading := none

def noteDutyRows : (call : SpannerCall) → SpannerReply call → Duty → Duty
  | .commit (.insertBlob entry), .ok _, duty =>
      { duty with copies := duty.copies ++ [entry.key], writing := none }
  | .commit (.updateBlob entry), _, duty => { duty with copies := duty.copies.filter (· ≠ entry.key) }
  | .commit (.deleteBlobsByHash _), _, duty => { duty with reading := none }
  | .selectBlobs (.savedByHash hash), .ok rows, duty =>
      { duty with reading := some ⟨hash, rows.map BlobCopyDTO.workerAddress, []⟩ }
  | _, _, duty => duty

def noteDutyFile (address : String) : (call : FileCall) → FileReply call → Duty → Duty
  | .openTrunc path, true, duty =>
      match duty.copies.find? (fun copy => copy.2 = address ∧ WorkerService.BLOBS_PATH ++ copy.1 = path) with
      | some copy => { duty with writing := some (copy, []) }
      | none => duty
  | .append _ chunk, true, duty =>
      { duty with writing := duty.writing.map (fun written => (written.1, written.2 ++ chunk)) }
  | .remove _, _, duty => { duty with writing := none }
  | .read _ _ _, bytes, duty =>
      { duty with reading := duty.reading.map (fun reading => { reading with got := reading.got ++ bytes }) }
  | _, _, duty => duty

def noteDuty : (call : ClusterCall) → ClusterReply call → Duty → Duty
  | .spanner call, reply, duty => noteDutyRows call reply duty
  | .workerFile address call, reply, duty => noteDutyFile address call reply duty
  | _, _, duty => duty

-- The beginning of some bytes with this hash.
def Served (X : Xxh64) (blobHash : String) (got : Bytes) : Prop :=
  got = [] ∨ ∃ bytes, X.blobHash bytes = blobHash ∧ got <+: bytes

theorem served_within {X : Xxh64} {blobHash : String} {less got : Bytes} (within : less <+: got)
    (served : Served X blobHash got) :
    Served X blobHash less := by
  rcases served with rfl | ⟨bytes, hashed, leading⟩
  · exact .inl (List.prefix_nil.mp within)
  · exact .inr ⟨bytes, hashed, within.trans leading⟩

section Contract

variable (X : Xxh64) (registered : String → Prop)

-- A row is marked as saved only by the request that has written its file and checked
-- the hash of what it wrote.
def dutyRows : SpannerCall → Duty → Prop
  | .selectWorkers _, _ => True
  | .selectBlobs (.byHashAndWorker _ _), _ => True
  | .selectBlobs (.savedByHash _), duty => duty.copies = [] ∧ duty.reading = none
  | .commit (.updateWorker _), _ => True
  | .commit (.insertBlob entry), _ =>
      OrdinaryName entry.hash ∧ registered entry.workerAddress ∧ entry.state = .duringCreation
  | .commit (.updateBlob entry), duty =>
      entry.key ∈ duty.copies ∧ entry.state = .saved ∧ ∃ bytes,
        duty.writing = some (entry.key, bytes) ∧ X.blobHash bytes = entry.hash
  | .commit (.deleteBlobsByHash hash), duty =>
      duty.copies = [] ∧ ∃ reading, duty.reading = some reading ∧ reading.blobHash = hash
  | .commit _, _ => False

def dutyFile (address : String) : FileCall → Duty → Prop
  | .createDirectories path, _ => path = "blobs" ∧ registered address
  | .openTrunc path, duty =>
      ∃ copy ∈ duty.copies, copy.2 = address ∧ path = WorkerService.BLOBS_PATH ++ copy.1
  | .append path _, duty =>
      ∃ copy bytes, duty.writing = some (copy, bytes) ∧ copy ∈ duty.copies ∧ copy.2 = address ∧
        path = WorkerService.BLOBS_PATH ++ copy.1
  | .remove path, duty =>
      (∃ copy bytes, duty.writing = some (copy, bytes) ∧ copy ∈ duty.copies ∧ copy.2 = address ∧
        path = WorkerService.BLOBS_PATH ++ copy.1) ∨
        ∃ reading, duty.reading = some reading ∧ address ∈ reading.workers ∧
          path = WorkerService.BLOBS_PATH ++ reading.blobHash
  | .read path offset _, duty =>
      ∃ reading, duty.reading = some reading ∧ reading.workers.head? = some address ∧
        path = WorkerService.BLOBS_PATH ++ reading.blobHash ∧ offset = reading.got.length
  | _, _ => True

def dutyPermits : ClusterCall → Duty → Prop
  | .spanner call, duty => dutyRows X registered call duty
  | .workerFile address call, duty => dutyFile registered address call duty
  | _, _ => True

def dutyRowReplies : (call : SpannerCall) → SpannerReply call → Duty → Prop
  | .selectWorkers query, .ok rows, _ =>
      ∀ row ∈ rows, registered row.workerAddress ∧ ∀ address, query = .byAddress address →
        row.workerAddress = address
  | .selectBlobs (.byHashAndWorker hash address), .ok rows, _ => ∀ row ∈ rows, row.key = (hash, address)
  | .selectBlobs (.savedByHash hash), .ok rows, _ =>
      ∀ row ∈ rows, row.hash = hash ∧ OrdinaryName hash ∧ registered row.workerAddress
  | .commit (.insertBlob entry), .ok _, duty => entry.key ∉ duty.copies
  | _, _, _ => True

def dutyFileReplies : (call : FileCall) → FileReply call → Duty → Prop
  | .read _ _ _, bytes, duty => ∀ reading, duty.reading = some reading →
      Served X reading.blobHash (reading.got ++ bytes)
  | _, _, _ => True

def dutyReplies : (call : ClusterCall) → ClusterReply call → Duty → Prop
  | .spanner call, reply, duty => dutyRowReplies registered call reply duty
  | .workerFile _ call, reply, duty => dutyFileReplies X call reply duty
  | _, _, _ => True

def dutyContract : Contract ClusterCall ClusterReply Duty :=
  noting noteDuty (dutyPermits X registered) (dutyReplies X registered)

def dutyRowContract : Contract SpannerCall SpannerReply Duty :=
  fun call => dutyContract X registered (.spanner call)

def dutyFileContract (address : String) : Contract FileCall FileReply Duty :=
  fun call => dutyContract X registered (.workerFile address call)

def dutyWorkerContract (address : String) : Contract WorkerCall WorkerReply Duty :=
  fun call after => meets (dutyContract X registered) (workerImpl address call) after

end Contract

section Calls

variable {X : Xxh64} {registered : String → Prop} {α : Type}

theorem duty_unary (handler : ClusterM (Except Status α))
    (post : Except Status α → Duty → Prop) (duty : Duty)
    (holds : meets (dutyContract X registered) handler
      (fun outcome after => post outcome after ∧ ∀ message, post (unavailable message) after) duty)
    (unheard : ∀ message, post (unavailable message) duty) :
    meets (dutyContract X registered) (unary handler) post duty :=
  meets_unary noting_monotone (fun _ _ every => ⟨trivial, fun fate _ => every fate⟩)
    handler post duty holds unheard

theorem duty_db (program : DbM α) (post : Except Status α → Duty → Prop) (duty : Duty) :
    meets (dutyContract X registered) (dbOnCluster program) post duty ↔
      meets (dutyRowContract X registered) program.run post duty :=
  meets_inline spannerCall program.run post duty

theorem duty_worker (address : String) (program : WorkerM (Except Status α))
    (post : Except Status α → Duty → Prop) (duty : Duty) :
    meets (dutyContract X registered) (workerOnCluster address program) post duty ↔
      meets (dutyWorkerContract X registered address) program.run
        (fun outcome => post (handlerStatus outcome)) duty := by
  rw [workerOnCluster, map_eq_pure_bind, meets_bind]
  exact meets_inline (workerImpl address) program.run _ duty

theorem duty_worker_files (address : String) (program : FileM α)
    (post : Except Thrown α → Duty → Prop) (duty : Duty) :
    meets (dutyWorkerContract X registered address) (onWorkerFiles program).run post duty ↔
      meets (dutyFileContract X registered address) program.run post duty :=
  meets_inline workerFile program.run post duty

end Calls

section Place

variable {X : Xxh64} {registered : String → Prop}

theorem duty_reserve (blobHash : String) (size : Int) (ordinary : OrdinaryName blobHash)
    (workers : List WorkerStateDTO) (known : ∀ worker ∈ workers, registered worker.workerAddress)
    (duty : Duty) (distinct : duty.copies.Nodup) (post : Except Status (List String) → Duty → Prop)
    (placed : ∀ addresses after, (∀ address ∈ addresses, registered address) →
      after.copies = duty.copies ++ keysOf blobHash addresses → after.copies.Nodup →
      post (.ok addresses) after) (refused : ∀ status after, post (.error status) after) :
    meets (dutyRowContract X registered)
      (MasterService.reserveWorkers blobHash size workers).run post duty := by
  induction workers generalizing duty post with
  | nil => exact placed [] duty (fun _ inside => by cases inside) (List.append_nil _).symm distinct
  | cons worker rest ih =>
      rw [MasterService.reserveWorkers, addBlobEntry, commit, bind_assoc, meets_run_bind, meets_run_perform]
      refine ⟨⟨ordinary, known worker List.mem_cons_self, rfl⟩, ?_⟩
      rintro (message | _) fresh
      · exact refused _ _
      · have grown : (duty.copies ++ [(blobHash, worker.workerAddress)]).Nodup :=
          distinct.append (List.nodup_singleton _) (List.disjoint_singleton.mpr fresh)
        dsimp only [orStatus]
        rw [pure_bind, updateWorkerState, commit, bind_assoc, meets_run_bind, meets_run_perform]
        refine ⟨trivial, ?_⟩
        rintro (message | _) -
        · exact refused _ _
        · dsimp only [orStatus]
          rw [pure_bind, meets_run_bind]
          refine ih (fun other member => known other (List.mem_cons_of_mem worker member)) _ grown _
            ?_ (fun status after => refused status after)
          intro addresses after there copies whole
          refine placed _ after ?_ ?_ whole
          · intro address inside
            cases List.mem_cons.mp inside with
            | inl here => exact here ▸ known worker List.mem_cons_self
            | inr later => exact there address later
          · rw [copies, keysOf, keysOf, List.map_cons]
            exact List.append_assoc _ _ _

theorem duty_place (request : GetWorkersToSaveBlobRequest)
    (ordinary : OrdinaryName request.blobHash) (post : Except Status (List String) → Duty → Prop)
    (placed : ∀ addresses after, (∀ address ∈ addresses, registered address) →
      after.copies = keysOf request.blobHash addresses → addresses.Nodup →
      post (.ok addresses) after) (refused : ∀ status after, post (.error status) after) :
    meets (dutyContract X registered)
      (unary (dbOnCluster (MasterService.getWorkersToSaveBlob request))) post {} := by
  refine duty_unary _ _ _ ((duty_db _ _ _).mpr ?_) (fun message => refused _ _)
  rw [MasterService.getWorkersToSaveBlob, getWorkersWithFreeSpace, selectWorkers, bind_assoc,
    bind_assoc, meets_run_bind, meets_run_perform]
  refine ⟨trivial, ?_⟩
  have refusedBoth : ∀ status after, post (.error status) after ∧ ∀ message,
      post (unavailable message) after :=
    fun _ _ => ⟨refused _ _, fun _ => refused _ _⟩
  rintro (message | rows) known
  · exact refusedBoth _ _
  · dsimp only [orStatus]
    rw [pure_bind]
    split
    · exact refusedBoth _ _
    · rw [pure_bind]
      refine duty_reserve request.blobHash _ ordinary rows (fun row member => (known row member).1)
        _ List.nodup_nil _ ?_ refusedBoth
      intro addresses after there copies distinct
      refine ⟨placed addresses after there copies ?_, fun _ => refused _ _⟩
      rw [copies] at distinct
      exact List.Nodup.of_map _ distinct

end Place

section Save

variable {X : Xxh64} {registered : String → Prop} {blobHash worker : String} {duty : Duty}

-- The copies a request still has besides the one it is busy with.
def KeepsOthers (copy : String × String) (duty after : Duty) : Prop :=
  ∀ other ∈ duty.copies, other ≠ copy → other ∈ after.copies

theorem duty_noted_open (held : (blobHash, worker) ∈ duty.copies) :
    noteDutyFile worker (.openTrunc (WorkerService.BLOBS_PATH ++ blobHash)) true duty =
      { duty with writing := some ((blobHash, worker), []) } := by
  have found : duty.copies.find? (fun copy => copy.2 = worker ∧
      WorkerService.BLOBS_PATH ++ copy.1 = WorkerService.BLOBS_PATH ++ blobHash) =
      some (blobHash, worker) := by
    cases search : duty.copies.find? (fun copy => copy.2 = worker ∧
      WorkerService.BLOBS_PATH ++ copy.1 = WorkerService.BLOBS_PATH ++ blobHash) with
    | none =>
        have missed := List.find?_eq_none.mp search (blobHash, worker) held
        simp at missed
    | some copy =>
        have right := List.find?_some search
        simp only [decide_eq_true_eq, String.append_right_inj] at right
        rw [← right.1, ← right.2]
  simp only [noteDutyFile, found]

theorem duty_create_directories (known : registered worker)
    (post : Except Thrown Unit → Duty → Prop) (ends : ∀ outcome, post outcome duty) :
    meets (dutyFileContract X registered worker) (createDirectories "blobs").run post duty := by
  rw [createDirectories, meets_run_bind, meets_run_perform]
  refine ⟨⟨rfl, known⟩, ?_⟩
  rintro (what | _) - <;> exact ends _

theorem duty_create (ordinary : OrdinaryName blobHash) (known : registered worker)
    (held : (blobHash, worker) ∈ duty.copies) (post : Except Thrown BlobFile → Duty → Prop)
    (created : post (.ok ⟨WorkerService.BLOBS_PATH ++ blobHash, 0⟩)
      { duty with writing := some ((blobHash, worker), []) })
    (failed : ∀ thrown, post (.error thrown) duty) :
    meets (dutyFileContract X registered worker) (BlobFile.create blobHash).run post duty := by
  rw [BlobFile.create, meets_run_bind]
  refine duty_create_directories known _ ?_
  rintro (thrown | _)
  · exact failed thrown
  · dsimp only
    rw [show joinPath BlobFile.BLOBS_PATH blobHash = WorkerService.BLOBS_PATH ++ blobHash from
      join_blob blobHash ordinary, openTruncate, meets_run_bind, meets_run_perform]
    refine ⟨⟨_, held, rfl, rfl⟩, ?_⟩
    rintro (_ | _) -
    · exact failed _
    · rw [noteDuty, duty_noted_open held]
      exact created

theorem duty_append (held : (blobHash, worker) ∈ duty.copies) (size : Nat) (bytes chunk : Bytes)
    (post : Except Thrown BlobFile → Duty → Prop)
    (appended : ∀ size, post (.ok ⟨WorkerService.BLOBS_PATH ++ blobHash, size⟩)
      { duty with writing := some ((blobHash, worker), bytes ++ chunk) })
    (failed : ∀ thrown, post (.error thrown)
      { duty with writing := some ((blobHash, worker), bytes) }) :
    meets (dutyFileContract X registered worker)
      (BlobFile.appendChunk ⟨WorkerService.BLOBS_PATH ++ blobHash, size⟩ chunk).run post
      { duty with writing := some ((blobHash, worker), bytes) } := by
  rw [BlobFile.appendChunk, appendTo, meets_run_bind, meets_run_perform]
  refine ⟨⟨_, _, rfl, held, rfl, rfl⟩, ?_⟩
  rintro (_ | _) -
  · exact failed _
  · exact appended _

theorem duty_receive_messages (named : blobHash ≠ "") (held : (blobHash, worker) ∈ duty.copies)
    (messages : List SaveBlobRequest) (size : Nat) (hasher : BlobHasher X) (bytes : Bytes)
    (post : Except Thrown (Receiving X) → Duty → Prop)
    (received : ∀ size,
      post (.ok ⟨blobHash, some ⟨WorkerService.BLOBS_PATH ++ blobHash, size⟩,
        hasher.addChunks (messages.map SaveBlobRequest.chunkData)⟩)
        { duty with writing := some ((blobHash, worker), bytes ++ payload messages) })
    (failed : ∀ thrown bytes, post (.error thrown)
      { duty with writing := some ((blobHash, worker), bytes) }) :
    meets (dutyFileContract X registered worker)
      (receiveMessages X messages
        ⟨blobHash, some ⟨WorkerService.BLOBS_PATH ++ blobHash, size⟩, hasher⟩).run post
      { duty with writing := some ((blobHash, worker), bytes) } := by
  induction messages generalizing size hasher bytes with
  | nil =>
      have done := received size
      rw [payload, List.map_nil, List.flatten_nil, List.append_nil] at done
      exact done
  | cons request rest ih =>
      rw [receive_message X request rest blobHash named, meets_run_bind]
      refine duty_append held size bytes request.chunkData _ (fun size => ih size _ _ ?_)
        (fun thrown => failed thrown bytes)
      intro size
      have done := received size
      rw [payload, List.map_cons, List.flatten_cons, ← List.append_assoc] at done
      exact done

theorem duty_receive (ordinary : OrdinaryName blobHash) (known : registered worker)
    (held : (blobHash, worker) ∈ duty.copies) (messages : List SaveBlobRequest)
    (named : ∀ message ∈ messages, message.blobHash = blobHash)
    (post : Except Thrown (Except Status String) → Duty → Prop)
    (accepted : ∀ bytes, X.blobHash bytes = blobHash →
      post (.ok (.ok blobHash)) { duty with writing := some ((blobHash, worker), bytes) })
    (refused : ∀ outcome after, (∀ hash, outcome ≠ .ok (.ok hash)) → after.copies = duty.copies →
      post outcome after) :
    meets (dutyFileContract X registered worker) (receiveBlobFromFrontend X messages).run post duty := by
  cases messages with
  | nil =>
      rw [receive_nothing]
      exact refused _ _ (fun _ same => by cases same) rfl
  | cons first rest =>
      obtain rfl := named first List.mem_cons_self
      rw [receiveBlobFromFrontend, meets_catch, receive_first_message, bind_assoc, meets_run_bind]
      refine duty_create ordinary known held _ ?_ ?_
      · dsimp only
        rw [bind_assoc, meets_run_bind]
        refine duty_append held 0 [] first.chunkData _ (fun size => ?_) ?_
        · dsimp only
          rw [meets_run_bind]
          refine duty_receive_messages ordinary.1 held rest size _ _ _ (fun size => ?_) ?_
          · have hashed : (((BlobHasher.new : BlobHasher X).addChunk first.chunkData).addChunks
                (rest.map SaveBlobRequest.chunkData)).finalize =
                X.blobHash (first.chunkData ++ payload rest) :=
              BlobHasher.finalize_chunks (first.chunkData :: rest.map SaveBlobRequest.chunkData)
            dsimp only
            rw [hashed, List.nil_append]
            split
            · rw [BlobFile.remove, removeFile, bind_assoc, meets_run_bind, meets_run_perform]
              refine ⟨.inl ⟨_, _, rfl, held, rfl, rfl⟩, ?_⟩
              rintro (what | removed) - <;> exact refused _ _ (fun _ same => by cases same) rfl
            · rename_i matching
              exact accepted _ (Decidable.of_not_not matching).symm
          · intro thrown bytes
            cases thrown <;> exact refused _ _ (fun _ same => by cases same) rfl
        · intro thrown
          cases thrown <;> exact refused _ _ (fun _ same => by cases same) rfl
      · intro thrown
        cases thrown <;> exact refused _ _ (fun _ same => by cases same) rfl

theorem duty_notify (held : (blobHash, worker) ∈ duty.copies) {bytes : Bytes}
    (writing : duty.writing = some ((blobHash, worker), bytes))
    (hashed : X.blobHash bytes = blobHash) (post : Except Status Unit → Duty → Prop)
    (ends : ∀ outcome after, KeepsOthers (blobHash, worker) duty after → post outcome after) :
    meets (dutyContract X registered)
      (unary (dbOnCluster (MasterService.notifyBlobSaved ⟨worker, blobHash⟩))) post duty := by
  have untouched : KeepsOthers (blobHash, worker) duty duty := fun _ member _ => member
  have both : ∀ outcome after, KeepsOthers (blobHash, worker) duty after → post outcome after ∧
      ∀ message, post (unavailable message) after :=
    fun _ _ kept => ⟨ends _ _ kept, fun _ => ends _ _ kept⟩
  refine duty_unary _ _ _ ((duty_db _ _ _).mpr ?_) (fun message => ends _ _ untouched)
  rw [MasterService.notifyBlobSaved, queryBlobByHashAndWorkerId, selectBlobs, bind_assoc,
    meets_run_bind, meets_run_perform]
  refine ⟨trivial, ?_⟩
  rintro (message | rows) keyed
  · exact both _ _ untouched
  · dsimp only [orStatus]
    rw [pure_bind]
    split
    · rename_i row
      have key : row.key = (blobHash, worker) := keyed row List.mem_cons_self
      have rowHash : row.hash = blobHash := congrArg Prod.fst key
      have saved : ({ row with state := .saved } : BlobCopyDTO).key = (blobHash, worker) := key
      have kept : KeepsOthers (blobHash, worker) duty
          { duty with copies := duty.copies.filter (· ≠ (blobHash, worker)) } :=
        fun other member different => List.mem_filter.mpr ⟨member, by simp [different]⟩
      rw [updateBlobEntry, commit, bind_assoc, meets_run_bind, meets_run_perform]
      refine ⟨⟨saved ▸ held, rfl, bytes, saved ▸ writing, hashed.trans rowHash.symm⟩, ?_⟩
      rintro (message | _) -
      · rw [noteDuty, noteDutyRows, saved]
        exact both _ _ kept
      · rw [noteDuty, noteDutyRows, saved]
        dsimp only [orStatus]
        rw [pure_bind, getWorkerState, selectWorkers, bind_assoc, bind_assoc,
          meets_run_bind, meets_run_perform]
        refine ⟨trivial, ?_⟩
        rintro (message | states) -
        · exact both _ _ kept
        · dsimp only [orStatus]
          rw [pure_bind]
          cases states with
          | nil => exact both _ _ kept
          | cons state rest =>
              dsimp only
              rw [pure_bind, updateWorkerState, commit, meets_run_bind, meets_run_perform]
              refine ⟨trivial, ?_⟩
              rintro (message | _) - <;> exact both _ _ kept
    · exact both _ _ untouched

theorem duty_save (ordinary : OrdinaryName blobHash) (known : registered worker)
    (held : (blobHash, worker) ∈ duty.copies) (sent : List SaveBlobRequest)
    (named : ∀ message ∈ sent, message.blobHash = blobHash)
    (post : Except Status Unit → Duty → Prop)
    (ends : ∀ outcome after, KeepsOthers (blobHash, worker) duty after → post outcome after) :
    meets (dutyContract X registered) (saveBlobCall X worker sent) post duty := by
  have saves : ∀ sent : List SaveBlobRequest, (∀ message ∈ sent, message.blobHash = blobHash) →
      meets (dutyContract X registered) (workerOnCluster worker (WorkerService.saveBlob X worker sent))
        (fun _ after => KeepsOthers (blobHash, worker) duty after) duty := by
    intro sent named
    rw [duty_worker, WorkerService.saveBlob, meets_run_bind, duty_worker_files]
    refine duty_receive ordinary known held sent named _ ?_ ?_
    · intro bytes hashed
      dsimp only
      rw [masterNotifyBlobSaved, meets_run_bind, meets_run_perform]
      have still : (blobHash, worker) ∈
          ({ duty with writing := some ((blobHash, worker), bytes) } : Duty).copies := held
      refine duty_notify still rfl hashed _ ?_
      rintro (status | _) after kept <;> exact kept
    · rintro (thrown | ⟨status | hash⟩) after failed copies
      · exact fun other member _ => copies ▸ member
      · exact fun other member _ => copies ▸ member
      · exact absurd rfl (failed hash)
  have untouched : KeepsOthers (blobHash, worker) duty duty := fun _ member _ => member
  rw [saveBlobCall, meets_bind, rpcFate, meets_perform]
  refine ⟨trivial, ?_⟩
  rintro (_ | message | message | ⟨reached, message⟩) -
  · exact meets_mono noting_monotone _ _ _ _ ends (saves sent named)
  · exact ends _ _ untouched
  · exact (meets_bind _ _ _ _).mpr
      (meets_mono noting_monotone _ _ _ _ (fun _ after kept => ends _ after kept) (saves sent named))
  · have fewer := saves (sent.take reached)
      (fun message inside => named message (List.mem_of_mem_take inside))
    exact (meets_bind _ _ _ _).mpr
      (meets_mono noting_monotone _ _ _ _ (fun _ after kept => ends _ after kept) fewer)

end Save

section Loop

variable {F : Type} {S : F → Type} {τ β ρ : Type} {contract : Contract F S τ}
  {file : (call : FileCall) → Program F S (FileReply call)}

-- A loop whose rounds leave what they read in the ghost state.
theorem meets_for_read_chunks (maxChunk : Nat) (body : β → Bytes → Failing F S Thrown (Flow β ρ))
    (unwind : β → Failing F S Thrown Unit) (inv : ChunkIterator → β → τ → Prop)
    (read : ChunkIterator → Bytes → β → τ → Prop) (stopped : β → τ → Prop)
    (post : Except Thrown (Flow β ρ) → τ → Prop)
    (reads : ∀ it accumulator ghost (next : Except Thrown (Bytes × ChunkIterator) → τ → Prop),
      inv it accumulator ghost →
      (∀ chunk later after, read later chunk accumulator after → next (.ok (chunk, later)) after) →
      (∀ thrown after, stopped accumulator after → next (.error thrown) after) →
      meets contract (Failing.inline file (it.deref maxChunk)).run next ghost)
    (step : ∀ it chunk accumulator ghost (next : Except Thrown (Flow β ρ) → τ → Prop),
      read it chunk accumulator ghost →
      (∀ later after, inv it.increment later after → next (.ok (.next later)) after) →
      (∀ result after, post (.ok (.leave result)) after → next (.ok (.leave result)) after) →
      meets contract (body accumulator chunk).run next ghost)
    (done : ∀ it accumulator ghost, inv it accumulator ghost →
      post (.ok (.next accumulator)) ghost ∧ post (.error .nonterminating) ghost)
    (unwinds : ∀ accumulator ghost (next : Except Thrown Unit → τ → Prop),
      stopped accumulator ghost →
      (∀ outcome after, (∀ thrown, post (.error thrown) after) → next outcome after) →
      meets contract (unwind accumulator).run next ghost)
    (fuel : Nat) (it last : ChunkIterator) (accumulator : β) (ghost : τ)
    (now : inv it accumulator ghost) :
    meets contract (forChunks maxChunk file body unwind fuel it last accumulator).run post ghost := by
  induction fuel generalizing it accumulator ghost with
  | zero => exact (done it accumulator ghost now).2
  | succ fuel ih =>
      rw [forChunks]
      split
      · rw [meets_run_bind, meets_run_attempt]
        refine reads it accumulator ghost _ now ?_ ?_
        · intro chunk later after kept
          dsimp only
          rw [meets_run_bind]
          refine step later chunk accumulator after _ kept ?_ ?_
          · exact fun accumulator after holds => ih later.increment accumulator after holds
          · exact fun result after left => left
        · intro thrown after halted
          dsimp only
          rw [meets_run_bind]
          refine unwinds accumulator after _ halted ?_
          rintro (error | unwound) after stops <;> exact stops _
      · exact (done it accumulator ghost now).1

end Loop

section Get

variable {X : Xxh64} {registered : String → Prop} {blobHash worker : String}

theorem duty_lookup (post : Except Status String → Duty → Prop)
    (found : ∀ worker rest after, after.reading = some ⟨blobHash, worker :: rest, []⟩ →
      OrdinaryName blobHash → registered worker → post (.ok worker) after)
    (refused : ∀ status after, post (.error status) after) :
    meets (dutyContract X registered)
      (unary (dbOnCluster (MasterService.getWorkerWithBlob blobHash))) post {} := by
  have refusedBoth : ∀ status after, post (.error status) after ∧ ∀ message,
      post (unavailable message) after :=
    fun _ _ => ⟨refused _ _, fun _ => refused _ _⟩
  refine duty_unary _ _ _ ((duty_db _ _ _).mpr ?_) (fun message => refused _ _)
  rw [MasterService.getWorkerWithBlob, querySavedBlobByHash, selectBlobs, bind_assoc,
    meets_run_bind, meets_run_perform]
  refine ⟨⟨rfl, rfl⟩, ?_⟩
  rintro (message | _ | ⟨row, rest⟩) own
  · exact refusedBoth _ _
  · exact refusedBoth _ _
  · obtain ⟨hash, ordinary, known⟩ := own row List.mem_cons_self
    dsimp only [orStatus]
    rw [pure_bind]
    dsimp only
    rw [getWorkerState, selectWorkers, bind_assoc, bind_assoc, meets_run_bind, meets_run_perform]
    refine ⟨trivial, ?_⟩
    rintro (message | _ | ⟨state, states⟩) there
    · exact refusedBoth _ _
    · exact refusedBoth _ _
    · obtain ⟨-, named⟩ := there state List.mem_cons_self
      have same : state.workerAddress = row.workerAddress := named row.workerAddress rfl
      dsimp only [orStatus]
      rw [pure_bind]
      refine ⟨?_, fun _ => refused _ _⟩
      rw [same]
      exact found row.workerAddress (rest.map BlobCopyDTO.workerAddress) _ rfl ordinary known

-- What has been read of the worker's file, and written to its stream.
def ReadSoFar (X : Xxh64) (blobHash worker : String) (got : Bytes) (whole : Duty × List Bytes) : Prop :=
  ∃ rest, whole.1.reading = some ⟨blobHash, worker :: rest, got⟩ ∧ Served X blobHash got

def SentAtMost (X : Xxh64) (blobHash worker : String) (whole : Duty × List Bytes) : Prop :=
  ∃ got, ReadSoFar X blobHash worker got whole ∧ whole.2.flatten <+: got

def streamContract (X : Xxh64) (registered : String → Prop) (address : String) :
    Contract WorkerCall WorkerReply (Duty × List Bytes) :=
  fun call after whole =>
    meets (dutyContract X registered) (workerStreamImpl address call whole.2)
      (fun outcome later => after outcome.1 (later, outcome.2)) whole.1

def streamFiles (X : Xxh64) (registered : String → Prop) (address : String) :
    Contract FileCall FileReply (Duty × List Bytes) :=
  fun call after whole => streamContract X registered address (.file call) after whole

theorem stream_files {α : Type} (address : String) (program : FileM α)
    (post : Except Thrown α → Duty × List Bytes → Prop) (whole : Duty × List Bytes) :
    meets (streamContract X registered address) (onWorkerFiles program).run post whole ↔
      meets (streamFiles X registered address) program.run post whole :=
  meets_inline workerFile program.run post whole

-- A primitive that tells nothing of the file's bytes leaves all as it is.
theorem stream_quiet (call : FileCall) (post : FileReply call → Duty × List Bytes → Prop)
    (whole : Duty × List Bytes) (asks : dutyFile registered worker call whole.1)
    (unnoted : ∀ reply, noteDutyFile worker call reply whole.1 = whole.1)
    (ends : ∀ reply, post reply whole) : streamFiles X registered worker call post whole := by
  refine ⟨asks, fun reply _ => ?_⟩
  have after := ends reply
  rw [show noteDuty (.workerFile worker call) reply whole.1 = whole.1 from unnoted reply]
  exact after

-- What is read of the file is noted as read.
theorem stream_read (path : String) (offset count : Nat) (post : Bytes → Duty × List Bytes → Prop)
    (whole : Duty × List Bytes) (rest : List String) (got : Bytes)
    (reading : whole.1.reading = some ⟨blobHash, worker :: rest, got⟩)
    (right : path = WorkerService.BLOBS_PATH ++ blobHash ∧ offset = got.length)
    (ends : ∀ bytes, Served X blobHash (got ++ bytes) →
      post bytes
        (⟨whole.1.copies, whole.1.writing, some ⟨blobHash, worker :: rest, got ++ bytes⟩⟩, whole.2)) :
    streamFiles X registered worker (.read path offset count) post whole := by
  refine ⟨⟨_, reading, rfl, right⟩, fun bytes served => ?_⟩
  have after := ends bytes (served _ reading)
  have noted : noteDuty (.workerFile worker (.read path offset count)) bytes whole.1 =
      { whole.1 with reading := some ⟨blobHash, worker :: rest, got ++ bytes⟩ } := by
    simp only [noteDuty, noteDutyFile, reading, Option.map_some]
  rw [noted]
  exact after

theorem stream_load (ordinary : OrdinaryName blobHash) (known : registered worker)
    (post : Except Thrown BlobFile → Duty × List Bytes → Prop) (whole : Duty × List Bytes)
    (loaded : ∀ size, post (.ok ⟨WorkerService.BLOBS_PATH ++ blobHash, size⟩) whole)
    (failed : ∀ thrown, post (.error thrown) whole) :
    meets (streamFiles X registered worker) (BlobFile.load blobHash).run post whole := by
  rw [BlobFile.load, show joinPath BlobFile.BLOBS_PATH blobHash = WorkerService.BLOBS_PATH ++
    blobHash from join_blob blobHash ordinary,
    createDirectories, bind_assoc, meets_run_bind, meets_run_perform]
  refine stream_quiet _ _ whole ⟨rfl, known⟩ (fun _ => rfl) ?_
  rintro (what | _)
  · exact failed _
  · dsimp only [orThrow]
    rw [pure_bind, fileExists, bind_assoc, meets_run_bind, meets_run_perform]
    refine stream_quiet _ _ whole trivial (fun reply => by cases reply <;> rfl) ?_
    rintro (what | _ | _)
    · exact failed _
    · exact failed _
    · dsimp only [orThrow]
      rw [pure_bind, if_pos rfl, fileSizeOf, bind_assoc, meets_run_bind, meets_run_perform]
      refine stream_quiet _ _ whole trivial (fun reply => by cases reply <;> rfl) ?_
      rintro (what | size)
      · exact failed _
      · exact loaded size

-- The iterator stands at the end of what has been read.
structure AtEnd (X : Xxh64) (blobHash worker : String) (it : ChunkIterator) (got : Bytes)
    (whole : Duty × List Bytes) : Prop where
  path : it.filePath = WorkerService.BLOBS_PATH ++ blobHash
  stream : it.fileStream = none ∨ it.fileStream = some it.nextByte
  uncached : it.currentChunk = none
  position : it.nextByte = got.length
  read : ReadSoFar X blobHash worker got whole
  sent : whole.2.flatten = got

-- A chunk has been read and not yet sent.
structure HasRead (X : Xxh64) (blobHash worker : String) (it : ChunkIterator) (chunk got : Bytes)
    (whole : Duty × List Bytes) : Prop where
  path : it.filePath = WorkerService.BLOBS_PATH ++ blobHash
  stream : it.fileStream = some (it.nextByte + chunk.length)
  cached : it.currentChunk = some chunk
  position : it.nextByte = got.length
  read : ReadSoFar X blobHash worker (got ++ chunk) whole
  sent : whole.2.flatten = got

theorem stream_read_chunk (maxChunk : Nat) (it : ChunkIterator) (got : Bytes)
    (whole : Duty × List Bytes) (now : AtEnd X blobHash worker it got whole)
    (opened : it.fileStream = some it.nextByte)
    (post : Except Thrown (Bytes × ChunkIterator) → Duty × List Bytes → Prop)
    (read : ∀ chunk later after, HasRead X blobHash worker later chunk got after →
      post (.ok (chunk, later)) after)
    (failed : ∀ thrown after, SentAtMost X blobHash worker after → post (.error thrown) after) :
    meets (streamFiles X registered worker) (ExceptT.run (do
      let taken ← it.readChunk maxChunk
      pure (taken.1, { taken.2 with currentChunk := some taken.1 }))) post whole := by
  obtain ⟨path, -, -, position, ⟨rest, reading, -⟩, sent⟩ := now
  rw [ChunkIterator.readChunk, opened]
  dsimp only
  rw [readAt, bind_assoc, meets_run_bind, meets_run_perform]
  refine stream_read _ _ _ _ whole rest got reading ⟨path, position⟩ ?_
  intro buffer served
  have now : ReadSoFar X blobHash worker (got ++ buffer)
      (⟨whole.1.copies, whole.1.writing, some ⟨blobHash, worker :: rest, got ++ buffer⟩⟩,
        whole.2) := ⟨rest, rfl, served⟩
  dsimp only
  by_cases short : buffer.length < min maxChunk (subU64 it.fileSize it.nextByte)
  · rw [if_pos short]
    exact failed _ _ ⟨got ++ buffer, now, by rw [sent]; exact List.prefix_append _ _⟩
  · rw [if_neg short]
    exact read _ _ _ ⟨path, rfl, rfl, position, now, sent⟩

theorem stream_deref (maxChunk : Nat) (it : ChunkIterator) (got : Bytes) (whole : Duty × List Bytes)
    (now : AtEnd X blobHash worker it got whole)
    (post : Except Thrown (Bytes × ChunkIterator) → Duty × List Bytes → Prop)
    (read : ∀ chunk later after, HasRead X blobHash worker later chunk got after →
      post (.ok (chunk, later)) after)
    (failed : ∀ thrown after, SentAtMost X blobHash worker after → post (.error thrown) after) :
    meets (streamFiles X registered worker) (it.deref maxChunk).run post whole := by
  have stays : SentAtMost X blobHash worker whole := ⟨got, now.read, by rw [now.sent]⟩
  rw [ChunkIterator.deref, ChunkIterator.createStreamIfNecessary]
  rcases now.stream with closed | opened
  · rw [closed]
    dsimp only
    rw [openForReading, bind_assoc, meets_run_bind, meets_run_perform]
    refine stream_quiet _ _ whole trivial (fun _ => rfl) ?_
    rintro (_ | _)
    · exact failed _ _ stays
    · dsimp only
      rw [if_pos rfl, pure_bind]
      dsimp only
      have begun : meets (streamFiles X registered worker) _ post whole :=
        stream_read_chunk maxChunk { it with fileStream := some it.nextByte } got whole
          ⟨now.path, .inr rfl, now.uncached, now.position, now.read, now.sent⟩ rfl post read failed
      rw [now.uncached] at begun ⊢
      exact begun
  · rw [opened]
    dsimp only
    rw [pure_bind, now.uncached]
    exact stream_read_chunk maxChunk it got whole now opened post read failed

theorem stream_get (ordinary : OrdinaryName blobHash) (known : registered worker) (whole : Duty × List Bytes)
    (begins : ReadSoFar X blobHash worker [] whole) (unsent : whole.2 = []) :
    meets (streamContract X registered worker) (WorkerService.getBlob blobHash).run
      (fun _ after => SentAtMost X blobHash worker after) whole := by
  have nothing : SentAtMost X blobHash worker whole := ⟨[], begins, by rw [unsent]; exact List.prefix_rfl⟩
  rw [WorkerService.getBlob, WorkerService.sendBlobToFrontend, meets_catch, meets_run_bind, stream_files]
  refine stream_load ordinary known _ whole ?_ ?_
  · intro size
    dsimp only
    rw [meets_run_bind, BlobFile.forEach]
    refine meets_for_read_chunks _ _ _ (fun it _ whole => ∃ got, AtEnd X blobHash worker it got whole)
      (fun it chunk _ whole => ∃ got, HasRead X blobHash worker it chunk got whole)
        (fun _ whole => SentAtMost X blobHash worker whole) _
      ?_ ?_ ?_ ?_ _ _ _ _ _ ⟨[], rfl, .inl rfl, rfl, rfl, begins, by rw [unsent]; rfl⟩
    · rintro it _ whole next ⟨got, now⟩ read failed
      exact (stream_files worker _ _ whole).mpr
        (stream_deref _ it got whole now _
          (fun chunk later after has => read chunk later after ⟨got, has⟩) failed)
    · rintro it chunk _ ⟨duty, written⟩ next ⟨got, path, stream, cached, position, read, sent⟩ more left
      rw [meets_run_bind, writeResponse, meets_run_perform]
      refine ⟨trivial, ?_⟩
      rintro (_ | _) -
      · exact left _ _ ⟨got ++ chunk, read, sent ▸ List.prefix_append _ _⟩
      · refine more () _ ⟨got ++ chunk, path, .inr ?_, rfl, ?_, read, ?_⟩
        · simp only [ChunkIterator.increment, cached, stream]
        · simp only [ChunkIterator.increment, cached, position, List.length_append]
        · have grown : (written ++ [chunk]).flatten = got ++ chunk := by
            rw [List.flatten_append, show written.flatten = got from sent, List.flatten_singleton]
          exact grown
    · rintro it _ whole ⟨got, now⟩
      have sent : SentAtMost X blobHash worker whole := ⟨got, now.read, by rw [now.sent]⟩
      exact ⟨sent, sent⟩
    · rintro _ whole next sent unwound
      refine unwound _ whole (fun thrown => ?_)
      cases thrown <;> exact sent
  · intro thrown
    cases thrown <;> exact nothing

end Get

end BlobStore
