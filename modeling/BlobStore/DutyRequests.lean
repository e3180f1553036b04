import BlobStore.Duties
import BlobStore.UploadContract

set_option autoImplicit false

namespace BlobStore

open Effects FileSystem WorkerService MasterDbRepository FrontendServiceImpl

-- What an answer may hold: whoever asks for a blob gets only bytes from the beginning of
-- one that has this hash.
def Request.Truthful (X : Xxh64) (request : Request) : ClientResponse → Prop
  | .got _ received => Served X (request.blobHash X) received.flatten
  | _ => True

variable {X : Xxh64} {registered : String → Prop}

section Get

variable {blobHash worker : String}

theorem stream_monotone : (streamContract X registered worker).Monotone :=
  fun _ _ _ _ weaker holds => meets_mono noting_monotone _ _ _ _
    (fun outcome later => weaker outcome.1 (later, outcome.2)) holds

theorem duty_stream (ordinary : OrdinaryName blobHash) (known : registered worker) (duty : Duty)
    (rest : List String) (reading : duty.reading = some ⟨blobHash, worker :: rest, []⟩)
    (post : GetBlobStream → Duty → Prop)
    (ends : ∀ stream after, Served X blobHash stream.chunks.flatten → post stream after) :
    meets (dutyContract X registered) (getBlobCall worker blobHash) post duty := by
  have streams : meets (dutyContract X registered)
      (workerStreamOnCluster worker (WorkerService.getBlob blobHash))
      (fun stream _ => Served X blobHash stream.chunks.flatten) duty := by
    rw [workerStreamOnCluster, meets_bind]
    refine (meets_inline_with (workerStreamImpl worker) _ _ duty []).mpr ?_
    refine meets_mono stream_monotone _ _ _ _ ?_
      (stream_get ordinary known (duty, []) ⟨rest, reading, .inl rfl⟩ rfl)
    rintro outcome whole ⟨got, ⟨_, _, served⟩, sent⟩
    exact served_within sent served
  rw [getBlobCall, meets_bind, rpcFate, meets_perform]
  refine ⟨trivial, ?_⟩
  rintro (_ | message | message | ⟨reached, message⟩) -
  · exact meets_mono noting_monotone _ _ _ _ ends streams
  · exact ends _ _ (.inl rfl)
  · exact (meets_bind _ _ _ _).mpr
      (meets_mono noting_monotone _ _ _ _ (fun stream after served => ends _ after served) streams)
  · refine (meets_bind _ _ _ _).mpr
      (meets_mono noting_monotone _ _ _ _ (fun stream after served => ends _ after ?_) streams)
    exact served_within (List.take_prefix reached stream.chunks).flatten served

def clientContract (X : Xxh64) (registered : String → Prop) :
    Contract FrontendCall FrontendReply (Duty × List Bytes) :=
  fun call after whole =>
    meets (dutyContract X registered) (clientStreamImpl X call whole.2)
      (fun outcome later => after outcome.1 (later, outcome.2)) whole.1

-- What is not sent to the client leaves the client's stream alone.
theorem client_asks (call : FrontendCall) (post : FrontendReply call → Duty × List Bytes → Prop)
    (whole : Duty × List Bytes) (quiet : ∀ reply, noteClient call reply whole.2 = whole.2)
    (holds : meets (dutyContract X registered) (frontendImpl X call)
      (fun reply later => post reply (later, whole.2)) whole.1) :
    clientContract X registered call post whole := by
  rw [clientContract, clientStreamImpl, meets_bind]
  refine meets_mono noting_monotone _ _ _ _ ?_ holds
  intro reply later ends
  have kept := quiet reply
  show post reply (later, noteClient call reply whole.2)
  rw [kept]
  exact ends

theorem client_forward (chunks : List Bytes) (whole : Duty × List Bytes)
    (post : Except Thrown (Except String Unit) → Duty × List Bytes → Prop)
    (ends : ∀ outcome duty sent, sent <+: chunks → post outcome (duty, whole.2 ++ sent)) :
    meets (clientContract X registered) (forwardChunks chunks).run post whole := by
  induction chunks generalizing whole with
  | nil =>
      have all := ends (.ok (.ok ())) whole.1 [] List.prefix_rfl
      rw [List.append_nil] at all
      exact all
  | cons chunk rest ih =>
      rw [forwardChunks, Frontend.writeToClient, meets_run_bind, meets_run_perform]
      refine ⟨trivial, ?_⟩
      rintro (_ | _) -
      · have none := ends (.ok (.error "Broken client write stream - can't write next chunk"))
          whole.1 [] List.nil_prefix
        rw [List.append_nil] at none
        exact none
      · refine ih (whole.1, whole.2 ++ [chunk]) ?_
        intro outcome duty sent leading
        have more := ends outcome duty (chunk :: sent) (List.cons_prefix_cons.mpr ⟨rfl, leading⟩)
        rw [List.append_cons] at more
        exact more

theorem duty_get (service : FrontendServiceImpl) (blobHash : String) :
    meets (clientContract X registered) (service.getBlob blobHash).run
      (fun _ whole => Served X blobHash whole.2.flatten) ({}, []) := by
  have nothing : Served X blobHash ([] : List Bytes).flatten := .inl rfl
  rw [FrontendServiceImpl.getBlob, meets_run_bind, getWorkerWithBlobId, meets_run_bind, meets_run_perform]
  refine client_asks _ _ _ (fun _ => rfl) (duty_lookup _ ?_ (fun _ _ => nothing))
  intro worker rest duty reading ordinary known
  dsimp only
  rw [meets_run_pure]
  dsimp only
  rw [Frontend.workerGetBlob, meets_run_bind, meets_run_perform]
  refine client_asks _ _ _ (fun _ => rfl) (duty_stream ordinary known duty rest reading _ ?_)
  intro stream after served
  dsimp only
  rw [meets_run_bind]
  refine client_forward stream.chunks (after, []) _ ?_
  intro outcome duty sent leading
  have whole : Served X blobHash sent.flatten := served_within leading.flatten served
  rcases outcome with thrown | ⟨message | _⟩ <;> exact whole

end Get

section Delete

variable {blobHash : String}

def dutyMasterContract (X : Xxh64) (registered : String → Prop) : Contract MasterCall MasterReply Duty :=
  fun call after => meets (dutyContract X registered) (masterImpl call) after

theorem duty_master_db {α : Type} (program : DbM α) (post : Except Status α → Duty → Prop) (duty : Duty) :
    meets (dutyMasterContract X registered) (onDb program).run post duty ↔
      meets (dutyRowContract X registered) program.run post duty :=
  meets_inline (fun call : SpannerCall =>
    (Program.perform (MasterCall.spanner call) : Program MasterCall MasterReply (SpannerReply call)))
    program.run post duty

-- A request that only reads and deletes: it has no copies of its own.
def Deleting (reading : Reading) (duty : Duty) : Prop := duty.copies = [] ∧ duty.reading = some reading

theorem duty_delete_file {address : String} {reading : Reading} (listed : address ∈ reading.workers)
    (duty : Duty) (deleting : Deleting reading duty)
    (post : Except Thrown (Except Status Unit) → Duty → Prop)
    (ends : ∀ outcome after, Deleting reading after → post outcome after) :
    meets (dutyFileContract X registered address)
      (WorkerService.deleteFile reading.blobHash).run post duty := by
  rw [WorkerService.deleteFile, meets_catch, meets_run_bind, fileExists, meets_run_bind, meets_run_perform]
  refine ⟨trivial, ?_⟩
  rintro (what | _ | _) -
  · exact ends _ _ deleting
  · exact ends _ _ deleting
  · dsimp only [orThrow]
    rw [meets_run_pure]
    dsimp only
    rw [if_pos rfl, removeFile, meets_run_bind, meets_run_bind, meets_run_perform]
    refine ⟨.inr ⟨reading, deleting.2, listed, rfl⟩, ?_⟩
    rintro (what | removed) - <;> exact ends _ _ deleting

theorem duty_request_deletes {reading : Reading} (rows : List BlobCopyDTO)
    (own : ∀ row ∈ rows, row.hash = reading.blobHash ∧ row.workerAddress ∈ reading.workers)
    (duty : Duty) (deleting : Deleting reading duty) (post : Except Status Unit → Duty → Prop)
    (asked : ∀ after, Deleting reading after → post (.ok ()) after) :
    meets (dutyMasterContract X registered)
      (MasterService.requestWorkersToDeleteBlob rows).run post duty := by
  induction rows generalizing duty with
  | nil => exact asked duty deleting
  | cons row rest ih =>
      obtain ⟨hash, listed⟩ := own row List.mem_cons_self
      have later := fun after still =>
        ih (fun other inside => own other (List.mem_cons_of_mem row inside)) after still
      rw [MasterService.requestWorkersToDeleteBlob, MasterService.requestWorkerToDeleteBlob,
        bind_assoc, meets_run_bind, meets_run_perform, hash]
      refine duty_unary _ _ duty ((duty_worker _ _ _ _).mpr ?_) (fun _ => later duty deleting)
      refine (duty_worker_files _ _ _ _).mpr (duty_delete_file listed duty deleting _ ?_)
      exact fun outcome after still => ⟨later after still, fun _ => later after still⟩

theorem duty_delete (blobHash : String) (post : Except Status Unit → Duty → Prop)
    (ends : ∀ outcome after, post outcome after) :
    meets (dutyContract X registered)
      (unary (masterOnCluster (MasterService.deleteBlob blobHash))) post {} := by
  refine duty_unary _ _ _ ((meets_inline masterImpl _ _ _).mpr ?_) (fun message => ends _ _)
  rw [MasterService.deleteBlob, meets_run_bind, querySavedBlobByHash, selectBlobs]
  refine (duty_master_db _ _ _).mpr ?_
  rw [meets_run_bind, meets_run_perform]
  refine ⟨⟨rfl, rfl⟩, ?_⟩
  rintro (message | rows) own
  · exact ⟨ends _ _, fun _ => ends _ _⟩
  · dsimp only [orStatus]
    rw [meets_run_pure]
    dsimp only
    rw [meets_run_bind]
    refine duty_request_deletes rows
      (fun row member => ⟨(own row member).1, List.mem_map.mpr ⟨row, member, rfl⟩⟩) _ ⟨rfl, rfl⟩ _ ?_
    intro after deleting
    refine (duty_master_db _ _ _).mpr ?_
    rw [deleteBlobEntryByHash, commit, meets_run_bind, meets_run_perform]
    refine ⟨⟨deleting.1, _, deleting.2, rfl⟩, ?_⟩
    rintro (message | _) - <;> exact ⟨ends _ _, fun _ => ends _ _⟩

end Delete

section Upload

-- These workers have the request's reservation and wait for the blob.
def Awaiting (registered : String → Prop) (blobHash : String) (rest : List String) (duty : Duty) : Prop :=
  OrdinaryName blobHash ∧ rest.Nodup ∧ ∀ worker ∈ rest, registered worker ∧ (blobHash, worker) ∈ duty.copies

theorem duty_awaiting_sent {blobHash worker : String} {rest : List String}
    {sent : List SaveBlobRequest} {duty : Duty}
    (awaiting : Awaiting registered blobHash (worker :: rest) duty)
    (named : ∀ message ∈ sent, message.blobHash = blobHash)
    (post : Except Status Unit → Duty → Prop)
    (ends : ∀ outcome after, Awaiting registered blobHash rest after → post outcome after) :
    meets (dutyContract X registered) (saveBlobCall X worker sent) post duty := by
  obtain ⟨ordinary, distinct, waiting⟩ := awaiting
  obtain ⟨known, held⟩ := waiting worker List.mem_cons_self
  obtain ⟨apart, distinct⟩ := List.nodup_cons.mp distinct
  refine duty_save ordinary known held sent named post ?_
  intro outcome after kept
  refine ends outcome after ⟨ordinary, distinct, ?_⟩
  intro other member
  obtain ⟨there, mine⟩ := waiting other (List.mem_cons_of_mem worker member)
  have different : other ≠ worker := fun same => apart (same ▸ member)
  exact ⟨there, kept _ mine (fun same => different (congrArg Prod.snd same))⟩

theorem duty_upload_rules (X : Xxh64) (registered : String → Prop) :
    UploadRules (fun call after => meets (dutyContract X registered) (frontendImpl X call) after) {}
      (Awaiting registered) (fun _ => True) where
  files := fun _ _ _ every => ⟨trivial, fun reply _ => every reply⟩
  draws := fun _ _ every => ⟨trivial, fun reply _ => every reply⟩
  writes := fun _ _ _ _ every => ⟨trivial, fun reply _ => every reply⟩
  places := by
    intro master blobHash post ordinary placed refused
    refine duty_place _ ordinary post ?_ (fun status after => refused status after trivial)
    intro addresses after there copies distinct
    refine placed addresses after ⟨ordinary, distinct, ?_⟩
    intro worker member
    exact ⟨there worker member, copies ▸ List.mem_map.mpr ⟨worker, member, rfl⟩⟩
  finishes := fun _ _ _ _ _ _ awaiting named ends => duty_awaiting_sent awaiting named _ ends
  cancels := by
    intro blobHash worker rest sent post duty awaiting named ends
    rw [frontendImpl, meets_bind]
    exact duty_awaiting_sent awaiting named _ (fun _ after kept => ends () after kept)
  skips := fun _ _ _ _ ⟨ordinary, distinct, waiting⟩ =>
    ⟨ordinary, (List.nodup_cons.mp distinct).2,
      fun other member => waiting other (List.mem_cons_of_mem _ member)⟩
  serves := fun _ _ _ _ => trivial
  idle := trivial

end Upload

theorem request_duties (request : Request) :
    meets (dutyContract X registered) (request.program X)
      (fun response _ => request.Truthful X response) {} := by
  cases request with
  | uploadBlob service messages =>
      rw [Request.program, map_eq_pure_bind, meets_bind, meets_inline]
      exact upload_meets (duty_upload_rules X registered) X service messages
  | getBlob service blobId =>
      rw [Request.program, map_eq_pure_bind, meets_bind]
      exact (meets_inline_with (clientStreamImpl X) _ _ _ _).mpr (duty_get service blobId)
  | deleteBlob service blobHash =>
      rw [Request.program, map_eq_pure_bind, meets_bind, meets_inline,
        FrontendServiceImpl.deleteBlob, meets_run_bind, meets_run_perform]
      refine duty_delete blobHash _ ?_
      rintro (status | _) after <;> trivial

end BlobStore
