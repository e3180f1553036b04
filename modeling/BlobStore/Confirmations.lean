import BlobStore.DutyRequests

set_option autoImplicit false

namespace BlobStore

open Effects FileSystem WorkerService MasterDbRepository FrontendServiceImpl

-- The copies that a request has marked as saved, and been told so.
def noteConfirmed : (call : ClusterCall) → ClusterReply call → List (String × String) → List (String × String)
  | .spanner (.commit (.updateBlob entry)), .ok _, confirmed => entry.key :: confirmed
  | _, _, confirmed => confirmed

-- An upload neither looks for saved copies nor takes rows away.
def StoresOnly : ClusterCall → Prop
  | .spanner (.selectBlobs (.savedByHash _)) => False
  | .spanner (.commit (.deleteBlobsByHash _)) => False
  | _ => True

def confirmContract : Contract ClusterCall ClusterReply (List (String × String)) :=
  noting noteConfirmed (fun call _ => StoresOnly call) (fun _ _ _ => True)

def confirmRows : Contract SpannerCall SpannerReply (List (String × String)) :=
  fun call => confirmContract (.spanner call)

def confirmWorker (address : String) : Contract WorkerCall WorkerReply (List (String × String)) :=
  fun call after => meets confirmContract (workerImpl address call) after

def confirmFrontend (X : Xxh64) : Contract FrontendCall FrontendReply (List (String × String)) :=
  fun call after => meets confirmContract (frontendImpl X call) after

-- No confirmation is lost, and a success has brought one more.
def Grows (success : Prop) (before after : List (String × String)) : Prop :=
  before.length ≤ after.length ∧ (success → before.length < after.length)

section Calls

variable {α : Type} {confirmed : List (String × String)}

theorem grows_not {success : Prop} (failed : ¬ success) : Grows success confirmed confirmed :=
  ⟨le_refl _, fun succeeded => absurd succeeded failed⟩

theorem grows_one {success : Prop} (copy : String × String) : Grows success confirmed (copy :: confirmed) :=
  ⟨Nat.le_succ _, fun _ => Nat.lt_succ_self _⟩

theorem confirm_unary (handler : ClusterM (Except Status α))
    (post : Except Status α → List (String × String) → Prop)
    (holds : meets confirmContract handler
      (fun outcome after => post outcome after ∧ ∀ message, post (unavailable message) after)
      confirmed) (unheard : ∀ message, post (unavailable message) confirmed) :
    meets confirmContract (unary handler) post confirmed :=
  meets_unary noting_monotone (fun _ _ every => ⟨trivial, fun fate _ => every fate⟩)
    handler post confirmed holds unheard

theorem confirm_db (program : DbM α) (post : Except Status α → List (String × String) → Prop) :
    meets confirmContract (dbOnCluster program) post confirmed ↔
      meets confirmRows program.run post confirmed :=
  meets_inline spannerCall program.run post confirmed

theorem confirm_reserve (blobHash : String) (size : Int) (workers : List WorkerStateDTO)
    (post : Except Status (List String) → List (String × String) → Prop)
    (placed : ∀ addresses, addresses.length = workers.length → post (.ok addresses) confirmed)
    (refused : ∀ status, post (.error status) confirmed) :
    meets confirmRows (MasterService.reserveWorkers blobHash size workers).run post confirmed := by
  induction workers generalizing post with
  | nil => exact placed [] rfl
  | cons worker rest ih =>
      rw [MasterService.reserveWorkers, addBlobEntry, commit, bind_assoc, meets_run_bind, meets_run_perform]
      constructor
      · trivial
      · intro inserted _
        cases inserted with
        | error message => exact refused _
        | ok _ =>
            dsimp only [orStatus]
            rw [pure_bind, updateWorkerState, commit, bind_assoc, meets_run_bind, meets_run_perform]
            constructor
            · trivial
            · intro updated _
              cases updated with
              | error message => exact refused _
              | ok _ =>
                  dsimp only [orStatus]
                  rw [pure_bind, meets_run_bind]
                  apply ih
                  · intro addresses same
                    exact placed _ (congrArg Nat.succ same)
                  · exact refused

theorem confirm_place (request : GetWorkersToSaveBlobRequest)
    (post : Except Status (List String) → List (String × String) → Prop)
    (placed : ∀ addresses, 3 ≤ addresses.length → post (.ok addresses) confirmed)
    (refused : ∀ status, post (.error status) confirmed) :
    meets confirmContract (unary (dbOnCluster (MasterService.getWorkersToSaveBlob request)))
      post confirmed := by
  have refusedBoth : ∀ status, post (.error status) confirmed ∧ ∀ message,
      post (unavailable message) confirmed :=
    fun _ => ⟨refused _, fun _ => refused _⟩
  apply confirm_unary
  · rw [confirm_db, MasterService.getWorkersToSaveBlob, getWorkersWithFreeSpace, selectWorkers,
      bind_assoc, bind_assoc, meets_run_bind, meets_run_perform]
    constructor
    · trivial
    · intro found _
      cases found with
      | error message => exact refusedBoth _
      | ok rows =>
          dsimp only [orStatus]
          rw [pure_bind]
          by_cases few : rows.length < 3
          · rw [if_pos few]
            exact refusedBoth _
          · rw [if_neg few, pure_bind]
            apply confirm_reserve
            · intro addresses same
              exact ⟨placed addresses (by omega), fun _ => refused _⟩
            · exact refusedBoth
  · exact fun _ => refused _

theorem confirm_notify (request : NotifyBlobSavedRequest)
    (post : Except Status Unit → List (String × String) → Prop)
    (ends : ∀ outcome after, Grows (outcome = .ok ()) confirmed after → post outcome after) :
    meets confirmContract (unary (dbOnCluster (MasterService.notifyBlobSaved request))) post confirmed := by
  have failed : ∀ status, post (.error status) confirmed := fun _ => ends _ _ (grows_not (by simp))
  have failedBoth : ∀ status, post (.error status) confirmed ∧ ∀ message,
      post (unavailable message) confirmed :=
    fun _ => ⟨failed _, fun _ => failed _⟩
  apply confirm_unary
  · rw [confirm_db, MasterService.notifyBlobSaved, queryBlobByHashAndWorkerId, selectBlobs,
      bind_assoc, meets_run_bind, meets_run_perform]
    constructor
    · trivial
    · intro found _
      cases found with
      | error message => exact failedBoth _
      | ok rows =>
          dsimp only [orStatus]
          rw [pure_bind]
          split
          · rename_i row
            have one : ∀ outcome, post outcome (row.key :: confirmed) ∧ ∀ message,
                post (unavailable message) (row.key :: confirmed) :=
              fun _ => ⟨ends _ _ (grows_one _), fun _ => ends _ _ (grows_one _)⟩
            rw [updateBlobEntry, commit, bind_assoc, meets_run_bind, meets_run_perform]
            constructor
            · trivial
            · intro updated _
              cases updated with
              | error message => exact failedBoth _
              | ok _ =>
                  dsimp only [orStatus]
                  rw [pure_bind, getWorkerState, selectWorkers, bind_assoc, bind_assoc,
                    meets_run_bind, meets_run_perform]
                  constructor
                  · trivial
                  · intro states _
                    cases states with
                    | error message => exact one _
                    | ok states =>
                        dsimp only [orStatus]
                        rw [pure_bind]
                        cases states with
                        | nil => exact one _
                        | cons state rest =>
                            dsimp only
                            rw [pure_bind, updateWorkerState, commit, meets_run_bind, meets_run_perform]
                            constructor
                            · trivial
                            · intro written _
                              cases written <;> exact one _
          · exact failedBoth _
  · exact fun _ => failed _

end Calls

section Upload

variable {X : Xxh64} {confirmed : List (String × String)}

theorem confirm_files {α : Type} (address : String) (program : FileM α)
    (post : Except Thrown α → List (String × String) → Prop)
    (ends : ∀ outcome, post outcome confirmed) :
    meets (confirmWorker address) (onWorkerFiles program).run post confirmed := by
  apply (meets_inline workerFile program.run post confirmed).mpr
  apply meets_always
  · exact fun call after every => ⟨trivial, fun reply _ => every reply⟩
  · exact ends

theorem confirm_saved (address : String) (sent : List SaveBlobRequest) :
    meets confirmContract (workerOnCluster address (WorkerService.saveBlob X address sent))
      (fun outcome after => Grows (outcome = .ok ()) confirmed after) confirmed := by
  rw [workerOnCluster, map_eq_pure_bind, meets_bind]
  apply (meets_inline (workerImpl address) _ _ confirmed).mpr
  show meets (confirmWorker address) (WorkerService.saveBlob X address sent).run _ confirmed
  rw [WorkerService.saveBlob, meets_run_bind]
  apply confirm_files
  intro received
  cases received with
  | error thrown => exact grows_not (by cases thrown <;> simp [handlerStatus, unavailable])
  | ok result =>
      cases result with
      | error status => exact grows_not (by simp [handlerStatus])
      | ok hash =>
          dsimp only
          rw [masterNotifyBlobSaved, meets_run_bind, meets_run_perform]
          apply confirm_notify
          intro outcome after grown
          cases outcome with
          | error status => exact ⟨grown.1, fun returned => by simp [handlerStatus] at returned⟩
          | ok _ => exact ⟨grown.1, fun _ => grown.2 rfl⟩

theorem confirm_save (address : String) (sent : List SaveBlobRequest)
    (post : Except Status Unit → List (String × String) → Prop)
    (ends : ∀ outcome after, Grows (outcome = .ok ()) confirmed after → post outcome after) :
    meets confirmContract (saveBlobCall X address sent) post confirmed := by
  have dropped : ∀ message after success, Grows success confirmed after → post (unavailable message) after :=
    fun message after _ grown => ends _ after ⟨grown.1, fun returned => by cases returned⟩
  rw [saveBlobCall, meets_bind, rpcFate, meets_perform]
  constructor
  · trivial
  · intro fate _
    cases fate with
    | delivered => exact meets_mono noting_monotone _ _ _ _ ends (confirm_saved address sent)
    | requestLost message => exact dropped message confirmed False (grows_not id)
    | replyLost message =>
        dsimp only
        rw [meets_bind]
        exact meets_mono noting_monotone _ _ _ _ (fun _ after => dropped message after _)
          (confirm_saved address sent)
    | cut reached message =>
        dsimp only
        rw [meets_bind]
        exact meets_mono noting_monotone _ _ _ _ (fun _ after => dropped message after _)
          (confirm_saved address (sent.take reached))

theorem confirm_cancel (worker : String) (sent : List SaveBlobRequest)
    (post : Unit → List (String × String) → Prop)
    (ends : ∀ after, confirmed.length ≤ after.length → post () after) :
    confirmFrontend X (.saveBlobCancel worker sent) post confirmed := by
  rw [confirmFrontend, frontendImpl, meets_bind]
  exact confirm_save worker sent _ (fun _ after grown => ends after grown.1)

theorem confirm_rules (X : Xxh64) :
    UploadRules (confirmFrontend X) [] (fun _ _ _ => True) (fun _ => True) where
  files := fun _ _ _ every => ⟨trivial, fun reply _ => every reply⟩
  draws := fun _ _ every => ⟨trivial, fun reply _ => every reply⟩
  writes := fun _ _ _ _ every => ⟨trivial, fun reply _ => every reply⟩
  places := fun _ _ _ _ placed refused =>
    confirm_place _ _ (fun addresses _ => placed addresses _ trivial)
      (fun status => refused status _ trivial)
  finishes := fun _ worker _ sent _ _ _ _ ends =>
    confirm_save worker sent _ (fun outcome after _ => ends outcome after trivial)
  cancels := fun _ worker _ sent _ _ _ _ ends =>
    confirm_cancel worker sent _ (fun after _ => ends () after trivial)
  skips := fun _ _ _ _ _ => trivial
  serves := fun _ _ _ _ => trivial
  idle := trivial

theorem confirm_send (blob : BlobFile) (blobHash worker : String)
    (post : Except Thrown (Except String Unit) → List (String × String) → Prop)
    (ends : ∀ outcome after, Grows (outcome = .ok (.ok ())) confirmed after → post outcome after) :
    meets (confirmFrontend X) (sendBlobToWorker blob blobHash worker).run post confirmed := by
  have broken : ∀ message after, confirmed.length ≤ after.length → post (.ok (.error message)) after :=
    fun message after more => ends _ after ⟨more, fun returned => by cases returned⟩
  have thrownOut : ∀ thrown after, confirmed.length ≤ after.length → post (.error thrown) after :=
    fun thrown after more => ends _ after ⟨more, fun returned => by cases returned⟩
  rw [sendBlobToWorker, meets_catch, meets_run_bind, BlobFile.forEach]
  apply meets_for_chunks _ _ _ (fun _ => True) (fun _ => True)
  · intro it next _ read thrown
    apply upload_files (confirm_rules X)
    intro outcome
    cases outcome with
    | error error => exact thrown error
    | ok value => exact read value.1 value.2 trivial
  · intro sent chunk next _ more left
    rw [meets_run_bind, Frontend.writeSaveBlob, meets_run_perform]
    apply (confirm_rules X).writes
    intro written
    cases written with
    | true => exact more _ trivial
    | false =>
        dsimp only
        rw [if_neg (by simp), meets_run_bind, Frontend.cancelSaveBlob, meets_run_perform]
        apply confirm_cancel
        exact fun after kept => left _ after (broken _ after kept)
  · intro sent _
    dsimp only
    rw [meets_run_bind, Frontend.finishSaveBlob, meets_run_perform]
    apply confirm_save
    intro outcome after grown
    cases outcome with
    | error status => exact broken _ after grown.1
    | ok _ => exact ends _ after ⟨grown.1, fun _ => grown.2 rfl⟩
  · intro thrown
    cases thrown <;> first | exact broken _ _ (le_refl _) | exact thrownOut _ _ (le_refl _)
  · intro sent next _ unwound
    rw [Frontend.cancelSaveBlob, meets_run_perform]
    apply confirm_cancel
    intro after kept
    apply unwound
    intro thrown
    cases thrown <;> first | exact broken _ _ kept | exact thrownOut _ _ kept
  · trivial
  · trivial

theorem confirm_send_all (blob : BlobFile) (blobHash : String) (workers : List String)
    (post : Except Thrown (Except Status Unit) → List (String × String) → Prop)
    (ends : ∀ outcome after, (outcome = .ok (.ok ()) →
      confirmed.length + workers.length ≤ after.length) → post outcome after) :
    meets (confirmFrontend X) (sendBlobToWorkers blob blobHash workers).run post confirmed := by
  induction workers generalizing confirmed with
  | nil => exact ends _ confirmed (fun _ => le_refl _)
  | cons worker rest ih =>
      rw [sendBlobToWorkers, meets_run_bind]
      apply confirm_send
      intro outcome after grown
      cases outcome with
      | error thrown => exact ends _ after (fun returned => by cases returned)
      | ok result =>
          cases result with
          | error message => exact ends _ after (fun returned => by cases returned)
          | ok _ =>
              apply ih
              intro outcome last enough
              apply ends
              intro returned
              have one := grown.2 rfl
              have others := enough returned
              rw [List.length_cons]
              omega

-- Whoever is told that an upload went well, three copies have been confirmed.
theorem upload_confirms (X : Xxh64) (service : FrontendServiceImpl) (messages : List UploadBlobRequest) :
    meets confirmContract ((Request.uploadBlob service messages).program X)
      (fun response confirmed => ∀ told, response = .uploaded (.ok (.ok told)) →
        3 ≤ confirmed.length) [] := by
  have started : meets (confirmFrontend X) (service.uploadBlob X messages).run
      (fun outcome confirmed => ∀ told, outcome = .ok (.ok told) → 3 ≤ confirmed.length) [] := by
    rw [uploadBlob, meets_run_bind]
    apply upload_receive (confirm_rules X)
    · intro file blobHash _
      dsimp only
      rw [meets_run_bind, getWorkersFromMaster, meets_run_bind, meets_run_perform]
      apply confirm_place
      · intro addresses three
        dsimp only
        rw [meets_run_pure]
        dsimp only
        rw [meets_run_bind]
        apply confirm_send_all
        intro outcome after enough
        cases outcome with
        | error thrown => exact fun _ returned => by cases returned
        | ok result =>
            cases result with
            | error status => exact fun _ returned => by cases returned
            | ok _ =>
                dsimp only
                rw [meets_run_bind]
                have sent := enough rfl
                rw [List.length_nil, Nat.zero_add] at sent
                apply upload_files (confirm_rules X)
                intro removed
                cases removed <;> exact fun _ _ => three.trans sent
      · exact fun _ _ returned => by cases returned
    · exact fun _ _ returned => by cases returned
    · exact fun _ _ returned => by cases returned
  rw [Request.program, map_eq_pure_bind, meets_bind, meets_inline]
  refine meets_mono ?_ _ _ _ _ ?_ started
  · exact fun _ _ _ _ weaker holds => meets_mono noting_monotone _ _ _ _ weaker holds
  · exact fun outcome confirmed enough told answered => enough told (ClientResponse.uploaded.inj answered)

end Upload

end BlobStore
