import BlobStore.MasterPool

set_option autoImplicit false

namespace BlobStore

open Effects MasterDbRepository MasterService

abbrev MasterLog := List (Event MasterCall MasterReply)

def logMaster (call : MasterCall) (reply : MasterReply call) (log : MasterLog) : MasterLog :=
  log ++ [⟨call, reply⟩]

def MasterOp.Issues (op : MasterOp) : MasterCall → Prop
  | .spanner (.commit (.insertBlob entry)) =>
      entry.state = .duringCreation ∧ ∃ request, op = .getWorkersToSaveBlob request ∧
        entry.hash = request.blobHash
  | .spanner (.commit (.updateBlob entry)) => entry.state = .saved
  | .spanner (.commit (.insertWorker row)) =>
      ∃ request, op = .registerWorker request ∧ row.workerAddress = request.address
  | .spanner (.commit (.deleteWorker address)) =>
      ∃ request, op = .registerWorker request ∧ address = request.address
  | _ => True

def Issued (op : MasterOp) (log : MasterLog) : Prop := ∀ event ∈ log, op.Issues event.effect

def AddsEntry (key : String × String) (event : Event MasterCall MasterReply) : Prop :=
  ∃ entry : BlobCopyDTO, entry.key = key ∧ event = ⟨.spanner (.commit (.insertBlob entry)), .ok ()⟩

def RowDeleted {ι : Type} (key : String × String) (step : MasterStep ι) : Prop :=
  step.before.blobCopy.find? key ≠ none ∧ step.after.blobCopy.find? key = none

theorem issued_snoc {op : MasterOp} {log : MasterLog} (issued : Issued op log) (call : MasterCall)
    (reply : MasterReply call) (issues : op.Issues call) : Issued op (logMaster call reply log) := by
  intro event member
  cases List.mem_append.mp member with
  | inl earlier => exact issued event earlier
  | inr last =>
      obtain rfl := List.mem_singleton.mp last
      exact issues

structure Accounted (op : MasterOp) (result : Except Status MasterResponse) (log : MasterLog) : Prop where
  issued : Issued op log
  added : ∀ request addresses, op = .getWorkersToSaveBlob request → result = .ok (.addresses addresses) →
    ∀ address ∈ addresses, ∃ event ∈ log, AddsEntry (request.blobHash, address) event

section Calls

variable {ok : ((call : SpannerCall) → SpannerReply call) → Prop}

abbrev logSpanner (call : SpannerCall) (reply : SpannerReply call) (log : MasterLog) : MasterLog :=
  logMaster (.spanner call) reply log

theorem reserve_accounted (request : GetWorkersToSaveBlobRequest) (size : Int)
    (workers : List WorkerStateDTO) (log : MasterLog)
    (issued : Issued (.getWorkersToSaveBlob request) log) :
    wp (alone logSpanner) ok (reserveWorkers request.blobHash size workers).run
      (fun result after => Issued (.getWorkersToSaveBlob request) after ∧ log ⊆ after ∧
        ∀ addresses, result = .ok addresses → ∀ address ∈ addresses,
          ∃ event ∈ after, AddsEntry (request.blobHash, address) event) log := by
  induction workers generalizing log with
  | nil => exact ⟨issued, fun _ member => member, fun addresses returned => by cases returned; simp⟩
  | cons worker rest ih =>
      have entryIssued := issued_snoc issued
        (.spanner (.commit (.insertBlob ⟨request.blobHash, worker.workerAddress, .duringCreation, size⟩)))
      rw [reserveWorkers, wp_run_bind]
      refine alone_commit _ _ _ ?_ ?_
      · have inserted := entryIssued (.ok ()) ⟨rfl, request, rfl, rfl⟩
        dsimp only
        rw [wp_run_bind]
        refine alone_commit _ _ _ ?_ ?_
        · dsimp only
          rw [wp_run_bind]
          refine wp_mono _ _ _ _ ?_ (ih _ (issued_snoc inserted _ _ trivial))
          intro result after done
          obtain ⟨kept, grown, added⟩ := done
          have before : log ⊆ after := fun event member => grown (by simp [logMaster, member])
          cases result with
          | error status => exact ⟨kept, before, fun addresses returned => by cases returned⟩
          | ok addresses =>
              refine ⟨kept, before, ?_⟩
              intro all returned address member
              obtain rfl : worker.workerAddress :: addresses = all := Except.ok.inj returned
              cases List.mem_cons.mp member with
              | inl first =>
                  have entered : (⟨.spanner (.commit (.insertBlob ⟨request.blobHash,
                      worker.workerAddress, .duringCreation, size⟩)), .ok ()⟩ :
                      Event MasterCall MasterReply) ∈ after := grown (by simp [logMaster])
                  subst first
                  exact ⟨_, entered, _, rfl, rfl⟩
              | inr later => exact added addresses rfl address later
        · exact fun _ _ _ _ => ⟨issued_snoc inserted _ _ trivial,
            fun event member => by simp [logMaster, member], fun _ returned => by cases returned⟩
      · exact fun _ message _ _ => ⟨entryIssued (.error message) ⟨rfl, request, rfl, rfl⟩,
          fun event member => by simp [logMaster, member], fun _ returned => by cases returned⟩

theorem place_accounted (request : GetWorkersToSaveBlobRequest) :
    wp (alone logSpanner) ok (MasterService.getWorkersToSaveBlob request).run
      (fun result after => Issued (.getWorkersToSaveBlob request) after ∧
        ∀ addresses, result = .ok addresses → ∀ address ∈ addresses,
          ∃ event ∈ after, AddsEntry (request.blobHash, address) event) [] := by
  have asked : ∀ reply, Issued (.getWorkersToSaveBlob request)
      (logSpanner (.selectWorkers (.withFreeSpace (toInt64 request.sizeMb) 3)) reply []) :=
    fun reply => issued_snoc (fun event member => absurd member List.not_mem_nil) _ _ trivial
  rw [MasterService.getWorkersToSaveBlob, wp_run_bind, getWorkersWithFreeSpace, wp_run_bind]
  refine alone_select_workers _ _ _ ?_ ?_
  · intro _ rows _ _
    dsimp only
    split
    · exact ⟨asked _, fun _ returned => by cases returned⟩
    · refine (wp_run_pure rows _ _).mpr ?_
      refine wp_mono _ _ _ _ ?_ (reserve_accounted request _ rows _ (asked _))
      exact fun result after done => ⟨done.1, done.2.2⟩
  · exact fun _ _ _ _ => ⟨asked _, fun _ returned => by cases returned⟩

theorem worker_state_issued (op : MasterOp) (address : String) (log : MasterLog) (issued : Issued op log) :
    wp (alone logSpanner) ok (getWorkerState address).run (fun _ after => Issued op after) log := by
  rw [getWorkerState, wp_run_bind]
  refine alone_select_workers _ _ _ ?_ ?_
  · intro _ rows _ _
    dsimp only
    cases rows <;> exact issued_snoc issued _ _ trivial
  · exact fun _ _ _ _ => issued_snoc issued _ _ trivial

theorem commit_issued (op : MasterOp) (mutation : Mutation) (log : MasterLog) (issued : Issued op log)
    (issues : op.Issues (.spanner (.commit mutation))) :
    wp (alone logSpanner) ok (commit mutation).run (fun _ after => Issued op after) log :=
  alone_commit _ _ _ (issued_snoc issued _ _ issues) (fun _ _ _ _ => issued_snoc issued _ _ issues)

theorem bind_issued {α β : Type} (op : MasterOp) (program : DbM α) (rest : α → DbM β)
    (log : MasterLog)
    (first : wp (alone logSpanner) ok program.run (fun _ after => Issued op after) log)
    (second : ∀ value after, Issued op after →
      wp (alone logSpanner) ok (rest value).run (fun _ last => Issued op last) after) :
    wp (alone logSpanner) ok (ExceptT.run (program >>= rest)) (fun _ after => Issued op after) log := by
  rw [wp_run_bind]
  refine wp_mono _ _ _ _ ?_ first
  intro result after issued
  cases result with
  | ok value => exact second value after issued
  | error status => exact issued

theorem select_blobs_issued (op : MasterOp) (query : BlobQuery) (log : MasterLog) (issued : Issued op log) :
    wp (alone logSpanner) ok (selectBlobs query).run (fun _ after => Issued op after) log :=
  alone_select_blobs _ _ _ (fun _ _ _ _ => issued_snoc issued _ _ trivial)
    (fun _ _ _ _ => issued_snoc issued _ _ trivial)

theorem notify_issued (request : NotifyBlobSavedRequest) (log : MasterLog)
    (issued : Issued (.notifyBlobSaved request) log) :
    wp (alone logSpanner) ok (MasterService.notifyBlobSaved request).run
      (fun _ after => Issued (.notifyBlobSaved request) after) log := by
  refine bind_issued _ _ _ _ (select_blobs_issued _ _ _ issued) ?_
  intro blobs after issued
  cases blobs with
  | nil => exact issued
  | cons blob others =>
      cases others with
      | cons second more => exact issued
      | nil =>
          refine bind_issued _ _ _ _ (commit_issued _ _ _ issued rfl) ?_
          intro _ after issued
          refine bind_issued _ _ _ _ (worker_state_issued _ _ _ issued) ?_
          exact fun worker after issued => commit_issued _ _ _ issued trivial

theorem register_issued (request : RegisterWorkerRequest) (log : MasterLog)
    (issued : Issued (.registerWorker request) log) :
    wp (alone logSpanner) ok (MasterService.registerWorker request).run
      (fun _ after => Issued (.registerWorker request) after) log := by
  refine bind_issued _ _ _ _ (commit_issued _ _ _ issued ⟨request, rfl, rfl⟩) ?_
  intro _ after issued
  refine bind_issued _ _ _ _ (commit_issued _ _ _ issued trivial) ?_
  exact fun _ after issued => commit_issued _ _ _ issued ⟨request, rfl, rfl⟩

theorem lookup_issued (blobHash : String) (log : MasterLog)
    (issued : Issued (.getWorkerWithBlob blobHash) log) :
    wp (alone logSpanner) ok (MasterService.getWorkerWithBlob blobHash).run
      (fun _ after => Issued (.getWorkerWithBlob blobHash) after) log := by
  refine bind_issued _ _ _ _ (select_blobs_issued _ _ _ issued) ?_
  intro copies after issued
  cases copies with
  | nil => exact issued
  | cons copy others =>
      exact bind_issued _ _ _ _ (worker_state_issued _ _ _ issued) (fun _ _ issued => issued)

end Calls

theorem request_workers_issued {ok : ((call : MasterCall) → MasterReply call) → Prop} (blobHash : String)
    (copies : List BlobCopyDTO) (log : MasterLog) (issued : Issued (.deleteBlob blobHash) log) :
    wp (alone logMaster) ok (requestWorkersToDeleteBlob copies).run
      (fun _ after => Issued (.deleteBlob blobHash) after) log := by
  induction copies generalizing log with
  | nil => exact issued
  | cons copy rest ih =>
      rw [requestWorkersToDeleteBlob, requestWorkerToDeleteBlob, wp_run_bind, wp_run_bind, wp_run_perform]
      exact fun replies _ => ih _ (issued_snoc issued _ _ trivial)

theorem delete_issued {ok : ((call : MasterCall) → MasterReply call) → Prop} (blobHash : String)
    (log : MasterLog) (issued : Issued (.deleteBlob blobHash) log) :
    wp (alone logMaster) ok (MasterService.deleteBlob blobHash).run
      (fun _ after => Issued (.deleteBlob blobHash) after) log := by
  rw [MasterService.deleteBlob, wp_run_bind]
  refine alone_on_db _ _ _ (wp_mono _ _ _ _ ?_ (select_blobs_issued _ _ _ issued))
  intro copies after issued
  cases copies with
  | error status => exact issued
  | ok copies =>
      dsimp only
      rw [wp_run_bind]
      refine wp_mono _ _ _ _ ?_ (request_workers_issued blobHash copies after issued)
      intro result after issued
      cases result with
      | error status => exact issued
      | ok _ => exact alone_on_db _ _ _ (commit_issued _ _ _ issued trivial)

theorem op_accounted (op : MasterOp) (ok : ((call : MasterCall) → MasterReply call) → Prop) :
    wp (alone logMaster) ok op.program.run (Accounted op) [] := by
  have start : ∀ op, Issued op [] := fun op event member => absurd member List.not_mem_nil
  have others : ∀ result log, (∀ request, op ≠ .getWorkersToSaveBlob request) →
      Issued op log → Accounted op result log :=
    fun result log different issued => ⟨issued, fun request _ same => absurd same (different request)⟩
  cases op with
  | getWorkersToSaveBlob request =>
      rw [MasterOp.program, wp_run_bind]
      refine alone_on_db _ _ _ (wp_mono _ _ _ _ ?_ (place_accounted request))
      intro result after done
      cases result with
      | error status => exact ⟨done.1, fun _ _ _ returned => by cases returned⟩
      | ok addresses =>
          refine ⟨done.1, ?_⟩
          intro again found same returned
          cases same
          cases returned
          exact done.2 addresses rfl
  | registerWorker request =>
      refine wp_mono _ _ _ _ (fun result after issued => others result after (by simp) issued)
        (wp_run_map _ _ _ _ (alone_on_db _ _ _ (register_issued request [] (start _))))
  | getWorkerWithBlob blobHash =>
      refine wp_mono _ _ _ _ (fun result after issued => others result after (by simp) issued)
        (wp_run_map _ _ _ _ (alone_on_db _ _ _ (lookup_issued blobHash [] (start _))))
  | notifyBlobSaved request =>
      refine wp_mono _ _ _ _ (fun result after issued => others result after (by simp) issued)
        (wp_run_map _ _ _ _ (alone_on_db _ _ _ (notify_issued request [] (start _))))
  | deleteBlob blobHash =>
      refine wp_mono _ _ _ _ (fun result after issued => others result after (by simp) issued)
        (wp_run_map _ _ _ _ (delete_issued blobHash [] (start _)))

section Pool

variable {ι : Type} [DecidableEq ι] (ops : ι → MasterOp) (tables : Tables)
  (schedule : List (ι × MasterChoice))

theorem pool_accounted (proc : ι) :
    wp (alone logMaster) (fun _ => True)
      (((masterPool ops tables).run masterSem schedule).procs proc) (Accounted (ops proc))
      (noted logMaster [] ((masterPool ops tables).run masterSem schedule).history proc) :=
  Pool.local_holds masterSem (fun _ => True) [] (fun proc => Accounted (ops proc)) _ tables schedule
    (fun proc => op_accounted (ops proc) _)
      (Pool.along_of_forall masterSem (fun _ => True) _ schedule (fun _ _ => trivial)) proc

theorem step_issues (step : MasterStep ι)
    (member : step ∈ ((masterPool ops tables).run masterSem schedule).history) :
    (ops step.proc).Issues step.event.effect := by
  have issued : Issued (ops step.proc)
      (noted logMaster [] ((masterPool ops tables).run masterSem schedule).history step.proc) := by
    refine alone_now (fun _ => True) (Issued (ops step.proc)) ?_
      (fun call => (masterSem call default tables).1) trivial _ _
      (fun _ _ accounted => accounted.issued) _ (pool_accounted ops tables schedule step.proc)
    exact fun call reply log issued event earlier => issued event (List.mem_append_left _ earlier)
  exact issued step.event ((mem_noted_log [] _ step.proc step.event).mpr (.inr ⟨step, member, rfl, rfl⟩))

theorem step_row_change (step : MasterStep ι)
    (member : step ∈ ((masterPool ops tables).run masterSem schedule).history)
    (key : String × String) :
    RowChange step.event.effect key (step.before.blobCopy.find? key) (step.after.blobCopy.find? key) := by
  obtain ⟨choice, -, -, after⟩ := Pool.run_steps masterSem _ tables schedule step member
  rw [after]
  exact row_change step.event.effect choice step.before key

theorem added_row (step : MasterStep ι)
    (member : step ∈ ((masterPool ops tables).run masterSem schedule).history)
    (key : String × String) (adds : AddsEntry key step.event) :
    step.before.blobCopy.find? key = none ∧ step.after.blobCopy.find? key ≠ none := by
  obtain ⟨entry, keyed, event⟩ := adds
  obtain ⟨choice, -, reply, after⟩ := Pool.run_steps masterSem _ tables schedule step member
  rw [event] at reply after
  have applied := commit_accepted (.insertBlob entry) choice.db step.before reply.symm
  obtain ⟨rows, inserted, same⟩ := insert_blob_apply applied
  rw [show step.after = _ from after.trans same]
  refine ⟨keyed ▸ ((Table.insert_some_iff _ _ _).mp inserted).1, ?_⟩
  dsimp only
  rw [Table.find_insert inserted, if_pos keyed]
  exact Option.some_ne_none entry

-- Between two additions of one row it is deleted.
theorem added_once_per_life (key : String × String) (early middle late : List (MasterStep ι))
    (one two : MasterStep ι)
    (history : ((masterPool ops tables).run masterSem schedule).history = early ++ one ::
      (middle ++ two :: late)) (first : AddsEntry key one.event)
      (second : AddsEntry key two.event) : ∃ gone ∈ middle, RowDeleted key gone := by
  have linked := Pool.run_linked masterSem (fun proc => (ops proc).program.run) tables schedule
  rw [show (Pool.run masterSem (Pool.start _ tables) schedule).history = _ from history] at linked
  obtain ⟨_, -, -, linkedRest⟩ := (linked_append _ _ early _).mp linked
  obtain ⟨start, linkedMiddle, before, -⟩ := (linked_append _ _ middle _).mp linkedRest
  have present := (added_row ops tables schedule one (by simp [history]) key first).2
  have absent := (added_row ops tables schedule two (by simp [history]) key second).1
  rw [before] at absent
  obtain ⟨gone, member, lost⟩ :=
    linked_loses (fun tables => tables.blobCopy.find? key ≠ none) _ _ middle linkedMiddle
    present (fun found => found absent)
  exact ⟨gone, member, lost.1, not_not.mp lost.2⟩

theorem placed_by_own_entry (proc : ι) (request : GetWorkersToSaveBlobRequest)
    (addresses : List String) (op : ops proc = .getWorkersToSaveBlob request)
    (returned : ((masterPool ops tables).run masterSem schedule).procs proc =
      .pure (.ok (.addresses addresses))) (address : String) (named : address ∈ addresses) :
    ∃ step ∈ ((masterPool ops tables).run masterSem schedule).history,
      step.proc = proc ∧ AddsEntry (request.blobHash, address) step.event := by
  have accounted := pool_accounted ops tables schedule proc
  rw [returned] at accounted
  obtain ⟨event, logged, adds⟩ := accounted.added request addresses op rfl address named
  cases (mem_noted_log [] _ proc event).mp logged with
  | inl none => cases none
  | inr found =>
      obtain ⟨step, member, mine, rfl⟩ := found
      exact ⟨step, member, mine, adds⟩

end Pool

-- The life of the rows of blob_copy over a run of concurrent calls.
structure RowLifeCycle {ι : Type} (ops : ι → MasterOp) (pool : MasterPool ι) : Prop where
  created : ∀ step ∈ pool.history, ∀ key entry, step.before.blobCopy.find? key = none →
    step.after.blobCopy.find? key = some entry →
      step.event.effect = .spanner (.commit (.insertBlob entry)) ∧ entry.state = .duringCreation ∧
        ∃ request, ops step.proc = .getWorkersToSaveBlob request ∧ request.blobHash = key.1
  savedStays : ∀ step ∈ pool.history, ∀ key old entry, step.before.blobCopy.find? key = some old →
    old.state = .saved →
    step.after.blobCopy.find? key = some entry → entry.state = .saved
  notRevived : ∀ step ∈ pool.history, ∀ request, ops step.proc = .notifyBlobSaved request →
    ∀ key, step.before.blobCopy.find? key = none → step.after.blobCopy.find? key = none
  addedOncePerLife : ∀ key early one middle two late, pool.history = early ++ one :: (middle ++ two :: late) →
    AddsEntry key one.event → AddsEntry key two.event → ∃ gone ∈ middle, RowDeleted key gone
  placedOncePerLife : ∀ one two first second firstAddresses secondAddresses address, one ≠ two →
    ops one = .getWorkersToSaveBlob first → ops two = .getWorkersToSaveBlob second →
      first.blobHash = second.blobHash →
    pool.procs one = .pure (.ok (.addresses firstAddresses)) →
      pool.procs two = .pure (.ok (.addresses secondAddresses)) →
    address ∈ firstAddresses → address ∈ secondAddresses →
      ∃ early former middle latter late, pool.history = early ++ former :: (middle ++ latter :: late) ∧
        (former.proc = one ∧ latter.proc = two ∨ former.proc = two ∧ latter.proc = one) ∧
        AddsEntry (first.blobHash, address) former.event ∧ AddsEntry (first.blobHash, address) latter.event ∧
        ∃ gone ∈ middle, RowDeleted (first.blobHash, address) gone

theorem rows_live_once {ι : Type} [DecidableEq ι] (ops : ι → MasterOp) (schedule : List (ι × MasterChoice)) :
    RowLifeCycle ops ((masterPool ops Tables.empty).run masterSem schedule) where
  created step member key entry absent present := by
    have issues := step_issues ops Tables.empty schedule step member
    cases step_row_change ops Tables.empty schedule step member key with
    | kept same => rw [same, absent] at present; cases present
    | inserted added effect keyed _ after =>
        obtain rfl : added = entry := Option.some.inj (after.symm.trans present)
        rw [effect] at issues
        obtain ⟨creating, request, op, hash⟩ := issues
        exact ⟨effect, creating, request, op, hash.symm.trans (congrArg Prod.fst keyed)⟩
    | updated _ old _ _ before _ => rw [before] at absent; cases absent
    | deleted gone => rw [gone] at present; cases present
  savedStays step member key old entry before saved after := by
    have issues := step_issues ops Tables.empty schedule step member
    cases step_row_change ops Tables.empty schedule step member key with
    | kept same =>
        rw [same, before] at after
        exact Option.some.inj after ▸ saved
    | inserted _ _ _ absent _ => rw [absent] at before; cases before
    | updated written _ effect _ _ replaced =>
        obtain rfl : written = entry := Option.some.inj (replaced.symm.trans after)
        rw [effect] at issues
        exact issues
    | deleted gone => rw [gone] at after; cases after
  notRevived step member request op key absent := by
    have issues := step_issues ops Tables.empty schedule step member
    cases step_row_change ops Tables.empty schedule step member key with
    | kept same => exact same.trans absent
    | inserted _ effect _ _ _ =>
        rw [effect, op] at issues
        obtain ⟨-, placed, other, -⟩ := issues
        cases other
    | updated _ _ _ _ before _ => rw [before] at absent; cases absent
    | deleted gone => exact gone
  addedOncePerLife key early one middle two late history first second :=
    added_once_per_life ops Tables.empty schedule key early middle late one two history first second
  placedOncePerLife one two first second firstAddresses secondAddresses address different opOne opTwo sameHash
      returnedOne returnedTwo namedOne namedTwo := by
    obtain ⟨stepOne, memberOne, procOne, addsOne⟩ :=
      placed_by_own_entry ops Tables.empty schedule one first firstAddresses
        opOne returnedOne address namedOne
    obtain ⟨stepTwo, memberTwo, procTwo, addsTwo⟩ :=
      placed_by_own_entry ops Tables.empty schedule two second secondAddresses
        opTwo returnedTwo address namedTwo
    rw [← sameHash] at addsTwo
    have apart : stepOne ≠ stepTwo := fun equal => different (procOne.symm.trans (equal ▸ procTwo))
    obtain ⟨early, middle, late, order⟩ := split_at_two stepOne stepTwo _ memberOne memberTwo apart
    cases order with
    | inl history =>
        exact ⟨early, stepOne, middle, stepTwo, late, history, .inl ⟨procOne, procTwo⟩, addsOne, addsTwo,
          added_once_per_life ops Tables.empty schedule _ early middle late stepOne
            stepTwo history addsOne addsTwo⟩
    | inr history =>
        exact ⟨early, stepTwo, middle, stepOne, late, history, .inr ⟨procTwo, procOne⟩, addsTwo, addsOne,
          added_once_per_life ops Tables.empty schedule _ early middle late stepTwo
            stepOne history addsTwo addsOne⟩

end BlobStore
