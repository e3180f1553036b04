import BlobStore.ReceiveFailures
import BlobStore.SpaceCycle
import BlobStore.UploadContract
import BlobStore.UploadCopies

set_option autoImplicit false

namespace BlobStore

open Effects FileSystem WorkerService FrontendServiceImpl

-- One stream of an upload as the worker at its other end meets it.
structure Attempt where
  worker : String
  sent : List SaveBlobRequest
  choices : List Choice
  files : FileSystem

structure UploadLog where
  placed : Option (String × List String) := none
  attempts : List Attempt := []

section Runs

variable (X : Xxh64)

def noteUpload : FrontendCall → List Choice → Cluster → UploadLog → UploadLog
  | .getWorkersToSaveBlob master request, choices, cluster, log =>
      match (frontendSem X (.getWorkersToSaveBlob master request) choices cluster).1 with
      | .ok workers => { log with placed := some (request.blobHash, workers) }
      | .error _ => log
  | .saveBlobFinish worker sent, choices, cluster, log =>
      { log with attempts := log.attempts ++ [⟨worker, sent, choices, cluster.workers worker⟩] }
  | .saveBlobCancel worker sent, choices, cluster, log =>
      { log with attempts := log.attempts ++ [⟨worker, sent, choices, cluster.workers worker⟩] }
  | _, _, _, log => log

def uploadRun (service : FrontendServiceImpl) (messages : List UploadBlobRequest)
    (choices : List (List Choice)) (cluster : Cluster) :
    Except Thrown (Except Status String) × Cluster × UploadLog :=
  let outcome := exec (watched (noteUpload X) (frontendSem X))
    (service.uploadBlob X messages).run choices (cluster, {})
  (outcome.1, outcome.2.2)

end Runs

-- What reaches the worker of the messages that were sent to it.
def heard : RpcFate → List SaveBlobRequest → Option (List SaveBlobRequest)
  | .delivered, sent => some sent
  | .requestLost _, _ => none
  | .replyLost _, sent => some sent
  | .cut reached _, sent => some (sent.take reached)

-- The whole stream verifies and every primitive of it works; short writes pass unnoticed.
def Accepts (X : Xxh64) (messages : List SaveBlobRequest) (choices : List FileChoice)
    (fs : FileSystem) : Prop :=
  messages ≠ [] ∧ firstName messages = X.blobHash (payload messages) ∧
    (∃ base location, TargetOpened (firstName messages) choices fs base location) ∧
    allOpened (chunksOf messages) (choices.drop 2) = true

-- The worker has saved what it was sent and reports it, whatever becomes of its answer.
def Attempt.GotThrough (X : Xxh64) (attempt : Attempt) : Prop :=
  ∃ messages, heard (attempt.choices.headD default).fate attempt.sent = some messages ∧
    Accepts X messages (attempt.choices.tail.map Choice.file) attempt.files

-- Workers may fail in any way; their calls of the master get through and its database works.
def MasterWorks (turn : List Choice) : Prop :=
  (∀ choice ∈ turn, DbHealthy choice.db) ∧ ∀ choice ∈ turn.tail, choice.fate = .delivered

def NothingReserved (blobHash : String) (before after : Tables) : Prop :=
  ∀ worker, before.blobCopy.find? (blobHash, worker) = none → ¬ Copy .duringCreation after (blobHash, worker)

theorem accepted_iff (X : Xxh64) (messages : List SaveBlobRequest) (choices : List FileChoice)
    (fs : FileSystem) (hash : String) :
    (exec fileSem (receiveBlobFromFrontend X messages).run choices fs).1 = .ok (.ok hash) ↔
      hash = firstName messages ∧ Accepts X messages choices fs := by
  cases messages with
  | nil =>
      rw [exec_receive_nothing]
      simp [Accepts]
  | cons first rest =>
      have received := exec_receive_blob X first rest choices fs
      dsimp only at received
      generalize exec fileSem (receiveBlobFromFrontend X (first :: rest)).run choices fs = outcome at received
      obtain ⟨result, remaining, after⟩ := outcome
      dsimp only at received ⊢
      have named : firstName (first :: rest) = first.blobHash := rfl
      have targets : ∀ base location, TargetOpened first.blobHash choices fs base location →
          ∃ base location, TargetOpened (firstName (first :: rest)) choices fs base location :=
        fun base location target => ⟨base, location, target⟩
      cases received with
      | noDirectory what unmade =>
          refine iff_of_false (by simp) ?_
          rintro ⟨-, -, -, ⟨base, location, target⟩, -⟩
          exact unmade ⟨base, target.made, target.opens.1⟩
      | notOpened status _ made closed => exact iff_of_false (by simp) (fun accepts => closed accepts.2.2.2.1)
      | broken status base location target stopped =>
          refine iff_of_false (by simp) ?_
          rintro ⟨-, -, -, -, whole⟩
          rw [stopped] at whole
          cases whole
      | rejected status base location target whole mismatch removed =>
          exact iff_of_false (by simp) (fun accepts => mismatch accepts.2.2.1)
      | unremoved what base location target whole mismatch failed =>
          exact iff_of_false (by simp) (fun accepts => mismatch accepts.2.2.1)
      | accepted base location target whole verified =>
          rw [named]
          constructor
          · intro same
            exact ⟨(Except.ok.inj (Except.ok.inj same)).symm, by simp, verified,
              targets base location target, whole⟩
          · rintro ⟨rfl, -⟩
            rfl

theorem exec_cluster_files {α : Type} (address : String) (program : FileM α) (choices : List Choice)
    (cluster : Cluster) :
    let part := exec fileSem program.run (choices.map Choice.file) (cluster.workers address)
    let result := exec clusterSem ((onWorkerFiles program).run.inline (workerImpl address)) choices cluster
    result.1 = part.1 ∧ result.2.2 = withWorker cluster address part.2.2 := by
  have parts : ∀ call choices (whole : Cluster),
      exec clusterSem ((workerFile call).inline (workerImpl address)) choices whole =
        ((fileSem call (choices.headD default).file (whole.workers address)).1, choices.tail,
          withWorker whole address (fileSem call
            (choices.headD default).file (whole.workers address)).2) := fun _ _ _ => rfl
  have inlined := exec_inline_part (fun call => (workerFile call).inline (workerImpl address)) Choice.file
    (fun cluster : Cluster => cluster.workers address) (fun cluster fs => withWorker cluster address fs) rfl
    (fun whole part => with_worker_at whole address part)
      (fun whole one two => with_worker_twice whole address one two)
    (fun whole => with_worker_same whole address) parts program.run choices cluster
  dsimp only at inlined ⊢
  rw [onWorkerFiles, Failing.inline, ExceptT.run_mk, Program.inline_inline]
  exact ⟨inlined.1, inlined.2.2⟩

-- What a SaveBlob handler leaves: its files, and the effect of a notification if it sends one.
theorem exec_worker_save (X : Xxh64) (address : String) (messages : List SaveBlobRequest)
    (choices : List Choice) (cluster : Cluster) :
    let received := exec fileSem (receiveBlobFromFrontend X messages).run (choices.map Choice.file)
      (cluster.workers address)
    let after :=
      (exec clusterSem (workerOnCluster address (WorkerService.saveBlob X address messages))
        choices cluster).2.2
    let saved := withWorker cluster address received.2.2
    match received.1 with
    | .ok (.ok hash) => ∃ used, after =
        (exec clusterSem (unary (dbOnCluster (MasterService.notifyBlobSaved ⟨address, hash⟩)))
          (choices.drop used) saved).2.2
    | _ => after = saved := by
  obtain ⟨result, files⟩ := exec_cluster_files address (receiveBlobFromFrontend X messages) choices cluster
  obtain ⟨used, rest⟩ := exec_rest clusterSem
    ((onWorkerFiles (receiveBlobFromFrontend X messages)).run.inline (workerImpl address)) choices cluster
  dsimp only at result files ⊢
  rw [workerOnCluster, map_eq_pure_bind, exec_bind, WorkerService.saveBlob, ExceptT.run_bind,
    Program.inline_bind, exec_bind, result, files, rest]
  cases outcome : (exec fileSem (receiveBlobFromFrontend X messages).run (choices.map Choice.file)
    (cluster.workers address)).1 with
  | error thrown => rfl
  | ok received =>
      cases received with
      | error status => rfl
      | ok hash =>
          refine ⟨used, ?_⟩
          dsimp only
          rw [ExceptT.run_bind, Program.inline_bind, exec_bind]
          have notified : (masterNotifyBlobSaved ⟨address, hash⟩).run.inline (workerImpl address) =
              unary (dbOnCluster (MasterService.notifyBlobSaved ⟨address, hash⟩)) >>=
                fun reply => pure (.ok reply) := rfl
          rw [notified, exec_bind]
          generalize (exec clusterSem
            (unary (dbOnCluster (MasterService.notifyBlobSaved ⟨address, hash⟩))) (choices.drop used)
            (withWorker cluster address _)) = answered
          obtain ⟨_ | _, _, _⟩ := answered <;> rfl

def MasterAnswering (choice : Choice) : Prop := DbHealthy choice.db ∧ choice.fate = .delivered

theorem answering_tail {turn : List Choice} (works : MasterWorks turn) :
    ∀ choice ∈ turn.tail, MasterAnswering choice :=
  fun choice member => ⟨works.1 choice (List.mem_of_mem_tail member), works.2 choice member⟩

theorem wp_delivered {α : Type} (program : DbM α) (post : Except Status α → Tables → Prop) (cluster : Cluster)
    (holds : wpDb DbHealthy program post cluster.tables) :
    wp clusterSem MasterAnswering (unary (dbOnCluster program))
      (fun outcome after => post outcome after.tables) cluster := by
  rw [unary, wp_bind, rpcFate, wp_perform]
  intro choice answering
  simp only [clusterSem, answering.2]
  refine wp_db_on_cluster program _ cluster (wp_fewer _ _ _ ?_ holds)
  rintro _ ⟨whole, allowed, rfl⟩
  exact allowed.1

theorem worker_save_rows (X : Xxh64) (address : String) (messages : List SaveBlobRequest)
    (choices : List Choice) (cluster : Cluster) (works : ∀ choice ∈ choices, MasterAnswering choice) :
    let after :=
      (exec clusterSem (workerOnCluster address (WorkerService.saveBlob X address messages))
        choices cluster).2.2.tables
    let accepts := Accepts X messages (choices.map Choice.file) (cluster.workers address)
    (accepts → ∃ outcome, NotifyOutcome ⟨address, firstName messages⟩ cluster.tables outcome after) ∧
      (¬ accepts → after = cluster.tables) := by
  have saved := exec_worker_save X address messages choices cluster
  have accepted := accepted_iff X messages (choices.map Choice.file) (cluster.workers address)
  dsimp only at saved ⊢
  generalize exec fileSem (receiveBlobFromFrontend X messages).run (choices.map Choice.file)
    (cluster.workers address) = received
    at saved accepted
  rcases received with ⟨thrown | ⟨status | hash⟩, remaining, files⟩
  · dsimp only at saved accepted
    rw [saved]
    exact ⟨fun accepts => (by cases (accepted _).mpr ⟨rfl, accepts⟩), fun _ => rfl⟩
  · dsimp only at saved accepted
    rw [saved]
    exact ⟨fun accepts => (by cases (accepted _).mpr ⟨rfl, accepts⟩), fun _ => rfl⟩
  · obtain ⟨used, after⟩ := saved
    obtain ⟨rfl, accepts⟩ := (accepted hash).mp rfl
    rw [after]
    refine ⟨fun _ => ?_, fun refused => absurd accepts refused⟩
    exact ⟨_, wp_sound MasterAnswering _ _ (choices.drop used) (withWorker cluster address files) ⟨rfl, rfl⟩
      (fun choice member => works choice (List.mem_of_mem_drop member))
      (wp_delivered _ _ (withWorker cluster address files)
        (wp_notify_outcome ⟨address, firstName messages⟩ cluster.tables))⟩

theorem heard_sent {fate : RpcFate} {sent messages : List SaveBlobRequest}
    (reached : heard fate sent = some messages) :
    ∀ message ∈ messages, message ∈ sent := by
  cases fate with
  | delivered => exact fun message member => Option.some.inj reached ▸ member
  | requestLost what => cases reached
  | replyLost what => exact fun message member => Option.some.inj reached ▸ member
  | cut count what => exact fun message member => List.mem_of_mem_take (Option.some.inj reached ▸ member)

theorem attempt_rows (X : Xxh64) (worker blobHash : String) (sent : List SaveBlobRequest)
    (named : ∀ message ∈ sent, message.blobHash = blobHash) (turn : List Choice)
    (works : MasterWorks turn) (cluster : Cluster) :
    let after := (exec clusterSem (saveBlobCall X worker sent) turn cluster).2.2.tables
    let attempt : Attempt := ⟨worker, sent, turn, cluster.workers worker⟩
    (attempt.GotThrough X → ∃ outcome, NotifyOutcome ⟨worker, blobHash⟩ cluster.tables outcome after) ∧
      (¬ attempt.GotThrough X → after = cluster.tables) := by
  intro after attempt
  have handled : ∀ messages, heard (turn.headD default).fate sent = some messages →
      after = (exec clusterSem (workerOnCluster worker (WorkerService.saveBlob X worker messages))
        turn.tail cluster).2.2.tables →
      (attempt.GotThrough X → ∃ outcome, NotifyOutcome ⟨worker, blobHash⟩ cluster.tables outcome after) ∧
        (¬ attempt.GotThrough X → after = cluster.tables) := by
    intro messages reached same
    obtain ⟨noticed, ignored⟩ := worker_save_rows X worker messages turn.tail cluster (answering_tail works)
    rw [same]
    constructor
    · rintro ⟨others, again, accepts⟩
      obtain rfl := Option.some.inj (reached.symm.trans again)
      have name : firstName messages = blobHash := by
        cases messages with
        | nil => exact absurd rfl accepts.1
        | cons first rest => exact named first (heard_sent reached first List.mem_cons_self)
      exact name ▸ noticed accepts
    · exact fun lost => ignored (fun accepts => lost ⟨messages, reached, accepts⟩)
  have answered : exec clusterSem rpcFate turn cluster =
      ((turn.headD default).fate, turn.tail, cluster) := rfl
  have step : after = (exec clusterSem (saveBlobCall X worker sent) turn cluster).2.2.tables := rfl
  rw [saveBlobCall, exec_bind, answered] at step
  cases fate : (turn.headD default).fate with
  | delivered => exact handled sent (by rw [fate]; rfl) (by rw [step, fate])
  | requestLost message =>
      refine ⟨?_, fun _ => by rw [step, fate]; rfl⟩
      rintro ⟨messages, reached, -⟩
      rw [show attempt.choices = turn from rfl, fate] at reached
      cases reached
  | replyLost message => exact handled sent (by rw [fate]; rfl) (by rw [step, fate, exec_bind]; rfl)
  | cut reached message =>
      exact handled (sent.take reached) (by rw [fate]; rfl) (by rw [step, fate, exec_bind]; rfl)

-- The answer to a reservation may be lost, but an answer that comes is the handler's.
theorem wp_answered (request : GetWorkersToSaveBlobRequest) (cluster : Cluster) :
    wp clusterSem (fun choice => DbHealthy choice.db)
      (unary (dbOnCluster (MasterService.getWorkersToSaveBlob request)))
      (fun outcome after => ∀ workers, outcome = .ok workers →
        PlaceOutcome request.blobHash (toInt64 request.sizeMb) cluster.tables
          (.ok workers) after.tables) cluster := by
  rw [unary, wp_bind, rpcFate, wp_perform]
  intro choice _
  simp only [clusterSem]
  cases choice.fate with
  | delivered =>
      refine wp_db_on_cluster _ _ cluster
        (wp_fewer _ _ _ ?_ (wp_mono _ _ _ _ ?_ (wp_place_outcome request cluster.tables)))
      · rintro _ ⟨whole, allowed, rfl⟩
        exact allowed
      · rintro outcome after placed workers rfl
        exact placed
  | requestLost message => exact fun _ lost => by cases lost
  | replyLost message =>
      rw [wp_bind]
      exact wp_always _ _ _ (fun _ _ _ lost => by cases lost)
  | cut reached message =>
      rw [wp_bind]
      exact wp_always _ _ _ (fun _ _ _ lost => by cases lost)

theorem placed_fresh {blobHash : String} {size : Int} {addresses : List String} {before after : Tables}
    (placed : PlaceOutcome blobHash size before (.ok addresses) after) :
    ∀ address ∈ addresses, before.blobCopy.find? (blobHash, address) = none := by
  cases placed with
  | chosen workers _ _ placement three loop =>
      have stored : ∀ worker ∈ workers, before.workerState.find? worker.workerAddress = some worker :=
        fun worker member => before.workerState.find_self worker (placement.stored worker member)
      obtain ⟨rfl, -, -⟩ := reserved_all loop placement.distinct stored rfl
      intro address member
      obtain ⟨worker, inside, rfl⟩ := List.mem_map.mp member
      by_contra taken
      obtain ⟨status, refused⟩ := (reserve_refused_iff loop placement.distinct).mpr ⟨worker, inside, taken⟩
      cases refused

inductive UploadPhase where
  | receiving
  | sending (blobHash : String) (workers : List String)
  | refused

-- An upload reserves at most once, and then sends its blob to the workers it was given.
def uploadContract : Contract FrontendCall FrontendReply UploadPhase
  | .getWorkersToSaveBlob _ request, post, phase => (phase = .receiving ∧ OrdinaryName request.blobHash) ∧
      (∀ workers, post (.ok workers) (.sending request.blobHash workers)) ∧
        ∀ status, post (.error status) .refused
  | .saveBlobFinish worker sent, post, phase =>
      (∃ blobHash workers, phase = .sending blobHash workers ∧ worker ∈ workers ∧
      ∀ message ∈ sent, message.blobHash = blobHash) ∧ ∀ reply, post reply phase
  | .saveBlobCancel worker sent, post, phase =>
      (∃ blobHash workers, phase = .sending blobHash workers ∧ worker ∈ workers ∧
      ∀ message ∈ sent, message.blobHash = blobHash) ∧ ∀ reply, post reply phase
  | .file _, post, phase => ∀ reply, post reply phase
  | .rand, post, phase => ∀ reply, post reply phase
  | .saveBlobWrite _ _, post, phase => ∀ reply, post reply phase
  | _, _, _ => False

def Sending (blobHash : String) (rest : List String) (phase : UploadPhase) : Prop :=
  ∃ workers, phase = .sending blobHash workers ∧ ∀ worker ∈ rest, worker ∈ workers

theorem sending_attempt {blobHash worker : String} {rest : List String} {phase : UploadPhase}
    (sending : Sending blobHash (worker :: rest) phase) (sent : List SaveBlobRequest)
    (named : ∀ message ∈ sent, message.blobHash = blobHash) :
    (∃ blobHash workers, phase = .sending blobHash workers ∧ worker ∈ workers ∧ ∀ message ∈ sent,
      message.blobHash = blobHash) ∧
      Sending blobHash rest phase := by
  obtain ⟨workers, rfl, inside⟩ := sending
  exact ⟨⟨blobHash, workers, rfl, inside worker List.mem_cons_self, named⟩,
    workers, rfl, fun other member => inside other (List.mem_cons_of_mem worker member)⟩

theorem upload_rules : UploadRules uploadContract .receiving Sending (fun _ => True) where
  files := fun _ _ _ every => every
  draws := fun _ _ every => every
  writes := fun _ _ _ _ every => every
  places := fun _ _ _ ordinary placed refused =>
    ⟨⟨rfl, ordinary⟩, fun workers => placed workers _ ⟨workers, rfl, fun _ member => member⟩,
      fun status => refused status _ trivial⟩
  finishes := by
    intro blobHash worker rest sent post phase serves named every
    obtain ⟨attempt, later⟩ := sending_attempt serves sent named
    exact ⟨attempt, fun reply => every reply phase later⟩
  cancels := by
    intro blobHash worker rest sent post phase serves named every
    obtain ⟨attempt, later⟩ := sending_attempt serves sent named
    exact ⟨attempt, fun reply => every reply phase later⟩
  skips := fun _ worker _ _ ⟨workers, phase, inside⟩ =>
    ⟨workers, phase, fun other member => inside other (List.mem_cons_of_mem worker member)⟩
  serves := fun _ _ _ _ => trivial
  idle := trivial

def ReachedBy (X : Xxh64) (attempts : List Attempt) (worker : String) : Prop :=
  ∃ attempt ∈ attempts, attempt.worker = worker ∧ attempt.GotThrough X

theorem reached_snoc (X : Xxh64) (attempts : List Attempt) (last : Attempt) (worker : String) :
    ReachedBy X (attempts ++ [last]) worker ↔ ReachedBy X attempts worker ∨
      last.worker = worker ∧ last.GotThrough X := by
  simp [ReachedBy, or_and_right, exists_or]

-- The rows that an upload has created so far, by what has become of its streams.
structure Held (X : Xxh64) (blobHash : String) (workers : List String) (before after : Tables)
    (attempts : List Attempt) : Prop where
  fresh : ∀ worker ∈ workers, before.blobCopy.find? (blobHash, worker) = none
  reserved : ∀ worker ∈ workers, ¬ ReachedBy X attempts worker → Copy .duringCreation after (blobHash, worker)
  saved : ∀ worker ∈ workers, ReachedBy X attempts worker → Copy .saved after (blobHash, worker)
  others : ∀ worker, worker ∉ workers →
    after.blobCopy.find? (blobHash, worker) = before.blobCopy.find? (blobHash, worker)

theorem held_placed (X : Xxh64) {blobHash : String} {size : Int} {workers : List String}
    {before after : Tables} (placed : PlaceOutcome blobHash size before (.ok workers) after) :
    Held X blobHash workers before after [] := by
  have locked := placed_locked placed
  refine ⟨placed_fresh placed, ?_, ?_, ?_⟩
  · intro worker member _
    exact ⟨_, (locked.copies _).trans (if_pos ⟨rfl, member⟩), rfl⟩
  · rintro worker member ⟨attempt, none, -⟩
    cases none
  · intro worker outside
    exact (locked.copies _).trans (if_neg (fun inside => outside inside.2))

-- Whichever way it goes, each of those workers has a row of the blob from then on.
theorem held_taken {X : Xxh64} {blobHash : String} {workers : List String} {before after : Tables}
    {attempts : List Attempt} (held : Held X blobHash workers before after attempts)
    (worker : String) (member : worker ∈ workers) :
    after.blobCopy.find? (blobHash, worker) ≠ none := by
  by_cases reached : ReachedBy X attempts worker
  · obtain ⟨row, there, -⟩ := held.saved worker member reached
    exact there ▸ Option.some_ne_none row
  · obtain ⟨row, there, -⟩ := held.reserved worker member reached
    exact there ▸ Option.some_ne_none row

theorem held_attempt {X : Xxh64} {blobHash : String} {workers : List String}
    {before middle after : Tables} {attempts : List Attempt}
    (held : Held X blobHash workers before middle attempts) (last : Attempt)
    (member : last.worker ∈ workers)
    (through : last.GotThrough X →
      ∃ outcome, NotifyOutcome ⟨last.worker, blobHash⟩ middle outcome after)
    (lost : ¬ last.GotThrough X → after = middle) :
    Held X blobHash workers before after (attempts ++ [last]) := by
  by_cases got : last.GotThrough X
  · obtain ⟨outcome, notified⟩ := through got
    obtain ⟨others, here⟩ := notified_rows notified
    have elsewhere : ∀ worker, worker ≠ last.worker →
        after.blobCopy.find? (blobHash, worker) = middle.blobCopy.find? (blobHash, worker) :=
      fun worker different => others _ (fun same => different (congrArg Prod.snd same))
    have present := held_taken held last.worker member
    refine ⟨held.fresh, ?_, ?_, ?_⟩
    · intro worker inside unreached
      rw [reached_snoc, not_or] at unreached
      have different : worker ≠ last.worker := fun same => unreached.2 ⟨same.symm, got⟩
      obtain ⟨row, there, is⟩ := held.reserved worker inside unreached.1
      exact ⟨row, (elsewhere worker different).trans there, is⟩
    · intro worker inside reached
      by_cases same : worker = last.worker
      · exact same ▸ here present
      · have earlier := ((reached_snoc X attempts last worker).mp reached).resolve_right
          (fun now => same now.1.symm)
        obtain ⟨row, there, is⟩ := held.saved worker inside earlier
        exact ⟨row, (elsewhere worker same).trans there, is⟩
    · intro worker outside
      have different : worker ≠ last.worker := fun same => outside (same ▸ member)
      exact (elsewhere worker different).trans (held.others worker outside)
  · obtain rfl := lost got
    have same : ∀ worker, ReachedBy X (attempts ++ [last]) worker ↔ ReachedBy X attempts worker := by
      intro worker
      rw [reached_snoc]
      exact or_iff_left (fun now => got now.2)
    refine ⟨held.fresh, ?_, ?_, held.others⟩
    · exact fun worker inside unreached =>
        held.reserved worker inside (fun reached => unreached ((same worker).mpr reached))
    · exact fun worker inside reached => held.saved worker inside ((same worker).mp reached)

def Reserving (X : Xxh64) (before : Tables) (state : Cluster × UploadLog) : UploadPhase → Prop
  | .receiving => state.1.tables = before ∧ state.2 = {}
  | .sending blobHash workers => state.2.placed = some (blobHash, workers) ∧
      Held X blobHash workers before state.1.tables state.2.attempts
  | .refused => state.2.placed = none

theorem keeps_reserving (X : Xxh64) (before : Tables) :
    Keeps (watched (noteUpload X) (frontendSem X)) MasterWorks (Reserving X before) uploadContract := by
  rintro call post ⟨cluster, log⟩ phase turn related works met
  have quiet : (frontendSem X call turn cluster).2.tables = cluster.tables →
      noteUpload X call turn cluster log = log →
      Reserving X before (watched (noteUpload X) (frontendSem X) call turn (cluster, log)).2 phase := by
    intro tables same
    show Reserving X before ((frontendSem X call turn cluster).2, noteUpload X call turn cluster log) phase
    rw [same]
    cases phase with
    | receiving => exact ⟨tables.trans related.1, related.2⟩
    | sending blobHash workers => exact ⟨related.1, tables.symm ▸ related.2⟩
    | refused => exact related
  have attempted : ∀ worker sent, (frontendSem X call turn cluster).2.tables =
        (exec clusterSem (saveBlobCall X worker sent) turn cluster).2.2.tables →
      noteUpload X call turn cluster log =
        { log with attempts := log.attempts ++ [⟨worker, sent, turn, cluster.workers worker⟩] } →
      (∃ blobHash workers, phase = .sending blobHash workers ∧ worker ∈ workers ∧ ∀ message ∈ sent,
        message.blobHash = blobHash) →
      Reserving X before (watched (noteUpload X) (frontendSem X) call turn (cluster, log)).2 phase := by
    rintro worker sent tables noted ⟨blobHash, workers, rfl, member, named⟩
    obtain ⟨placed, held⟩ := related
    obtain ⟨through, lost⟩ := attempt_rows X worker blobHash sent named turn works cluster
    rw [← tables] at through lost
    show Reserving X before ((frontendSem X call turn cluster).2,
        noteUpload X call turn cluster log) (.sending blobHash workers)
    rw [noted]
    exact ⟨placed, held_attempt held ⟨worker, sent, turn, cluster.workers worker⟩ member through lost⟩
  cases call with
  | getWorkerWithBlob master blobHash => exact met.elim
  | masterDeleteBlob master blobHash => exact met.elim
  | workerGetBlob worker blobHash => exact met.elim
  | writeToClient chunk => exact met.elim
  | file call => exact ⟨phase, quiet rfl rfl, met _⟩
  | rand => exact ⟨phase, quiet rfl rfl, met _⟩
  | saveBlobWrite worker request => exact ⟨phase, quiet rfl rfl, met _⟩
  | saveBlobFinish worker sent => exact ⟨phase, attempted worker sent rfl rfl met.1, met.2 _⟩
  | saveBlobCancel worker sent =>
      refine ⟨phase, attempted worker sent ?_ rfl met.1, met.2 _⟩
      show (exec clusterSem (saveBlobCall X worker sent >>= fun _ => pure ()) turn cluster).2.2.tables = _
      rw [exec_bind]
      rfl
  | getWorkersToSaveBlob master request =>
      obtain ⟨⟨rfl, -⟩, accepted, refused⟩ := met
      obtain ⟨rfl, rfl⟩ := related
      have answered := wp_sound (fun choice : Choice => DbHealthy choice.db) _ _ turn cluster rfl
        works.1 (wp_answered request cluster)
      cases outcome : (frontendSem X (.getWorkersToSaveBlob master request) turn cluster).1 with
      | error status =>
          refine ⟨.refused, ?_, ?_⟩
          · show (noteUpload X (.getWorkersToSaveBlob master request) turn cluster {}).placed = none
            rw [noteUpload, outcome]
          · simpa only [watched, outcome] using refused status
      | ok workers =>
          refine ⟨.sending request.blobHash workers, ?_, ?_⟩
          · show Reserving X cluster.tables
                ((frontendSem X (.getWorkersToSaveBlob master request) turn cluster).2,
              noteUpload X (.getWorkersToSaveBlob master request) turn cluster {})
                (.sending request.blobHash workers)
            rw [noteUpload, outcome]
            exact ⟨rfl, held_placed X (answered workers outcome)⟩
          · simpa only [watched, outcome] using accepted workers

theorem placed_held (X : Xxh64) (service : FrontendServiceImpl) (messages : List UploadBlobRequest)
    (choices : List (List Choice)) (works : ∀ turn ∈ choices, MasterWorks turn) (cluster : Cluster)
    (blobHash : String) (workers : List String)
    (placed : (uploadRun X service messages choices cluster).2.2.placed = some (blobHash, workers)) :
    Held X blobHash workers cluster.tables (uploadRun X service messages choices cluster).2.1.tables
      (uploadRun X service messages choices cluster).2.2.attempts := by
  have kept := wp_of_meets (keeps_reserving X cluster.tables) _ _ (cluster, {}) .receiving ⟨rfl, rfl⟩
    (upload_meets upload_rules X service messages)
  obtain ⟨phase, reserving, -⟩ := wp_sound MasterWorks _ _ choices (cluster, ({} : UploadLog))
    (show MasterWorks [] from ⟨by simp, by simp⟩) works kept
  cases phase with
  | receiving =>
      have none := congrArg UploadLog.placed reserving.2
      cases none.symm.trans placed
  | refused => cases reserving.symm.trans placed
  | sending hash given =>
      obtain ⟨again, held⟩ := reserving
      obtain ⟨rfl, rfl⟩ := Prod.mk.inj (Option.some.inj (again.symm.trans placed))
      exact held

-- No row is left in creation if every worker that was given got its copy through.
theorem nothing_reserved_iff {X : Xxh64} {blobHash : String} {workers : List String}
    {before after : Tables} {attempts : List Attempt}
    (held : Held X blobHash workers before after attempts) :
    NothingReserved blobHash before after ↔ ∀ worker ∈ workers, ReachedBy X attempts worker := by
  constructor
  · intro nothing worker member
    by_contra unreached
    exact nothing worker (held.fresh worker member) (held.reserved worker member unreached)
  · intro reached worker absent copy
    obtain ⟨row, there, during⟩ := copy
    by_cases member : worker ∈ workers
    · obtain ⟨other, found, saved⟩ := held.saved worker member (reached worker member)
      obtain rfl := Option.some.inj (found.symm.trans there)
      cases saved.symm.trans during
    · cases absent.symm.trans ((held.others worker member).symm.trans there)

end BlobStore
