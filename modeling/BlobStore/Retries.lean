import BlobStore.FailedUploads
import BlobStore.HandlerBounds
import BlobStore.Library.Answers
import BlobStore.MasterPool

set_option autoImplicit false

namespace BlobStore

open Effects FileSystem WorkerService MasterDbRepository FrontendServiceImpl

-- Two clusters that agree on everything a request about one blob can see, but for some
-- workers' copies of it.
structure AlikeBut (blobHash : String) (apart : String → Prop) (one other : Cluster) : Prop where
  workers : other.workers = one.workers
  frontend : other.frontend = one.frontend
  states : other.tables.workerState = one.tables.workerState
  copies : ∀ worker, ¬ apart worker →
    other.tables.blobCopy.find? (blobHash, worker) = one.tables.blobCopy.find? (blobHash, worker)

-- What a request asks about the copies of a blob on its own workers, which are those that
-- it began with and those that the master chooses for it.
def noteChosen : (call : ClusterCall) → ClusterReply call → List String → List String
  | .spanner (.selectWorkers (.withFreeSpace _ _)), .ok rows, own =>
      own ++ rows.map WorkerStateDTO.workerAddress
  | _, _, own => own

def OwnCopies (blobHash : String) : ClusterCall → List String → Prop
  | .spanner (.commit (.insertBlob entry)), own => entry.hash = blobHash ∧ entry.workerAddress ∈ own
  | .spanner (.commit (.updateBlob entry)), own => entry.hash = blobHash ∧ entry.workerAddress ∈ own
  | .spanner (.commit (.updateWorker _)), _ => True
  | .spanner (.selectBlobs (.byHashAndWorker hash worker)), own => hash = blobHash ∧ worker ∈ own
  | .spanner (.selectWorkers _), _ => True
  | .spanner _, _ => False
  | _, _ => True

def copyReplies : (call : ClusterCall) → ClusterReply call → Prop
  | .spanner (.selectBlobs (.byHashAndWorker hash worker)), .ok rows => ∀ row ∈ rows, row.key = (hash, worker)
  | _, _ => True

def copyContract (blobHash : String) : Contract ClusterCall ClusterReply (List String) :=
  noting noteChosen (OwnCopies blobHash) (fun call reply _ => copyReplies call reply)

def copyRows (blobHash : String) : Contract SpannerCall SpannerReply (List String) :=
  fun call => copyContract blobHash (.spanner call)

def copyWorker (blobHash address : String) : Contract WorkerCall WorkerReply (List String) :=
  fun call after => meets (copyContract blobHash) (workerImpl address call) after

section Handlers

variable {blobHash : String} {own : List String} {α : Type}

theorem copies_unary (handler : ClusterM (Except Status α))
    (post : Except Status α → List String → Prop)
    (holds : meets (copyContract blobHash) handler
      (fun outcome after => post outcome after ∧ ∀ message, post (unavailable message) after) own)
    (unheard : ∀ message, post (unavailable message) own) :
    meets (copyContract blobHash) (unary handler) post own :=
  meets_unary noting_monotone (fun _ _ every => ⟨trivial, fun fate _ => every fate⟩)
    handler post own holds unheard

theorem copies_db (program : DbM α) (post : Except Status α → List String → Prop) :
    meets (copyContract blobHash) (dbOnCluster program) post own ↔
      meets (copyRows blobHash) program.run post own :=
  meets_inline spannerCall program.run post own

theorem copies_commit (mutation : Mutation) (mine : OwnCopies blobHash (.spanner (.commit mutation)) own)
    (post : Except Status Unit → List String → Prop) (ends : ∀ outcome, post outcome own) :
    meets (copyRows blobHash) (commit mutation).run post own := by
  rw [commit, meets_run_bind, meets_run_perform]
  constructor
  · exact mine
  · intro reply _
    cases reply <;> exact ends _

theorem copies_reserve (size : Int) (workers : List WorkerStateDTO)
    (mine : ∀ worker ∈ workers, worker.workerAddress ∈ own)
    (post : Except Status (List String) → List String → Prop)
    (placed : post (.ok (workers.map WorkerStateDTO.workerAddress)) own)
    (refused : ∀ status, post (.error status) own) :
    meets (copyRows blobHash) (MasterService.reserveWorkers blobHash size workers).run post own := by
  induction workers generalizing post with
  | nil => exact placed
  | cons worker rest ih =>
      have here : OwnCopies blobHash
          (.spanner (.commit (.insertBlob ⟨blobHash, worker.workerAddress, .duringCreation, size⟩)))
          own :=
        ⟨rfl, mine worker List.mem_cons_self⟩
      rw [MasterService.reserveWorkers, meets_run_bind]
      apply copies_commit _ here
      intro inserted
      cases inserted with
      | error status => exact refused status
      | ok _ =>
          dsimp only
          rw [meets_run_bind]
          apply copies_commit
            (.updateWorker { worker with lockedSpaceMb := size + worker.lockedSpaceMb }) trivial
          intro updated
          cases updated with
          | error status => exact refused status
          | ok _ =>
              dsimp only
              rw [meets_run_bind]
              apply ih
              · exact fun other member => mine other (List.mem_cons_of_mem worker member)
              · exact placed
              · exact refused

theorem copies_place (size : UInt64) :
    meets (copyContract blobHash) (unary (dbOnCluster (MasterService.getWorkersToSaveBlob ⟨blobHash, size⟩)))
      (fun outcome after => ∀ addresses, outcome = .ok addresses → after = addresses) [] := by
  have unheard : ∀ (status : Status) (after addresses : List String),
      (Except.error status : Except Status (List String)) = .ok addresses →
      after = addresses := fun _ _ _ same => by cases same
  apply copies_unary
  · rw [copies_db, MasterService.getWorkersToSaveBlob, getWorkersWithFreeSpace, selectWorkers,
      bind_assoc, bind_assoc, meets_run_bind, meets_run_perform]
    constructor
    · trivial
    · intro found _
      cases found with
      | error message => exact ⟨unheard _ _, fun _ => unheard _ _⟩
      | ok rows =>
          dsimp only [orStatus, noteChosen]
          rw [pure_bind, List.nil_append]
          by_cases few : rows.length < 3
          · rw [if_pos few]
            exact ⟨unheard _ _, fun _ => unheard _ _⟩
          · rw [if_neg few, pure_bind]
            apply copies_reserve
            · exact fun worker member => List.mem_map_of_mem member
            · exact ⟨fun _ same => Except.ok.inj same, fun _ => unheard _ _⟩
            · exact fun _ => ⟨unheard _ _, fun _ => unheard _ _⟩
  · exact fun _ => unheard _ _

theorem copies_notify (worker : String) (mine : worker ∈ own) (post : Except Status Unit → List String → Prop)
    (ends : ∀ outcome, post outcome own) :
    meets (copyContract blobHash)
      (unary (dbOnCluster (MasterService.notifyBlobSaved ⟨worker, blobHash⟩))) post own := by
  have both : ∀ outcome, post outcome own ∧ ∀ message, post (unavailable message) own :=
    fun _ => ⟨ends _, fun _ => ends _⟩
  apply copies_unary
  · rw [copies_db, MasterService.notifyBlobSaved, queryBlobByHashAndWorkerId, selectBlobs,
      bind_assoc, meets_run_bind, meets_run_perform]
    constructor
    · exact ⟨rfl, mine⟩
    · intro found keyed
      cases found with
      | error message => exact both _
      | ok rows =>
          dsimp only [orStatus]
          rw [pure_bind]
          split
          · rename_i row
            obtain ⟨named, there⟩ := Prod.mk.inj (keyed row List.mem_cons_self)
            have here : OwnCopies blobHash
                (.spanner (.commit (.updateBlob { row with state := .saved }))) own :=
              ⟨named, there ▸ mine⟩
            rw [meets_run_bind]
            apply copies_commit _ here
            intro updated
            cases updated with
            | error status => exact both _
            | ok _ =>
                dsimp only
                rw [getWorkerState, selectWorkers, bind_assoc, bind_assoc, meets_run_bind, meets_run_perform]
                constructor
                · trivial
                · intro states _
                  cases states with
                  | error message => exact both _
                  | ok states =>
                      dsimp only [orStatus]
                      rw [pure_bind]
                      cases states with
                      | nil => exact both _
                      | cons state rest =>
                          dsimp only
                          rw [pure_bind]
                          apply copies_commit
                          · trivial
                          · exact both
          · exact both _
  · exact fun _ => ends _

theorem copies_received (X : Xxh64) (address : String) (nonempty : blobHash ≠ "")
    (sent : List SaveBlobRequest) (named : ∀ message ∈ sent, message.blobHash = blobHash) :
    meets (copyWorker blobHash address) (onWorkerFiles (receiveBlobFromFrontend X sent)).run
      (fun outcome after => after = own ∧ ∀ hash, outcome = .ok (.ok hash) → hash = blobHash) own := by
  let bounds : Bounds := ⟨blobHash, fun _ => True, fun _ => True, fun _ => True, True⟩
  have received := @bounded_receive bounds trivial X nonempty sent named
    (fun outcome _ => own = own ∧ ∀ hash, outcome = .ok (.ok hash) → hash = blobHash)
    ⟨rfl, fun _ same => (Except.ok.inj (Except.ok.inj same)).symm⟩
      (fun outcome refused => ⟨rfl, fun hash same => absurd same (refused hash)⟩)
  apply (meets_inline workerFile _ _ own).mpr
  refine meets_unnoted (receiveBlobFromFrontend X sent).run
    (fun outcome after => after = own ∧ ∀ hash, outcome = .ok (.ok hash) → hash = blobHash) own ?_ received
  exact fun call after every => ⟨trivial, fun reply _ => every reply⟩

theorem copies_saved (X : Xxh64) (address : String) (mine : address ∈ own)
    (nonempty : blobHash ≠ "") (sent : List SaveBlobRequest)
    (named : ∀ message ∈ sent, message.blobHash = blobHash)
    (post : Except Status Unit → List String → Prop) (ends : ∀ outcome, post outcome own) :
    meets (copyContract blobHash)
      (workerOnCluster address (WorkerService.saveBlob X address sent)) post own := by
  rw [workerOnCluster, map_eq_pure_bind, meets_bind]
  apply (meets_inline (workerImpl address) _ _ own).mpr
  show meets (copyWorker blobHash address) (WorkerService.saveBlob X address sent).run _ own
  rw [WorkerService.saveBlob, meets_run_bind]
  refine meets_mono ?_ _ _ _ own ?_ (copies_received X address nonempty sent named)
  · exact fun _ _ _ _ weaker holds => meets_mono noting_monotone _ _ _ _ weaker holds
  · intro outcome after both
    obtain ⟨rfl, accepted⟩ := both
    cases outcome with
    | error thrown => exact ends _
    | ok result =>
        cases result with
        | error status => exact ends _
        | ok hash =>
            obtain rfl := accepted hash rfl
            dsimp only
            rw [masterNotifyBlobSaved, meets_run_bind, meets_run_perform]
            apply copies_notify address mine
            intro notified
            cases notified <;> exact ends _

theorem copies_save (X : Xxh64) (address : String) (mine : address ∈ own) (nonempty : blobHash ≠ "")
    (sent : List SaveBlobRequest) (named : ∀ message ∈ sent, message.blobHash = blobHash) :
    meets (copyContract blobHash) (saveBlobCall X address sent) (fun _ after => after = own) own := by
  rw [saveBlobCall, meets_bind, rpcFate, meets_perform]
  constructor
  · trivial
  · intro fate _
    cases fate with
    | delivered => exact copies_saved X address mine nonempty sent named _ (fun _ => rfl)
    | requestLost message => exact (rfl : own = own)
    | replyLost message =>
        dsimp only
        rw [meets_bind]
        exact copies_saved X address mine nonempty sent named _ (fun _ => rfl)
    | cut reached message =>
        dsimp only
        rw [meets_bind]
        exact copies_saved X address mine nonempty _
          (fun message member => named message (List.mem_of_mem_take member)) _ (fun _ => rfl)

end Handlers

section Twins

variable {blobHash : String} {apart : String → Prop} {one other : Cluster}

theorem alike_symm (alike : AlikeBut blobHash apart one other) : AlikeBut blobHash apart other one :=
  ⟨alike.workers.symm, alike.frontend.symm, alike.states.symm,
    fun worker same => (alike.copies worker same).symm⟩

theorem alike_written {entry : BlobCopyDTO} {first second : BlobTable}
    (alike : AlikeBut blobHash apart one other)
    (here : ∀ key, first.find? key = if entry.key = key then some entry
      else one.tables.blobCopy.find? key)
    (there : ∀ key, second.find? key = if entry.key = key then some entry
      else other.tables.blobCopy.find? key) :
    AlikeBut blobHash apart (withTables one { one.tables with blobCopy := first })
      (withTables other { other.tables with blobCopy := second }) where
  workers := alike.workers
  frontend := alike.frontend
  states := alike.states
  copies := by
    intro worker same
    show second.find? (blobHash, worker) = first.find? (blobHash, worker)
    rw [here, there, alike.copies worker same]

-- A commit is refused by both, or it does the same to both.
theorem alike_commit {mutation : Mutation} {own : List String} (alike : AlikeBut blobHash apart one other)
    (mine : OwnCopies blobHash (.spanner (.commit mutation)) own) (clear : ∀ worker ∈ own, ¬ apart worker) :
    mutation.apply one.tables = none ∧ mutation.apply other.tables = none ∨
      ∃ first second, mutation.apply one.tables = some first ∧ mutation.apply other.tables = some second ∧
        AlikeBut blobHash apart (withTables one first) (withTables other second) := by
  have sameKey : ∀ entry : BlobCopyDTO, entry.hash = blobHash → entry.workerAddress ∈ own →
      other.tables.blobCopy.find? entry.key = one.tables.blobCopy.find? entry.key := by
    intro entry named member
    rw [BlobCopyDTO.key, named]
    exact alike.copies entry.workerAddress (clear _ member)
  cases mutation with
  | insertBlob entry =>
      have same := sameKey entry mine.1 mine.2
      rw [Mutation.apply, Mutation.apply]
      cases here : one.tables.blobCopy.insert entry with
      | none =>
          have taken := (one.tables.blobCopy.insert_none_iff entry).mp here
          rw [← same] at taken
          exact .inl ⟨rfl, by rw [(other.tables.blobCopy.insert_none_iff entry).mpr taken]; rfl⟩
      | some first =>
          cases there : other.tables.blobCopy.insert entry with
          | none =>
              have taken := (other.tables.blobCopy.insert_none_iff entry).mp there
              rw [same] at taken
              exact absurd ((one.tables.blobCopy.insert_some_iff first entry).mp here).1 taken
          | some second =>
              exact .inr ⟨_, _, rfl, rfl,
                alike_written alike (Table.find_insert here) (Table.find_insert there)⟩
  | updateBlob entry =>
      have same := sameKey entry mine.1 mine.2
      rw [Mutation.apply, Mutation.apply]
      cases here : one.tables.blobCopy.update entry with
      | none =>
          have missing := (one.tables.blobCopy.update_none_iff entry).mp here
          rw [← same] at missing
          exact .inl ⟨rfl, by rw [(other.tables.blobCopy.update_none_iff entry).mpr missing]; rfl⟩
      | some first =>
          cases there : other.tables.blobCopy.update entry with
          | none =>
              have missing := (other.tables.blobCopy.update_none_iff entry).mp there
              rw [same] at missing
              rw [(one.tables.blobCopy.update_none_iff entry).mpr missing] at here
              cases here
          | some second =>
              exact .inr ⟨_, _, rfl, rfl,
                alike_written alike (Table.find_update here) (Table.find_update there)⟩
  | updateWorker row =>
      rw [Mutation.apply, Mutation.apply, alike.states]
      cases one.tables.workerState.update row with
      | none => exact .inl ⟨rfl, rfl⟩
      | some rows => exact .inr ⟨_, _, rfl, rfl, alike.workers, alike.frontend, rfl, alike.copies⟩
  | deleteBlobsByHash hash => exact mine.elim
  | deleteBlobsByWorker worker => exact mine.elim
  | insertWorker row => exact mine.elim
  | deleteWorker worker => exact mine.elim

theorem alike_rows {call : SpannerCall} {own : List String}
    (alike : AlikeBut blobHash apart one other) (mine : OwnCopies blobHash (.spanner call) own)
    (clear : ∀ worker ∈ own, ¬ apart worker) (choice : DbChoice) :
    (spannerSem call choice other.tables).1 = (spannerSem call choice one.tables).1 ∧
      AlikeBut blobHash apart (withTables one (spannerSem call choice one.tables).2)
        (withTables other (spannerSem call choice other.tables).2) := by
  cases call with
  | commit mutation =>
      rw [spannerSem, spannerSem, commitSem, commitSem]
      cases alike_commit alike mine clear with
      | inl refused =>
          rw [refused.1, refused.2]
          cases choice.fault <;> exact ⟨rfl, alike⟩
      | inr applied =>
          obtain ⟨first, second, here, there, after⟩ := applied
          rw [here, there]
          cases choice.fault with
          | none => exact ⟨rfl, after⟩
          | lost => exact ⟨rfl, alike⟩
          | applied => exact ⟨rfl, after⟩
  | selectWorkers query =>
      rw [(select_tables choice one.tables).2, (select_tables choice other.tables).2,
        spannerSem, spannerSem, alike.states]
      by_cases healthy : choice.fault = .none
      · rw [if_pos healthy, if_pos healthy]
        exact ⟨rfl, alike⟩
      · rw [if_neg healthy, if_neg healthy]
        exact ⟨rfl, alike⟩
  | selectBlobs query =>
      rw [(select_tables choice one.tables).1, (select_tables choice other.tables).1]
      cases query with
      | savedByHash hash => exact mine.elim
      | byHashAndWorker hash worker =>
          obtain ⟨rfl, member⟩ := mine
          by_cases healthy : choice.fault = .none
          · obtain ⟨rows, answered, answers⟩ :=
              select_blobs_answers (.byHashAndWorker hash worker) choice healthy one.tables
            obtain ⟨others, answeredToo, answersToo⟩ :=
              select_blobs_answers (.byHashAndWorker hash worker) choice healthy other.tables
            rw [answered, answeredToo, answer_by_hash_and_worker _ _ _ _ answers,
              answer_by_hash_and_worker _ _ _ _ answersToo,
              alike.copies worker (clear worker member)]
            exact ⟨rfl, alike⟩
          · rw [spannerSem, spannerSem, if_neg healthy, if_neg healthy]
            exact ⟨rfl, alike⟩

theorem alike_call {call : ClusterCall} {own : List String} (alike : AlikeBut blobHash apart one other)
    (mine : OwnCopies blobHash call own) (clear : ∀ worker ∈ own, ¬ apart worker) (choice : Choice) :
    (clusterSem call choice other).1 = (clusterSem call choice one).1 ∧
      AlikeBut blobHash apart (clusterSem call choice one).2 (clusterSem call choice other).2 := by
  cases call with
  | spanner call => exact alike_rows alike mine clear choice.db
  | workerFile address call =>
      rw [clusterSem, clusterSem, alike.workers]
      exact ⟨rfl, rfl, alike.frontend, alike.states, alike.copies⟩
  | frontendFile call =>
      rw [clusterSem, clusterSem, alike.frontend]
      exact ⟨rfl, alike.workers, rfl, alike.states, alike.copies⟩
  | rpc => exact ⟨rfl, alike⟩
  | streamOpen => exact ⟨rfl, alike⟩
  | rand => exact ⟨rfl, alike⟩

theorem copies_replied (call : ClusterCall) (choice : Choice) (cluster : Cluster) :
    copyReplies call (clusterSem call choice cluster).1 := by
  cases call with
  | spanner call =>
      cases call with
      | selectBlobs query =>
          cases query with
          | savedByHash hash => trivial
          | byHashAndWorker hash worker =>
              rw [clusterSem, spannerSem]
              by_cases healthy : choice.db.fault = .none
              · rw [if_pos healthy]
                intro row member
                have selected := (List.mem_filter.mp member).2
                simp only [BlobQuery.selects, decide_eq_true_eq] at selected
                exact Prod.ext selected.1 selected.2
              · rw [if_neg healthy]
                trivial
      | selectWorkers query => trivial
      | commit mutation => trivial
  | workerFile address call => trivial
  | frontendFile call => trivial
  | rpc => trivial
  | streamOpen => trivial
  | rand => trivial

theorem chosen_more (call : ClusterCall) (reply : ClusterReply call) (own : List String) :
    own ⊆ noteChosen call reply own := by
  rw [noteChosen.eq_def]
  split
  · exact List.subset_append_left own _
  · exact List.Subset.refl own

-- A program about its own copies goes the same way on both, unless it was given a worker
-- whose copy they do not agree on.
theorem exec_alike {α : Type} (program : ClusterM α) (post : α → List String → Prop) (own : List String)
    (holds : meets (copyContract blobHash) program post own) (clear : ∀ worker ∈ own, ¬ apart worker)
    (alike : AlikeBut blobHash apart one other) (turn : List Choice) :
    ∃ after, post (exec clusterSem program turn one).1 after ∧ ((∃ worker ∈ after, apart worker) ∨
      (exec clusterSem program turn other).1 = (exec clusterSem program turn one).1 ∧
        AlikeBut blobHash apart (exec clusterSem program turn one).2.2
          (exec clusterSem program turn other).2.2) := by
  have stays : Keeps clusterSem (fun _ => True) (fun _ own => ∃ worker ∈ own, apart worker)
      (copyContract blobHash) := by
    intro call post cluster own choice given _ met
    obtain ⟨worker, member, is⟩ := given
    exact ⟨_, ⟨worker, chosen_more call _ own member, is⟩, met.2 _ (copies_replied call choice cluster)⟩
  have each : ∀ call post (one other : Cluster) own choice, AlikeBut blobHash apart one other ∧
      (∀ worker ∈ own, ¬ apart worker) →
      copyContract blobHash call post own → ∃ after, post (clusterSem call choice one).1 after ∧
        ((∃ worker ∈ after, apart worker) ∨
          (clusterSem call choice other).1 = (clusterSem call choice one).1 ∧
          AlikeBut blobHash apart (clusterSem call choice one).2 (clusterSem call choice other).2 ∧
            ∀ worker ∈ after, ¬ apart worker) := by
    intro call post one other own choice now met
    obtain ⟨same, after⟩ := alike_call now.1 met.1 now.2 choice
    refine ⟨_, met.2 _ (copies_replied call choice one), ?_⟩
    by_cases given : ∃ worker ∈ noteChosen call (clusterSem call choice one).1 own, apart worker
    · exact .inl given
    · exact .inr ⟨same, after, fun worker member is => given ⟨worker, member, is⟩⟩
  obtain ⟨after, ended, outcome⟩ :=
    exec_unless _ _ each stays program post turn one other own ⟨alike, clear⟩ holds
  exact ⟨after, ended, outcome.imp_right (fun both => ⟨both.1, both.2.1⟩)⟩

theorem frontend_alike {X : Xxh64} (call : FrontendCall) (own : List String)
    (holds : meets (copyContract blobHash) (frontendImpl X call) (fun _ after => after = own) own)
    (clear : ∀ worker ∈ own, ¬ apart worker) (alike : AlikeBut blobHash apart one other)
    (turn : List Choice) :
    (frontendSem X call turn other).1 = (frontendSem X call turn one).1 ∧
      AlikeBut blobHash apart (frontendSem X call turn one).2 (frontendSem X call turn other).2 := by
  obtain ⟨after, rfl, outcome⟩ := exec_alike (frontendImpl X call) _ own holds clear alike turn
  apply outcome.resolve_left
  intro given
  obtain ⟨worker, member, is⟩ := given
  exact clear worker member is

end Twins

section Uploads

variable {X : Xxh64} {blobHash : String} {apart : String → Prop}

def UploadPhase.given : UploadPhase → Option (String × List String)
  | .sending blobHash workers => some (blobHash, workers)
  | _ => none

-- The upload serves the blob on workers of which nothing else is known to the twin.
def UploadPhase.Clear (blobHash : String) (apart : String → Prop) : UploadPhase → Prop
  | .receiving => True
  | .sending hash workers => hash = blobHash ∧ OrdinaryName blobHash ∧ ∀ worker ∈ workers, ¬ apart worker
  | .refused => False

structure Twins (blobHash : String) (apart : String → Prop) (one other : Cluster × UploadLog)
    (phase : UploadPhase) : Prop where
  alike : AlikeBut blobHash apart one.1 other.1
  placed : one.2.placed = phase.given
  same : other.2.placed = one.2.placed
  clear : phase.Clear blobHash apart

-- Refused, or with a worker or a blob that the twins may not agree on.
structure Parted (blobHash : String) (apart : String → Prop) (one : Cluster × UploadLog)
    (phase : UploadPhase) : Prop where
  placed : one.2.placed = phase.given
  begun : phase ≠ .receiving
  unclear : ∀ workers, phase = .sending blobHash workers → ∃ worker ∈ workers, apart worker

theorem note_keeps_placed (X : Xxh64) (call : FrontendCall)
    (places : ∀ master request, call ≠ .getWorkersToSaveBlob master request) (turn : List Choice)
    (cluster : Cluster) (log : UploadLog) :
    (noteUpload X call turn cluster log).placed = log.placed := by
  cases call with
  | getWorkersToSaveBlob master request => exact absurd rfl (places master request)
  | _ => rfl

theorem parted_stays (X : Xxh64) : Keeps (watched (noteUpload X) (frontendSem X)) (fun _ => True)
      (Parted blobHash apart) uploadContract := by
  intro call post state phase turn now _ met
  obtain ⟨cluster, log⟩ := state
  have quiet : (∀ master request, call ≠ .getWorkersToSaveBlob master request) →
      Parted blobHash apart (watched (noteUpload X) (frontendSem X) call turn (cluster, log)).2 phase :=
    fun places => ⟨(note_keeps_placed X call places turn cluster log).trans now.placed,
      now.begun, now.unclear⟩
  cases call with
  | getWorkersToSaveBlob master request => exact absurd met.1.1 now.begun
  | getWorkerWithBlob master hash => exact met.elim
  | masterDeleteBlob master hash => exact met.elim
  | workerGetBlob worker hash => exact met.elim
  | writeToClient chunk => exact met.elim
  | file call => exact ⟨phase, quiet (fun _ _ => by simp), met _⟩
  | rand => exact ⟨phase, quiet (fun _ _ => by simp), met _⟩
  | saveBlobWrite worker request => exact ⟨phase, quiet (fun _ _ => by simp), met _⟩
  | saveBlobFinish worker sent => exact ⟨phase, quiet (fun _ _ => by simp), met.2 _⟩
  | saveBlobCancel worker sent => exact ⟨phase, quiet (fun _ _ => by simp), met.2 _⟩

theorem twins_quiet {call : FrontendCall} {turn : List Choice} {one other : Cluster × UploadLog}
    {phase : UploadPhase} (own : List String) (now : Twins blobHash apart one other phase)
    (places : ∀ master request, call ≠ .getWorkersToSaveBlob master request)
    (clear : ∀ worker ∈ own, ¬ apart worker)
    (holds : meets (copyContract blobHash) (frontendImpl X call) (fun _ after => after = own) own) :
    let first := watched (noteUpload X) (frontendSem X) call turn one
    let second := watched (noteUpload X) (frontendSem X) call turn other
    second.1 = first.1 ∧ Twins blobHash apart first.2 second.2 phase := by
  obtain ⟨reply, alike⟩ := frontend_alike call own holds clear now.alike turn
  refine ⟨reply, alike, ?_, ?_, now.clear⟩
  · exact (note_keeps_placed X call places turn one.1 one.2).trans now.placed
  · exact (note_keeps_placed X call places turn other.1 other.2).trans
      (now.same.trans (note_keeps_placed X call places turn one.1 one.2).symm)

theorem placed_noted (master : String) (request : GetWorkersToSaveBlobRequest) (turn : List Choice)
    (state : Cluster × UploadLog) {workers : List String}
    (placed : (frontendSem X (.getWorkersToSaveBlob master request) turn state.1).1 = .ok workers) :
    (noteUpload X (.getWorkersToSaveBlob master request) turn state.1 state.2).placed =
      some (request.blobHash, workers) := by
  rw [noteUpload, placed]

theorem refused_noted (master : String) (request : GetWorkersToSaveBlobRequest) (turn : List Choice)
    (state : Cluster × UploadLog) {status : Status}
    (refused : (frontendSem X (.getWorkersToSaveBlob master request) turn state.1).1 =
      .error status) :
    (noteUpload X (.getWorkersToSaveBlob master request) turn state.1 state.2).placed = state.2.placed := by
  rw [noteUpload, refused]

-- The master gives both the same workers, or the first is refused, or it is given one on
-- which the twin may know of a copy.
theorem twins_placed (master : String) (request : GetWorkersToSaveBlobRequest)
    (ordinary : OrdinaryName request.blobHash) (turn : List Choice)
    (one other : Cluster × UploadLog) (now : Twins blobHash apart one other .receiving)
    (post : Except Status (List String) → UploadPhase → Prop)
    (accepted : ∀ workers, post (.ok workers) (.sending request.blobHash workers))
    (refused : ∀ status, post (.error status) .refused) :
    let first := watched (noteUpload X) (frontendSem X) (.getWorkersToSaveBlob master request) turn one
    let second := watched (noteUpload X) (frontendSem X) (.getWorkersToSaveBlob master request) turn other
    ∃ after, post first.1 after ∧
        (Parted blobHash apart first.2 after ∨ second.1 = first.1 ∧
          Twins blobHash apart first.2 second.2 after) := by
  intro first second
  cases reply : (frontendSem X (.getWorkersToSaveBlob master request) turn one.1).1 with
  | error status =>
      have answered : first.1 = .error status := reply
      refine ⟨.refused, answered ▸ refused status, .inl ⟨?_, by simp, fun _ same => by cases same⟩⟩
      exact (refused_noted master request turn one reply).trans now.placed
  | ok workers =>
      have answered : first.1 = .ok workers := reply
      have noted : first.2.2.placed = some (request.blobHash, workers) :=
        placed_noted master request turn one reply
      refine ⟨.sending request.blobHash workers, answered ▸ accepted workers, ?_⟩
      by_cases own : request.blobHash = blobHash
      · obtain ⟨hash, size⟩ := request
        obtain rfl : hash = blobHash := own
        obtain ⟨after, chosen, outcome⟩ :=
          exec_alike _ _ [] (copies_place size) (fun _ member => by cases member) now.alike turn
        obtain rfl := chosen workers reply
        have parts : (∃ worker ∈ after, apart worker) → Parted hash apart first.2 (.sending hash after) := by
          intro given
          refine ⟨noted, by simp, ?_⟩
          intro others same
          obtain ⟨-, rfl⟩ := UploadPhase.sending.inj same
          exact given
        cases outcome with
        | inl given => exact .inl (parts given)
        | inr both =>
            by_cases given : ∃ worker ∈ after, apart worker
            · exact .inl (parts given)
            · have replied : (frontendSem X (.getWorkersToSaveBlob master ⟨hash, size⟩) turn
                  other.1).1 = .ok after := both.1.trans reply
              have alsoNoted : second.2.2.placed = some (hash, after) :=
                placed_noted master _ turn other replied
              refine .inr ⟨both.1, both.2, noted, alsoNoted.trans noted.symm, rfl, ordinary, ?_⟩
              exact fun worker member is => given ⟨worker, member, is⟩
      · refine .inl ⟨noted, by simp, ?_⟩
        intro others same
        exact absurd (UploadPhase.sending.inj same).1 own

theorem twins_step (call : FrontendCall) (post : FrontendReply call → UploadPhase → Prop)
    (one other : Cluster × UploadLog) (phase : UploadPhase) (turn : List Choice)
    (now : Twins blobHash apart one other phase) (met : uploadContract call post phase) :
    let first := watched (noteUpload X) (frontendSem X) call turn one
    let second := watched (noteUpload X) (frontendSem X) call turn other
    ∃ after, post first.1 after ∧
        (Parted blobHash apart first.2 after ∨ second.1 = first.1 ∧
          Twins blobHash apart first.2 second.2 after) := by
  intro first second
  have nobody : ∀ worker ∈ ([] : List String), ¬ apart worker := fun _ member => by cases member
  have sends : ∀ worker sent,
      (∃ hash workers, phase = .sending hash workers ∧ worker ∈ workers ∧
        ∀ message ∈ sent, message.blobHash = hash) →
      (∀ own ∈ [worker], ¬ apart own) ∧ meets (copyContract blobHash) (saveBlobCall X worker sent)
        (fun _ after => after = [worker]) [worker] := by
    intro worker sent attempt
    obtain ⟨hash, workers, rfl, member, named⟩ := attempt
    obtain ⟨rfl, ordinary, clear⟩ := now.clear
    exact ⟨fun own is => List.mem_singleton.mp is ▸ clear worker member,
      copies_save X worker (List.mem_singleton_self worker) ordinary.1 sent named⟩
  cases call with
  | getWorkerWithBlob master hash => exact met.elim
  | masterDeleteBlob master hash => exact met.elim
  | workerGetBlob worker hash => exact met.elim
  | writeToClient chunk => exact met.elim
  | getWorkersToSaveBlob master request =>
      obtain ⟨⟨rfl, ordinary⟩, accepted, refused⟩ := met
      exact twins_placed master request ordinary turn one other now post accepted refused
  | file call =>
      exact ⟨phase, met _, .inr (twins_quiet [] now (fun _ _ => by simp) nobody ⟨trivial, fun _ _ => rfl⟩)⟩
  | rand =>
      exact ⟨phase, met _, .inr (twins_quiet [] now (fun _ _ => by simp) nobody ⟨trivial, fun _ _ => rfl⟩)⟩
  | saveBlobWrite worker request =>
      exact ⟨phase, met _, .inr (twins_quiet [] now (fun _ _ => by simp) nobody ⟨trivial, fun _ _ => rfl⟩)⟩
  | saveBlobFinish worker sent =>
      obtain ⟨clear, saves⟩ := sends worker sent met.1
      exact ⟨phase, met.2 _, .inr (twins_quiet [worker] now (fun _ _ => by simp) clear saves)⟩
  | saveBlobCancel worker sent =>
      obtain ⟨clear, saves⟩ := sends worker sent met.1
      have cancels : meets (copyContract blobHash) (frontendImpl X (.saveBlobCancel worker sent))
          (fun _ after => after = [worker]) [worker] :=
        (meets_bind _ _ _ _).mpr saves
      exact ⟨phase, met.2 _, .inr (twins_quiet [worker] now (fun _ _ => by simp) clear cancels)⟩

-- An upload that stores the blob where nothing is known of it stores it on the twin too.
theorem twin_stores (service : FrontendServiceImpl) (messages : List UploadBlobRequest)
    (choices : List (List Choice)) {one other : Cluster} (alike : AlikeBut blobHash apart one other)
    (stored : (uploadRun X service messages choices one).1 = .ok (.ok blobHash)) :
    ∃ workers, (uploadRun X service messages choices one).2.2.placed = some (blobHash, workers) ∧
      ((∃ worker ∈ workers, apart worker) ∨
        (uploadRun X service messages choices other).1 = .ok (.ok blobHash) ∧
        (uploadRun X service messages choices other).2.2.placed = some (blobHash, workers)) := by
  have served : meets uploadContract (service.uploadBlob X messages).run
      (fun outcome phase => outcome = .ok (.ok blobHash) →
        ∃ workers, phase = .sending blobHash workers) .receiving := by
    apply upload_ends upload_rules
    · exact fun outcome _ unstored _ same => absurd same (unstored blobHash)
    · intro told rest phase sending same
      obtain rfl := Except.ok.inj (Except.ok.inj same)
      obtain ⟨workers, is, -⟩ := sending
      exact ⟨workers, is⟩
  obtain ⟨phase, ended, outcome⟩ := exec_unless (Twins blobHash apart) (Parted blobHash apart)
    twins_step (parted_stays X) _ _ choices
    (one, {}) (other, {}) .receiving ⟨alike, rfl, rfl, trivial⟩ served
  obtain ⟨workers, rfl⟩ := ended stored
  cases outcome with
  | inl parted => exact ⟨workers, parted.placed, .inl (parted.unclear workers rfl)⟩
  | inr twins =>
      exact ⟨workers, twins.2.placed, .inr ⟨twins.1.trans stored, twins.2.same.trans twins.2.placed⟩⟩

end Uploads

-- The cluster as an upload has left it, but for the rows that the upload has created.
def withCopiesOf (before after : Cluster) : Cluster :=
  { after with tables := { after.tables with blobCopy := before.tables.blobCopy } }

-- An upload has left nothing in creation, and a later upload of the blob that would be
-- stored if none of its rows were there is stored all the same: that is so if and only if
-- every worker it was given has saved the blob and the later one is given none of them.
theorem upload_leaves_nothing_iff (X : Xxh64) (service : FrontendServiceImpl)
    (messages : List UploadBlobRequest) (choices : List (List Choice))
    (works : ∀ turn ∈ choices, MasterWorks turn) (cluster : Cluster) (blobHash : String)
    (workers : List String)
    (placed : (uploadRun X service messages choices cluster).2.2.placed = some (blobHash, workers))
    (again : FrontendServiceImpl) (resent : List UploadBlobRequest) (retry : List (List Choice))
    (working : ∀ turn ∈ retry, MasterWorks turn) (given : List String)
    (otherwise : (uploadRun X again resent retry
      (withCopiesOf cluster (uploadRun X service messages choices cluster).2.1)).1 =
      .ok (.ok blobHash))
    (chosen : (uploadRun X again resent retry
      (withCopiesOf cluster (uploadRun X service messages choices cluster).2.1)).2.2.placed =
      some (blobHash, given)) :
    let left := (uploadRun X service messages choices cluster).2.1
    (NothingReserved blobHash cluster.tables left.tables ∧
      (uploadRun X again resent retry left).1 = .ok (.ok blobHash)) ↔
      (∀ worker ∈ workers, ReachedBy X (uploadRun X service messages choices cluster).2.2.attempts
        worker) ∧ ∀ worker ∈ given, worker ∉ workers := by
  intro left
  have held := placed_held X service messages choices works cluster blobHash workers placed
  have alike : AlikeBut blobHash (· ∈ workers) (withCopiesOf cluster left) left :=
    ⟨rfl, rfl, rfl, held.others⟩
  apply and_congr (nothing_reserved_iff held)
  constructor
  · intro stored
    obtain ⟨others, placedAgain, outcome⟩ := twin_stores again resent retry (alike_symm alike) stored
    have fresh := (placed_held X again resent retry working left blobHash others placedAgain).fresh
    cases outcome with
    | inl taken =>
        obtain ⟨worker, member, is⟩ := taken
        exact absurd (fresh worker member) (held_taken held worker is)
    | inr twin =>
        obtain ⟨-, rfl⟩ := Prod.mk.inj (Option.some.inj (chosen.symm.trans twin.2))
        exact fun worker member is => held_taken held worker is (fresh worker member)
  · intro free
    obtain ⟨others, placedAgain, outcome⟩ := twin_stores again resent retry alike otherwise
    obtain ⟨-, rfl⟩ := Prod.mk.inj (Option.some.inj (chosen.symm.trans placedAgain))
    cases outcome with
    | inl taken =>
        obtain ⟨worker, member, is⟩ := taken
        exact absurd is (free worker member)
    | inr twin => exact twin.1

-- The four calls of each stream come after the five that receive the blob and reserve its rows.
def failingAt (earlier : Nat) (fate : RpcFate) : List (List Choice) :=
  List.replicate (5 + 4 * earlier + 3) [] ++ [[{ fate := fate }]]

theorem failing_at_works (earlier : Nat) (fate : RpcFate) :
    ∀ turn ∈ failingAt earlier fate, MasterWorks turn := by
  intro turn member
  cases List.mem_append.mp member with
  | inl quiet =>
      rw [(List.mem_replicate.mp quiet).2]
      exact ⟨by simp, by simp⟩
  | inr failing =>
      rw [List.mem_singleton.mp failing]
      exact ⟨by simp [DbHealthy], by simp⟩

def uploadOfA : List UploadBlobRequest := [.info 1, .chunkData [97]]

def sixFreshWorkers : Cluster :=
  { threeFreshWorkers with
    tables := ⟨Table.empty,
      ⟨(["worker-0", "worker-1", "worker-2", "worker-3", "worker-4", "worker-5"]).map
        (fun worker => ⟨worker, 5, 0, 0⟩), by decide⟩⟩ }

-- The database lists the workers from the other end.
def listedBackwards : List (List Choice) :=
  List.replicate 4 [] ++ [[default, { db := { workerOrder := ⟨List.reverse, List.reverse_perm⟩ } }]]

theorem listed_backwards_works : ∀ turn ∈ listedBackwards, MasterWorks turn := by
  intro turn member
  cases List.mem_append.mp member with
  | inl quiet =>
      rw [(List.mem_replicate.mp quiet).2]
      exact ⟨by simp, by simp⟩
  | inr placing =>
      rw [List.mem_singleton.mp placing]
      exact ⟨by simp [DbHealthy, default], by simp⟩

-- Every worker has the blob, only the last answer is lost; the retry goes to the others.
theorem upload_leaves_nothing_iff_run :
    let run := uploadRun referenceXxh64 oneMaster uploadOfA
      (failingAt 2 (.replyLost "Socket closed")) sixFreshWorkers
    let retry := uploadRun referenceXxh64 oneMaster uploadOfA listedBackwards run.2.1
    (run.1 = .ok (.error ⟨.cancelled, "Socket closed"⟩) ∧
      retry.2.2.placed = some ("15154266338359012955", ["worker-5", "worker-4", "worker-3"])) ∧
      ((NothingReserved "15154266338359012955" sixFreshWorkers.tables run.2.1.tables ∧
        retry.1 = .ok (.ok "15154266338359012955")) ↔
        (∀ worker ∈ ["worker-0", "worker-1", "worker-2"], ReachedBy referenceXxh64 run.2.2.attempts worker) ∧
          ∀ worker ∈ ["worker-5", "worker-4", "worker-3"], worker ∉ ["worker-0", "worker-1", "worker-2"]) :=
  ⟨by decide +kernel, upload_leaves_nothing_iff referenceXxh64 oneMaster uploadOfA _
    (failing_at_works 2 _) sixFreshWorkers _
    ["worker-0", "worker-1", "worker-2"] (by decide +kernel) oneMaster uploadOfA
      listedBackwards listed_backwards_works
    ["worker-5", "worker-4", "worker-3"] (by decide +kernel) (by decide +kernel)⟩

-- The first worker cannot be reached: all three rows stay, and the same upload is refused,
-- which would be stored without them.
theorem failed_upload_blocks_retry :
    let run := uploadRun referenceXxh64 oneMaster uploadOfA
      (failingAt 0 (.requestLost "connection refused")) threeFreshWorkers
    let retry := uploadRun referenceXxh64 oneMaster uploadOfA [] run.2.1
    (run.1 = .ok (.error ⟨.cancelled, "connection refused"⟩) ∧
      run.2.2.placed = some ("15154266338359012955", ["worker-0", "worker-1", "worker-2"])) ∧
      ¬ NothingReserved "15154266338359012955" threeFreshWorkers.tables run.2.1.tables ∧
      (retry.1 = .ok (.error ⟨.cancelled, ""⟩) ∧ retry.2.2.placed = none) ∧
      (uploadRun referenceXxh64 oneMaster uploadOfA [] (withCopiesOf threeFreshWorkers run.2.1)).1 =
        .ok (.ok "15154266338359012955") := by
  intro run retry
  have held : (run.2.1.tables.blobCopy.find? ("15154266338359012955", "worker-0")).map
      BlobCopyDTO.state = some .duringCreation := by
    decide +kernel
  refine ⟨by decide +kernel, ?_, by decide +kernel⟩
  intro nothing
  obtain ⟨row, there, during⟩ := Option.map_eq_some_iff.mp held
  exact nothing "worker-0" (by decide +kernel) ⟨row, there, during⟩

end BlobStore
