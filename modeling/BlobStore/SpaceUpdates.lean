import BlobStore.RowLifeCycle
import Mathlib.Algebra.BigOperators.Group.Finset.Basic
import Mathlib.Algebra.Ring.Prod
import Mathlib.Tactic.LinearCombination

set_option autoImplicit false

namespace BlobStore

open Effects MasterDbRepository MasterService

abbrev Space := Int × Int

def WorkerStateDTO.space (row : WorkerStateDTO) : Space := (row.availableSpaceMb, row.lockedSpaceMb)

def spaceOf (tables : Tables) (address : String) : Space :=
  match tables.workerState.find? address with
  | some row => row.space
  | none => 0

-- The sizes of copies that were reserved on a worker, and of those whose creation a
-- notification ended, by one commit.
def reservedSize (address : String) : Event MasterCall MasterReply → Int
  | ⟨.spanner (.commit (.insertBlob entry)), .ok _⟩ =>
      if entry.workerAddress = address then entry.sizeMb else 0
  | _ => 0

def releasedSize (address : String) : Event MasterCall MasterReply → Int
  | ⟨.spanner (.commit (.updateBlob entry)), .ok _⟩ =>
      if entry.workerAddress = address then entry.sizeMb else 0
  | _ => 0

def obligation (address : String) (event : Event MasterCall MasterReply) : Space :=
  (-releasedSize address event, reservedSize address event - releasedSize address event)

-- One call as its own commits and reads show it: the rows it last read, and what
-- it has yet to do to each row.
structure CallNotes where
  read : String → Option WorkerStateDTO
  owes : String → Space

namespace CallNotes

def start : CallNotes := ⟨fun _ => none, fun _ => 0⟩

def readSpace (notes : CallNotes) (address : String) : Space :=
  match notes.read address with
  | some row => row.space
  | none => 0

def readRows (notes : CallNotes) (rows : List WorkerStateDTO) : CallNotes :=
  { notes with read := fun address =>
      match rows.find? (fun row => row.workerAddress = address) with
      | some row => some row
      | none => notes.read address }

def settle (notes : CallNotes) (row : WorkerStateDTO) : CallNotes :=
  { notes with owes := fun address =>
      if row.workerAddress = address then notes.owes address - (row.space - notes.readSpace address)
        else notes.owes address }

def note : (call : MasterCall) → MasterReply call → CallNotes → CallNotes
  | .spanner (.selectWorkers _), .ok rows, notes => notes.readRows rows
  | .spanner (.commit (.updateWorker row)), .ok _, notes => notes.settle row
  | call, reply, notes =>
      { notes with owes := fun address => notes.owes address + obligation address ⟨call, reply⟩ }

end CallNotes

-- Replies of a database that does not fail, with a fixed set of registered workers.
structure Credible (registered : String → Prop)
    (replies : (call : SpannerCall) → SpannerReply call) : Prop where
  blobs : ∀ hash address, ∃ rows, replies (.selectBlobs (.byHashAndWorker hash address)) = .ok rows ∧
    ∀ row ∈ rows, row.workerAddress = address
  workers : ∀ query, ∃ rows, replies (.selectWorkers query) = .ok rows ∧
    (∀ row ∈ rows, registered row.workerAddress) ∧
    (rows.map WorkerStateDTO.workerAddress).Nodup
  byAddress : ∀ address rows, replies (.selectWorkers (.byAddress address)) = .ok rows →
    (registered address → rows ≠ []) ∧ ∀ row ∈ rows, row.workerAddress = address
  updates : ∀ row, registered row.workerAddress → replies (.commit (.updateWorker row)) = .ok ()

def Settled (registered : String → Prop) (notes : CallNotes) : Prop :=
  ∀ address, registered address → notes.owes address = 0

section Calls

variable {registered : String → Prop} {ok : ((call : SpannerCall) → SpannerReply call) → Prop}

abbrev noteSpanner (call : SpannerCall) (reply : SpannerReply call) (notes : CallNotes) : CallNotes :=
  CallNotes.note (.spanner call) reply notes

theorem reserve_settled (credible : ∀ replies, ok replies → Credible registered replies)
    (blobHash : String) (size : Int) (workers : List WorkerStateDTO) (notes : CallNotes)
    (settled : Settled registered notes)
    (known : ∀ row ∈ workers, registered row.workerAddress ∧
      notes.read row.workerAddress = some row) :
    wp (alone noteSpanner) ok (reserveWorkers blobHash size workers).run
      (fun _ after => Settled registered after) notes := by
  induction workers generalizing notes with
  | nil => exact settled
  | cons worker rest ih =>
      obtain ⟨member, read⟩ := known worker (by simp)
      rw [reserveWorkers, wp_run_bind]
      refine alone_commit _ _ _ ?_ ?_
      · dsimp only
        rw [wp_run_bind]
        refine alone_commit _ _ _ ?_ ?_
        · refine wp_run_map _ _ _ _ (ih _ ?_ ?_)
          · intro address there
            have before := settled address there
            by_cases same : worker.workerAddress = address
            · subst same
              simp [noteSpanner, CallNotes.note, CallNotes.settle, obligation, reservedSize,
                releasedSize, CallNotes.readSpace, read, WorkerStateDTO.space, before]
            · simp [noteSpanner, CallNotes.note, CallNotes.settle, obligation,
                reservedSize, releasedSize, same, before]
          · intro row later
            exact known row (by simp [later])
        · intro replies message allowed refused
          have accepted := (credible replies allowed).updates
            { worker with lockedSpaceMb := size + worker.lockedSpaceMb } member
          rw [accepted] at refused
          cases refused
      · intro replies message _ _ address there
        simpa [noteSpanner, CallNotes.note, obligation, reservedSize, releasedSize,
          Prod.mk_zero_zero] using settled address there

theorem read_rows_known (notes : CallNotes) (rows : List WorkerStateDTO)
    (distinct : (rows.map WorkerStateDTO.workerAddress).Nodup) (row : WorkerStateDTO)
    (member : row ∈ rows) : (notes.readRows rows).read row.workerAddress = some row := by
  have found := (Table.find_self (⟨rows, distinct⟩ : WorkerTable) row member)
  simp only [CallNotes.readRows]
  rw [show rows.find? (fun other => other.workerAddress = row.workerAddress) = some row from found]

theorem place_settled (credible : ∀ replies, ok replies → Credible registered replies)
    (request : GetWorkersToSaveBlobRequest) (notes : CallNotes) (settled : Settled registered notes) :
    wp (alone noteSpanner) ok (MasterService.getWorkersToSaveBlob request).run
      (fun _ after => Settled registered after) notes := by
  rw [MasterService.getWorkersToSaveBlob, wp_run_bind, getWorkersWithFreeSpace, wp_run_bind]
  refine alone_select_workers _ _ _ ?_ ?_
  · intro replies rows allowed answered
    obtain ⟨answer, answers, there, distinct⟩ :=
      (credible replies allowed).workers (.withFreeSpace (toInt64 request.sizeMb) 3)
    obtain rfl : answer = rows := Except.ok.inj (answers.symm.trans answered)
    dsimp only
    split
    · exact settled
    · refine (wp_run_pure answer _ _).mpr (reserve_settled credible _ _ _ _ settled ?_)
      exact fun row member => ⟨there row member, read_rows_known notes answer distinct row member⟩
  · intro replies message allowed failed
    obtain ⟨answer, answers, -⟩ :=
      (credible replies allowed).workers (.withFreeSpace (toInt64 request.sizeMb) 3)
    rw [answers] at failed
    cases failed

-- The second half of a notification: the copy is marked, the worker's row is not
-- written yet.
theorem settle_worker (credible : ∀ replies, ok replies → Credible registered replies)
    (request : NotifyBlobSavedRequest) (blob : BlobCopyDTO)
    (mine : blob.workerAddress = request.workerAddress) (notes : CallNotes)
    (settled : Settled registered notes) :
    wp (alone noteSpanner) ok
      (ExceptT.run (do
        let workerState ← getWorkerState request.workerAddress
        updateWorkerState { workerState with
          lockedSpaceMb := workerState.lockedSpaceMb - blob.sizeMb
          availableSpaceMb := workerState.availableSpaceMb - blob.sizeMb }))
      (fun _ after => Settled registered after)
      (noteSpanner (.commit (.updateBlob { blob with state := .saved })) (.ok ()) notes) := by
  rw [wp_run_bind, getWorkerState, wp_run_bind]
  refine alone_select_workers _ _ _ ?_ ?_
  · intro replies rows allowed answered
    obtain ⟨answer, answers, there, distinct⟩ :=
      (credible replies allowed).workers (.byAddress request.workerAddress)
    obtain rfl : answer = rows := Except.ok.inj (answers.symm.trans answered)
    obtain ⟨nonempty, keyed⟩ := (credible replies allowed).byAddress request.workerAddress answer answers
    cases answer with
    | nil =>
        intro address member
        have different : blob.workerAddress ≠ address :=
          fun same => nonempty (mine ▸ same ▸ member) rfl
        simpa [noteSpanner, CallNotes.note, CallNotes.readRows, obligation,
          reservedSize, releasedSize, different, Prod.mk_zero_zero] using settled address member
    | cons row others =>
        have key : row.workerAddress = request.workerAddress := keyed row (by simp)
        refine alone_commit _ _ _ ?_ ?_
        · intro address member
          have before := settled address member
          by_cases same : blob.workerAddress = address
          · have here : row.workerAddress = address := key.trans (mine.symm.trans same)
            simp [noteSpanner, CallNotes.note, CallNotes.settle, CallNotes.readRows,
              CallNotes.readSpace, obligation,
              reservedSize, releasedSize, WorkerStateDTO.space, same, here, before]
          · have there : row.workerAddress ≠ address := fun equal => same (mine.trans (key.symm.trans equal))
            simp [noteSpanner, CallNotes.note, CallNotes.settle, CallNotes.readRows,
              obligation, reservedSize, releasedSize, same, there, before]
        · intro replies message allowed refused
          have accepted := (credible replies allowed).updates
            { row with
              lockedSpaceMb := row.lockedSpaceMb - blob.sizeMb,
              availableSpaceMb := row.availableSpaceMb - blob.sizeMb }
            (there row (by simp))
          rw [accepted] at refused
          cases refused
  · intro replies message allowed failed
    obtain ⟨answer, answers, -⟩ := (credible replies allowed).workers (.byAddress request.workerAddress)
    rw [answers] at failed
    cases failed

theorem notify_settled (credible : ∀ replies, ok replies → Credible registered replies)
    (request : NotifyBlobSavedRequest) (notes : CallNotes) (settled : Settled registered notes) :
    wp (alone noteSpanner) ok (MasterService.notifyBlobSaved request).run
      (fun _ after => Settled registered after) notes := by
  rw [MasterService.notifyBlobSaved, wp_run_bind]
  refine alone_select_blobs _ _ _ ?_ ?_
  · intro replies blobs allowed answered
    obtain ⟨answer, answers, onWorker⟩ :=
      (credible replies allowed).blobs request.blobHash request.workerAddress
    obtain rfl : answer = blobs := Except.ok.inj (answers.symm.trans answered)
    have asked : Settled registered
        (noteSpanner (.selectBlobs (.byHashAndWorker request.blobHash request.workerAddress))
        (.ok answer) notes) := by
      intro address there
      simpa [noteSpanner, CallNotes.note, obligation, reservedSize, releasedSize, Prod.mk_zero_zero]
        using settled address there
    cases answer with
    | nil => exact asked
    | cons blob others =>
        cases others with
        | cons second more => exact asked
        | nil =>
            have mine : blob.workerAddress = request.workerAddress := onWorker blob (by simp)
            dsimp only
            rw [wp_run_bind]
            refine alone_commit _ _ _ ?_ ?_
            · exact settle_worker credible request blob mine _ asked
            · intro _ message _ _ address there
              simpa [noteSpanner, CallNotes.note, obligation, reservedSize, releasedSize,
                Prod.mk_zero_zero] using asked address there
  · intro replies message allowed failed
    obtain ⟨answer, answers, -⟩ := (credible replies allowed).blobs request.blobHash request.workerAddress
    rw [answers] at failed
    cases failed

end Calls

def MasterOp.ReservesOrNotifies : MasterOp → Prop
  | .getWorkersToSaveBlob _ => True
  | .notifyBlobSaved _ => True
  | _ => False

theorem op_settled {registered : String → Prop} (op : MasterOp) (only : op.ReservesOrNotifies) :
    wp (alone CallNotes.note) (fun replies =>
      Credible registered (fun call => replies (.spanner call))) op.program.run
      (fun _ notes => Settled registered notes) CallNotes.start := by
  have settled : Settled registered CallNotes.start := fun _ _ => rfl
  have credible : ∀ replies : (call : SpannerCall) → SpannerReply call,
      (∃ all : (call : MasterCall) → MasterReply call, Credible registered (fun call => all (.spanner call)) ∧
        replies = fun call => all (.spanner call)) → Credible registered replies := by
    intro replies allowed
    obtain ⟨all, holds, rfl⟩ := allowed
    exact holds
  cases op with
  | getWorkersToSaveBlob request =>
      exact wp_run_map _ _ _ _ (alone_on_db _ _ _ (place_settled credible request _ settled))
  | notifyBlobSaved request =>
      exact wp_run_map _ _ _ _ (alone_on_db _ _ _ (notify_settled credible request _ settled))
  | registerWorker request => exact only.elim
  | getWorkerWithBlob blobHash => exact only.elim
  | deleteBlob blobHash => exact only.elim

theorem worker_rows_kept (op : MasterOp) (only : op.ReservesOrNotifies) (call : MasterCall)
    (issues : op.Issues call) (choice : MasterChoice) (tables : Tables) (address : String) :
    (masterSem call choice tables).2.workerState.find? address ≠ none ↔
      tables.workerState.find? address ≠ none := by
  cases call with
  | deleteAtWorker blobHash workerAddress => exact Iff.rfl
  | spanner call =>
      cases call with
      | selectBlobs query => rw [masterSem, (select_tables choice.db tables).1]
      | selectWorkers query => rw [masterSem, (select_tables choice.db tables).2]
      | commit mutation =>
          cases commit_tables mutation choice.db tables with
          | inl same => rw [masterSem, spannerSem, same]
          | inr applied =>
              rw [masterSem, spannerSem]
              generalize (commitSem mutation choice.db tables).2 = after at applied
              cases mutation with
              | insertBlob entry =>
                  obtain ⟨rows, -, rfl⟩ := insert_blob_apply applied
                  exact Iff.rfl
              | updateBlob entry =>
                  obtain ⟨rows, -, rfl⟩ := update_blob_apply applied
                  exact Iff.rfl
              | deleteBlobsByHash hash => cases applied; exact Iff.rfl
              | deleteBlobsByWorker workerAddress => cases applied; exact Iff.rfl
              | insertWorker row =>
                  obtain ⟨request, rfl, -⟩ := issues
                  exact only.elim
              | deleteWorker workerAddress =>
                  obtain ⟨request, rfl, -⟩ := issues
                  exact only.elim
              | updateWorker row =>
                  obtain ⟨rows, updated, rfl⟩ := update_worker_apply applied
                  dsimp only
                  rw [Table.find_update updated]
                  by_cases same : row.workerAddress = address
                  · have present : tables.workerState.find? row.workerAddress ≠ none := by
                      intro absent
                      rw [(Table.update_none_iff _ _).mpr absent] at updated
                      cases updated
                    subst same
                    simpa using present
                  · rw [if_neg same]

theorem answers_distinct (query : WorkerQuery) (table : WorkerTable) (rows : List WorkerStateDTO)
    (answers : query.Answers table rows) :
    (∀ row ∈ rows, row ∈ table.rows) ∧ (rows.map WorkerStateDTO.workerAddress).Nodup := by
  obtain ⟨scan, perm, rfl⟩ := answers
  have picked : (query.cut (scan.filter query.selects)).Sublist scan := by
    cases query with
    | byAddress workerAddress => exact List.filter_sublist
    | withFreeSpace spaceNeeded limit => exact (List.take_sublist _ _).trans List.filter_sublist
  refine ⟨fun row member => perm.mem_iff.mp (picked.subset member), ?_⟩
  exact ((perm.map _).nodup_iff.mpr table.keyed).sublist (picked.map _)

theorem credible_replies (choice : MasterChoice) (healthy : MasterHealthy choice)
    (registered : String → Prop) (tables : Tables)
    (same : ∀ address, tables.workerState.find? address ≠ none ↔ registered address) :
    Credible registered (fun call => (masterSem (.spanner call) choice tables).1) := by
  have stored : ∀ row ∈ tables.workerState.rows, registered row.workerAddress := by
    intro row member
    rw [← same, tables.workerState.find_self row member]
    exact Option.some_ne_none row
  refine ⟨?_, ?_, ?_, ?_⟩
  · intro hash address
    obtain ⟨rows, answered, answers⟩ :=
      select_blobs_answers (.byHashAndWorker hash address) choice.db healthy tables
    refine ⟨rows, answered, ?_⟩
    intro row member
    have selected := (List.mem_filter.mp (answers.mem_iff.mp member)).2
    simp only [BlobQuery.selects, decide_eq_true_eq] at selected
    exact selected.2
  · intro query
    obtain ⟨rows, answered, answers⟩ := select_workers_answers query choice.db healthy tables
    obtain ⟨members, distinct⟩ := answers_distinct query tables.workerState rows answers
    exact ⟨rows, answered, fun row member => stored row (members row member), distinct⟩
  · intro address rows reply
    obtain ⟨answer, answered, answers⟩ := select_workers_answers (.byAddress address) choice.db healthy tables
    obtain rfl : answer = rows := Except.ok.inj (answered.symm.trans reply)
    rw [answer_by_address _ _ _ answers]
    constructor
    · intro known empty
      exact (same address).mpr known (by simpa using empty)
    · intro row member
      exact ((tables.workerState.find_some_iff address row).mp (by simpa using member)).2
  · intro row known
    cases found : tables.workerState.find? row.workerAddress with
    | none => exact absurd found ((same row.workerAddress).mpr known)
    | some old =>
        rcases healthy_commit (.updateWorker row) choice.db healthy tables with
          ⟨refused, -⟩ | ⟨after, -, accepted⟩
        · exact absurd refused (update_worker_accepted found)
        · exact congrArg Prod.fst accepted

-- The sums that a call has made for the row are those of int64_t, which the columns hold.
def WorkerStateDTO.Fits (row : WorkerStateDTO) : Prop :=
  InInt64 row.availableSpaceMb ∧ InInt64 row.lockedSpaceMb

def UpdatesFromCurrent {ι : Type} [DecidableEq ι] (pool : MasterPool ι) (turn : ι × MasterChoice) : Prop :=
  match pool.procs turn.1 with
  | .call (.spanner (.commit (.updateWorker row))) _ =>
      (noted CallNotes.note CallNotes.start pool.history turn.1).read row.workerAddress =
        pool.state.workerState.find? row.workerAddress ∧ row.Fits
  | _ => True

theorem space_step (op : MasterOp) (only : op.ReservesOrNotifies) (call : MasterCall)
    (issues : op.Issues call) (choice : MasterChoice) (healthy : MasterHealthy choice)
    (tables : Tables) (notes : CallNotes) (address : String)
    (current : ∀ row, call = .spanner (.commit (.updateWorker row)) →
      notes.read row.workerAddress = tables.workerState.find? row.workerAddress) :
    spaceOf (masterSem call choice tables).2 address +
      (CallNotes.note call (masterSem call choice tables).1 notes).owes address =
      spaceOf tables address + notes.owes address + obligation address
        ⟨call, (masterSem call choice tables).1⟩ := by
  have fault : choice.db.fault = .none := healthy
  cases call with
  | deleteAtWorker blobHash workerAddress => exact (add_assoc _ _ _).symm
  | spanner call =>
      cases call with
      | selectBlobs query =>
          rw [masterSem, (select_tables choice.db tables).1]
          exact (add_assoc _ _ _).symm
      | selectWorkers query =>
          obtain ⟨rows, answered, -⟩ := select_workers_answers query choice.db healthy tables
          rw [masterSem, (select_tables choice.db tables).2, answered]
          exact (add_zero _).symm
      | commit mutation =>
          simp only [masterSem, spannerSem, commitSem, fault]
          cases applied : mutation.apply tables with
          | none =>
              cases mutation <;> exact (add_assoc _ _ _).symm
          | some after =>
              cases mutation with
              | insertBlob entry =>
                  obtain ⟨rows, -, rfl⟩ := insert_blob_apply applied
                  exact (add_assoc _ _ _).symm
              | updateBlob entry =>
                  obtain ⟨rows, -, rfl⟩ := update_blob_apply applied
                  exact (add_assoc _ _ _).symm
              | deleteBlobsByHash hash => cases applied; exact (add_assoc _ _ _).symm
              | deleteBlobsByWorker workerAddress => cases applied; exact (add_assoc _ _ _).symm
              | insertWorker row =>
                  obtain ⟨request, rfl, -⟩ := issues
                  exact only.elim
              | deleteWorker workerAddress =>
                  obtain ⟨request, rfl, -⟩ := issues
                  exact only.elim
              | updateWorker row =>
                  obtain ⟨rows, updated, rfl⟩ := update_worker_apply applied
                  have read := current row rfl
                  simp only [CallNotes.note, CallNotes.settle, obligation, reservedSize,
                    releasedSize, neg_zero, sub_zero, Prod.mk_zero_zero, add_zero, spaceOf]
                  rw [Table.find_update updated]
                  by_cases same : row.workerAddress = address
                  · subst same
                    simp only [if_true, CallNotes.readSpace, read]
                    abel
                  · simp only [if_neg same]

section Pool

variable {ι : Type} [DecidableEq ι] (ops : ι → MasterOp) (tables : Tables)

theorem registered_kept (only : ∀ proc, (ops proc).ReservesOrNotifies)
    (schedule : List (ι × MasterChoice)) (address : String) :
    ((masterPool ops tables).run masterSem schedule).state.workerState.find? address ≠ none ↔
      tables.workerState.find? address ≠ none := by
  refine linked_holds (fun now => now.workerState.find? address ≠ none ↔
    tables.workerState.find? address ≠ none) _ _ _
    (Pool.run_linked masterSem _ tables schedule) Iff.rfl ?_
  intro step member before
  obtain ⟨choice, -, -, after⟩ := Pool.run_steps masterSem _ tables schedule step member
  rw [after, worker_rows_kept (ops step.proc) (only step.proc) _
    (step_issues ops tables schedule step member)]
  exact before

theorem next_issues (early : List (ι × MasterChoice)) (turn : ι × MasterChoice) (call : MasterCall)
    (next : MasterReply call → Program MasterCall MasterReply (Except Status MasterResponse))
    (shape : ((masterPool ops tables).run masterSem early).procs turn.1 = .call call next) :
    (ops turn.1).Issues call := by
  obtain ⟨step, member, proc, rfl⟩ := Pool.step_recorded masterSem _ turn call next shape
  rw [← Pool.run_snoc] at member
  rw [← proc]
  exact step_issues ops tables (early ++ [turn]) step member

omit [DecidableEq ι] in
theorem sum_replace_one [Fintype ι] [DecidableEq ι] (one : ι) (before after : ι → Space) :
    (∑ proc, if one = proc then after proc else before proc) + before one =
      (∑ proc, before proc) + after one := by
  have split : ∀ amounts : ι → Space, ∑ proc,
      amounts proc = amounts one + ∑ proc ∈ Finset.univ.erase one, amounts proc :=
    fun amounts => (Finset.add_sum_erase _ amounts (Finset.mem_univ one)).symm
  have rest : (∑ proc ∈ Finset.univ.erase one, if one = proc then after proc else before proc) =
      ∑ proc ∈ Finset.univ.erase one, before proc :=
    Finset.sum_congr rfl (fun proc member => if_neg (Finset.ne_of_mem_erase member).symm)
  rw [split, split before, rest, if_pos rfl]
  abel

-- What the rows hold and what the calls still owe adds up to what the rows held at
-- first and everything the calls have taken on.
def Conserved [Fintype ι] (address : String) (pool : MasterPool ι) : Prop :=
  spaceOf pool.state address + ∑ proc, (noted CallNotes.note CallNotes.start pool.history proc).owes address =
    spaceOf tables address + (pool.history.map (fun step => obligation address step.event)).sum

theorem step_conserved [Fintype ι] (only : ∀ proc, (ops proc).ReservesOrNotifies) (address : String)
    (pool : MasterPool ι) (turn : ι × MasterChoice) (healthy : MasterHealthy turn.2)
    (current : UpdatesFromCurrent pool turn)
    (issues : ∀ call next, pool.procs turn.1 = .call call next → (ops turn.1).Issues call)
    (conserved : Conserved tables address pool) :
    Conserved tables address (pool.step masterSem turn) := by
  cases Pool.step_cases masterSem pool turn with
  | inl idle =>
      rw [idle.1]
      exact conserved
  | inr active =>
      obtain ⟨call, next, shape, stepped⟩ := active
      have read : ∀ row, call = .spanner (.commit (.updateWorker row)) →
          (noted CallNotes.note CallNotes.start pool.history turn.1).read row.workerAddress =
            pool.state.workerState.find? row.workerAddress := by
        intro row same
        subst same
        rw [UpdatesFromCurrent, shape] at current
        exact current.1
      have moved := space_step (ops turn.1) (only turn.1) call
        (issues call next shape) turn.2 healthy pool.state
        (noted CallNotes.note CallNotes.start pool.history turn.1) address read
      have total := sum_replace_one turn.1
        (fun proc => (noted CallNotes.note CallNotes.start pool.history proc).owes address)
        (fun proc => (CallNotes.note call (masterSem call turn.2 pool.state).1
          (noted CallNotes.note CallNotes.start pool.history proc)).owes address)
      rw [stepped]
      simp only [Conserved, noted_snoc, apply_ite (fun notes : CallNotes => notes.owes address),
        List.map_append, List.map_cons,
        List.map_nil, List.sum_append, List.sum_cons, List.sum_nil, add_zero] at conserved ⊢
      rw [← add_assoc]
      linear_combination conserved + moved + total

end Pool

def reservedOn {ι : Type} (address : String) (history : List (MasterStep ι)) : Int :=
  (history.map (fun step => reservedSize address step.event)).sum

def releasedOn {ι : Type} (address : String) (history : List (MasterStep ι)) : Int :=
  (history.map (fun step => releasedSize address step.event)).sum

def NoUpdateLost {ι : Type} (tables : Tables) (pool : MasterPool ι) : Prop :=
  ∀ address first, tables.workerState.find? address = some first →
    ∃ last, pool.state.workerState.find? address = some last ∧
      last.availableSpaceMb - last.lockedSpaceMb =
        first.availableSpaceMb - first.lockedSpaceMb - reservedOn address pool.history ∧
      last.lockedSpaceMb = first.lockedSpaceMb +
        reservedOn address pool.history - releasedOn address pool.history

theorem obligations_sum {ι : Type} (address : String) (history : List (MasterStep ι)) :
    (history.map (fun step => obligation address step.event)).sum =
      (-releasedOn address history, reservedOn address history - releasedOn address history) := by
  induction history with
  | nil => rfl
  | cons step rest ih =>
      rw [List.map_cons, List.sum_cons, ih]
      simp only [obligation, releasedOn, reservedOn, List.map_cons, List.sum_cons,
        Prod.mk_add_mk, Prod.mk.injEq]
      constructor <;> omega

theorem no_update_lost {ι : Type} [Fintype ι] [DecidableEq ι] (ops : ι → MasterOp) (tables : Tables)
    (schedule : List (ι × MasterChoice)) (only : ∀ proc, (ops proc).ReservesOrNotifies)
    (healthy : ∀ turn ∈ schedule, MasterHealthy turn.2)
    (current : Pool.Along masterSem UpdatesFromCurrent (masterPool ops tables) schedule)
    (finished : ∀ proc, ∃ result,
      ((masterPool ops tables).run masterSem schedule).procs proc = .pure result) :
    NoUpdateLost tables ((masterPool ops tables).run masterSem schedule) := by
  intro address first present
  have registered : tables.workerState.find? address ≠ none := by simp [present]
  have credible : Pool.Along masterSem
      (fun pool turn => Credible (fun address => tables.workerState.find? address ≠ none)
        (fun call => (masterSem (.spanner call) turn.2 pool.state).1)) (masterPool ops tables) schedule := by
    refine Pool.along_of_prefixes masterSem _ _ schedule ?_
    intro early turn late same
    exact credible_replies turn.2 (healthy turn (by simp [same])) _ _ (registered_kept ops tables only early)
  have settled : ∀ proc, (noted CallNotes.note CallNotes.start
      ((masterPool ops tables).run masterSem schedule).history proc).owes address = 0 := by
    intro proc
    have local_ := Pool.local_holds masterSem _ CallNotes.start
      (fun _ _ notes => Settled _ notes) _ tables schedule
      (fun proc => op_settled (ops proc) (only proc)) credible proc
    obtain ⟨result, returned⟩ := finished proc
    rw [show (Pool.run masterSem (Pool.start _ tables) schedule).procs proc = _ from returned] at local_
    exact local_ address registered
  have conserved : Conserved tables address ((masterPool ops tables).run masterSem schedule) := by
    refine Pool.run_holds masterSem (Conserved tables address)
      (fun pool turn => (UpdatesFromCurrent pool turn ∧ MasterHealthy turn.2) ∧
        ∀ call next, pool.procs turn.1 = .call call next → (ops turn.1).Issues call) ?_ _ schedule ?_ ?_
    · intro pool turn now conditions
      exact step_conserved ops tables only address pool turn conditions.1.2 conditions.1.1 conditions.2 now
    · simp [Conserved, masterPool, Pool.start, noted, CallNotes.start]
    · refine Pool.along_and masterSem _ _ _ schedule (Pool.along_and masterSem _ _ _ schedule current ?_) ?_
      · exact Pool.along_of_forall masterSem (fun turn => MasterHealthy turn.2) _ schedule healthy
      · exact Pool.along_of_prefixes masterSem _ _ schedule
          (fun early turn _ _ => next_issues ops tables early turn)
  obtain ⟨last, there⟩ := Option.ne_none_iff_exists'.mp
    ((registered_kept ops tables only schedule address).mpr registered)
  refine ⟨last, there, ?_⟩
  rw [Conserved, Finset.sum_eq_zero (fun proc _ => settled proc), add_zero, obligations_sum] at conserved
  simp only [spaceOf, there, present, WorkerStateDTO.space, Prod.mk_add_mk, Prod.mk.injEq] at conserved
  constructor <;> omega

def threeRegistered : Tables :=
  ⟨Table.empty, ⟨[⟨"worker-0", 5, 0, 0⟩, ⟨"worker-1", 5, 0, 0⟩, ⟨"worker-2", 5, 0, 0⟩], by decide⟩⟩

def twoReservations : Bool → MasterOp
  | false => .getWorkersToSaveBlob ⟨"7", 1⟩
  | true => .getWorkersToSaveBlob ⟨"8", 1⟩

def inTurn (calls : List Bool) : List (Bool × MasterChoice) := calls.map (fun call => (call, {}))

theorem no_update_lost_in_sequence :
    NoUpdateLost threeRegistered ((masterPool twoReservations threeRegistered).run masterSem
      (inTurn (List.replicate 7 false ++ List.replicate 7 true))) := by
  refine no_update_lost twoReservations threeRegistered _ ?_ ?_ ?_ ?_
  · exact fun call => by cases call <;> trivial
  · simp [inTurn, MasterHealthy, DbHealthy]
  · have one : InInt64 5 ∧ InInt64 1 := by decide
    have two : InInt64 5 ∧ InInt64 2 := by decide
    exact ⟨trivial, trivial, ⟨rfl, one⟩, trivial, ⟨rfl, one⟩, trivial, ⟨rfl, one⟩, trivial,
      trivial, ⟨rfl, two⟩, trivial, ⟨rfl, two⟩, trivial, ⟨rfl, two⟩, trivial⟩
  · exact fun call => by cases call <;> exact ⟨_, rfl⟩

-- Both calls read the rows before either writes them: one reservation is lost.
theorem concurrent_reservations_lose_an_update :
    let pool := (masterPool twoReservations threeRegistered).run masterSem
      (inTurn ([false, true] ++ List.replicate 6 false ++ List.replicate 6 true))
    (∀ call, ∃ result, pool.procs call = .pure result) ∧ ¬ NoUpdateLost threeRegistered pool := by
  refine ⟨fun call => by cases call <;> exact ⟨_, rfl⟩, ?_⟩
  intro kept
  obtain ⟨last, present, -, locked⟩ := kept "worker-0" ⟨"worker-0", 5, 0, 0⟩ rfl
  obtain rfl : (⟨"worker-0", 5, 1, 0⟩ : WorkerStateDTO) = last := Option.some.inj present
  exact absurd locked (by decide)

end BlobStore
