import BlobStore.Confirmations
import BlobStore.Survival

set_option autoImplicit false

namespace BlobStore

open Effects FileSystem

-- What one blob has of what copies have.
def shareOf {α : Type} (blobHash : String) (of : String × String → Option α)
    (copy : String × String) : Option α :=
  if copy.1 = blobHash then of copy else none

section Shares

variable {α : Type} {blobHash : String} {of : String × String → Option α}

theorem share_own (copy : String × String) (own : copy.1 = blobHash) :
    shareOf blobHash of copy = of copy := if_pos own

theorem share_here (worker : String) :
    shareOf blobHash of (blobHash, worker) = of (blobHash, worker) := if_pos rfl

theorem share_some {copy : String × String} {value : α}
    (there : shareOf blobHash of copy = some value) : copy.1 = blobHash ∧ of copy = some value := by
  by_cases own : copy.1 = blobHash
  · exact ⟨own, (share_own copy own).symm.trans there⟩
  · rw [shareOf, if_neg own] at there
    cases there

theorem share_update (copy : String × String) (own : copy.1 = blobHash) (value : Option α) :
    shareOf blobHash (Function.update of copy value) = Function.update (shareOf blobHash of) copy value := by
  funext other
  by_cases same : other = copy
  · rw [same, share_own copy own, Function.update_self, Function.update_self]
  · rw [Function.update_of_ne same, shareOf, shareOf, Function.update_of_ne same]

theorem share_congr {other : String × String → Option α}
    (same : ∀ worker, of (blobHash, worker) = other (blobHash, worker)) :
    shareOf blobHash of = shareOf blobHash other := by
  funext copy
  obtain ⟨hash, worker⟩ := copy
  by_cases own : hash = blobHash
  · subst own
    rw [share_here, share_here, same worker]
  · rw [shareOf, shareOf, if_neg own, if_neg own]

end Shares

-- An upload under way: it knows the state of its copies, each saved copy of its blob has
-- its file, and those it was told of are among them.
structure Landing (X : Xxh64) (registered : String → Prop) (blobHash : String) (cluster : Cluster)
    (duty : Duty) (confirmed : List (String × String)) : Prop where
  workers : ∀ worker, Registered cluster.tables worker ↔ registered worker
  usable : ∀ worker, registered worker → Usable (cluster.workers worker)
  rows : ∀ row ∈ cluster.tables.blobCopy.rows, row.sizeMb = 0 ∧ OrdinaryName row.hash ∧
    registered row.workerAddress
  ledger : DutyLedger X (shareOf blobHash (blobNode cluster))
    (shareOf blobHash (rowStates cluster.tables)) (fun _ : Unit => duty)
  filed : ∀ copy, shareOf blobHash (rowStates cluster.tables) copy = some .saved →
    ∃ bytes, shareOf blobHash (blobNode cluster) copy = some (.file bytes)
  reading : duty.reading = none
  distinct : confirmed.Nodup
  confirmed : ∀ copy ∈ confirmed, shareOf blobHash (rowStates cluster.tables) copy = some .saved

def uploadBounds (registered : String → Prop) (blobHash : String) : Bounds where
  blobHash := blobHash
  drawn := fun _ => True
  known := registered
  workerRow := fun row => registered row.workerAddress
  writes := True

section Steps

variable {X : Xxh64} {registered : String → Prop} {blobHash : String} {cluster : Cluster}
  {duty : Duty} {confirmed : List (String × String)}

theorem only_duty (later : Duty) : Function.update (fun _ : Unit => duty) () later = fun _ => later := by
  funext proc
  cases proc
  exact Function.update_self _ _ _

theorem ledger_same (now : Landing X registered blobHash cluster duty confirmed) :
    DutyLedger X (shareOf blobHash (blobNode cluster)) (shareOf blobHash (rowStates cluster.tables))
      (Function.update (fun _ : Unit => duty) () duty) := by
  rw [only_duty]
  exact now.ledger

-- Another request leaves it where it is.
theorem landing_untouched {after : Cluster}
    (now : Landing X registered blobHash cluster duty confirmed)
    (untouched : Untouched blobHash registered cluster after) :
    Landing X registered blobHash after duty confirmed := by
  have states : shareOf blobHash (rowStates after.tables) = shareOf blobHash (rowStates cluster.tables) := by
    apply share_congr
    intro worker
    rw [rowStates, rowStates, find_row_of, find_row_of, untouched.copies]
  have files : shareOf blobHash (blobNode after) = shareOf blobHash (blobNode cluster) := by
    apply share_congr
    intro worker
    apply untouched.nodes
    by_cases known : registered worker
    · exact .inl (now.usable worker known)
    · exact .inr known
  constructor
  · exact fun worker => (untouched.registered worker).trans (now.workers worker)
  · exact fun worker known => untouched.usable worker (now.usable worker known)
  · intro row member
    cases untouched.rows row member with
    | inl before => exact now.rows row before
    | inr fresh => exact ⟨fresh.1, fresh.2.1, fresh.2.2.1⟩
  · rw [states, files]
    exact now.ledger
  · rw [states, files]
    exact now.filed
  · exact now.reading
  · exact now.distinct
  · rw [states]
    exact now.confirmed

theorem landing_rows {tables : Tables} {later : Duty} {more : List (String × String)}
    (now : Landing X registered blobHash cluster duty confirmed) (ordinary : OrdinaryName blobHash)
    (spared : Spared (uploadBounds registered blobHash) cluster.tables tables)
    (ledger : DutyLedger X (shareOf blobHash (blobNode cluster))
      (shareOf blobHash (rowStates tables)) (Function.update (fun _ : Unit => duty) () later))
    (filed : ∀ copy, shareOf blobHash (rowStates tables) copy = some .saved →
      ∃ bytes, shareOf blobHash (blobNode cluster) copy = some (.file bytes))
    (reading : later.reading = duty.reading) (distinct : more.Nodup)
    (saved : ∀ copy ∈ more, shareOf blobHash (rowStates tables) copy = some .saved) :
    Landing X registered blobHash (withTables cluster tables) later more where
  workers := fun worker => (spared.registered worker).trans (now.workers worker)
  usable := now.usable
  rows := by
    intro row member
    cases spared.rows row member with
    | inl before => exact now.rows row before
    | inr own => exact ⟨own.2.1, own.1 ▸ ordinary, own.2.2⟩
  ledger := by
    rw [only_duty] at ledger
    exact ledger
  filed := filed
  reading := reading.trans now.reading
  distinct := distinct
  confirmed := saved

theorem landing_still {later : Duty} (now : Landing X registered blobHash cluster duty confirmed)
    (ledger : DutyLedger X (shareOf blobHash (blobNode cluster)) (shareOf blobHash (rowStates cluster.tables))
      (Function.update (fun _ : Unit => duty) () later)) (reading : later.reading = duty.reading) :
    Landing X registered blobHash cluster later confirmed := by
  refine ⟨now.workers, now.usable, now.rows, ?_, now.filed, reading.trans now.reading,
    now.distinct, now.confirmed⟩
  rw [only_duty] at ledger
  exact ledger

theorem landing_insert (now : Landing X registered blobHash cluster duty confirmed)
    (ordinary : OrdinaryName blobHash) (entry : BlobCopyDTO) (choice : DbChoice)
    (own : entry.hash = blobHash) (during : entry.state = .duringCreation)
    (spared : Spared (uploadBounds registered blobHash) cluster.tables
      (spannerSem (.commit (.insertBlob entry)) choice cluster.tables).2) :
    let outcome := spannerSem (.commit (.insertBlob entry)) choice cluster.tables
    dutyRowReplies registered (.commit (.insertBlob entry)) outcome.1 duty ∧
      Landing X registered blobHash (withTables cluster outcome.2)
        (noteDutyRows (.commit (.insertBlob entry)) outcome.1 duty) confirmed := by
  dsimp only
  rw [spannerSem] at spared ⊢
  cases commit_cases (.insertBlob entry) choice cluster.tables with
  | inl lost =>
      obtain ⟨message, refused⟩ := lost
      rw [refused]
      exact ⟨trivial, now⟩
  | inr done =>
      obtain ⟨after, applied, result⟩ := done
      obtain ⟨rows, inserted, rfl⟩ := insert_blob_apply applied
      have absent := ((cluster.tables.blobCopy.insert_some_iff _ _).mp inserted).1
      have fresh : shareOf blobHash (rowStates cluster.tables) entry.key = none := by
        rw [share_own entry.key own, rowStates, absent]
        rfl
      have states : shareOf blobHash (rowStates { cluster.tables with blobCopy := rows }) =
          Function.update (shareOf blobHash (rowStates cluster.tables)) entry.key (some .duringCreation) := by
        rw [states_set (Table.find_insert inserted), during, share_update entry.key own]
      have saved : ∀ copy, shareOf blobHash (rowStates { cluster.tables with blobCopy := rows })
          copy = some .saved ↔
          shareOf blobHash (rowStates cluster.tables) copy = some .saved := by
        intro copy
        rw [states]
        by_cases same : copy = entry.key
        · rw [same, Function.update_self, fresh]
          simp
        · rw [Function.update_of_ne same]
      have landed : ∀ later, DutyLedger X (shareOf blobHash (blobNode cluster))
            (Function.update (shareOf blobHash (rowStates cluster.tables)) entry.key (some .duringCreation))
            (Function.update (fun _ : Unit => duty) () later) → later.reading = duty.reading →
          Spared (uploadBounds registered blobHash) cluster.tables { cluster.tables with blobCopy := rows } →
          Landing X registered blobHash
            (withTables cluster { cluster.tables with blobCopy := rows }) later confirmed := by
        intro later ledger reading spared
        apply landing_rows now ordinary spared
        · rw [states]
          exact ledger
        · exact fun copy is => now.filed copy ((saved copy).mp is)
        · exact reading
        · exact now.distinct
        · exact fun copy member => (saved copy).mpr (now.confirmed copy member)
      cases result with
      | inl accepted =>
          rw [accepted] at spared ⊢
          exact ⟨fresh_unheld now.ledger fresh (), landed _ (ledger_reserves now.ledger fresh) rfl spared⟩
      | inr unheard =>
          obtain ⟨message, unheard⟩ := unheard
          rw [unheard] at spared ⊢
          exact ⟨trivial, landed _ (ledger_reserves_unheard now.ledger fresh) rfl spared⟩

theorem landing_update (now : Landing X registered blobHash cluster duty confirmed)
    (ordinary : OrdinaryName blobHash) (entry : BlobCopyDTO) (choice : DbChoice)
    (held : entry.key ∈ duty.copies) (isSaved : entry.state = .saved) {bytes : Bytes}
    (writing : duty.writing = some (entry.key, bytes)) (hashed : X.blobHash bytes = entry.hash)
    (spared : Spared (uploadBounds registered blobHash) cluster.tables
      (spannerSem (.commit (.updateBlob entry)) choice cluster.tables).2) :
    let outcome := spannerSem (.commit (.updateBlob entry)) choice cluster.tables
    Landing X registered blobHash (withTables cluster outcome.2)
      (noteDutyRows (.commit (.updateBlob entry)) outcome.1 duty)
      (noteConfirmed (.spanner (.commit (.updateBlob entry))) outcome.1 confirmed) := by
  dsimp only
  rw [spannerSem] at spared ⊢
  cases commit_cases (.updateBlob entry) choice cluster.tables with
  | inl lost =>
      obtain ⟨message, refused⟩ := lost
      rw [refused]
      exact landing_still now (ledger_gives_up now.ledger) rfl
  | inr done =>
      obtain ⟨after, applied, result⟩ := done
      obtain ⟨rows, updated, rfl⟩ := update_blob_apply applied
      have during := (now.ledger.kept ()).held entry.key held
      obtain ⟨own, -⟩ := share_some during
      have states : shareOf blobHash (rowStates { cluster.tables with blobCopy := rows }) =
          Function.update (shareOf blobHash (rowStates cluster.tables)) entry.key (some .saved) := by
        rw [states_set (Table.find_update updated), isSaved, share_update entry.key own]
      have before : ∀ copy, shareOf blobHash (rowStates cluster.tables) copy = some .saved →
          shareOf blobHash (rowStates { cluster.tables with blobCopy := rows }) copy = some .saved := by
        intro copy is
        have different : copy ≠ entry.key := fun same => by
          rw [same, during] at is
          cases is
        rw [states, Function.update_of_ne different]
        exact is
      have landed : ∀ more : List (String × String), more.Nodup →
          (∀ copy ∈ more, shareOf blobHash (rowStates { cluster.tables with blobCopy := rows })
            copy = some .saved) →
          Spared (uploadBounds registered blobHash) cluster.tables { cluster.tables with blobCopy := rows } →
          Landing X registered blobHash (withTables cluster { cluster.tables with blobCopy := rows })
            { duty with copies := duty.copies.filter (· ≠ entry.key) } more := by
        intro more distinct confirmed spared
        apply landing_rows now ordinary spared
        · rw [states]
          exact ledger_confirms now.ledger held writing hashed
        · intro copy is
          rw [states] at is
          by_cases same : copy = entry.key
          · exact ⟨bytes, same ▸ (now.ledger.kept ()).written entry.key bytes writing held⟩
          · rw [Function.update_of_ne same] at is
            exact now.filed copy is
        · rfl
        · exact distinct
        · exact confirmed
      cases result with
      | inl accepted =>
          rw [accepted] at spared ⊢
          apply landed
          · refine List.nodup_cons.mpr ⟨?_, now.distinct⟩
            intro member
            cases during.symm.trans (now.confirmed entry.key member)
          · intro copy member
            cases List.mem_cons.mp member with
            | inl here =>
                rw [here, states]
                exact Function.update_self _ _ _
            | inr earlier => exact before copy (now.confirmed copy earlier)
          · exact spared
      | inr unheard =>
          obtain ⟨message, unheard⟩ := unheard
          rw [unheard] at spared ⊢
          exact landed confirmed now.distinct
            (fun copy member => before copy (now.confirmed copy member)) spared

variable {worker : String}

theorem landing_held (now : Landing X registered blobHash cluster duty confirmed)
    {copy : String × String} (held : copy ∈ duty.copies) :
    copy.1 = blobHash ∧ registered copy.2 ∧
      shareOf blobHash (rowStates cluster.tables) copy ≠ some .saved := by
  obtain ⟨own, is⟩ := share_some ((now.ledger.kept ()).held copy held)
  obtain ⟨row, stored, rfl, -⟩ := row_state is
  exact ⟨own, (now.rows row stored).2.2, @held_unsaved _ _ _ _ _ () _ now.ledger held⟩

theorem landing_file {later : Duty} {fs : FileSystem} {node : Option Node}
    (now : Landing X registered blobHash cluster duty confirmed) (known : registered worker)
    (changes : ChangesOnly blobHash (cluster.workers worker) fs)
    (free : fs.node (blobLocation (cluster.workers worker) blobHash) ≠ some .directory)
    (is : fs.node (blobLocation (cluster.workers worker) blobHash) = node)
    (unsaved : shareOf blobHash (rowStates cluster.tables) (blobHash, worker) ≠ some .saved)
    (ledger : DutyLedger X (Function.update (shareOf blobHash (blobNode cluster))
      (blobHash, worker) node) (shareOf blobHash (rowStates cluster.tables))
      (Function.update (fun _ : Unit => duty) () later)) (reading : later.reading = duty.reading) :
    Landing X registered blobHash (withWorker cluster worker fs) later confirmed := by
  have files : shareOf blobHash (blobNode (withWorker cluster worker fs)) =
      Function.update (shareOf blobHash (blobNode cluster)) (blobHash, worker) node := by
    rw [blob_node_changed changes, share_update (blobHash, worker) rfl, is]
  refine ⟨now.workers, ?_, now.rows, ?_, ?_, reading.trans now.reading, now.distinct, now.confirmed⟩
  · intro other there
    by_cases same : other = worker
    · subst same
      rw [with_worker_at]
      exact usable_changed (now.usable other there) blobHash changes free
    · rw [with_worker_elsewhere cluster worker other fs same]
      exact now.usable other there
  · rw [files]
    rw [only_duty] at ledger
    exact ledger
  · intro copy saved
    have different : copy ≠ (blobHash, worker) := fun same => unsaved (same ▸ saved)
    rw [files, Function.update_of_ne different]
    exact now.filed copy saved

-- The primitive failed, and the file is what it was.
theorem landing_failed {later : Duty} {fs : FileSystem}
    (now : Landing X registered blobHash cluster duty confirmed) (known : registered worker)
    (changes : ChangesOnly blobHash (cluster.workers worker) fs)
    (free : fs.node (blobLocation (cluster.workers worker) blobHash) ≠ some .directory)
    (is : fs.node (blobLocation (cluster.workers worker) blobHash) =
      (cluster.workers worker).node (blobLocation (cluster.workers worker) blobHash))
    (unsaved : shareOf blobHash (rowStates cluster.tables) (blobHash, worker) ≠ some .saved)
    (ledger : DutyLedger X (shareOf blobHash (blobNode cluster))
      (shareOf blobHash (rowStates cluster.tables))
      (Function.update (fun _ : Unit => duty) () later)) (reading : later.reading = duty.reading) :
    Landing X registered blobHash (withWorker cluster worker fs) later confirmed := by
  apply landing_file now known changes free is unsaved
  · have same : (cluster.workers worker).node (blobLocation (cluster.workers worker) blobHash) =
        shareOf blobHash (blobNode cluster) (blobHash, worker) := by
      rw [share_here]
      rfl
    rw [same, Function.update_eq_self]
    exact ledger
  · exact reading

theorem landing_open (now : Landing X registered blobHash cluster duty confirmed)
    (ordinary : OrdinaryName blobHash) (choice : FileChoice)
    (held : (blobHash, worker) ∈ duty.copies) :
    let outcome := fileSem (.openTrunc (WorkerService.BLOBS_PATH ++ blobHash)) choice (cluster.workers worker)
    Landing X registered blobHash (withWorker cluster worker outcome.2)
      (noteDutyFile worker (.openTrunc (WorkerService.BLOBS_PATH ++ blobHash)) outcome.1 duty) confirmed := by
  obtain ⟨-, known, unsaved⟩ := landing_held now held
  obtain ⟨same, changes, free⟩ := one_file (now.usable worker known) ordinary
    (.openTrunc (WorkerService.BLOBS_PATH ++ blobHash)) (.inr rfl) choice
  dsimp only
  cases works : choice.failure with
  | some reason =>
      simp only [oneFile, works] at same
      obtain ⟨reply, node⟩ := Prod.mk.inj same
      rw [reply]
      exact landing_failed now known changes free node unsaved (ledger_same now) rfl
  | none =>
      simp only [oneFile, works] at same
      obtain ⟨reply, node⟩ := Prod.mk.inj same
      rw [reply, duty_noted_open held]
      exact landing_file now known changes free node unsaved (ledger_writes now.ledger held []) rfl

theorem landing_append (now : Landing X registered blobHash cluster duty confirmed)
    (ordinary : OrdinaryName blobHash) (chunk : Bytes) (choice : FileChoice)
    (whole : WholeWrites choice) {bytes : Bytes} (held : (blobHash, worker) ∈ duty.copies)
    (writing : duty.writing = some ((blobHash, worker), bytes)) :
    let outcome := fileSem (.append (WorkerService.BLOBS_PATH ++ blobHash) chunk) choice
      (cluster.workers worker)
    Landing X registered blobHash (withWorker cluster worker outcome.2)
      (noteDutyFile worker (.append (WorkerService.BLOBS_PATH ++ blobHash) chunk) outcome.1 duty)
        confirmed := by
  obtain ⟨-, known, unsaved⟩ := landing_held now held
  obtain ⟨same, changes, free⟩ := one_file (now.usable worker known) ordinary
    (.append (WorkerService.BLOBS_PATH ++ blobHash) chunk) (.inr rfl) choice
  have there : (cluster.workers worker).node (blobLocation (cluster.workers worker) blobHash) =
      some (.file bytes) :=
    (share_some ((now.ledger.kept ()).written _ bytes writing held)).2
  dsimp only
  cases works : choice.failure with
  | some reason =>
      simp only [oneFile, works] at same
      obtain ⟨reply, node⟩ := Prod.mk.inj same
      rw [reply]
      exact landing_failed now known changes free node unsaved (ledger_same now) rfl
  | none =>
      simp only [oneFile, works, there, written_whole whole] at same
      obtain ⟨reply, node⟩ := Prod.mk.inj same
      have noted : noteDutyFile worker (.append (WorkerService.BLOBS_PATH ++ blobHash) chunk) true duty =
          { duty with writing := some ((blobHash, worker), bytes ++ chunk) } := by
        rw [noteDutyFile, writing]
        rfl
      rw [reply, noted]
      exact landing_file now known changes free node unsaved
        (ledger_writes now.ledger held (bytes ++ chunk)) rfl

theorem landing_remove (now : Landing X registered blobHash cluster duty confirmed)
    (ordinary : OrdinaryName blobHash) (choice : FileChoice)
    (held : (blobHash, worker) ∈ duty.copies) :
    let outcome := fileSem (.remove (WorkerService.BLOBS_PATH ++ blobHash)) choice (cluster.workers worker)
    Landing X registered blobHash (withWorker cluster worker outcome.2)
      { duty with writing := none } confirmed := by
  obtain ⟨-, known, unsaved⟩ := landing_held now held
  obtain ⟨same, changes, free⟩ := one_file (now.usable worker known) ordinary
    (.remove (WorkerService.BLOBS_PATH ++ blobHash)) (.inr rfl) choice
  dsimp only
  cases works : choice.failure with
  | some reason =>
      simp only [oneFile, works] at same
      obtain ⟨-, node⟩ := Prod.mk.inj same
      have kept := now.ledger.kept ()
      apply landing_failed now known changes free node unsaved
      · apply ledger_noted now.ledger
        · exact ⟨kept.held, (fun _ _ writing => by cases writing), kept.listed, kept.served, kept.ahead⟩
        · exact fun _ member => member
      · rfl
  | none =>
      simp only [oneFile, works] at same
      obtain ⟨-, node⟩ := Prod.mk.inj same
      exact landing_file now known changes free node unsaved (ledger_removes now.ledger (.inl held)) rfl

theorem landing_worker_step (now : Landing X registered blobHash cluster duty confirmed)
    (ordinary : OrdinaryName blobHash) (call : FileCall) (choice : FileChoice)
    (whole : WholeWrites choice) (asks : dutyFile registered worker call duty) :
    dutyFileReplies X call (fileSem call choice (cluster.workers worker)).1 duty ∧
      Landing X registered blobHash
        (withWorker cluster worker (fileSem call choice (cluster.workers worker)).2)
        (noteDutyFile worker call (fileSem call choice (cluster.workers worker)).1 duty) confirmed := by
  have still : Landing X registered blobHash (withWorker cluster worker (cluster.workers worker))
      duty confirmed := by
    rw [with_worker_same]
    exact now
  have quiet : ∀ call : FileCall,
      (∀ path, call ≠ .createDirectories path ∧ call ≠ .openTrunc path ∧
        (∀ chunk, call ≠ .append path chunk) ∧
      call ≠ .remove path) → Landing X registered blobHash
        (withWorker cluster worker (fileSem call choice (cluster.workers worker)).2)
        duty confirmed := by
    intro call reads
    rw [quiet_files call choice _ reads]
    exact still
  cases call with
  | createDirectories path =>
      obtain ⟨rfl, known⟩ := asks
      constructor
      · trivial
      · cases works : choice.failure with
        | none =>
            rw [blobs_stay works (now.usable worker known).blobs]
            exact still
        | some reason =>
            rw [fileSem, works]
            exact still
  | openTrunc path =>
      obtain ⟨copy, held, rfl, rfl⟩ := asks
      obtain ⟨hash, address⟩ := copy
      obtain ⟨own, -⟩ := landing_held now held
      obtain rfl : hash = blobHash := own
      exact ⟨trivial, landing_open now ordinary choice held⟩
  | append path chunk =>
      obtain ⟨copy, bytes, writing, held, rfl, rfl⟩ := asks
      obtain ⟨hash, address⟩ := copy
      obtain ⟨own, -⟩ := landing_held now held
      obtain rfl : hash = blobHash := own
      exact ⟨trivial, landing_append now ordinary chunk choice whole held writing⟩
  | remove path =>
      cases asks with
      | inl writes =>
          obtain ⟨copy, bytes, writing, held, rfl, rfl⟩ := writes
          obtain ⟨hash, address⟩ := copy
          obtain ⟨own, -⟩ := landing_held now held
          obtain rfl : hash = blobHash := own
          exact ⟨trivial, landing_remove now ordinary choice held⟩
      | inr listed =>
          obtain ⟨reading, reads, -⟩ := listed
          cases now.reading.symm.trans reads
  | read path offset count =>
      obtain ⟨reading, reads, -⟩ := asks
      cases now.reading.symm.trans reads
  | fileExists path => exact ⟨trivial, quiet _ (fun _ => by simp)⟩
  | fileSize path => exact ⟨trivial, quiet _ (fun _ => by simp)⟩
  | openRead path => exact ⟨trivial, quiet _ (fun _ => by simp)⟩
  | space path => exact ⟨trivial, quiet _ (fun _ => by simp)⟩

theorem landing_row_step (now : Landing X registered blobHash cluster duty confirmed)
    (ordinary : OrdinaryName blobHash) (call : SpannerCall) (choice : DbChoice)
    (asks : dutyRows X registered call duty) (only : StoresOnly (.spanner call))
    (within : (uploadBounds registered blobHash).Rows call) :
    (dutyRowReplies registered call (spannerSem call choice cluster.tables).1 duty ∧
        (uploadBounds registered blobHash).RowReplies call (spannerSem call choice cluster.tables).1) ∧
      Landing X registered blobHash (withTables cluster (spannerSem call choice cluster.tables).2)
        (noteDutyRows call (spannerSem call choice cluster.tables).1 duty)
        (noteConfirmed (.spanner call) (spannerSem call choice cluster.tables).1 confirmed) := by
  have stored : ∀ row ∈ cluster.tables.workerState.rows, (uploadBounds registered blobHash).workerRow row :=
    fun row member => (now.workers _).mp (registered_rows cluster.tables row member)
  have unsized : Unsized (uploadBounds registered blobHash) cluster.tables :=
    fun row member => ⟨(now.rows row member).1, (now.rows row member).2.2⟩
  obtain ⟨spared, replied⟩ := spanner_stays call within stored unsized choice
  cases call with
  | selectWorkers query =>
      refine ⟨⟨workers_answered now.workers query choice duty, replied⟩, ?_⟩
      rw [(select_tables choice cluster.tables).2]
      exact now
  | selectBlobs query =>
      cases query with
      | savedByHash hash => exact only.elim
      | byHashAndWorker hash address =>
          refine ⟨⟨copies_answered hash address choice cluster.tables duty, replied⟩, ?_⟩
          rw [(select_tables choice cluster.tables).1]
          exact now
  | commit mutation =>
      cases mutation with
      | insertBlob entry =>
          obtain ⟨told, landed⟩ := landing_insert now ordinary entry choice within.1.1 asks.2.2 spared
          exact ⟨⟨told, replied⟩, landed⟩
      | updateBlob entry =>
          obtain ⟨held, saved, bytes, writing, hashed⟩ := asks
          exact ⟨⟨trivial, replied⟩,
            landing_update now ordinary entry choice held saved writing hashed spared⟩
      | updateWorker row =>
          have same : rowStates (spannerSem (.commit (.updateWorker row)) choice cluster.tables).2 =
              rowStates cluster.tables := by
            rw [spannerSem]
            cases commit_tables (.updateWorker row) choice cluster.tables with
            | inl same => rw [same]
            | inr applied =>
                obtain ⟨rows, -, after⟩ := Option.map_eq_some_iff.mp applied
                rw [← after]
                rfl
          refine ⟨⟨trivial, replied⟩, ?_⟩
          apply landing_rows now ordinary spared
          · rw [same]
            exact ledger_same now
          · rw [same]
            exact now.filed
          · rfl
          · exact now.distinct
          · rw [same]
            exact now.confirmed
      | deleteBlobsByHash hash => exact only.elim
      | deleteBlobsByWorker address => exact asks.elim
      | insertWorker row => exact asks.elim
      | deleteWorker address => exact asks.elim

theorem landing_step (now : Landing X registered blobHash cluster duty confirmed)
    (ordinary : OrdinaryName blobHash) (call : ClusterCall) (choice : Choice)
    (whole : WholeWrites choice.file) (asks : dutyPermits X registered call duty)
    (only : StoresOnly call) (within : (uploadBounds registered blobHash).Touches call) :
    (dutyReplies X registered call (clusterSem call choice cluster).1 duty ∧
        (uploadBounds registered blobHash).Replies call (clusterSem call choice cluster).1) ∧
      Landing X registered blobHash (clusterSem call choice cluster).2
        (noteDuty call (clusterSem call choice cluster).1 duty)
        (noteConfirmed call (clusterSem call choice cluster).1 confirmed) := by
  cases call with
  | spanner call => exact landing_row_step now ordinary call choice.db asks only within
  | workerFile worker call =>
      obtain ⟨told, landed⟩ := landing_worker_step now ordinary call choice.file whole asks
      exact ⟨⟨told, trivial⟩, landed⟩
  | frontendFile call =>
      exact ⟨⟨trivial, trivial⟩, now.workers, now.usable, now.rows, now.ledger, now.filed,
        now.reading, now.distinct, now.confirmed⟩
  | rpc => exact ⟨⟨trivial, trivial⟩, now⟩
  | streamOpen => exact ⟨⟨trivial, trivial⟩, now⟩
  | rand => exact ⟨⟨trivial, trivial⟩, now⟩

theorem landing_start (orderly : Orderly cluster)
    (unsized : ∀ row ∈ cluster.tables.blobCopy.rows, row.sizeMb = 0)
    (ordinary : OrdinaryName blobHash)
    (stored : ∀ worker, Copy .saved cluster.tables (blobHash, worker) →
      StoredCopy X blobHash cluster worker) :
    Landing X (Registered cluster.tables) blobHash cluster {} [] := by
  have file : ∀ copy, shareOf blobHash (rowStates cluster.tables) copy = some .saved →
      ∃ bytes, shareOf blobHash (blobNode cluster) copy = some (.file bytes) ∧ X.blobHash bytes = copy.1 := by
    intro copy saved
    obtain ⟨hash, worker⟩ := copy
    obtain ⟨own, is⟩ := share_some saved
    obtain rfl : hash = blobHash := own
    obtain ⟨row, there, isSaved⟩ := Option.map_eq_some_iff.mp is
    obtain ⟨known, -, bytes, content, hashed⟩ := stored worker ⟨row, there, isSaved⟩
    refine ⟨bytes, ?_, hashed⟩
    rw [share_here]
    exact (node_of_content (orderly.usable worker known) ordinary bytes).mp content
  constructor
  · exact fun _ => .rfl
  · exact orderly.usable
  · exact fun row member => ⟨unsized row member, orderly.rows row member⟩
  · constructor
    · exact fun _ => kept_idle
    · exact fun _ _ _ member => by cases member
    · intro copy bytes saved there
      obtain ⟨other, same, hashed⟩ := file copy saved
      obtain rfl : bytes = other := Node.file.inj (Option.some.inj (there.symm.trans same))
      exact hashed
  · intro copy saved
    obtain ⟨bytes, there, -⟩ := file copy saved
    exact ⟨bytes, there⟩
  · rfl
  · exact List.nodup_nil
  · exact fun _ member => by cases member

theorem landing_kept (now : Landing X registered blobHash cluster duty confirmed)
    (ordinary : OrdinaryName blobHash) (copy : Copy .saved cluster.tables (blobHash, worker)) :
    ∃ bytes, X.blobHash bytes = blobHash ∧ Kept blobHash bytes cluster worker := by
  obtain ⟨row, there, saved⟩ := copy
  have is : shareOf blobHash (rowStates cluster.tables) (blobHash, worker) = some .saved := by
    rw [share_here, rowStates, there, Option.map_some, saved]
  obtain ⟨bytes, filed⟩ := now.filed _ is
  obtain ⟨member, keyed⟩ := (Table.find_some_iff _ _ _).mp there
  obtain rfl : row.workerAddress = worker := congrArg Prod.snd keyed
  have known := (now.rows row member).2.2
  have usable := now.usable _ known
  refine ⟨bytes, now.ledger.intact _ bytes is filed,
    ⟨⟨row, there, saved⟩, (now.workers _).mpr known, usable.blobs, ?_⟩, usable⟩
  exact (node_of_content usable ordinary bytes).mpr (share_some filed).2

end Steps

section Run

variable {ι : Type} [DecidableEq ι]

-- What is noted of the upload; of the others nothing is.
def noteUploading (call : ClusterCall) (reply : ClusterReply call)
    (noted : Duty × List (String × String)) : Duty × List (String × String) :=
  (noteDuty call reply noted.1, noteConfirmed call reply noted.2)

def uploadAsks (X : Xxh64) (registered : String → Prop) (blobHash : String) (call : ClusterCall)
    (noted : Duty × List (String × String)) : Prop :=
  (dutyPermits X registered call noted.1 ∧ StoresOnly call) ∧ (uploadBounds registered blobHash).Touches call

def uploadHears (X : Xxh64) (registered : String → Prop) (blobHash : String) (call : ClusterCall)
    (reply : ClusterReply call) (noted : Duty × List (String × String)) : Prop :=
  (dutyReplies X registered call reply noted.1 ∧ True) ∧ (uploadBounds registered blobHash).Replies call reply

def Acknowledges (blobHash : String) (response : ClientResponse)
    (noted : Duty × List (String × String)) : Prop :=
  ∀ told, response = .uploaded (.ok (.ok told)) → told = blobHash ∧ 3 ≤ noted.2.length

theorem upload_acknowledges (X : Xxh64) (registered : String → Prop) (service : FrontendServiceImpl)
    (messages : List UploadBlobRequest) :
    meets (noting noteUploading (uploadAsks X registered ((Request.uploadBlob service messages).blobHash X))
        (uploadHears X registered ((Request.uploadBlob service messages).blobHash X)))
      ((Request.uploadBlob service messages).program X)
        (Acknowledges ((Request.uploadBlob service messages).blobHash X)) ({}, []) := by
  have duties : meets (noting noteDuty (dutyPermits X registered) (dutyReplies X registered))
      ((Request.uploadBlob service messages).program X)
      (fun response _ => (Request.uploadBlob service messages).Truthful X response) {} :=
        request_duties (Request.uploadBlob service messages)
  have bounded := @upload_bounded
    (uploadBounds registered ((Request.uploadBlob service messages).blobHash X))
    (fun _ known => known) X service messages
    rfl trivial
  refine meets_mono noting_monotone _ _ _ _ ?_
    (meets_within _ _ _ _ (meets_both _ _ _ _ _ duties (upload_confirms X service messages)) bounded)
  intro response noted both told answered
  exact ⟨both.2 told answered, both.1.2 told answered⟩

section Turns

variable (X : Xxh64) (registered : String → Prop) (requests : ι → Request) (uploader : ι)

-- The upload keeps to its own contract, every other request stands by.
def askedBy (proc : ι) : ClusterCall → Duty × List (String × String) → Prop :=
  if proc = uploader then uploadAsks X registered ((requests uploader).blobHash X)
  else fun call _ => Reaches
    (bystander ((requests uploader).blobHash X) registered ((requests proc).blobHash X)) call

def heardBy (proc : ι) : (call : ClusterCall) → ClusterReply call → Duty × List (String × String) → Prop :=
  if proc = uploader then uploadHears X registered ((requests uploader).blobHash X)
  else fun call reply _ => Hears
    (bystander ((requests uploader).blobHash X) registered ((requests proc).blobHash X)) call reply

def answeredBy (proc : ι) : ClientResponse → Duty × List (String × String) → Prop :=
  if proc = uploader then Acknowledges ((requests uploader).blobHash X) else fun _ _ => True

end Turns

variable {X : Xxh64} {registered : String → Prop} {requests : ι → Request} {uploader : ι}

theorem turn_meets (service : FrontendServiceImpl) (messages : List UploadBlobRequest)
    (uploads : requests uploader = .uploadBlob service messages)
    (others : ∀ proc, proc ≠ uploader → (requests proc).Writes →
      (requests proc).blobHash X ≠ (requests uploader).blobHash X) (proc : ι) :
    meets (noting noteUploading (askedBy X registered requests uploader proc)
      (heardBy X registered requests uploader proc))
      ((requests proc).program X) (answeredBy X requests uploader proc) ({}, []) := by
  rw [askedBy, heardBy, answeredBy]
  by_cases same : proc = uploader
  · rw [if_pos same, if_pos same, if_pos same, same, uploads]
    exact upload_acknowledges X registered service messages
  · rw [if_neg same, if_neg same, if_neg same]
    apply meets_beside
    exact @request_reaches (bystander ((requests uploader).blobHash X) registered
      ((requests proc).blobHash X)) (fun _ known => known) X (requests proc)
      rfl (others proc same)

theorem landing_turn (ordinary : OrdinaryName ((requests uploader).blobHash X)) (proc : ι)
    (call : ClusterCall) (choice : Choice) (cluster : Cluster)
    (noted : ι → Duty × List (String × String))
    (now : Landing X registered ((requests uploader).blobHash X) cluster (noted uploader).1
      (noted uploader).2) (whole : proc = uploader → WholeWrites choice.file)
      (asks : askedBy X registered requests uploader proc call (noted proc)) :
    let reply := (clusterSem call choice cluster).1
    let later := Function.update noted proc (noteUploading call reply (noted proc))
    heardBy X registered requests uploader proc call reply (noted proc) ∧
      Landing X registered ((requests uploader).blobHash X) (clusterSem call choice cluster).2
        (later uploader).1 (later uploader).2 := by
  dsimp only
  rw [heardBy]
  rw [askedBy] at asks
  by_cases same : proc = uploader
  · subst same
    rw [if_pos rfl] at asks ⊢
    obtain ⟨told, landed⟩ := landing_step now ordinary call choice (whole rfl) asks.1.1 asks.1.2 asks.2
    rw [Function.update_self]
    exact ⟨⟨⟨told.1, trivial⟩, told.2⟩, landed⟩
  · rw [if_neg same] at asks ⊢
    have stored : ∀ row ∈ cluster.tables.workerState.rows, registered row.workerAddress :=
      fun row member => (now.workers _).mp (registered_rows cluster.tables row member)
    obtain ⟨untouched, hears⟩ :=
      request_untouched ((requests proc).blobHash X) now.rows stored call choice asks
    rw [Function.update_of_ne (Ne.symm same)]
    exact ⟨hears, landing_untouched now untouched⟩

theorem landing_run (service : FrontendServiceImpl) (messages : List UploadBlobRequest)
    (uploads : requests uploader = .uploadBlob service messages)
    (others : ∀ proc, proc ≠ uploader → (requests proc).Writes →
      (requests proc).blobHash X ≠ (requests uploader).blobHash X)
    (home : Cluster) (begins : Landing X registered ((requests uploader).blobHash X) home {} [])
    (schedule : List (ι × Choice))
    (whole : ∀ turn ∈ schedule, turn.1 = uploader → WholeWrites turn.2.file) :
    let after := (requestPool X requests home).run clusterSem schedule
    ∃ noted : Duty × List (String × String),
      Landing X registered ((requests uploader).blobHash X) after.state noted.1 noted.2 ∧
      ∀ response, after.procs uploader = .pure response →
          Acknowledges ((requests uploader).blobHash X) response noted := by
  intro after
  have ordinary : OrdinaryName ((requests uploader).blobHash X) := by
    rw [uploads]
    exact blob_hash_ordinary X _
  obtain ⟨noted, landing, programs⟩ := Pool.noted_holds clusterSem ({}, []) (answeredBy X requests uploader)
    (fun state noted => Landing X registered ((requests uploader).blobHash X) state
      (noted uploader).1 (noted uploader).2)
    (fun turn => turn.1 = uploader → WholeWrites turn.2.file)
    (fun proc call choice state noted now allowed asks =>
      landing_turn ordinary proc call choice state noted now allowed asks)
    (fun proc => (requests proc).program X) home schedule
      (turn_meets service messages uploads others) begins whole
  refine ⟨noted uploader, landing, ?_⟩
  intro response answered
  have ended := programs uploader
  rw [answeredBy, if_pos rfl] at ended
  have last : ((Pool.start (fun proc => (requests proc).program X) home).run clusterSem
      schedule).procs uploader = .pure response := answered
  rw [last] at ended
  exact ended

-- The bounds of each request when any worker may come up at any address.
def anywhere (X : Xxh64) (requests : ι → Request) (uploader proc : ι) : Bounds :=
  if proc = uploader then uploadBounds (fun _ => True) ((requests uploader).blobHash X)
  else bystander ((requests uploader).blobHash X) (fun _ => True) ((requests proc).blobHash X)

def Unmeasured (cluster : Cluster) : Prop :=
  ∀ row ∈ cluster.tables.blobCopy.rows, row.sizeMb = 0 ∧ OrdinaryName row.hash

theorem unmeasured_keeps (ordinary : OrdinaryName ((requests uploader).blobHash X)) :
    KeepsBounds clusterSem Unmeasured (fun proc => Reaches (anywhere X requests uploader proc))
      (fun proc => Hears (anywhere X requests uploader proc))
      (fun _ _ _ => True) := by
  intro proc call choice cluster now reaches _
  dsimp only [anywhere] at reaches ⊢
  by_cases same : proc = uploader
  · rw [if_pos same] at reaches ⊢
    have named : OrdinaryName
        (uploadBounds (fun _ => True) ((requests uploader).blobHash X)).blobHash := ordinary
    rw [Reaches, if_pos named] at reaches
    rw [Hears, if_pos named]
    cases call with
    | spanner call =>
        obtain ⟨spared, replied⟩ := spanner_stays call reaches (fun _ _ => trivial)
          (fun row member => ⟨(now row member).1, trivial⟩) choice.db
        refine ⟨?_, replied⟩
        intro row member
        cases spared.rows row member with
        | inl before => exact now row before
        | inr own => exact ⟨own.2.1, own.1 ▸ named⟩
    | workerFile worker call => exact ⟨now, trivial⟩
    | frontendFile call => exact ⟨now, trivial⟩
    | rpc => exact ⟨now, trivial⟩
    | streamOpen => exact ⟨now, trivial⟩
    | rand => exact ⟨now, trivial⟩
  · rw [if_neg same] at reaches ⊢
    obtain ⟨untouched, hears⟩ := request_untouched ((requests proc).blobHash X)
      (fun row member => ⟨(now row member).1, (now row member).2, trivial⟩)
        (fun _ _ => trivial) call choice reaches
    refine ⟨?_, hears⟩
    intro row member
    cases untouched.rows row member with
    | inl before => exact now row before
    | inr fresh => exact ⟨fresh.1, fresh.2.1⟩

-- Wherever the others are when it has been answered, they go on as bystanders.
theorem others_go_on (service : FrontendServiceImpl) (messages : List UploadBlobRequest)
    (uploads : requests uploader = .uploadBlob service messages)
    (others : ∀ proc, proc ≠ uploader → (requests proc).Writes →
      (requests proc).blobHash X ≠ (requests uploader).blobHash X)
    (home : Cluster) (unmeasured : Unmeasured home) (schedule : List (ι × Choice)) (proc : ι)
    (different : proc ≠ uploader) :
    meets (activityContract X ((requests uploader).blobHash X) (.client (requests proc)))
      (ActivityOutcome.answered <$>
        ((requestPool X requests home).run clusterSem schedule).procs proc)
        (Activity.client (requests proc)).Ends false := by
  have ordinary : OrdinaryName ((requests uploader).blobHash X) := by
    rw [uploads]
    exact blob_hash_ordinary X _
  have begins : Pool.Within Unmeasured (fun proc => Reaches (anywhere X requests uploader proc))
      (fun proc => Hears (anywhere X requests uploader proc))
      (requestPool X requests home) := by
    refine ⟨unmeasured, ?_⟩
    intro proc
    dsimp only [anywhere]
    by_cases same : proc = uploader
    · rw [if_pos same]
      exact @request_reaches (uploadBounds (fun _ => True) ((requests uploader).blobHash X))
        (fun _ _ => trivial) X (requests proc)
        (congrArg (fun proc => (requests proc).blobHash X) same) (fun _ => trivial)
    · rw [if_neg same]
      exact @request_reaches (bystander ((requests uploader).blobHash X) (fun _ => True)
        ((requests proc).blobHash X)) (fun _ _ => trivial) X
        (requests proc) rfl (others proc same)
  have anything : Pool.Along clusterSem (Pool.Permits (fun _ _ _ => True))
      (requestPool X requests home) schedule :=
    Pool.along_of_prefixes clusterSem _ _ schedule (fun _ _ _ _ _ _ _ => trivial)
  have going := (Pool.within_run (unmeasured_keeps ordinary) begins anything).2 proc
  dsimp only [anywhere] at going
  rw [if_neg different] at going
  rw [map_eq_pure_bind, meets_bind]
  exact meets_beside noteCleared _ false going

variable {κ : Type} [DecidableEq κ]

-- After the upload has been answered the other requests go on where they are, and later
-- ones begin.
def resumed (X : Xxh64) (answered : Pool ι ClusterCall ClusterReply ClientResponse Cluster)
    (later : κ → Activity) :
    ι ⊕ κ → ClusterM ActivityOutcome :=
  Sum.elim (fun proc => ActivityOutcome.answered <$> answered.procs proc) (fun proc => (later proc).program X)

def resumedActivities (requests : ι → Request) (later : κ → Activity) : ι ⊕ κ → Activity :=
  Sum.elim (fun proc => .client (requests proc)) later

omit [DecidableEq ι] [DecidableEq κ] in
theorem resumed_restarts (later : κ → Activity) (worker : String) :
    Restarts (resumedActivities requests later) worker ↔ Restarts later worker := by
  constructor
  · intro restarts
    obtain ⟨proc, starts⟩ := restarts
    cases proc with
    | inl proc => cases starts
    | inr proc => exact ⟨proc, starts⟩
  · intro restarts
    obtain ⟨proc, starts⟩ := restarts
    exact ⟨.inr proc, starts⟩

-- The hash that an upload has been answered with.
def uploadedHash : ClusterM ClientResponse → Option String
  | .pure (.uploaded (.ok (.ok told))) => some told
  | _ => none

theorem uploaded_hash_some {program : ClusterM ClientResponse} {told : String}
    (answered : uploadedHash program = some told) :
    program = .pure (.uploaded (.ok (.ok told))) := by
  cases program with
  | call effect next => cases answered
  | pure response =>
      cases response with
      | got outcome received => cases answered
      | deleted outcome => cases answered
      | uploaded outcome =>
          cases outcome with
          | error thrown => cases answered
          | ok result =>
              cases result with
              | error status => cases answered
              | ok hash => rw [Option.some.inj answered]

-- All of these workers but one may lose their disks and come back, while requests go on
-- that leave the blob alone, and it can still be read.
def Endures (κ : Type) [DecidableEq κ] (X : Xxh64) (blobHash : String) (workers : List String)
    (answered : Pool ι ClusterCall ClusterReply ClientResponse Cluster) : Prop :=
  ∀ later : κ → Activity, (∀ proc, (later proc).Spares X blobHash) →
    (∃ worker ∈ workers, ¬ Restarts later worker) →
    ∀ crashed : Cluster, crashed.tables = answered.state.tables →
      (∀ worker, ¬ Restarts later worker → crashed.workers worker = answered.state.workers worker) →
      ∀ turns : List ((ι ⊕ κ) × Choice),
        let after := (Pool.start (resumed X answered later) crashed).run clusterSem turns
        (∀ proc address, later proc = .start address → isRegistered (after.procs (.inr proc)) = true) →
          ∀ (service : FrontendServiceImpl) (getting : List (List Choice)),
            (∀ choices ∈ getting, ∀ choice ∈ choices, Healthy choice) →
            ∃ received, (clientStep X service (.getBlob blobHash, getting) after.state).1 =
              .got (.ok (.ok ())) received ∧
              X.blobHash received.flatten = blobHash

-- An upload that is answered with OK is stored for good: whatever fails and however the
-- requests overlap, the answer is the hash of what was sent, and three workers have the
-- blob by then, any one of which is enough.
theorem acknowledged_upload_endures (X : Xxh64) (requests : ι → Request) (uploader : ι)
    (service : FrontendServiceImpl) (messages : List UploadBlobRequest)
    (uploads : requests uploader = .uploadBlob service messages)
    (others : ∀ proc, proc ≠ uploader → (requests proc).Writes →
      (requests proc).blobHash X ≠ (requests uploader).blobHash X)
    (home : Cluster) (orderly : Orderly home)
    (unsized : ∀ row ∈ home.tables.blobCopy.rows, row.sizeMb = 0)
    (stored : ∀ worker, Copy .saved home.tables ((requests uploader).blobHash X, worker) →
      StoredCopy X ((requests uploader).blobHash X) home worker)
    (schedule : List (ι × Choice))
    (whole : ∀ turn ∈ schedule, turn.1 = uploader → WholeWrites turn.2.file) (told : String)
    (answered : uploadedHash
      (((requestPool X requests home).run clusterSem schedule).procs uploader) = some told) :
    let acknowledged := (requestPool X requests home).run clusterSem schedule
    told = (requests uploader).blobHash X ∧ ∃ workers : List String, 3 ≤ workers.length ∧ workers.Nodup ∧
      (∀ worker ∈ workers, StoredCopy X told acknowledged.state worker) ∧
        Endures κ X told workers acknowledged := by
  intro acknowledged
  have answered := uploaded_hash_some answered
  have ordinary : OrdinaryName ((requests uploader).blobHash X) := by
    rw [uploads]
    exact blob_hash_ordinary X _
  obtain ⟨noted, landing, acknowledges⟩ := landing_run service messages uploads others home
    (landing_start orderly unsized ordinary stored) schedule whole
  obtain ⟨rfl, three⟩ := acknowledges _ answered told rfl
  have saved : ∀ copy ∈ noted.2, copy.1 = (requests uploader).blobHash X ∧
      Copy .saved acknowledged.state.tables ((requests uploader).blobHash X, copy.2) := by
    intro copy member
    obtain ⟨hash, worker⟩ := copy
    obtain ⟨own, is⟩ := share_some (landing.confirmed _ member)
    obtain ⟨row, there, isSaved⟩ := Option.map_eq_some_iff.mp is
    obtain rfl : hash = (requests uploader).blobHash X := own
    exact ⟨rfl, row, there, isSaved⟩
  refine ⟨rfl, noted.2.map Prod.snd, ?_, ?_, ?_, ?_⟩
  · rw [List.length_map]
    exact three
  · apply List.Nodup.map_on ?_ landing.distinct
    intro one first two second same
    exact Prod.ext ((saved one first).1.trans (saved two second).1.symm) same
  · intro worker member
    obtain ⟨copy, inside, rfl⟩ := List.mem_map.mp member
    obtain ⟨bytes, hashed, kept⟩ := landing_kept landing ordinary (saved copy inside).2
    exact ⟨kept.backed.registered, kept.backed.saved, bytes, kept.backed.content, hashed⟩
  · intro later spares one crashed tables disks turns after registered frontend getting healthy
    have kept : ∀ worker bytes, ¬ Restarts later worker →
        Kept ((requests uploader).blobHash X) bytes acknowledged.state worker →
        Kept ((requests uploader).blobHash X) bytes crashed worker := by
      intro worker bytes runs kept
      have same := disks worker runs
      exact ⟨⟨tables ▸ kept.backed.saved, tables ▸ kept.backed.registered, same ▸ kept.backed.blobs,
        same ▸ kept.backed.content⟩, same ▸ kept.usable⟩
    have standing : ∀ row ∈ crashed.tables.blobCopy.rows, row.sizeMb = 0 ∧ OrdinaryName row.hash := by
      rw [tables]
      exact fun row member => ⟨(landing.rows row member).1, (landing.rows row member).2.1⟩
    have meet : ∀ proc,
        meets (activityContract X ((requests uploader).blobHash X)
          (resumedActivities requests later proc))
        (resumed X acknowledged later proc) (resumedActivities requests later proc).Ends false := by
      intro proc
      cases proc with
      | inl proc =>
          by_cases same : proc = uploader
          · have finished : resumed X acknowledged later (.inl proc) =
                .pure (.answered (.uploaded (.ok (.ok ((requests uploader).blobHash X))))) := by
              rw [same]
              exact congrArg (fun program => ActivityOutcome.answered <$> program) answered
            rw [finished]
            trivial
          · have unmeasured : Unmeasured home :=
              fun row member => ⟨unsized row member, (orderly.rows row member).1⟩
            exact others_go_on service messages uploads others home unmeasured schedule proc same
      | inr proc => exact activity_meets X _ (later proc) (spares proc)
    have backed : ∀ worker, Copy .saved crashed.tables ((requests uploader).blobHash X, worker) →
        Restarts (resumedActivities requests later) worker ∨
          ∃ bytes, X.blobHash bytes = (requests uploader).blobHash X ∧
              Kept ((requests uploader).blobHash X) bytes crashed worker := by
      intro worker copy
      rw [resumed_restarts]
      by_cases restarts : Restarts later worker
      · exact .inl restarts
      · obtain ⟨bytes, hashed, whole⟩ := landing_kept landing ordinary (tables ▸ copy)
        exact .inr ⟨bytes, hashed, kept worker bytes restarts whole⟩
    have left : ∃ worker bytes, ¬ Restarts (resumedActivities requests later) worker ∧
        Kept ((requests uploader).blobHash X) bytes crashed worker := by
      obtain ⟨worker, member, runs⟩ := one
      obtain ⟨copy, inside, rfl⟩ := List.mem_map.mp member
      obtain ⟨bytes, -, whole⟩ := landing_kept landing ordinary (saved copy inside).2
      exact ⟨copy.2, bytes, fun restarts => runs ((resumed_restarts later _).mp restarts),
        kept copy.2 bytes runs whole⟩
    obtain ⟨-, downloads⟩ := restarts_survived X (resumedActivities requests later) crashed
      ((requests uploader).blobHash X) ordinary
      (fun got => X.blobHash got = (requests uploader).blobHash X) standing
        (resumed X acknowledged later) meet backed left turns
    apply downloads ?_ frontend getting healthy
    intro proc address starts
    cases proc with
    | inl proc => cases starts
    | inr proc => exact registered proc address starts

end Run

-- The download begins while the upload is on its way to the second worker.
def readBeforeAnswer : List (Bool × Choice) :=
  (List.replicate 24 false ++ List.replicate 4 true ++ List.replicate 26 false).map (fun proc => (proc, {}))

def answeredUpload : Pool Bool ClusterCall ClusterReply ClientResponse Cluster :=
  (requestPool referenceXxh64 uploadAndGet threeFreshWorkers).run clusterSem readBeforeAnswer

def twoComeBack : Bool → Activity
  | false => .start "worker-1"
  | true => .start "worker-2"

def twoDisksLost : Cluster :=
  { answeredUpload.state with
    workers := fun worker => if worker = "worker-1" ∨ worker = "worker-2" then ⟨["app"], ∅⟩
      else answeredUpload.state.workers worker }

def readAfterLoss : List ((Bool ⊕ Bool) × Choice) :=
  List.replicate 6 (.inr false, default) ++ List.replicate 10 (.inl true, default) ++
    List.replicate 6 (.inr true, default)

theorem two_come_back (worker : String) :
    Restarts twoComeBack worker ↔ worker = "worker-1" ∨ worker = "worker-2" := by
  constructor
  · intro restarts
    obtain ⟨proc, starts⟩ := restarts
    cases proc with
    | false => exact .inl (Activity.start.inj starts).symm
    | true => exact .inr (Activity.start.inj starts).symm
  · intro either
    cases either with
    | inl one => exact ⟨false, one ▸ rfl⟩
    | inr two => exact ⟨true, two ▸ rfl⟩

theorem one_of_three_stays {workers : List String} (three : 3 ≤ workers.length) (distinct : workers.Nodup) :
    ∃ worker ∈ workers, ¬ Restarts twoComeBack worker := by
  by_contra none
  have lost : workers ⊆ ["worker-1", "worker-2"] := by
    intro worker member
    by_cases restarts : Restarts twoComeBack worker
    · simpa using (two_come_back worker).mp restarts
    · exact absurd ⟨worker, member, restarts⟩ none
  have two := (distinct.subperm lost).length_le
  rw [List.length_cons, List.length_singleton] at two
  omega

theorem acknowledged_upload_endures_run :
    let blobHash := "15154266338359012955"
    let after := (Pool.start (resumed referenceXxh64 answeredUpload twoComeBack) twoDisksLost).run
      clusterSem readAfterLoss
    rowsOf blobHash after.state.tables.blobCopy = [⟨blobHash, "worker-0", .saved, 0⟩] ∧
      ∃ received, (clientStep referenceXxh64 oneMaster (.getBlob blobHash, []) after.state).1 =
        .got (.ok (.ok ())) received ∧
        referenceXxh64.blobHash received.flatten = blobHash := by
  intro blobHash after
  have others : ∀ proc, proc ≠ false → (uploadAndGet proc).Writes →
      (uploadAndGet proc).blobHash referenceXxh64 ≠ (uploadAndGet false).blobHash referenceXxh64 := by
    intro proc different
    cases proc with
    | false => exact absurd rfl different
    | true => exact fun writes => writes.elim
  have whole : ∀ turn ∈ readBeforeAnswer, turn.1 = false → WholeWrites turn.2.file := by
    intro turn member _ count short
    obtain ⟨proc, -, rfl⟩ := List.mem_map.mp member
    cases short
  have nothing : ∀ worker, ¬ Copy .saved threeFreshWorkers.tables
      ((uploadAndGet false).blobHash referenceXxh64, worker) := by
    intro worker copy
    obtain ⟨row, there, -⟩ := copy
    cases there
  obtain ⟨-, workers, three, distinct, -, endures⟩ :=
    @acknowledged_upload_endures Bool _ Bool _ referenceXxh64 uploadAndGet false oneMaster
    [.info 1, .chunkData [97]] rfl others threeFreshWorkers three_fresh_orderly
      (fun _ member => by cases member)
    (fun worker copy => absurd copy (nothing worker)) readBeforeAnswer whole blobHash (by decide +kernel)
  have back : ∀ proc, isRegistered
      (((Pool.start (resumed referenceXxh64 answeredUpload twoComeBack) twoDisksLost).run clusterSem
        readAfterLoss).procs (.inr proc)) = true := by
    decide +kernel
  have spares : ∀ proc, (twoComeBack proc).Spares referenceXxh64 blobHash := by
    intro proc
    cases proc with
    | false => exact trivial
    | true => exact trivial
  have tables : twoDisksLost.tables = answeredUpload.state.tables := by rw [twoDisksLost]
  have disks : ∀ worker, ¬ Restarts twoComeBack worker →
      twoDisksLost.workers worker = answeredUpload.state.workers worker := by
    intro worker runs
    rw [twoDisksLost]
    exact if_neg (fun either => runs ((two_come_back worker).mpr either))
  have again : Endures Bool referenceXxh64 blobHash workers answeredUpload := endures
  exact ⟨by decide +kernel, again twoComeBack spares (one_of_three_stays three distinct)
    twoDisksLost tables disks readAfterLoss
    (fun proc _ _ => back proc) oneMaster [] (fun _ member => by cases member)⟩

end BlobStore
