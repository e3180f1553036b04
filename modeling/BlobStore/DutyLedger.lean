import BlobStore.Duties

set_option autoImplicit false

namespace BlobStore

-- What a request knows to be true of the rows and the files while it goes on.
structure DutyKept (X : Xxh64) (files : String × String → Option Node)
    (rows : String × String → Option BlobState) (duty : Duty) : Prop where
  held : ∀ copy ∈ duty.copies, rows copy = some .duringCreation
  written : ∀ copy bytes, duty.writing = some (copy, bytes) → copy ∈ duty.copies →
    files copy = some (.file bytes)
  listed : ∀ reading, duty.reading = some reading → ∀ worker ∈ reading.workers,
    rows (reading.blobHash, worker) = some .saved
  served : ∀ reading, duty.reading = some reading → Served X reading.blobHash reading.got
  ahead : ∀ reading worker bytes, duty.reading = some reading → reading.workers.head? = some worker →
    files (reading.blobHash, worker) = some (.file bytes) → reading.got <+: bytes

-- No copy is reserved by two requests, and every saved copy that has a file has the right
-- one.
structure DutyLedger {ι : Type} (X : Xxh64) (files : String × String → Option Node)
    (rows : String × String → Option BlobState) (duties : ι → Duty) : Prop where
  kept : ∀ proc, DutyKept X files rows (duties proc)
  alone : ∀ one other copy, copy ∈ (duties one).copies → copy ∈ (duties other).copies → one = other
  intact : ∀ copy bytes, rows copy = some .saved → files copy = some (.file bytes) → X.blobHash bytes = copy.1

section Kept

variable {X : Xxh64} {files : String × String → Option Node}
  {rows : String × String → Option BlobState} {duty : Duty} {copy : String × String}

theorem kept_idle : DutyKept X files rows {} where
  held := fun _ member => by cases member
  written := fun _ _ writing => by cases writing
  listed := fun _ reading => by cases reading
  served := fun _ reading => by cases reading
  ahead := fun _ _ _ reading => by cases reading

theorem kept_file (kept : DutyKept X files rows duty) (node : Option Node)
    (unheld : copy ∉ duty.copies) (safe : rows copy ≠ some .saved ∨ node = none) :
    DutyKept X (Function.update files copy node) rows duty where
  held := kept.held
  listed := kept.listed
  served := kept.served
  written := by
    intro other bytes writing member
    have different : other ≠ copy := fun same => unheld (same ▸ member)
    rw [Function.update_of_ne different]
    exact kept.written other bytes writing member
  ahead := by
    intro reading worker bytes reads first there
    by_cases here : (reading.blobHash, worker) = copy
    · have saved := kept.listed reading reads worker (List.mem_of_head? first)
      rw [here] at saved there
      rw [Function.update_self] at there
      rcases safe with unsaved | gone
      · exact absurd saved unsaved
      · rw [gone] at there
        cases there
    · rw [Function.update_of_ne here] at there
      exact kept.ahead reading worker bytes reads first there

theorem kept_row (kept : DutyKept X files rows duty) (state : Option BlobState) (unheld : copy ∉ duty.copies)
    (unsaved : rows copy ≠ some .saved) : DutyKept X files (Function.update rows copy state) duty where
  written := kept.written
  served := kept.served
  ahead := kept.ahead
  held := by
    intro other member
    have different : other ≠ copy := fun same => unheld (same ▸ member)
    rw [Function.update_of_ne different]
    exact kept.held other member
  listed := by
    intro reading reads worker member
    have saved := kept.listed reading reads worker member
    have different : (reading.blobHash, worker) ≠ copy := fun same => unsaved (same ▸ saved)
    rw [Function.update_of_ne different]
    exact saved

theorem kept_pruned (kept : DutyKept X files rows duty) (copy : String × String) :
    DutyKept X files rows { duty with copies := duty.copies.filter (· ≠ copy) } where
  held := fun other member => kept.held other (List.mem_of_mem_filter member)
  written := fun other content writes member =>
    kept.written other content writes (List.mem_of_mem_filter member)
  listed := kept.listed
  served := kept.served
  ahead := kept.ahead

end Kept

section Steps

variable {ι : Type} {X : Xxh64} {files : String × String → Option Node}
  {rows : String × String → Option BlobState}
  {duties : ι → Duty} {proc : ι} {copy : String × String}

theorem others_unheld (now : DutyLedger X files rows duties) (held : copy ∈ (duties proc).copies) :
    ∀ other, other ≠ proc → copy ∉ (duties other).copies :=
  fun other different member => different (now.alone other proc copy member held)

theorem held_unsaved (now : DutyLedger X files rows duties) (held : copy ∈ (duties proc).copies) :
    rows copy ≠ some .saved := by
  rw [(now.kept proc).held copy held]
  intro same
  cases same

theorem fresh_unheld (now : DutyLedger X files rows duties) (fresh : rows copy = none) (other : ι) :
    copy ∉ (duties other).copies := by
  intro member
  cases fresh.symm.trans ((now.kept other).held copy member)

theorem intact_row (now : DutyLedger X files rows duties) {state : Option BlobState}
    (right : state = some .saved → ∀ bytes, files copy = some (.file bytes) → X.blobHash bytes = copy.1)
    (other : String × String) (bytes : Bytes) (saved : Function.update rows copy state other = some .saved)
    (there : files other = some (.file bytes)) : X.blobHash bytes = other.1 := by
  by_cases here : other = copy
  · subst here
    rw [Function.update_self] at saved
    exact right saved bytes there
  · rw [Function.update_of_ne here] at saved
    exact now.intact other bytes saved there

theorem kept_fresh (now : DutyLedger X files rows duties) (fresh : rows copy = none) (other : ι) :
    DutyKept X files (Function.update rows copy (some .duringCreation)) (duties other) :=
  kept_row (now.kept other) _ (fresh_unheld now fresh other) (fun saved => by cases fresh.symm.trans saved)

variable [DecidableEq ι]

theorem ledger_assembled {after : String × String → Option Node}
    {states : String × String → Option BlobState} {duty : Duty}
    (now : DutyLedger X files rows duties)
    (others : ∀ other, other ≠ proc → DutyKept X after states (duties other))
    (mine : DutyKept X after states duty)
    (claimed : ∀ copy ∈ duty.copies, copy ∈ (duties proc).copies ∨ ∀ other, other ≠ proc →
      copy ∉ (duties other).copies)
    (intact : ∀ copy bytes, states copy = some .saved → after copy = some (.file bytes) →
      X.blobHash bytes = copy.1) :
    DutyLedger X after states (Function.update duties proc duty) := by
  have apart : ∀ other copy, other ≠ proc → copy ∈ duty.copies → copy ∉ (duties other).copies := by
    intro other copy different member held
    rcases claimed copy member with before | free
    · exact different (now.alone other proc copy held before)
    · exact free other different held
  refine ⟨(Function.forall_update_iff duties (fun _ duty => DutyKept X after states duty)).mpr
    ⟨mine, others⟩, ?_, intact⟩
  intro one other copy first second
  by_cases here : one = proc
  · subst here
    by_cases same : other = one
    · exact same.symm
    · rw [Function.update_self] at first
      rw [Function.update_of_ne same] at second
      exact absurd second (apart other copy same first)
  · rw [Function.update_of_ne here] at first
    by_cases same : other = proc
    · subst same
      rw [Function.update_self] at second
      exact absurd first (apart one copy here second)
    · rw [Function.update_of_ne same] at second
      exact now.alone one other copy first second

-- Neither a row nor a file changes.
theorem ledger_noted {duty : Duty} (now : DutyLedger X files rows duties)
    (mine : DutyKept X files rows duty)
    (fewer : ∀ copy ∈ duty.copies, copy ∈ (duties proc).copies) :
    DutyLedger X files rows (Function.update duties proc duty) :=
  ledger_assembled now (fun other _ => now.kept other) mine
    (fun copy member => .inl (fewer copy member)) now.intact

theorem ledger_idle (now : DutyLedger X files rows duties) :
    DutyLedger X files rows (Function.update duties proc {}) :=
  ledger_noted now kept_idle (fun _ member => by cases member)

theorem ledger_file {duty : Duty} (now : DutyLedger X files rows duties) (node : Option Node)
    (mine : DutyKept X (Function.update files copy node) rows duty)
    (fewer : ∀ copy ∈ duty.copies, copy ∈ (duties proc).copies)
    (unheld : ∀ other, other ≠ proc → copy ∉ (duties other).copies)
    (safe : rows copy ≠ some .saved ∨ node = none) :
    DutyLedger X (Function.update files copy node) rows (Function.update duties proc duty) := by
  refine ledger_assembled now
    (fun other different => kept_file (now.kept other) node (unheld other different) safe) mine
    (fun copy member => .inl (fewer copy member)) ?_
  intro other bytes saved there
  by_cases here : other = copy
  · subst here
    rw [Function.update_self] at there
    rcases safe with unsaved | gone
    · exact absurd saved unsaved
    · rw [gone] at there
      cases there
  · rw [Function.update_of_ne here] at there
    exact now.intact other bytes saved there

theorem ledger_writes (now : DutyLedger X files rows duties)
    (held : copy ∈ (duties proc).copies) (bytes : Bytes) :
    DutyLedger X (Function.update files copy (some (.file bytes))) rows
      (Function.update duties proc { duties proc with writing := some (copy, bytes) }) := by
  have kept := now.kept proc
  refine ledger_file now _ ⟨kept.held, ?_, kept.listed, kept.served, ?_⟩ (fun _ member => member)
    (others_unheld now held) (.inl (held_unsaved now held))
  · rintro _ _ ⟨⟩ -
    exact Function.update_self _ _ _
  · intro reading worker content reads first there
    have saved := kept.listed reading reads worker (List.mem_of_head? first)
    have different : (reading.blobHash, worker) ≠ copy := fun same => held_unsaved now held (same ▸ saved)
    rw [Function.update_of_ne different] at there
    exact kept.ahead reading worker content reads first there

theorem ledger_removes (now : DutyLedger X files rows duties)
    (mine : copy ∈ (duties proc).copies ∨ rows copy = some .saved) :
    DutyLedger X (Function.update files copy none) rows
      (Function.update duties proc { duties proc with writing := none }) := by
  have kept := now.kept proc
  have unheld : ∀ other, other ≠ proc → copy ∉ (duties other).copies := by
    rcases mine with held | saved
    · exact others_unheld now held
    · exact fun other _ member => held_unsaved now member saved
  refine ledger_file now _ ⟨kept.held, (fun _ _ writing => by cases writing), kept.listed,
    kept.served, ?_⟩ (fun _ member => member) unheld (.inr rfl)
  intro reading worker content reads first there
  by_cases here : (reading.blobHash, worker) = copy
  · rw [here, Function.update_self] at there
    cases there
  · rw [Function.update_of_ne here] at there
    exact kept.ahead reading worker content reads first there

-- What is read of a saved copy continues what has been read of it.
theorem ledger_reads (now : DutyLedger X files rows duties) {reading : Reading} {worker : String}
    {more : Bytes} (reads : (duties proc).reading = some reading)
    (first : reading.workers.head? = some worker)
    (present : more = [] ∨ ∃ bytes, files (reading.blobHash, worker) = some (.file bytes) ∧
      more <+: bytes.drop reading.got.length) :
    Served X reading.blobHash (reading.got ++ more) ∧
      DutyLedger X files rows (Function.update duties proc
        { duties proc with reading := some { reading with got := reading.got ++ more } }) := by
  have kept := now.kept proc
  have within : ∀ bytes, files (reading.blobHash, worker) = some (.file bytes) →
      reading.got ++ more <+: bytes := by
    intro bytes there
    have before := kept.ahead reading worker bytes reads first there
    rcases present with rfl | ⟨stored, same, next⟩
    · rwa [List.append_nil]
    · obtain rfl : stored = bytes := Node.file.inj (Option.some.inj (same.symm.trans there))
      obtain ⟨rest, rfl⟩ := before
      rw [List.drop_left] at next
      exact (List.prefix_append_right_inj _).mpr next
  have served : Served X reading.blobHash (reading.got ++ more) := by
    rcases present with rfl | ⟨stored, there, -⟩
    · rw [List.append_nil]
      exact kept.served reading reads
    · exact .inr ⟨stored, now.intact _ stored
        (kept.listed reading reads worker (List.mem_of_head? first)) there, within stored there⟩
  refine ⟨served, ledger_noted now ⟨kept.held, kept.written, ?_, ?_, ?_⟩ (fun _ member => member)⟩
  · rintro _ ⟨⟩ other member
    exact kept.listed reading reads other member
  · rintro _ ⟨⟩
    exact served
  · rintro _ other bytes ⟨⟩ head there
    obtain rfl : worker = other := Option.some.inj (first.symm.trans head)
    exact within bytes there

theorem ledger_lists (now : DutyLedger X files rows duties) (blobHash : String) (workers : List String)
    (saved : ∀ worker ∈ workers, rows (blobHash, worker) = some .saved) :
    DutyLedger X files rows (Function.update duties proc
      { duties proc with reading := some ⟨blobHash, workers, []⟩ }) := by
  have kept := now.kept proc
  refine ledger_noted now ⟨kept.held, kept.written, ?_, ?_, ?_⟩ (fun _ member => member)
  · rintro _ ⟨⟩
    exact saved
  · rintro _ ⟨⟩
    exact .inl rfl
  · rintro _ _ _ ⟨⟩ _ _
    exact List.nil_prefix

section Rows

-- A commit that went through without saying so.
theorem ledger_reserves_unheard (now : DutyLedger X files rows duties) (fresh : rows copy = none) :
    DutyLedger X files (Function.update rows copy (some .duringCreation))
      (Function.update duties proc (duties proc)) :=
  ledger_assembled now (fun other _ => kept_fresh now fresh other) (kept_fresh now fresh proc)
    (fun _ member => .inl member)
    (intact_row now (fun saved => by cases saved))

theorem ledger_reserves (now : DutyLedger X files rows duties) (fresh : rows copy = none) :
    DutyLedger X files (Function.update rows copy (some .duringCreation))
      (Function.update duties proc
        { duties proc with copies := (duties proc).copies ++ [copy], writing := none }) := by
  have kept := kept_fresh now fresh proc
  refine ledger_assembled now (fun other _ => kept_fresh now fresh other)
    ⟨?_, (fun _ _ writing => by cases writing), kept.listed, kept.served, kept.ahead⟩ ?_
    (intact_row now (fun saved => by cases saved))
  · intro other member
    cases List.mem_append.mp member with
    | inl before => exact kept.held other before
    | inr last =>
        rw [List.mem_singleton.mp last]
        exact Function.update_self _ _ _
  · intro other member
    cases List.mem_append.mp member with
    | inl before => exact .inl before
    | inr last =>
        rw [List.mem_singleton.mp last]
        exact .inr (fun other _ => fresh_unheld now fresh other)

-- Whoever has written the copy and checked what it wrote may say that it is saved.
theorem ledger_confirms (now : DutyLedger X files rows duties) (held : copy ∈ (duties proc).copies)
    {bytes : Bytes} (writing : (duties proc).writing = some (copy, bytes))
    (hashed : X.blobHash bytes = copy.1) :
    DutyLedger X files (Function.update rows copy (some .saved))
      (Function.update duties proc
        { duties proc with copies := (duties proc).copies.filter (· ≠ copy) }) := by
  have kept := now.kept proc
  have unsaved := held_unsaved now held
  refine ledger_assembled now (fun other different =>
    kept_row (now.kept other) _ (others_unheld now held other different) unsaved) ?_
    (fun _ member => .inl (List.mem_of_mem_filter member)) (intact_row now ?_)
  · refine kept_row (kept_pruned kept copy) _ ?_ unsaved
    exact fun member => by simpa using (List.mem_filter.mp member).2
  · intro _ content there
    obtain rfl : bytes = content :=
      Node.file.inj (Option.some.inj ((kept.written copy bytes writing held).symm.trans there))
    exact hashed

-- A refused commit gives the copy up all the same.
theorem ledger_gives_up (now : DutyLedger X files rows duties) :
    DutyLedger X files rows (Function.update duties proc
      { duties proc with copies := (duties proc).copies.filter (· ≠ copy) }) :=
  ledger_noted now (kept_pruned (now.kept proc) copy) (fun _ member => List.mem_of_mem_filter member)

-- Busy with a blob: with a reservation for it, or with its saved copies.
def Duty.Busy (blobHash : String) (duty : Duty) : Prop :=
  (∃ copy ∈ duty.copies, copy.1 = blobHash) ∨ ∃ reading ∈ duty.reading, reading.blobHash = blobHash

instance (blobHash : String) (duty : Duty) : Decidable (duty.Busy blobHash) :=
  inferInstanceAs (Decidable (_ ∨ _))

theorem kept_forgotten {duty : Duty} {blobHash : String} (kept : DutyKept X files rows duty)
    (idle : ¬ duty.Busy blobHash) :
    DutyKept X files (fun copy => if copy.1 = blobHash then none else rows copy) duty where
  written := kept.written
  served := kept.served
  ahead := kept.ahead
  held := by
    intro copy member
    have other : copy.1 ≠ blobHash := fun same => idle (.inl ⟨copy, member, same⟩)
    rw [if_neg other]
    exact kept.held copy member
  listed := by
    intro reading reads worker member
    have other : reading.blobHash ≠ blobHash := fun same => idle (.inr ⟨reading, reads, same⟩)
    rw [if_neg other]
    exact kept.listed reading reads worker member

theorem ledger_forgets (now : DutyLedger X files rows duties) (blobHash : String)
    (alone : ∀ other, other ≠ proc → ¬ (duties other).Busy blobHash)
    (copies : (duties proc).copies = []) :
    DutyLedger X files (fun copy => if copy.1 = blobHash then none else rows copy)
      (Function.update duties proc { duties proc with reading := none }) := by
  refine ledger_assembled now
    (fun other different => kept_forgotten (now.kept other) (alone other different)) ?_
    (fun copy member => .inl member) ?_
  · refine ⟨?_, ?_, (fun _ reading => by cases reading), (fun _ reading => by cases reading),
      (fun _ _ _ reading => by cases reading)⟩
    · intro copy member
      rw [copies] at member
      cases member
    · intro copy bytes _ member
      rw [copies] at member
      cases member
  · intro copy bytes saved there
    by_cases gone : copy.1 = blobHash
    · rw [if_pos gone] at saved
      cases saved
    · rw [if_neg gone] at saved
      exact now.intact copy bytes saved there

theorem ledger_drops (now : DutyLedger X files rows duties) :
    DutyLedger X files rows (Function.update duties proc { duties proc with reading := none }) := by
  have kept := now.kept proc
  refine ledger_noted now ⟨kept.held, kept.written, ?_, ?_, ?_⟩ (fun _ member => member)
  · exact fun _ reading => by cases reading
  · exact fun _ reading => by cases reading
  · exact fun _ _ _ reading => by cases reading

end Rows

end Steps

end BlobStore
