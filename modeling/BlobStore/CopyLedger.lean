import BlobStore.MasterDb
import Mathlib.Logic.Function.Basic

set_option autoImplicit false

namespace BlobStore

-- How far an operation has come. A copy is held from its reservation to the report
-- that it is saved; a deletion has workers left to ask.
inductive Phase where
  | holding (copies : List (String × String))
  | writing (copies : List (String × String)) (copy : String × String)
  | deleting (blobHash : String) (remaining : List String)

def Phase.copies : Phase → List (String × String)
  | .holding copies => copies
  | .writing copies _ => copies
  | .deleting _ _ => []

def Phase.Deletes (blobHash : String) : Phase → Prop
  | .deleting hash _ => hash = blobHash
  | _ => False

instance (blobHash : String) : (phase : Phase) → Decidable (phase.Deletes blobHash)
  | .holding _ => inferInstanceAs (Decidable False)
  | .writing _ _ => inferInstanceAs (Decidable False)
  | .deleting hash _ => inferInstanceAs (Decidable (hash = blobHash))

def Phase.Ended (phase : Phase) : Prop := ∃ copies, phase = .holding copies

-- Who answers for which file and which row while any number of operations run: a file
-- has its row or its writer, a held row has one holder, and while a blob is being
-- deleted nobody holds it and its files are at the workers still to be asked.
structure CopyLedger {ι : Type} (files : String × String → Prop)
    (rows : String × String → Option BlobState) (phases : ι → Phase) : Prop where
  filed : ∀ copy, files copy → rows copy = some .saved ∨ ∃ proc copies, phases proc = .writing copies copy
  held : ∀ proc, ∀ copy ∈ (phases proc).copies, rows copy = some .duringCreation
  alone : ∀ proc other copy, copy ∈ (phases proc).copies → copy ∈ (phases other).copies → proc = other
  written : ∀ proc copies copy, phases proc = .writing copies copy → copy ∈ copies
  unheld : ∀ proc blobHash remaining, phases proc = .deleting blobHash remaining →
    ∀ other, ∀ copy ∈ (phases other).copies, copy.1 ≠ blobHash
  asked : ∀ proc blobHash remaining, phases proc = .deleting blobHash remaining →
    ∀ worker, files (blobHash, worker) → worker ∈ remaining

theorem ledger_start {ι : Type} : CopyLedger (fun _ => False) (fun _ => none) (fun _ : ι => .holding []) where
  filed := fun _ there => there.elim
  held := fun _ _ member => by cases member
  alone := fun _ _ _ member => by cases member
  written := nofun
  unheld := nofun
  asked := nofun

theorem ledger_done {ι : Type} {files : String × String → Prop}
    {rows : String × String → Option BlobState} {phases : ι → Phase}
    (now : CopyLedger files rows phases) (done : ∀ other, (phases other).Ended)
    (key : String × String) (there : files key) :
    rows key = some .saved := by
  rcases now.filed key there with saved | ⟨other, copies, writes⟩
  · exact saved
  · obtain ⟨held, phase⟩ := done other
    cases phase.symm.trans writes

theorem filed_elsewhere {ι : Type} {files : String × String → Prop}
    {rows : String × String → Option BlobState} {phases : ι → Phase}
    (now : CopyLedger files rows phases) {proc : ι} {key : String × String}
    (quiet : ∀ copies, phases proc ≠ .writing copies key) (there : files key) :
    rows key = some .saved ∨ ∃ other copies, other ≠ proc ∧ phases other = .writing copies key := by
  rcases now.filed key there with saved | ⟨other, copies, writes⟩
  · exact .inl saved
  · exact .inr ⟨other, copies, fun same => quiet copies (same ▸ writes), writes⟩

section Steps

variable {ι : Type} [DecidableEq ι] {files after : String × String → Prop}
  {rows : String × String → Option BlobState} {phases : ι → Phase}
  {proc : ι} {copies : List (String × String)} {copy : String × String} {blobHash worker : String}
    {remaining : List String}

theorem phase_after {phase next : Phase} {other : ι}
    (shape : Function.update phases proc phase other = next) :
    other = proc ∧ phase = next ∨ other ≠ proc ∧ phases other = next := by
  by_cases same : other = proc
  · subst same
    exact .inl ⟨rfl, (Function.update_self _ _ _).symm.trans shape⟩
  · exact .inr ⟨same, (Function.update_of_ne same _ _).symm.trans shape⟩

theorem copies_after {phase : Phase} {other : ι} {key : String × String}
    (member : key ∈ (Function.update phases proc phase other).copies) :
    other = proc ∧ key ∈ phase.copies ∨ other ≠ proc ∧ key ∈ (phases other).copies := by
  rcases phase_after (Eq.refl (Function.update phases proc phase other)) with ⟨same, mine⟩ | ⟨different, kept⟩
  · exact .inl ⟨same, mine ▸ member⟩
  · exact .inr ⟨different, kept ▸ member⟩

theorem ledger_reserve (now : CopyLedger files rows phases) (phase : phases proc = .holding copies)
    (fresh : rows copy = none) (apart : ∀ other, ¬ (phases other).Deletes copy.1) :
    CopyLedger files (Function.update rows copy (some .duringCreation))
      (Function.update phases proc (.holding (copies ++ [copy]))) := by
  have unheld : ∀ other, copy ∉ (phases other).copies := by
    intro other member
    rw [now.held other copy member] at fresh
    cases fresh
  have members : ∀ other key, key ∈ (Function.update phases proc (.holding (copies ++ [copy])) other).copies →
      key ∈ (phases other).copies ∨ key = copy ∧ other = proc := by
    intro other key member
    rcases copies_after member with ⟨same, more⟩ | ⟨-, before⟩
    · rw [same, phase]
      exact (List.mem_append.mp more).imp id (fun last => ⟨List.mem_singleton.mp last, rfl⟩)
    · exact .inl before
  have others : ∀ other,
      (∀ held, Function.update phases proc (.holding (copies ++ [copy])) other ≠ .holding held) →
      Function.update phases proc (.holding (copies ++ [copy])) other = phases other := by
    intro other active
    refine Function.update_of_ne ?_ _ _
    rintro rfl
    exact active _ (Function.update_self _ _ _)
  constructor
  · intro key there
    cases now.filed key there with
    | inl saved =>
        have different : key ≠ copy := fun same => by rw [same, fresh] at saved; cases saved
        exact .inl ((Function.update_of_ne different _ _).trans saved)
    | inr writer =>
        obtain ⟨other, held, writes⟩ := writer
        have different : other ≠ proc := fun same => by rw [same, phase] at writes; cases writes
        exact .inr ⟨other, held, (Function.update_of_ne different _ _).trans writes⟩
  · intro other key member
    cases members other key member with
    | inl before =>
        have different : key ≠ copy := fun same => unheld other (same ▸ before)
        exact (Function.update_of_ne different _ _).trans (now.held other key before)
    | inr new => exact new.1 ▸ Function.update_self _ _ _
  · intro one two key first second
    cases members one key first with
    | inl before =>
        cases members two key second with
        | inl again => exact now.alone one two key before again
        | inr new => exact absurd (new.1 ▸ before) (unheld one)
    | inr new =>
        cases members two key second with
        | inl before => exact absurd (new.1 ▸ before) (unheld two)
        | inr again => exact new.2.trans again.2.symm
  · intro other held key writes
    exact now.written other held key ((others other (by rw [writes]; exact nofun)).symm.trans writes)
  · intro other hash remaining deletes holder key member
    have deleting := (others other (by rw [deletes]; exact nofun)).symm.trans deletes
    cases members holder key member with
    | inl before => exact now.unheld other hash remaining deleting holder key before
    | inr new =>
        rintro rfl
        refine apart other ?_
        rw [deleting, new.1]
        exact rfl
  · intro other hash remaining deletes
    exact now.asked other hash remaining ((others other (by rw [deletes]; exact nofun)).symm.trans deletes)

-- Every other step leaves an operation with no more copies than it had.
theorem ledger_step {kept : String × String → Option BlobState} {phase : Phase}
    (now : CopyLedger files rows phases) (fewer : ∀ key ∈ phase.copies, key ∈ (phases proc).copies)
    (written : ∀ copies copy, phase = .writing copies copy → copy ∈ copies)
    (unheld : ∀ blobHash remaining, phase = .deleting blobHash remaining →
      ∀ other, ∀ key ∈ (phases other).copies, key.1 ≠ blobHash)
    (filed : ∀ key, after key → kept key = some .saved ∨ (∃ copies, phase = .writing copies key) ∨
      ∃ other copies, other ≠ proc ∧ phases other = .writing copies key)
    (held : ∀ other, ∀ key ∈ (Function.update phases proc phase other).copies,
      rows key = some .duringCreation → kept key = some .duringCreation)
    (asked : ∀ worker, (∀ blobHash remaining, phase = .deleting blobHash remaining →
      after (blobHash, worker) → worker ∈ remaining) ∧ ∀ other blobHash remaining,
      phases other = .deleting blobHash remaining → other ≠ proc → after (blobHash, worker) →
      worker ∈ remaining) :
    CopyLedger after kept (Function.update phases proc phase) := by
  have members : ∀ other key, key ∈ (Function.update phases proc phase other).copies →
      key ∈ (phases other).copies := by
    intro other key member
    rcases copies_after member with ⟨same, mine⟩ | ⟨-, before⟩
    · exact same ▸ fewer key mine
    · exact before
  constructor
  · intro key there
    rcases filed key there with saved | ⟨copies, writes⟩ | ⟨other, copies, different, writes⟩
    · exact .inl saved
    · exact .inr ⟨proc, copies, (Function.update_self _ _ _).trans writes⟩
    · exact .inr ⟨other, copies, (Function.update_of_ne different _ _).trans writes⟩
  · intro other key member
    exact held other key member (now.held other key (members other key member))
  · intro one two key first second
    exact now.alone one two key (members one key first) (members two key second)
  · intro other copies key writes
    rcases phase_after writes with ⟨-, mine⟩ | ⟨-, before⟩
    · exact written copies key mine
    · exact now.written other copies key before
  · intro other hash remaining deletes holder key member
    rcases phase_after deletes with ⟨-, mine⟩ | ⟨-, before⟩
    · exact unheld hash remaining mine holder key (members holder key member)
    · exact now.unheld other hash remaining before holder key (members holder key member)
  · intro other hash remaining deletes worker there
    rcases phase_after deletes with ⟨-, mine⟩ | ⟨different, before⟩
    · exact (asked worker).1 hash remaining mine there
    · exact (asked worker).2 other hash remaining before different there

theorem ledger_write {before : Phase} (now : CopyLedger files rows phases) (phase : phases proc = before)
    (held : before = .holding copies ∨ before = .writing copies copy) (member : copy ∈ copies)
    (more : ∀ key, after key → key = copy ∨ files key) :
    CopyLedger after rows (Function.update phases proc (.writing copies copy)) := by
  have mine : (phases proc).copies = copies := by
    rw [phase]
    rcases held with rfl | rfl <;> rfl
  refine ledger_step now (fun key inside => mine.symm ▸ inside) ?_ nofun ?_ (fun _ _ _ during => during) ?_
  · rintro _ _ ⟨⟩
    exact member
  · intro key there
    rcases more key there with rfl | old
    · exact .inr (.inl ⟨copies, rfl⟩)
    · rcases now.filed key old with saved | ⟨other, others, writes⟩
      · exact .inl saved
      · by_cases same : other = proc
        · subst same
          rcases held with rfl | rfl
          · cases phase.symm.trans writes
          · obtain ⟨rfl, rfl⟩ := Phase.writing.inj (phase.symm.trans writes)
            exact .inr (.inl ⟨copies, rfl⟩)
        · exact .inr (.inr ⟨other, others, same, writes⟩)
  · intro worker
    refine ⟨nofun, ?_⟩
    intro other hash remaining deletes _ there
    rcases more _ there with same | old
    · exact absurd (congrArg Prod.fst same).symm
        (now.unheld other hash remaining deletes proc copy (mine.symm ▸ member))
    · exact now.asked other hash remaining deletes worker old

theorem ledger_drop (now : CopyLedger files rows phases) (phase : phases proc = .writing copies copy)
    (gone : ¬ after copy) (more : ∀ key, after key → key = copy ∨ files key) :
    CopyLedger after rows (Function.update phases proc (.holding copies)) := by
  have less : ∀ key, after key → files key :=
    fun key there => (more key there).resolve_left (fun same => gone (same ▸ there))
  have mine : (phases proc).copies = copies := by rw [phase]; rfl
  refine ledger_step now (fun key inside => mine.symm ▸ inside) nofun nofun ?_ (fun _ _ _ during => during) ?_
  · intro key there
    refine (filed_elsewhere now ?_ (less key there)).imp id .inr
    intro others writes
    obtain ⟨-, rfl⟩ := Phase.writing.inj (phase.symm.trans writes)
    exact gone there
  · exact fun worker => ⟨nofun, fun other hash remaining deletes _ there =>
      now.asked other hash remaining deletes worker (less _ there)⟩

theorem ledger_save (now : CopyLedger files rows phases) (phase : phases proc = .writing copies copy) :
    CopyLedger files (Function.update rows copy (some .saved))
      (Function.update phases proc (.holding (copies.filter (· ≠ copy)))) := by
  have mine : (phases proc).copies = copies := by rw [phase]; rfl
  have member := now.written proc copies copy phase
  refine ledger_step now (fun key inside => mine.symm ▸ List.mem_of_mem_filter inside) nofun nofun ?_ ?_ ?_
  · intro key there
    by_cases same : key = copy
    · subst same
      exact .inl (Function.update_self _ _ _)
    · refine (filed_elsewhere now ?_ there).imp (Function.update_of_ne same _ _).trans .inr
      exact fun others writes => same (Phase.writing.inj (phase.symm.trans writes)).2.symm
  · intro other key inside during
    have different : key ≠ copy := by
      rintro rfl
      rcases copies_after inside with ⟨-, left⟩ | ⟨different, before⟩
      · simp [Phase.copies] at left
      · exact different (now.alone other proc key before (mine.symm ▸ member))
    exact (Function.update_of_ne different _ _).trans during
  · exact fun worker => ⟨nofun, fun other hash remaining deletes _ there =>
      now.asked other hash remaining deletes worker there⟩

theorem ledger_query (now : CopyLedger files rows phases) (phase : phases proc = .holding [])
    (apart : ∀ other, ∀ key ∈ (phases other).copies, key.1 ≠ blobHash)
    (answer : ∀ worker, rows (blobHash, worker) = some .saved → worker ∈ remaining) :
    CopyLedger files rows (Function.update phases proc (.deleting blobHash remaining)) := by
  refine ledger_step now (fun _ inside => by cases inside) nofun ?_ ?_ (fun _ _ _ during => during) ?_
  · rintro _ _ ⟨⟩
    exact apart
  · exact fun key there =>
      (filed_elsewhere now (fun _ writes => by cases phase.symm.trans writes) there).imp id .inr
  · intro worker
    refine ⟨?_, fun other hash left deletes _ there => now.asked other hash left deletes worker there⟩
    rintro _ _ ⟨⟩ there
    rcases now.filed _ there with saved | ⟨other, others, writes⟩
    · exact answer worker saved
    · exact absurd rfl (apart other _ (by rw [writes]; exact now.written other others _ writes))

theorem ledger_ask (now : CopyLedger files rows phases)
    (phase : phases proc = .deleting blobHash (worker :: remaining))
    (gone : ¬ after (blobHash, worker))
    (more : ∀ key, after key → key = (blobHash, worker) ∨ files key) :
    CopyLedger after rows (Function.update phases proc (.deleting blobHash remaining)) := by
  have less : ∀ key, after key → files key :=
    fun key there => (more key there).resolve_left (fun same => gone (same ▸ there))
  refine ledger_step now (fun _ inside => by cases inside) nofun ?_ ?_ (fun _ _ _ during => during) ?_
  · rintro _ _ ⟨⟩
    exact now.unheld proc blobHash _ phase
  · exact fun key there =>
      (filed_elsewhere now (fun _ writes => by cases phase.symm.trans writes) (less key there)).imp id
        .inr
  · intro other
    refine ⟨?_, fun holder hash left deletes _ there =>
      now.asked holder hash left deletes other (less _ there)⟩
    rintro _ _ ⟨⟩ there
    refine (List.mem_cons.mp (now.asked proc blobHash _ phase other (less _ there))).resolve_left ?_
    rintro rfl
    exact gone there

theorem ledger_forget (now : CopyLedger files rows phases) (phase : phases proc = .deleting blobHash []) :
    CopyLedger files (fun key => if key.1 = blobHash then none else rows key)
      (Function.update phases proc (.holding [])) := by
  have unheld := now.unheld proc blobHash [] phase
  refine ledger_step now (fun _ inside => by cases inside) nofun nofun ?_ ?_ ?_
  · rintro ⟨hash, worker⟩ there
    have different : hash ≠ blobHash := by
      rintro rfl
      cases now.asked proc hash [] phase worker there
    exact (filed_elsewhere now (fun _ writes => by cases phase.symm.trans writes) there).imp
      (if_neg different).trans .inr
  · intro other key inside during
    rcases copies_after inside with ⟨-, left⟩ | ⟨-, before⟩
    · cases left
    · exact (if_neg (unheld other key before)).trans during
  · exact fun worker => ⟨nofun, fun other hash left deletes _ there =>
      now.asked other hash left deletes worker there⟩

theorem ledger_rest (now : CopyLedger files rows phases) (ended : (phases proc).Ended) :
    CopyLedger files rows (Function.update phases proc (.holding [])) := by
  obtain ⟨copies, phase⟩ := ended
  refine ledger_step now (fun _ inside => by cases inside) nofun nofun ?_ (fun _ _ _ during => during) ?_
  · exact fun key there =>
      (filed_elsewhere now (fun _ writes => by cases phase.symm.trans writes) there).imp id .inr
  · exact fun worker => ⟨nofun, fun other hash left deletes _ there =>
      now.asked other hash left deletes worker there⟩

end Steps

end BlobStore
