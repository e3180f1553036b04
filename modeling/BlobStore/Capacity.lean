import BlobStore.UploadCopies
import BlobStore.WorkerMain

set_option autoImplicit false

namespace BlobStore

open Effects FileSystem

inductive CapacityOp where
  | startWorker (address : String) (choices : List Choice)
  | uploadBlob (chunks : List Bytes) (choices : List (List Choice))

-- The free bytes a worker reported when it last registered, and the bytes placed
-- on it since then.
structure Holding where
  reported : Nat
  placed : Nat

abbrev Ledger := String → Holding

def noteNamed : (call : FrontendCall) → FrontendReply call → List String → List String
  | .getWorkersToSaveBlob _ _, .ok addresses, named => named ++ addresses
  | _, _, named => named

def place (named : List String) (size : Nat) (ledger : Ledger) : Ledger := fun address =>
  if address ∈ named then { ledger address with placed := (ledger address).placed + size } else ledger address

section Capacity

variable (X : Xxh64) (service : FrontendServiceImpl)

def capacityStep (op : CapacityOp) (state : Cluster × Ledger) : List String × (Cluster × Ledger) :=
  match op with
  | .startWorker address choices =>
      let run := exec clusterSem (startWorker address) choices state.1
      ([], run.2.2, match run.1 with
        | .ok (.registered free) => Function.update state.2 address ⟨free.toNat, 0⟩
        | _ => state.2)
  | .uploadBlob chunks choices =>
      let run := exec (observed noteNamed (frontendSem X))
        (service.uploadBlob X (uploadOf chunks)).run choices (state.1, [])
      (run.2.2.2, run.2.2.1, place run.2.2.2 chunks.flatten.length state.2)

def CapacityOp.WholeAppends : CapacityOp → Prop
  | .startWorker _ _ => True
  | .uploadBlob _ choices => ∀ each ∈ choices, ∀ choice ∈ each, BlobStore.WholeAppends choice

def Bounded (ledger : Ledger) : Prop := ∀ address, (ledger address).placed ≤ (ledger address).reported

def HasRoom (ledger : Ledger) (size : Nat) (row : WorkerStateDTO) : Prop :=
  (ledger row.workerAddress).placed + size ≤ (ledger row.workerAddress).reported

instance (ledger : Ledger) (size : Nat) (row : WorkerStateDTO) : Decidable (HasRoom ledger size row) :=
  inferInstanceAs (Decidable (_ ≤ _))

def Eligible (row : WorkerStateDTO) : Prop := 0 ≤ row.availableSpaceMb - row.lockedSpaceMb

instance (row : WorkerStateDTO) : Decidable (Eligible row) := inferInstanceAs (Decidable (_ ≤ _))

-- No worker holds more than it reported, and a blob for which fewer than three
-- have room is placed nowhere.
def CapacityKept (taken : Transition CapacityOp (Cluster × Ledger) (List String)) : Prop :=
  Bounded taken.after.2 ∧ match taken.op with
    | .startWorker _ _ => True
    | .uploadBlob chunks _ =>
        taken.before.1.tables.workerState.rows.countP
          (HasRoom taken.before.2 chunks.flatten.length) < 3 → taken.result = []

-- The master refuses the blob, or any worker it may name has room for it.
def PlacesWithRoom (op : CapacityOp) (state : Cluster × Ledger) : Prop :=
  match op with
  | .startWorker _ _ => True
  | .uploadBlob chunks _ =>
      state.1.tables.workerState.rows.countP Eligible < 3 ∨
        ∀ row ∈ state.1.tables.workerState.rows, Eligible row → HasRoom state.2 chunks.flatten.length row

variable {X service}

theorem watches_named : WatchesPlacements noteNamed := by
  refine ⟨?_, fun _ _ _ _ => rfl⟩
  intro call other reply seen
  cases call with
  | getWorkersToSaveBlob master request => exact absurd rfl (other master request)
  | file call => rfl
  | rand => rfl
  | getWorkerWithBlob master blobHash => rfl
  | masterDeleteBlob master blobHash => rfl
  | saveBlobWrite worker request => rfl
  | saveBlobFinish worker sent => rfl
  | saveBlobCancel worker sent => rfl
  | workerGetBlob worker blobHash => rfl
  | writeToClient chunk => rfl

theorem named_count (table : WorkerTable) (property : WorkerStateDTO → Prop)
    [DecidablePred property] (addresses : List String) (distinct : addresses.Nodup)
    (each : ∀ address ∈ addresses, ∃ row, table.find? address = some row ∧ property row) :
    addresses.length ≤ table.rows.countP property := by
  have inside : addresses ⊆ (table.rows.filter property).map WorkerStateDTO.workerAddress := by
    intro address member
    obtain ⟨row, found, has⟩ := each address member
    obtain ⟨stored, key⟩ := (table.find_some_iff address row).mp found
    exact List.mem_map.mpr ⟨row, List.mem_filter.mpr ⟨stored, by simpa using has⟩, key⟩
  have shorter := (distinct.subperm inside).length_le
  rw [List.length_map, ← List.countP_eq_length_filter] at shorter
  exact shorter

theorem bounded_place (ledger : Ledger) (bounded : Bounded ledger) (named : List String) (size : Nat)
    (room : ∀ address ∈ named, (ledger address).placed + size ≤ (ledger address).reported) :
    Bounded (place named size ledger) := by
  intro address
  rw [place]
  by_cases member : address ∈ named
  · rw [if_pos member]
    exact room address member
  · rw [if_neg member]
    exact bounded address

theorem upload_capacity (chunks : List Bytes) (choices : List (List Choice))
    (state : Cluster × Ledger) (bounded : Bounded state.2)
    (whole : ∀ each ∈ choices, ∀ choice ∈ each, WholeAppends choice)
    (places : PlacesWithRoom (.uploadBlob chunks choices) state) :
    CapacityKept (transition (capacityStep X service) state (.uploadBlob chunks choices)) := by
  obtain ⟨cluster, ledger⟩ := state
  have met := wp_sound (EveryChoice WholeAppends) (service.uploadBlob X (uploadOf chunks)).run _
    choices (cluster, [])
    (fun _ member => by cases member) whole
    (wp_upload_blob expects_whole_appends (fun _ allowed => allowed) watches_named service
      (uploadOf chunks) cluster [])
  have placed := met.placed
  generalize shape : exec (observed noteNamed (frontendSem X))
    (service.uploadBlob X (uploadOf chunks)).run choices (cluster, []) = run
    at placed
  have taken : transition (capacityStep X service) (cluster, ledger) (.uploadBlob chunks choices) =
      ⟨(cluster, ledger), .uploadBlob chunks choices, run.2.2.2,
        (run.2.2.1, place run.2.2.2 chunks.flatten.length ledger)⟩ := by
    rw [← shape]
    rfl
  rw [taken]
  cases placed with
  | inl nobody =>
      refine ⟨?_, fun _ => nobody⟩
      rw [nobody]
      exact bounded_place ledger bounded [] chunks.flatten.length (fun _ member => by cases member)
  | inr answered =>
      obtain ⟨master, blobHash, addresses, tables, named, noted⟩ := answered
      have same : run.2.2.2 = addresses := noted.trans (List.nil_append addresses)
      have eligible : ∀ address ∈ addresses, ∃ row,
          cluster.tables.workerState.find? address = some row ∧ Eligible row := named.room
      have three := named_count cluster.tables.workerState Eligible addresses named.distinct eligible
      rw [named.three] at three
      have room : ∀ address ∈ addresses, ∃ row, cluster.tables.workerState.find? address = some row ∧
          HasRoom ledger chunks.flatten.length row := by
        intro address member
        obtain ⟨row, found, can⟩ := eligible address member
        have stored := ((cluster.tables.workerState.find_some_iff address row).mp found).1
        exact ⟨row, found, (places.resolve_left (by simpa using three)) row stored can⟩
      rw [same]
      refine ⟨bounded_place ledger bounded addresses _ ?_, ?_⟩
      · intro address member
        obtain ⟨row, found, fits⟩ := room address member
        rw [← ((cluster.tables.workerState.find_some_iff address row).mp found).2]
        exact fits
      · intro few
        have enough := named_count cluster.tables.workerState
          (HasRoom ledger chunks.flatten.length) addresses named.distinct room
        rw [named.three] at enough
        exact absurd few (Nat.not_lt.mpr enough)

theorem start_capacity (address : String) (choices : List Choice) (state : Cluster × Ledger)
    (bounded : Bounded state.2) :
    CapacityKept (transition (capacityStep X service) state (.startWorker address choices)) := by
  refine ⟨?_, trivial⟩
  have fresh : ∀ free : UInt64, Bounded (Function.update state.2 address ⟨free.toNat, 0⟩) := by
    intro free other
    by_cases same : other = address
    · subst same
      simp
    · rw [Function.update_of_ne same]
      exact bounded other
  simp only [transition, capacityStep]
  split
  · exact fresh _
  · exact bounded

def freshCluster (workers : String → FileSystem) (frontend : FileSystem) : Cluster × Ledger :=
  (⟨Tables.empty, workers, frontend⟩, fun _ => ⟨0, 0⟩)

end Capacity

theorem capacity_kept_with_room (X : Xxh64) (service : FrontendServiceImpl)
    (workers : String → FileSystem) (frontend : FileSystem) (ops : List CapacityOp)
    (whole : ∀ op ∈ ops, op.WholeAppends)
    (places : ∀ taken ∈ transitions (capacityStep X service) (freshCluster workers frontend) ops,
      PlacesWithRoom taken.op taken.before) :
    ∀ taken ∈ transitions (capacityStep X service) (freshCluster workers frontend) ops,
        CapacityKept taken := by
  have run := transitions_hold (capacityStep X service) (fun state => Bounded state.2)
    (fun op state => op.WholeAppends ∧ PlacesWithRoom op state) CapacityKept ?_
      (freshCluster workers frontend) ops
    (fun _ => le_rfl) (fun taken member => ⟨whole _ (transition_op _ _ _ taken member), places taken member⟩)
  · exact fun taken member => (run taken member).2.1
  · intro state op bounded good
    have kept : CapacityKept (transition (capacityStep X service) state op) := by
      cases op with
      | startWorker address choices => exact start_capacity address choices state bounded
      | uploadBlob chunks choices => exact upload_capacity chunks choices state bounded good.1 good.2
    exact ⟨kept, kept.1⟩

def threeStarted (free : UInt64) : List CapacityOp :=
  ["worker-0", "worker-1", "worker-2"].map
    (fun address => .startWorker address (List.replicate 2 { file := { free := free } }))

def everyoneHasRoom (taken : Transition CapacityOp (Cluster × Ledger) (List String)) : Bool :=
  match taken.op with
  | .startWorker _ _ => true
  | .uploadBlob chunks _ =>
      taken.before.1.tables.workerState.rows.all
        (fun row => decide (HasRoom taken.before.2 chunks.flatten.length row))

theorem capacity_kept_with_room_run :
    CapacityKept (transition (capacityStep referenceXxh64 oneMaster)
      (finalState (capacityStep referenceXxh64 oneMaster)
        (freshCluster (fun _ => freshWorker) freshWorker) (threeStarted 2))
      (.uploadBlob [[97], [98]] [])) := by
  refine capacity_kept_with_room referenceXxh64 oneMaster (fun _ => freshWorker) freshWorker
    (threeStarted 2 ++ [.uploadBlob [[97], [98]] []]) (by simp [threeStarted, CapacityOp.WholeAppends]) ?_ _
    (last_transition _ _ (threeStarted 2) _)
  have all : (transitions (capacityStep referenceXxh64 oneMaster)
      (freshCluster (fun _ => freshWorker) freshWorker)
      (threeStarted 2 ++ [.uploadBlob [[97], [98]] []])).all everyoneHasRoom = true := by decide +kernel
  intro taken member
  have room := List.all_eq_true.mp all taken member
  unfold PlacesWithRoom
  unfold everyoneHasRoom at room
  cases op : taken.op with
  | startWorker address choices => trivial
  | uploadBlob chunks choices =>
      rw [op] at room
      exact .inr (fun row stored _ => of_decide_eq_true (List.all_eq_true.mp room row stored))

-- Two bytes are placed on workers with one free byte each.
theorem placed_beyond_capacity :
    ¬ ∀ taken ∈ transitions (capacityStep referenceXxh64 oneMaster)
      (freshCluster (fun _ => freshWorker) freshWorker)
      (threeStarted 1 ++ [.uploadBlob [[97], [98]] []]), CapacityKept taken := by
  intro kept
  have last :=
    kept _ (last_transition (capacityStep referenceXxh64 oneMaster) _ (threeStarted 1)
      (.uploadBlob [[97], [98]] []))
  have overfull : ¬ (((capacityStep referenceXxh64 oneMaster (.uploadBlob [[97], [98]] [])
      (finalState (capacityStep referenceXxh64 oneMaster) (freshCluster (fun _ => freshWorker) freshWorker)
        (threeStarted 1))).2.2 "worker-0").placed ≤
      ((capacityStep referenceXxh64 oneMaster (.uploadBlob [[97], [98]] [])
        (finalState (capacityStep referenceXxh64 oneMaster) (freshCluster (fun _ => freshWorker) freshWorker)
          (threeStarted 1))).2.2 "worker-0").reported) := by decide +kernel
  exact overfull (last.1 "worker-0")

end BlobStore
