import BlobStore.ChunkLoops
import BlobStore.Library.Runs

set_option autoImplicit false

namespace BlobStore

open Effects FileSystem

inductive IteratorOp where
  | deref
  | increment
deriving DecidableEq

-- One iterator over a file system that works. Nothing is known of it once it has
-- thrown.
def iteratorStep (maxChunk : Nat) (fs : FileSystem) :
    IteratorOp → Option ChunkIterator → Option (Except Thrown Bytes) × Option ChunkIterator
  | _, none => (none, none)
  | .increment, some it => (none, some it.increment)
  | .deref, some it =>
      match (exec fileSem (it.deref maxChunk).run [] fs).1 with
      | .ok (chunk, after) => (some (.ok chunk), some after)
      | .error thrown => (some (.error thrown), none)

abbrev IteratorStep := Transition IteratorOp (Option ChunkIterator) (Option (Except Thrown Bytes))

-- operator* returns the bytes from next_byte on.
def Dereferences (maxChunk : Nat) (bytes : Bytes) (taken : IteratorStep) : Prop :=
  taken.op = .deref → ∃ it ∈ taken.before, taken.result = some (.ok ((bytes.drop it.nextByte).take maxChunk))

def BeforeEnd (bytes : Bytes) (taken : IteratorStep) : Prop :=
  taken.op = .increment → ∀ it ∈ taken.before, it.nextByte < bytes.length

instance (maxChunk : Nat) (bytes : Bytes) : DecidablePred (Dereferences maxChunk bytes) := fun taken =>
  inferInstanceAs (Decidable (taken.op = .deref →
    ∃ it ∈ taken.before, taken.result = some (.ok ((bytes.drop it.nextByte).take maxChunk))))

instance (bytes : Bytes) : DecidablePred (BeforeEnd bytes) := fun taken =>
  inferInstanceAs (Decidable (taken.op = .increment → ∀ it ∈ taken.before, it.nextByte < bytes.length))

-- Where the calls lead: skipped counts the increments without a chunk since the
-- stream is open.
structure Place where
  next : Nat
  skipped : Option Nat := none
  cached : Bool := false

def Place.after (maxChunk length : Nat) (place : Place) : IteratorOp → Place
  | .deref => { place with skipped := some (place.skipped.getD 0), cached := true }
  | .increment =>
      if place.cached then
        { place with next := place.next + min maxChunk (length - place.next), cached := false }
      else { place with next := place.next + 1, skipped := place.skipped.map (· + 1) }

-- An operator* that reads finds the same bytes where the stream was left behind.
def SameBytes (maxChunk : Nat) (bytes : Bytes) (place : Place) (op : IteratorOp) : Prop :=
  op = .deref → place.cached = false → place.next ≤ bytes.length ∧
    (bytes.drop (place.next - place.skipped.getD 0)).take
      (min maxChunk (bytes.length - place.next)) = (bytes.drop place.next).take maxChunk

def ReadsInPlace (maxChunk : Nat) (bytes : Bytes) : Place → List IteratorOp → Prop
  | _, [] => True
  | place, op :: rest => SameBytes maxChunk bytes place op ∧
      ReadsInPlace maxChunk bytes (place.after maxChunk bytes.length op) rest

section Iterator

variable {maxChunk : Nat} {bytes : Bytes} {fs : FileSystem} {path : String}

-- The iterator that the calls have led to its place, with all it returned right.
structure Led (maxChunk : Nat) (path : String) (bytes : Bytes)
    (it : ChunkIterator) (place : Place) : Prop where
  path : it.filePath = path
  size : it.fileSize = bytes.length
  next : it.nextByte = place.next
  inside : place.next ≤ bytes.length ∨ place.skipped = none ∧ place.next < 2 ^ 64
  unread : place.cached = false → it.currentChunk = none ∧
    it.fileStream = place.skipped.map (place.next - ·) ∧
    place.skipped.getD 0 ≤ place.next
  read : place.cached = true → place.next ≤ bytes.length ∧
    it.currentChunk = some ((bytes.drop place.next).take maxChunk) ∧
    ∃ skipped ≤ place.next, place.skipped = some skipped ∧
      it.fileStream = some (place.next - skipped + min maxChunk (bytes.length - place.next))

-- The chunk that is cached is returned again, and the iterator stays as it is.
theorem deref_cached {it : ChunkIterator} {position : Nat} {chunk : Bytes}
    (opened : it.fileStream = some position) (cached : it.currentChunk = some chunk) :
    iteratorStep maxChunk fs .deref (some it) = (some (.ok chunk), some it) := by
  have stays : it.createStreamIfNecessary = pure it := by rw [ChunkIterator.createStreamIfNecessary, opened]
  have same : it.deref maxChunk = pure (chunk, it) := by
    rw [ChunkIterator.deref, stays, pure_bind, cached]
  rw [iteratorStep, same]
  rfl

theorem deref_reads {it : ChunkIterator} {position : Nat}
    (there : fs.content it.filePath = some bytes) (uncached : it.currentChunk = none)
    (stands : it.fileStream = some position ∨ it.fileStream = none ∧ position = it.nextByte)
    (fits : position + min maxChunk (subU64 it.fileSize it.nextByte) ≤ bytes.length) :
    let count := min maxChunk (subU64 it.fileSize it.nextByte)
    iteratorStep maxChunk fs .deref (some it) = (some (.ok ((bytes.drop position).take count)),
      some { it with
        fileStream := some (position + count),
        currentChunk := some ((bytes.drop position).take count) }) := by
  intro count
  have holds : wp fileSem FileHealthy (it.deref maxChunk).run
      (fun outcome _ => outcome = .ok ((bytes.drop position).take count,
        { it with
          fileStream := some (position + count),
          currentChunk := some ((bytes.drop position).take count) })) fs := by
    refine wp_deref tolerates_healthy maxChunk it position bytes _ fs there uncached stands ?_ ?_
    · rintro chunk rfl length
      rw [length]
    · exact fun short => absurd (short.resolve_left id) (by omega)
  have result := wp_sound FileHealthy _ _ [] fs rfl (by simp) holds
  rw [iteratorStep, result]

theorem deref_throws {it : ChunkIterator} {position : Nat}
    (there : fs.content it.filePath = some bytes) (uncached : it.currentChunk = none)
    (stands : it.fileStream = some position ∨ it.fileStream = none ∧ position = it.nextByte)
    (short : bytes.length - position < min maxChunk (subU64 it.fileSize it.nextByte)) :
    ∃ thrown, iteratorStep maxChunk fs .deref (some it) = (some (.error thrown), none) := by
  have holds : wp fileSem FileHealthy
      (it.deref maxChunk).run (fun outcome _ => ∃ thrown, outcome = .error thrown) fs := by
    refine wp_deref tolerates_healthy maxChunk it position bytes _ fs there uncached stands ?_ ?_
    · rintro chunk rfl length
      rw [List.length_take, List.length_drop] at length
      omega
    · exact fun _ what => ⟨_, rfl⟩
  obtain ⟨thrown, result⟩ := wp_sound FileHealthy _ _ [] fs rfl (by simp) holds
  exact ⟨thrown, by rw [iteratorStep, result]⟩

theorem wp_deref_caches (maxChunk : Nat) (it : ChunkIterator) (fs : FileSystem) :
    wp fileSem (fun _ => True) (it.deref maxChunk).run (fun outcome _ => ∀ chunk after,
      outcome = .ok (chunk, after) →
      after.currentChunk = some chunk ∧ ∃ position, after.fileStream = some position) fs := by
  have opens : wp fileSem (fun _ => True) it.createStreamIfNecessary.run
      (fun outcome _ => ∀ opened, outcome = .ok opened →
      opened.currentChunk = it.currentChunk ∧ ∃ position, opened.fileStream = some position) fs := by
    rw [ChunkIterator.createStreamIfNecessary]
    cases stream : it.fileStream with
    | some position =>
        rintro _ ⟨⟩
        exact ⟨rfl, position, stream⟩
    | none =>
        dsimp only
        rw [wp_run_bind, openForReading, wp_run_perform]
        intro choice _
        dsimp only
        split
        · rintro _ ⟨⟩
          exact ⟨rfl, _, rfl⟩
        · exact fun _ returned => by cases returned
  rw [ChunkIterator.deref, wp_run_bind]
  refine wp_mono _ _ _ _ ?_ opens
  rintro (thrown | opened) after kept
  · exact fun _ _ returned => by cases returned
  · obtain ⟨-, position, stream⟩ := kept opened rfl
    dsimp only
    cases cached : opened.currentChunk with
    | some chunk =>
        rintro _ _ ⟨⟩
        exact ⟨cached, position, stream⟩
    | none =>
        dsimp only
        rw [ChunkIterator.readChunk, stream, wp_run_bind]
        dsimp only
        rw [wp_run_bind, readAt, wp_run_perform]
        intro choice _
        dsimp only
        split
        · exact fun _ _ returned => by cases returned
        · rintro _ _ ⟨⟩
          exact ⟨rfl, _, rfl⟩

theorem deref_again {state : Option ChunkIterator} {chunk : Bytes}
    (read : (iteratorStep maxChunk fs .deref state).1 = some (.ok chunk)) :
    (iteratorStep maxChunk fs .deref (iteratorStep maxChunk fs .deref state).2).1 = some (.ok chunk) := by
  cases state with
  | none => cases read
  | some it =>
      have caches := wp_sound _ _ _ [] fs trivial (fun _ _ => trivial) (wp_deref_caches maxChunk it fs)
      rw [iteratorStep] at read ⊢
      cases outcome : (exec fileSem (it.deref maxChunk).run [] fs).1 with
      | error thrown =>
          rw [outcome] at read
          cases read
      | ok value =>
          rw [outcome] at read caches
          obtain ⟨cached, position, opened⟩ := caches value.1 value.2 rfl
          cases read
          dsimp only
          rw [deref_cached opened cached]

theorem led_increments {it : ChunkIterator} {place : Place} (led : Led maxChunk path bytes it place)
    (before : it.nextByte < bytes.length) :
    Led maxChunk path bytes it.increment (place.after maxChunk bytes.length .increment) := by
  have next := led.next
  obtain ⟨at_, skipped, cached⟩ := place
  cases cached with
  | false =>
      obtain ⟨empty, stands, behind⟩ := led.unread rfl
      dsimp only at next stands behind
      subst next
      refine ⟨led.path, led.size, ?_, .inl before, fun _ => ⟨rfl, ?_, ?_⟩, fun read => by cases read⟩
      · rw [ChunkIterator.increment, empty]
        rfl
      · rw [ChunkIterator.increment, stands]
        cases skipped with
        | none => rfl
        | some skipped => simp [Place.after]
      · cases skipped with
        | none => exact Nat.zero_le _
        | some skipped =>
            simp only [Place.after, Option.getD_some] at behind ⊢
            simp only [Bool.false_eq_true, if_false, Option.map_some, Option.getD_some]
            omega
  | true =>
      obtain ⟨inside, chunk, skipped, behind, rfl, stands⟩ := led.read rfl
      dsimp only at next inside chunk stands behind
      subst next
      have length : ((bytes.drop it.nextByte).take maxChunk).length =
          min maxChunk (bytes.length - it.nextByte) := by
        rw [List.length_take, List.length_drop]
      refine ⟨led.path, led.size, ?_, .inl ?_, fun _ => ⟨rfl, ?_, ?_⟩, fun read => by cases read⟩
      · simp only [ChunkIterator.increment, chunk, length, Place.after, if_true]
      · simp only [Place.after, if_true]
        omega
      · simp only [ChunkIterator.increment, stands, Place.after, if_true, Option.map_some, Option.some.injEq]
        omega
      · simp only [Place.after, if_true, Option.getD_some]
        omega

theorem led_position {it : ChunkIterator} {place : Place} (led : Led maxChunk path bytes it place)
    (unread : place.cached = false) :
    it.fileStream = some (place.next - place.skipped.getD 0) ∨
      it.fileStream = none ∧ place.next - place.skipped.getD 0 = it.nextByte := by
  obtain ⟨-, stands, -⟩ := led.unread unread
  rw [stands, led.next]
  cases place.skipped with
  | none => exact .inr ⟨rfl, rfl⟩
  | some skipped => exact .inl rfl

theorem led_left {it : ChunkIterator} {place : Place} (led : Led maxChunk path bytes it place)
    (inside : place.next ≤ bytes.length) :
    subU64 it.fileSize it.nextByte = bytes.length - place.next := by
  rw [led.size, led.next, subU64, if_pos inside]

theorem led_dereferences (positive : 0 < maxChunk) (there : fs.content path = some bytes)
    {it : ChunkIterator} {place : Place} (led : Led maxChunk path bytes it place) :
    Dereferences maxChunk bytes (transition (iteratorStep maxChunk fs) (some it) .deref) ↔
      SameBytes maxChunk bytes place .deref := by
  have next := led.next
  have file : fs.content it.filePath = some bytes := led.path ▸ there
  have returns : Dereferences maxChunk bytes (transition (iteratorStep maxChunk fs) (some it) .deref) ↔
      (iteratorStep maxChunk fs .deref (some it)).1 = some (.ok ((bytes.drop place.next).take maxChunk)) := by
    simp [Dereferences, transition, next]
  rw [returns]
  cases cached : place.cached with
  | true =>
      obtain ⟨-, chunk, skipped, -, -, stands⟩ := led.read cached
      rw [deref_cached stands chunk]
      simp [SameBytes, cached]
  | false =>
      obtain ⟨empty, -, behind⟩ := led.unread cached
      have position := led_position led cached
      by_cases inside : place.next ≤ bytes.length
      · rw [deref_reads file empty position (by rw [led_left led inside]; omega), led_left led inside]
        simp [SameBytes, cached, inside]
      · obtain ⟨unopened, fits⟩ := led.inside.resolve_left inside
        have left : subU64 it.fileSize it.nextByte = bytes.length + 2 ^ 64 - place.next := by
          rw [led.size, next, subU64, if_neg inside]
        have nothing : bytes.length - (place.next - place.skipped.getD 0) <
            min maxChunk (subU64 it.fileSize it.nextByte) := by
          rw [left, unopened, Option.getD_none]
          omega
        obtain ⟨thrown, result⟩ := deref_throws file empty position nothing
        rw [result]
        simp [SameBytes, cached, inside]

theorem led_after_deref (there : fs.content path = some bytes) {it : ChunkIterator} {place : Place}
    (led : Led maxChunk path bytes it place) (same : SameBytes maxChunk bytes place .deref) :
    ∃ after, (iteratorStep maxChunk fs .deref (some it)).2 = some after ∧
      Led maxChunk path bytes after (place.after maxChunk bytes.length .deref) := by
  have file : fs.content it.filePath = some bytes := led.path ▸ there
  cases cached : place.cached with
  | true =>
      obtain ⟨inside, chunk, skipped, behind, opened, stands⟩ := led.read cached
      refine ⟨it, by rw [deref_cached stands chunk], led.path, led.size, led.next, .inl inside,
        (fun unread => by cases unread), ?_⟩
      intro _
      refine ⟨inside, chunk, skipped, behind, ?_, stands⟩
      simp [Place.after, opened]
  | false =>
      obtain ⟨empty, -, behind⟩ := led.unread cached
      obtain ⟨inside, same⟩ := same rfl cached
      have fits : place.next - place.skipped.getD 0 + min maxChunk
          (subU64 it.fileSize it.nextByte) ≤ bytes.length := by
        rw [led_left led inside]
        omega
      have result := deref_reads file empty (led_position led cached) fits
      dsimp only at result
      rw [led_left led inside, same] at result
      refine ⟨_, congrArg Prod.snd result, led.path, led.size, led.next, .inl inside,
        (fun unread => by cases unread), ?_⟩
      exact fun _ => ⟨inside, rfl, _, behind, rfl, rfl⟩

theorem led_reads_iff (positive : 0 < maxChunk) (there : fs.content path = some bytes)
    (ops : List IteratorOp) (it : ChunkIterator) (place : Place)
    (led : Led maxChunk path bytes it place)
    (inside : ∀ taken ∈ transitions (iteratorStep maxChunk fs) (some it) ops, BeforeEnd bytes taken) :
    (∀ taken ∈ transitions (iteratorStep maxChunk fs) (some it) ops, Dereferences maxChunk bytes taken) ↔
      ReadsInPlace maxChunk bytes place ops := by
  induction ops generalizing it place with
  | nil => simp [transitions, ReadsInPlace]
  | cons op rest ih =>
      simp only [transitions, List.forall_mem_cons] at inside ⊢
      obtain ⟨here, later⟩ := inside
      cases op with
      | increment =>
          have before := here rfl it rfl
          have now := ih it.increment _ (led_increments led before) later
          simp only [ReadsInPlace, SameBytes, Dereferences, transition, reduceCtorEq, false_implies, true_and]
          exact now
      | deref =>
          rw [ReadsInPlace, led_dereferences positive there led]
          refine and_congr_right (fun same => ?_)
          obtain ⟨after, stepped, ledAfter⟩ := led_after_deref there led same
          rw [stepped] at later ⊢
          exact ih after _ ledAfter later

-- Every operator* returns the bytes from next_byte on, and a second one the same chunk.
def IteratesRight (maxChunk : Nat) (fs : FileSystem) (bytes : Bytes) (it : ChunkIterator)
    (ops : List IteratorOp) : Prop :=
  (∀ taken ∈ transitions (iteratorStep maxChunk fs) (some it) ops, Dereferences maxChunk bytes taken) ∧
    ∀ early late, ops = early ++ .deref :: .deref :: late →
      (iteratorStep maxChunk fs .deref
        (finalState (iteratorStep maxChunk fs) (some it) (early ++ [.deref]))).1 =
        (iteratorStep maxChunk fs .deref (finalState (iteratorStep maxChunk fs) (some it) early)).1

theorem iterates_right_iff (positive : 0 < maxChunk) (there : fs.content path = some bytes)
    (start : UInt64) (ops : List IteratorOp)
    (inside : ∀ taken ∈ transitions (iteratorStep maxChunk fs) (some
      { nextByte := start.toNat, fileSize := bytes.length, filePath := path }) ops,
      BeforeEnd bytes taken) :
    IteratesRight maxChunk fs bytes
      { nextByte := start.toNat, fileSize := bytes.length, filePath := path } ops ↔
      ReadsInPlace maxChunk bytes { next := start.toNat } ops := by
  have led : Led maxChunk path bytes
      { nextByte := start.toNat, fileSize := bytes.length, filePath := path }
      { next := start.toNat } :=
    ⟨rfl, rfl, rfl, .inr ⟨rfl, start.toNat_lt⟩, fun _ => ⟨rfl, rfl, Nat.zero_le _⟩, fun read => by cases read⟩
  rw [← led_reads_iff positive there ops _ _ led inside, IteratesRight]
  refine ⟨And.left, fun right => ⟨right, ?_⟩⟩
  rintro early late rfl
  obtain ⟨it, -, returned⟩ := right _ (transition_mem _ _ early (.deref :: late) .deref) rfl
  rw [finalState, List.foldl_append, List.foldl_cons, List.foldl_nil]
  exact (deref_again returned).trans returned.symm

end Iterator

def firstLetter : ChunkIterator := { nextByte := 0, fileSize := 3, filePath := "blobs/7" }

theorem iterates_right_iff_run :
    IteratesRight 1 letters [97, 98, 99] firstLetter
      [.deref, .deref, .increment, .deref, .increment, .increment] :=
  (iterates_right_iff (by decide) (by decide +kernel) 0
    [.deref, .deref, .increment, .deref, .increment, .increment]
    (by decide +kernel)).mpr (by simp [ReadsInPlace, SameBytes, Place.after])

-- The second ++ moves the position but not the stream, which still stands at 98.
theorem second_increment_leaves_stream :
    (∀ taken ∈ transitions (iteratorStep 1 letters) (some firstLetter) [.deref,
      .increment, .increment, .deref], BeforeEnd [97, 98, 99] taken) ∧
      ¬ IteratesRight 1 letters [97, 98, 99] firstLetter [.deref, .increment, .increment, .deref] := by
  have behind : ¬ Dereferences 1 [97, 98, 99] (transition (iteratorStep 1 letters)
      (finalState (iteratorStep 1 letters) (some firstLetter) [.deref, .increment, .increment])
        .deref) := by decide +kernel
  refine ⟨by decide +kernel, fun right => behind (right.1 _ ?_)⟩
  exact last_transition (iteratorStep 1 letters) (some firstLetter) [.deref, .increment, .increment] .deref

end BlobStore
