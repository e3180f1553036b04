import BlobStore.FileSystem
import Std.Data.String.ToNat

set_option autoImplicit false

namespace BlobStore

-- The streaming interface of xxHash with seed 0, taken from the library as it
-- is documented: feeding data in pieces digests to the same value as feeding it
-- at once.
structure Xxh64 where
  State : Type
  reset : State
  update : State → Bytes → State
  digest : State → UInt64
  streaming : ∀ chunks : List Bytes, digest (chunks.foldl update reset) = digest (update reset chunks.flatten)

namespace Xxh64

variable (X : Xxh64)

def xxh64 (bytes : Bytes) : UInt64 := X.digest (X.update X.reset bytes)

-- std::to_string of the 64-bit hash: the name under which a blob is stored.
def blobHash (bytes : Bytes) : String := Nat.repr (X.xxh64 bytes).toNat

theorem blob_hash_eq_iff (one two : Bytes) : X.blobHash one = X.blobHash two ↔ X.xxh64 one = X.xxh64 two := by
  unfold blobHash
  rw [Nat.repr_inj, UInt64.toNat_inj]

end Xxh64

structure BlobHasher (X : Xxh64) where
  state : X.State

namespace BlobHasher

variable {X : Xxh64}

def new : BlobHasher X := ⟨X.reset⟩

def addChunk (hasher : BlobHasher X) (bytes : Bytes) : BlobHasher X := ⟨X.update hasher.state bytes⟩

def finalize (hasher : BlobHasher X) : String := Nat.repr (X.digest hasher.state).toNat

def addChunks (hasher : BlobHasher X) (chunks : List Bytes) : BlobHasher X := chunks.foldl addChunk hasher

theorem add_chunks_state (hasher : BlobHasher X) (chunks : List Bytes) :
    (hasher.addChunks chunks).state = chunks.foldl X.update hasher.state := by
  induction chunks generalizing hasher with
  | nil => rfl
  | cons chunk rest ih => exact ih (hasher.addChunk chunk)

theorem finalize_chunks (chunks : List Bytes) :
    ((new : BlobHasher X).addChunks chunks).finalize = X.blobHash chunks.flatten := by
  rw [finalize, add_chunks_state]
  exact congrArg (fun digest => Nat.repr (UInt64.toNat digest)) (X.streaming chunks)

end BlobHasher

def OrdinaryName (name : String) : Prop :=
  name ≠ "" ∧ name ≠ "." ∧ name ≠ ".." ∧ '/' ∉ name.toList ∧ Char.ofNat 0 ∉ name.toList

instance (name : String) : Decidable (OrdinaryName name) :=
  inferInstanceAs (Decidable (_ ∧ _ ∧ _ ∧ _ ∧ _))

theorem digits_of_repr (number : Nat) (character : Char) (member : character ∈ (Nat.repr number).toList) :
    character.isDigit = true := by
  rw [Nat.toList_repr] at member
  exact Nat.isDigit_of_mem_toDigits (by decide) (by decide) member

theorem repr_ordinary (number : Nat) : OrdinaryName (Nat.repr number) := by
  have digits := digits_of_repr number
  refine ⟨?_, ?_, ?_, ?_, ?_⟩
  · intro empty
    have nonempty : Nat.toDigits 10 number ≠ [] := Nat.toDigits_ne_nil
    rw [← Nat.toList_repr, empty] at nonempty
    exact nonempty rfl
  · intro dot
    rw [dot] at digits
    exact absurd (digits '.' (by decide)) (by decide)
  · intro dots
    rw [dots] at digits
    exact absurd (digits '.' (by decide)) (by decide)
  · intro slash
    exact absurd (digits _ slash) (by decide)
  · intro nul
    exact absurd (digits _ nul) (by decide)

theorem blob_hash_ordinary (X : Xxh64) (bytes : Bytes) : OrdinaryName (X.blobHash bytes) := repr_ordinary _

-- The published XXH64 algorithm with seed 0, used where a statement is evaluated
-- on concrete data.
namespace Xxh64Reference

def prime1 : UInt64 := 0x9E3779B185EBCA87
def prime2 : UInt64 := 0xC2B2AE3D27D4EB4F
def prime3 : UInt64 := 0x165667B19E3779F9
def prime4 : UInt64 := 0x85EBCA77C2B2AE63
def prime5 : UInt64 := 0x27D4EB2F165667C5

def rotateLeft (value : UInt64) (count : UInt64) : UInt64 := (value <<< count) ||| (value >>> (64 - count))

def littleEndian (bytes : Bytes) : UInt64 := bytes.foldr (fun byte rest => byte.toUInt64 ||| (rest <<< 8)) 0

def round (accumulator lane : UInt64) : UInt64 := rotateLeft (accumulator + lane * prime2) 31 * prime1

def mergeRound (accumulator value : UInt64) : UInt64 := (accumulator ^^^ round 0 value) * prime1 + prime4

def stripes : Nat → Bytes → UInt64 × UInt64 × UInt64 × UInt64 → Bytes × UInt64 × UInt64 × UInt64 × UInt64
  | 0, bytes, lanes => (bytes, lanes)
  | count + 1, bytes, (v1, v2, v3, v4) =>
      stripes count (bytes.drop 32)
        (round v1 (littleEndian (bytes.take 8)), round v2 (littleEndian ((bytes.drop 8).take 8)),
          round v3 (littleEndian ((bytes.drop 16).take 8)), round v4 (littleEndian ((bytes.drop 24).take 8)))

def tail : Nat → UInt64 → Bytes → UInt64
  | 0, hash, _ => hash
  | fuel + 1, hash, bytes =>
      if 8 ≤ bytes.length then
        tail fuel
          (rotateLeft (hash ^^^ round 0 (littleEndian (bytes.take 8))) 27 * prime1 + prime4)
          (bytes.drop 8)
      else if 4 ≤ bytes.length then
        tail fuel
          (rotateLeft (hash ^^^ (littleEndian (bytes.take 4) * prime1)) 23 * prime2 + prime3)
          (bytes.drop 4)
      else match bytes with
        | [] => hash
        | byte :: rest => tail fuel (rotateLeft (hash ^^^ (byte.toUInt64 * prime5)) 11 * prime1) rest

def avalanche (hash : UInt64) : UInt64 :=
  let first := (hash ^^^ (hash >>> 33)) * prime2
  let second := (first ^^^ (first >>> 29)) * prime3
  second ^^^ (second >>> 32)

def digest (bytes : Bytes) : UInt64 :=
  let (rest, v1, v2, v3, v4) := stripes (bytes.length / 32) bytes (prime1 + prime2, prime2, 0, 0 - prime1)
  let start := if 32 ≤ bytes.length then
      [v1, v2, v3, v4].foldl mergeRound
        (rotateLeft v1 1 + rotateLeft v2 7 + rotateLeft v3 12 + rotateLeft v4 18)
    else prime5
  avalanche (tail rest.length (start + UInt64.ofNat bytes.length) rest)

end Xxh64Reference

def referenceXxh64 : Xxh64 where
  State := Bytes
  reset := []
  update := List.append
  digest := Xxh64Reference.digest
  streaming := fun chunks => by
    have gathered : ∀ start : Bytes, chunks.foldl List.append start = start ++ chunks.flatten := by
      intro start
      induction chunks generalizing start with
      | nil => exact (List.append_nil start).symm
      | cons chunk rest ih => rw [List.foldl_cons, ih]; exact List.append_assoc start chunk rest.flatten
    rw [gathered]
    rfl

end BlobStore
