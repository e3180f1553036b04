import BlobStore.BlobHasher

set_option autoImplicit false

namespace BlobStore

open Effects

-- What leaves a function other than by returning. Only the first is caught by
-- the handlers of this repository; the third is the dereference of an empty
-- optional, and the last a loop that does not end.
inductive Thrown where
  | fileSystemException (what : String)
  | filesystemError (what : String)
  | undefinedBehaviour
  | nonterminating
deriving DecidableEq

abbrev FileM (α : Type) := Failing FileCall FileReply Thrown α

def orThrow {α : Type} (outcome : Except String α) : FileM α :=
  match outcome with
  | .ok value => pure value
  | .error what => throw (.filesystemError what)

def createDirectories (path : String) : FileM Unit :=
  Failing.perform (FileCall.createDirectories path) >>= orThrow
def fileExists (path : String) : FileM Bool := Failing.perform (FileCall.fileExists path) >>= orThrow
def fileSizeOf (path : String) : FileM Nat := Failing.perform (FileCall.fileSize path) >>= orThrow
def removeFile (path : String) : FileM Bool := Failing.perform (FileCall.remove path) >>= orThrow

-- The stream classes report through is_open() and gcount() only.
def openTruncate (path : String) : FileM Bool := Failing.perform (FileCall.openTrunc path)
def appendTo (path : String) (chunk : Bytes) : FileM Bool := Failing.perform (FileCall.append path chunk)
def openForReading (path : String) : FileM Bool := Failing.perform (FileCall.openRead path)
def readAt (path : String) (offset count : Nat) : FileM Bytes :=
  Failing.perform (FileCall.read path offset count)

def MAX_CHUNK_SIZE : Nat := 1024 * 1024

-- fs::path::operator/ on POSIX: an absolute right operand replaces the left one.
def joinPath (base name : String) : String :=
  if FileSystem.isAbsolute name then name else base ++ "/" ++ name

-- Unsigned 64-bit subtraction, which wraps below zero.
def subU64 (a b : Nat) : Nat := if b ≤ a then a - b else a + 2 ^ 64 - b

-- next_byte is exact here: it never passes file_size_, which is 64 bits wide.
-- file_stream_ is represented by the offset of the open stream.
structure ChunkIterator where
  nextByte : Nat
  fileSize : Nat
  filePath : String
  fileStream : Option Nat := none
  currentChunk : Option Bytes := none

namespace ChunkIterator

def createStreamIfNecessary (it : ChunkIterator) : FileM ChunkIterator :=
  match it.fileStream with
  | some _ => pure it
  | none => do
      let isOpen ← openForReading it.filePath
      if isOpen then pure { it with fileStream := some it.nextByte }
      else throw (.fileSystemException ("Failed to open file " ++ it.filePath))

def readChunk (maxChunk : Nat) (it : ChunkIterator) : FileM (Bytes × ChunkIterator) :=
  match it.fileStream with
  | none => throw .undefinedBehaviour
  | some position => do
      let bytesToRead := min maxChunk (subU64 it.fileSize it.nextByte)
      let buffer ← readAt it.filePath position bytesToRead
      if buffer.length < bytesToRead then
        throw (.fileSystemException
          ("Failed to read file, write at" ++ toString it.nextByte ++ " returned " ++
          toString buffer.length ++ " instead of " ++ toString bytesToRead))
      else pure (buffer, { it with fileStream := some (position + buffer.length) })

-- operator*
def deref (maxChunk : Nat) (it : ChunkIterator) : FileM (Bytes × ChunkIterator) := do
  let it ← it.createStreamIfNecessary
  match it.currentChunk with
  | some chunk => pure (chunk, it)
  | none => do
      let (chunk, it) ← it.readChunk maxChunk
      pure (chunk, { it with currentChunk := some chunk })

-- operator++
def increment (it : ChunkIterator) : ChunkIterator :=
  let advance := match it.currentChunk with
    | some chunk => chunk.length
    | none => 1
  { it with nextByte := it.nextByte + advance, currentChunk := none }

-- operator!=
def differs (it other : ChunkIterator) : Bool := it.nextByte != other.nextByte

end ChunkIterator

structure BlobFile where
  filePath : String
  fileSize : Nat
deriving DecidableEq

namespace BlobFile

def BLOBS_PATH : String := "blobs"

def begin (file : BlobFile) : ChunkIterator :=
  { nextByte := 0, fileSize := file.fileSize, filePath := file.filePath }

def finish (file : BlobFile) : ChunkIterator :=
  { nextByte := file.fileSize, fileSize := file.fileSize, filePath := file.filePath }

-- BlobFile::New
def create (filename : String) : FileM BlobFile := do
  createDirectories BLOBS_PATH
  let filePath := joinPath BLOBS_PATH filename
  let isOpen ← openTruncate filePath
  if isOpen then pure ⟨filePath, 0⟩
  else throw (.fileSystemException ("Failed to open file " ++ filePath))

-- BlobFile::Load
def load (filename : String) : FileM BlobFile := do
  createDirectories BLOBS_PATH
  let filePath := joinPath BLOBS_PATH filename
  let present ← fileExists filePath
  if present then do
    let size ← fileSizeOf filePath
    pure ⟨filePath, size⟩
  else throw (.fileSystemException ("Failed to open file " ++ filePath))

-- The stream's state after write is not examined, so the recorded size grows by
-- the whole chunk whatever reached the file.
def appendChunk (file : BlobFile) (chunk : Bytes) : FileM BlobFile := do
  let isOpen ← appendTo file.filePath chunk
  if isOpen then pure { file with fileSize := (file.fileSize + chunk.length) % 2 ^ 64 }
  else throw (.fileSystemException ("Failed to open file " ++ file.filePath ++ " for appending"))

def remove (file : BlobFile) : FileM Bool := removeFile file.filePath

end BlobFile

inductive Flow (β ρ : Type) where
  | next (accumulator : β)
  | leave (result : ρ)

section Loop

variable {F : Type} {S : F → Type} {β ρ : Type}

-- for (chunk : blob) body. When reading a chunk throws, the stack is unwound
-- before the exception goes on. The fuel is one more than the bytes left; that
-- it is never used up is part of every statement about this loop.
def forChunks (maxChunk : Nat) (file : (call : FileCall) → Program F S (FileReply call))
    (body : β → Bytes → Failing F S Thrown (Flow β ρ)) (unwind : β → Failing F S Thrown Unit) :
    Nat → ChunkIterator → ChunkIterator → β → Failing F S Thrown (Flow β ρ)
  | 0, _, _, _ => throw .nonterminating
  | fuel + 1, it, last, accumulator =>
      if it.differs last then do
        match ← Failing.attempt (Failing.inline file (it.deref maxChunk)) with
        | .error thrown => do
            unwind accumulator
            throw thrown
        | .ok (chunk, it) => do
            match ← body accumulator chunk with
            | .leave result => pure (.leave result)
            | .next accumulator => forChunks maxChunk file body unwind fuel it.increment last accumulator
      else pure (.next accumulator)

def BlobFile.forEach (blob : BlobFile) (maxChunk : Nat)
    (file : (call : FileCall) → Program F S (FileReply call))
    (body : β → Bytes → Failing F S Thrown (Flow β ρ)) (unwind : β → Failing F S Thrown Unit)
    (accumulator : β) : Failing F S Thrown (Flow β ρ) :=
  forChunks maxChunk file body unwind (blob.fileSize + 1) blob.begin blob.finish accumulator

end Loop

end BlobStore
