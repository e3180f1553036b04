import BlobStore.Library.Program
import Mathlib.Data.Finmap

set_option autoImplicit false

namespace BlobStore

abbrev Bytes := List UInt8

abbrev Location := List String

inductive Node where
  | file (content : Bytes)
  | directory
deriving DecidableEq

-- One container's files. Symbolic links and permissions are not modelled; a
-- primitive that fails for such a reason does so through its choice below.
structure FileSystem where
  cwd : Location
  nodes : Finmap (fun _ : Location => Node)

namespace FileSystem

def node (fs : FileSystem) (location : Location) : Option Node := fs.nodes.lookup location

def put (fs : FileSystem) (location : Location) (node : Node) : FileSystem :=
  { fs with nodes := fs.nodes.insert location node }

def erase (fs : FileSystem) (location : Location) : FileSystem :=
  { fs with nodes := fs.nodes.erase location }

@[simp] theorem put_cwd (fs : FileSystem) (location : Location) (node : Node) :
    (fs.put location node).cwd = fs.cwd := rfl
@[simp] theorem erase_cwd (fs : FileSystem) (location : Location) : (fs.erase location).cwd = fs.cwd := rfl

@[simp] theorem node_put (fs : FileSystem) (location other : Location) (node : Node) :
    (fs.put location node).node other = if other = location then some node else fs.node other := by
  by_cases same : other = location
  · subst same
    rw [if_pos rfl]
    exact Finmap.lookup_insert fs.nodes
  · rw [if_neg same]
    exact Finmap.lookup_insert_of_ne fs.nodes same

@[simp] theorem node_erase (fs : FileSystem) (location other : Location) :
    (fs.erase location).node other = if other = location then none else fs.node other := by
  by_cases same : other = location
  · subst same
    rw [if_pos rfl]
    exact Finmap.lookup_erase other fs.nodes
  · rw [if_neg same]
    exact Finmap.lookup_erase_ne same

-- The operating system reads a path as a C string, so it ends at the first NUL.
def components (path : String) : List String :=
  ((path.toList.takeWhile (· ≠ Char.ofNat 0)).splitOn '/').map String.ofList

-- rmdir refuses such a path, whatever it leads to.
def endsInDot (path : String) : Bool := ((components path).filter (· ≠ "")).getLast? = some "."

def isAbsolute (path : String) : Bool := path.toList.head? = some '/'

-- Path resolution: every component but the last must be an existing directory.
def walk (fs : FileSystem) : Location → List String → Option Location
  | here, [] => some here
  | here, name :: rest =>
      if name = "" ∨ name = "." then fs.walk here rest
      else if name = ".." then fs.walk here.dropLast rest
      else if rest = [] then some (here ++ [name])
      else if fs.node (here ++ [name]) = some .directory then fs.walk (here ++ [name]) rest
      else none

def resolve (fs : FileSystem) (path : String) : Option Location :=
  fs.walk (if isAbsolute path then [] else fs.cwd) (components path)

def lookup (fs : FileSystem) (path : String) : Option Node := (fs.resolve path).bind fs.node

def content (fs : FileSystem) (path : String) : Option Bytes :=
  match fs.lookup path with
  | some (.file bytes) => some bytes
  | _ => none

def makeDirectories (fs : FileSystem) : Location → List String → Option FileSystem
  | _, [] => some fs
  | here, name :: rest =>
      if name = "" ∨ name = "." then fs.makeDirectories here rest
      else if name = ".." then fs.makeDirectories here.dropLast rest
      else match fs.node (here ++ [name]) with
        | some .directory => fs.makeDirectories (here ++ [name]) rest
        | some (.file _) => none
        | none => (fs.put (here ++ [name]) .directory).makeDirectories (here ++ [name]) rest

def hasChildren (fs : FileSystem) (location : Location) : Bool :=
  decide (∃ child ∈ fs.nodes.keys, child ≠ [] ∧ child.dropLast = location)

end FileSystem

-- How one primitive can go wrong. After a short write std::ofstream has a flag set
-- that no caller looks at.
inductive FileFault where
  | none
  | fails (reason : String)
  | shortRead (count : Nat)
  | shortWrite (count : Nat)

structure FileChoice where
  fault : FileFault := .none
  free : UInt64 := 0

instance : Inhabited FileChoice := ⟨{}⟩

def FileChoice.failure (choice : FileChoice) : Option String :=
  match choice.fault with
  | .fails reason => some reason
  | _ => none

def FileChoice.received (choice : FileChoice) (bytes : Bytes) : Bytes :=
  match choice.fault with
  | .fails _ => []
  | .shortRead count => bytes.take count
  | _ => bytes

def FileChoice.written (choice : FileChoice) (bytes : Bytes) : Bytes :=
  match choice.fault with
  | .shortWrite count => bytes.take count
  | _ => bytes

-- The primitives of std::filesystem and of the two stream classes the code uses.
-- append opens in append mode, writes and closes; openTrunc opens and closes.
inductive FileCall where
  | createDirectories (path : String)
  | openTrunc (path : String)
  | append (path : String) (chunk : Bytes)
  | fileExists (path : String)
  | fileSize (path : String)
  | remove (path : String)
  | openRead (path : String)
  | read (path : String) (offset count : Nat)
  | space (path : String)

-- An error is the text of a std::filesystem::filesystem_error that is thrown; a
-- Bool is the is_open() of a stream, or the value the primitive returns.
@[reducible] def FileReply : FileCall → Type
  | .createDirectories _ => Except String Unit
  | .openTrunc _ => Bool
  | .append _ _ => Bool
  | .fileExists _ => Except String Bool
  | .fileSize _ => Except String Nat
  | .remove _ => Except String Bool
  | .openRead _ => Bool
  | .read _ _ _ => Bytes
  | .space _ => Except String UInt64

open FileSystem in
def fileSem : Effects.Sem FileCall FileReply FileChoice FileSystem
  | .createDirectories path, choice, fs =>
      match choice.failure with
      | some reason => (.error reason, fs)
      | none =>
          match fs.makeDirectories (if isAbsolute path then [] else fs.cwd) (components path) with
          | some after => (.ok (), after)
          | none => (.error "cannot create directories: Not a directory", fs)
  | .openTrunc path, choice, fs =>
      match choice.failure, fs.resolve path with
      | none, some location =>
          if fs.node location = some .directory then (false, fs) else (true, fs.put location (.file []))
      | _, _ => (false, fs)
  | .append path chunk, choice, fs =>
      match choice.failure, fs.resolve path with
      | none, some location =>
          match fs.node location with
          | some .directory => (false, fs)
          | some (.file old) => (true, fs.put location (.file (old ++ choice.written chunk)))
          | none => (true, fs.put location (.file (choice.written chunk)))
      | _, _ => (false, fs)
  | .fileExists path, choice, fs =>
      match choice.failure with
      | some reason => (.error reason, fs)
      | none => (.ok (fs.lookup path).isSome, fs)
  | .fileSize path, choice, fs =>
      match choice.failure, fs.lookup path with
      | none, some (.file bytes) => (.ok bytes.length, fs)
      | none, some .directory => (.error "cannot get file size: Is a directory", fs)
      | none, none => (.error "cannot get file size: No such file or directory", fs)
      | some reason, _ => (.error reason, fs)
  | .remove path, choice, fs =>
      match choice.failure, fs.resolve path with
      | some reason, _ => (.error reason, fs)
      | none, none => (.ok false, fs)
      | none, some location =>
          match fs.node location with
          | none => (.ok false, fs)
          | some (.file _) => (.ok true, fs.erase location)
          | some .directory =>
              if endsInDot path then (.error "cannot remove: Invalid argument", fs)
              else if fs.hasChildren location then (.error "cannot remove: Directory not empty", fs)
              else (.ok true, fs.erase location)
  | .openRead path, choice, fs => (choice.failure.isNone && (fs.lookup path).isSome, fs)
  | .read path offset count, choice, fs =>
      (choice.received ((((fs.content path).getD []).drop offset).take count), fs)
  | .space path, choice, fs =>
      match choice.failure with
      | some reason => (.error reason, fs)
      | none => if (fs.lookup path).isSome then (.ok choice.free, fs)
                else (.error "cannot get free space: No such file or directory", fs)

end BlobStore
