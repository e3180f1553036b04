import BlobStore.BlobFile
import Mathlib.Data.List.TakeWhile

set_option autoImplicit false

namespace BlobStore

namespace FileSystem

theorem walk_congr (one two : FileSystem)
    (same : ∀ location, one.node location = some .directory ↔ two.node location = some .directory)
    (here : Location) (names : List String) : one.walk here names = two.walk here names := by
  induction names generalizing here with
  | nil => rfl
  | cons name rest ih =>
      simp only [walk]
      rw [ih here, ih here.dropLast, ih (here ++ [name]), if_congr (same (here ++ [name])) rfl rfl]

theorem resolve_congr (one two : FileSystem) (cwd : one.cwd = two.cwd)
    (same : ∀ location, one.node location = some .directory ↔ two.node location = some .directory)
    (path : String) :
    one.resolve path = two.resolve path := by
  rw [resolve, resolve, cwd]
  exact walk_congr one two same _ _

-- Files come and go without any effect on the meaning of a path.
theorem resolve_put_file (fs : FileSystem) (location : Location) (bytes : Bytes)
    (free : fs.node location ≠ some .directory) (path : String) :
    (fs.put location (.file bytes)).resolve path = fs.resolve path := by
  refine resolve_congr (fs.put location (.file bytes)) fs rfl ?_ path
  intro other
  rw [node_put]
  by_cases same : other = location
  · subst same
    simp [free]
  · simp [same]

theorem content_of_resolve (fs : FileSystem) (path : String) (location : Location)
    (resolved : fs.resolve path = some location) :
    fs.content path = match fs.node location with | some (.file bytes) => some bytes | _ => none := by
  cases there : fs.node location with
  | none => simp [content, lookup, resolved, there]
  | some node => cases node <;> simp [content, lookup, resolved, there]

theorem content_exists {fs : FileSystem} {path : String} {bytes : Bytes}
    (there : fs.content path = some bytes) :
    (fs.lookup path).isSome = true := by
  cases present : fs.lookup path with
  | none => simp [content, present] at there
  | some node => rfl

theorem content_put_file (fs : FileSystem) (location : Location) (bytes : Bytes)
    (free : fs.node location ≠ some .directory) (path : String) :
    (fs.put location (.file bytes)).content path = if fs.resolve path = some location then
      some bytes else fs.content path := by
  have resolved := resolve_put_file fs location bytes free path
  cases there : fs.resolve path with
  | none => simp [content, lookup, resolved, there]
  | some other =>
      rw [content_of_resolve _ path other (resolved.trans there),
        content_of_resolve fs path other there, node_put]
      by_cases same : other = location <;> simp [same]

theorem put_put (fs : FileSystem) (location : Location) (one two : Node) :
    (fs.put location one).put location two = fs.put location two := by
  simp only [put, Finmap.insert_insert]

theorem erase_put (fs : FileSystem) (location : Location) (node : Node) :
    (fs.put location node).erase location = fs.erase location := by
  have nodes : ∀ other, ((fs.put location node).erase location).node other =
      (fs.erase location).node other := by
    intro other
    rw [node_erase, node_erase, node_put]
    by_cases same : other = location <;> simp [same]
  exact congrArg (FileSystem.mk fs.cwd) (Finmap.ext_lookup nodes)

theorem make_directories_grows (names : List String) (fs after : FileSystem) (here : Location)
    (made : fs.makeDirectories here names = some after) :
    after.cwd = fs.cwd ∧ ∀ location node, fs.node location = some node → after.node location = some node := by
  induction names generalizing fs here with
  | nil =>
      obtain rfl := Option.some.inj made
      exact ⟨rfl, fun _ _ there => there⟩
  | cons name rest ih =>
      rw [makeDirectories] at made
      split at made
      · exact ih fs here made
      · split at made
        · exact ih fs _ made
        · cases there : fs.node (here ++ [name]) with
          | none =>
              rw [there] at made
              obtain ⟨cwd, grown⟩ := ih _ _ made
              refine ⟨cwd, fun location node before => grown location node ?_⟩
              rw [node_put]
              by_cases same : location = here ++ [name]
              · rw [same, there] at before
                cases before
              · rw [if_neg same]
                exact before
          | some node =>
              rw [there] at made
              cases node with
              | directory => exact ih fs _ made
              | file bytes => cases made

theorem walk_grows (fs after : FileSystem)
    (grown : ∀ location node, fs.node location = some node → after.node location = some node)
    (names : List String) (here location : Location) (reached : fs.walk here names = some location) :
    after.walk here names = some location := by
  induction names generalizing here with
  | nil => exact reached
  | cons name rest ih =>
      rw [walk] at reached ⊢
      split at reached
      · rename_i stay
        rw [if_pos stay]
        exact ih here reached
      · rename_i go
        rw [if_neg go]
        split at reached
        · rename_i up
          rw [if_pos up]
          exact ih _ reached
        · rename_i down
          rw [if_neg down]
          split at reached
          · rename_i last
            rw [if_pos last]
            exact reached
          · rename_i more
            rw [if_neg more]
            split at reached
            · rename_i directory
              rw [if_pos (grown _ _ directory)]
              exact ih _ reached
            · cases reached

end FileSystem

open FileSystem

theorem blobs_components : components "blobs" = ["blobs"] := by decide

theorem blob_components (name : String) (ordinary : OrdinaryName name) :
    components ("blobs/" ++ name) = ["blobs", name] := by
  obtain ⟨-, -, -, slash, nul⟩ := ordinary
  have letters : ("blobs/" ++ name).toList = ['b', 'l', 'o', 'b', 's'] ++ '/' :: name.toList := by
    simp [String.toList_append]
  have whole : ("blobs/" ++ name).toList.takeWhile (· ≠ Char.ofNat 0) = ("blobs/" ++ name).toList := by
    rw [List.takeWhile_eq_self_iff, letters]
    intro character member
    simp only [decide_eq_true_eq]
    intro isNul
    subst isNul
    rcases List.mem_append.mp member with directory | rest
    · exact absurd directory (by decide)
    · exact absurd (List.mem_of_ne_of_mem (by decide) rest) nul
  have plain : ∀ character ∈ name.toList, (character == '/') = false := by
    intro character member
    exact beq_eq_false_iff_ne.mpr (fun same => slash (same ▸ member))
  have directory : ∀ character ∈ ['b', 'l', 'o', 'b', 's'], (character == '/') = false := by simp
  rw [components, whole, letters, List.splitOn_eq_splitOnP,
    List.splitOnP_append_cons_of_forall_mem directory '/' (by decide),
    List.splitOnP_eq_singleton plain]
  simp only [List.map_cons, List.map_nil, String.ofList_toList]

theorem ordinary_relative (name : String) (ordinary : OrdinaryName name) : isAbsolute name = false := by
  obtain ⟨-, -, -, slash, -⟩ := ordinary
  rw [isAbsolute, decide_eq_false_iff_not]
  intro first
  exact slash (List.mem_of_mem_head? first)

theorem join_blob (name : String) (ordinary : OrdinaryName name) :
    joinPath "blobs" name = "blobs/" ++ name := by
  rw [joinPath, ordinary_relative name ordinary]
  rfl

def HasBlobs (fs : FileSystem) : Prop := fs.node (fs.cwd ++ ["blobs"]) = some .directory

def blobLocation (fs : FileSystem) (name : String) : Location := fs.cwd ++ ["blobs", name]

theorem resolve_blob (fs : FileSystem) (blobs : HasBlobs fs) (name : String) (ordinary : OrdinaryName name) :
    fs.resolve ("blobs/" ++ name) = some (blobLocation fs name) := by
  have relative : isAbsolute ("blobs/" ++ name) = false := by simp [isAbsolute, String.toList_append]
  rw [resolve, relative, blob_components name ordinary]
  obtain ⟨nonempty, dot, dots, -, -⟩ := ordinary
  simp [walk, nonempty, dot, dots, show fs.node (fs.cwd ++ ["blobs"]) = some .directory from
    blobs, blobLocation]

theorem resolve_blob_inv (fs : FileSystem) (name : String) (ordinary : OrdinaryName name)
    (location : Location) (resolved : fs.resolve ("blobs/" ++ name) = some location) :
    HasBlobs fs ∧ location = blobLocation fs name := by
  have relative : isAbsolute ("blobs/" ++ name) = false := by simp [isAbsolute, String.toList_append]
  by_cases blobs : fs.node (fs.cwd ++ ["blobs"]) = some .directory
  · exact ⟨blobs, Option.some.inj (resolved.symm.trans (resolve_blob fs blobs name ordinary))⟩
  · rw [resolve, relative, blob_components name ordinary] at resolved
    simp [walk, blobs] at resolved

theorem blob_location_inj (fs : FileSystem) (one two : String) :
    blobLocation fs one = blobLocation fs two ↔ one = two := by
  simp [blobLocation]

def makeBlobs (fs : FileSystem) : Option FileSystem := fs.makeDirectories fs.cwd ["blobs"]

theorem make_blobs (fs : FileSystem) (blobs : HasBlobs fs) : makeBlobs fs = some fs := by
  simp [makeBlobs, makeDirectories, show fs.node (fs.cwd ++ ["blobs"]) = some .directory from blobs]

theorem blobs_made {fs base : FileSystem} (made : makeBlobs fs = some base) : HasBlobs base := by
  rw [makeBlobs, makeDirectories] at made
  simp only [show ("blobs" : String) ≠ "" by decide, show ("blobs" : String) ≠ "." by decide,
    show ("blobs" : String) ≠ ".." by decide, or_self, if_false] at made
  cases there : fs.node (fs.cwd ++ ["blobs"]) with
  | none =>
      rw [there] at made
      obtain rfl := Option.some.inj made
      simp [HasBlobs]
  | some node =>
      rw [there] at made
      cases node with
      | file bytes => cases made
      | directory =>
          obtain rfl := Option.some.inj made
          exact there

theorem content_grows (fs after : FileSystem) (made : makeBlobs fs = some after) (path : String)
    (bytes : Bytes) (there : fs.content path = some bytes) : after.content path = some bytes := by
  obtain ⟨cwd, grown⟩ := make_directories_grows _ _ _ _ made
  cases resolved : fs.resolve path with
  | none => simp [content, FileSystem.lookup, resolved] at there
  | some location =>
      have again : after.resolve path = some location := by
        rw [resolve, cwd]
        exact walk_grows fs after grown _ _ _ resolved
      rw [content_of_resolve fs path location resolved] at there
      rw [content_of_resolve after path location again]
      cases node : fs.node location with
      | none => simp [node] at there
      | some entry =>
          rw [node] at there
          rw [grown location entry node]
          exact there

end BlobStore
