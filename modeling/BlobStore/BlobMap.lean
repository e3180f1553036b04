import BlobStore.WholeUploads
import BlobStore.Library.NamedMap

set_option autoImplicit false

namespace BlobStore

open Effects FileSystem

abbrev BlobMap (X : Xxh64) := NamedMap String Bytes X.blobHash

def TellsApart (X : Xxh64) (blobs : List Bytes) : Prop :=
  ∀ one ∈ blobs, ∀ two ∈ blobs, X.xxh64 one = X.xxh64 two → one = two

-- The map that a cluster stands for. Rows in creation and files without a row are
-- no part of it, whatever left them there.
structure Represents (X : Xxh64) (blobs : List Bytes) (cluster : Cluster) (map : BlobMap X) : Prop where
  uploaded : ∀ blobHash bytes, map.lookup blobHash = some bytes → bytes ∈ blobs
  registered : ∀ key, cluster.tables.blobCopy.find? key ≠ none → Registered cluster.tables key.2
  shelves : ∀ worker, Registered cluster.tables worker → Shelf X (cluster.workers worker)
  saved : ∀ blobHash worker, Copy .saved cluster.tables (blobHash, worker) →
    ∃ bytes, map.lookup blobHash = some bytes ∧ storedFile (cluster.workers worker) blobHash = some bytes
  backed : ∀ blobHash bytes, map.lookup blobHash = some bytes →
    ∃ worker, Copy .saved cluster.tables (blobHash, worker)
  frontend : Usable cluster.frontend

theorem usable_empty {fs : FileSystem} (empty : EmptyBlobs fs) : Usable fs :=
  ⟨empty.1, fun name => by simp [empty.2 name]⟩

theorem represents_start (X : Xxh64) (blobs : List Bytes) (cluster : Cluster)
    (unused : cluster.tables.blobCopy = Table.empty)
    (workers : ∀ worker, Registered cluster.tables worker → EmptyBlobs (cluster.workers worker))
    (frontend : EmptyBlobs cluster.frontend) : Represents X blobs cluster NamedMap.empty where
  uploaded := fun _ _ found => by cases found
  registered := by
    intro key present
    rw [unused] at present
    exact absurd rfl present
  shelves := fun worker registered => empty_shelf X _ (workers worker registered)
  saved := by
    intro blobHash worker copy
    obtain ⟨entry, there, -⟩ := copy
    rw [unused] at there
    cases there
  backed := fun _ _ found => by cases found
  frontend := usable_empty frontend

theorem represents_frontend {X : Xxh64} {blobs : List Bytes} {cluster : Cluster} {map : BlobMap X}
    (represents : Represents X blobs cluster map) (fs : FileSystem) (usable : Usable fs) :
    Represents X blobs (withFrontend cluster fs) map := { represents with frontend := usable }

-- A reservation is invisible, whether or not it ends well.
theorem represents_reserved {X : Xxh64} {blobs : List Bytes} {cluster : Cluster} {map : BlobMap X}
    (represents : Represents X blobs cluster map) {blobHash : String} {tables : Tables}
    (reserves : Reserves blobHash cluster.tables tables) :
    Represents X blobs (withTables cluster tables) map where
  uploaded := represents.uploaded
  registered := by
    intro key present
    refine (reserves.workers key.2).mpr ?_
    cases reserves.copies key with
    | inl kept => exact represents.registered key (fun absent => present (kept.trans absent))
    | inr fresh => exact fresh.2.2.1
  shelves := fun worker registered => represents.shelves worker ((reserves.workers worker).mp registered)
  saved := by
    intro hash worker copy
    obtain ⟨entry, there, state⟩ := copy
    cases reserves.copies (hash, worker) with
    | inl kept => exact represents.saved hash worker ⟨entry, kept.symm.trans there, state⟩
    | inr fresh =>
        obtain ⟨-, -, -, other, found, creating⟩ := fresh
        have same := Option.some.inj (there.symm.trans found)
        rw [same, creating] at state
        cases state
  backed := by
    intro hash bytes found
    obtain ⟨worker, copy⟩ := represents.backed hash bytes found
    exact ⟨worker, copy_reserved reserves copy⟩
  frontend := represents.frontend

theorem stored_changed {name : String} {before after : FileSystem}
    (changes : ChangesOnly name before after) (other : String) (different : other ≠ name) :
    storedFile after other = storedFile before other := by
  rw [storedFile, storedFile, entry_kept changes other different]

theorem saved_shelf {X : Xxh64} {worker : String} {bytes : Bytes} {before after : Cluster}
    (saved : SavedOn worker (X.blobHash bytes) bytes before after) (shelf : Shelf X (before.workers worker)) :
    Shelf X (after.workers worker) ∧ storedFile (after.workers worker) (X.blobHash bytes) = some bytes ∧
      ChangesOnly (X.blobHash bytes) (before.workers worker) (after.workers worker) := by
  obtain ⟨base, location, opened, workers⟩ := saved.workers
  have opens := opens_blob _ shelf.blobs (X.blobHash bytes) (blob_hash_ordinary X bytes) (shelf_free shelf _)
  obtain ⟨rfl, rfl⟩ := opens_unique opens opened
  have changes := changes_put (before.workers worker) (X.blobHash bytes) (.file bytes)
  rw [workers, Function.update_self]
  exact ⟨shelf_changed shelf _ changes (.inr ⟨bytes, by simp, rfl⟩), stored_put _ _ _, changes⟩

theorem represents_saved {X : Xxh64} {blobs : List Bytes} {before after : Cluster} {map : BlobMap X}
    (represents : Represents X blobs before map) (apart : TellsApart X blobs) {worker : String}
    {bytes : Bytes} (uploaded : bytes ∈ blobs) (registered : Registered before.tables worker)
    (saved : SavedOn worker (X.blobHash bytes) bytes before after) :
    Represents X blobs after (map.put bytes) := by
  obtain ⟨shelf, stored, changes⟩ := saved_shelf saved (represents.shelves worker registered)
  have elsewhere : ∀ other, other ≠ worker → after.workers other = before.workers other := by
    obtain ⟨base, location, -, workers⟩ := saved.workers
    intro other different
    rw [workers, Function.update_of_ne different]
  have known : ∀ blobHash old, map.lookup blobHash = some old →
      (map.put bytes).lookup blobHash = some old := by
    intro blobHash old found
    refine map.lookup_put_known bytes old blobHash ?_ found
    intro same
    exact apart old (represents.uploaded _ _ found) bytes uploaded ((X.blob_hash_eq_iff old bytes).mp same)
  constructor
  · intro blobHash other found
    rw [NamedMap.lookup_put] at found
    by_cases same : blobHash = X.blobHash bytes
    · rw [if_pos same] at found
      exact Option.some.inj found ▸ uploaded
    · rw [if_neg same] at found
      exact represents.uploaded _ _ found
  · intro key present
    refine (saved.notified.workers key.2).mpr ?_
    by_cases same : key = (X.blobHash bytes, worker)
    · rw [same]
      exact registered
    · rw [saved.notified.others key same] at present
      exact represents.registered key present
  · intro other known
    by_cases same : other = worker
    · exact same ▸ shelf
    · rw [elsewhere other same]
      exact represents.shelves other ((saved.notified.workers other).mp known)
  · intro blobHash other copy
    by_cases here : (blobHash, other) = (X.blobHash bytes, worker)
    · obtain ⟨rfl, rfl⟩ := Prod.mk.inj here
      exact ⟨bytes, by rw [NamedMap.lookup_put, if_pos rfl], stored⟩
    · obtain ⟨entry, there, state⟩ := copy
      rw [saved.notified.others _ here] at there
      obtain ⟨old, found, kept⟩ := represents.saved blobHash other ⟨entry, there, state⟩
      refine ⟨old, known _ _ found, ?_⟩
      by_cases same : other = worker
      · subst same
        rw [stored_changed changes blobHash (fun equal => here (by rw [equal]))]
        exact kept
      · rw [elsewhere other same]
        exact kept
  · intro blobHash other found
    rw [NamedMap.lookup_put] at found
    by_cases same : blobHash = X.blobHash bytes
    · exact ⟨worker, same ▸ saved.notified.saved⟩
    · rw [if_neg same] at found
      obtain ⟨holder, entry, there, state⟩ := represents.backed _ _ found
      refine ⟨holder, entry, ?_, state⟩
      rw [saved.notified.others _ (fun equal => same (congrArg Prod.fst equal))]
      exact there
  · exact saved.frontend ▸ represents.frontend

structure Dropped (X : Xxh64) (blobHash : String) (before after : Cluster) : Prop where
  tables : after.tables = before.tables
  frontend : after.frontend = before.frontend
  workers : ∀ worker, Shelf X (before.workers worker) → Shelf X (after.workers worker) ∧
    ∀ other, other ≠ blobHash →
      storedFile (after.workers worker) other = storedFile (before.workers worker) other

theorem dropped_refl (X : Xxh64) (blobHash : String) (cluster : Cluster) :
    Dropped X blobHash cluster cluster :=
  ⟨rfl, rfl, fun _ shelf => ⟨shelf, fun _ _ => rfl⟩⟩

theorem dropped_trans {X : Xxh64} {blobHash : String} {before middle after : Cluster}
    (first : Dropped X blobHash before middle) (second : Dropped X blobHash middle after) :
    Dropped X blobHash before after := by
  refine ⟨second.tables.trans first.tables, second.frontend.trans first.frontend, ?_⟩
  intro worker shelf
  obtain ⟨shelved, kept⟩ := first.workers worker shelf
  obtain ⟨still, again⟩ := second.workers worker shelved
  exact ⟨still, fun other different => (again other different).trans (kept other different)⟩

def withoutRows (blobHash : String) (tables : Tables) : Tables :=
  { tables with blobCopy := tables.blobCopy.delete (fun entry => entry.hash = blobHash) }

theorem copy_without_rows (blobHash : String) (tables : Tables) (key : String × String)
    (entry : BlobCopyDTO) :
    (withoutRows blobHash tables).blobCopy.find? key = some entry ↔
      tables.blobCopy.find? key = some entry ∧ key.1 ≠ blobHash := by
  rw [withoutRows, Table.find_delete, Option.filter_eq_some_iff]
  have hash : tables.blobCopy.find? key = some entry → entry.hash = key.1 :=
    fun there => congrArg Prod.fst ((tables.blobCopy.find_some_iff _ _).mp there).2
  constructor
  · intro kept
    exact ⟨kept.1, by simpa [hash kept.1] using kept.2⟩
  · intro kept
    exact ⟨kept.1, by simpa [hash kept.1] using kept.2⟩

theorem represents_deleted {X : Xxh64} {blobs : List Bytes} {before after : Cluster}
    {map : BlobMap X} (represents : Represents X blobs before map) {blobHash : String}
    (dropped : Dropped X blobHash before after) :
    Represents X blobs (withTables after (withoutRows blobHash after.tables)) (map.remove blobHash) := by
  have kept : ∀ hash other, (map.remove blobHash).lookup hash = some other ↔
      map.lookup hash = some other ∧ hash ≠ blobHash := by
    intro hash other
    rw [NamedMap.lookup_remove]
    by_cases same : hash = blobHash <;> simp [same]
  rw [dropped.tables]
  constructor
  · exact fun hash bytes found => represents.uploaded hash bytes ((kept hash bytes).mp found).1
  · intro key present
    obtain ⟨entry, there⟩ := Option.ne_none_iff_exists'.mp present
    have before := ((copy_without_rows blobHash _ key entry).mp there).1
    exact represents.registered key (by simp [before])
  · exact fun worker registered => (dropped.workers worker (represents.shelves worker registered)).1
  · intro hash worker copy
    obtain ⟨entry, there, state⟩ := copy
    obtain ⟨there, different⟩ := (copy_without_rows blobHash _ _ entry).mp there
    obtain ⟨bytes, found, stored⟩ := represents.saved hash worker ⟨entry, there, state⟩
    have registered := represents.registered (hash, worker) (by simp [there])
    refine ⟨bytes, (kept hash bytes).mpr ⟨found, different⟩, ?_⟩
    exact ((dropped.workers worker (represents.shelves worker registered)).2 hash different).trans stored
  · intro hash bytes found
    obtain ⟨found, different⟩ := (kept hash bytes).mp found
    obtain ⟨worker, entry, there, state⟩ := represents.backed hash bytes found
    exact ⟨worker, entry, (copy_without_rows blobHash _ _ entry).mpr ⟨there, different⟩, state⟩
  · exact dropped.frontend ▸ represents.frontend

end BlobStore
