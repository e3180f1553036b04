import BlobStore.BlobPaths

set_option autoImplicit false

namespace BlobStore

namespace FileSystem

-- Where a path leads, read off its text.
def target : Location → List String → Location
  | here, [] => here
  | here, name :: rest =>
      if name = "" ∨ name = "." then target here rest
      else if name = ".." then target here.dropLast rest
      else target (here ++ [name]) rest

-- The directories it goes through on its way.
def passes : Location → List String → List Location
  | _, [] => []
  | here, name :: rest =>
      if name = "" ∨ name = "." then passes here rest
      else if name = ".." then passes here.dropLast rest
      else if rest = [] then []
      else (here ++ [name]) :: passes (here ++ [name]) rest

theorem walk_iff (fs : FileSystem) (here location : Location) (names : List String) :
    fs.walk here names = some location ↔
      (∀ place ∈ passes here names, fs.node place = some .directory) ∧ location = target here names := by
  induction names generalizing here with
  | nil => simp [walk, passes, target, eq_comm]
  | cons name rest ih =>
      rw [walk, passes, target]
      by_cases stay : name = "" ∨ name = "."
      · simp only [if_pos stay, ih]
      · by_cases up : name = ".."
        · simp only [if_neg stay, if_pos up, ih]
        · by_cases last : rest = []
          · subst last
            simp [stay, up, target, eq_comm]
          · by_cases directory : fs.node (here ++ [name]) = some .directory
            · simp [stay, up, last, directory, ih]
            · simp [stay, up, last, directory]

-- The place above the target is one the path has gone through, or above one.
theorem target_parent (here : Location) (names : List String) :
    ∃ place ∈ here :: passes here names, (target here names).dropLast <+: place := by
  induction names generalizing here with
  | nil => exact ⟨here, by simp, List.dropLast_prefix here⟩
  | cons name rest ih =>
      rw [passes, target]
      split
      · exact ih here
      · split
        · obtain ⟨place, member, above⟩ := ih here.dropLast
          cases List.mem_cons.mp member with
          | inl first => exact ⟨here, by simp, (first ▸ above).trans (List.dropLast_prefix here)⟩
          | inr later => exact ⟨place, List.mem_cons_of_mem _ later, above⟩
        · split
          · rename_i last
            subst last
            exact ⟨here, by simp, by simp [target]⟩
          · obtain ⟨place, member, above⟩ := ih (here ++ [name])
            exact ⟨place, List.mem_cons_of_mem _ member, above⟩

def origin (cwd : Location) (path : String) : Location := if isAbsolute path then [] else cwd

def leadsTo (cwd : Location) (path : String) : Location := target (origin cwd path) (components path)

def goesThrough (cwd : Location) (path : String) : List Location := passes (origin cwd path) (components path)

theorem resolve_iff (fs : FileSystem) (path : String) (location : Location) :
    fs.resolve path = some location ↔
      (∀ place ∈ goesThrough fs.cwd path, fs.node place = some .directory) ∧ location = leadsTo fs.cwd path :=
  walk_iff fs _ location _

-- What every operating system keeps: the root and the working directory are
-- directories, and whatever exists lies in a directory.
structure FileTree (fs : FileSystem) : Prop where
  root : fs.node [] = some .directory
  current : fs.node fs.cwd = some .directory
  parents : ∀ location node, fs.node location = some node → fs.node location.dropLast = some .directory

theorem tree_above {fs : FileSystem} (tree : FileTree fs) {place above : Location} {node : Node}
    (there : fs.node place = some node) (prefixed : above <+: place) :
    above = place ∨ fs.node above = some .directory := by
  obtain ⟨rest, rfl⟩ := prefixed
  induction rest using List.reverseRecOn generalizing node with
  | nil => exact .inl (by simp)
  | append_singleton rest name ih =>
      have parent := tree.parents _ _ there
      rw [← List.append_assoc, List.dropLast_concat] at parent
      cases ih parent with
      | inl same => exact .inr (same ▸ parent)
      | inr directory => exact .inr directory

theorem tree_directory {fs : FileSystem} (tree : FileTree fs) {place above : Location}
    (there : fs.node place = some .directory) (prefixed : above <+: place) :
    fs.node above = some .directory := by
  cases tree_above tree there prefixed with
  | inl same => exact same ▸ there
  | inr directory => exact directory

theorem tree_has_children {fs : FileSystem} (tree : FileTree fs) {place above : Location}
    (there : fs.node place = some .directory) (prefixed : above <+: place)
    (different : above ≠ place) : fs.hasChildren above = true := by
  obtain ⟨rest, rfl⟩ := prefixed
  cases rest with
  | nil => exact absurd (List.append_nil above).symm different
  | cons name more =>
      have child : fs.node (above ++ [name]) = some .directory := tree_directory tree there ⟨more, by simp⟩
      rw [hasChildren, decide_eq_true_eq]
      exact ⟨above ++ [name], Finmap.mem_keys.mpr (Finmap.mem_of_lookup_eq_some child), by simp,
        List.dropLast_concat⟩

theorem tree_origin {fs : FileSystem} (tree : FileTree fs) (path : String) :
    fs.node (origin fs.cwd path) = some .directory := by
  unfold origin
  split
  · exact tree.root
  · exact tree.current

theorem tree_put {fs : FileSystem} (tree : FileTree fs) (location : Location) (node : Node)
    (free : fs.node location ≠ some .directory)
    (parent : fs.node location.dropLast = some .directory) : FileTree (fs.put location node) := by
  have kept : ∀ place, fs.node place = some .directory →
      (fs.put location node).node place = some .directory := by
    intro place there
    rw [node_put, if_neg (fun same : place = location => free (same ▸ there))]
    exact there
  refine ⟨kept _ tree.root, kept _ tree.current, ?_⟩
  intro place found there
  rw [node_put] at there
  split at there
  · rename_i same
    exact kept _ (same ▸ parent)
  · exact kept _ (tree.parents place found there)

theorem tree_make_directories (names : List String) (fs after : FileSystem) (here : Location)
    (tree : FileTree fs) (directory : fs.node here = some .directory)
    (made : fs.makeDirectories here names = some after) : FileTree after := by
  induction names generalizing fs here with
  | nil => exact Option.some.inj made ▸ tree
  | cons name rest ih =>
      rw [makeDirectories] at made
      split at made
      · exact ih fs here tree directory made
      · split at made
        · exact ih fs here.dropLast tree (tree.parents here _ directory) made
        · cases there : fs.node (here ++ [name]) with
          | none =>
              rw [there] at made
              refine ih _ _ (tree_put tree _ _ (by simp [there]) ?_) (by rw [node_put, if_pos rfl]) made
              rw [List.dropLast_concat]
              exact directory
          | some node =>
              rw [there] at made
              cases node with
              | directory => exact ih fs _ tree there made
              | file bytes => cases made

theorem tree_make_blobs {fs after : FileSystem} (tree : FileTree fs)
    (made : makeBlobs fs = some after) : FileTree after :=
  tree_make_directories ["blobs"] fs after fs.cwd tree tree.current made

-- Nothing but the directories on the way to some places.
def directoriesTo (cwd : Location) (places : List Location) : FileSystem :=
  ((cwd :: places).flatMap List.inits).foldr (fun place fs => fs.put place .directory) ⟨cwd, ∅⟩

theorem directories_to_cwd (cwd : Location) (places : List Location) :
    (directoriesTo cwd places).cwd = cwd := by
  unfold directoriesTo
  induction (cwd :: places).flatMap List.inits with
  | nil => rfl
  | cons place rest ih => exact ih

theorem directories_to_node (cwd location : Location) (places : List Location) :
    (directoriesTo cwd places).node location = if ∃ place ∈ cwd :: places, location <+: place then
      some .directory else none := by
  have listed : ∀ all : List Location,
      (all.foldr (fun place fs => fs.put place .directory) (⟨cwd, ∅⟩ : FileSystem)).node location =
      if location ∈ all then some .directory else none := by
    intro all
    induction all with
    | nil => exact Finmap.lookup_empty location
    | cons place rest ih =>
        rw [List.foldr_cons, node_put, ih]
        by_cases same : location = place <;> simp [same]
  rw [directoriesTo, listed]
  simp only [List.mem_flatMap, List.mem_inits]

theorem directories_to_tree (cwd : Location) (places : List Location) :
    FileTree (directoriesTo cwd places) := by
  refine ⟨?_, ?_, ?_⟩
  · rw [directories_to_node, if_pos ⟨cwd, List.mem_cons_self, List.nil_prefix⟩]
  · rw [directories_to_cwd, directories_to_node, if_pos ⟨cwd, List.mem_cons_self, List.prefix_rfl⟩]
  · intro location node there
    rw [directories_to_node] at there ⊢
    split at there
    · rename_i above
      obtain ⟨place, member, prefixed⟩ := above
      exact if_pos ⟨place, member, (List.dropLast_prefix location).trans prefixed⟩
    · cases there

theorem target_of_empty (here : Location) (names : List String)
    (empty : ∀ name ∈ names, name = "") : target here names = here := by
  induction names with
  | nil => rfl
  | cons name rest ih =>
      rw [target, if_pos (.inl (empty name List.mem_cons_self))]
      exact ih (fun other member => empty other (List.mem_cons_of_mem _ member))

-- The last name of a path that ends in a dot is that of a directory already reached.
theorem target_of_dot (here : Location) (names : List String)
    (dot : (names.filter (· ≠ "")).getLast? = some ".") :
    ∃ place ∈ here :: passes here names, target here names <+: place := by
  induction names generalizing here with
  | nil => cases dot
  | cons name rest ih =>
      rw [passes, target]
      by_cases more : rest.filter (· ≠ "") = []
      · have last : ∀ other ∈ rest, other = "" := by simpa using more
        by_cases stay : name = "" ∨ name = "."
        · rw [if_pos stay, if_pos stay, target_of_empty here rest last]
          exact ⟨here, List.mem_cons_self, List.prefix_rfl⟩
        · obtain ⟨named, other⟩ := not_or.mp stay
          rw [List.filter_cons, if_pos (by simpa using named), more] at dot
          exact absurd (Option.some.inj dot) other
      · have later : (rest.filter (· ≠ "")).getLast? = some "." := by
          obtain ⟨next, further, nonempty⟩ := List.exists_cons_of_ne_nil more
          rw [List.filter_cons, nonempty] at dot
          rw [nonempty]
          split at dot
          · rwa [List.getLast?_cons_cons] at dot
          · exact dot
        split
        · exact ih here later
        · split
          · obtain ⟨place, member, above⟩ := ih here.dropLast later
            cases List.mem_cons.mp member with
            | inl first => exact ⟨here, List.mem_cons_self, (first ▸ above).trans (List.dropLast_prefix here)⟩
            | inr further => exact ⟨place, List.mem_cons_of_mem _ further, above⟩
          · split
            · rename_i nothing
              exact absurd (by simp [nothing]) more
            · obtain ⟨place, member, above⟩ := ih (here ++ [name]) later
              exact ⟨place, List.mem_cons_of_mem _ member, above⟩

end FileSystem

end BlobStore
