import BlobStore.BlobRules

set_option autoImplicit false

namespace BlobStore

open Effects FileSystem WorkerService

def Leading (bytes : Bytes) (chunks : List Bytes) : Prop :=
  ∀ count, count ≤ chunks.length → (chunks.take count).flatten = bytes.take (count * MAX_CHUNK_SIZE)

theorem leading_nil (bytes : Bytes) : Leading bytes [] := by
  intro count short
  obtain rfl : count = 0 := by simpa using short
  simp

theorem leading_take {bytes : Bytes} {chunks : List Bytes} (leading : Leading bytes chunks) (reached : Nat) :
    Leading bytes (chunks.take reached) := by
  intro count short
  rw [List.length_take] at short
  rw [List.take_take, Nat.min_eq_left (by omega)]
  exact leading count (by omega)

theorem leading_snoc {bytes chunk : Bytes} {chunks : List Bytes} (leading : Leading bytes chunks)
    (read : chunk = (bytes.drop (chunks.length * MAX_CHUNK_SIZE)).take MAX_CHUNK_SIZE) :
    Leading bytes (chunks ++ [chunk]) := by
  intro count short
  rw [List.length_append, List.length_singleton] at short
  by_cases inside : count ≤ chunks.length
  · rw [List.take_append_of_le_length inside]
    exact leading count inside
  · obtain rfl : count = chunks.length + 1 := by omega
    have all : (chunks ++ [chunk]).take (chunks.length + 1) = chunks ++ [chunk] :=
      List.take_of_length_le (by simp)
    have before := leading chunks.length le_rfl
    rw [List.take_length] at before
    rw [all, List.flatten_append, before, read, Nat.add_mul, Nat.one_mul, List.take_add]
    simp

theorem leading_whole_iff {bytes : Bytes} {chunks : List Bytes} (leading : Leading bytes chunks) :
    chunks.flatten = bytes ↔ bytes.length ≤ chunks.length * MAX_CHUNK_SIZE := by
  have all := leading chunks.length le_rfl
  rw [List.take_length] at all
  rw [all]
  exact List.take_eq_self_iff bytes

-- The file that BlobFile::Load opens, and the chunks of it that have been sent.
structure Streaming (fs : FileSystem) (blobHash : String) (base : FileSystem) (bytes : Bytes)
    (chunks : List Bytes) : Prop where
  made : makeBlobs fs = some base
  there : base.content (joinPath "blobs" blobHash) = some bytes
  leading : Leading bytes chunks

variable {D τ : Type} {outer : Sem WorkerCall WorkerReply D τ} {okOuter : D → Prop}
  {ok : FileChoice → Prop} {trouble : Prop}
  {get : τ → FileSystem} {set : τ → FileSystem → τ}

-- The state of the process is a function of its directory and of what it has sent.
theorem wp_send_blob (kind : Tolerates ok trouble)
    (acts : ActsOnFiles outer okOuter workerFile ok get set) (blobHash : String)
    (reached : FileSystem → List Bytes → τ) (post : Except Thrown (Except Status Unit) → τ → Prop)
    (start : τ) (begins : ∀ base, set start base = reached base [])
    (files : ∀ base chunks, get (reached base chunks) = base)
    (write : ∀ base bytes chunks chunk (next : Except Thrown Bool → τ → Prop),
      Streaming (get start) blobHash base bytes chunks →
      next (.ok true) (reached base (chunks ++ [chunk])) →
      (∀ after, (∀ status, post (.ok (.error status)) after) → next (.ok false) after) →
      wp outer okOuter (writeResponse chunk).run next (reached base chunks))
    (sent : ∀ base bytes chunks, Streaming (get start) blobHash base bytes chunks →
      chunks.flatten = bytes → post (.ok (.ok ())) (reached base chunks))
    (unread : trouble → ∀ base bytes chunks, Streaming (get start) blobHash base bytes chunks →
      ∀ status, post (.ok (.error status)) (reached base chunks))
    (missing : ∀ base, makeBlobs (get start) = some base →
      base.lookup (joinPath "blobs" blobHash) = none →
      ∀ status, post (.ok (.error status)) (reached base []))
    (failed : trouble ∨ makeBlobs (get start) = none ∨
      (∃ base, makeBlobs (get start) = some base ∧ base.lookup (joinPath "blobs" blobHash) =
        some .directory) → ∀ outcome after, post outcome (reached after [])) :
    wp outer okOuter (sendBlobToFrontend blobHash).run post start := by
  rw [sendBlobToFrontend]
  refine wp_catch _ _ _ _ ?_
  rw [wp_run_bind]
  refine acts.inline _ _ _ start ?_
  refine wp_load kind blobHash _ (get start) ?_ ?_ ?_
  · intro base bytes made there
    dsimp only
    rw [wp_run_bind, BlobFile.forEach, begins]
    refine wp_for_chunks kind acts MAX_CHUNK_SIZE (by decide) _ _ (joinPath "blobs" blobHash) bytes
      (fun next _ whole => ∃ chunks, whole = reached base chunks ∧ Leading bytes chunks ∧
        next = min (chunks.length * MAX_CHUNK_SIZE) bytes.length) _ ?_ ?_ ?_ ?_
      (bytes.length + 1) 0 none _ () (reached base []) (by omega) (by omega) rfl (.inl rfl)
        ⟨[], rfl, leading_nil bytes, by simp⟩
    · intro next _ whole inv
      obtain ⟨chunks, rfl, -⟩ := inv
      rw [files]
      exact there
    · intro next _ whole chunk inv more read
      obtain ⟨chunks, rfl, leading, position⟩ := inv
      rw [Nat.min_eq_left (by omega)] at position
      subst position
      rw [wp_run_bind]
      refine write base bytes chunks chunk _ ⟨made, there, leading⟩ ?_ ?_
      · refine ⟨chunks ++ [chunk], rfl, leading_snoc leading read, ?_⟩
        rw [List.length_append, List.length_singleton, Nat.add_mul, Nat.one_mul, read,
          List.length_take, List.length_drop]
        omega
      · intro after refused
        exact refused _
    · intro _ whole inv
      obtain ⟨chunks, rfl, leading, position⟩ := inv
      exact sent base bytes chunks ⟨made, there, leading⟩ ((leading_whole_iff leading).mpr (by omega))
    · intro troubled _ _ whole what inv
      obtain ⟨chunks, rfl, leading, -⟩ := inv
      exact unread troubled base bytes chunks ⟨made, there, leading⟩ _
  · intro base what made absent
    rw [begins]
    exact missing base made absent _
  · intro trouble thrown after
    rw [begins]
    exact caught_error _ _ _ (fun _ => failed trouble _ after) (fun _ => failed trouble _ after) thrown

end BlobStore
