import BlobStore.BlobPaths
import BlobStore.WorkerService
import BlobStore.Library.Contract

set_option autoImplicit false

namespace BlobStore

open Effects FileSystem

def FileHealthy (choice : FileChoice) : Prop := choice.fault = .none
def WholeWrites (choice : FileChoice) : Prop := ∀ count, choice.fault ≠ .shortWrite count

-- The choices under which a primitive does its work. Where trouble is expected it
-- may also do nothing and say so.
def Tolerates (ok : FileChoice → Prop) (trouble : Prop) : Prop :=
  ∀ choice, ok choice → FileHealthy choice ∨ trouble

theorem tolerates_healthy : Tolerates FileHealthy False := fun _ healthy => .inl healthy

def WritesWhole (ok : FileChoice → Prop) : Prop := ∀ choice, ok choice → WholeWrites choice

theorem healthy_writes_whole : WritesWhole FileHealthy := by
  intro choice healthy count short
  rw [show choice.fault = .none from healthy] at short
  cases short

theorem healthy_failure {choice : FileChoice} (healthy : FileHealthy choice) : choice.failure = none := by
  rw [FileChoice.failure, show choice.fault = .none from healthy]

theorem create_blobs_cases (choice : FileChoice) (fs : FileSystem) :
    ((∃ reason, choice.failure = some reason) ∨ makeBlobs fs = none) ∧
      (∃ what, fileSem (.createDirectories "blobs") choice fs = (.error what, fs)) ∨
      choice.failure = none ∧ ∃ base, makeBlobs fs = some base ∧
        fileSem (.createDirectories "blobs") choice fs = (.ok (), base) := by
  have relative : isAbsolute "blobs" = false := by decide
  simp only [fileSem, relative, blobs_components, Bool.false_eq_true, if_false]
  cases choice.failure with
  | some reason => exact .inl ⟨.inl ⟨reason, rfl⟩, reason, rfl⟩
  | none =>
      cases made : makeBlobs fs with
      | none =>
          rw [show fs.makeDirectories fs.cwd ["blobs"] = none from made]
          exact .inl ⟨.inr rfl, _, rfl⟩
      | some base =>
          rw [show fs.makeDirectories fs.cwd ["blobs"] = some base from made]
          exact .inr ⟨rfl, base, rfl, rfl⟩

theorem blobs_stay {choice : FileChoice} (works : choice.failure = none)
    {fs : FileSystem} (blobs : HasBlobs fs) :
    fileSem (.createDirectories "blobs") choice fs = (.ok (), fs) := by
  rcases create_blobs_cases choice fs with ⟨⟨reason, fails⟩ | unmade, -⟩ | ⟨-, base, made, result⟩
  · cases works.symm.trans fails
  · cases (make_blobs fs blobs).symm.trans unmade
  · obtain rfl := Option.some.inj ((make_blobs fs blobs).symm.trans made)
    exact result

theorem written_whole {choice : FileChoice} (whole : WholeWrites choice) (chunk : Bytes) :
    choice.written chunk = chunk := by
  unfold FileChoice.written
  split
  · rename_i count short
    exact absurd short (whole count)
  · rfl

theorem received_within (choice : FileChoice) (bytes : Bytes) : choice.received bytes <+: bytes := by
  unfold FileChoice.received
  split
  · exact List.nil_prefix
  · exact List.take_prefix _ _
  · exact List.prefix_rfl

def Caught {E : Type} {R : E → Type} {C σ α : Type} (sem : Sem E R C σ) (ok : C → Prop)
    (handler : String → Failing E R Thrown α) (post : Except Thrown α → σ → Prop)
    (outcome : Except Thrown α) (after : σ) : Prop :=
  match outcome with
  | .error (.fileSystemException what) => wp sem ok (handler what).run post after
  | other => post other after

theorem wp_catch {E : Type} {R : E → Type} {C σ α : Type} {sem : Sem E R C σ} {ok : C → Prop}
    (body : Failing E R Thrown α) (handler : String → Failing E R Thrown α)
    (post : Except Thrown α → σ → Prop) (state : σ)
    (holds : wp sem ok body.run (Caught sem ok handler post) state) :
    wp sem ok (catchFileSystemException body handler).run post state := by
  rw [catchFileSystemException, ExceptT.run_mk, wp_bind]
  refine wp_mono _ _ _ _ ?_ holds
  intro outcome after met
  cases outcome with
  | ok value => exact met
  | error thrown => cases thrown <;> exact met

theorem meets_catch {E : Type} {R : E → Type} {τ α : Type} {contract : Contract E R τ}
    (body : Failing E R Thrown α) (handler : String → Failing E R Thrown α)
    (post : Except Thrown α → τ → Prop) (ghost : τ) :
    meets contract (catchFileSystemException body handler).run post ghost ↔
      meets contract body.run (fun outcome after =>
        match outcome with
        | .error (.fileSystemException what) => meets contract (handler what).run post after
        | other => post other after) ghost := by
  rw [catchFileSystemException, ExceptT.run_mk, meets_bind]
  refine iff_of_eq (congrArg (fun after => meets contract body.run after ghost) (funext fun outcome => ?_))
  cases outcome with
  | ok value => rfl
  | error thrown => cases thrown <;> rfl

theorem caught_error {E : Type} {R : E → Type} {C σ α ε : Type} {sem : Sem E R C σ} {ok : C → Prop}
    (convert : String → ε) (post : Except Thrown (Except ε α) → σ → Prop) (after : σ)
    (thrown : ∀ thrown, post (.error thrown) after)
    (status : ∀ status, post (.ok (.error status)) after) (error : Thrown) :
    Caught sem ok (fun what => pure (.error (convert what))) post (.error error) after := by
  cases error with
  | fileSystemException what => exact status _
  | filesystemError what => exact thrown _
  | undefinedBehaviour => exact thrown _
  | nonterminating => exact thrown _

section Primitives

variable {ok : FileChoice → Prop} {trouble : Prop} (kind : Tolerates ok trouble)

include kind

theorem failure_is_trouble {choice : FileChoice} {reason : String} (allowed : ok choice)
    (failed : choice.failure = some reason) :
    trouble := by
  cases kind choice allowed with
  | inl healthy =>
      rw [FileChoice.failure, show choice.fault = .none from healthy] at failed
      cases failed
  | inr troubled => exact troubled

theorem received_whole {choice : FileChoice} (allowed : ok choice) (bytes : Bytes) :
    choice.received bytes = bytes ∨ trouble ∧ (choice.received bytes).length < bytes.length := by
  cases kind choice allowed with
  | inl healthy => exact .inl (by rw [FileChoice.received, show choice.fault = .none from healthy])
  | inr troubled =>
      by_cases whole : choice.received bytes = bytes
      · exact .inl whole
      · refine .inr ⟨troubled, ?_⟩
        have part := received_within choice bytes
        exact Nat.lt_of_le_of_ne part.length_le (fun same => whole (part.eq_of_length same))

theorem wp_create_blobs (post : Except Thrown Unit → FileSystem → Prop) (fs : FileSystem)
    (created : ∀ after, makeBlobs fs = some after → post (.ok ()) after)
    (failed : trouble ∨ makeBlobs fs = none → ∀ thrown, post (.error thrown) fs) :
    wp fileSem ok (createDirectories "blobs").run post fs := by
  rw [createDirectories, wp_run_bind, wp_run_perform]
  intro choice allowed
  rcases create_blobs_cases choice fs with ⟨cause, what, result⟩ | ⟨-, base, made, result⟩
  · rw [result]
    refine failed (cause.imp ?_ id) _
    exact fun ⟨reason, failure⟩ => failure_is_trouble kind allowed failure
  · rw [result]
    exact created base made

theorem wp_file_exists (path : String) (post : Except Thrown Bool → FileSystem → Prop)
    (fs : FileSystem) (answered : post (.ok (fs.lookup path).isSome) fs)
    (failed : trouble → ∀ thrown, post (.error thrown) fs) :
    wp fileSem ok (fileExists path).run post fs := by
  rw [fileExists, wp_run_bind, wp_run_perform]
  intro choice allowed
  simp only [fileSem]
  cases failure : choice.failure with
  | some reason => exact failed (failure_is_trouble kind allowed failure) _
  | none => exact answered

theorem wp_file_size (path : String) (post : Except Thrown Nat → FileSystem → Prop) (fs : FileSystem)
    (measured : ∀ bytes, fs.content path = some bytes → post (.ok bytes.length) fs)
    (failed : trouble ∨ fs.content path = none → ∀ thrown, post (.error thrown) fs) :
    wp fileSem ok (fileSizeOf path).run post fs := by
  rw [fileSizeOf, wp_run_bind, wp_run_perform]
  intro choice allowed
  simp only [fileSem]
  cases failure : choice.failure with
  | some reason => exact failed (.inl (failure_is_trouble kind allowed failure)) _
  | none =>
      cases there : fs.lookup path with
      | none => exact failed (.inr (by simp [content, there])) _
      | some node =>
          cases node with
          | directory => exact failed (.inr (by simp [content, there])) _
          | file bytes => exact measured bytes (by simp [content, there])

theorem wp_remove_file (path : String) (post : Except Thrown Bool → FileSystem → Prop)
    (fs : FileSystem) (location : Location) (bytes : Bytes)
    (resolved : fs.resolve path = some location) (there : fs.node location = some (.file bytes))
    (removed : post (.ok true) (fs.erase location))
    (failed : trouble → ∀ thrown, post (.error thrown) fs) :
    wp fileSem ok (removeFile path).run post fs := by
  rw [removeFile, wp_run_bind, wp_run_perform]
  intro choice allowed
  simp only [fileSem, resolved]
  cases failure : choice.failure with
  | some reason => exact failed (failure_is_trouble kind allowed failure) _
  | none =>
      simp only [there]
      exact removed

theorem wp_open_truncate (path : String) (post : Except Thrown Bool → FileSystem → Prop)
    (fs : FileSystem)
    (opened : ∀ location, fs.resolve path = some location → fs.node location ≠ some .directory →
      post (.ok true) (fs.put location (.file [])))
    (failed : (trouble ∨ ∀ location, fs.resolve path = some location →
      fs.node location = some .directory) → post (.ok false) fs) :
    wp fileSem ok (openTruncate path).run post fs := by
  rw [openTruncate, wp_run_perform]
  intro choice allowed
  simp only [fileSem]
  cases failure : choice.failure with
  | some reason => exact failed (.inl (failure_is_trouble kind allowed failure))
  | none =>
      cases resolved : fs.resolve path with
      | none => exact failed (.inr (fun location there => by rw [resolved] at there; cases there))
      | some location =>
          dsimp only
          by_cases directory : fs.node location = some .directory
          · rw [if_pos directory]
            exact failed (.inr (fun other there => Option.some.inj (resolved.symm.trans there) ▸ directory))
          · rw [if_neg directory]
            exact opened location resolved directory

theorem wp_append (writes : WritesWhole ok) (path : String) (chunk : Bytes)
    (post : Except Thrown Bool → FileSystem → Prop) (fs : FileSystem) (location : Location)
    (old : Bytes) (resolved : fs.resolve path = some location)
    (there : fs.node location = some (.file old))
    (appended : post (.ok true) (fs.put location (.file (old ++ chunk))))
    (failed : trouble → post (.ok false) fs) :
    wp fileSem ok (appendTo path chunk).run post fs := by
  rw [appendTo, wp_run_perform]
  intro choice allowed
  simp only [fileSem, resolved]
  cases failure : choice.failure with
  | some reason => exact failed (failure_is_trouble kind allowed failure)
  | none => simpa only [there, written_whole (writes choice allowed)] using appended

theorem wp_open_for_reading (path : String) (post : Except Thrown Bool → FileSystem → Prop)
    (fs : FileSystem) (bytes : Bytes) (there : fs.content path = some bytes)
    (opened : post (.ok true) fs) (failed : trouble → post (.ok false) fs) :
    wp fileSem ok (openForReading path).run post fs := by
  rw [openForReading, wp_run_perform]
  intro choice allowed
  simp only [fileSem, content_exists there, Bool.and_true]
  cases failure : choice.failure with
  | some reason => exact failed (failure_is_trouble kind allowed failure)
  | none => exact opened

theorem wp_read_at (path : String) (offset count : Nat)
    (post : Except Thrown Bytes → FileSystem → Prop) (fs : FileSystem) (bytes : Bytes)
    (there : fs.content path = some bytes)
    (received : post (.ok ((bytes.drop offset).take count)) fs)
    (failed : trouble → ∀ buffer, buffer.length < ((bytes.drop offset).take count).length →
      post (.ok buffer) fs) :
    wp fileSem ok (readAt path offset count).run post fs := by
  rw [readAt, wp_run_perform]
  intro choice allowed
  simp only [fileSem, there, Option.getD_some]
  cases received_whole kind allowed ((bytes.drop offset).take count) with
  | inl whole =>
      rw [whole]
      exact received
  | inr troubled => exact failed troubled.1 _ troubled.2

end Primitives

end BlobStore
