import BlobStore.Library.Runs

set_option autoImplicit false

namespace Effects

-- What a component promises its users: the results it may give in an abstract
-- state, and the abstract state after such a result.
structure Spec (Op α A : Type) where
  allowed : A → Op → α → Prop
  next : A → Op → α → A

namespace Spec

variable {Op σ α A : Type} (spec : Spec Op α A)

def Explains : A → List (Transition Op σ α) → Prop
  | _, [] => True
  | abstract, taken :: rest =>
      spec.allowed abstract taken.op taken.result ∧ Explains (spec.next abstract taken.op taken.result) rest

theorem simulation (step : Op → σ → α × σ) (represents : σ → A → Prop) (good : Op → Prop)
    (post : Transition Op σ α → Prop)
    (each : ∀ state abstract op, represents state abstract → good op →
      spec.allowed abstract op (step op state).1 ∧ post (transition step state op) ∧
      represents (step op state).2 (spec.next abstract op (step op state).1))
    (state : σ) (abstract : A) (ops : List Op) (start : represents state abstract)
    (allGood : ∀ op ∈ ops, good op) :
    spec.Explains abstract (transitions step state ops) ∧
      ∀ taken ∈ transitions step state ops, post taken := by
  induction ops generalizing state abstract with
  | nil => exact ⟨trivial, fun _ member => by cases member⟩
  | cons op rest ih =>
      obtain ⟨allowed, promised, kept⟩ := each state abstract op start (allGood op (by simp))
      obtain ⟨explained, later⟩ := ih _ _ kept (fun other member => allGood other (by simp [member]))
      exact ⟨⟨allowed, explained⟩, List.forall_mem_cons.mpr ⟨promised, later⟩⟩

end Spec

end Effects
