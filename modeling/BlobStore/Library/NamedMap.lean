import Mathlib.Logic.Function.Basic

set_option autoImplicit false

-- A map that keeps every value under the name the value has by itself.
structure NamedMap (κ β : Type) (name : β → κ) where
  lookup : κ → Option β
  named : ∀ key value, lookup key = some value → name value = key

namespace NamedMap

variable {κ β : Type} {name : β → κ}

def empty : NamedMap κ β name := ⟨fun _ => none, fun _ _ found => by cases found⟩

variable [DecidableEq κ]

def put (map : NamedMap κ β name) (value : β) : NamedMap κ β name where
  lookup := Function.update map.lookup (name value) (some value)
  named := by
    intro key other found
    by_cases same : key = name value
    · subst same
      rw [Function.update_self] at found
      rw [Option.some.inj found]
    · rw [Function.update_of_ne same] at found
      exact map.named key other found

def remove (map : NamedMap κ β name) (key : κ) : NamedMap κ β name where
  lookup := Function.update map.lookup key none
  named := by
    intro other value found
    by_cases same : other = key
    · subst same
      rw [Function.update_self] at found
      cases found
    · rw [Function.update_of_ne same] at found
      exact map.named other value found

@[simp] theorem lookup_put (map : NamedMap κ β name) (value : β) (key : κ) :
    (map.put value).lookup key = if key = name value then some value else map.lookup key :=
  Function.update_apply _ _ _ _

@[simp] theorem lookup_remove (map : NamedMap κ β name) (gone key : κ) :
    (map.remove gone).lookup key = if key = gone then none else map.lookup key :=
  Function.update_apply _ _ _ _

theorem put_again (map : NamedMap κ β name) (value : β) : (map.put value).put value = map.put value := by
  simp only [put, Function.update_idem]

theorem lookup_put_known (map : NamedMap κ β name) (value old : β) (key : κ)
    (tells : name old = name value → old = value) (found : map.lookup key = some old) :
    (map.put value).lookup key = some old := by
  rw [lookup_put]
  by_cases same : key = name value
  · rw [if_pos same, tells ((map.named key old found).trans same)]
  · rw [if_neg same]
    exact found

end NamedMap
