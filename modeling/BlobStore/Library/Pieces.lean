import Mathlib.Algebra.Order.Floor.Div
import Mathlib.Tactic.Common

set_option autoImplicit false

namespace Effects

section Pieces

variable {α : Type}

-- The first pieces of a list that is cut every size elements.
def pieces (size : Nat) (list : List α) (count : Nat) : List (List α) :=
  (List.range count).map (fun index => (list.drop (index * size)).take size)

theorem pieces_succ (size : Nat) (list : List α) (count : Nat) :
    pieces size list (count + 1) = pieces size list count ++ [(list.drop (count * size)).take size] := by
  simp only [pieces, List.range_succ, List.map_append, List.map_cons, List.map_nil]

@[simp] theorem length_pieces (size : Nat) (list : List α) (count : Nat) :
    (pieces size list count).length = count := by
  simp only [pieces, List.length_map, List.length_range]

theorem flatten_pieces (size : Nat) (list : List α) (count : Nat) :
    (pieces size list count).flatten = list.take (count * size) := by
  induction count with
  | zero => simp [pieces]
  | succ count ih =>
      rw [pieces_succ, List.flatten_append, ih, List.flatten_singleton, Nat.succ_mul, List.take_add]

theorem full_pieces (size : Nat) (list : List α) (count : Nat) (inside : count * size ≤ list.length) :
    ∀ piece ∈ pieces size list count, piece.length = size := by
  intro piece member
  obtain ⟨index, before, rfl⟩ := List.mem_map.mp member
  have fits : (index + 1) * size ≤ count * size := Nat.mul_le_mul_right size (List.mem_range.mp before)
  rw [Nat.succ_mul] at fits
  rw [List.length_take, List.length_drop]
  omega

theorem lt_ceil_iff {size : Nat} (positive : 0 < size) (length count : Nat) :
    count < length ⌈/⌉ size ↔ count * size < length := by
  rw [← not_le, ceilDiv_le_iff_le_mul positive, not_le, Nat.mul_comm]

theorem ceil_succ {size length : Nat} (positive : 0 < size) (some_ : 0 < length) :
    length ⌈/⌉ size = (length - min size length) ⌈/⌉ size + 1 := by
  rw [Nat.ceilDiv_eq_add_pred_div, Nat.ceilDiv_eq_add_pred_div, ← Nat.add_div_right _ positive]
  by_cases whole : size ≤ length
  · congr 1
    omega
  · have one : (length + size - 1) / size = 1 := Nat.div_eq_of_lt_le (by omega) (by omega)
    have none : (length - length + size - 1 + size) / size = 1 := Nat.div_eq_of_lt_le (by omega) (by omega)
    rw [Nat.min_eq_right (by omega), one, none]

-- A list cut into pieces of one size, but for a last one that may be shorter.
structure Cut (size : Nat) (list : List α) (cut : List (List α)) : Prop where
  whole : cut.flatten = list
  count : cut.length = list.length ⌈/⌉ size
  full : ∀ piece ∈ cut.dropLast, piece.length = size
  last : ∀ piece ∈ cut.getLast?, 0 < piece.length ∧ piece.length ≤ size

theorem pieces_cut {size : Nat} (positive : 0 < size) (list : List α) :
    Cut size list (pieces size list (list.length ⌈/⌉ size)) := by
  have covered : list.length ≤ list.length ⌈/⌉ size * size :=
    Nat.mul_comm size _ ▸ (ceilDiv_le_iff_le_mul positive).mp le_rfl
  refine ⟨?_, length_pieces _ _ _, ?_, ?_⟩
  · rw [flatten_pieces, List.take_of_length_le covered]
  · cases needed : list.length ⌈/⌉ size with
    | zero => simp [pieces]
    | succ before =>
        rw [pieces_succ, List.dropLast_concat]
        exact full_pieces size list before ((lt_ceil_iff positive _ _).mp (by omega)).le
  · cases needed : list.length ⌈/⌉ size with
    | zero => simp [pieces]
    | succ before =>
        have short : before * size < list.length := (lt_ceil_iff positive _ _).mp (by omega)
        rw [pieces_succ, List.getLast?_concat]
        rintro piece ⟨⟩
        rw [List.length_take, List.length_drop]
        omega

end Pieces

end Effects
