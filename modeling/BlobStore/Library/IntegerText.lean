import Mathlib.Data.List.TakeWhile
import Mathlib.Tactic.Common

set_option autoImplicit false

-- Decimal integers as the C library reads them: blanks, a sign, digits, and then
-- anything that is not one more digit.
namespace IntegerText

def isBlank (letter : Char) : Bool := letter == ' ' || (9 ≤ letter.toNat && letter.toNat ≤ 13)

def readDigits (text : List Char) : Option Nat :=
  match text.takeWhile Char.isDigit with
  | [] => none
  | digit :: digits => some (Nat.ofDigitChars 10 (digit :: digits) 0)

def readSigned : List Char → Option Int
  | '-' :: rest => (readDigits rest).map (fun magnitude : Nat => -(magnitude : Int))
  | '+' :: rest => (readDigits rest).map Int.ofNat
  | text => (readDigits text).map Int.ofNat

def readInteger (text : List Char) : Option Int := readSigned (text.dropWhile isBlank)

-- What such a text is, and which number it stands for.
structure Magnitude (text : List Char) (magnitude : Nat) : Prop where
  split : ∃ digits rest, text = digits ++ rest ∧ digits ≠ [] ∧ (∀ letter ∈ digits, letter.isDigit = true) ∧
    (∀ letter, rest.head? = some letter → letter.isDigit = false) ∧ magnitude = Nat.ofDigitChars 10 digits 0

inductive Denotes : List Char → Int → Prop where
  | blank (letter : Char) (rest : List Char) (value : Int) (blank : isBlank letter = true)
      (denotes : Denotes rest value) :
      Denotes (letter :: rest) value
  | minus (rest : List Char) (magnitude : Nat) (digits : Magnitude rest magnitude) :
      Denotes ('-' :: rest) (-(magnitude : Int))
  | plus (rest : List Char) (magnitude : Nat) (digits : Magnitude rest magnitude) :
      Denotes ('+' :: rest) (magnitude : Int)
  | unsigned (text : List Char) (magnitude : Nat) (digits : Magnitude text magnitude) :
      Denotes text (magnitude : Int)

theorem take_digits (digits rest : List Char) (all : ∀ letter ∈ digits, letter.isDigit = true)
    (stops : ∀ letter, rest.head? = some letter → letter.isDigit = false) :
    (digits ++ rest).takeWhile Char.isDigit = digits := by
  rw [List.takeWhile_append_of_pos all]
  cases rest with
  | nil => simp
  | cons letter more => rw [List.takeWhile_cons, stops letter rfl]; simp

theorem magnitude_read_digits {text : List Char} {magnitude : Nat} (stands : Magnitude text magnitude) :
    readDigits text = some magnitude := by
  obtain ⟨digits, rest, rfl, nonempty, all, stops, rfl⟩ := stands.split
  rw [readDigits, take_digits digits rest all stops]
  cases digits with
  | nil => exact absurd rfl nonempty
  | cons digit digits => rfl

theorem magnitude_head {text : List Char} {magnitude : Nat} (reads : Magnitude text magnitude) :
    ∃ digit rest, text = digit :: rest ∧ digit.isDigit = true := by
  obtain ⟨digits, rest, rfl, nonempty, all, -, -⟩ := reads.split
  cases digits with
  | nil => exact absurd rfl nonempty
  | cons digit digits => exact ⟨digit, digits ++ rest, rfl, all digit List.mem_cons_self⟩

theorem digit_not_blank (letter : Char) (digit : letter.isDigit = true) : isBlank letter = false := by
  have code : 48 ≤ letter.toNat := by
    rw [Char.isDigit, Bool.and_eq_true, decide_eq_true_eq] at digit
    exact digit.1
  have above : 9 ≤ letter.toNat → 13 < letter.toNat := by omega
  have space : letter ≠ ' ' := by
    intro same
    rw [same] at code
    exact absurd code (by decide)
  simpa [isBlank, space] using above

theorem read_signed_unsigned (text : List Char) (minus : text.head? ≠ some '-')
    (plus : text.head? ≠ some '+') :
    readSigned text = (readDigits text).map Int.ofNat := by
  unfold readSigned
  split
  · exact absurd rfl minus
  · exact absurd rfl plus
  · rfl

theorem denotes_read_integer {text : List Char} {value : Int} (denotes : Denotes text value) :
    readInteger text = some value := by
  induction denotes with
  | blank letter rest value blank _ ih =>
      rw [readInteger, List.dropWhile_cons_of_pos blank]
      exact ih
  | minus rest magnitude digits =>
      rw [readInteger, List.dropWhile_cons_of_neg (by decide), readSigned, magnitude_read_digits digits]
      rfl
  | plus rest magnitude digits =>
      rw [readInteger, List.dropWhile_cons_of_neg (by decide), readSigned, magnitude_read_digits digits]
      rfl
  | unsigned text magnitude digits =>
      obtain ⟨digit, rest, rfl, isDigit⟩ := magnitude_head digits
      have blank : ¬ isBlank digit = true := by simp [digit_not_blank digit isDigit]
      have minus : digit ≠ '-' := by
        intro same
        rw [same] at isDigit
        cases isDigit
      have plus : digit ≠ '+' := by
        intro same
        rw [same] at isDigit
        cases isDigit
      rw [readInteger, List.dropWhile_cons_of_neg blank,
        read_signed_unsigned _ (by simpa using minus) (by simpa using plus),
        magnitude_read_digits digits]
      rfl

theorem repr_magnitude (magnitude : Nat) (rest : List Char)
    (stops : ∀ letter, rest.head? = some letter → letter.isDigit = false) :
    Magnitude ((toString magnitude).toList ++ rest) magnitude := by
  rw [Nat.toString_eq_repr, Nat.toList_repr]
  exact ⟨_, rest, rfl, Nat.toDigits_ne_nil,
    fun _ member => Nat.isDigit_of_mem_toDigits (by decide) (by decide) member, stops,
    Nat.ofDigitChars_ten_toDigits.symm⟩

-- What is written out is read back, up to the first letter that is no digit.
theorem read_integer_written (value : Int) (rest : List Char)
    (stops : ∀ letter, rest.head? = some letter → letter.isDigit = false) :
    readInteger ((toString value).toList ++ rest) = some value := by
  apply denotes_read_integer
  cases value with
  | ofNat magnitude => exact .unsigned _ magnitude (repr_magnitude magnitude rest stops)
  | negSucc magnitude =>
      have written : toString (Int.negSucc magnitude) = "-" ++ toString (magnitude + 1) := rfl
      rw [written, String.toList_append, List.append_assoc]
      exact .minus _ (magnitude + 1) (repr_magnitude (magnitude + 1) rest stops)

end IntegerText
