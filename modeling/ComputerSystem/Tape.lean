import Mathlib

/-!
# Writing and erasing on a tape

A head writes marks into the cells of a tape one after the other.  Erasing goes back one cell and
leaves a blank in it; at the first cell there is nothing to go back to.
-/

namespace Typewriter

/-- Cells with the place of the next mark. -/
structure Tape (α : Type*) where
  /-- The marks. -/
  cells : Nat → α
  /-- Place of the next mark. -/
  head : Nat

namespace Tape

variable {α : Type*}

/-- Write a mark. -/
def write (tape : Tape α) (a : α) : Tape α where
  cells := Function.update tape.cells tape.head a
  head := tape.head + 1

/-- Go back one cell and blank it. -/
def erase (blank : α) (tape : Tape α) : Tape α :=
  if tape.head = 0 then tape
  else { cells := Function.update tape.cells (tape.head - 1) blank, head := tape.head - 1 }

@[simp]
theorem head_write (tape : Tape α) (a : α) : (tape.write a).head = tape.head + 1 := rfl

theorem cells_write (tape : Tape α) (a : α) (q : Nat) :
    (tape.write a).cells q = if q = tape.head then a else tape.cells q :=
  Function.update_apply _ _ _ _

theorem head_erase (blank : α) (tape : Tape α) : (tape.erase blank).head = tape.head - 1 := by
  rw [erase]
  split_ifs with home
  · rw [home]
  · rfl

theorem cells_erase (blank : α) (tape : Tape α) (q : Nat) :
    (tape.erase blank).cells q = if q + 1 = tape.head then blank else tape.cells q := by
  rw [erase]
  split_ifs with home last
  · omega
  · rfl
  · exact (Function.update_apply _ _ _ _).trans (if_pos (by omega))
  · exact (Function.update_apply _ _ _ _).trans (if_neg (by omega))

theorem head_writes (tape : Tape α) (l : List α) :
    (l.foldl write tape).head = tape.head + l.length := by
  induction l generalizing tape with
  | nil => rfl
  | cons a l ih =>
      rw [List.foldl_cons, ih, List.length_cons, head_write]
      omega

theorem cells_writes (tape : Tape α) (l : List α) (q : Nat) :
    (l.foldl write tape).cells q =
      if q < tape.head then tape.cells q else l[q - tape.head]?.getD (tape.cells q) := by
  induction l using List.reverseRecOn with
  | nil => simp
  | append_singleton l a ih =>
      rw [List.foldl_append, List.foldl_cons, List.foldl_nil, cells_write, head_writes, ih]
      by_cases before : q < tape.head
      · rw [if_pos before, if_pos before, if_neg (by omega)]
      · rw [if_neg before, if_neg before]
        by_cases last : q = tape.head + l.length
        · rw [if_pos last, last, Nat.add_sub_cancel_left, List.getElem?_concat_length,
            Option.getD_some]
        · rw [if_neg last]
          rcases Nat.lt_or_ge (q - tape.head) l.length with inside | beyond
          · rw [List.getElem?_append_left inside]
          · rw [List.getElem?_eq_none beyond, List.getElem?_eq_none]
            rw [List.length_append, List.length_singleton]
            omega

theorem head_erases (blank : α) (tape : Tape α) (n : Nat) :
    ((erase blank)^[n] tape).head = tape.head - n := by
  induction n with
  | zero => rfl
  | succ n ih => rw [Function.iterate_succ_apply', head_erase, ih, Nat.sub_sub]

theorem cells_erases (blank : α) (tape : Tape α) (n q : Nat) :
    ((erase blank)^[n] tape).cells q =
      if tape.head ≤ q + n ∧ q < tape.head then blank else tape.cells q := by
  induction n with
  | zero => exact (if_neg (by omega)).symm
  | succ n ih =>
      rw [Function.iterate_succ_apply', cells_erase, ih, head_erases]
      split_ifs <;> first | rfl | omega

/-- Erasing takes back the marks written last and leaves blanks for them. -/
theorem cells_erases_writes (blank : α) (tape : Tape α) (l : List α) {n : Nat} (le : n ≤ l.length)
    (q : Nat) :
    ((erase blank)^[n] (l.foldl write tape)).cells q =
      if tape.head ≤ q ∧ q < tape.head + l.length then
        (l.take (l.length - n))[q - tape.head]?.getD blank
      else tape.cells q := by
  rw [cells_erases, head_writes, cells_writes]
  by_cases inside : tape.head ≤ q ∧ q < tape.head + l.length
  · rw [if_pos inside, if_neg (not_lt.mpr inside.1)]
    by_cases erased : tape.head + l.length ≤ q + n
    · rw [if_pos ⟨erased, inside.2⟩, List.getElem?_take_eq_none (by omega), Option.getD_none]
    · rw [if_neg fun both => erased both.1, List.getElem?_take_of_lt (by omega),
        List.getElem?_eq_getElem (by omega), Option.getD_some, Option.getD_some]
  · rw [if_neg inside, if_neg (by omega)]
    split_ifs with before
    · rfl
    · rw [List.getElem?_eq_none (by omega), Option.getD_none]

theorem head_erases_writes (blank : α) (tape : Tape α) (l : List α) {n : Nat} (le : n ≤ l.length) :
    ((erase blank)^[n] (l.foldl write tape)).head = tape.head + (l.length - n) := by
  rw [head_erases, head_writes, Nat.add_sub_assoc le]

end Tape

end Typewriter
