import Mathlib

/-!
# Line editing

A line is edited at its end only: an edit appends one element, erases the last one, or keeps the
line.
-/

namespace LineEditor

variable {α : Type*}

/-- One edit. -/
inductive Edit (α : Type*)
  | append (a : α)
  | erase
  | keep
  deriving DecidableEq

/-- Apply one edit to a line. -/
def Edit.apply : Edit α → List α → List α
  | .append a, line => line ++ [a]
  | .erase, line => line.dropLast
  | .keep, line => line

/-- The line that a sequence of edits makes of the empty one. -/
def edit (edits : List (Edit α)) : List α := edits.foldl (fun line e => e.apply line) []

@[simp]
theorem edit_nil : edit ([] : List (Edit α)) = [] := rfl

theorem edit_concat (edits : List (Edit α)) (e : Edit α) :
    edit (edits ++ [e]) = e.apply (edit edits) := by
  simp [edit]

/-- Nothing stands in a line that was not appended to it. -/
theorem append_mem_of_mem_edit {edits : List (Edit α)} {a : α} (mem : a ∈ edit edits) :
    Edit.append a ∈ edits := by
  induction edits using List.reverseRecOn with
  | nil => simp at mem
  | append_singleton edits e ih =>
      rw [edit_concat] at mem
      cases e with
      | append b =>
          rcases List.mem_append.mp mem with old | last
          · exact List.mem_append_left _ (ih old)
          · rw [List.mem_singleton.mp last]
            simp
      | erase => exact List.mem_append_left _ (ih (List.mem_of_mem_dropLast mem))
      | keep => exact List.mem_append_left _ (ih mem)

end LineEditor
