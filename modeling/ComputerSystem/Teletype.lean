import Mathlib

/-!
# Text on an unbounded sheet

A printer types marks on a sheet of fixed width and moves down when a line is full or a line feed
comes.  A window of fixed height shows the last lines up to the one being typed.  What one mark does
to the sheet and to the window is all that a screen that scrolls has to agree with.
-/

namespace Teletype

/-- A sheet `width` cells wide with the place of the next mark. -/
structure Sheet (width : Nat) (α : Type*) where
  /-- Cell by row and column. -/
  cells : Nat → Nat → α
  /-- Row of the next mark. -/
  row : Nat
  /-- Column of the next mark. -/
  column : Nat
  /-- The next mark goes on the sheet. -/
  column_lt : column < width

namespace Sheet

variable {width : Nat} {α : Type*}

/-- An empty sheet. -/
def empty (width_pos : 0 < width) (blank : α) : Sheet width α where
  cells := fun _ _ => blank
  row := 0
  column := 0
  column_lt := width_pos

/-- Start of the next line. -/
def newline (sheet : Sheet width α) : Sheet width α where
  cells := sheet.cells
  row := sheet.row + 1
  column := 0
  column_lt := Nat.zero_lt_of_lt sheet.column_lt

/-- Put a mark in the current cell. -/
def put (sheet : Sheet width α) (a : α) : Sheet width α :=
  { sheet with
    cells := fun r c => if r = sheet.row ∧ c = sheet.column then a else sheet.cells r c }

/-- Move past the current cell. -/
def advance (sheet : Sheet width α) : Sheet width α :=
  if inside : sheet.column + 1 < width then
    { sheet with column := sheet.column + 1, column_lt := inside }
  else
    sheet.newline

/-- Type a mark, or a line feed. -/
def feed (sheet : Sheet width α) : Option α → Sheet width α
  | none => sheet.newline
  | some a => (sheet.put a).advance

/-- Type a text. -/
def type (sheet : Sheet width α) (text : List (Option α)) : Sheet width α :=
  text.foldl feed sheet

/-- Top row of the window of `height` rows that ends at the current row or shows the first ones. -/
def top (sheet : Sheet width α) (height : Nat) : Nat := sheet.row + 1 - height

@[simp]
theorem advance_cells (sheet : Sheet width α) : sheet.advance.cells = sheet.cells := by
  rw [advance]
  split <;> rfl

/-- Whether a mark or line feed ends the current line. -/
def EndsLine (sheet : Sheet width α) : Option α → Prop
  | none => True
  | some _ => sheet.column + 1 = width

instance (sheet : Sheet width α) (mark : Option α) : Decidable (sheet.EndsLine mark) :=
  match mark with
  | none => isTrue trivial
  | some _ => inferInstanceAs (Decidable (_ = _))

theorem feed_ends {sheet : Sheet width α} {mark : Option α} (ends : sheet.EndsLine mark) :
    (sheet.feed mark).row = sheet.row + 1 ∧ (sheet.feed mark).column = 0 := by
  cases mark with
  | none => exact ⟨rfl, rfl⟩
  | some a =>
      have full : ¬(sheet.put a).column + 1 < width := not_lt.mpr (ge_of_eq ends)
      rw [feed, advance, dif_neg full]
      exact ⟨rfl, rfl⟩

theorem feed_continues {sheet : Sheet width α} {mark : Option α} (goes_on : ¬sheet.EndsLine mark) :
    (sheet.feed mark).row = sheet.row ∧ (sheet.feed mark).column = sheet.column + 1 := by
  cases mark with
  | none => exact absurd trivial goes_on
  | some a =>
      have inside : (sheet.put a).column + 1 < width := lt_of_le_of_ne sheet.column_lt goes_on
      rw [feed, advance, dif_pos inside]
      exact ⟨rfl, rfl⟩

@[simp]
theorem feed_none_cells (sheet : Sheet width α) : (sheet.feed none).cells = sheet.cells := rfl

theorem feed_some_cells (sheet : Sheet width α) (a : α) (r c : Nat) :
    (sheet.feed (some a)).cells r c =
      if r = sheet.row ∧ c = sheet.column then a else sheet.cells r c := by
  rw [feed, advance_cells, put]

/-- The rows below the window are blank. -/
def BlankBelow (sheet : Sheet width α) (height : Nat) (blank : α) : Prop :=
  ∀ r c, sheet.top height + height ≤ r → sheet.cells r c = blank

theorem blankBelow_empty (width_pos : 0 < width) (height : Nat) (blank : α) :
    (empty width_pos blank).BlankBelow height blank := fun _ _ _ => rfl

theorem BlankBelow.feed {sheet : Sheet width α} {height : Nat} {blank : α}
    (below : sheet.BlankBelow height blank) (mark : Option α) :
    (sheet.feed mark).BlankBelow height blank := by
  intro r c beyond
  have grows : sheet.row ≤ (sheet.feed mark).row := by
    by_cases ends : sheet.EndsLine mark
    · rw [(feed_ends ends).1]
      exact Nat.le_succ _
    · rw [(feed_continues ends).1]
  have past : sheet.top height + height ≤ r := by
    rw [top] at *
    omega
  have apart : ¬(r = sheet.row ∧ c = sheet.column) := by
    rw [top] at past
    omega
  cases mark with
  | none => exact below r c past
  | some a => rw [feed_some_cells, if_neg apart, below r c past]

/-- The first row below the window is blank also behind the next mark. -/
theorem BlankBelow.feed_next {sheet : Sheet width α} {height : Nat} {blank : α}
    (below : sheet.BlankBelow height blank) (mark : Option α) (c : Nat) :
    (sheet.feed mark).cells (sheet.top height + height) c = blank := by
  have apart : ¬(sheet.top height + height = sheet.row ∧ c = sheet.column) := by
    rw [top]
    omega
  cases mark with
  | none => exact below _ c le_rfl
  | some a => rw [feed_some_cells, if_neg apart, below _ c le_rfl]

/-- The window moves exactly when the line that ends is its last. -/
theorem top_feed (sheet : Sheet width α) (height : Nat) (mark : Option α) :
    (sheet.feed mark).top height =
      if sheet.EndsLine mark ∧ height ≤ sheet.row + 1 then sheet.top height + 1
      else sheet.top height := by
  by_cases ends : sheet.EndsLine mark
  · simp only [top, (feed_ends ends).1, ends, true_and]
    split_ifs <;> omega
  · rw [top, (feed_continues ends).1, top, if_neg fun moved => ends moved.1]

end Sheet

end Teletype
