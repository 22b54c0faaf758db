import ComputerSystem.BackgroundOutput

/-!
# The screen as a window on a sheet

What `putc_switch` writes is a text on an unbounded sheet of 80 columns, and the screen is the
window of 25 rows that ends at the row of the cursor or, as long as nothing has scrolled, begins at
the first row.
-/

namespace ComputerSystem

open Teletype

/-- The screen shows a sheet with the cursor at the place of the next mark. -/
structure Displays (sheet : Sheet NUM_COLS Cell) (screen : Screen) : Prop where
  /-- The window is on the screen. -/
  shows_window : Shows sheet screen.memory VIDEO
  /-- The cursor is at the next mark. -/
  tracks : Tracks sheet screen.screen_x screen.screen_y
  /-- Below the window the sheet is blank. -/
  below : sheet.BlankBelow NUM_ROWS blankCell

theorem Displays.putc_switch {sheet : Sheet NUM_COLS Cell} {screen : Screen}
    (displays : Displays sheet screen) (c : UInt8) :
    Displays (sheet.feed (glyph c)) (screen.putc_switch c) := by
  rw [Screen.putc_switch_eq]
  constructor
  · exact displays.shows_window.draw displays.tracks displays.below c
  · exact displays.tracks.draw c
  · exact displays.below.feed (glyph c)

theorem Displays.type {sheet : Sheet NUM_COLS Cell} {screen : Screen}
    (displays : Displays sheet screen) (s : List UInt8) :
    Displays (sheet.type (s.map glyph)) (s.foldl Screen.putc_switch screen) := by
  induction s generalizing sheet screen with
  | nil => exact displays
  | cons c s ih => exact ih (displays.putc_switch c)

theorem Displays.cursor {sheet : Sheet NUM_COLS Cell} {screen : Screen}
    (displays : Displays sheet screen) :
    wrap_cursor screen.screen_x screen.screen_y =
      (sheet.column, sheet.row - sheet.top NUM_ROWS) := by
  have row_eq := displays.tracks.row
  apply Prod.ext
  · exact displays.tracks.column.symm
  · dsimp only
    omega

/-- The sheet that a cleared screen shows. -/
def blankSheet : Sheet NUM_COLS Cell := Sheet.empty (by decide) blankCell

theorem clear_cell (screen : Screen) {r c : Nat} (row : r < NUM_ROWS) (column : c < NUM_COLS) :
    screen.clear.memory.cellAt VIDEO r c = blankCell := by
  have blank (k : Nat) (inside : k < SCREEN_BYTES) :
      screen.clear.memory (VIDEO + k) = blankByte k := by
    rw [SCREEN_BYTES, Nat.mul_comm NUM_COLS] at inside
    simp only [Screen.clear, Screen.update_cursor]
    rw [List.range_eq_range', Memory.blank_apply, if_pos (by omega), Nat.add_sub_cancel_left]
  simp only [SCREEN_BYTES, NUM_COLS, NUM_ROWS] at blank row column
  rw [Memory.cellAt, NUM_COLS, Nat.add_assoc, blank _ (by omega), blank _ (by omega), blankByte,
    blankByte, if_pos (by omega), if_neg (by omega), blankCell]

theorem displays_clear (screen : Screen) : Displays blankSheet screen.clear where
  shows_window _ row _ column := clear_cell screen row column
  tracks := ⟨onScreen_zero (Nat.zero_le _), rfl, rfl⟩
  below := Sheet.blankBelow_empty _ _ _

/-- What is written after `clear` is shown as on an unbounded sheet: the window ends at the row of
the cursor, or begins at the first row, and the cursor is at the place of the next mark. -/
theorem text_displayed (screen : Screen) (s : List UInt8) :
    let sheet := blankSheet.type (s.map glyph)
    let shown := s.foldl Screen.putc_switch screen.clear
    (∀ r < NUM_ROWS, ∀ c < NUM_COLS,
      shown.memory.cellAt VIDEO r c = sheet.cells (sheet.top NUM_ROWS + r) c) ∧
    OnScreen shown.screen_x shown.screen_y ∧
    wrap_cursor shown.screen_x shown.screen_y = (sheet.column, sheet.row - sheet.top NUM_ROWS) := by
  have displays := (displays_clear screen).type s
  exact ⟨displays.shows_window, displays.tracks.on_screen, displays.cursor⟩

end ComputerSystem
