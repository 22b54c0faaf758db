import ComputerSystem.Run
import ComputerSystem.VirtualScreen

/-!
# The hardware cursor

Every call of `update_cursor` sends a position to the VGA.  It is the cell of the next character
unless the call comes with the column behind the last one: then `pos` is sent without a value.
-/

namespace ComputerSystem

namespace Screen

/-- The cell that the next printable character goes to. -/
def next_cell (screen : Screen) : Nat :=
  NUM_COLS * (wrap_cursor screen.screen_x screen.screen_y).2 +
    (wrap_cursor screen.screen_x screen.screen_y).1

/-- The last position sent is that of the coordinates, the cell of the next printable character,
and on the screen. -/
structure PointsAtNext (screen : Screen) : Prop where
  /-- It is that of the coordinates. -/
  sent : screen.cursor = some (screen.screen_y * NUM_COLS + screen.screen_x)
  /-- The next character goes there. -/
  next : screen.screen_y * NUM_COLS + screen.screen_x = screen.next_cell
  /-- It is on the screen. -/
  below : screen.next_cell < NUM_COLS * NUM_ROWS

/-- The character goes to the last column of a row above the last one. -/
def FilledBy (screen : Screen) (c : UInt8) : Prop :=
  ¬(c = NEWLINE ∨ c = RETURN) ∧
    (wrap_cursor screen.screen_x screen.screen_y).1 = NUM_COLS - 1 ∧
    (wrap_cursor screen.screen_x screen.screen_y).2 < NUM_ROWS - 1

/-- The last position sent is what `update_cursor` makes of the coordinates. -/
def Updated (screen : Screen) : Prop :=
  screen.update_cursor screen.screen_x screen.screen_y = screen

theorem updated_update_cursor (screen : Screen) (x y : Nat) : (screen.update_cursor x y).Updated :=
  rfl

/-- A printable character stands in the cell that was to be the next, one row higher when the
screen scrolled. -/
theorem putc_switch_next_cell {screen : Screen}
    (on_screen : OnScreen screen.screen_x screen.screen_y) {c : UInt8}
    (printable : ¬(c = NEWLINE ∨ c = RETURN)) :
    (screen.putc_switch c).memory (VIDEO + 2 *
      if screen.next_cell + 1 = NUM_COLS * NUM_ROWS then screen.next_cell - NUM_COLS
      else screen.next_cell) = c := by
  obtain ⟨x_lt, y_le⟩ := on_screen.wrap
  rcases place : wrap_cursor screen.screen_x screen.screen_y with ⟨x, y⟩
  rw [putc_switch_eq]
  simp only [place, update_cursor, draw_memory, if_neg printable, next_cell, NUM_COLS, NUM_ROWS]
    at x_lt y_le ⊢
  have bytes : SCREEN_BYTES = 4000 := rfl
  by_cases last : x + 1 = 80 ∧ y = 25 - 1
  · rw [if_pos last, if_pos (by omega), Memory.scroll_apply _ (Or.inl le_rfl), if_pos (by omega),
      if_pos (by omega), Memory.putCell_apply, if_pos (by omega)]
  · rw [if_neg last, if_neg (by omega), Memory.putCell_apply, if_pos rfl]

/-- On the screen, the column behind the last one is all that can go wrong. -/
theorem pointsAtNext_iff {screen : Screen} (updated : screen.Updated)
    (on_screen : OnScreen screen.screen_x screen.screen_y) :
    screen.PointsAtNext ↔ screen.screen_x ≠ NUM_COLS := by
  obtain ⟨x_le, y_le, -⟩ := on_screen
  have cursor_eq := congrArg cursor updated
  simp only [update_cursor] at cursor_eq
  constructor
  · rintro ⟨sent, -, -⟩ full
    rw [if_neg (fun inside => absurd full inside.2.ne), sent] at cursor_eq
    cases cursor_eq
  · intro inside
    have x_lt : screen.screen_x < NUM_COLS := lt_of_le_of_ne x_le inside
    have y_lt : screen.screen_y < NUM_ROWS := Nat.lt_of_le_pred (by decide) y_le
    have here : screen.next_cell = NUM_COLS * screen.screen_y + screen.screen_x := by
      rw [next_cell, wrap_cursor, if_neg fun full => inside full.1]
    refine ⟨?_, ?_, ?_⟩
    · rw [← cursor_eq, if_pos ⟨y_lt, x_lt⟩]
    · rw [here, Nat.mul_comm]
    · rw [here]
      simp only [NUM_COLS, NUM_ROWS] at *
      omega

/-- A character leaves the cursor behind the last column when it fills the row. -/
theorem draw_cursor_full_iff {screen : Screen}
    (on_screen : OnScreen screen.screen_x screen.screen_y) (c : UInt8) :
    (draw_cursor screen.screen_x screen.screen_y c).1 = NUM_COLS ↔ screen.FilledBy c := by
  obtain ⟨x_lt, y_le⟩ := on_screen.wrap
  rcases place : wrap_cursor screen.screen_x screen.screen_y with ⟨x, y⟩
  simp only [place, FilledBy, draw_cursor, NUM_COLS, NUM_ROWS] at x_lt y_le ⊢
  split_ifs with line bottom last
  · exact iff_of_false (by decide) fun fills => fills.1 line
  · exact iff_of_false (by decide) fun fills => fills.1 line
  · exact iff_of_false (by decide) fun fills => fills.2.2.ne last.2
  · rw [and_iff_right line]
    omega

theorem backspace_x_ne {screen : Screen} (on_screen : OnScreen screen.screen_x screen.screen_y)
    (away : ¬(screen.screen_x = 0 ∧ screen.screen_y = 0)) :
    screen.backspace.screen_x ≠ NUM_COLS := by
  have x_le := on_screen.x_le
  rw [backspace, if_neg away]
  simp only [update_cursor, NUM_COLS] at *
  split_ifs <;> simp only <;> omega

end Screen

namespace Console

/-- The operation calls `update_cursor`. -/
def UpdatesCursor (console : Console) : ScreenEvent → Prop
  | .putc background_terminal _ => background_terminal = console.cur_term_idx
  | .backspace => ¬(console.screen.screen_x = 0 ∧ console.screen.screen_y = 0)
  | _ => True

/-- The operation takes the cursor behind the last column: it fills a row above the last one, or
shows a terminal that was left so. -/
def FillsRow (console : Console) : ScreenEvent → Prop
  | .putc background_terminal c =>
      background_terminal = console.cur_term_idx ∧ console.screen.FilledBy c
  | .putc_switch c => console.screen.FilledBy c
  | .terminal_switch t => (console.cursor t).1 = NUM_COLS
  | _ => False

/-- What the operation sends to the VGA, if anything, is the cell of the next character. -/
def SendsNext (console : Console) (event : ScreenEvent) : Prop :=
  console.UpdatesCursor event → (console.draw event).screen.PointsAtNext

/-- An operation as a step of a run; each of them is always possible. -/
def operate (console : Console) (event : ScreenEvent) : Option Console :=
  some (console.draw event)

theorem putc_shown {console : Console} {background : Fin 3}
    (shown : background = console.cur_term_idx) (c : UInt8) :
    (console.draw (.putc background c)).screen = console.screen.putc_switch c := by
  simp only [draw, putc, if_pos shown.symm]

/-- A call of `update_cursor` comes last and makes the position of the coordinates. -/
theorem updated_draw {console : Console} {event : ScreenEvent}
    (updates : console.UpdatesCursor event) : (console.draw event).screen.Updated := by
  cases event with
  | putc background c =>
      rw [putc_shown updates]
      exact Screen.updated_update_cursor _ _ _
  | putc_switch c => exact Screen.updated_update_cursor _ _ _
  | backspace =>
      rw [draw, Screen.backspace, if_neg updates]
      exact Screen.updated_update_cursor _ _ _
  | enter =>
      rw [draw, Screen.enter]
      split_ifs <;> exact Screen.updated_update_cursor _ _ _
  | clear => exact Screen.updated_update_cursor _ _ _
  | terminal_switch t => rfl

theorem Laid.full_iff {console : Console} (laid : console.Laid) {event : ScreenEvent}
    (updates : console.UpdatesCursor event) :
    (console.draw event).screen.screen_x = NUM_COLS ↔ console.FillsRow event := by
  have column : (0 : Nat) ≠ NUM_COLS := by decide
  cases event with
  | putc background c =>
      rw [putc_shown updates, Screen.putc_switch_eq]
      exact (Screen.draw_cursor_full_iff laid.live c).trans (and_iff_right updates).symm
  | putc_switch c =>
      rw [draw, Screen.putc_switch_eq]
      exact Screen.draw_cursor_full_iff laid.live c
  | backspace => exact iff_of_false (Screen.backspace_x_ne laid.live updates) not_false
  | enter =>
      rw [draw, Screen.enter]
      split_ifs <;> exact iff_of_false column not_false
  | clear => exact iff_of_false column not_false
  | terminal_switch t =>
      rw [draw, terminal_switch_eq]
      exact Iff.rfl

/-- One operation sends the cell of the next character exactly when it does not fill a row. -/
theorem Laid.sendsNext_iff {console : Console} (laid : console.Laid) (event : ScreenEvent) :
    console.SendsNext event ↔ ¬(console.UpdatesCursor event ∧ console.FillsRow event) := by
  rw [SendsNext, not_and]
  refine forall_congr' fun updates => ?_
  rw [Screen.pointsAtNext_iff (updated_draw updates) (laid.step event).live,
    ← laid.full_iff updates]

/-- An operation that takes the cursor behind the last column calls `update_cursor`. -/
theorem updatesCursor_of_fillsRow {console : Console} {event : ScreenEvent}
    (fills : console.FillsRow event) : console.UpdatesCursor event := by
  cases event with
  | putc background c => exact fills.1
  | backspace => exact fills.elim
  | _ => trivial

/-- From `clear` and `terminal_start` on, each call of `update_cursor` sends the cell of the next
character exactly when no operation fills a row above the last one or shows a terminal with such a
row behind its cursor. -/
theorem sends_next_iff (console : Console) (events : List ScreenEvent) :
    (∀ entry ∈ Run.taken operate console.ready events, entry.1.SendsNext entry.2) ↔
      ∀ entry ∈ Run.taken operate console.ready events, ¬entry.1.FillsRow entry.2 := by
  apply Run.good_iff_ok Laid (fun console event => ¬console.FillsRow event) SendsNext
  · intro state event next laid _
    rw [laid.sendsNext_iff, and_iff_right_of_imp updatesCursor_of_fillsRow]
  · intro state event next laid _ taken
    cases taken
    exact laid.step event
  · exact laid_ready console

/-- Enter and backspace lead to the last column but one; the second letter fills the row. -/
theorem sends_no_position :
    ¬∀ (console : Console) (events : List ScreenEvent),
      ∀ entry ∈ Run.taken operate console.ready events, entry.1.SendsNext entry.2 := by
  intro all
  have sends := all boot [.enter, .backspace, .putc_switch 65, .putc_switch 65]
    (_, .putc_switch 65) (Run.mem_taken_of_run operate _ [.enter, .backspace, .putc_switch 65] _ []
      rfl rfl)
  have sent := (sends trivial).sent
  revert sent
  decide

end Console

end ComputerSystem
