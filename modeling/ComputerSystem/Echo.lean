import ComputerSystem.Desk
import ComputerSystem.ScreenText

/-!
# Keyboard echo

What a key does to the screen of the terminal on display, beside what it does to the line.  A key
with a character is echoed by `putc_switch`, as output is.  Enter goes to the screen twice, first
through `enter` and then as the character of its key.
-/

namespace ComputerSystem

open LineEditor

/-- Ctrl-L, which clears the screen. -/
def Modifiers.Clears (keys : Modifiers) (code : UInt8) : Prop :=
  keys.ctrl_flag ∧ keys.mode = 0 ∧ code = 0x26

instance (keys : Modifiers) (code : UInt8) : Decidable (keys.Clears code) :=
  inferInstanceAs (Decidable (_ ∧ _))

/-- What a press does to the screen on which `pending` characters of the line stand. -/
def Screen.press (screen : Screen) (pending : Nat) : Press → Screen
  | .enter => screen.enter.putc_switch NEWLINE
  | .backspace => if pending > 0 then screen.backspace else screen
  | .character c => screen.putc_switch c
  -- `Modifiers.Stays` leaves out the switch and Ctrl-L, which is silent
  | .display _ => screen
  | .silent => screen

/-- The presses that neither clear the screen nor put another terminal on it. -/
def Modifiers.Stays (keys : Modifiers) (code : UInt8) : Prop :=
  ¬keys.Clears code ∧ ∀ t, keys.press code ≠ .display t

instance (keys : Modifiers) (code : UInt8) : Decidable (keys.Stays code) :=
  inferInstanceAs (Decidable (_ ∧ _))

theorem Modifiers.press_eq_enter_iff (keys : Modifiers) (code : UInt8) :
    keys.press code = .enter ↔ code = 0x1C := by
  rw [Modifiers.press]
  split_ifs <;> simp_all

/-- What stands on the screen and what is pending. -/
structure Echo where
  /-- The screen. -/
  screen : Screen
  /-- The pending characters of the terminal on display. -/
  pending : List UInt8

/-- What a press does to both. -/
def Echo.press (echo : Echo) (press : Press) : Echo where
  screen := echo.screen.press echo.pending.length press
  pending := press.edit.apply echo.pending

namespace Tty

/-- The screen and the line on display. -/
def echo (tty : Tty) : Echo where
  screen := tty.console.screen
  pending := tty.visible.pending

/-- With flag 0 the rest of the handler draws nothing. -/
theorem screen_of_flag_zero {tty after : Tty} {code : UInt8}
    (mode : tty.check_mode code = (0, after)) (other : code ≠ 0x26) :
    (tty.show_pressed_key code).console.screen = after.console.screen := by
  simp only [show_pressed_key, mode, other, and_false, if_false]
  split_ifs with outside room flag
  · rfl
  · exact absurd flag (by simp [modifyKeyboard])
  · rfl
  · rfl
  · rfl

theorem screen_of_flag_one {tty after : Tty} {code : UInt8}
    (idle : after.keyboard.buf_idx < BUF_SIZE - 1) (mode : tty.check_mode code = (1, after))
    (keeps : ¬after.keyboard.Clears code) :
    (tty.show_pressed_key code).console.screen =
      if code.toNat ≥ SCAN_SIZE ∨ scan_code after.keyboard.mode code = 0 then after.console.screen
      else after.console.screen.putc_switch (scan_code after.keyboard.mode code) := by
  rw [Modifiers.Clears] at keeps
  rw [show_pressed_key_of_flag_one idle mode, if_neg keeps]
  split_ifs <;> rfl

/-- The keyboard handler does to the screen what the press asks for. -/
theorem screen_show_pressed_key (tty : Tty) (code : UInt8)
    (idle : tty.keyboard.buf_idx < BUF_SIZE - 1) (stays : tty.keyboard.Stays code) :
    (tty.show_pressed_key code).console.screen =
      tty.console.screen.press tty.visible.term_buf_idx (tty.keyboard.press code) := by
  obtain ⟨keeps, display⟩ := stays
  by_cases modifier : code ∈ Modifiers.codes
  · have other : code ≠ 0x26 := by
      rintro rfl
      exact absurd modifier (by decide)
    rw [screen_of_flag_zero (tty.check_mode_of_mem modifier) other,
      Modifiers.press_of_mem _ modifier]
    rfl
  by_cases enter : code = 0x1C
  · subst enter
    have mode : tty.check_mode 0x1C = (1, (tty.check_mode 0x1C).2) := by simp [check_mode]
    have keyboard_eq : (tty.check_mode 0x1C).2.keyboard = tty.keyboard := by simp [check_mode]
    have screen_eq : (tty.check_mode 0x1C).2.console.screen = tty.console.screen.enter := by
      simp [check_mode, modifyScreen, modifyVisible, modifyConsole, Console.modifyTerm]
    rw [screen_of_flag_one (by rwa [keyboard_eq]) mode (by rwa [keyboard_eq]), keyboard_eq,
      Modifiers.scan_code_enter _ tty.keyboard.mode_lt, screen_eq]
    rfl
  by_cases backspace : code = 0x0E
  · subst backspace
    obtain ⟨after, mode, -, -⟩ := tty.check_mode_backspace
    have screen_eq : (tty.check_mode 0x0E).2.console.screen =
        if tty.visible.term_buf_idx > 0 then tty.console.screen.backspace
        else tty.console.screen := by
      by_cases typed : tty.visible.term_buf_idx > 0
      · simp [check_mode, typed, modifyScreen, modifyVisible, modifyConsole, Console.modifyTerm]
      · simp [check_mode, typed]
    rw [mode] at screen_eq
    rw [screen_of_flag_zero mode (by decide), screen_eq]
    rfl
  · rw [screen_of_flag_one idle (tty.check_mode_other modifier enter backspace display) keeps,
      Modifiers.press_of_other _ enter backspace display]
    rw [Modifiers.Clears] at keeps
    rw [if_neg keeps]
    split_ifs <;> rfl

theorem length_pending (tty : Tty) (room : tty.visible.term_buf_idx < BUF_SIZE) :
    tty.echo.pending.length = tty.visible.term_buf_idx := by
  rw [echo, Term.pending, CArray.contents_length, Nat.min_eq_left room.le]

theorem visible_show_pressed_key (tty : Tty) (code : UInt8)
    (idle : tty.keyboard.buf_idx < BUF_SIZE - 1)
    (display : ∀ t, tty.keyboard.press code ≠ .display t) :
    (tty.show_pressed_key code).console.cur_term_idx = tty.console.cur_term_idx := by
  have shown := congrArg Desk.visible (tty.desk_show_pressed_key code idle)
  change (tty.show_pressed_key code).console.cur_term_idx =
    (tty.keyboard.press code).visible tty.console.cur_term_idx at shown
  rw [shown]
  cases press_eq : tty.keyboard.press code with
  | display t => exact absurd press_eq (display t)
  | enter => rfl
  | backspace => rfl
  | character c => rfl
  | silent => rfl

theorem echo_show_pressed_key (tty : Tty) (code : UInt8)
    (idle : tty.keyboard.buf_idx < BUF_SIZE - 1) (stays : tty.keyboard.Stays code)
    (room : tty.visible.term_buf_idx < BUF_SIZE) :
    (tty.show_pressed_key code).echo = tty.echo.press (tty.keyboard.press code) := by
  have screen_eq := tty.screen_show_pressed_key code idle stays
  have pending_eq : (tty.show_pressed_key code).visible.pending =
      (tty.keyboard.press code).edit.apply tty.visible.pending := by
    have line_eq : (tty.show_pressed_key code).visible.line =
        tty.visible.line.press (tty.keyboard.press code) := by
      rw [visible, tty.visible_show_pressed_key code idle stays.2]
      have lines := congrArg (fun desk => desk.line tty.console.cur_term_idx)
        (tty.desk_show_pressed_key code idle)
      simp only [Desk.key, Desk.line_modifyLine] at lines
      exact lines.trans (if_pos rfl)
    exact (congrArg LineBuffer.pending line_eq).trans (LineBuffer.pending_press _ _ room)
  rw [echo, screen_eq, pending_eq, Echo.press, length_pending tty room]
  rfl

theorem keys_show_pressed_key (tty : Tty) (code : UInt8)
    (idle : tty.keyboard.buf_idx < BUF_SIZE - 1) :
    (tty.show_pressed_key code).keyboard.toModifiers = tty.keyboard.after code :=
  congrArg Desk.keys (tty.desk_show_pressed_key code idle)

end Tty

/-! ## The two line feeds of Enter -/

namespace Screen

/-- The same cells and the same cursor. -/
structure Alike (first second : Screen) : Prop where
  /-- The cells are the same. -/
  cells : ∀ k < SCREEN_BYTES, first.memory (VIDEO + k) = second.memory (VIDEO + k)
  /-- The cursor is in the same column. -/
  x : first.screen_x = second.screen_x
  /-- The cursor is in the same row. -/
  y : first.screen_y = second.screen_y

/-- All cells are blank. -/
def Blank (screen : Screen) : Prop := ∀ k < SCREEN_BYTES, screen.memory (VIDEO + k) = blankByte k

/-- The screens on which the two line feeds of Enter come to one. -/
def FeedsOnce (screen : Screen) : Prop :=
  screen.screen_y = NUM_ROWS - 1 ∨
    screen.screen_x = NUM_COLS ∧ screen.screen_y < NUM_ROWS - 1 ∨
    screen.screen_y = NUM_ROWS - 2 ∧ screen.Blank

theorem Alike.refl (screen : Screen) : screen.Alike screen := ⟨fun _ _ => rfl, rfl, rfl⟩

/-- A line feed that starts in row `y`. -/
def feed (screen : Screen) (y : Nat) : Screen :=
  if y = NUM_ROWS - 1 then screen.scroll_up.update_cursor 0 (NUM_ROWS - 1)
  else screen.update_cursor 0 (y + 1)

theorem putc_newline (screen : Screen) :
    screen.putc_switch NEWLINE = screen.feed (wrap_cursor screen.screen_x screen.screen_y).2 := by
  rw [putc_switch_eq, draw_cursor, draw_memory, feed]
  simp only [true_or, if_true]
  split_ifs <;> rfl

/-- The row from which Enter feeds the line a second time. -/
theorem enter_putc_newline (screen : Screen) :
    screen.enter.putc_switch NEWLINE =
      screen.feed
        (if screen.screen_y = NUM_ROWS - 1 then NUM_ROWS - 1 else screen.screen_y + 1) := by
  rw [putc_newline, enter]
  by_cases bottom : screen.screen_y = NUM_ROWS - 1
  · rw [if_pos bottom, if_pos bottom]
    rfl
  · rw [if_neg bottom, if_neg bottom]
    simp only [update_cursor, wrap_cursor, feed]
    rfl

theorem blankByte_next_row (k : Nat) : blankByte (k + 160) = blankByte k := by
  rw [blankByte, blankByte, show (k + 160) % 2 = k % 2 by omega]

theorem scroll_up_memory (screen : Screen) {k : Nat} (inside : k < SCREEN_BYTES) :
    screen.scroll_up.memory (VIDEO + k) =
      if k < 3840 then screen.memory (VIDEO + (k + 160)) else blankByte k := by
  have row : VIDEO + 160 + k = VIDEO + (k + 160) := by omega
  refine (Memory.scroll_apply _ (Or.inl le_rfl) _).trans ?_
  rw [if_pos (by omega), Nat.add_sub_cancel_left, row]
  exact if_congr (by omega) rfl rfl

theorem scroll_up_of_blank {screen : Screen} (blank : screen.Blank) :
    screen.scroll_up = screen := by
  have same : screen.scroll_up.memory = screen.memory := by
    funext a
    by_cases inside : VIDEO ≤ a ∧ a < VIDEO + SCREEN_BYTES
    · obtain ⟨k, rfl⟩ := Nat.exists_eq_add_of_le inside.1
      have k_lt : k < SCREEN_BYTES := by omega
      rw [scroll_up_memory screen k_lt, blank k k_lt]
      split_ifs with upper
      · rw [blank (k + 160) (by rw [SCREEN_BYTES, NUM_COLS, NUM_ROWS]; omega), blankByte_next_row]
      · rfl
    · exact (Memory.scroll_apply _ (Or.inl le_rfl) a).trans (if_neg inside)
  calc
    screen.scroll_up = { screen with memory := screen.scroll_up.memory } := rfl
    _ = screen := by rw [same]

/-- Only blank cells stay the same when the screen scrolls: each row is the one below it. -/
theorem blank_of_scroll_up {screen : Screen}
    (same : ∀ k < SCREEN_BYTES,
      screen.scroll_up.memory (VIDEO + k) = screen.memory (VIDEO + k)) : screen.Blank := by
  have rows (n : Nat) : ∀ k < SCREEN_BYTES, 3840 ≤ k + 160 * n →
      screen.memory (VIDEO + k) = blankByte k := by
    induction n with
    | zero =>
        intro k inside last
        rw [← same k inside, scroll_up_memory screen inside, if_neg (by omega)]
    | succ n ih =>
        intro k inside low
        rw [← same k inside, scroll_up_memory screen inside]
        split_ifs with upper
        · rw [ih (k + 160) (by rw [SCREEN_BYTES, NUM_COLS, NUM_ROWS]; omega) (by omega),
            blankByte_next_row]
        · rfl
  intro k inside
  exact rows 24 k inside (by omega)

/-- On such a screen Enter is a plain line feed. -/
theorem FeedsOnce.enter {screen : Screen} (once : screen.FeedsOnce) :
    screen.enter.putc_switch NEWLINE = screen.putc_switch NEWLINE := by
  rw [enter_putc_newline, putc_newline, wrap_cursor]
  rcases once with bottom | ⟨full, above⟩ | ⟨last_but_one, blank⟩
  · rw [if_pos bottom, if_neg (by omega), bottom]
  · rw [if_neg (by omega), if_pos ⟨full, above⟩]
  · have rows : NUM_ROWS = 25 := rfl
    rw [if_neg (by omega), last_but_one]
    split_ifs
    · rfl
    · rw [feed, feed, if_pos (by omega), if_neg (by omega), scroll_up_of_blank blank]
      congr 1

/-- On any other the screen is not the one of a line feed. -/
theorem feedsOnce_of_alike {screen : Screen}
    (alike : (screen.enter.putc_switch NEWLINE).Alike (screen.putc_switch NEWLINE)) :
    screen.FeedsOnce := by
  have rows : NUM_ROWS = 25 := rfl
  rw [enter_putc_newline, putc_newline, wrap_cursor] at alike
  by_cases bottom : screen.screen_y = NUM_ROWS - 1
  · exact Or.inl bottom
  by_cases deferral : screen.screen_x = NUM_COLS ∧ screen.screen_y < NUM_ROWS - 1
  · exact Or.inr (Or.inl deferral)
  rw [if_neg bottom, if_neg deferral] at alike
  simp only [feed, if_neg bottom] at alike
  by_cases last_but_one : screen.screen_y + 1 = NUM_ROWS - 1
  · rw [if_pos last_but_one] at alike
    exact Or.inr (Or.inr ⟨by omega, blank_of_scroll_up alike.cells⟩)
  · rw [if_neg last_but_one] at alike
    have row := alike.y
    simp only [update_cursor] at row
    omega

end Screen

/-! ## Typing beside output -/

theorem Console.terminal_write_eq (console : Console) (text : List UInt8) :
    (console.terminal_write text text.length).2 = console.puts text := by
  have bytes : (List.range text.length).map (fun i => text.getD i 0) = text := by
    apply List.ext_getElem
    · simp
    · intro i inside _
      simp_all
  calc
    (console.terminal_write text text.length).2 =
        ((List.range text.length).map (fun i => text.getD i 0)).foldl putc console := by
      rw [List.foldl_map]
      rfl
    _ = console.puts text := by rw [bytes, puts]

namespace Tty

/-- A printable key, Enter or a key that changes neither line nor screen, with fewer than 127
characters pending. -/
def typeKey (tty : Tty) (code : UInt8) : Option Tty :=
  if tty.keyboard.Stays code ∧ tty.keyboard.press code ≠ .backspace ∧
      tty.visible.term_buf_idx < BUF_SIZE - 1 then
    some (tty.show_pressed_key code)
  else
    none

/-- The characters appended to the line since `start`. -/
def appended (start tty : Tty) : List UInt8 :=
  tty.visible.pending.drop start.visible.pending.length

/-- The screen when a text is written through `terminal_write` to the terminal on display. -/
def written (start : Tty) (text : List UInt8) : Screen :=
  ((start.console.select start.console.cur_term_idx).terminal_write text text.length).2.screen

theorem written_eq (start : Tty) (text : List UInt8) :
    start.written text = text.foldl Screen.putc_switch start.console.screen := by
  have shown : (start.console.select start.console.cur_term_idx).cur_term_idx =
    start.console.cur_term_idx := rfl
  rw [written, Console.terminal_write_eq, Console.puts_on_display shown rfl]
  rfl

/-- The keyboard has typed what `terminal_write` would have written. -/
structure Typed (start tty : Tty) : Prop where
  /-- The old buffer of the keyboard has room. -/
  idle : tty.keyboard.buf_idx < BUF_SIZE - 1
  /-- What was typed is pending. -/
  appends : tty.visible.pending = start.visible.pending ++ start.appended tty
  /-- It is on the screen as if written. -/
  screen : tty.console.screen = start.written (start.appended tty)

theorem typed_start {start : Tty} (idle : start.keyboard.buf_idx < BUF_SIZE - 1) :
    Typed start start where
  idle := idle
  appends := by rw [appended, List.drop_length, List.append_nil]
  screen := by rw [appended, List.drop_length, written_eq, List.foldl_nil]

theorem Typed.appended_eq {start tty next : Tty} (typed : Typed start tty) {text : List UInt8}
    (pending : next.visible.pending = tty.visible.pending ++ text) :
    start.appended next = start.appended tty ++ text := by
  rw [appended, pending, typed.appends, List.append_assoc, List.drop_left]

theorem Typed.append {start tty next : Tty} (typed : Typed start tty) {text : List UInt8}
    (idle : next.keyboard.buf_idx < BUF_SIZE - 1)
    (pending : next.visible.pending = tty.visible.pending ++ text)
    (screen : next.console.screen = text.foldl Screen.putc_switch tty.console.screen) :
    Typed start next where
  idle := idle
  appends := by rw [typed.appended_eq pending, pending, ← List.append_assoc, ← typed.appends]
  screen := by
    rw [typed.appended_eq pending, screen, typed.screen, written_eq, written_eq, List.foldl_append]

/-- What a key that types does: it appends a character and echoes it, or it appends a line feed by
Enter, or it does nothing. -/
theorem typeKey_cases {tty next : Tty} {code : UInt8} (idle : tty.keyboard.buf_idx < BUF_SIZE - 1)
    (taken : tty.typeKey code = some next) :
    next.keyboard.buf_idx < BUF_SIZE - 1 ∧
    (code = 0x1C ∧ next.visible.pending = tty.visible.pending ++ [NEWLINE] ∧
        next.console.screen = tty.console.screen.enter.putc_switch NEWLINE ∨
      code ≠ 0x1C ∧ ∃ text, next.visible.pending = tty.visible.pending ++ text ∧
        next.console.screen = text.foldl Screen.putc_switch tty.console.screen) := by
  rw [typeKey] at taken
  split_ifs at taken with types
  cases taken
  obtain ⟨stays, not_backspace, room⟩ := types
  have echoed := tty.echo_show_pressed_key code idle stays (room.trans (by decide))
  have screen_eq := congrArg Echo.screen echoed
  have pending_eq := congrArg Echo.pending echoed
  refine ⟨by rwa [buf_idx_show_pressed_key], ?_⟩
  cases press_eq : tty.keyboard.press code with
  | enter =>
      rw [press_eq] at screen_eq pending_eq
      exact Or.inl ⟨(Modifiers.press_eq_enter_iff _ code).mp press_eq, pending_eq, screen_eq⟩
  | character c =>
      rw [press_eq] at screen_eq pending_eq
      have not_enter : code ≠ 0x1C :=
        mt (Modifiers.press_eq_enter_iff tty.keyboard.toModifiers code).mpr (by simp [press_eq])
      exact Or.inr ⟨not_enter, [c], pending_eq, screen_eq⟩
  | silent =>
      rw [press_eq] at screen_eq pending_eq
      have not_enter : code ≠ 0x1C :=
        mt (Modifiers.press_eq_enter_iff tty.keyboard.toModifiers code).mpr (by simp [press_eq])
      exact Or.inr ⟨not_enter, [], pending_eq.trans (List.append_nil _).symm, screen_eq⟩
  | backspace => exact absurd press_eq not_backspace
  | display t => exact absurd press_eq (stays.2 t)

/-- A key that types agrees with output unless it is Enter on a screen that two line feeds take
further than one. -/
theorem Typed.step {start tty next : Tty} {code : UInt8} (typed : Typed start tty)
    (taken : tty.typeKey code = some next)
    (once : code = 0x1C → tty.console.screen.FeedsOnce) : Typed start next := by
  obtain ⟨idle, ⟨enter, pending, screen⟩ | ⟨-, text, pending, screen⟩⟩ :=
    typeKey_cases typed.idle taken
  · rw [(once enter).enter] at screen
    exact typed.append idle pending screen
  · exact typed.append idle pending screen

theorem Typed.feedsOnce {start tty next : Tty} {code : UInt8} (typed : Typed start tty)
    (taken : tty.typeKey code = some next)
    (alike : next.console.screen.Alike (start.written (start.appended next)))
    (enter : code = 0x1C) : tty.console.screen.FeedsOnce := by
  obtain ⟨-, ⟨-, pending, screen⟩ | ⟨not_enter, -⟩⟩ := typeKey_cases typed.idle taken
  · rw [typed.appended_eq pending, written_eq, List.foldl_append, ← written_eq, ← typed.screen,
      screen] at alike
    exact Screen.feedsOnce_of_alike alike
  · exact absurd enter not_enter

/-- At every moment of typing the screen and the cursor are those of the appended characters written
through `terminal_write`, exactly when each Enter comes in the last row, with the wrap deferred, or
in the last row but one of a blank screen. -/
theorem echo_agrees_iff (start : Tty) (codes : List UInt8)
    (idle : start.keyboard.buf_idx < BUF_SIZE - 1) :
    (∀ tty ∈ Run.visited typeKey start codes,
      tty.console.screen.Alike (start.written (start.appended tty))) ↔
    ∀ entry ∈ Run.taken typeKey start codes,
      entry.2 = 0x1C → entry.1.console.screen.FeedsOnce := by
  apply Run.weak_iff_ok (fun tty code => code = 0x1C → tty.console.screen.FeedsOnce) (Typed start)
  · intro tty typed
    rw [typed.screen]
    exact Screen.Alike.refl _
  · intro tty code next typed taken once
    exact typed.step taken once
  · intro tty code next typed taken not_once alike
    exact not_once (typed.feedsOnce taken alike)
  · exact typed_start idle

/-- A cursor in the last row. -/
def atLastRow : Tty :=
  (start Console.boot).modifyScreen fun screen => { screen with screen_y := NUM_ROWS - 1 }

/-- A letter and Enter in the last row, twice. -/
theorem echo_agrees_iff_enter :
    (Run.run typeKey atLastRow [0x1E, 0x1C, 0x30, 0x1C]).isSome ∧
      ∀ tty ∈ Run.visited typeKey atLastRow [0x1E, 0x1C, 0x30, 0x1C],
        tty.console.screen.Alike (atLastRow.written (atLastRow.appended tty)) := by
  have last_row : ∀ entry ∈ Run.taken typeKey atLastRow [0x1E, 0x1C, 0x30, 0x1C],
      entry.2 = 0x1C → entry.1.console.screen.screen_y = NUM_ROWS - 1 := by decide +kernel
  refine ⟨by decide +kernel, ?_⟩
  exact (echo_agrees_iff atLastRow [0x1E, 0x1C, 0x30, 0x1C] (idle_start Console.boot)).mpr
    fun entry mem enter => Or.inl (last_row entry mem enter)

/-- Enter in the first row of the empty screen moves the cursor down two rows, the line feed it
appends only one. -/
theorem echo_disagrees_enter :
    ¬∀ (start : Tty) (codes : List UInt8), start.keyboard.buf_idx < BUF_SIZE - 1 →
      ∀ tty ∈ Run.visited typeKey start codes,
        tty.console.screen.Alike (start.written (start.appended tty)) := by
  intro agrees
  have taken : Run.run typeKey (start Console.boot) [0x1C] =
      some ((start Console.boot).show_pressed_key 0x1C) :=
    congrArg (· >>= some) (if_pos (by decide))
  have alike := agrees (start Console.boot) [0x1C] (idle_start Console.boot) _
    (Run.mem_visited_of_run taken)
  exact absurd alike.y (by decide)

end Tty

end ComputerSystem
