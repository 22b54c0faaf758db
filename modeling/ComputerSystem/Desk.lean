import ComputerSystem.LineBuffer
import ComputerSystem.Run

/-!
# The desk

The keyboard and the terminals without the screen: the modifiers, the terminal on display, the
terminal of the running process and the three lines.  `Tty.step` takes a scan code, a read, or the
assignment of the running terminal, and `desk_step` says that the desk takes the same step.
-/

namespace ComputerSystem

/-- What happens to the keyboard and the terminals. -/
inductive TtyEvent
  /-- A scan code arrives. -/
  | key (code : UInt8)
  /-- The running process calls `terminal_read` with a buffer. -/
  | read
  /-- `contextSwitch` makes `t` the terminal of the running process. -/
  | schedule (t : Fin 3)
  deriving DecidableEq

namespace Tty

/-- One event; a read is a step once it completes. -/
def step (tty : Tty) : TtyEvent → Option Tty
  | .key code => some (tty.show_pressed_key code)
  | .read => (tty.console.terminal_read false).map fun answer => { tty with console := answer.2.2 }
  | .schedule t =>
      some (tty.modifyConsole fun console => { console with background_terminal := some t })

/-- Keyboard and terminals after boot and `terminal_start`. -/
def start (console : Console) : Tty where
  keyboard := Keyboard.boot
  console := console.terminal_start

end Tty

/-- Keyboard and terminals without the screen. -/
structure Desk where
  /-- The modifiers. -/
  keys : Modifiers
  /-- The terminal on display. -/
  visible : Fin 3
  /-- The terminal of the running process. -/
  running : Option (Fin 3)
  /-- The lines. -/
  line : Fin 3 → LineBuffer

namespace Desk

/-- Change the line on display. -/
def modifyLine (desk : Desk) (f : LineBuffer → LineBuffer) : Desk :=
  { desk with line := Function.update desk.line desk.visible (f (desk.line desk.visible)) }

/-- A scan code. -/
def key (desk : Desk) (code : UInt8) : Desk where
  keys := desk.keys.after code
  visible := (desk.keys.press code).visible desk.visible
  running := desk.running
  line := (desk.modifyLine fun line => line.press (desk.keys.press code)).line

/-- A completed read. -/
def read (desk : Desk) : Option Desk :=
  if (desk.line desk.visible).entered then some (desk.modifyLine LineBuffer.clear) else none

/-- One event. -/
def step (desk : Desk) : TtyEvent → Option Desk
  | .key code => some (desk.key code)
  | .read => desk.read
  | .schedule t => some { desk with running := some t }

@[simp]
theorem modifyLine_modifyLine (desk : Desk) (f g : LineBuffer → LineBuffer) :
    (desk.modifyLine f).modifyLine g = desk.modifyLine fun line => g (f line) := by
  simp [modifyLine]

@[simp]
theorem modifyLine_self (desk : Desk) : (desk.modifyLine fun line => line) = desk := by
  simp [modifyLine]

@[simp]
theorem line_modifyLine (desk : Desk) (f : LineBuffer → LineBuffer) (t : Fin 3) :
    (desk.modifyLine f).line t = if t = desk.visible then f (desk.line t) else desk.line t := by
  by_cases same : t = desk.visible
  · subst same
    simp [modifyLine]
  · simp [modifyLine, same]

/-- Nothing pressed, nothing typed. -/
def start (running : Option (Fin 3)) : Desk where
  keys := Keyboard.boot.toModifiers
  visible := 0
  running := running
  line := fun _ => LineBuffer.empty

end Desk

/-- The desk of a keyboard and its terminals. -/
def Tty.desk (tty : Tty) : Desk where
  keys := tty.keyboard.toModifiers
  visible := tty.console.cur_term_idx
  running := tty.console.background_terminal
  line := fun t => (tty.console.term t).line

namespace Tty

theorem idle_start (console : Console) : (start console).keyboard.buf_idx < BUF_SIZE - 1 :=
  show 0 < 127 by decide

@[simp]
theorem desk_modifyScreen (tty : Tty) (f : Screen → Screen) :
    (tty.modifyScreen f).desk = tty.desk := rfl

@[simp]
theorem desk_setFlag (tty : Tty) (flag : UInt8) :
    (tty.modifyKeyboard fun k => { k with flag }).desk = tty.desk := rfl

theorem desk_modifyVisible (tty : Tty) {f : Term → Term} {g : LineBuffer → LineBuffer}
    (commutes : ∀ term, (f term).line = g term.line) :
    (tty.modifyVisible f).desk = tty.desk.modifyLine g := by
  simp only [desk, Desk.modifyLine, modifyVisible, modifyConsole, Console.modifyTerm]
  congr 1
  funext t
  by_cases same : t = tty.console.cur_term_idx
  · subst same
    simp [commutes]
  · simp [same]

theorem desk_switchTo (tty : Tty) (t : Fin 3) :
    (tty.switchTo t).desk = { tty.desk with visible := t } := by
  simp only [desk, switchTo, modifyConsole, Console.terminal_switch, Console.terminal_load,
    Console.terminal_save, Console.modifyTerm]
  congr 1
  funext u
  by_cases same : u = tty.console.cur_term_idx
  · subst same
    simp [Term.line]
  · simp [same]

theorem check_mode_of_mem (tty : Tty) {code : UInt8} (modifier : code ∈ Modifiers.codes) :
    tty.check_mode code =
      (0, tty.modifyKeyboard fun k => { k with toModifiers := k.toModifiers.after code }) := by
  simp only [Modifiers.codes, List.mem_cons, List.not_mem_nil, or_false] at modifier
  rcases modifier with rfl | rfl | rfl | rfl | rfl | rfl | rfl | rfl | rfl <;>
    simp [check_mode, Modifiers.after, modifyKeyboard]

theorem check_mode_modifier (tty : Tty) {code : UInt8} (modifier : code ∈ Modifiers.codes) :
    ∃ after, tty.check_mode code = (0, after) ∧ after.keyboard.buf_idx = tty.keyboard.buf_idx ∧
      after.desk = { tty.desk with keys := tty.desk.keys.after code } :=
  ⟨_, tty.check_mode_of_mem modifier, rfl, rfl⟩

theorem check_mode_enter (tty : Tty) :
    ∃ after, tty.check_mode 0x1C = (1, after) ∧ after.keyboard = tty.keyboard ∧
      after.desk = tty.desk.modifyLine fun line => { line.store NEWLINE with entered := true } := by
  let stored := tty.modifyVisible fun term => term.storeBuf term.term_buf_idx NEWLINE
  refine ⟨(stored.modifyScreen Screen.enter).modifyVisible fun term =>
    { term with term_enter_flag := true }, ?_, rfl, ?_⟩
  · simp [check_mode, stored]
  · rw [desk_modifyVisible _ (g := fun line => { line with entered := true }) (fun _ => rfl),
      desk_modifyScreen, desk_modifyVisible _ (g := fun line => line.store NEWLINE) (fun _ => rfl)]
    simp [Desk.modifyLine]

theorem check_mode_backspace (tty : Tty) :
    ∃ after, tty.check_mode 0x0E = (0, after) ∧ after.keyboard = tty.keyboard ∧
      after.desk = tty.desk.modifyLine fun line => line.press .backspace := by
  have idx_eq : (tty.desk.line tty.desk.visible).idx = tty.visible.term_buf_idx := rfl
  by_cases typed : tty.visible.term_buf_idx > 0
  · let stored := tty.modifyVisible fun term => term.storeBuf term.term_buf_idx SPACE
    refine ⟨(stored.modifyVisible fun term =>
      { term with term_buf_idx := term.term_buf_idx - 1 }).modifyScreen Screen.backspace,
      ?_, rfl, ?_⟩
    · simp [check_mode, typed, stored]
    · rw [desk_modifyScreen,
        desk_modifyVisible _ (g := fun line => { line with idx := line.idx - 1 }) (fun _ => rfl),
        desk_modifyVisible _ (g := fun line => line.store SPACE) (fun _ => rfl)]
      simp [Desk.modifyLine, LineBuffer.press, idx_eq, typed]
  · refine ⟨tty, ?_, rfl, ?_⟩
    · simp [check_mode, typed]
    · simp [Desk.modifyLine, LineBuffer.press, idx_eq, typed]

theorem check_mode_display (tty : Tty) {code : UInt8} {t : Fin 3}
    (display : tty.keyboard.press code = .display t) :
    tty.check_mode code = (0, tty.switchTo t) := by
  simp only [Modifiers.press] at display
  split_ifs at display with _ _ alt alt alt
  · cases display
    simp [check_mode, alt]
  · cases display
    simp [check_mode, alt]
  · cases display
    simp [check_mode, alt]

theorem check_mode_other (tty : Tty) {code : UInt8} (other : code ∉ Modifiers.codes)
    (enter : code ≠ 0x1C) (backspace : code ≠ 0x0E)
    (display : ∀ t, tty.keyboard.press code ≠ .display t) :
    tty.check_mode code = (1, tty) := by
  simp only [Modifiers.codes, List.mem_cons, List.not_mem_nil, or_false, not_or] at other
  have not_first : ¬(tty.keyboard.alt_flag ∧ code = 0x3B) := by
    rintro ⟨alt, rfl⟩
    exact display 0 (by simp [Modifiers.press, alt])
  have not_second : ¬(tty.keyboard.alt_flag ∧ code = 0x3C) := by
    rintro ⟨alt, rfl⟩
    exact display 1 (by simp [Modifiers.press, alt])
  have not_third : ¬(tty.keyboard.alt_flag ∧ code = 0x3D) := by
    rintro ⟨alt, rfl⟩
    exact display 2 (by simp [Modifiers.press, alt])
  simp [check_mode, other, enter, backspace, not_first, not_second, not_third]

/-- What `check_mode` does: it handles the code itself, or it is Enter and half of it is left to do,
or it leaves everything to the rest of the handler. -/
theorem check_mode_cases (tty : Tty) (code : UInt8) :
    (∃ after, tty.check_mode code = (0, after) ∧
        after.keyboard.buf_idx = tty.keyboard.buf_idx ∧ after.desk = tty.desk.key code) ∨
    (∃ after, code = 0x1C ∧ tty.check_mode code = (1, after) ∧ after.keyboard = tty.keyboard ∧
        after.desk = tty.desk.modifyLine fun line => { line.store NEWLINE with entered := true }) ∨
    (tty.check_mode code = (1, tty) ∧ tty.keyboard.after code = tty.keyboard.toModifiers ∧
      tty.keyboard.press code =
        if tty.keyboard.ctrl_flag ∧ tty.keyboard.mode = 0 ∧ code = 0x26 then .silent
        else if code.toNat ≥ SCAN_SIZE ∨ scan_code tty.keyboard.mode code = 0 then .silent
        else .character (scan_code tty.keyboard.mode code)) := by
  have keys_eq : tty.desk.keys = tty.keyboard.toModifiers := rfl
  by_cases modifier : code ∈ Modifiers.codes
  · obtain ⟨after, mode, idle, desk_eq⟩ := tty.check_mode_modifier modifier
    refine Or.inl ⟨after, mode, idle, ?_⟩
    rw [desk_eq]
    simp [Desk.key, Modifiers.press_of_mem _ modifier, LineBuffer.press, Press.visible]
  by_cases enter : code = 0x1C
  · subst enter
    obtain ⟨after, mode, keyboard_eq, desk_eq⟩ := tty.check_mode_enter
    exact Or.inr (Or.inl ⟨after, rfl, mode, keyboard_eq, desk_eq⟩)
  by_cases backspace : code = 0x0E
  · subst backspace
    obtain ⟨after, mode, keyboard_eq, desk_eq⟩ := tty.check_mode_backspace
    refine Or.inl ⟨after, mode, by rw [keyboard_eq], ?_⟩
    rw [desk_eq]
    simp [Desk.key, Modifiers.press, Modifiers.after, Press.visible]
    rfl
  by_cases display : ∃ t, tty.keyboard.press code = .display t
  · obtain ⟨t, display⟩ := display
    refine Or.inl ⟨_, tty.check_mode_display display, rfl, ?_⟩
    rw [desk_switchTo]
    simp [Desk.key, keys_eq, display, Press.visible, Modifiers.after_of_notMem _ modifier,
      LineBuffer.press]
  · rw [not_exists] at display
    exact Or.inr (Or.inr ⟨tty.check_mode_other modifier enter backspace display,
      Modifiers.after_of_notMem _ modifier, Modifiers.press_of_other _ enter backspace display⟩)

/-- With flag 0 the rest of the handler leaves the desk alone. -/
theorem desk_of_flag_zero {tty after : Tty} {code : UInt8}
    (mode : tty.check_mode code = (0, after)) :
    (tty.show_pressed_key code).desk = after.desk := by
  simp only [show_pressed_key, mode]
  split_ifs with outside clearing room flag
  · rw [desk_setFlag]
  · rw [desk_modifyScreen, desk_setFlag]
  · exact absurd flag (by simp [modifyKeyboard])
  · rw [desk_setFlag]
  · rw [desk_setFlag]
  · rw [desk_setFlag]

/-- With flag 1 the rest of the handler clears the screen, does nothing, or types the character of
the key. -/
theorem show_pressed_key_of_flag_one {tty after : Tty} {code : UInt8}
    (idle : after.keyboard.buf_idx < BUF_SIZE - 1) (mode : tty.check_mode code = (1, after)) :
    let flagged := after.modifyKeyboard fun k => { k with flag := 1 }
    let input := scan_code after.keyboard.mode code
    tty.show_pressed_key code =
      if after.keyboard.ctrl_flag ∧ after.keyboard.mode = 0 ∧ code = 0x26 then
        flagged.modifyScreen Screen.clear
      else if code.toNat ≥ SCAN_SIZE ∨ input = 0 then flagged
      else
        ((flagged.modifyVisible fun term => term.storeBuf term.term_buf_idx input).modifyVisible
          fun term => { term with term_buf_idx := term.term_buf_idx + 1 }).modifyScreen
            fun screen => screen.putc_switch input := by
  simp only [show_pressed_key, mode, Modifiers.mode_eq_zero, and_assoc]
  generalize flagged_eq : (after.modifyKeyboard fun k => { k with flag := 1 }) = flagged
  have keyboard_eq : flagged.keyboard = { after.keyboard with flag := 1 } := by
    rw [← flagged_eq]
    rfl
  simp only [keyboard_eq, if_pos idle, if_true, ite_not]
  by_cases outside : code.toNat ≥ SCAN_SIZE ∨ code = 0
  · have no_character : code.toNat ≥ SCAN_SIZE ∨ scan_code after.keyboard.mode code = 0 := by
      refine outside.imp_right ?_
      rintro rfl
      exact Modifiers.scan_code_zero _ after.keyboard.mode_lt
    have other : code ≠ 0x26 := by
      rintro rfl
      exact absurd outside (by decide)
    simp only [if_pos outside, if_pos no_character, other, and_false, if_false]
  · obtain ⟨in_table, not_zero⟩ := not_or.mp outside
    simp only [in_table, not_zero, or_self, false_or, if_false]

theorem desk_of_flag_one {tty after : Tty} {code : UInt8}
    (idle : after.keyboard.buf_idx < BUF_SIZE - 1) (mode : tty.check_mode code = (1, after)) :
    (tty.show_pressed_key code).desk =
      if after.keyboard.ctrl_flag ∧ after.keyboard.mode = 0 ∧ code = 0x26 then after.desk
      else if code.toNat ≥ SCAN_SIZE ∨ scan_code after.keyboard.mode code = 0 then after.desk
      else after.desk.modifyLine fun line => line.type (scan_code after.keyboard.mode code) := by
  have same_desk := desk_setFlag after 1
  rw [show_pressed_key_of_flag_one idle mode]
  split_ifs
  · rw [desk_modifyScreen, same_desk]
  · exact same_desk
  · rw [desk_modifyScreen,
      desk_modifyVisible _ (g := fun line => { line with idx := line.idx + 1 }) (fun _ => rfl),
      desk_modifyVisible _ (g := fun line => line.store (scan_code after.keyboard.mode code))
        (fun _ => rfl), same_desk]
    simp [LineBuffer.type]

/-- The keyboard handler does to the desk what the press asks for. -/
theorem desk_show_pressed_key (tty : Tty) (code : UInt8)
    (idle : tty.keyboard.buf_idx < BUF_SIZE - 1) :
    (tty.show_pressed_key code).desk = tty.desk.key code := by
  have keys_eq : tty.desk.keys = tty.keyboard.toModifiers := rfl
  rcases tty.check_mode_cases code with
    ⟨after, mode, -, desk_eq⟩ | ⟨after, rfl, mode, keyboard_eq, desk_eq⟩ | ⟨mode, keys, press_eq⟩
  · rw [desk_of_flag_zero mode, desk_eq]
  · rw [desk_of_flag_one (by rwa [keyboard_eq]) mode, desk_eq, keyboard_eq,
      Modifiers.scan_code_enter _ tty.keyboard.mode_lt]
    simp [SCAN_SIZE, NEWLINE, Desk.key, Modifiers.press, Modifiers.after, LineBuffer.press,
      Press.visible]
    rfl
  · rw [desk_of_flag_one idle mode]
    simp only [Desk.key, keys_eq, keys, press_eq]
    split_ifs <;> simp only [LineBuffer.press, Press.visible, Desk.modifyLine_self] <;> rfl

@[simp]
theorem keyboard_modifyScreen (tty : Tty) (f : Screen → Screen) :
    (tty.modifyScreen f).keyboard = tty.keyboard := rfl

@[simp]
theorem keyboard_modifyVisible (tty : Tty) (f : Term → Term) :
    (tty.modifyVisible f).keyboard = tty.keyboard := rfl

theorem buf_idx_check_mode (tty : Tty) (code : UInt8) :
    (tty.check_mode code).2.keyboard.buf_idx = tty.keyboard.buf_idx := by
  rcases tty.check_mode_cases code with
    ⟨after, mode, idle, -⟩ | ⟨after, -, mode, keyboard_eq, -⟩ | ⟨mode, -, -⟩
  · rw [mode, idle]
  · rw [mode, keyboard_eq]
  · rw [mode]

/-- No key moves the old global index, so the test on it never fails. -/
theorem buf_idx_show_pressed_key (tty : Tty) (code : UInt8) :
    (tty.show_pressed_key code).keyboard.buf_idx = tty.keyboard.buf_idx := by
  rw [← tty.buf_idx_check_mode code]
  simp only [show_pressed_key]
  split_ifs <;> simp only [keyboard_modifyScreen, keyboard_modifyVisible, modifyKeyboard]

/-- A read completes when the enter flag of the line on display is set; it returns what is pending
there and clears it. -/
theorem desk_terminal_read (tty : Tty) :
    (tty.desk.line tty.desk.visible).entered = false ∧ tty.console.terminal_read false = none ∨
    (tty.desk.line tty.desk.visible).entered = true ∧ ∃ console,
      tty.console.terminal_read false =
        some ((tty.visible.term_buf_idx : Int),
          (List.range tty.visible.term_buf_idx).map tty.visible.loadBuf, console) ∧
      { tty with console }.desk = tty.desk.modifyLine LineBuffer.clear := by
  cases flag : tty.visible.term_enter_flag with
  | false =>
      refine Or.inl ⟨flag, ?_⟩
      simp only [visible] at flag
      simp [Console.terminal_read, flag]
  | true =>
      refine Or.inr ⟨flag, tty.console.modifyTerm tty.console.cur_term_idx fun term =>
        { ({ term with term_enter_flag := false }).clearBuf with term_buf_idx := 0 }, ?_, ?_⟩
      · simp only [visible] at flag
        simp [Console.terminal_read, flag, visible]
      · exact desk_modifyVisible tty Term.line_clearBuf

theorem desk_step (tty : Tty) (event : TtyEvent) (idle : tty.keyboard.buf_idx < BUF_SIZE - 1) :
    (tty.step event).map desk = tty.desk.step event := by
  cases event with
  | key code => exact congrArg some (tty.desk_show_pressed_key code idle)
  | read =>
      rcases tty.desk_terminal_read with ⟨waiting, result⟩ | ⟨entered, console, result, desk_eq⟩
      · simp [step, Desk.step, Desk.read, result, waiting]
      · simp [step, Desk.step, Desk.read, result, entered, desk_eq]
  | schedule t => rfl

theorem desk_of_step {tty next : Tty} {event : TtyEvent}
    (idle : tty.keyboard.buf_idx < BUF_SIZE - 1)
    (taken : tty.step event = some next) : tty.desk.step event = some next.desk := by
  rw [← tty.desk_step event idle, taken, Option.map_some]

theorem buf_idx_step {tty next : Tty} {event : TtyEvent} (taken : tty.step event = some next) :
    next.keyboard.buf_idx = tty.keyboard.buf_idx := by
  cases event with
  | key code =>
      cases taken
      exact tty.buf_idx_show_pressed_key code
  | read =>
      obtain ⟨answer, -, rfl⟩ := Option.map_eq_some_iff.mp taken
      rfl
  | schedule t =>
      cases taken
      rfl

end Tty

end ComputerSystem
