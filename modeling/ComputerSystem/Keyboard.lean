import ComputerSystem.Terminal

/-!
# The keyboard handler

`show_pressed_key` takes one scan code: `check_mode` keeps the modifier flags, handles Enter and
Backspace and switches terminals, and what is left is put into the line buffer of the terminal on
display.
-/

namespace ComputerSystem

/-- `SCAN_SIZE`. -/
def SCAN_SIZE : Nat := 92

/-- `scan_code`: characters by mode (plain, shift, caps lock, both) and scan code; the codes from
caps lock on carry no character. -/
def scan_rows : List (List UInt8) :=
  [[0, 0,                                               -- escape
    49, 50, 51, 52, 53, 54, 55, 56, 57, 48, 45, 61,     -- 1234567890-=
    0, 32,                                              -- backspace, tab
    113, 119, 101, 114, 116, 121, 117, 105, 111, 112, 91, 93, 10,  -- qwertyuiop[] enter
    0,                                                  -- left ctrl
    97, 115, 100, 102, 103, 104, 106, 107, 108, 59, 39, 96,        -- asdfghjkl;'`
    0, 92,                                              -- left shift, backslash
    122, 120, 99, 118, 98, 110, 109, 44, 46, 47,        -- zxcvbnm,./
    0, 0, 0, 32],                                       -- right shift, keypad *, alt, space
   [0, 0,
    33, 64, 35, 36, 37, 94, 38, 42, 40, 41, 95, 43,     -- !@#$%^&*()_+
    0, 32,
    81, 87, 69, 82, 84, 89, 85, 73, 79, 80, 123, 125, 10,          -- QWERTYUIOP{} enter
    0,
    65, 83, 68, 70, 71, 72, 74, 75, 76, 58, 34, 126,    -- ASDFGHJKL:"~
    0, 124,
    90, 88, 67, 86, 66, 78, 77, 60, 62, 63,             -- ZXCVBNM<>?
    0, 0, 0, 32],
   [0, 0,
    49, 50, 51, 52, 53, 54, 55, 56, 57, 48, 45, 61,     -- 1234567890-=
    0, 32,
    81, 87, 69, 82, 84, 89, 85, 73, 79, 80, 91, 93, 10, -- QWERTYUIOP[] enter
    0,
    65, 83, 68, 70, 71, 72, 74, 75, 76, 59, 39, 96,     -- ASDFGHJKL;'`
    0, 92,
    90, 88, 67, 86, 66, 78, 77, 44, 46, 47,             -- ZXCVBNM,./
    0, 0, 0, 32],
   [0, 0,
    33, 64, 35, 36, 37, 94, 38, 42, 40, 41, 95, 43,     -- !@#$%^&*()_+
    0, 32,
    113, 119, 101, 114, 116, 121, 117, 105, 111, 112, 123, 125, 10,  -- qwertyuiop{} enter
    0,
    97, 115, 100, 102, 103, 104, 106, 107, 108, 58, 34, 126,       -- asdfghjkl:"~
    0, 124,
    122, 120, 99, 118, 98, 110, 109, 60, 62, 63,        -- zxcvbnm<>?
    0, 0, 0, 32]]

/-- `scan_code[mode][code]`. -/
def scan_code (mode : Nat) (code : UInt8) : UInt8 := (scan_rows.getD mode []).getD code.toNat 0

/-- The modifier flags of the keyboard driver. -/
structure Modifiers where
  /-- Left shift held. -/
  left_shift_flag : Bool
  /-- Right shift held. -/
  right_shift_flag : Bool
  /-- Caps lock on. -/
  caps_flag : Bool
  /-- Alt held. -/
  alt_flag : Bool
  /-- Ctrl held. -/
  ctrl_flag : Bool
  deriving DecidableEq

/-- The globals of the keyboard driver. -/
structure Keyboard extends Modifiers where
  /-- Result of the last `check_mode`. -/
  flag : UInt8
  /-- Index into the old global line buffer. -/
  buf_idx : Nat

/-- The globals at boot, as `keyboard_init` leaves them. -/
def Keyboard.boot : Keyboard where
  left_shift_flag := false
  right_shift_flag := false
  caps_flag := false
  alt_flag := false
  ctrl_flag := false
  flag := 0
  buf_idx := 0

/-- Row of `scan_code` for the current modifiers. -/
def Modifiers.mode (keys : Modifiers) : Nat :=
  if ¬keys.left_shift_flag ∧ ¬keys.right_shift_flag ∧ ¬keys.caps_flag then 0
  else if (keys.left_shift_flag ∨ keys.right_shift_flag) ∧ ¬keys.caps_flag then 1
  else if ¬keys.left_shift_flag ∧ ¬keys.right_shift_flag ∧ keys.caps_flag then 2
  else 3

/-- Keyboard and terminals. -/
structure Tty where
  /-- Keyboard globals. -/
  keyboard : Keyboard
  /-- Terminals and screen. -/
  console : Console

namespace Tty

/-- Change the keyboard globals. -/
def modifyKeyboard (tty : Tty) (f : Keyboard → Keyboard) : Tty :=
  { tty with keyboard := f tty.keyboard }

/-- Change the console. -/
def modifyConsole (tty : Tty) (f : Console → Console) : Tty :=
  { tty with console := f tty.console }

/-- Change the terminal on display. -/
def modifyVisible (tty : Tty) (f : Term → Term) : Tty :=
  tty.modifyConsole fun console => console.modifyTerm console.cur_term_idx f

/-- Change the screen. -/
def modifyScreen (tty : Tty) (f : Screen → Screen) : Tty :=
  tty.modifyConsole fun console => { console with screen := f console.screen }

/-- The terminal on display. -/
def visible (tty : Tty) : Term := tty.console.term tty.console.cur_term_idx

/-- Alt and a function key: save the terminal on display and load terminal `t`. -/
def switchTo (tty : Tty) (t : Fin 3) : Tty :=
  tty.modifyConsole fun console => console.terminal_switch console.cur_term_idx t

/-- `check_mode`. -/
def check_mode (tty : Tty) (code : UInt8) : UInt8 × Tty :=
  if code = 0x36 then (0, tty.modifyKeyboard fun k => { k with right_shift_flag := true })
  else if code = 0x2A then (0, tty.modifyKeyboard fun k => { k with left_shift_flag := true })
  else if code = 0xAA then (0, tty.modifyKeyboard fun k => { k with left_shift_flag := false })
  else if code = 0xB6 then (0, tty.modifyKeyboard fun k => { k with right_shift_flag := false })
  else if code = 0x3A then (0, tty.modifyKeyboard fun k => { k with caps_flag := !k.caps_flag })
  else if code = 0x38 then (0, tty.modifyKeyboard fun k => { k with alt_flag := true })
  else if code = 0xB8 then (0, tty.modifyKeyboard fun k => { k with alt_flag := false })
  else if code = 0x1D then (0, tty.modifyKeyboard fun k => { k with ctrl_flag := true })
  else if code = 0x9D then (0, tty.modifyKeyboard fun k => { k with ctrl_flag := false })
  else if code = 0x1C then
    -- Enter: the index is advanced later, when the character itself is stored
    let tty := tty.modifyVisible fun term => term.storeBuf term.term_buf_idx NEWLINE
    let tty := tty.modifyScreen Screen.enter
    (1, tty.modifyVisible fun term => { term with term_enter_flag := true })
  else if code = 0x0E then
    if tty.visible.term_buf_idx > 0 then
      let tty := tty.modifyVisible fun term => term.storeBuf term.term_buf_idx SPACE
      let tty := tty.modifyVisible fun term => { term with term_buf_idx := term.term_buf_idx - 1 }
      (0, tty.modifyScreen Screen.backspace)
    else
      (0, tty)
  else if tty.keyboard.alt_flag ∧ code = 0x3B then (0, tty.switchTo 0)
  else if tty.keyboard.alt_flag ∧ code = 0x3C then (0, tty.switchTo 1)
  else if tty.keyboard.alt_flag ∧ code = 0x3D then (0, tty.switchTo 2)
  else (1, tty)

/-- `show_pressed_key`, for the scan code read from the keyboard port. -/
def show_pressed_key (tty : Tty) (code : UInt8) : Tty :=
  let (flag, tty) := tty.check_mode code
  let tty := tty.modifyKeyboard fun k => { k with flag }
  if code.toNat ≥ SCAN_SIZE ∨ code = 0 then tty
  else if tty.keyboard.ctrl_flag ∧ ¬tty.keyboard.left_shift_flag ∧
      ¬tty.keyboard.right_shift_flag ∧ ¬tty.keyboard.caps_flag ∧ code = 0x26 then
    tty.modifyScreen Screen.clear
  else if tty.keyboard.buf_idx < BUF_SIZE - 1 then
    if tty.keyboard.flag = 1 then
      let input := scan_code tty.keyboard.mode code
      if input ≠ 0 then
        let tty := tty.modifyVisible fun term => term.storeBuf term.term_buf_idx input
        let tty := tty.modifyVisible fun term => { term with term_buf_idx := term.term_buf_idx + 1 }
        tty.modifyScreen fun screen => screen.putc_switch input
      else
        tty
    else
      tty
  else
    tty

end Tty

end ComputerSystem
