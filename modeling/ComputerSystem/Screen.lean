import Mathlib

/-!
# The visible screen

The part of `lib.c` that draws on the video memory of the visible terminal.  Physical memory is a
function on addresses, so the saved page of a background terminal lies in the same memory as the
page on display.
-/

namespace ComputerSystem

/-- Physical address of the video page on display. -/
def VIDEO : Nat := 0xB8000

/-- Columns of the screen. -/
def NUM_COLS : Nat := 80

/-- Rows of the screen. -/
def NUM_ROWS : Nat := 25

/-- Default attribute byte. -/
def ATTRIB : UInt8 := 7

/-- The blank character. -/
def SPACE : UInt8 := 32

/-- Line feed. -/
def NEWLINE : UInt8 := 10

/-- Carriage return. -/
def RETURN : UInt8 := 13

/-- Physical memory, byte by byte. -/
abbrev Memory := Nat → UInt8

namespace Memory

/-- Store one byte. -/
def poke (memory : Memory) (address : Nat) (byte : UInt8) : Memory :=
  Function.update memory address byte

/-- Store a character with the default attribute in a cell of a page. -/
def putCell (memory : Memory) (page cell : Nat) (c : UInt8) : Memory :=
  (memory.poke (page + 2 * cell) c).poke (page + 2 * cell + 1) ATTRIB

/-- Copy of `n` bytes between ranges that do not overlap. -/
def copy (memory : Memory) (dest src n : Nat) : Memory :=
  fun address =>
    if dest ≤ address ∧ address < dest + n then memory (src + (address - dest))
    else memory address

/-- The two loops of `scroll_up` and `scroll_up_switch`: move every row of `src` one row up into
`dest`, cell by cell, then blank the last row of `dest`. -/
def scroll (memory : Memory) (dest src : Nat) : Memory :=
  let moved := (List.range ((NUM_ROWS - 1) * NUM_COLS)).foldl
    (fun memory i =>
      let memory := memory.poke (dest + 2 * i) (memory (src + 2 * (i + NUM_COLS)))
      memory.poke (dest + 2 * i + 1) (memory (src + 2 * (i + NUM_COLS) + 1)))
    memory
  (List.range' ((NUM_ROWS - 1) * NUM_COLS) NUM_COLS).foldl
    (fun memory i => memory.putCell dest i SPACE) moved

end Memory

/-- The statics of `lib.c` and the memory they draw on. -/
structure Screen where
  /-- Physical memory. -/
  memory : Memory
  /-- Cursor column. -/
  screen_x : Nat
  /-- Cursor row. -/
  screen_y : Nat
  /-- Position last sent to the VGA; `none` when `pos` was sent without having been assigned. -/
  cursor : Option Nat

namespace Screen

/-- `update_cursor`. -/
def update_cursor (screen : Screen) (x y : Nat) : Screen :=
  { screen with
    cursor := if y < NUM_ROWS ∧ x < NUM_COLS then some (y * NUM_COLS + x) else none
    screen_x := x
    screen_y := y }

/-- `clear`. -/
def clear (screen : Screen) : Screen :=
  let memory := (List.range (NUM_ROWS * NUM_COLS)).foldl
    (fun memory i => memory.putCell VIDEO i SPACE) screen.memory
  { screen with memory, screen_x := 0, screen_y := 0 }.update_cursor 0 0

/-- `backspace`. -/
def backspace (screen : Screen) : Screen :=
  if screen.screen_x = 0 ∧ screen.screen_y = 0 then screen
  else
    let screen :=
      if screen.screen_x = 0 ∧ screen.screen_y > 0 then
        { screen with screen_x := NUM_COLS - 2, screen_y := screen.screen_y - 1 }
      else
        { screen with screen_x := screen.screen_x - 1 }
    let memory :=
      screen.memory.putCell VIDEO (screen.screen_y * NUM_COLS + screen.screen_x) SPACE
    { screen with memory }.update_cursor screen.screen_x screen.screen_y

/-- `enter`: at the bottom the cursor only returns to column 0. -/
def enter (screen : Screen) : Screen :=
  if screen.screen_y = NUM_ROWS - 1 then
    { screen with screen_x := 0, screen_y := NUM_ROWS - 1 }.update_cursor 0 (NUM_ROWS - 1)
  else
    screen.update_cursor 0 (screen.screen_y + 1)

/-- `scroll_up`. -/
def scroll_up (screen : Screen) : Screen :=
  { screen with memory := screen.memory.scroll VIDEO VIDEO }

/-- `putc_switch`: output on the visible terminal. -/
def putc_switch (screen : Screen) (c : UInt8) : Screen :=
  let screen :=
    if screen.screen_x = NUM_COLS ∧ screen.screen_y < NUM_ROWS - 1 then
      { screen with screen_x := 0, screen_y := screen.screen_y + 1 }
    else
      screen
  let screen :=
    if c = NEWLINE ∨ c = RETURN then
      if screen.screen_y = NUM_ROWS - 1 then
        { screen with screen_x := 0, screen_y := NUM_ROWS - 1 }.scroll_up
      else
        { screen with screen_y := screen.screen_y + 1, screen_x := 0 }
    else
      let memory :=
        screen.memory.putCell VIDEO (NUM_COLS * screen.screen_y + screen.screen_x) c
      let screen := { screen with memory, screen_x := screen.screen_x + 1 }
      if screen.screen_x = NUM_COLS ∧ screen.screen_y = NUM_ROWS - 1 then
        { screen.scroll_up with screen_x := 0, screen_y := NUM_ROWS - 1 }
      else
        screen
  screen.update_cursor screen.screen_x screen.screen_y

end Screen

end ComputerSystem
