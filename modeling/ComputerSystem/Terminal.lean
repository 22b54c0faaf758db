import ComputerSystem.CArray
import ComputerSystem.Screen
import ComputerSystem.Word

/-!
# Terminals

The terminal structures, the switch between them, terminal output and `terminal_read`.  The reader
spins on the enter flag of the terminal on display, so a read that does not find the flag set is
not a step.
-/

namespace ComputerSystem

open CArray

/-- `BUF_SIZE`. -/
def BUF_SIZE : Nat := 128

/-- Terminals are named by literals. -/
instance terminal_neZero : NeZero 3 := ⟨three_ne_zero⟩

/-- `term_struct_t`. -/
structure Term where
  /-- Characters of the line being typed and of the lines not read yet. -/
  term_buf_arr : Fin BUF_SIZE → UInt8
  /-- How many of them there are. -/
  term_buf_idx : Nat
  /-- Saved cursor column. -/
  term_screen_x : Nat
  /-- Saved cursor row. -/
  term_screen_y : Nat
  /-- Whether Enter was pressed since the last read. -/
  term_enter_flag : Bool
  /-- Address of the saved page. -/
  video_mem : Nat
  /-- Current process of the terminal. -/
  pcb_idx : Int
  /-- Not in the source: whether a store into `term_buf_arr` since `terminal_start` used an index
  past its end. -/
  buf_overrun : Bool

namespace Term

/-- `term_buf_arr[index] = c`.  The four bytes behind the array are `term_buf_idx`. -/
def storeBuf (term : Term) (index : Nat) (c : UInt8) : Term :=
  { term with
    term_buf_arr := store term.term_buf_arr index c
    term_buf_idx :=
      if BUF_SIZE ≤ index ∧ index < BUF_SIZE + 4 then
        Word.setByte term.term_buf_idx (index - BUF_SIZE) c
      else
        term.term_buf_idx
    buf_overrun := term.buf_overrun || decide (BUF_SIZE ≤ index) }

/-- `term_buf_arr[index]`; what lies past the array reads as 0. -/
def loadBuf (term : Term) (index : Nat) : UInt8 :=
  if inside : index < BUF_SIZE then term.term_buf_arr ⟨index, inside⟩ else 0

/-- The pending characters: `term_buf_arr[0..term_buf_idx)`. -/
def pending (term : Term) : List UInt8 := contents term.term_buf_arr term.term_buf_idx

/-- The clearing loop of `terminal_read`. -/
def clearBuf (term : Term) : Term :=
  (List.range term.term_buf_idx).foldl (fun term i => term.storeBuf i SPACE) term

end Term

/-- The terminals, which of them is on display, and the screen. -/
structure Console where
  /-- `term`. -/
  term : Fin 3 → Term
  /-- The terminal on display. -/
  cur_term_idx : Fin 3
  /-- The terminal of the running process; -1 before the first tick is `none`. -/
  background_terminal : Option (Fin 3)
  /-- The screen. -/
  screen : Screen
  /-- Not in the source: whether any store into `term` used an index past its end. -/
  term_overrun : Bool

namespace Console

/-- Zeroed terminals and screen. -/
def boot : Console where
  term := fun _ =>
    { term_buf_arr := fun _ => 0
      term_buf_idx := 0
      term_screen_x := 0
      term_screen_y := 0
      term_enter_flag := false
      video_mem := 0
      pcb_idx := 0
      buf_overrun := false }
  cur_term_idx := 0
  background_terminal := none
  screen := { memory := fun _ => 0, screen_x := 0, screen_y := 0, cursor := some 0 }
  term_overrun := false

/-- Change one terminal structure. -/
def modifyTerm (console : Console) (t : Fin 3) (f : Term → Term) : Console :=
  { console with term := Function.update console.term t (f (console.term t)) }

/-- `term[index].pcb_idx = pid`.  Past the array the store is only marked; `StrayStores` says where
it goes and when it hits nothing. -/
def storePcbIdx (console : Console) (index : Nat) (pid : Int) : Console :=
  { console with
    term := fun t =>
      if t.val = index then { console.term t with pcb_idx := pid } else console.term t
    term_overrun := console.term_overrun || decide (3 ≤ index) }

/-- `terminal_start`. -/
def terminal_start (console : Console) : Console :=
  { console with
    cur_term_idx := 0
    term := fun t =>
      { console.term t with
        term_screen_x := 0
        term_screen_y := 0
        term_buf_arr := fun _ => 0
        term_buf_idx := 0
        term_enter_flag := false
        pcb_idx := 0
        buf_overrun := false
        video_mem := ![0xB9000, 0xBA000, 0xBB000] t } }

/-- `terminal_save`. -/
def terminal_save (console : Console) (term_idx : Fin 3) : Console :=
  let console := { console with cur_term_idx := term_idx }
  let console := console.modifyTerm term_idx fun term =>
    { term with
      term_screen_x := console.screen.screen_x
      term_screen_y := console.screen.screen_y }
  { console with
    screen := { console.screen with
      memory := console.screen.memory.copy (console.term term_idx).video_mem VIDEO 4096 } }

/-- `terminal_load`. -/
def terminal_load (console : Console) (term_idx : Fin 3) : Console :=
  let console := { console with cur_term_idx := term_idx }
  let term := console.term term_idx
  let screen := console.screen.update_cursor term.term_screen_x term.term_screen_y
  { console with
    screen := { screen with memory := screen.memory.copy VIDEO term.video_mem 4096 } }

/-- `terminal_switch`. -/
def terminal_switch (console : Console) (term_prev term_cur : Fin 3) : Console :=
  (console.terminal_save term_prev).terminal_load term_cur

/-- `scroll_up_switch`: the rows come from the page of the terminal on display. -/
def scroll_up_switch (console : Console) (background : Fin 3) : Console :=
  { console with
    screen := { console.screen with
      memory := console.screen.memory.scroll (console.term background).video_mem
        (console.term console.cur_term_idx).video_mem } }

/-- The part of `putc` for a terminal that is not on display. -/
def putc_background (console : Console) (background : Fin 3) (c : UInt8) : Console :=
  let at_x (x : Nat) (console : Console) : Console :=
    console.modifyTerm background fun term => { term with term_screen_x := x }
  let at_xy (x y : Nat) (console : Console) : Console :=
    console.modifyTerm background fun term => { term with term_screen_x := x, term_screen_y := y }
  let term := console.term background
  let console :=
    if term.term_screen_x = NUM_COLS ∧ term.term_screen_y < NUM_ROWS - 1 then
      at_xy 0 (term.term_screen_y + 1) console
    else
      console
  let term := console.term background
  if c = NEWLINE ∨ c = RETURN then
    if term.term_screen_y = NUM_ROWS - 1 then
      (at_xy 0 (NUM_ROWS - 1) console).scroll_up_switch background
    else
      at_xy 0 (term.term_screen_y + 1) console
  else
    let cell := NUM_COLS * term.term_screen_y + term.term_screen_x
    let console := { console with
      screen := { console.screen with
        memory := console.screen.memory.putCell term.video_mem cell c } }
    let console := at_x (term.term_screen_x + 1) console
    let term := console.term background
    if term.term_screen_x = NUM_COLS ∧ term.term_screen_y = NUM_ROWS - 1 then
      at_xy 0 (NUM_ROWS - 1) (console.scroll_up_switch background)
    else
      console

/-- `putc`.  With `background_terminal` still -1 it writes through `term[-1]`, outside everything
modelled here. -/
def putc (console : Console) (c : UInt8) : Console :=
  match console.background_terminal with
  | none => console
  | some background =>
      if console.cur_term_idx = background then
        { console with screen := console.screen.putc_switch c }
      else
        console.putc_background background c

/-- `puts`, and `printf` of a text without conversions. -/
def puts (console : Console) (s : List UInt8) : Console := s.foldl putc console

/-- `terminal_write`. -/
def terminal_write (console : Console) (buf : List UInt8) (nbytes : Int) : Int × Console :=
  (nbytes, (List.range nbytes.toNat).foldl (fun console i => console.putc (buf.getD i 0)) console)

/-- `terminal_read`: the result, the bytes stored from `buf[0]` on and the console afterwards;
`none` while the reader spins. -/
def terminal_read (console : Console) (buf_null : Bool) : Option (Int × List UInt8 × Console) :=
  if buf_null then some (-1, [], console)
  else
    let term := console.term console.cur_term_idx
    if term.term_enter_flag = false then none
    else
      let copied := (List.range term.term_buf_idx).map term.loadBuf
      let console := console.modifyTerm console.cur_term_idx fun term =>
        { ({ term with term_enter_flag := false }).clearBuf with term_buf_idx := 0 }
      some (term.term_buf_idx, copied, console)

end Console

end ComputerSystem
