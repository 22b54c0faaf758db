import ComputerSystem.Keyboard
import ComputerSystem.LineEditor

/-!
# What a key does to a line buffer

A scan code either changes the modifiers, or edits the line of the terminal on display, or puts
another terminal on display, or does none of these.  `Modifiers.press` reads this off the modifiers
and the code alone, and `show_pressed_key` and `terminal_read` are described on the part of a
terminal that its line is kept in.
-/

namespace ComputerSystem

open CArray LineEditor

/-- What a scan code asks for. -/
inductive Press
  /-- Enter. -/
  | enter
  /-- Backspace. -/
  | backspace
  /-- Alt and a function key: put this terminal on display. -/
  | display (t : Fin 3)
  /-- A key with a character under the current shift and caps lock. -/
  | character (c : UInt8)
  /-- Modifiers, releases, Ctrl-L and keys without a character. -/
  | silent
  deriving DecidableEq

namespace Press

/-- The edit of a line. -/
def edit : Press → Edit UInt8
  | enter => .append NEWLINE
  | backspace => .erase
  | character c => .append c
  | display _ => .keep
  | silent => .keep

/-- Whether the press stores a character. -/
def types : Press → Bool
  | enter => true
  | character _ => true
  | _ => false

/-- The terminal on display afterwards. -/
def visible (cur : Fin 3) : Press → Fin 3
  | display t => t
  | _ => cur

end Press

namespace Modifiers

/-- What a scan code asks for under the current modifiers. -/
def press (keys : Modifiers) (code : UInt8) : Press :=
  if code = 0x1C then .enter
  else if code = 0x0E then .backspace
  else if keys.alt_flag ∧ code = 0x3B then .display 0
  else if keys.alt_flag ∧ code = 0x3C then .display 1
  else if keys.alt_flag ∧ code = 0x3D then .display 2
  else if keys.ctrl_flag ∧ keys.mode = 0 ∧ code = 0x26 then .silent
  else if code.toNat ≥ SCAN_SIZE ∨ scan_code keys.mode code = 0 then .silent
  else .character (scan_code keys.mode code)

/-- The modifiers after a scan code. -/
def after (keys : Modifiers) (code : UInt8) : Modifiers :=
  if code = 0x36 then { keys with right_shift_flag := true }
  else if code = 0x2A then { keys with left_shift_flag := true }
  else if code = 0xAA then { keys with left_shift_flag := false }
  else if code = 0xB6 then { keys with right_shift_flag := false }
  else if code = 0x3A then { keys with caps_flag := !keys.caps_flag }
  else if code = 0x38 then { keys with alt_flag := true }
  else if code = 0xB8 then { keys with alt_flag := false }
  else if code = 0x1D then { keys with ctrl_flag := true }
  else if code = 0x9D then { keys with ctrl_flag := false }
  else keys

/-- The codes that change the modifiers. -/
def codes : List UInt8 := [0x36, 0x2A, 0xAA, 0xB6, 0x3A, 0x38, 0xB8, 0x1D, 0x9D]

theorem mode_lt (keys : Modifiers) : keys.mode < 4 := by
  simp only [mode]
  split_ifs <;> norm_num

theorem mode_eq_zero (keys : Modifiers) :
    keys.mode = 0 ↔ ¬keys.left_shift_flag ∧ ¬keys.right_shift_flag ∧ ¬keys.caps_flag := by
  simp only [mode]
  split_ifs <;> simp_all

theorem after_of_notMem (keys : Modifiers) {code : UInt8} (other : code ∉ codes) :
    keys.after code = keys := by
  simp only [codes, List.mem_cons, List.not_mem_nil, or_false, not_or] at other
  simp [after, other]

theorem scan_code_codes : ∀ code ∈ codes, ∀ mode < 4, scan_code mode code = 0 := by
  decide +kernel

theorem scan_code_enter : ∀ mode < 4, scan_code mode 0x1C = NEWLINE := by decide

theorem scan_code_zero : ∀ mode < 4, scan_code mode 0 = 0 := by decide

theorem scan_code_newline :
    ∀ mode < 4, ∀ code < SCAN_SIZE, code ≠ 0x1C →
      (scan_rows.getD mode []).getD code 0 ≠ NEWLINE := by decide

theorem scan_code_of_character {keys : Modifiers} {code c : UInt8}
    (press_eq : keys.press code = .character c) :
    code ≠ 0x1C ∧ code.toNat < SCAN_SIZE ∧ scan_code keys.mode code = c := by
  simp only [press] at press_eq
  split_ifs at press_eq with enter backspace first second third clearing silent
  cases press_eq
  exact ⟨enter, not_le.mp (not_or.mp silent).1, rfl⟩

theorem character_ne_newline {keys : Modifiers} {code c : UInt8}
    (press_eq : keys.press code = .character c) : c ≠ NEWLINE := by
  obtain ⟨enter, in_table, rfl⟩ := scan_code_of_character press_eq
  refine scan_code_newline _ keys.mode_lt _ in_table ?_
  intro same
  exact enter (UInt8.toNat_inj.mp same)

theorem scan_code_lt :
    ∀ mode < 4, ∀ code < SCAN_SIZE,
      ((scan_rows.getD mode []).getD code 0).toNat < BUF_SIZE := by decide

theorem character_lt {keys : Modifiers} {code c : UInt8}
    (press_eq : keys.press code = .character c) : c.toNat < BUF_SIZE := by
  obtain ⟨-, in_table, rfl⟩ := scan_code_of_character press_eq
  exact scan_code_lt _ keys.mode_lt _ in_table

theorem press_of_mem (keys : Modifiers) {code : UInt8} (modifier : code ∈ codes) :
    keys.press code = .silent := by
  have none := scan_code_codes code modifier keys.mode keys.mode_lt
  simp only [codes, List.mem_cons, List.not_mem_nil, or_false] at modifier
  rcases modifier with rfl | rfl | rfl | rfl | rfl | rfl | rfl | rfl | rfl <;> simp [press, none]

theorem press_of_other (keys : Modifiers) {code : UInt8} (enter : code ≠ 0x1C)
    (backspace : code ≠ 0x0E) (display : ∀ t, keys.press code ≠ .display t) :
    keys.press code =
      if keys.ctrl_flag ∧ keys.mode = 0 ∧ code = 0x26 then .silent
      else if code.toNat ≥ SCAN_SIZE ∨ scan_code keys.mode code = 0 then .silent
      else .character (scan_code keys.mode code) := by
  simp only [press] at display ⊢
  split_ifs at display ⊢ <;> simp_all

end Modifiers

/-- The part of a terminal that its line is kept in. -/
structure LineBuffer where
  /-- `term_buf_arr`. -/
  arr : Fin BUF_SIZE → UInt8
  /-- `term_buf_idx`. -/
  idx : Nat
  /-- `term_enter_flag`. -/
  entered : Bool
  /-- Whether a store into the array used an index past its end. -/
  overrun : Bool

namespace LineBuffer

/-- The line at `terminal_start`. -/
def empty : LineBuffer where
  arr := fun _ => 0
  idx := 0
  entered := false
  overrun := false

/-- The pending characters. -/
def pending (line : LineBuffer) : List UInt8 := contents line.arr line.idx

/-- Store a character at the index, as `Term.storeBuf`. -/
def store (line : LineBuffer) (c : UInt8) : LineBuffer :=
  { line with
    arr := CArray.store line.arr line.idx c
    idx :=
      if BUF_SIZE ≤ line.idx ∧ line.idx < BUF_SIZE + 4 then
        Word.setByte line.idx (line.idx - BUF_SIZE) c
      else
        line.idx
    overrun := line.overrun || decide (BUF_SIZE ≤ line.idx) }

/-- Store a character and count it. -/
def type (line : LineBuffer) (c : UInt8) : LineBuffer :=
  { line.store c with idx := (line.store c).idx + 1 }

/-- What a press does to the line on display. -/
def press (line : LineBuffer) : Press → LineBuffer
  | .enter => { line.store NEWLINE with entered := true }.type NEWLINE
  | .backspace =>
      if line.idx > 0 then { line.store SPACE with idx := (line.store SPACE).idx - 1 } else line
  | .character c => line.type c
  | .display _ => line
  | .silent => line

/-- What a completed read leaves. -/
def clear (line : LineBuffer) : LineBuffer :=
  { line with
    arr := fun k => if k.val < line.idx then SPACE else line.arr k
    idx := 0
    entered := false
    overrun := line.overrun || decide (BUF_SIZE < line.idx) }

theorem store_of_lt (line : LineBuffer) (c : UInt8) (fits : line.idx < BUF_SIZE) :
    line.store c = { line with arr := CArray.store line.arr line.idx c } := by
  simp [store, fits.not_ge]

/-- A store behind the array lands in the index. -/
theorem store_of_full (line : LineBuffer) (c : UInt8) (full : line.idx = BUF_SIZE) :
    line.store c = { line with idx := c.toNat, overrun := true } := by
  obtain ⟨arr, idx, entered, overrun⟩ := line
  change idx = BUF_SIZE at full
  subst full
  have low := Word.setByte_zero_of_lt (show BUF_SIZE < 256 by decide) c
  simp [store, CArray.store_outside arr c (Or.inr le_rfl), low]

/-- Only the characters typed move the index up, and only Backspace moves it down. -/
theorem idx_press (line : LineBuffer) (press : Press) (fits : line.idx < BUF_SIZE) :
    (line.press press).idx =
      if press.types then line.idx + 1
      else if press = .backspace then line.idx - 1
      else line.idx := by
  cases press with
  | enter => simp [LineBuffer.press, type, store_of_lt, fits, Press.types]
  | backspace =>
      simp only [LineBuffer.press, store_of_lt line _ fits, Press.types]
      split_ifs <;> simp_all
  | display t => simp [LineBuffer.press, Press.types]
  | character c => simp [LineBuffer.press, type, store_of_lt, fits, Press.types]
  | silent => simp [LineBuffer.press, Press.types]

theorem overrun_press (line : LineBuffer) (press : Press) (fits : line.idx < BUF_SIZE) :
    (line.press press).overrun = line.overrun := by
  cases press with
  | enter => simp [LineBuffer.press, type, store_of_lt, fits]
  | backspace =>
      simp only [LineBuffer.press, store_of_lt line _ fits]
      split_ifs <;> rfl
  | display t => rfl
  | character c => simp [LineBuffer.press, type, store_of_lt, fits]
  | silent => rfl

theorem entered_press (line : LineBuffer) (press : Press) :
    (line.press press).entered = (line.entered || decide (press = .enter)) := by
  cases press with
  | enter => simp [LineBuffer.press, type, store]
  | backspace =>
      simp only [LineBuffer.press]
      split_ifs <;> simp [store]
  | display t => simp [LineBuffer.press]
  | character c => simp [LineBuffer.press, type, store]
  | silent => simp [LineBuffer.press]

/-- On a line with room, a press is an edit of what is pending. -/
theorem pending_press (line : LineBuffer) (press : Press) (fits : line.idx < BUF_SIZE) :
    (line.press press).pending = press.edit.apply line.pending := by
  have typed (c : UInt8) : (line.type c).pending = line.pending ++ [c] := by
    simpa [type, store_of_lt, fits, pending] using contents_push line.arr c fits
  cases press with
  | enter =>
      simpa [LineBuffer.press, type, store_of_lt, fits, pending, Press.edit, Edit.apply] using
        (contents_push (CArray.store line.arr line.idx NEWLINE) NEWLINE fits).trans
          (congrArg (· ++ [NEWLINE]) (contents_store_of_le line.arr NEWLINE le_rfl))
  | backspace =>
      rw [Press.edit, Edit.apply, pending, pending, ← contents_pred line.arr fits.le]
      by_cases typed : line.idx > 0
      · simp only [LineBuffer.press, if_pos typed, store_of_lt line _ fits]
        exact contents_store_of_le line.arr SPACE (by omega)
      · have zero : line.idx = 0 := by omega
        simp [LineBuffer.press, zero]
  | display t => rfl
  | character c => exact typed c
  | silent => rfl

@[simp]
theorem pending_clear (line : LineBuffer) : line.clear.pending = [] := rfl

end LineBuffer

/-- The line of a terminal. -/
def Term.line (term : Term) : LineBuffer where
  arr := term.term_buf_arr
  idx := term.term_buf_idx
  entered := term.term_enter_flag
  overrun := term.buf_overrun

theorem Term.map_loadBuf (term : Term) (fits : term.term_buf_idx ≤ BUF_SIZE) :
    (List.range term.term_buf_idx).map term.loadBuf = term.line.pending := by
  apply List.ext_getElem?
  intro k
  simp only [LineBuffer.pending, line, contents_getElem?, Nat.min_eq_left fits, List.getElem?_map]
  by_cases inside : k < term.term_buf_idx
  · have in_array : k < BUF_SIZE := inside.trans_le fits
    simp [loadBuf, inside, in_array]
  · simp [inside]

theorem Term.clear_loop (term : Term) (n : Nat) :
    let cleared := (List.range n).foldl (fun term i => term.storeBuf i SPACE) term
    (cleared.term_buf_arr = fun k => if k.val < n then SPACE else term.term_buf_arr k) ∧
      cleared.term_enter_flag = term.term_enter_flag ∧
      cleared.buf_overrun = (term.buf_overrun || decide (BUF_SIZE < n)) := by
  induction n with
  | zero => simp
  | succ n ih =>
      simp only [List.range_succ, List.foldl_append, List.foldl_cons, List.foldl_nil]
      generalize (List.range n).foldl (fun term i => term.storeBuf i SPACE) term = cleared at ih ⊢
      obtain ⟨arr_eq, flag_eq, overrun_eq⟩ := ih
      refine ⟨?_, flag_eq, ?_⟩
      · funext k
        simp only [storeBuf, CArray.store, arr_eq]
        split_ifs <;> first | rfl | omega
      · simp only [storeBuf, overrun_eq, Bool.or_assoc, ← Bool.decide_or]
        congr 2
        simp only [eq_iff_iff]
        omega

theorem Term.line_clearBuf (term : Term) :
    ({ ({ term with term_enter_flag := false }).clearBuf with term_buf_idx := 0 } : Term).line =
      term.line.clear := by
  obtain ⟨arr_eq, flag_eq, overrun_eq⟩ :=
    ({ term with term_enter_flag := false }).clear_loop term.term_buf_idx
  simp only [line, clearBuf, LineBuffer.clear, arr_eq, flag_eq, overrun_eq]
  rfl

end ComputerSystem
