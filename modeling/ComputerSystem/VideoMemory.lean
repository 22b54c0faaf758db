import ComputerSystem.Terminal

/-!
# Drawing, byte by byte

Closed forms of the loops that write video memory, and the drawing step that `putc_switch` and the
background half of `putc` have in common: they differ only in the page they draw on, the page they
scroll from and where they keep the cursor.
-/

namespace ComputerSystem

/-- Bytes of a page that hold cells of the screen. -/
def SCREEN_BYTES : Nat := 2 * (NUM_COLS * NUM_ROWS)

/-- A byte of a blank cell. -/
def blankByte (k : Nat) : UInt8 := if k % 2 = 0 then SPACE else ATTRIB

namespace Memory

theorem poke_apply (memory : Memory) (address : Nat) (byte : UInt8) (a : Nat) :
    memory.poke address byte a = if a = address then byte else memory a :=
  Function.update_apply _ _ _ _

theorem putCell_apply (memory : Memory) (page cell : Nat) (c : UInt8) (a : Nat) :
    memory.putCell page cell c a =
      if a = page + 2 * cell then c
      else if a = page + 2 * cell + 1 then ATTRIB
      else memory a := by
  simp only [putCell, poke_apply]
  split_ifs <;> first | rfl | omega

theorem blank_apply (memory : Memory) (page start count a : Nat) :
    (List.range' start count).foldl (fun memory i => memory.putCell page i SPACE) memory a =
      if page + 2 * start ≤ a ∧ a < page + 2 * (start + count) then blankByte (a - page)
      else memory a := by
  induction count generalizing start memory with
  | zero => simp
  | succ count ih =>
      rw [List.range'_succ, List.foldl_cons, ih, putCell_apply, blankByte]
      split_ifs <;> first | rfl | omega

/-- Moving the first `count` cells from the row below; the source lies at or above the target, or
ends below it. -/
theorem move_apply (memory : Memory) {dest src : Nat}
    (apart : dest ≤ src ∨ src + SCREEN_BYTES ≤ dest) {count : Nat} (inside : count ≤ 1920)
    (a : Nat) :
    (List.range count).foldl
      (fun memory i =>
        (memory.poke (dest + 2 * i) (memory (src + 2 * (i + NUM_COLS)))).poke (dest + 2 * i + 1)
          (memory.poke (dest + 2 * i) (memory (src + 2 * (i + NUM_COLS)))
            (src + 2 * (i + NUM_COLS) + 1)))
      memory a =
      if dest ≤ a ∧ a < dest + 2 * count then memory (src + 160 + (a - dest)) else memory a := by
  simp only [SCREEN_BYTES, NUM_COLS, NUM_ROWS] at apart ⊢
  induction count generalizing a with
  | zero => simp
  | succ count ih =>
      have moved_apply := ih (by omega)
      rw [List.range_succ, List.foldl_append, List.foldl_cons, List.foldl_nil]
      generalize List.foldl _ memory (List.range count) = moved at moved_apply ⊢
      simp only [poke_apply, moved_apply]
      split_ifs <;> first | omega | exact congrArg memory (by omega)

/-- Scrolling moves the 24 lower rows of the source up and blanks the last row. -/
theorem scroll_apply (memory : Memory) {dest src : Nat}
    (apart : dest ≤ src ∨ src + SCREEN_BYTES ≤ dest) (a : Nat) :
    memory.scroll dest src a =
      if dest ≤ a ∧ a < dest + SCREEN_BYTES then
        if a < dest + 3840 then memory (src + 160 + (a - dest)) else blankByte (a - dest)
      else memory a := by
  have rows : (NUM_ROWS - 1) * NUM_COLS = 1920 := rfl
  have row : NUM_COLS = 80 := rfl
  have bytes : SCREEN_BYTES = 4000 := rfl
  simp only [scroll]
  rw [blank_apply, move_apply memory apart rows.le]
  split_ifs <;> first | rfl | omega

end Memory

/-! ## One character -/

/-- The row and column that a deferred wrap leads to. -/
def wrap_cursor (x y : Nat) : Nat × Nat :=
  if x = NUM_COLS ∧ y < NUM_ROWS - 1 then (0, y + 1) else (x, y)

/-- The cursor after a character. -/
def draw_cursor (x y : Nat) (c : UInt8) : Nat × Nat :=
  let (x, y) := wrap_cursor x y
  if c = NEWLINE ∨ c = RETURN then
    if y = NUM_ROWS - 1 then (0, NUM_ROWS - 1) else (0, y + 1)
  else if x + 1 = NUM_COLS ∧ y = NUM_ROWS - 1 then (0, NUM_ROWS - 1)
  else (x + 1, y)

/-- Memory after a character drawn on page `dest`, which scrolls from page `src`. -/
def draw_memory (memory : Memory) (dest src : Nat) (x y : Nat) (c : UInt8) : Memory :=
  let (x, y) := wrap_cursor x y
  if c = NEWLINE ∨ c = RETURN then
    if y = NUM_ROWS - 1 then memory.scroll dest src else memory
  else
    let memory := memory.putCell dest (NUM_COLS * y + x) c
    if x + 1 = NUM_COLS ∧ y = NUM_ROWS - 1 then memory.scroll dest src else memory

theorem Screen.putc_switch_eq (screen : Screen) (c : UInt8) :
    screen.putc_switch c =
      { screen with
        memory := draw_memory screen.memory VIDEO VIDEO screen.screen_x screen.screen_y c
        }.update_cursor (draw_cursor screen.screen_x screen.screen_y c).1
          (draw_cursor screen.screen_x screen.screen_y c).2 := by
  simp only [putc_switch, draw_memory, draw_cursor, wrap_cursor]
  split_ifs <;> simp_all [update_cursor, scroll_up]

theorem Console.putc_background_eq (console : Console) (background : Fin 3) (c : UInt8) :
    let term := console.term background
    let cursor := draw_cursor term.term_screen_x term.term_screen_y c
    console.putc_background background c =
      { console.modifyTerm background fun term =>
          { term with term_screen_x := cursor.1, term_screen_y := cursor.2 } with
        screen := { console.screen with
          memory := draw_memory console.screen.memory term.video_mem
            (console.term console.cur_term_idx).video_mem term.term_screen_x term.term_screen_y
            c } } := by
  have kept (term : Term) (kept : term.video_mem = (console.term background).video_mem)
      (t : Fin 3) :
      (Function.update console.term background term t).video_mem = (console.term t).video_mem := by
    rcases eq_or_ne t background with rfl | other
    · rw [Function.update_self, kept]
    · rw [Function.update_of_ne other]
  simp only [putc_background, draw_memory, draw_cursor, wrap_cursor]
  split_ifs <;> simp_all [modifyTerm, scroll_up_switch]

end ComputerSystem
