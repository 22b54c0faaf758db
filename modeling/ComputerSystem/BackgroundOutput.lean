import ComputerSystem.Teletype
import ComputerSystem.VirtualScreen

/-!
# Output of a terminal that is not on display

A text goes to a saved page through `putc` and to the video page through `putc_switch`.  Both type
it on the same unbounded sheet.  The visible screen shows the last lines of that sheet; the saved
page loses its upper lines to those of another terminal as soon as it scrolls.
-/

namespace ComputerSystem

open Teletype

/-- A character and its attribute. -/
abbrev Cell := UInt8 × UInt8

/-- The cell that scrolling leaves behind. -/
def blankCell : Cell := (SPACE, ATTRIB)

/-- What a character puts on the sheet. -/
def glyph (c : UInt8) : Option Cell :=
  if c = NEWLINE ∨ c = RETURN then none else some (c, ATTRIB)

namespace Memory

/-- A cell of a page. -/
def cellAt (memory : Memory) (page r c : Nat) : Cell :=
  (memory (page + 2 * (NUM_COLS * r + c)), memory (page + 2 * (NUM_COLS * r + c) + 1))

theorem cellAt_congr {first second : Memory} {page other r c : Nat}
    (same : ∀ k, k < SCREEN_BYTES → first (page + k) = second (other + k)) (row : r < NUM_ROWS)
    (column : c < NUM_COLS) : first.cellAt page r c = second.cellAt other r c := by
  have low := same (2 * (NUM_COLS * r + c)) (by
    simp only [SCREEN_BYTES, NUM_COLS, NUM_ROWS] at *
    omega)
  have high := same (2 * (NUM_COLS * r + c) + 1) (by
    simp only [SCREEN_BYTES, NUM_COLS, NUM_ROWS] at *
    omega)
  rw [cellAt, cellAt, low, Nat.add_assoc, high, ← Nat.add_assoc]

theorem bytes_of_cellAt {first second : Memory} {page other : Nat}
    (same : ∀ r < NUM_ROWS, ∀ c < NUM_COLS, first.cellAt page r c = second.cellAt other r c)
    {k : Nat} (inside : k < SCREEN_BYTES) : first (page + k) = second (other + k) := by
  simp only [SCREEN_BYTES, NUM_COLS, NUM_ROWS] at *
  have cell := same (k / 160) (by omega) (k / 2 % 80) (by omega)
  simp only [cellAt, NUM_COLS, Prod.mk.injEq] at cell
  rcases Nat.mod_two_eq_zero_or_one k with even | odd
  · rw [show k = 2 * (80 * (k / 160) + k / 2 % 80) by omega]
    exact cell.1
  · rw [show k = 2 * (80 * (k / 160) + k / 2 % 80) + 1 by omega, ← Nat.add_assoc, ← Nat.add_assoc]
    exact cell.2

theorem cellAt_putCell (memory : Memory) (page : Nat) {x r c : Nat} (y : Nat) (ch : UInt8)
    (x_lt : x < NUM_COLS) (column : c < NUM_COLS) :
    (memory.putCell page (NUM_COLS * y + x) ch).cellAt page r c =
      if r = y ∧ c = x then (ch, ATTRIB) else memory.cellAt page r c := by
  by_cases same : r = y ∧ c = x
  · obtain ⟨rfl, rfl⟩ := same
    simp [cellAt, putCell_apply]
  · have apart : NUM_COLS * r + c ≠ NUM_COLS * y + x := by
      rw [NUM_COLS] at *
      omega
    rw [if_neg same, cellAt, putCell_apply, putCell_apply, if_neg (by omega), if_neg (by omega),
      if_neg (by omega), if_neg (by omega), cellAt]

theorem cellAt_scroll (memory : Memory) {dest src r c : Nat}
    (apart : dest ≤ src ∨ src + SCREEN_BYTES ≤ dest) (row : r < NUM_ROWS) (column : c < NUM_COLS) :
    (memory.scroll dest src).cellAt dest r c =
      if r < NUM_ROWS - 1 then memory.cellAt src (r + 1) c else blankCell := by
  have bytes : SCREEN_BYTES = 4000 := rfl
  have offset : NUM_COLS * r + c < 2000 ∧ (NUM_COLS * r + c < 1920 ↔ r < NUM_ROWS - 1) := by
    simp only [NUM_COLS, NUM_ROWS] at *
    omega
  have next : NUM_COLS * (r + 1) + c = NUM_COLS * r + c + 80 := by
    rw [NUM_COLS]
    omega
  rw [cellAt, cellAt, next]
  generalize NUM_COLS * r + c = cell at offset
  have inside (e : Nat) (parity : e < 2) :
      memory.scroll dest src (dest + (2 * cell + e)) =
        if cell < 1920 then memory (src + (2 * (cell + 80) + e)) else blankByte (2 * cell + e) := by
    rw [scroll_apply memory apart, if_pos (by omega), Nat.add_sub_cancel_left]
    split_ifs <;> first | omega | exact congrArg memory (by omega) | rfl
  rw [Nat.add_assoc, inside 1 one_lt_two, ← Nat.add_zero (2 * cell), inside 0 two_pos]
  by_cases upper : r < NUM_ROWS - 1
  · rw [if_pos upper, if_pos (offset.2.mpr upper), if_pos (offset.2.mpr upper)]
    rfl
  · have last_row := mt offset.2.mp upper
    rw [if_neg upper, if_neg last_row, if_neg last_row, blankByte, blankByte, if_pos (by omega),
      if_neg (by omega), blankCell]

end Memory

/-! ## Typing on a sheet -/

/-- The sheet that begins with a page and continues below it with blanks. -/
def sheetOf (memory : Memory) (page : Nat) {x y : Nat} (on_screen : OnScreen x y) :
    Sheet NUM_COLS Cell where
  cells r c := if r < NUM_ROWS then memory.cellAt page r c else blankCell
  row := (wrap_cursor x y).2
  column := (wrap_cursor x y).1
  column_lt := on_screen.wrap.1

/-- A cursor on the screen is the place of the next mark on the sheet. -/
structure Tracks (sheet : Sheet NUM_COLS Cell) (x y : Nat) : Prop where
  /-- The cursor is on the screen. -/
  on_screen : OnScreen x y
  /-- The column of the next mark. -/
  column : sheet.column = (wrap_cursor x y).1
  /-- Its row in the window. -/
  row : sheet.row = sheet.top NUM_ROWS + (wrap_cursor x y).2

/-- Whether a character scrolls a window whose last row the sheet has reached. -/
def Scrolls (sheet : Sheet NUM_COLS Cell) (c : UInt8) : Prop :=
  sheet.EndsLine (glyph c) ∧ NUM_ROWS ≤ sheet.row + 1

instance (sheet : Sheet NUM_COLS Cell) (c : UInt8) : Decidable (Scrolls sheet c) :=
  inferInstanceAs (Decidable (_ ∧ _))

theorem top_feed_glyph (sheet : Sheet NUM_COLS Cell) (c : UInt8) :
    (sheet.feed (glyph c)).top NUM_ROWS =
      if Scrolls sheet c then sheet.top NUM_ROWS + 1 else sheet.top NUM_ROWS :=
  sheet.top_feed NUM_ROWS (glyph c)

/-- The sheet has reached the last row of the window when the cursor has. -/
theorem Tracks.bottom_iff {sheet : Sheet NUM_COLS Cell} {x y : Nat} (tracks : Tracks sheet x y) :
    NUM_ROWS ≤ sheet.row + 1 ↔ (wrap_cursor x y).2 = NUM_ROWS - 1 := by
  have row_eq := tracks.row
  have inside := tracks.on_screen.wrap.2
  simp only [Sheet.top, NUM_ROWS] at *
  omega

theorem Tracks.top_eq_zero {sheet : Sheet NUM_COLS Cell} {x y : Nat} (tracks : Tracks sheet x y)
    (above : (wrap_cursor x y).2 ≠ NUM_ROWS - 1) : sheet.top NUM_ROWS = 0 := by
  have not_full := mt tracks.bottom_iff.mp above
  rw [Sheet.top]
  omega

theorem Tracks.ends_line_iff {sheet : Sheet NUM_COLS Cell} {x y : Nat} (tracks : Tracks sheet x y)
    (c : UInt8) : sheet.EndsLine (glyph c) ↔
      (c = NEWLINE ∨ c = RETURN) ∨ (wrap_cursor x y).1 + 1 = NUM_COLS := by
  rw [glyph, ← tracks.column]
  split_ifs with line
  · exact iff_of_true trivial (Or.inl line)
  · rw [or_iff_right line]
    rfl

theorem wrap_draw_cursor {x y : Nat} (on_screen : OnScreen x y) (c : UInt8) :
    wrap_cursor (draw_cursor x y c).1 (draw_cursor x y c).2 =
      if (c = NEWLINE ∨ c = RETURN) ∨ (wrap_cursor x y).1 + 1 = NUM_COLS then
        (0, if (wrap_cursor x y).2 = NUM_ROWS - 1 then NUM_ROWS - 1 else (wrap_cursor x y).2 + 1)
      else ((wrap_cursor x y).1 + 1, (wrap_cursor x y).2) := by
  have home (y : Nat) : wrap_cursor 0 y = (0, y) := if_neg fun deferral => nomatch deferral.1
  obtain ⟨-, y_le⟩ := on_screen.wrap
  simp only [draw_cursor]
  by_cases line : c = NEWLINE ∨ c = RETURN
  · rw [if_pos line, if_pos (Or.inl line)]
    split_ifs
    · exact home _
    · exact home _
  · simp only [line, if_false, false_or]
    by_cases full : (wrap_cursor x y).1 + 1 = NUM_COLS
    · rw [if_pos full]
      by_cases bottom : (wrap_cursor x y).2 = NUM_ROWS - 1
      · rw [if_pos ⟨full, bottom⟩, if_pos bottom]
        exact home _
      · rw [if_neg fun both => bottom both.2, if_neg bottom]
        exact if_pos ⟨full, lt_of_le_of_ne y_le bottom⟩
    · rw [if_neg fun both => full both.1, if_neg full]
      exact if_neg fun deferral => full deferral.1

theorem Tracks.draw {sheet : Sheet NUM_COLS Cell} {x y : Nat} (tracks : Tracks sheet x y)
    (c : UInt8) :
    Tracks (sheet.feed (glyph c)) (draw_cursor x y c).1 (draw_cursor x y c).2 := by
  have moved := sheet.top_feed NUM_ROWS (glyph c)
  have wrapped := wrap_draw_cursor tracks.on_screen c
  simp only [tracks.bottom_iff] at moved
  simp only [← tracks.ends_line_iff] at wrapped
  have next := tracks.on_screen.draw_cursor c
  have row_eq := tracks.row
  have first_rows := tracks.top_eq_zero
  by_cases ends : sheet.EndsLine (glyph c)
  · obtain ⟨row_next, column_next⟩ := Sheet.feed_ends ends
    rw [if_pos ends] at wrapped
    refine ⟨next, by rw [column_next, wrapped], ?_⟩
    rw [row_next, row_eq, wrapped, moved]
    by_cases bottom : (wrap_cursor x y).2 = NUM_ROWS - 1
    · rw [if_pos ⟨ends, bottom⟩, if_pos bottom, bottom]
      omega
    · rw [if_neg fun both => bottom both.2, if_neg bottom]
      omega
  · obtain ⟨row_next, column_next⟩ := Sheet.feed_continues ends
    rw [if_neg ends] at wrapped
    refine ⟨next, by rw [column_next, wrapped, tracks.column], ?_⟩
    rw [row_next, row_eq, wrapped, moved, if_neg fun both => ends both.1]

/-! ## The two pages -/

/-- The page shows the window of the sheet. -/
def Shows (sheet : Sheet NUM_COLS Cell) (memory : Memory) (page : Nat) : Prop :=
  ∀ r < NUM_ROWS, ∀ c < NUM_COLS,
    memory.cellAt page r c = sheet.cells (sheet.top NUM_ROWS + r) c

/-- The page shows the window of the sheet, but when the sheet is past the window its upper rows are
the lower ones of another page. -/
def ShowsBehind (lower : Nat → Nat → Cell) (sheet : Sheet NUM_COLS Cell) (memory : Memory)
    (page : Nat) : Prop :=
  ∀ r < NUM_ROWS, ∀ c < NUM_COLS,
    memory.cellAt page r c =
      if sheet.top NUM_ROWS = 0 ∨ r = NUM_ROWS - 1 then sheet.cells (sheet.top NUM_ROWS + r) c
      else lower (r + 1) c

/-- The memory in which the character stands and nothing has scrolled yet. -/
def type_memory (memory : Memory) (page : Nat) (x y : Nat) (c : UInt8) : Memory :=
  if c = NEWLINE ∨ c = RETURN then memory
  else memory.putCell page (NUM_COLS * (wrap_cursor x y).2 + (wrap_cursor x y).1) c

theorem Tracks.draw_memory_eq {sheet : Sheet NUM_COLS Cell} {x y : Nat} (tracks : Tracks sheet x y)
    (memory : Memory) (dest src : Nat) (c : UInt8) :
    draw_memory memory dest src x y c =
      if Scrolls sheet c then (type_memory memory dest x y c).scroll dest src
      else type_memory memory dest x y c := by
  simp only [Scrolls, tracks.ends_line_iff, tracks.bottom_iff, draw_memory, type_memory]
  by_cases line : c = NEWLINE ∨ c = RETURN
  · simp [line]
  · simp only [line, if_false, false_or]

/-- In the window the character stands where it stands on the sheet. -/
theorem Tracks.cellAt_type {sheet : Sheet NUM_COLS Cell} {x y : Nat} (tracks : Tracks sheet x y)
    (memory : Memory) (page : Nat) (ch : UInt8) {r c : Nat} (column : c < NUM_COLS) :
    (type_memory memory page x y ch).cellAt page r c =
      if sheet.top NUM_ROWS + r = sheet.row ∧ c = sheet.column ∧ glyph ch ≠ none then (ch, ATTRIB)
      else memory.cellAt page r c := by
  have x_lt := tracks.on_screen.wrap.1
  have row_iff : sheet.top NUM_ROWS + r = sheet.row ↔ r = (wrap_cursor x y).2 := by
    rw [tracks.row]
    omega
  simp only [row_iff, tracks.column, type_memory, glyph]
  by_cases line : ch = NEWLINE ∨ ch = RETURN
  · simp [line]
  · simp [line, Memory.cellAt_putCell memory page _ ch x_lt column]

theorem feed_glyph_cells (sheet : Sheet NUM_COLS Cell) (ch : UInt8) (r c : Nat) :
    (sheet.feed (glyph ch)).cells r c =
      if r = sheet.row ∧ c = sheet.column ∧ glyph ch ≠ none then (ch, ATTRIB)
      else sheet.cells r c := by
  rw [glyph]
  by_cases line : ch = NEWLINE ∨ ch = RETURN
  · simp [line]
  · simp [line, Sheet.feed_some_cells]

/-- The visible screen goes on showing the window. -/
theorem Shows.draw {sheet : Sheet NUM_COLS Cell} {memory : Memory} {page x y : Nat}
    (shows_window : Shows sheet memory page) (tracks : Tracks sheet x y)
    (below : sheet.BlankBelow NUM_ROWS blankCell) (ch : UInt8) :
    Shows (sheet.feed (glyph ch)) (draw_memory memory page page x y ch) page := by
  have typed (r : Nat) (row : r < NUM_ROWS) (c : Nat) (column : c < NUM_COLS) :
      (type_memory memory page x y ch).cellAt page r c =
        (sheet.feed (glyph ch)).cells (sheet.top NUM_ROWS + r) c := by
    rw [tracks.cellAt_type memory page ch column, feed_glyph_cells, shows_window r row c column]
  intro r row c column
  rw [tracks.draw_memory_eq, top_feed_glyph]
  by_cases scrolls : Scrolls sheet ch
  · rw [if_pos scrolls, if_pos scrolls, Memory.cellAt_scroll _ (Or.inl le_rfl) row column]
    split_ifs with upper
    · rw [typed (r + 1) (by omega) c column, Nat.add_right_comm, Nat.add_assoc]
    · rw [show sheet.top NUM_ROWS + 1 + r = sheet.top NUM_ROWS + NUM_ROWS by omega]
      exact (below.feed_next (glyph ch) c).symm
  · rw [if_neg scrolls, if_neg scrolls, typed r row c column]

/-- The saved page scrolls from the other one. -/
theorem ShowsBehind.draw {lower : Nat → Nat → Cell} {sheet : Sheet NUM_COLS Cell} {memory : Memory}
    {dest src x y : Nat} (behind : ShowsBehind lower sheet memory dest) (tracks : Tracks sheet x y)
    (below : sheet.BlankBelow NUM_ROWS blankCell)
    (apart : dest + SCREEN_BYTES ≤ src ∨ src + SCREEN_BYTES ≤ dest)
    (source : ∀ r < NUM_ROWS, ∀ c < NUM_COLS, memory.cellAt src r c = lower r c) (ch : UInt8) :
    ShowsBehind lower (sheet.feed (glyph ch)) (draw_memory memory dest src x y ch) dest := by
  obtain ⟨x_lt, y_le⟩ := tracks.on_screen.wrap
  have typed_source (r : Nat) (row : r < NUM_ROWS) (c : Nat) (column : c < NUM_COLS) :
      (type_memory memory dest x y ch).cellAt src r c = lower r c := by
    rw [← source r row c column]
    refine Memory.cellAt_congr (fun k inside => ?_) row column
    rw [type_memory]
    split_ifs
    · rfl
    · simp only [SCREEN_BYTES, NUM_COLS, NUM_ROWS] at *
      rw [Memory.putCell_apply, if_neg (by omega), if_neg (by omega)]
  intro r row c column
  rw [tracks.draw_memory_eq, top_feed_glyph]
  by_cases scrolls : Scrolls sheet ch
  · rw [if_pos scrolls, if_pos scrolls, Memory.cellAt_scroll _ (by omega) row column]
    by_cases upper : r < NUM_ROWS - 1
    · have inner : ¬(sheet.top NUM_ROWS + 1 = 0 ∨ r = NUM_ROWS - 1) := by omega
      rw [if_pos upper, if_neg inner, typed_source (r + 1) (by omega) c column]
    · have last : r = NUM_ROWS - 1 := by omega
      rw [if_neg upper, if_pos (Or.inr last)]
      rw [show sheet.top NUM_ROWS + 1 + r = sheet.top NUM_ROWS + NUM_ROWS by omega]
      exact (below.feed_next (glyph ch) c).symm
  · rw [if_neg scrolls, if_neg scrolls, tracks.cellAt_type memory dest ch column,
      feed_glyph_cells, behind r row c column]
    by_cases shown : sheet.top NUM_ROWS = 0 ∨ r = NUM_ROWS - 1
    · rw [if_pos shown, if_pos shown]
    · rw [if_neg shown, if_neg shown, if_neg]
      -- past the window the marks go to the last row
      rintro ⟨same_row, -⟩
      rw [not_or] at shown
      have bottom := not_imp_comm.mp tracks.top_eq_zero shown.1
      have row_eq := tracks.row
      omega

/-! ## A text on both pages -/

/-- A terminal in the background beside a screen that shows the same text. -/
structure Mirror (lower : Nat → Nat → Cell) (background : Fin 3) (sheet : Sheet NUM_COLS Cell)
    (console : Console) (screen : Screen) : Prop where
  /-- The terminals are set up. -/
  laid : console.Laid
  /-- The terminal is in the background. -/
  hidden : background ≠ console.cur_term_idx
  /-- Output goes to it. -/
  selected : console.background_terminal = some background
  /-- The cursors have the same column. -/
  x : (console.term background).term_screen_x = screen.screen_x
  /-- The cursors have the same row. -/
  y : (console.term background).term_screen_y = screen.screen_y
  /-- They stand where the next mark goes. -/
  tracks : Tracks sheet screen.screen_x screen.screen_y
  /-- Below the window the sheet is blank. -/
  below : sheet.BlankBelow NUM_ROWS blankCell
  /-- The page on display holds the rows that come from below. -/
  source : ∀ r < NUM_ROWS, ∀ c < NUM_COLS, console.screen.memory.cellAt
    (console.term console.cur_term_idx).video_mem r c = lower r c
  /-- The page of the terminal shows what output has made of it. -/
  behind : ShowsBehind lower sheet console.screen.memory (console.term background).video_mem
  /-- The screen shows the window. -/
  shows_window : Shows sheet screen.memory VIDEO
  /-- Behind the cells the two pages are the same. -/
  tail : ∀ k, SCREEN_BYTES ≤ k → k < 4096 →
    console.screen.memory ((console.term background).video_mem + k) = screen.memory (VIDEO + k)

theorem Mirror.putc {lower : Nat → Nat → Cell} {background : Fin 3} {sheet : Sheet NUM_COLS Cell}
    {console : Console} {screen : Screen} (mirror : Mirror lower background sheet console screen)
    (ch : UInt8) :
    Mirror lower background (sheet.feed (glyph ch)) (console.putc ch) (screen.putc_switch ch) := by
  have laid := mirror.laid
  have hidden := mirror.hidden
  have tracks := mirror.tracks
  have draws := laid.putc_background hidden ch
  have drawn := Screen.drawn_putc_switch tracks.on_screen ch
  have page_eq : console.page background = (console.term background).video_mem := if_neg hidden
  have video_mem := console.putc_background_video_mem background ch
  have apart := laid.saved_apart hidden
  have bytes : SCREEN_BYTES = 4000 := rfl
  have putc_eq : console.putc ch = console.putc_background background ch := by
    simp only [Console.putc, mirror.selected, if_neg hidden.symm]
  rw [putc_eq]
  refine
    { laid := draws.laid
      hidden := ?_
      selected := ?_
      x := ?_
      y := ?_
      tracks := ?_
      below := mirror.below.feed (glyph ch)
      source := fun r row c column => ?_
      behind := ?_
      shows_window := ?_
      tail := fun k past inside => ?_ }
  · rw [draws.cur_term_idx]
    exact hidden
  · rw [Console.putc_background_eq]
    exact mirror.selected
  · rw [Console.putc_background_eq, Screen.putc_switch_eq, mirror.x, mirror.y]
    simp [Console.modifyTerm, Screen.update_cursor]
  · rw [Console.putc_background_eq, Screen.putc_switch_eq, mirror.x, mirror.y]
    simp [Console.modifyTerm, Screen.update_cursor]
  · rw [Screen.putc_switch_eq]
    exact tracks.draw ch
  · rw [draws.cur_term_idx, video_mem, ← mirror.source r row c column]
    refine Memory.cellAt_congr (fun k inside => ?_) row column
    apply draws.memory
    rw [page_eq]
    omega
  · rw [video_mem, Console.putc_background_eq, mirror.x, mirror.y]
    exact mirror.behind.draw tracks mirror.below (by omega) mirror.source ch
  · rw [Screen.putc_switch_eq]
    exact mirror.shows_window.draw tracks mirror.below ch
  · rw [video_mem, draws.memory, drawn.memory, mirror.tail k past inside]
    · omega
    · rw [page_eq]
      omega

theorem Mirror.puts {lower : Nat → Nat → Cell} {background : Fin 3} {sheet : Sheet NUM_COLS Cell}
    {console : Console} {screen : Screen} (mirror : Mirror lower background sheet console screen)
    (s : List UInt8) :
    Mirror lower background (sheet.type (s.map glyph)) (console.puts s)
      (s.foldl Screen.putc_switch screen) := by
  induction s generalizing sheet console screen with
  | nil => exact mirror
  | cons ch s ih => exact ih (mirror.putc ch)

/-- The two screens are the same exactly when the sheet is not past the window, or the rows that the
other page lent are those that went up. -/
theorem Mirror.agree_iff {lower : Nat → Nat → Cell} {background : Fin 3}
    {sheet : Sheet NUM_COLS Cell} {console : Console} {screen : Screen}
    (mirror : Mirror lower background sheet console screen) :
    console.virtual background =
        ⟨fun k => screen.memory (VIDEO + k), screen.screen_x, screen.screen_y⟩ ↔
      sheet.top NUM_ROWS = 0 ∨ ∀ r < NUM_ROWS - 1, ∀ c < NUM_COLS,
        lower (r + 1) c = sheet.cells (sheet.top NUM_ROWS + r) c := by
  have page_eq : console.page background = (console.term background).video_mem :=
    if_neg mirror.hidden
  have cursor_eq : console.cursor background = (screen.screen_x, screen.screen_y) := by
    rw [Console.cursor, if_neg mirror.hidden, mirror.x, mirror.y]
  rw [Console.virtual, cursor_eq, page_eq, VirtualScreen.mk.injEq, funext_iff]
  simp only [and_true]
  constructor
  · intro same
    rw [or_iff_not_imp_left]
    intro past r upper c column
    have row : r < NUM_ROWS := by omega
    have bytes (k : Nat) (inside : k < SCREEN_BYTES) :
        console.screen.memory ((console.term background).video_mem + k) =
          screen.memory (VIDEO + k) := same ⟨k, inside.trans (by decide)⟩
    have cell := Memory.cellAt_congr bytes row column
    rw [mirror.behind r row c column, mirror.shows_window r row c column, if_neg (by omega)] at cell
    exact cell
  · intro condition k
    by_cases inside : k.val < SCREEN_BYTES
    · refine Memory.bytes_of_cellAt (fun r row c column => ?_) inside
      rw [mirror.behind r row c column, mirror.shows_window r row c column]
      split_ifs with shown
      · rfl
      · rw [not_or] at shown
        exact condition.resolve_left shown.1 r (by omega) c column
    · exact mirror.tail k (not_lt.mp inside) k.isLt

namespace Console

/-- The terminal whose process runs. -/
def select (console : Console) (background : Fin 3) : Console :=
  { console with background_terminal := some background }

/-- The screen of a terminal when its process has written a text. -/
def written (console : Console) (background : Fin 3) (s : List UInt8) : VirtualScreen :=
  ((console.select background).puts s).virtual background

/-- The same with the terminal brought on display before. -/
def written_on_display (console : Console) (background : Fin 3) (s : List UInt8) : VirtualScreen :=
  (((console.select background).terminal_load background).puts s).virtual background

theorem puts_on_display {console : Console} {shown : Fin 3} (cur : console.cur_term_idx = shown)
    (selected : console.background_terminal = some shown) (s : List UInt8) :
    console.puts s = { console with screen := s.foldl Screen.putc_switch console.screen } := by
  induction s generalizing console with
  | nil => rfl
  | cons c s ih =>
      have putc_eq : console.putc c = { console with screen := console.screen.putc_switch c } := by
        simp only [putc, selected, if_pos cur]
      rw [puts, List.foldl_cons, putc_eq]
      exact ih cur selected

/-- The sheet on which a terminal in the background goes on typing. -/
def sheet (console : Console) (laid : console.Laid) (background : Fin 3) : Sheet NUM_COLS Cell :=
  sheetOf console.screen.memory (console.term background).video_mem (laid.saved background)

theorem Laid.mirror {console : Console} (laid : console.Laid) {background : Fin 3}
    (hidden : background ≠ console.cur_term_idx) :
    Mirror (console.screen.memory.cellAt (console.term console.cur_term_idx).video_mem) background
      (console.sheet laid background) (console.select background)
      ((console.select background).terminal_load background).screen := by
  have on_screen := laid.saved background
  have first_rows : (console.sheet laid background).top NUM_ROWS = 0 := by
    have inside := on_screen.wrap.2
    simp only [Sheet.top, sheet, sheetOf, NUM_ROWS] at *
    omega
  have page_cell (r c : Nat) (row : r < NUM_ROWS) :
      (console.sheet laid background).cells r c =
        console.screen.memory.cellAt (console.term background).video_mem r c := if_pos row
  have loaded (k : Fin 4096) :
      ((console.select background).terminal_load background).screen.memory (VIDEO + k) =
        console.screen.memory ((console.term background).video_mem + k) := copy_inside _ _ _ k
  refine
    { laid := ⟨laid.video_mem, laid.live, laid.saved⟩
      hidden := hidden
      selected := rfl
      x := rfl
      y := rfl
      tracks := ⟨on_screen, rfl, ?_⟩
      below := fun r c past => ?_
      source := fun r row c column => rfl
      behind := fun r row c column => ?_
      shows_window := fun r row c column => ?_
      tail := fun k past inside => (loaded ⟨k, inside⟩).symm }
  · rw [first_rows, Nat.zero_add]
    rfl
  · rw [first_rows, Nat.zero_add] at past
    exact if_neg (not_lt.mpr past)
  · rw [first_rows, if_pos (Or.inl rfl), Nat.zero_add, page_cell r c row]
    rfl
  · rw [first_rows, Nat.zero_add, page_cell r c row]
    exact Memory.cellAt_congr (fun k inside => loaded ⟨k, inside.trans (by decide)⟩) row column

theorem written_on_display_eq (console : Console) (background : Fin 3) (s : List UInt8) :
    let screen := s.foldl Screen.putc_switch
      ((console.select background).terminal_load background).screen
    console.written_on_display background s =
      ⟨fun k => screen.memory (VIDEO + k), screen.screen_x, screen.screen_y⟩ := by
  have shown : ((console.select background).terminal_load background).cur_term_idx = background :=
    rfl
  rw [written_on_display, puts_on_display shown rfl]
  simp only [virtual, page, cursor, shown, if_true]

/-- A terminal in the background gets the same screen and cursor from a text as on display exactly
when the text does not go past the last row, or the 24 lower rows in the saved page of the terminal
on display are those that the sheet of the text has above its last one. -/
theorem background_agrees_iff (console : Console) (laid : console.Laid) (background : Fin 3)
    (hidden : background ≠ console.cur_term_idx) (s : List UInt8) :
    let typed := (console.sheet laid background).type (s.map glyph)
    console.written background s = console.written_on_display background s ↔
      typed.top NUM_ROWS = 0 ∨
      ∀ r < NUM_ROWS - 1, ∀ c < NUM_COLS,
        console.screen.memory.cellAt (console.term console.cur_term_idx).video_mem (r + 1) c =
          typed.cells (typed.top NUM_ROWS + r) c := by
  rw [written_on_display_eq]
  exact ((laid.mirror hidden).puts s).agree_iff

/-- One character in the corner of terminal 1. -/
theorem background_agrees_iff_letter :
    1 ≠ boot.ready.cur_term_idx ∧
      boot.ready.written 1 [65] = boot.ready.written_on_display 1 [65] :=
  ⟨by decide, (background_agrees_iff boot.ready (laid_ready boot) 1 (by decide) [65]).mpr
    (Or.inl (by decide))⟩

/-- A line, and enough line feeds to scroll it up once. -/
def scrolled_text : List UInt8 := NEWLINE :: 65 :: List.replicate 24 NEWLINE

/-- Written to terminal 1 while terminal 0 is on display, the `A` of the second line does not move
to the first one. -/
theorem background_loses_line :
    ¬∀ (console : Console) (background : Fin 3) (s : List UInt8), console.Laid →
      background ≠ console.cur_term_idx →
      console.written background s = console.written_on_display background s := by
  intro agree
  have laid := laid_ready boot
  have hidden : 1 ≠ boot.ready.cur_term_idx := by decide
  have same := agree boot.ready 1 scrolled_text laid hidden
  rw [written_on_display_eq, written, ((laid.mirror hidden).puts scrolled_text).agree_iff] at same
  have scrolled :
      ((boot.ready.sheet (laid_ready boot) 1).type (scrolled_text.map glyph)).top NUM_ROWS = 1 := by
    decide
  have typed :
      ((boot.ready.sheet (laid_ready boot) 1).type (scrolled_text.map glyph)).cells 1 0 =
        (65, ATTRIB) := by decide
  rw [scrolled, or_iff_right one_ne_zero, laid.video_mem] at same
  have lent := congrArg Prod.fst ((same 0 (by decide) 0 (by decide)).trans typed)
  rw [Memory.cellAt, show boot.ready.screen = boot.screen.clear from rfl] at lent
  simp only at lent
  rw [(Screen.drawn_clear boot.screen).memory _ (by decide)] at lent
  exact absurd lent (by decide)

end Console

end ComputerSystem
