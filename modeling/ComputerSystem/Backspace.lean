import ComputerSystem.Echo
import ComputerSystem.Tape

/-!
# Backspace after typing

While the cursor is behind the first column of a row, Backspace erases on the screen as on a tape.
At the first column of any row but the upper one it goes two cells back instead of one.
-/

namespace ComputerSystem

open Typewriter

namespace Screen

/-- A cell of the screen, counted row by row. -/
def cell (screen : Screen) (q : Nat) : Cell :=
  (screen.memory (VIDEO + 2 * q), screen.memory (VIDEO + 2 * q + 1))

/-- The cell of the cursor.  The place behind the last column is the first one of the next row. -/
def position (screen : Screen) : Nat := NUM_COLS * screen.screen_y + screen.screen_x

/-- The cells as a tape with the cursor as its head. -/
def tape (screen : Screen) : Tape Cell where
  cells := screen.cell
  head := screen.position

/-- Whether a character scrolls the screen. -/
def Scrolls (screen : Screen) (c : UInt8) : Prop :=
  (wrap_cursor screen.screen_x screen.screen_y).2 = NUM_ROWS - 1 ∧
    ((c = NEWLINE ∨ c = RETURN) ∨
      (wrap_cursor screen.screen_x screen.screen_y).1 + 1 = NUM_COLS)

/-- No character of a text scrolls the screen. -/
def Holds : Screen → List UInt8 → Prop
  | _, [] => True
  | screen, c :: w => ¬screen.Scrolls c ∧ (screen.putc_switch c).Holds w

theorem tape_putCell (screen : Screen) (p : Nat) (c : UInt8) (x y : Nat) :
    ({ screen with memory := screen.memory.putCell VIDEO p c }.update_cursor x y).tape =
      { cells := Function.update screen.cell p (c, ATTRIB), head := NUM_COLS * y + x } := by
  rw [tape, Tape.mk.injEq]
  refine ⟨?_, rfl⟩
  funext q
  simp only [cell, update_cursor, Memory.putCell_apply, Function.update_apply]
  split_ifs <;> first | omega | rfl

theorem position_wrap (screen : Screen) :
    NUM_COLS * (wrap_cursor screen.screen_x screen.screen_y).2 +
      (wrap_cursor screen.screen_x screen.screen_y).1 = screen.position := by
  rw [wrap_cursor, position]
  split_ifs with deferral
  · rw [deferral.1, Nat.mul_succ]
    rfl
  · rfl

theorem tape_putc_switch {screen : Screen} {c : UInt8} (printable : ¬(c = NEWLINE ∨ c = RETURN))
    (holds : ¬screen.Scrolls c) :
    (screen.putc_switch c).tape = screen.tape.write (c, ATTRIB) ∧
      0 < (screen.putc_switch c).screen_x := by
  have inner : ¬((wrap_cursor screen.screen_x screen.screen_y).1 + 1 = NUM_COLS ∧
      (wrap_cursor screen.screen_x screen.screen_y).2 = NUM_ROWS - 1) :=
    fun last => holds ⟨last.2, Or.inr last.1⟩
  rw [putc_switch_eq, draw_cursor, draw_memory]
  simp only [printable, inner, if_false]
  refine ⟨?_, Nat.succ_pos _⟩
  rw [tape_putCell, position_wrap, ← Nat.add_assoc, position_wrap]
  rfl

theorem on_screen_putc_switch {screen : Screen}
    (on_screen : OnScreen screen.screen_x screen.screen_y) (c : UInt8) :
    OnScreen (screen.putc_switch c).screen_x (screen.putc_switch c).screen_y := by
  rw [putc_switch_eq]
  exact on_screen.draw_cursor c

theorem tape_type {screen : Screen} {w : List UInt8}
    (printable : ∀ c ∈ w, ¬(c = NEWLINE ∨ c = RETURN)) (holds : screen.Holds w) :
    (w.foldl putc_switch screen).tape =
      (w.map fun c => (c, ATTRIB)).foldl Tape.write screen.tape := by
  induction w generalizing screen with
  | nil => rfl
  | cons c w ih =>
      rw [List.forall_mem_cons] at printable
      rw [List.foldl_cons, ih printable.2 holds.2, (tape_putc_switch printable.1 holds.1).1]
      rfl

/-- Behind a text that does not scroll the cursor is not in the first column. -/
theorem column_type {screen : Screen} {w : List UInt8}
    (on_screen : OnScreen screen.screen_x screen.screen_y)
    (printable : ∀ c ∈ w, ¬(c = NEWLINE ∨ c = RETURN)) (holds : screen.Holds w) :
    (w.foldl putc_switch screen).screen_x ≤ NUM_COLS ∧
      (w ≠ [] → 0 < (w.foldl putc_switch screen).screen_x) := by
  induction w generalizing screen with
  | nil => exact ⟨on_screen.x_le, fun empty => absurd rfl empty⟩
  | cons c w ih =>
      rw [List.forall_mem_cons] at printable
      obtain ⟨inside, behind⟩ :=
        ih (on_screen_putc_switch on_screen c) printable.2 holds.2
      refine ⟨inside, fun _ => ?_⟩
      by_cases last : w = []
      · subst last
        exact (tape_putc_switch printable.1 holds.1).2
      · exact behind last

/-! ## Backspace -/

theorem backspace_of_pos {screen : Screen} (behind : 0 < screen.screen_x) :
    screen.backspace =
      { screen with memory := screen.memory.putCell VIDEO (screen.position - 1) SPACE
        }.update_cursor (screen.screen_x - 1) screen.screen_y := by
  have place : screen.screen_y * NUM_COLS + (screen.screen_x - 1) = screen.position - 1 := by
    rw [position, Nat.mul_comm]
    omega
  simp only [backspace]
  rw [if_neg (by omega), if_neg (by omega), place]
  rfl

theorem backspace_of_first {screen : Screen} (first : screen.screen_x = 0)
    (lower : 0 < screen.screen_y) :
    screen.backspace =
      { screen with memory := screen.memory.putCell VIDEO (screen.position - 2) SPACE
        }.update_cursor (NUM_COLS - 2) (screen.screen_y - 1) := by
  have place : (screen.screen_y - 1) * NUM_COLS + (NUM_COLS - 2) = screen.position - 2 := by
    rw [position, first, NUM_COLS]
    omega
  simp only [backspace]
  rw [if_neg (by omega), if_pos ⟨first, lower⟩, place]
  rfl

/-- Away from the first column Backspace erases on the tape, and it does nothing at home. -/
theorem backspace_straight {screen : Screen}
    (straight : 0 < screen.screen_x ∨ screen.screen_y = 0) :
    screen.backspace.tape = screen.tape.erase blankCell ∧
      screen.backspace.screen_x = screen.screen_x - 1 ∧
      screen.backspace.screen_y = screen.screen_y := by
  by_cases behind : 0 < screen.screen_x
  · have head : NUM_COLS * screen.screen_y + (screen.screen_x - 1) = screen.position - 1 := by
      rw [position]
      omega
    have away : screen.tape.head ≠ 0 := by
      change screen.position ≠ 0
      rw [position]
      omega
    rw [backspace_of_pos behind, tape_putCell, head, Tape.erase, if_neg away]
    exact ⟨rfl, rfl, rfl⟩
  · have column : screen.screen_x = 0 := by omega
    have row := straight.resolve_left behind
    have home : screen.tape.head = 0 := by
      change NUM_COLS * screen.screen_y + screen.screen_x = 0
      rw [row, column, Nat.mul_zero]
    rw [backspace, if_pos ⟨column, row⟩, Tape.erase, if_pos home, column]
    exact ⟨rfl, rfl, rfl⟩

/-- At the first column of a lower row it leaves out the last column of the row above. -/
theorem backspace_slip {screen : Screen} (first : screen.screen_x = 0)
    (lower : 0 < screen.screen_y) :
    screen.backspace.tape =
        { cells := Function.update screen.cell (screen.position - 2) blankCell
          head := screen.position - 2 } ∧
      screen.backspace.screen_y = screen.screen_y - 1 := by
  have head : NUM_COLS * (screen.screen_y - 1) + (NUM_COLS - 2) = screen.position - 2 := by
    rw [position, first, NUM_COLS]
    omega
  rw [backspace_of_first first lower, tape_putCell, head]
  exact ⟨rfl, rfl⟩

theorem position_backspace_le (screen : Screen) :
    screen.backspace.position ≤ screen.position - 1 := by
  by_cases slip : screen.screen_x = 0 ∧ 0 < screen.screen_y
  · have head := congrArg Tape.head (backspace_slip slip.1 slip.2).1
    change screen.backspace.position = screen.position - 2 at head
    omega
  · have head := congrArg Tape.head (@backspace_straight screen (by omega)).1
    rw [Tape.head_erase] at head
    exact head.le

/-- Each Backspace goes back one cell at least. -/
theorem position_backspaces_le (screen : Screen) (n : Nat) :
    (backspace^[n] screen).position ≤ screen.position - n := by
  induction n with
  | zero => exact le_rfl
  | succ n ih =>
      have next := position_backspace_le (backspace^[n] screen)
      rw [Function.iterate_succ_apply']
      omega

theorem backspaces_straight {screen : Screen} {n : Nat}
    (straight : n ≤ screen.screen_x ∨ screen.screen_y = 0) :
    (backspace^[n] screen).tape = (Tape.erase blankCell)^[n] screen.tape ∧
      (backspace^[n] screen).screen_x = screen.screen_x - n ∧
      (backspace^[n] screen).screen_y = screen.screen_y := by
  induction n with
  | zero => exact ⟨rfl, rfl, rfl⟩
  | succ n ih =>
      obtain ⟨tape_eq, x_eq, y_eq⟩ := ih (straight.imp_left Nat.le_of_succ_le)
      have next : 0 < (backspace^[n] screen).screen_x ∨ (backspace^[n] screen).screen_y = 0 := by
        omega
      obtain ⟨tape_next, x_next, y_next⟩ := backspace_straight next
      simp only [Function.iterate_succ_apply']
      refine ⟨by rw [tape_next, tape_eq], by rw [x_next, x_eq, Nat.sub_sub], by rw [y_next, y_eq]⟩

/-! ## Erasing a text -/

/-- The cells from `p` on show a text. -/
def ShowsText (screen : Screen) (p : Nat) (text : List UInt8) : Prop :=
  ∀ k c, text[k]? = some c → screen.cell (p + k) = (c, ATTRIB)

/-- `typed` is the screen behind the echo of `w`. -/
structure Undone (screen : Screen) (w : List UInt8) (typed : Screen) : Prop where
  /-- Each Backspace takes one character. -/
  shows_text : ∀ n ≤ w.length,
    (backspace^[n] typed).ShowsText screen.position (w.take (w.length - n))
  /-- Blanks are left, and the other cells are as they were. -/
  blanks : ∀ q, (backspace^[w.length] typed).cell q =
    if screen.position ≤ q ∧ q < screen.position + w.length then blankCell else screen.cell q
  /-- The cursor is where it was. -/
  returns : (backspace^[w.length] typed).position = screen.position

/-- As long as Backspace stays in the row, the cells are those of the shortened text. -/
theorem cell_backspaces {screen typed : Screen} {w : List UInt8}
    (tape_eq : typed.tape = (w.map fun c => (c, ATTRIB)).foldl Tape.write screen.tape) {n : Nat}
    (le : n ≤ w.length) (straight : n ≤ typed.screen_x ∨ typed.screen_y = 0) (q : Nat) :
    (backspace^[n] typed).cell q =
      if screen.position ≤ q ∧ q < screen.position + w.length then
        ((w.take (w.length - n))[q - screen.position]?.map fun c => (c, ATTRIB)).getD blankCell
      else screen.cell q := by
  have erased := congrArg (fun tape => tape.cells q) (backspaces_straight straight).1
  rw [tape_eq] at erased
  rw [Tape.cells_erases_writes _ _ _ (by rwa [List.length_map])] at erased
  rw [List.length_map, ← List.map_take, List.getElem?_map] at erased
  exact erased

theorem showsText_of_straight {screen typed : Screen} {w : List UInt8}
    (tape_eq : typed.tape = (w.map fun c => (c, ATTRIB)).foldl Tape.write screen.tape) {n : Nat}
    (le : n ≤ w.length) (straight : n ≤ typed.screen_x ∨ typed.screen_y = 0) :
    (backspace^[n] typed).ShowsText screen.position (w.take (w.length - n)) := by
  intro k c shown
  obtain ⟨inside, -⟩ := List.getElem?_eq_some_iff.mp shown
  rw [List.length_take] at inside
  rw [cell_backspaces tape_eq le straight, if_pos (by omega), Nat.add_sub_cancel_left, shown,
    Option.map_some, Option.getD_some]

theorem undone_of_straight {screen typed : Screen} {w : List UInt8}
    (tape_eq : typed.tape = (w.map fun c => (c, ATTRIB)).foldl Tape.write screen.tape)
    (straight : w.length ≤ typed.screen_x ∨ typed.screen_y = 0) : screen.Undone w typed where
  shows_text n le := showsText_of_straight tape_eq le (straight.imp_left le.trans)
  blanks q := by
    rw [cell_backspaces tape_eq le_rfl straight, Nat.sub_self, List.take_zero, List.getElem?_nil,
      Option.map_none, Option.getD_none]
  returns := by
    have head := congrArg Tape.head (backspaces_straight straight).1
    rw [tape_eq, Tape.head_erases_writes _ _ _ (List.length_map _).ge, List.length_map,
      Nat.sub_self, Nat.add_zero] at head
    exact head

/-! ## Crossing a row -/

/-- The Backspace that leaves the row. -/
theorem backspaces_slip {typed : Screen} (lower : 0 < typed.screen_y) :
    (backspace^[typed.screen_x + 1] typed).tape =
        { cells := Function.update (backspace^[typed.screen_x] typed).cell
            (NUM_COLS * typed.screen_y - 2) blankCell
          head := NUM_COLS * typed.screen_y - 2 } ∧
      (backspace^[typed.screen_x + 1] typed).screen_y = typed.screen_y - 1 := by
  obtain ⟨-, first, same_row⟩ := @backspaces_straight typed typed.screen_x (Or.inl le_rfl)
  rw [Nat.sub_self] at first
  have slip := backspace_slip first (by omega)
  have start : (backspace^[typed.screen_x] typed).position = NUM_COLS * typed.screen_y := by
    rw [position, first, same_row, Nat.add_zero]
  rw [start, same_row] at slip
  rw [Function.iterate_succ_apply']
  exact slip

/-- Behind it the cursor is one cell too far to the left and stays there, unless it came home. -/
theorem position_behind_slip {typed : Screen} (lower : 0 < typed.screen_y) {n : Nat}
    (crosses : typed.screen_x < n) :
    (backspace^[n] typed).position ≤ typed.position - n - 1 := by
  have slip := congrArg Tape.head (backspaces_slip lower).1
  change (backspace^[typed.screen_x + 1] typed).position = NUM_COLS * typed.screen_y - 2 at slip
  have rest := position_backspaces_le (backspace^[typed.screen_x + 1] typed)
    (n - (typed.screen_x + 1))
  have start : typed.position = NUM_COLS * typed.screen_y + typed.screen_x := rfl
  rw [← Function.iterate_add_apply, Nat.sub_add_cancel crosses, slip] at rest
  rw [NUM_COLS] at rest start
  omega

theorem tape_behind_slip {typed : Screen} (second : typed.screen_y = 1) (i : Nat) :
    (backspace^[i + (typed.screen_x + 1)] typed).tape = (Tape.erase blankCell)^[i]
      { cells := Function.update (backspace^[typed.screen_x] typed).cell 78 blankCell
        head := 78 } := by
  obtain ⟨slip, upper⟩ := @backspaces_slip typed (by omega)
  rw [second] at slip upper
  rw [Function.iterate_add_apply, (backspaces_straight (Or.inr upper)).1, slip]
  rfl

theorem cell_behind_slip {typed : Screen} (second : typed.screen_y = 1) (i q : Nat) :
    (backspace^[i + (typed.screen_x + 1)] typed).cell q =
      if 78 ≤ q + i ∧ q ≤ 78 then blankCell else (backspace^[typed.screen_x] typed).cell q := by
  have erased := congrArg (fun tape => tape.cells q) (tape_behind_slip second i)
  rw [Tape.cells_erases] at erased
  refine erased.trans ?_
  simp only [Function.update_apply]
  split_ifs <;> first | rfl | omega

/-- What is left of a text in the two upper rows when Backspace comes back to the second one. -/
theorem cell_before_slip {screen typed : Screen} {w : List UInt8}
    (tape_eq : typed.tape = (w.map fun c => (c, ATTRIB)).foldl Tape.write screen.tape)
    (home : screen.position = 0) (crosses : w.length = 80 + typed.screen_x) (q : Nat) :
    (backspace^[typed.screen_x] typed).cell q =
      if q < w.length then ((w.take 80)[q]?.map fun c => (c, ATTRIB)).getD blankCell
      else screen.cell q := by
  rw [cell_backspaces tape_eq (by omega) (Or.inl le_rfl), home, Nat.sub_zero, crosses,
    Nat.add_sub_cancel]
  exact if_congr (by omega) rfl rfl

/-- A text that begins with a row of blanks is erased all the same. -/
theorem undone_of_blanks {screen typed : Screen} {w : List UInt8}
    (tape_eq : typed.tape = (w.map fun c => (c, ATTRIB)).foldl Tape.write screen.tape)
    (home : screen.position = 0) (second : typed.screen_y = 1)
    (crosses : w.length = 80 + typed.screen_x)
    (blanks : w.take 80 = List.replicate 80 SPACE) : screen.Undone w typed := by
  have before (q : Nat) : (backspace^[typed.screen_x] typed).cell q =
      if q < w.length then blankCell else screen.cell q := by
    rw [cell_before_slip tape_eq home crosses, blanks, List.getElem?_replicate]
    split_ifs <;> rfl
  have behind (i q : Nat) : (backspace^[i + (typed.screen_x + 1)] typed).cell q =
      if q < w.length then blankCell else screen.cell q := by
    rw [cell_behind_slip second, before]
    split_ifs <;> first | rfl | omega
  constructor
  · intro n le k c shown
    by_cases straight : n ≤ typed.screen_x
    · exact showsText_of_straight tape_eq le (Or.inl straight) k c shown
    · obtain ⟨inside, -⟩ := List.getElem?_eq_some_iff.mp shown
      rw [List.length_take] at inside
      have blank := congrArg (fun text => text[k]?) blanks
      simp only [List.getElem?_replicate, List.getElem?_take] at shown blank
      rw [if_pos (by omega)] at shown
      rw [if_pos (by omega), if_pos (by omega), shown, Option.some.injEq] at blank
      obtain ⟨i, rfl⟩ := Nat.exists_eq_add_of_le' (Nat.lt_of_not_le straight)
      rw [Nat.succ_eq_add_one, behind, if_pos (by omega), blank, blankCell]
  · intro q
    rw [crosses, show 80 + typed.screen_x = 79 + (typed.screen_x + 1) by omega, behind, crosses,
      home]
    exact if_congr (by omega) rfl rfl
  · have head := congrArg Tape.head (tape_behind_slip second 79)
    rw [Tape.head_erases] at head
    rw [crosses, home, show 80 + typed.screen_x = 79 + (typed.screen_x + 1) by omega]
    exact head

theorem blanks_of_undone {screen typed : Screen} {w : List UInt8}
    (tape_eq : typed.tape = (w.map fun c => (c, ATTRIB)).foldl Tape.write screen.tape)
    (home : screen.position = 0) (second : typed.screen_y = 1)
    (crosses : w.length = 80 + typed.screen_x)
    (undone : screen.Undone w typed) : w.take 80 = List.replicate 80 SPACE := by
  apply List.ext_getElem?
  intro k
  rw [List.getElem?_replicate, List.getElem?_take]
  by_cases first_row : k < 80
  · rw [if_pos first_row, if_pos first_row]
    obtain ⟨c, char⟩ : ∃ c, w[k]? = some c := ⟨_, List.getElem?_eq_getElem (by omega)⟩
    suffices blank : (c, ATTRIB) = blankCell by rw [char, (Prod.mk.injEq _ _ _ _).mp blank |>.1]
    by_cases before_last : k < 79
    · -- the Backspace that erases the cell leaves `k + 1` characters
      have shown := undone.shows_text (78 - k + (typed.screen_x + 1)) (by omega) k c (by
        rw [List.getElem?_take_of_lt (by omega), char])
      rw [home, Nat.zero_add, cell_behind_slip second, if_pos (by omega)] at shown
      exact shown.symm
    · -- the last cell of the row is passed over
      have blank := undone.blanks k
      rw [home, if_pos (by omega), crosses,
        show 80 + typed.screen_x = 79 + (typed.screen_x + 1) by omega, cell_behind_slip second,
        if_neg (by omega), cell_before_slip tape_eq home crosses, if_pos (by omega),
        List.getElem?_take_of_lt first_row, char] at blank
      exact blank
  · rw [if_neg first_row, if_neg first_row]

/-- Backspace undoes the echo of a text exactly when the echo stays in one row, or begins at home
with a row of blanks. -/
theorem undone_iff {screen : Screen} {w : List UInt8}
    (on_screen : OnScreen screen.screen_x screen.screen_y)
    (printable : ∀ c ∈ w, ¬(c = NEWLINE ∨ c = RETURN)) (holds : screen.Holds w)
    (short : w.length ≤ 127) :
    screen.Undone w (w.foldl putc_switch screen) ↔
      screen.position % NUM_COLS + w.length ≤ NUM_COLS ∨
      screen.position = 0 ∧ w.take NUM_COLS = List.replicate NUM_COLS SPACE := by
  have tape_eq := tape_type printable holds
  obtain ⟨x_le, x_pos⟩ := column_type on_screen printable holds
  have place : (w.foldl putc_switch screen).position = screen.position + w.length := by
    have head := congrArg Tape.head tape_eq
    rw [Tape.head_writes, List.length_map] at head
    exact head
  generalize w.foldl putc_switch screen = typed at tape_eq x_le x_pos place ⊢
  have cursor : typed.position = NUM_COLS * typed.screen_y + typed.screen_x := rfl
  have column : 0 < w.length → 0 < typed.screen_x :=
    fun pos => x_pos (List.ne_nil_of_length_pos pos)
  rw [NUM_COLS] at x_le cursor ⊢
  by_cases straight : w.length ≤ typed.screen_x ∨ typed.screen_y = 0
  · refine iff_of_true (undone_of_straight tape_eq straight) (Or.inl ?_)
    omega
  · have two_rows : ¬screen.position % 80 + w.length ≤ 80 := by omega
    rw [or_iff_right two_rows]
    by_cases home : screen.position = 0
    · have second : typed.screen_y = 1 := by omega
      have crosses : w.length = 80 + typed.screen_x := by omega
      rw [and_iff_right home]
      constructor
      · exact blanks_of_undone tape_eq home second crosses
      · exact undone_of_blanks tape_eq home second crosses
    · refine iff_of_false (fun undone => ?_) fun both => home both.1
      have behind := @position_behind_slip typed (by omega) w.length (by omega)
      rw [undone.returns, place] at behind
      omega

end Screen

/-! ## The keys -/

namespace Modifiers

/-- What a sequence of codes asks for, as long as none of them clears the screen or puts another
terminal on it; silent ones are left out. -/
def presses : Modifiers → List UInt8 → Option (List Press)
  | _, [] => some []
  | keys, code :: codes =>
      if keys.Stays code then
        (presses (keys.after code) codes).map fun rest =>
          if keys.press code = .silent then rest else keys.press code :: rest
      else
        none

theorem presses_cons_iff (keys : Modifiers) (code : UInt8) (codes : List UInt8)
    (all : List Press) :
    keys.presses (code :: codes) = some all ↔
      keys.Stays code ∧ ∃ rest, (keys.after code).presses codes = some rest ∧
        (if keys.press code = .silent then rest else keys.press code :: rest) = all := by
  rw [presses]
  by_cases stays : keys.Stays code
  · rw [if_pos stays, Option.map_eq_some_iff, and_iff_right stays]
  · rw [if_neg stays]
    exact iff_of_false nofun fun both => stays both.1

theorem presses_begins {keys : Modifiers} {first codes : List UInt8} {all : List Press}
    (begins : first <+: codes) (reads : keys.presses codes = some all) :
    ∃ read, read <+: all ∧ keys.presses first = some read := by
  induction codes generalizing keys first all with
  | nil =>
      rw [List.prefix_nil.mp begins]
      exact ⟨[], List.nil_prefix, rfl⟩
  | cons code codes ih =>
      cases first with
      | nil => exact ⟨[], List.nil_prefix, rfl⟩
      | cons same first =>
          obtain ⟨rfl, tail_begins⟩ := List.cons_prefix_cons.mp begins
          obtain ⟨stays, rest, rest_eq, rfl⟩ := (presses_cons_iff ..).mp reads
          obtain ⟨read, read_begins, read_eq⟩ := ih tail_begins rest_eq
          refine ⟨_, ?_, (presses_cons_iff ..).mpr ⟨stays, read, read_eq, rfl⟩⟩
          split_ifs
          · exact read_begins
          · exact List.cons_prefix_cons.mpr ⟨rfl, read_begins⟩

theorem exists_prefix_presses {keys : Modifiers} {codes : List UInt8} {read all : List Press}
    (reads : keys.presses codes = some all) (begins : read <+: all) :
    ∃ first, first <+: codes ∧ keys.presses first = some read := by
  induction codes generalizing keys read all with
  | nil =>
      cases reads
      rw [List.prefix_nil.mp begins]
      exact ⟨[], List.nil_prefix, rfl⟩
  | cons code codes ih =>
      cases read with
      | nil => exact ⟨[], List.nil_prefix, rfl⟩
      | cons press read =>
          obtain ⟨stays, rest, rest_eq, rfl⟩ := (presses_cons_iff ..).mp reads
          by_cases silent : keys.press code = .silent
          · rw [if_pos silent] at begins
            obtain ⟨first, first_begins, first_eq⟩ := ih rest_eq begins
            exact ⟨code :: first, List.cons_prefix_cons.mpr ⟨rfl, first_begins⟩,
              (presses_cons_iff ..).mpr ⟨stays, _, first_eq, if_pos silent⟩⟩
          · rw [if_neg silent, List.cons_prefix_cons] at begins
            obtain ⟨first, first_begins, first_eq⟩ := ih rest_eq begins.2
            refine ⟨code :: first, List.cons_prefix_cons.mpr ⟨rfl, first_begins⟩,
              (presses_cons_iff ..).mpr ⟨stays, _, first_eq, ?_⟩⟩
            rw [if_neg silent, begins.1]

end Modifiers

namespace Tty

/-- On a line that keeps room, the codes do to screen and line what their presses ask for. -/
theorem echo_foldl {tty : Tty} {codes : List UInt8} {presses : List Press}
    (idle : tty.keyboard.buf_idx < BUF_SIZE - 1)
    (reads : tty.keyboard.presses codes = some presses)
    (room : ∀ first, first <+: presses →
      (first.foldl Echo.press tty.echo).pending.length < BUF_SIZE) :
    (codes.foldl show_pressed_key tty).echo = presses.foldl Echo.press tty.echo := by
  induction codes generalizing tty presses with
  | nil =>
      cases reads
      rfl
  | cons code codes ih =>
      obtain ⟨stays, rest, rest_eq, rfl⟩ := (Modifiers.presses_cons_iff ..).mp reads
      have now := room [] List.nil_prefix
      rw [List.foldl_nil, echo, Term.pending, CArray.contents_length] at now
      have echoed := tty.echo_show_pressed_key code idle stays (by omega)
      rw [← keys_show_pressed_key tty code idle] at rest_eq
      have next_idle : (tty.show_pressed_key code).keyboard.buf_idx < BUF_SIZE - 1 := by
        rwa [buf_idx_show_pressed_key]
      rw [List.foldl_cons]
      by_cases silent : tty.keyboard.press code = .silent
      · have same : (tty.show_pressed_key code).echo = tty.echo := by
          rw [echoed, silent]
          rfl
        rw [if_pos silent] at room ⊢
        rw [ih next_idle rest_eq (by rwa [same]), same]
      · rw [if_neg silent] at room ⊢
        rw [List.foldl_cons, ← echoed]
        apply ih next_idle rest_eq
        intro first begins
        have longer := room (tty.keyboard.press code :: first)
          (List.cons_prefix_cons.mpr ⟨rfl, begins⟩)
        rwa [List.foldl_cons, ← echoed] at longer

/-- Backspaces after a text that is typed into an empty line. -/
structure Undoes (tty : Tty) (codes w : List UInt8) : Prop where
  /-- The cells of the echo are blank at the end, the others as before. -/
  blanks : ∀ q, (codes.foldl show_pressed_key tty).console.screen.cell q =
    if tty.console.screen.position ≤ q ∧ q < tty.console.screen.position + w.length then blankCell
    else tty.console.screen.cell q
  /-- The cursor is back. -/
  returns : (codes.foldl show_pressed_key tty).console.screen.position =
    tty.console.screen.position
  /-- At every moment the cells from the start on show what is pending. -/
  shows_pending : ∀ first, first <+: codes →
    (first.foldl show_pressed_key tty).console.screen.ShowsText tty.console.screen.position
      (first.foldl show_pressed_key tty).visible.pending

end Tty

theorem Echo.foldl_characters (echo : Echo) (w : List UInt8) :
    (w.map Press.character).foldl press echo =
      { screen := w.foldl Screen.putc_switch echo.screen, pending := echo.pending ++ w } := by
  induction w generalizing echo with
  | nil => rw [List.append_nil]; rfl
  | cons c w ih =>
      rw [List.map_cons, List.foldl_cons, ih]
      simp [press, Screen.press, Press.edit, LineEditor.Edit.apply]

theorem Echo.foldl_backspaces (echo : Echo) {n : Nat} (le : n ≤ echo.pending.length) :
    (List.replicate n Press.backspace).foldl press echo =
      { screen := Screen.backspace^[n] echo.screen
        pending := echo.pending.take (echo.pending.length - n) } := by
  induction n with
  | zero => simp
  | succ n ih =>
      have pending : 0 < (echo.pending.take (echo.pending.length - n)).length := by
        rw [List.length_take]
        omega
      rw [List.replicate_succ', List.foldl_append, ih (by omega), List.foldl_cons, List.foldl_nil,
        Function.iterate_succ_apply', press, Screen.press, if_pos pending]
      congr 1
      rw [Press.edit, LineEditor.Edit.apply, List.dropLast_eq_take, List.take_take,
        List.length_take]
      congr 1
      omega

theorem prefix_cases {read : List Press} {w : List UInt8} {m : Nat}
    (begins : read <+: w.map .character ++ List.replicate m .backspace) :
    (∃ v, v <+: w ∧ read = v.map .character) ∨
      ∃ n ≤ m, read = w.map .character ++ List.replicate n .backspace := by
  rcases List.prefix_or_prefix_of_prefix begins (List.prefix_append ..) with typing | erasing
  · obtain ⟨v, v_begins, rfl⟩ := List.prefix_map_iff.mp typing
    exact Or.inl ⟨v, v_begins, rfl⟩
  · obtain ⟨rest, rfl⟩ := erasing
    rw [List.prefix_append_right_inj, List.prefix_replicate_iff] at begins
    exact Or.inr ⟨rest.length, begins.1, by rw [← begins.2]⟩

theorem prefix_erasing (w : List UInt8) {n m : Nat} (le : n ≤ m) :
    w.map Press.character ++ List.replicate n Press.backspace <+:
      w.map .character ++ List.replicate m .backspace := by
  rw [List.prefix_append_right_inj, List.prefix_replicate_iff, List.length_replicate]
  exact ⟨le, rfl⟩

theorem Screen.Holds.of_begins {screen : Screen} {v w : List UInt8} (holds : screen.Holds w)
    (begins : v <+: w) : screen.Holds v := by
  induction w generalizing screen v with
  | nil =>
      rw [List.prefix_nil.mp begins]
      trivial
  | cons c w ih =>
      cases v with
      | nil => trivial
      | cons same v =>
          obtain ⟨rfl, tail_begins⟩ := List.cons_prefix_cons.mp begins
          exact ⟨holds.1, ih holds.2 tail_begins⟩

namespace Modifiers

theorem scan_code_return :
    ∀ mode < 4, ∀ code < SCAN_SIZE, (scan_rows.getD mode []).getD code 0 ≠ RETURN := by decide

theorem character_ne_return {keys : Modifiers} {code c : UInt8}
    (press_eq : keys.press code = .character c) : c ≠ RETURN := by
  obtain ⟨-, in_table, rfl⟩ := scan_code_of_character press_eq
  exact scan_code_return _ keys.mode_lt _ in_table

theorem printable_of_mem {keys : Modifiers} {codes : List UInt8} {all : List Press} {c : UInt8}
    (reads : keys.presses codes = some all) (mem : Press.character c ∈ all) :
    ¬(c = NEWLINE ∨ c = RETURN) := by
  induction codes generalizing keys all with
  | nil =>
      cases reads
      exact absurd mem List.not_mem_nil
  | cons code codes ih =>
      obtain ⟨stays, rest, rest_eq, rfl⟩ := (presses_cons_iff ..).mp reads
      split_ifs at mem
      · exact ih rest_eq mem
      · rcases List.mem_cons.mp mem with now | later
        · exact not_or.mpr ⟨character_ne_newline now.symm, character_ne_return now.symm⟩
        · exact ih rest_eq later

end Modifiers

theorem Echo.length_pending {echo : Echo} (empty : echo.pending = []) {w : List UInt8} {m : Nat}
    {read : List Press} (le : m ≤ w.length)
    (begins : read <+: w.map .character ++ List.replicate m .backspace) :
    (read.foldl press echo).pending.length ≤ w.length := by
  rcases prefix_cases begins with ⟨v, v_begins, rfl⟩ | ⟨n, n_le, rfl⟩
  · rw [foldl_characters, empty]
    exact v_begins.length_le
  · rw [List.foldl_append, foldl_characters, empty, List.nil_append,
      foldl_backspaces _ (n_le.trans le)]
    exact List.length_take_le' _ _

namespace Tty

variable {tty : Tty} {codes w : List UInt8}

/-- The screen and the line at every moment of typing a text and erasing it. -/
theorem echo_moment (idle : tty.keyboard.buf_idx < BUF_SIZE - 1)
    (empty : tty.visible.term_buf_idx = 0) (short : w.length ≤ 127)
    {first : List UInt8} {read : List Press}
    (begins : read <+: w.map .character ++ List.replicate w.length .backspace)
    (read_eq : tty.keyboard.presses first = some read) :
    (first.foldl show_pressed_key tty).echo =
      read.foldl Echo.press { screen := tty.console.screen, pending := [] } := by
  have start : tty.echo = { screen := tty.console.screen, pending := [] } := by
    rw [echo, Term.pending, empty]
    rfl
  rw [← start]
  apply echo_foldl idle read_eq
  intro longer longer_begins
  have length_le :=
    Echo.length_pending (congrArg Echo.pending start) le_rfl (longer_begins.trans begins)
  exact lt_of_le_of_lt (length_le.trans short) (by decide)

theorem echo_typing (idle : tty.keyboard.buf_idx < BUF_SIZE - 1)
    (empty : tty.visible.term_buf_idx = 0) (short : w.length ≤ 127) {first v : List UInt8}
    (begins : v <+: w) (read_eq : tty.keyboard.presses first = some (v.map .character)) :
    (first.foldl show_pressed_key tty).echo =
      { screen := v.foldl Screen.putc_switch tty.console.screen, pending := v } := by
  have early := (List.prefix_map_iff.mpr ⟨v, begins, rfl⟩).trans
    (List.prefix_append (w.map Press.character) (List.replicate w.length Press.backspace))
  rw [echo_moment idle empty short early read_eq, Echo.foldl_characters, List.nil_append]

theorem echo_erasing (idle : tty.keyboard.buf_idx < BUF_SIZE - 1)
    (empty : tty.visible.term_buf_idx = 0) (short : w.length ≤ 127) {first : List UInt8} {n : Nat}
    (le : n ≤ w.length)
    (read_eq : tty.keyboard.presses first =
      some (w.map .character ++ List.replicate n .backspace)) :
    (first.foldl show_pressed_key tty).echo =
      { screen := Screen.backspace^[n] (w.foldl Screen.putc_switch tty.console.screen)
        pending := w.take (w.length - n) } := by
  rw [echo_moment idle empty short (prefix_erasing w le) read_eq, List.foldl_append,
    Echo.foldl_characters, List.nil_append, Echo.foldl_backspaces _ le]

/-- The keys undo the text exactly when the screens of its echo do. -/
theorem undoes_iff_undone (idle : tty.keyboard.buf_idx < BUF_SIZE - 1)
    (empty : tty.visible.term_buf_idx = 0) (short : w.length ≤ 127)
    (reads : tty.keyboard.presses codes =
      some (w.map .character ++ List.replicate w.length .backspace))
    (holds : tty.console.screen.Holds w) :
    tty.Undoes codes w ↔
      tty.console.screen.Undone w (w.foldl Screen.putc_switch tty.console.screen) := by
  have printable (c : UInt8) (mem : c ∈ w) : ¬(c = NEWLINE ∨ c = RETURN) :=
    Modifiers.printable_of_mem reads (List.mem_append_left _ (List.mem_map_of_mem mem))
  have last := congrArg Echo.screen (echo_erasing idle empty short le_rfl reads)
  change (codes.foldl show_pressed_key tty).console.screen =
    Screen.backspace^[w.length] (w.foldl Screen.putc_switch tty.console.screen) at last
  constructor
  · intro undoes
    refine ⟨fun n le => ?_, last ▸ undoes.blanks, last ▸ undoes.returns⟩
    obtain ⟨first, begins, read_eq⟩ :=
      Modifiers.exists_prefix_presses reads (prefix_erasing w le)
    have shown := undoes.shows_pending first begins
    change (first.foldl show_pressed_key tty).echo.screen.ShowsText _
      (first.foldl show_pressed_key tty).echo.pending at shown
    rwa [echo_erasing idle empty short le read_eq] at shown
  · intro undone
    refine ⟨last ▸ undone.blanks, last ▸ undone.returns, fun first begins => ?_⟩
    obtain ⟨read, read_begins, read_eq⟩ := Modifiers.presses_begins begins reads
    change (first.foldl show_pressed_key tty).echo.screen.ShowsText _
      (first.foldl show_pressed_key tty).echo.pending
    rcases prefix_cases read_begins with ⟨v, v_begins, rfl⟩ | ⟨n, le, rfl⟩
    · rw [echo_typing idle empty short v_begins read_eq]
      have tape_eq := Screen.tape_type (fun c mem => printable c (v_begins.subset mem))
        (holds.of_begins v_begins)
      have shown := Screen.showsText_of_straight tape_eq (Nat.zero_le _) (Or.inl (Nat.zero_le _))
      rwa [Nat.sub_zero, List.take_length] at shown
    · rw [echo_erasing idle empty short le read_eq]
      exact undone.shows_text n le

/-- Typed into an empty line without scrolling and erased by as many Backspaces, a text leaves the
screen as it was but for the cells of its echo, which are blank, and until then the cells show what
is pending, exactly when the echo stays in one row or begins at home with a row of blanks. -/
theorem backspace_undoes_iff (tty : Tty) (codes w : List UInt8)
    (idle : tty.keyboard.buf_idx < BUF_SIZE - 1)
    (on_screen : OnScreen tty.console.screen.screen_x tty.console.screen.screen_y)
    (empty : tty.visible.term_buf_idx = 0) (short : w.length ≤ 127)
    (reads : tty.keyboard.presses codes =
      some (w.map .character ++ List.replicate w.length .backspace))
    (holds : tty.console.screen.Holds w) :
    tty.Undoes codes w ↔
      tty.console.screen.position % NUM_COLS + w.length ≤ NUM_COLS ∨
      tty.console.screen.position = 0 ∧ w.take NUM_COLS = List.replicate NUM_COLS SPACE := by
  rw [undoes_iff_undone idle empty short reads holds]
  apply Screen.undone_iff on_screen _ holds short
  intro c mem
  exact Modifiers.printable_of_mem reads (List.mem_append_left _ (List.mem_map_of_mem mem))

/-- Two letters and two Backspaces at home, with their releases, stay in the first row. -/
theorem backspace_undoes_iff_home :
    (start Console.boot).Undoes [0x1E, 0x9E, 0x30, 0xB0, 0x0E, 0x8E, 0x0E, 0x8E] [97, 98] := by
  have one_row : (start Console.boot).console.screen.position % NUM_COLS + 2 ≤ NUM_COLS := by
    decide
  refine (backspace_undoes_iff (start Console.boot)
    [0x1E, 0x9E, 0x30, 0xB0, 0x0E, 0x8E, 0x0E, 0x8E] [97, 98] (idle_start Console.boot)
    (onScreen_zero (Nat.zero_le _)) rfl (by decide) (by decide) ?_).mpr (Or.inl one_row)
  exact ⟨fun scrolls => absurd scrolls.1 (by decide), fun scrolls => absurd scrolls.1 (by decide),
    trivial⟩

/-- A cursor in the last column of the first row. -/
def atLastColumn : Tty :=
  (start Console.boot).modifyScreen fun screen => { screen with screen_x := NUM_COLS - 1 }

/-- Two letters from the last column on, erased by two Backspaces, leave the cursor one column to
the left of it. -/
theorem backspace_slips :
    ¬∀ (tty : Tty) (codes w : List UInt8), tty.keyboard.buf_idx < BUF_SIZE - 1 →
      OnScreen tty.console.screen.screen_x tty.console.screen.screen_y →
      tty.visible.term_buf_idx = 0 → w.length ≤ 127 →
      tty.keyboard.presses codes =
        some (w.map .character ++ List.replicate w.length .backspace) →
      tty.console.screen.Holds w → tty.Undoes codes w := by
  intro undoes
  have at_last := undoes atLastColumn [0x1E, 0x30, 0x0E, 0x0E] [97, 98]
    (idle_start Console.boot) ⟨by decide, by decide, by decide⟩ rfl (by decide) (by decide)
    ⟨fun scrolls => absurd scrolls.1 (by decide), fun scrolls => absurd scrolls.1 (by decide),
      trivial⟩
  exact absurd at_last.returns (by decide)

end Tty

end ComputerSystem
