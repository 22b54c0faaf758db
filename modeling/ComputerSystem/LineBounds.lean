import ComputerSystem.Desk

/-!
# Bounds of the line buffers

The handler guards a store with the old global index, which never moves, and not with the index of
the terminal.  A terminal that already holds 127 characters is therefore the only place where the
bound is lost, and one more character or Enter loses it.
-/

namespace ComputerSystem

/-- Every index is below `BUF_SIZE`, and no store used one that was not. -/
def Tty.Bounded (tty : Tty) : Prop :=
  ∀ t, (tty.console.term t).term_buf_idx < BUF_SIZE ∧ (tty.console.term t).buf_overrun = false

/-- The event types a character while the terminal on display holds 127. -/
def Tty.TypesOnFull (tty : Tty) : TtyEvent → Prop
  | .key code =>
      (tty.keyboard.press code).types = true ∧ tty.visible.term_buf_idx = BUF_SIZE - 1
  | _ => False

namespace Desk

/-- The bounds, on the desk. -/
def Bounded (desk : Desk) : Prop :=
  ∀ t, (desk.line t).idx < BUF_SIZE ∧ (desk.line t).overrun = false

theorem bounded_key {desk : Desk} (bounded : desk.Bounded) (code : UInt8) :
    (desk.key code).Bounded ↔
      ¬((desk.keys.press code).types = true ∧ (desk.line desk.visible).idx = BUF_SIZE - 1) := by
  obtain ⟨fits, no_overrun⟩ := bounded desk.visible
  have idx_eq := (desk.line desk.visible).idx_press (desk.keys.press code) fits
  constructor
  · rintro after ⟨types, full⟩
    have := (after desk.visible).1
    simp only [key, line_modifyLine, if_true, idx_eq, types, full] at this
    omega
  · intro room t
    simp only [key, line_modifyLine]
    split_ifs with same
    · subst same
      refine ⟨?_, by rw [LineBuffer.overrun_press _ _ fits, no_overrun]⟩
      rw [idx_eq]
      split_ifs with types
      · have : (desk.line desk.visible).idx ≠ BUF_SIZE - 1 := fun full => room ⟨types, full⟩
        omega
      · omega
      · exact fits
    · exact bounded t

theorem bounded_read {desk next : Desk} (bounded : desk.Bounded) (taken : desk.read = some next) :
    next.Bounded := by
  rw [read] at taken
  split_ifs at taken
  cases taken
  intro t
  obtain ⟨fits, no_overrun⟩ := bounded t
  rw [line_modifyLine]
  split_ifs
  · simp only [LineBuffer.clear, no_overrun, Bool.false_or, decide_eq_false_iff_not]
    exact ⟨by decide, by omega⟩
  · exact ⟨fits, no_overrun⟩

end Desk

/-- A step keeps the bounds exactly when it does not type on a full line. -/
theorem Tty.bounded_step {tty next : Tty} {event : TtyEvent}
    (idle : tty.keyboard.buf_idx < BUF_SIZE - 1) (bounded : tty.Bounded)
    (taken : tty.step event = some next) : next.Bounded ↔ ¬tty.TypesOnFull event := by
  have desk_taken := tty.desk_of_step idle taken
  have desk_bounded : tty.desk.Bounded := bounded
  change next.desk.Bounded ↔ _
  generalize next.desk = after at desk_taken
  cases event with
  | key code =>
      cases desk_taken
      exact Desk.bounded_key desk_bounded code
  | read => exact iff_of_true (Desk.bounded_read desk_bounded desk_taken) id
  | schedule t =>
      cases desk_taken
      exact iff_of_true desk_bounded id

/-- From `terminal_start` on, every index and every store stay inside the buffers exactly as long as
no character and no Enter is typed on a terminal that holds 127 characters. -/
theorem Tty.bounded_iff_never_types_on_full (console : Console) (events : List TtyEvent) :
    (∀ tty ∈ Run.visited Tty.step (Tty.start console) events, tty.Bounded) ↔
      ∀ entry ∈ Run.taken Tty.step (Tty.start console) events, ¬entry.1.TypesOnFull entry.2 := by
  refine Run.invariant_iff_ok (fun tty => tty.keyboard.buf_idx < BUF_SIZE - 1) Tty.Bounded
    (fun tty event => ¬tty.TypesOnFull event) ?_ ?_ (Tty.idle_start console) ?_ events
  · intro tty event next idle taken
    rwa [Tty.buf_idx_step taken]
  · intro tty event next idle bounded taken
    exact Tty.bounded_step idle bounded taken
  · intro t
    exact ⟨show 0 < 128 by decide, rfl⟩

/-- The key `a`, typed without modifiers on terminal 0. -/
theorem Tty.run_letters (console : Console) (n : Nat) (fits : n ≤ BUF_SIZE) :
    ∃ tty, Run.run Tty.step (Tty.start console) (List.replicate n (.key 0x1E)) = some tty ∧
      tty.keyboard.buf_idx = 0 ∧ tty.desk.keys = Keyboard.boot.toModifiers ∧
      tty.desk.visible = 0 ∧ (tty.desk.line 0).idx = n := by
  induction n with
  | zero => exact ⟨_, rfl, rfl, rfl, rfl, rfl⟩
  | succ n ih =>
      obtain ⟨tty, reached, idle, keys, visible, idx_eq⟩ := ih (by omega)
      refine ⟨tty.show_pressed_key 0x1E, ?_, ?_, ?_⟩
      · rw [List.replicate_succ', Run.run_append, reached]
        rfl
      · rw [tty.buf_idx_show_pressed_key, idle]
      · have press_eq : tty.desk.keys.press 0x1E = .character 97 := by
          rw [keys]
          decide
        have room : (tty.desk.line 0).idx < BUF_SIZE := by omega
        rw [tty.desk_show_pressed_key 0x1E (by rw [idle]; decide)]
        simp only [Desk.key, press_eq, Press.visible, Desk.line_modifyLine, visible, if_true]
        refine ⟨by rw [keys]; decide, trivial, ?_⟩
        rw [LineBuffer.idx_press _ _ room, idx_eq]
        rfl

/-- 128 presses of `a` leave terminal 0 with index 128. -/
theorem Tty.letters_leave_bounds :
    ¬∀ tty ∈ Run.visited Tty.step (Tty.start Console.boot) (List.replicate 128 (.key 0x1E)),
      tty.Bounded := by
  obtain ⟨tty, reached, -, -, -, idx_eq⟩ := Tty.run_letters Console.boot 128 le_rfl
  intro all_bounded
  have inside := (all_bounded tty (Run.mem_visited_of_run reached) 0).1
  change (tty.desk.line 0).idx < BUF_SIZE at inside
  rw [idx_eq] at inside
  exact absurd inside (by decide)

end ComputerSystem
