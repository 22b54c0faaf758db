import ComputerSystem.Desk

/-!
# Line editing and the line discipline

`Log` follows the scan codes alone: the modifiers, the terminal on display, and for every terminal
the presses that came while it was on display since it was last read.  As long as the buffers have
room, what is pending on a terminal is the text that these presses edit, whatever the order of
keys, switches and reads.
-/

namespace ComputerSystem

open LineEditor

/-- What the scan codes say, without the line buffers. -/
structure Log where
  /-- The modifiers. -/
  keys : Modifiers
  /-- The terminal on display. -/
  visible : Fin 3
  /-- The presses for each terminal since it was last read. -/
  presses : Fin 3 → List Press

namespace Log

/-- Nothing pressed. -/
def empty : Log where
  keys := Keyboard.boot.toModifiers
  visible := 0
  presses := fun _ => []

/-- One event. -/
def step (log : Log) : TtyEvent → Log
  | .key code =>
      let press := log.keys.press code
      { keys := log.keys.after code
        visible := press.visible log.visible
        presses :=
          Function.update log.presses log.visible (log.presses log.visible ++ [press]) }
  | .read => { log with presses := Function.update log.presses log.visible [] }
  | .schedule _ => log

/-- The log of a run. -/
def of (events : List TtyEvent) : Log := events.foldl step empty

/-- The text that the presses for a terminal edit. -/
def text (log : Log) (t : Fin 3) : List UInt8 := edit ((log.presses t).map Press.edit)

theorem of_concat (events : List TtyEvent) (event : TtyEvent) :
    of (events ++ [event]) = (of events).step event := by
  simp [of]

theorem ne_newline_of_mem (events : List TtyEvent) {t : Fin 3} {c : UInt8}
    (mem : Press.character c ∈ (of events).presses t) : c ≠ NEWLINE := by
  induction events using List.reverseRecOn generalizing t with
  | nil => simp [of, empty] at mem
  | append_singleton events event ih =>
      rw [of_concat] at mem
      cases event with
      | key code =>
          simp only [step, Function.update_apply] at mem
          split_ifs at mem with shown
          · rcases List.mem_append.mp mem with old | last
            · exact ih old
            · exact Modifiers.character_ne_newline (List.mem_singleton.mp last).symm
          · exact ih mem
      | read =>
          simp only [step, Function.update_apply] at mem
          split_ifs at mem
          · simp at mem
          · exact ih mem
      | schedule t => exact ih mem

end Log

namespace Desk

/-- The desk is the one the log describes. -/
structure Follows (desk : Desk) (log : Log) : Prop where
  /-- The modifiers agree. -/
  keys : desk.keys = log.keys
  /-- The terminal on display agrees. -/
  visible : desk.visible = log.visible
  /-- What is pending is the text of the log. -/
  pending : ∀ t, (desk.line t).pending = log.text t
  /-- A line is entered when Enter was pressed since the last read. -/
  entered : ∀ t, (desk.line t).entered = true ↔ Press.enter ∈ log.presses t

theorem follows_start (running : Option (Fin 3)) : (start running).Follows Log.empty where
  keys := rfl
  visible := rfl
  pending _ := rfl
  entered _ := by simp [start, LineBuffer.empty, Log.empty]

theorem Follows.key {desk : Desk} {log : Log} (follows : desk.Follows log) (code : UInt8)
    (room : (desk.line desk.visible).idx < BUF_SIZE) :
    (desk.key code).Follows (log.step (.key code)) where
  keys := by simp only [Desk.key, Log.step, follows.keys]
  visible := by simp only [Desk.key, Log.step, follows.keys, follows.visible]
  pending t := by
    simp only [Desk.key, Log.step, Log.text, line_modifyLine]
    by_cases shown : t = desk.visible
    · rw [if_pos shown, shown, LineBuffer.pending_press _ _ room, follows.pending, follows.keys,
        follows.visible, Function.update_self, List.map_append, List.map_singleton, edit_concat,
        Log.text]
    · rw [if_neg shown, follows.pending, Log.text,
        Function.update_of_ne (by rwa [← follows.visible])]
  entered t := by
    simp only [Desk.key, Log.step, line_modifyLine]
    by_cases shown : t = desk.visible
    · rw [if_pos shown, shown, LineBuffer.entered_press, Bool.or_eq_true, follows.entered,
        follows.keys, follows.visible, Function.update_self, List.mem_append, List.mem_singleton,
        decide_eq_true_iff, eq_comm (a := Press.enter)]
    · rw [if_neg shown, follows.entered, Function.update_of_ne (by rwa [← follows.visible])]

theorem Follows.read {desk next : Desk} {log : Log} (follows : desk.Follows log)
    (taken : desk.read = some next) : next.Follows (log.step .read) := by
  rw [Desk.read] at taken
  split_ifs at taken
  cases taken
  refine ⟨follows.keys, follows.visible, fun t => ?_, fun t => ?_⟩
  all_goals
    simp only [Log.step, Log.text, line_modifyLine]
    by_cases shown : t = desk.visible
  · rw [if_pos shown, shown, follows.visible, Function.update_self, LineBuffer.pending_clear]
    rfl
  · rw [if_neg shown, follows.pending, Log.text,
      Function.update_of_ne (by rwa [← follows.visible])]
  · rw [if_pos shown, shown, follows.visible, Function.update_self]
    simp [LineBuffer.clear]
  · rw [if_neg shown, follows.entered, Function.update_of_ne (by rwa [← follows.visible])]

/-- Every step on a desk whose lines have room is logged. -/
theorem Follows.step {desk next : Desk} {log : Log} {event : TtyEvent} (follows : desk.Follows log)
    (room : (desk.line desk.visible).idx < BUF_SIZE) (taken : desk.step event = some next) :
    next.Follows (log.step event) := by
  cases event with
  | key code =>
      cases taken
      exact follows.key code room
  | read => exact follows.read taken
  | schedule t =>
      cases taken
      exact ⟨follows.keys, follows.visible, follows.pending, follows.entered⟩

end Desk

namespace Tty

/-- Every buffer has room in every state the run passes through. -/
def Roomy (tty : Tty) (events : List TtyEvent) : Prop :=
  ∀ state ∈ Run.visited step tty events, ∀ t, (state.console.term t).term_buf_idx < BUF_SIZE

/-- While the buffers have room, the terminals are the ones the log describes. -/
theorem follows_log {start tty : Tty} {log : Log} {events : List TtyEvent}
    (idle : start.keyboard.buf_idx < BUF_SIZE - 1) (follows : start.desk.Follows log)
    (room : start.Roomy events) (reached : Run.run step start events = some tty) :
    tty.desk.Follows (events.foldl Log.step log) := by
  induction events generalizing start log with
  | nil =>
      cases reached
      exact follows
  | cons event events ih =>
      obtain ⟨next, taken, rest⟩ := Option.bind_eq_some_iff.mp reached
      rw [Roomy, Run.visited, taken, List.forall_mem_cons] at room
      exact ih (by rwa [buf_idx_step taken])
        (follows.step (room.1 _) (start.desk_of_step idle taken)) room.2 rest

theorem follows_log_of_start {console : Console} {tty : Tty} {events : List TtyEvent}
    (room : (start console).Roomy events)
    (reached : Run.run step (start console) events = some tty) :
    tty.desk.Follows (Log.of events) :=
  follows_log (idle_start console) (Desk.follows_start _) room reached

theorem run_keys (tty : Tty) (codes : List UInt8) :
    Run.run step tty (codes.map .key) = some (codes.foldl show_pressed_key tty) := by
  induction codes generalizing tty with
  | nil => rfl
  | cons code codes ih => exact ih (tty.show_pressed_key code)

/-- Without reads, what is pending on a terminal is the text that the keys pressed while it was on
display edit. -/
theorem pending_eq_text (console : Console) (codes : List UInt8)
    (room : (start console).Roomy (codes.map .key)) (t : Fin 3) :
    ((codes.foldl show_pressed_key (start console)).console.term t).pending =
      (Log.of (codes.map .key)).text t :=
  (follows_log_of_start room (run_keys _ codes)).pending t

/-- A shifted letter on terminal 0, then a letter on terminal 1. -/
theorem pending_eq_text_two_terminals :
    let codes : List UInt8 := [0x2A, 0x1E, 0xAA, 0x38, 0x3C, 0xB8, 0x1E]
    (fun t => ((codes.foldl show_pressed_key (start Console.boot)).console.term t).pending) =
      ![[65], [97], []] := by
  funext t
  rw [pending_eq_text Console.boot _ (by unfold Roomy; decide)]
  revert t
  decide

end Tty

end ComputerSystem
