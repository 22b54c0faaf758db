import ComputerSystem.Desk

/-!
# Where the bytes of a line come from

`Traced` adds to the keyboard and the terminals, for every cell of every line buffer, the terminal
that was on display when the character in it was typed.  The trace decides nothing.  A terminal's
pending characters always come from that terminal, also where the index has run into the end of
the buffer, so a read delivers across terminals exactly when it is made from a terminal that is not
on display.
-/

namespace ComputerSystem

/-- For every cell the terminal its character was typed on, if one was typed. -/
abbrev Sources := Fin BUF_SIZE → Option (Fin 3)

/-- Where the cells of a line come from after a press that finds terminal `t` on display. -/
def Press.record (t : Fin 3) (line : LineBuffer) (sources : Sources) : Press → Sources
  | enter =>
      CArray.store (CArray.store sources line.idx (some t)) (line.store NEWLINE).idx (some t)
  | backspace => if line.idx > 0 then CArray.store sources line.idx none else sources
  | character _ => CArray.store sources line.idx (some t)
  | display _ => sources
  | silent => sources

/-- Keyboard and terminals with the sources of all cells. -/
structure Traced where
  /-- Keyboard and terminals. -/
  tty : Tty
  /-- Sources of the cells of every terminal. -/
  sources : Fin 3 → Sources

namespace Traced

/-- The sources after an event. -/
def record (traced : Traced) (event : TtyEvent) : Fin 3 → Sources :=
  let desk := traced.tty.desk
  let visible := desk.visible
  let line := desk.line visible
  match event with
  | .key code =>
      Function.update traced.sources visible
        ((desk.keys.press code).record visible line (traced.sources visible))
  | .read =>
      Function.update traced.sources visible fun k =>
        if k.val < line.idx then none else traced.sources visible k
  | .schedule _ => traced.sources

/-- One event. -/
def step (traced : Traced) (event : TtyEvent) : Option Traced :=
  (traced.tty.step event).map fun tty => { tty, sources := traced.record event }

/-- Nothing typed since `terminal_start`. -/
def start (console : Console) : Traced where
  tty := Tty.start console
  sources := fun _ _ => none

/-- A read by the process of terminal `t` returns only cells whose characters were typed while `t`
was on display, and changes the line of no other terminal. -/
def Isolated (traced : Traced) : TtyEvent → Prop
  | .read =>
      let visible := traced.tty.console.cur_term_idx
      ∀ t, traced.tty.console.background_terminal = some t →
        ∀ result bytes console,
          traced.tty.console.terminal_read false = some (result, bytes, console) →
          (∀ i (inside : i < bytes.length), ∃ cell : i < BUF_SIZE,
            bytes[i] = (traced.tty.console.term visible).term_buf_arr ⟨i, cell⟩ ∧
            traced.sources visible ⟨i, cell⟩ = some t) ∧
          ∀ u, u ≠ t → (console.term u).line = (traced.tty.console.term u).line
  | _ => True

/-- A read by the process of terminal `t` finds `t` on display. -/
def OnDisplay (traced : Traced) : TtyEvent → Prop
  | .read => ∀ t, traced.tty.console.background_terminal = some t →
      traced.tty.console.cur_term_idx = t
  | _ => True

end Traced

/-- The index stays within the buffer, and what is pending was typed on terminal `t`. -/
structure LineBuffer.TypedOn (t : Fin 3) (line : LineBuffer) (sources : Sources) : Prop where
  /-- The index stays within the buffer. -/
  idx_le : line.idx ≤ BUF_SIZE
  /-- The pending cells come from `t`. -/
  typed : ∀ k : Fin BUF_SIZE, k.val < line.idx → sources k = some t

namespace LineBuffer.TypedOn

variable {t : Fin 3} {line : LineBuffer} {sources : Sources}

/-- Typing a character keeps it, at the end of the buffer because the character is ASCII. -/
theorem type (typed : line.TypedOn t sources) {c : UInt8} (ascii : c.toNat < BUF_SIZE) :
    (line.type c).TypedOn t (CArray.store sources line.idx (some t)) := by
  have old (k : Fin BUF_SIZE) (pending : k.val < line.idx) :
      CArray.store sources line.idx (some t) k = some t := by
    rw [CArray.store_of_ne _ _ (by omega)]
    exact typed.typed k pending
  rcases typed.idx_le.lt_or_eq with fits | full
  · have type_eq := line.store_of_lt c fits
    refine ⟨by simpa [LineBuffer.type, type_eq] using fits, ?_⟩
    intro k pending
    simp only [LineBuffer.type, type_eq] at pending
    rcases Nat.lt_succ_iff_lt_or_eq.mp pending with before | last
    · exact old k before
    · simp [CArray.store, last]
  · have type_eq := line.store_of_full c full
    refine ⟨by simpa [LineBuffer.type, type_eq] using ascii, ?_⟩
    intro k _
    exact old k (by rw [full]; exact k.isLt)

theorem store (typed : line.TypedOn t sources) {c : UInt8} (ascii : c.toNat < BUF_SIZE)
    (source : Option (Fin 3)) :
    (line.store c).TypedOn t (CArray.store sources line.idx source) := by
  have old (k : Fin BUF_SIZE) (pending : k.val < line.idx) :
      CArray.store sources line.idx source k = some t := by
    rw [CArray.store_of_ne _ _ (by omega)]
    exact typed.typed k pending
  rcases typed.idx_le.lt_or_eq with fits | full
  · rw [line.store_of_lt c fits]
    exact ⟨typed.idx_le, old⟩
  · rw [line.store_of_full c full]
    exact ⟨ascii.le, fun k _ => old k (by rw [full]; exact k.isLt)⟩

theorem press (typed : line.TypedOn t sources) (keys : Modifiers) (code : UInt8) :
    (line.press (keys.press code)).TypedOn t ((keys.press code).record t line sources) := by
  cases press_eq : keys.press code with
  | enter =>
      have stored := typed.store (c := NEWLINE) (by decide) (some t)
      have entered : ({ line.store NEWLINE with entered := true } : LineBuffer).TypedOn t
          (CArray.store sources line.idx (some t)) := ⟨stored.idx_le, stored.typed⟩
      exact entered.type (by decide)
  | backspace =>
      simp only [LineBuffer.press, Press.record]
      split_ifs
      · have stored := typed.store (c := SPACE) (by decide) none
        refine ⟨(Nat.sub_le _ 1).trans stored.idx_le, fun k pending => stored.typed k ?_⟩
        exact lt_of_lt_of_le pending (Nat.sub_le _ 1)
      · exact typed
  | display t => exact typed
  | character c => exact typed.type (Modifiers.character_lt press_eq)
  | silent => exact typed

end LineBuffer.TypedOn

namespace Traced

/-- The invariant: the guard is idle and every terminal's line was typed on that terminal. -/
structure Sound (traced : Traced) : Prop where
  /-- The old global index is below the guard. -/
  idle : traced.tty.keyboard.buf_idx < BUF_SIZE - 1
  /-- Every line was typed on its own terminal. -/
  typed : ∀ t, (traced.tty.desk.line t).TypedOn t (traced.sources t)

theorem sound_start (console : Console) : (start console).Sound where
  idle := Tty.idle_start console
  typed _ := ⟨Nat.zero_le _, fun k pending => absurd pending (Nat.not_lt_zero k)⟩

theorem sound_step {traced next : Traced} {event : TtyEvent} (sound : traced.Sound)
    (taken : traced.step event = some next) : next.Sound := by
  obtain ⟨tty, tty_taken, rfl⟩ := Option.map_eq_some_iff.mp taken
  have desk_taken := traced.tty.desk_of_step sound.idle tty_taken
  refine ⟨by rw [Tty.buf_idx_step tty_taken]; exact sound.idle, fun t => ?_⟩
  simp only
  generalize tty.desk = after at desk_taken
  have typed := sound.typed t
  cases event with
  | key code =>
      cases desk_taken
      simp only [Desk.key, Desk.line_modifyLine, record, Function.update_apply]
      by_cases shown : t = traced.tty.desk.visible
      · subst shown
        rw [if_pos rfl, if_pos rfl]
        exact typed.press traced.tty.desk.keys code
      · rw [if_neg shown, if_neg shown]
        exact typed
  | read =>
      simp only [Desk.step, Desk.read] at desk_taken
      split_ifs at desk_taken
      cases desk_taken
      simp only [Desk.line_modifyLine, record, Function.update_apply]
      by_cases shown : t = traced.tty.desk.visible
      · rw [if_pos shown, if_pos shown]
        exact ⟨Nat.zero_le _, fun k pending => absurd pending (Nat.not_lt_zero k)⟩
      · rw [if_neg shown, if_neg shown]
        exact typed
  | schedule u =>
      cases desk_taken
      exact typed

/-- A completed read by the process of a terminal is isolated exactly when that terminal is on
display. -/
theorem isolated_iff {traced next : Traced} {event : TtyEvent} (sound : traced.Sound)
    (taken : traced.step event = some next) :
    traced.Isolated event ↔ traced.OnDisplay event := by
  cases event with
  | key code => exact Iff.rfl
  | schedule t => exact Iff.rfl
  | read =>
      rcases traced.tty.desk_terminal_read with
        ⟨-, result⟩ | ⟨entered, console, result, desk_eq⟩
      · simp [step, Tty.step, result] at taken
      have typed := sound.typed traced.tty.console.cur_term_idx
      have line_eq (u : Fin 3) : (console.term u).line =
          if u = traced.tty.console.cur_term_idx then (traced.tty.console.term u).line.clear
          else (traced.tty.console.term u).line := by
        have := congrArg (fun desk => desk.line u) desk_eq
        simpa [Tty.desk] using this
      constructor
      · intro isolated t running
        by_contra other
        have same := (isolated t running _ _ _ result).2 _ other
        rw [line_eq, if_pos rfl] at same
        have flag_eq : false = _ := congrArg LineBuffer.entered same
        exact Bool.false_ne_true (flag_eq.trans entered)
      · intro displayed t running _ _ _ answer
        have shown := displayed t running
        rw [result] at answer
        cases answer
        refine ⟨?_, ?_⟩
        · intro i inside
          rw [List.length_map, List.length_range] at inside
          have cell : i < BUF_SIZE := inside.trans_le typed.idx_le
          refine ⟨cell, ?_, ?_⟩
          · simp [Term.loadBuf, cell, Tty.visible]
          · rw [typed.typed ⟨i, cell⟩ inside, shown]
        · intro u other
          rw [line_eq, if_neg (by rwa [shown])]

/-- In every run from `terminal_start`, the reads of every process are isolated exactly when each
completes while the terminal of its process is on display. -/
theorem isolated_iff_on_display (console : Console) (events : List TtyEvent) :
    (∀ entry ∈ Run.taken step (start console) events, entry.1.Isolated entry.2) ↔
      ∀ entry ∈ Run.taken step (start console) events, entry.1.OnDisplay entry.2 := by
  refine Run.good_iff_ok Sound OnDisplay Isolated ?_ ?_ (sound_start console) events
  · intro traced event next sound taken
    exact isolated_iff sound taken
  · intro traced event next sound _ taken
    exact sound_step sound taken

/-- A letter and Enter typed on terminal 0 are delivered to the process of terminal 1. -/
theorem delivered_across_terminals :
    ¬∀ (console : Console) (events : List TtyEvent),
      ∀ entry ∈ Run.taken step (start console) events, entry.1.Isolated entry.2 := by
  intro isolated
  have entry := Run.mem_taken_of_run step (start Console.boot)
    [.schedule 1, .key 0x1E, .key 0x1C] .read [] rfl rfl
  have kept := (isolated _ _ _ entry 1 rfl 2 [97, 10] _ rfl).2 0 (by decide)
  exact absurd (congrArg LineBuffer.entered kept) (by decide)

end Traced

end ComputerSystem
