import ComputerSystem.VideoMemory

/-!
# Three virtual screens

The screen of a terminal is the video page while the terminal is on display and its saved page
otherwise.  Output, keys and switches come in any order; each of them draws on at most one screen,
and cursors never leave the screen they belong to.
-/

namespace ComputerSystem

/-- A cursor position on the screen.  The column behind the last one means that the wrap is
deferred, which never happens on the last row. -/
structure OnScreen (x y : Nat) : Prop where
  /-- The column, or the one behind the last. -/
  x_le : x ≤ NUM_COLS
  /-- The row. -/
  y_lt : y ≤ NUM_ROWS - 1
  /-- A wrap is deferred above the last row. -/
  deferred : x = NUM_COLS → y < NUM_ROWS - 1

theorem onScreen_zero {y : Nat} (y_lt : y ≤ NUM_ROWS - 1) : OnScreen 0 y :=
  ⟨by decide, y_lt, nofun⟩

/-- Behind a deferred wrap the cursor is on a cell. -/
theorem OnScreen.wrap {x y : Nat} (on_screen : OnScreen x y) :
    (wrap_cursor x y).1 < NUM_COLS ∧ (wrap_cursor x y).2 ≤ NUM_ROWS - 1 := by
  obtain ⟨x_le, y_lt, deferred⟩ := on_screen
  rw [wrap_cursor]
  split_ifs with deferral
  · exact ⟨Nat.zero_lt_succ _, deferral.2⟩
  · exact ⟨lt_of_le_of_ne x_le fun full => deferral ⟨full, deferred full⟩, y_lt⟩

theorem OnScreen.draw_cursor {x y : Nat} (on_screen : OnScreen x y) (c : UInt8) :
    OnScreen (draw_cursor x y c).1 (draw_cursor x y c).2 := by
  obtain ⟨x_lt, y_lt⟩ := on_screen.wrap
  simp only [ComputerSystem.draw_cursor]
  split_ifs with line bottom last
  · exact onScreen_zero le_rfl
  · exact onScreen_zero (by omega)
  · exact onScreen_zero le_rfl
  · exact ⟨x_lt, y_lt, fun full => lt_of_le_of_ne y_lt fun bottom => last ⟨full, bottom⟩⟩

theorem OnScreen.draw_memory {x y : Nat} (on_screen : OnScreen x y) (memory : Memory)
    {dest src : Nat} (apart : dest ≤ src ∨ src + SCREEN_BYTES ≤ dest) (c : UInt8) {a : Nat}
    (outside : ¬(dest ≤ a ∧ a < dest + SCREEN_BYTES)) :
    draw_memory memory dest src x y c a = memory a := by
  obtain ⟨x_lt, y_lt⟩ := on_screen.wrap
  have scrolled (memory : Memory) : memory.scroll dest src a = memory a := by
    rw [Memory.scroll_apply memory apart, if_neg outside]
  have put : memory.putCell dest (NUM_COLS * (wrap_cursor x y).2 + (wrap_cursor x y).1) c a =
      memory a := by
    simp only [SCREEN_BYTES, NUM_COLS, NUM_ROWS] at *
    rw [Memory.putCell_apply, if_neg (by omega), if_neg (by omega)]
  simp only [ComputerSystem.draw_memory]
  split_ifs
  · rw [scrolled]
  · rfl
  · rw [scrolled, put]
  · rw [put]

/-! ## The operations of the driver -/

/-- What draws on a screen or changes the one on display. -/
inductive ScreenEvent
  /-- Output of a process of some terminal. -/
  | putc (background_terminal : Fin 3) (c : UInt8)
  /-- Echo of a key. -/
  | putc_switch (c : UInt8)
  /-- The backspace key. -/
  | backspace
  /-- The enter key. -/
  | enter
  /-- Control-L. -/
  | clear
  /-- A key that selects a terminal. -/
  | terminal_switch (t : Fin 3)

namespace Console

/-- One operation. -/
def draw (console : Console) : ScreenEvent → Console
  | .putc background_terminal c =>
      { console with background_terminal := some background_terminal }.putc c
  | .putc_switch c => { console with screen := console.screen.putc_switch c }
  | .backspace => { console with screen := console.screen.backspace }
  | .enter => { console with screen := console.screen.enter }
  | .clear => { console with screen := console.screen.clear }
  | .terminal_switch t => console.terminal_switch console.cur_term_idx t

/-- The console behind `clear` and `terminal_start`. -/
def ready (console : Console) : Console :=
  { console with screen := console.screen.clear }.terminal_start

/-- The page that holds the screen of a terminal. -/
def page (console : Console) (t : Fin 3) : Nat :=
  if t = console.cur_term_idx then VIDEO else (console.term t).video_mem

/-- The cursor of a terminal. -/
def cursor (console : Console) (t : Fin 3) : Nat × Nat :=
  if t = console.cur_term_idx then (console.screen.screen_x, console.screen.screen_y)
  else ((console.term t).term_screen_x, (console.term t).term_screen_y)

end Console

/-- A page of memory and a cursor. -/
structure VirtualScreen where
  /-- The 4 KB page. -/
  bytes : Fin 4096 → UInt8
  /-- Cursor column. -/
  x : Nat
  /-- Cursor row. -/
  y : Nat
  deriving DecidableEq

/-- The screen of a terminal, wherever it is kept. -/
def Console.virtual (console : Console) (t : Fin 3) : VirtualScreen where
  bytes k := console.screen.memory (console.page t + k)
  x := (console.cursor t).1
  y := (console.cursor t).2

/-- The terminal whose screen an operation draws on. -/
def ScreenEvent.target (console : Console) : ScreenEvent → Option (Fin 3)
  | .putc background_terminal _ => some background_terminal
  | .terminal_switch _ => none
  | _ => some console.cur_term_idx

namespace Console

/-- The saved pages are where `terminal_start` puts them, and every cursor is on its screen. -/
structure Laid (console : Console) : Prop where
  /-- Addresses of the saved pages. -/
  video_mem : ∀ t, (console.term t).video_mem = 0xB9000 + 0x1000 * t.val
  /-- The cursor on display. -/
  live : OnScreen console.screen.screen_x console.screen.screen_y
  /-- The saved cursors. -/
  saved : ∀ t, OnScreen (console.term t).term_screen_x (console.term t).term_screen_y

theorem Laid.page_eq {console : Console} (laid : console.Laid) (t : Fin 3) :
    console.page t = if t = console.cur_term_idx then VIDEO else 0xB9000 + 0x1000 * t.val := by
  rw [page, laid.video_mem]

theorem Laid.saved_apart {console : Console} (laid : console.Laid) {t u : Fin 3} (other : t ≠ u) :
    (console.term t).video_mem + 4096 ≤ (console.term u).video_mem ∨
      (console.term u).video_mem + 4096 ≤ (console.term t).video_mem := by
  have distinct : t.val ≠ u.val := fun same => other (Fin.ext same)
  rw [laid.video_mem, laid.video_mem]
  omega

theorem Laid.page_apart {console : Console} (laid : console.Laid) {t u : Fin 3} (other : t ≠ u) :
    console.page t + 4096 ≤ console.page u ∨ console.page u + 4096 ≤ console.page t := by
  have distinct : t.val ≠ u.val := fun same => other (Fin.ext same)
  rw [laid.page_eq, laid.page_eq, VIDEO]
  split_ifs <;> omega

/-- An operation that draws on the screen of terminal `u` only. -/
structure DrawsOn (console next : Console) (u : Fin 3) : Prop where
  /-- The terminals stay set up. -/
  laid : next.Laid
  /-- The terminal on display stays. -/
  cur_term_idx : next.cur_term_idx = console.cur_term_idx
  /-- So do the cursors of the others. -/
  cursor : ∀ t, t ≠ u → next.cursor t = console.cursor t
  /-- Only the page of the terminal changes. -/
  memory : ∀ a, ¬(console.page u ≤ a ∧ a < console.page u + SCREEN_BYTES) →
    next.screen.memory a = console.screen.memory a

theorem DrawsOn.virtual {console next : Console} {t u : Fin 3} (laid : console.Laid)
    (draws : console.DrawsOn next u) (other : t ≠ u) : next.virtual t = console.virtual t := by
  have page_eq : next.page t = console.page t := by
    rw [laid.page_eq, draws.laid.page_eq, draws.cur_term_idx]
  have bytes_eq (k : Fin 4096) : next.screen.memory (console.page t + k) =
      console.screen.memory (console.page t + k) := by
    apply draws.memory
    have apart := laid.page_apart other
    have bytes : SCREEN_BYTES = 4000 := rfl
    omega
  simp only [Console.virtual, page_eq, bytes_eq, draws.cursor t other]

end Console

namespace Screen

/-- An operation on the screen on display. -/
structure Drawn (screen next : Screen) : Prop where
  /-- The cursor stays on the screen. -/
  on_screen : OnScreen next.screen_x next.screen_y
  /-- Only the page on display changes. -/
  memory : ∀ a, ¬(VIDEO ≤ a ∧ a < VIDEO + SCREEN_BYTES) → next.memory a = screen.memory a

theorem drawn_putc_switch {screen : Screen} (on_screen : OnScreen screen.screen_x screen.screen_y)
    (c : UInt8) : screen.Drawn (screen.putc_switch c) := by
  rw [putc_switch_eq]
  exact ⟨on_screen.draw_cursor c,
    fun a outside => on_screen.draw_memory _ (Or.inl le_rfl) c outside⟩

theorem drawn_clear (screen : Screen) : screen.Drawn screen.clear where
  on_screen := onScreen_zero (Nat.zero_le _)
  memory a outside := by
    rw [SCREEN_BYTES, Nat.mul_comm NUM_COLS] at outside
    simp only [clear, update_cursor]
    rw [List.range_eq_range', Memory.blank_apply, if_neg]
    omega

theorem drawn_enter {screen : Screen} (on_screen : OnScreen screen.screen_x screen.screen_y) :
    screen.Drawn screen.enter := by
  have y_lt := on_screen.y_lt
  rw [enter]
  split_ifs with bottom
  · exact ⟨onScreen_zero le_rfl, fun _ _ => rfl⟩
  · have below : screen.screen_y + 1 ≤ NUM_ROWS - 1 := by omega
    exact ⟨onScreen_zero below, fun _ _ => rfl⟩

theorem drawn_backspace {screen : Screen} (on_screen : OnScreen screen.screen_x screen.screen_y) :
    screen.Drawn screen.backspace := by
  obtain ⟨x_le, y_lt, deferred⟩ := on_screen
  simp only [NUM_COLS, NUM_ROWS] at *
  simp only [backspace]
  split_ifs with home line_start
  · exact ⟨⟨x_le, y_lt, deferred⟩, fun _ _ => rfl⟩
  all_goals
    refine ⟨⟨?_, ?_, ?_⟩, fun a outside => ?_⟩
    · simp only [update_cursor, NUM_COLS]
      omega
    · simp only [update_cursor, NUM_ROWS]
      omega
    · simp only [update_cursor, NUM_COLS, NUM_ROWS]
      omega
    · simp only [update_cursor, SCREEN_BYTES, NUM_COLS, NUM_ROWS] at outside ⊢
      rw [Memory.putCell_apply, if_neg (by omega), if_neg (by omega)]

end Screen

namespace Console

theorem Laid.drawn {console : Console} (laid : console.Laid) {screen : Screen}
    (drawn : console.screen.Drawn screen) :
    console.DrawsOn { console with screen } console.cur_term_idx where
  laid := ⟨laid.video_mem, drawn.on_screen, laid.saved⟩
  cur_term_idx := rfl
  cursor t other := by rw [cursor, cursor, if_neg other, if_neg other]
  memory a outside := drawn.memory a (by rwa [page, if_pos rfl] at outside)

theorem putc_background_video_mem (console : Console) (background : Fin 3) (c : UInt8) (t : Fin 3) :
    ((console.putc_background background c).term t).video_mem = (console.term t).video_mem := by
  rw [putc_background_eq]
  simp only [modifyTerm, Function.update_apply]
  split_ifs with same
  · rw [same]
  · rfl

theorem Laid.putc_background {console : Console} (laid : console.Laid) {background : Fin 3}
    (hidden : background ≠ console.cur_term_idx) (c : UInt8) :
    console.DrawsOn (console.putc_background background c) background := by
  have on_screen := (laid.saved background).draw_cursor c
  have apart : (console.term background).video_mem ≤ (console.term console.cur_term_idx).video_mem ∨
      (console.term console.cur_term_idx).video_mem + SCREEN_BYTES ≤
        (console.term background).video_mem := by
    have bytes : SCREEN_BYTES = 4000 := rfl
    have apart := laid.saved_apart hidden
    omega
  have video_mem := console.putc_background_video_mem background c
  rw [putc_background_eq] at video_mem ⊢
  refine
    { laid := ⟨fun t => (video_mem t).trans (laid.video_mem t), laid.live, fun t => ?_⟩
      cur_term_idx := rfl
      cursor := fun t other => ?_
      memory := fun a outside => ?_ }
  · simp only [modifyTerm, Function.update_apply]
    split_ifs
    · exact on_screen
    · exact laid.saved t
  · simp only [cursor, modifyTerm, Function.update_of_ne other]
  · rw [page, if_neg hidden] at outside
    exact (laid.saved background).draw_memory _ apart c outside

/-- Every operation but a switch draws on the screen of its target only. -/
theorem Laid.draws_on {console : Console} (laid : console.Laid) {event : ScreenEvent} {u : Fin 3}
    (target : event.target console = some u) : console.DrawsOn (console.draw event) u := by
  cases event with
  | putc background c =>
      cases target
      have chosen : Laid { console with background_terminal := some u } :=
        ⟨laid.video_mem, laid.live, laid.saved⟩
      have draws : DrawsOn { console with background_terminal := some u }
          (console.draw (.putc u c)) u := by
        simp only [draw, putc]
        split_ifs with shown
        · subst shown
          exact chosen.drawn (Screen.drawn_putc_switch laid.live c)
        · exact chosen.putc_background (Ne.symm shown) c
      exact ⟨draws.laid, draws.cur_term_idx, draws.cursor, draws.memory⟩
  | putc_switch c =>
      cases target
      exact laid.drawn (Screen.drawn_putc_switch laid.live c)
  | backspace =>
      cases target
      exact laid.drawn (Screen.drawn_backspace laid.live)
  | enter =>
      cases target
      exact laid.drawn (Screen.drawn_enter laid.live)
  | clear =>
      cases target
      exact laid.drawn (Screen.drawn_clear console.screen)
  | terminal_switch t => cases target

/-! ## Switching -/

theorem copy_inside (memory : Memory) (dest src : Nat) (k : Fin 4096) :
    memory.copy dest src 4096 (dest + k) = memory (src + k) := by
  have inside : dest ≤ dest + k.val ∧ dest + k.val < dest + 4096 := by omega
  rw [Memory.copy, if_pos inside, Nat.add_sub_cancel_left]

theorem copy_outside (memory : Memory) {dest src n a : Nat}
    (outside : ¬(dest ≤ a ∧ a < dest + n)) : memory.copy dest src n a = memory a := by
  rw [Memory.copy, if_neg outside]

theorem terminal_save_term (console : Console) (t : Fin 3) :
    (console.terminal_save console.cur_term_idx).term t =
      { console.term t with
        term_screen_x := (console.cursor t).1
        term_screen_y := (console.cursor t).2 } := by
  simp only [terminal_save, modifyTerm, Function.update_apply, cursor]
  split_ifs with same
  · rw [same]
  · rfl

/-- A switch shows the page of a terminal behind the saving of the one on display. -/
theorem terminal_switch_eq (console : Console) (t : Fin 3) :
    console.terminal_switch console.cur_term_idx t =
      let saved := console.terminal_save console.cur_term_idx
      { saved with
        cur_term_idx := t
        screen := { saved.screen.update_cursor (console.cursor t).1 (console.cursor t).2 with
          memory := (console.screen.memory.copy (console.term console.cur_term_idx).video_mem VIDEO
            4096).copy VIDEO (console.term t).video_mem 4096 } } := by
  have memory_eq : (console.terminal_save console.cur_term_idx).screen.memory =
      console.screen.memory.copy (console.term console.cur_term_idx).video_mem VIDEO 4096 := by
    simp [terminal_save, modifyTerm]
  simp only [terminal_switch, terminal_load, terminal_save_term]
  simp only [Screen.update_cursor, memory_eq]

theorem Laid.cursor {console : Console} (laid : console.Laid) (t : Fin 3) :
    OnScreen (console.cursor t).1 (console.cursor t).2 := by
  rw [Console.cursor]
  split_ifs
  · exact laid.live
  · exact laid.saved t

theorem Laid.terminal_switch {console : Console} (laid : console.Laid) (t : Fin 3) :
    (console.terminal_switch console.cur_term_idx t).Laid := by
  rw [terminal_switch_eq]
  refine ⟨fun u => ?_, laid.cursor t, fun u => ?_⟩
  · simp only [terminal_save_term]
    exact laid.video_mem u
  · simp only [terminal_save_term]
    exact laid.cursor u

/-- When the terminal on display was saved, every screen is in its saved page. -/
theorem Laid.saved_memory {console : Console} (laid : console.Laid) (u : Fin 3) (k : Fin 4096) :
    console.screen.memory.copy (console.term console.cur_term_idx).video_mem VIDEO 4096
      ((console.term u).video_mem + k) = console.screen.memory (console.page u + k) := by
  rw [page]
  split_ifs with shown
  · rw [shown, copy_inside]
  · have apart := laid.saved_apart shown
    apply copy_outside
    omega

/-- The page on display is then that of the chosen terminal. -/
theorem Laid.shown_memory {console : Console} (laid : console.Laid) (t : Fin 3) (k : Fin 4096) :
    (console.terminal_switch console.cur_term_idx t).screen.memory (VIDEO + k) =
      console.screen.memory (console.page t + k) := by
  rw [terminal_switch_eq]
  simp only
  rw [copy_inside, laid.saved_memory]

/-- A switch leaves all three screens as they were. -/
theorem Laid.terminal_switch_virtual {console : Console} (laid : console.Laid) (t u : Fin 3) :
    (console.terminal_switch console.cur_term_idx t).virtual u = console.virtual u := by
  have cursor_eq :
      (console.terminal_switch console.cur_term_idx t).cursor u = console.cursor u := by
    rw [terminal_switch_eq, Console.cursor]
    split_ifs with shown
    · rw [shown]
      rfl
    · simp only [terminal_save_term]
  have bytes_eq (k : Fin 4096) : (console.terminal_switch console.cur_term_idx t).screen.memory
      ((console.terminal_switch console.cur_term_idx t).page u + k) =
        console.screen.memory (console.page u + k) := by
    rw [(laid.terminal_switch t).page_eq]
    split_ifs with shown
    · rw [laid.shown_memory, shown, terminal_switch_eq]
    · rw [← laid.saved_memory, laid.video_mem u, terminal_switch_eq]
      apply copy_outside
      rw [VIDEO]
      omega
  simp only [Console.virtual, cursor_eq, bytes_eq]

/-! ## Runs -/

theorem Laid.step {console : Console} (laid : console.Laid) (event : ScreenEvent) :
    (console.draw event).Laid := by
  cases target : event.target console with
  | some u => exact (laid.draws_on target).laid
  | none =>
      cases event with
      | terminal_switch t => exact laid.terminal_switch t
      | _ => cases target

/-- An operation leaves every screen but that of its target as it was. -/
theorem Laid.draw_virtual {console : Console} (laid : console.Laid) (event : ScreenEvent)
    {t : Fin 3} (other : event.target console ≠ some t) :
    (console.draw event).virtual t = console.virtual t := by
  cases target : event.target console with
  | some u =>
      rw [target] at other
      exact (laid.draws_on target).virtual laid fun same => other (congrArg some same.symm)
  | none =>
      cases event with
      | terminal_switch t => exact laid.terminal_switch_virtual t _
      | _ => cases target

theorem laid_ready (console : Console) : console.ready.Laid where
  video_mem t := by
    fin_cases t <;> rfl
  live := onScreen_zero (Nat.zero_le _)
  saved t := onScreen_zero (Nat.zero_le _)

theorem Laid.run {console : Console} (laid : console.Laid) (events : List ScreenEvent) :
    (events.foldl draw console).Laid := by
  induction events generalizing console with
  | nil => exact laid
  | cons event events ih => exact ih (laid.step event)

/-- From `clear` and `terminal_start` on, after any operations: output of a process changes the
screen of its terminal only, keys change the screen on display only, and a switch changes none. -/
theorem screens_independent (console : Console) (events : List ScreenEvent) (event : ScreenEvent)
    (t : Fin 3) :
    let state := events.foldl draw console.ready
    event.target state ≠ some t → (state.draw event).virtual t = state.virtual t :=
  fun other => ((laid_ready console).run events).draw_virtual event other

/-- Terminal 1 prints in the background while terminal 0 is cleared. -/
theorem screens_independent_clear :
    let state := [ScreenEvent.putc 1 65].foldl draw boot.ready
    (state.draw .clear).virtual 1 = state.virtual 1 :=
  screens_independent boot [.putc 1 65] .clear 1 (by decide)

/-- What an operation may write: the screen part of the page of its target, or whole pages when it
switches. -/
def MayWrite (console : Console) (event : ScreenEvent) (address : Nat) : Prop :=
  match event.target console with
  | some u => console.page u ≤ address ∧ address < console.page u + SCREEN_BYTES
  | none =>
      (VIDEO ≤ address ∧ address < VIDEO + 4096) ∨
      ((console.term console.cur_term_idx).video_mem ≤ address ∧
        address < (console.term console.cur_term_idx).video_mem + 4096)

theorem Laid.writes {console : Console} (laid : console.Laid) (event : ScreenEvent) {address : Nat}
    (kept_out : ¬console.MayWrite event address) :
    (console.draw event).screen.memory address = console.screen.memory address := by
  rw [MayWrite] at kept_out
  split at kept_out
  · rename_i u target
    exact (laid.draws_on target).memory address kept_out
  · rename_i target
    cases event with
    | terminal_switch t =>
        rw [not_or] at kept_out
        rw [draw, terminal_switch_eq]
        simp only
        rw [copy_outside _ kept_out.1, copy_outside _ kept_out.2]
    | _ => cases target

/-- The memory behind a console. -/
def withMemory (console : Console) (memory : Memory) : Console :=
  { console with screen := { console.screen with memory } }

/-- From `clear` and `terminal_start` on, after any operations: every cursor is on its screen, and
whatever memory holds then, the next operation writes no further than it may. -/
theorem cursors_stay_on_screen (console : Console) (events : List ScreenEvent) :
    let state := events.foldl draw console.ready
    OnScreen state.screen.screen_x state.screen.screen_y ∧
    (∀ t, OnScreen (state.term t).term_screen_x (state.term t).term_screen_y) ∧
    ∀ memory event address,
      ((state.withMemory memory).draw event).screen.memory address ≠ memory address →
        state.MayWrite event address := by
  intro state
  have laid : state.Laid := (laid_ready console).run events
  refine ⟨laid.live, laid.saved, fun memory event address changed => ?_⟩
  by_contra kept_out
  have filled : (state.withMemory memory).Laid := ⟨laid.video_mem, laid.live, laid.saved⟩
  exact changed (filled.writes event kept_out)

/-- Memory with a byte behind the cells of the saved page of terminal 1. -/
def marked : Memory := fun address => if address = 0xBA000 + SCREEN_BYTES then 1 else 0

/-- Showing terminal 1 copies that byte behind the cells on display. -/
theorem switch_writes_behind_cells :
    ¬∀ (console : Console) (events : List ScreenEvent),
      let state := events.foldl draw console.ready
      OnScreen state.screen.screen_x state.screen.screen_y ∧
      (∀ t, OnScreen (state.term t).term_screen_x (state.term t).term_screen_y) ∧
      ∀ event address,
        (state.draw event).screen.memory address ≠ state.screen.memory address →
          ∃ page ∈ [VIDEO, 0xB9000, 0xBA000, 0xBB000],
            page ≤ address ∧ address < page + SCREEN_BYTES := by
  intro all
  have cleared (a : Nat) (outside : ¬(VIDEO ≤ a ∧ a < VIDEO + SCREEN_BYTES)) :
      (boot.withMemory marked).ready.screen.memory a = marked a :=
    (Screen.drawn_clear (boot.withMemory marked).screen).memory a outside
  have before := cleared (VIDEO + SCREEN_BYTES) (by decide)
  have source := cleared (0xB9000 + 0x1000 * (1 : Fin 3).val + SCREEN_BYTES) (by decide)
  have fits : SCREEN_BYTES < 4096 := by decide
  have after := (laid_ready (boot.withMemory marked)).shown_memory 1 ⟨SCREEN_BYTES, fits⟩
  rw [(laid_ready _).page_eq, if_neg (by decide)] at after
  have copied := after.trans source
  obtain ⟨page, listed, inside⟩ := (all (boot.withMemory marked) []).2.2 (.terminal_switch 1)
    (VIDEO + SCREEN_BYTES) (by
      rw [List.foldl_nil, before, draw, copied]
      decide)
  revert inside
  revert page
  decide

end Console

end ComputerSystem
