import ComputerSystem.BlinkStage
import ComputerSystem.FishFrames

/-!
# The animation

What `fish` shows: the two frames in turn, 15 ticks each, and a bubble that first blinks in its own
time, then in that of the frames, and stays where it is once it is removed.
-/

namespace ComputerSystem

open CString Dialogue UserProcess

/-! ## Actors that enter one after another -/

namespace Stage

/-- Some actors enter. -/
def enter (stage : Stage) (users : List Blink) : Stage := stage.after (users.map .add)

theorem enter_cons (stage : Stage) (user : Blink) (users : List Blink) :
    stage.enter (user :: users) = (stage.step (.add user)).2.enter users := rfl

theorem enter_backdrop (users : List Blink) (stage : Stage) :
    (stage.enter users).backdrop = stage.backdrop := by
  induction users generalizing stage with
  | nil => rfl
  | cons user users ih =>
      rw [enter_cons, ih, step]
      split_ifs <;> rfl

theorem enter_other {users : List Blink} {location : Nat}
    (absent : ∀ user ∈ users, user.location.toNat = location → BLINK_SLOTS ≤ location)
    (stage : Stage) : (stage.enter users).actor location = stage.actor location := by
  induction users generalizing stage with
  | nil => rfl
  | cons user users ih =>
      rw [List.forall_mem_cons] at absent
      rw [enter_cons, ih absent.2, step]
      split_ifs with inside
      · rw [actor_put, Function.update_of_ne]
        intro same
        have outside := absent.1 same.symm
        omega
      · rfl

theorem enter_actor {users : List Blink}
    (sorted : users.Pairwise fun user other => user.location.toNat < other.location.toNat)
    {user : Blink} (mem : user ∈ users) (inside : user.location.toNat < BLINK_SLOTS)
    (stage : Stage) :
    (stage.enter users).actor user.location.toNat = some (.entering user) := by
  induction users generalizing stage with
  | nil => cases mem
  | cons first users ih =>
      rw [List.pairwise_cons] at sorted
      rw [enter_cons]
      rcases List.mem_cons.mp mem with rfl | mem
      · have later : ∀ other ∈ users, other.location.toNat = user.location.toNat →
            BLINK_SLOTS ≤ user.location.toNat := by
          intro other other_mem same
          have behind := sorted.1 other other_mem
          omega
        rw [enter_other later, step, if_pos inside]
        exact Function.update_self ..
      · exact ih sorted.2 mem _

theorem fits_enter {users : List Blink}
    (sorted : users.Pairwise fun user other => user.location.toNat < other.location.toNat)
    (counts : ∀ user ∈ users, user.location ≠ 0 ∧ 1 ≤ user.on_length.toNat ∧
      user.on_length.toNat ≤ 32767 ∧ 1 ≤ user.off_length.toNat ∧ user.off_length.toNat ≤ 32767)
    {stage : Stage} (nobody : ∀ user ∈ users, stage.actor user.location.toNat = none) :
    stage.FitsAll (users.map .add) := by
  induction users generalizing stage with
  | nil => trivial
  | cons first users ih =>
      rw [List.pairwise_cons] at sorted
      rw [List.forall_mem_cons] at counts nobody
      obtain ⟨positive, lengths⟩ := counts.1
      refine ⟨fun _ => ⟨positive, nobody.1, lengths⟩, ih sorted.2 counts.2 fun user mem => ?_⟩
      rw [step]
      split_ifs with inside
      · rw [actor_put, Function.update_of_ne (sorted.1 user mem).ne']
        exact nobody.2 user mem
      · exact nobody.2 user mem

end Stage

theorem BlinkState.Performs.addAll {state : BlinkState} {slots : List Nat} {stage : Stage}
    (performs : state.Performs slots stage) {users : List Blink}
    (fits : stage.FitsAll (users.map .add)) :
    ∃ others, (state.addAll users).Performs others (stage.enter users) := by
  induction users generalizing state slots stage with
  | nil => exact ⟨slots, performs⟩
  | cons user users ih =>
      obtain ⟨answer, others, called, -, next_performs⟩ := performs.call fits.1
      cases called
      exact ih next_performs fits.2

/-! ## The cells of the frames -/

/-- The characters of two frames at a location, unless both are blank. -/
def frame_cell (lines0 lines1 : List (List UInt8)) (location : Nat) : Option (UInt8 × UInt8) :=
  let row := (location - 40) / 80
  let col := (location - 40) % 80
  let c0 := line_char (lines0.getD row []) col
  let c1 := line_char (lines1.getD row []) col
  if 40 ≤ location ∧ (c0 ≠ 32 ∨ c1 ≠ 32) then some (c0, c1) else none

/-- Frames with lines of at most 80 characters, and not so many that locations wrap. -/
structure FitsScreen (lines : List (List UInt8)) : Prop where
  /-- The lines fit a row. -/
  short : ∀ line ∈ lines, line.length ≤ 80
  /-- Their locations fit 16 bits. -/
  few : lines.length ≤ 818

section cells

variable {lines0 lines1 : List (List UInt8)}

theorem line_char_of_le {line : List UInt8} {col : Nat} (past : line.length ≤ col) :
    line_char line col = 32 := List.getD_eq_default _ _ past

theorem inside_of_visible {lines : List (List UInt8)} {row col : Nat}
    (visible : line_char (lines.getD row []) col ≠ 32) :
    row < lines.length ∧ ∃ line ∈ lines, lines.getD row [] = line ∧ col < line.length := by
  have row_inside : row < lines.length := by
    by_contra past
    rw [List.getD_eq_default _ _ (Nat.not_lt.mp past)] at visible
    exact visible (line_char_of_le (Nat.zero_le _))
  refine ⟨row_inside, lines[row], List.getElem_mem row_inside,
    List.getD_eq_getElem _ _ row_inside, ?_⟩
  by_contra past
  rw [List.getD_eq_getElem _ _ row_inside] at visible
  exact visible (line_char_of_le (Nat.not_lt.mp past))

theorem mem_frame_users (blink_struct : Blink) {user : Blink} :
    user ∈ frame_users blink_struct 0 lines0 lines1 ↔ ∃ row col,
      (line_char (lines0.getD row []) col ≠ 32 ∨ line_char (lines1.getD row []) col ≠ 32) ∧
      user = framed_cell blink_struct row col (line_char (lines0.getD row []) col)
        (line_char (lines1.getD row []) col) := by
  simp only [frame_users, row_users, List.mem_flatMap, List.mem_filterMap, List.mem_range,
    Nat.zero_add]
  constructor
  · rintro ⟨row, -, col, -, user_eq⟩
    split_ifs at user_eq with visible
    cases user_eq
    exact ⟨row, col, visible, rfl⟩
  · rintro ⟨row, col, visible, rfl⟩
    have inside : row < max lines0.length lines1.length ∧
        col < max (lines0.getD row []).length (lines1.getD row []).length := by
      rcases visible with visible | visible
      · obtain ⟨row_inside, line, -, line_eq, col_inside⟩ := inside_of_visible visible
        rw [line_eq]
        omega
      · obtain ⟨row_inside, line, -, line_eq, col_inside⟩ := inside_of_visible visible
        rw [line_eq]
        omega
    exact ⟨row, inside.1, col, inside.2, if_pos visible⟩

theorem visible_bounds (fits0 : FitsScreen lines0) (fits1 : FitsScreen lines1) {row col : Nat}
    (visible : line_char (lines0.getD row []) col ≠ 32 ∨ line_char (lines1.getD row []) col ≠ 32) :
    row < 818 ∧ col < 80 := by
  rcases visible with visible | visible
  · obtain ⟨row_inside, line, mem, -, col_inside⟩ := inside_of_visible visible
    have few := fits0.few
    have short := fits0.short line mem
    omega
  · obtain ⟨row_inside, line, mem, -, col_inside⟩ := inside_of_visible visible
    have few := fits1.few
    have short := fits1.short line mem
    omega

theorem framed_cell_location (blink_struct : Blink) {row col : Nat} (row_lt : row < 818)
    (col_lt : col < 80) (on_char off_char : UInt8) :
    (framed_cell blink_struct row col on_char off_char).location.toNat = row * 80 + col + 40 := by
  rw [framed_cell, BitVec.toNat_ofNat]
  exact Nat.mod_eq_of_lt (by omega)

/-- The cells are passed on row by row. -/
theorem frame_users_sorted (blink_struct : Blink) (fits0 : FitsScreen lines0)
    (fits1 : FitsScreen lines1) :
    (frame_users blink_struct 0 lines0 lines1).Pairwise
      fun user other => user.location.toNat < other.location.toNat := by
  have place : ∀ {row col : Nat} {user : Blink},
      (if line_char (lines0.getD row []) col ≠ 32 ∨ line_char (lines1.getD row []) col ≠ 32 then
        some (framed_cell blink_struct row col (line_char (lines0.getD row []) col)
          (line_char (lines1.getD row []) col)) else none) = some user →
      user.location.toNat = row * 80 + col + 40 ∧ col < 80 := by
    intro row col user user_eq
    split_ifs at user_eq with visible
    cases user_eq
    obtain ⟨row_lt, col_lt⟩ := visible_bounds fits0 fits1 visible
    exact ⟨framed_cell_location blink_struct row_lt col_lt _ _, col_lt⟩
  simp only [frame_users, row_users, Nat.zero_add]
  rw [List.pairwise_flatMap]
  constructor
  · intro row _
    rw [List.pairwise_filterMap]
    refine List.pairwise_lt_range.imp fun {col next} before user user_eq other other_eq => ?_
    rw [(place user_eq).1, (place other_eq).1]
    omega
  · refine List.pairwise_lt_range.imp fun {row next} before user user_mem other other_mem => ?_
    obtain ⟨col, -, user_eq⟩ := List.mem_filterMap.mp user_mem
    obtain ⟨other_col, -, other_eq⟩ := List.mem_filterMap.mp other_mem
    obtain ⟨user_place, col_lt⟩ := place user_eq
    rw [user_place, (place other_eq).1]
    omega

/-- No cell is at location 0, and the cells blink. -/
theorem frame_users_timed (blink_struct : Blink) (fits0 : FitsScreen lines0)
    (fits1 : FitsScreen lines1) (on_length : blink_struct.on_length = 15)
    (off_length : blink_struct.off_length = 15) :
    ∀ user ∈ frame_users blink_struct 0 lines0 lines1, user.location ≠ 0 ∧
      1 ≤ user.on_length.toNat ∧ user.on_length.toNat ≤ 32767 ∧ 1 ≤ user.off_length.toNat ∧
      user.off_length.toNat ≤ 32767 := by
  intro user mem
  obtain ⟨row, col, visible, rfl⟩ := (mem_frame_users blink_struct).mp mem
  obtain ⟨row_lt, col_lt⟩ := visible_bounds fits0 fits1 visible
  have place := framed_cell_location blink_struct row_lt col_lt
    (line_char (lines0.getD row []) col) (line_char (lines1.getD row []) col)
  have on_eq : (15 : BitVec 16).toNat = 15 := rfl
  have zero_eq : (0 : BitVec 16).toNat = 0 := rfl
  refine ⟨fun zero => ?_, ?_⟩
  · rw [zero, zero_eq] at place
    omega
  · rw [framed_cell, on_length, off_length, on_eq]
    omega

/-- The frames on the stage, `n` ticks behind `add_frames`. -/
def frames_stage (lines0 lines1 : List (List UInt8)) (vmem : Nat → UInt8) (n : Nat) : Stage where
  actor location :=
    if location < BLINK_SLOTS then
      (frame_cell lines0 lines1 location).map fun (c0, c1) => Actor.timed c0 c1 15 15 n
    else none
  backdrop := vmem

/-- The users of the frames bring just these actors. -/
theorem enter_frames {blink_struct : Blink} (fits0 : FitsScreen lines0) (fits1 : FitsScreen lines1)
    (on_length : blink_struct.on_length = 15) (off_length : blink_struct.off_length = 15)
    (vmem : Nat → UInt8) :
    (Stage.empty vmem).enter (frame_users blink_struct 0 lines0 lines1) =
      frames_stage lines0 lines1 vmem 0 := by
  have sorted := frame_users_sorted blink_struct fits0 fits1
  have actor_eq : ((Stage.empty vmem).enter (frame_users blink_struct 0 lines0 lines1)).actor =
      (frames_stage lines0 lines1 vmem 0).actor := by
    funext location
    simp only [frames_stage]
    by_cases inside : location < BLINK_SLOTS
    · rw [if_pos inside, frame_cell]
      by_cases cell : 40 ≤ location ∧
          (line_char (lines0.getD ((location - 40) / 80) []) ((location - 40) % 80) ≠ 32 ∨
            line_char (lines1.getD ((location - 40) / 80) []) ((location - 40) % 80) ≠ 32)
      · obtain ⟨behind_offset, visible⟩ := cell
        have mem := (mem_frame_users blink_struct).mpr ⟨_, _, visible, rfl⟩
        obtain ⟨row_lt, col_lt⟩ := visible_bounds fits0 fits1 visible
        have place := framed_cell_location blink_struct row_lt col_lt
          (line_char (lines0.getD ((location - 40) / 80) []) ((location - 40) % 80))
          (line_char (lines1.getD ((location - 40) / 80) []) ((location - 40) % 80))
        have here : (location - 40) / 80 * 80 + (location - 40) % 80 + 40 = location := by omega
        rw [here] at place
        have entered := Stage.enter_actor sorted mem (by omega) (Stage.empty vmem)
        rw [place] at entered
        rw [entered, if_pos ⟨behind_offset, visible⟩, Option.map_some, Actor.entering, framed_cell,
          on_length, off_length]
        rfl
      · rw [if_neg cell, Option.map_none]
        refine Stage.enter_other (fun user mem same => ?_) _
        obtain ⟨row, col, visible, rfl⟩ := (mem_frame_users blink_struct).mp mem
        obtain ⟨row_lt, col_lt⟩ := visible_bounds fits0 fits1 visible
        rw [framed_cell_location blink_struct row_lt col_lt] at same
        have row_eq : (location - 40) / 80 = row := by omega
        have col_eq : (location - 40) % 80 = col := by omega
        rw [row_eq, col_eq] at cell
        exact absurd ⟨by omega, visible⟩ cell
    · rw [if_neg inside]
      exact Stage.enter_other (fun _ _ _ => Nat.not_lt.mp inside) _
  exact Stage.ext actor_eq (Stage.enter_backdrop ..)

end cells

/-! ## Waits -/

theorem Stage.tick_put (stage : Stage) (location : Nat) (actor : Actor) :
    ((stage.put location actor).step .tick).2 = (stage.step .tick).2.put location actor.tick := by
  refine Stage.ext (funext fun other => ?_) rfl
  by_cases here : other = location
  · simp [step, here]
  · simp [step, here]

theorem tick_frames (lines0 lines1 : List (List UInt8)) (vmem : Nat → UInt8) (n : Nat) :
    ((frames_stage lines0 lines1 vmem n).step .tick).2 =
      frames_stage lines0 lines1 vmem (n + 1) := by
  refine Stage.ext (funext fun location => ?_) rfl
  simp only [Stage.step, frames_stage]
  split_ifs
  · cases frame_cell lines0 lines1 location with
    | none => rfl
    | some cell =>
        obtain ⟨c0, c1⟩ := cell
        exact congrArg some (Actor.timed_tick c0 c1 (by decide) (by decide) n)
  · rfl

section programs

variable {process : UserProcess} {fdt : Fin 8 → Fd}

/-- A wait shows the stages that follow. -/
theorem fish_wait_prints {rtc_fd : Int}
    (reads : process.Prints (request (.descriptor (.read rtc_fd false 4))) [] ⟨0, []⟩ fdt fdt)
    (stages : Nat → Stage) (ticks : ∀ n, ((stages n).step .tick).2 = stages (n + 1)) (count : Nat)
    {state : BlinkState} {slots : List Nat} (performs : state.Performs slots (stages 0)) :
    ∃ last others, process.Prints (fish_wait rtc_fd count state) []
        (last, (List.range count).map fun n => (stages (n + 1)).screen) fdt fdt ∧
      last.Performs others (stages count) := by
  induction count generalizing state slots stages with
  | zero => exact ⟨state, slots, prints_done _, performs⟩
  | succ count ih =>
      obtain ⟨answer, others, called, -, ticked⟩ :=
        @BlinkState.Performs.call _ _ _ performs .tick trivial
      obtain ⟨next, tasklet, rfl⟩ := Option.map_eq_some_iff.mp called
      rw [ticks] at ticked
      obtain ⟨last, slots, rest, last_performs⟩ :=
        ih (fun n => stages (n + 1)) (fun n => ticks (n + 1)) ticked
      refine ⟨last, slots, ?_, last_performs⟩
      rw [fish_wait, List.range_succ_eq_map, List.map_cons, List.map_map, ← ticked.vmem]
      refine reads.silent ?_
      simp only [tasklet]
      exact rest.silent (prints_done _)

end programs

/-! ## The show -/

/-- What the video page holds behind `n` ticks: the frame of the moment, in front of what was
there, and the bubble from the end of the first wait on. -/
def fish_screen (lines0 lines1 : List (List UInt8)) (vmem : Nat → UInt8) (n offset : Nat) : UInt8 :=
  if offset = 2 * (6 * 80 + 60) ∧ WAIT < n then
    if n ≤ 2 * WAIT then if (n - WAIT) % (7 + 6) < 7 then 73 else 77
    else if n ≤ 3 * WAIT then if n % (15 + 15) < 15 then 73 else 77
    else 73
  else if offset % 2 = 0 ∧ offset / 2 < BLINK_SLOTS then
    match frame_cell lines0 lines1 (offset / 2) with
    | some (c0, c1) => if n % (15 + 15) < 15 then c0 else c1
    | none => vmem offset
  else vmem offset

section show_frames

variable {lines0 lines1 : List (List UInt8)} {vmem : Nat → UInt8}

theorem frames_screen (n offset : Nat) :
    (frames_stage lines0 lines1 vmem n).screen offset =
      if offset % 2 = 0 ∧ offset / 2 < BLINK_SLOTS then
        match frame_cell lines0 lines1 (offset / 2) with
        | some (c0, c1) => if n % (15 + 15) < 15 then c0 else c1
        | none => vmem offset
      else vmem offset := by
  rw [Stage.screen, Stage.actorAt, frames_stage]
  by_cases even : offset % 2 = 0
  · by_cases inside : offset / 2 < BLINK_SLOTS
    · simp only [if_pos even, if_pos inside, if_pos (And.intro even inside)]
      cases frame_cell lines0 lines1 (offset / 2) <;> rfl
    · simp [even, inside]
  · simp [even]

/-- The location of the bubble. -/
def BUBBLE : Nat := 6 * 80 + 60

theorem frames_elsewhere (n : Nat) {offset : Nat} (early : ¬(offset = 2 * BUBBLE ∧ WAIT < n)) :
    (frames_stage lines0 lines1 vmem n).screen offset =
      fish_screen lines0 lines1 vmem n offset := by
  rw [frames_screen, fish_screen]
  exact (if_neg early).symm

theorem bubble_screen {actor : Actor} {n : Nat} (late : WAIT < n)
    (shown : actor.shown =
      if n ≤ 2 * WAIT then if (n - WAIT) % (7 + 6) < 7 then 73 else 77
      else if n ≤ 3 * WAIT then if n % (15 + 15) < 15 then 73 else 77
      else 73) :
    ((frames_stage lines0 lines1 vmem n).put BUBBLE actor).screen =
      fish_screen lines0 lines1 vmem n := by
  funext offset
  rw [Stage.screen_put]
  by_cases here : offset = 2 * BUBBLE
  · rw [here, Function.update_self, shown, fish_screen]
    exact (if_pos ⟨rfl, late⟩).symm
  · rw [Function.update_of_ne here]
    exact frames_elsewhere n fun both => here both.1

/-- Where the bubble was, its character stays. -/
theorem removed_screen (nobody : frame_cell lines0 lines1 BUBBLE = none) {n : Nat}
    (last : 3 * WAIT < n) :
    (frames_stage lines0 lines1 (Function.update vmem (2 * BUBBLE) 73) n).screen =
      fish_screen lines0 lines1 vmem n := by
  have wait : WAIT = 100 := rfl
  funext offset
  by_cases here : offset = 2 * BUBBLE
  · have double : 2 * BUBBLE / 2 = BUBBLE := Nat.mul_div_cancel_left _ Nat.two_pos
    rw [here, frames_screen, if_pos (by decide), double, nobody, fish_screen,
      if_pos ⟨rfl, by omega⟩, if_neg (by omega), if_neg (by omega)]
    exact Function.update_self ..
  · rw [← frames_elsewhere n fun both => here both.1, frames_screen, frames_screen,
      Function.update_of_ne here]

theorem fish_screens (nobody : frame_cell lines0 lines1 BUBBLE = none) :
    (List.range WAIT).map (fun n => (frames_stage lines0 lines1 vmem (n + 1)).screen) ++
      (List.range WAIT).map (fun n => ((frames_stage lines0 lines1 vmem (WAIT + (n + 1))).put BUBBLE
        (Actor.timed 73 77 7 6 (n + 1))).screen) ++
      (List.range WAIT).map (fun n => ((frames_stage lines0 lines1 vmem (2 * WAIT + (n + 1))).put
        BUBBLE (Actor.timed 73 77 15 15 (2 * WAIT + (n + 1)))).screen) ++
      (List.range WAIT).map (fun n => (frames_stage lines0 lines1
        (Function.update vmem (2 * BUBBLE) 73) (3 * WAIT + (n + 1))).screen) =
      (List.range (4 * WAIT)).map fun n => fish_screen lines0 lines1 vmem (n + 1) := by
  have wait : WAIT = 100 := rfl
  have split : List.range (4 * WAIT) = List.range WAIT ++ (List.range WAIT).map (WAIT + ·) ++
      (List.range WAIT).map (2 * WAIT + ·) ++ (List.range WAIT).map (3 * WAIT + ·) := by
    rw [show 4 * WAIT = WAIT + WAIT + WAIT + WAIT from rfl, List.range_add, List.range_add,
      List.range_add]
    rfl
  rw [split, List.map_append, List.map_append, List.map_append, List.map_map, List.map_map,
    List.map_map]
  refine congrArg₂ _ (congrArg₂ _ (congrArg₂ _ ?_ ?_) ?_) ?_
  · refine List.map_congr_left fun n mem => funext fun offset => ?_
    rw [List.mem_range] at mem
    exact frames_elsewhere (n + 1) fun both => by omega
  · refine List.map_congr_left fun n mem => ?_
    rw [List.mem_range] at mem
    refine bubble_screen (by omega) ?_
    rw [if_pos (by omega), Nat.add_sub_cancel_left]
    rfl
  · refine List.map_congr_left fun n mem => ?_
    rw [List.mem_range] at mem
    refine bubble_screen (by omega) ?_
    rw [if_neg (by omega), if_pos (by omega)]
    rfl
  · refine List.map_congr_left fun n mem => ?_
    exact removed_screen nobody (by omega)

end show_frames

section bubble

variable {lines0 lines1 : List (List UInt8)} {vmem : Nat → UInt8} {state : BlinkState}
  {slots : List Nat}

theorem frames_nobody (nobody : frame_cell lines0 lines1 BUBBLE = none) (n : Nat) :
    (frames_stage lines0 lines1 vmem n).actor BUBBLE = none := by
  simp only [frames_stage, nobody, Option.map_none, ite_self]

theorem bubble_enters (nobody : frame_cell lines0 lines1 BUBBLE = none) {n : Nat}
    (performs : state.Performs slots (frames_stage lines0 lines1 vmem n)) (blink_struct : Blink) :
    ∃ others, (state.mp1_ioctl_add (bubble blink_struct)).state.Performs others
      ((frames_stage lines0 lines1 vmem n).put BUBBLE (Actor.timed 73 77 7 6 0)) := by
  have location : (bubble blink_struct).location = 540 := rfl
  have on_length : (bubble blink_struct).on_length = 7 := rfl
  have off_length : (bubble blink_struct).off_length = 6 := rfl
  have fits : (frames_stage lines0 lines1 vmem n).Fits (.add (bubble blink_struct)) := by
    intro _
    rw [location, on_length, off_length]
    exact ⟨by decide, frames_nobody nobody n, by decide, by decide, by decide, by decide⟩
  have inside : (bubble blink_struct).location.toNat < BLINK_SLOTS := by
    rw [location]
    decide
  obtain ⟨answer, others, called, -, after⟩ := performs.call fits
  obtain rfl := Option.some.inj called
  rw [Stage.step, if_pos inside] at after
  exact ⟨others, after⟩

/-- The bubble takes over the time of the frames; they are off then, so its off character fits. -/
theorem bubble_follows (corner : ∃ c0 c1, frame_cell lines0 lines1 40 = some (c0, c1))
    (performs : state.Performs slots ((frames_stage lines0 lines1 vmem (2 * WAIT)).put BUBBLE
      (Actor.timed 73 77 7 6 WAIT))) :
    ∃ answer others, state.mp1_ioctl_sync (40 <<< 16 ||| (6 * 80 + 60)) = some answer ∧
      answer.state.Performs others ((frames_stage lines0 lines1 vmem (2 * WAIT)).put BUBBLE
        (Actor.timed 73 77 15 15 (2 * WAIT))) := by
  obtain ⟨c0, c1, corner⟩ := corner
  have source : ((frames_stage lines0 lines1 vmem (2 * WAIT)).put BUBBLE
      (Actor.timed 73 77 7 6 WAIT)).actor 40 = some (Actor.timed c0 c1 15 15 (2 * WAIT)) := by
    rw [Stage.actor_put, Function.update_of_ne (by decide)]
    simp only [frames_stage, corner, Option.map_some]
    rfl
  have target : ((frames_stage lines0 lines1 vmem (2 * WAIT)).put BUBBLE
      (Actor.timed 73 77 7 6 WAIT)).actor BUBBLE = some (Actor.timed 73 77 7 6 WAIT) := by
    rw [Stage.actor_put, Function.update_self]
  obtain ⟨answer, others, called, -, after⟩ := @BlinkState.Performs.call _ _ _ performs
    (.sync (40 <<< 16 ||| (6 * 80 + 60))) trivial
  refine ⟨answer, others, called, ?_⟩
  have from_place :
      (((40 <<< 16 ||| (6 * 80 + 60) : BitVec 32) >>> 16).setWidth 16).toNat = 40 := by decide
  have to_place :
      ((40 <<< 16 ||| (6 * 80 + 60) : BitVec 32).setWidth 16).toNat = BUBBLE := by decide
  simp only [Stage.step, from_place, to_place, source, target] at after
  rw [Stage.put, Stage.actor_put, Function.update_idem] at after
  exact after

/-- The bubble leaves its character behind. -/
theorem bubble_leaves (nobody : frame_cell lines0 lines1 BUBBLE = none)
    (performs : state.Performs slots ((frames_stage lines0 lines1 vmem (3 * WAIT)).put BUBBLE
      (Actor.timed 73 77 15 15 (3 * WAIT)))) :
    ∃ answer others, state.mp1_ioctl_remove (6 * 80 + 60) = some answer ∧
      answer.state.Performs others
        (frames_stage lines0 lines1 (Function.update vmem (2 * BUBBLE) 73) (3 * WAIT)) := by
  have target : ((frames_stage lines0 lines1 vmem (3 * WAIT)).put BUBBLE
      (Actor.timed 73 77 15 15 (3 * WAIT))).actor BUBBLE =
        some (Actor.timed 73 77 15 15 (3 * WAIT)) := by
    rw [Stage.actor_put, Function.update_self]
  obtain ⟨answer, others, called, -, after⟩ := @BlinkState.Performs.call _ _ _ performs
    (.remove (6 * 80 + 60)) trivial
  refine ⟨answer, others, called, ?_⟩
  have place : ((6 * 80 + 60 : BitVec 32).setWidth 16).toNat = BUBBLE := by decide
  simp only [Stage.step, place, target] at after
  have stage_eq : ((frames_stage lines0 lines1 vmem (3 * WAIT)).put BUBBLE
      (Actor.timed 73 77 15 15 (3 * WAIT))).leave BUBBLE (Actor.timed 73 77 15 15 (3 * WAIT)) =
        frames_stage lines0 lines1 (Function.update vmem (2 * BUBBLE) 73) (3 * WAIT) := by
    refine Stage.ext ?_ rfl
    rw [Stage.actor_leave, Stage.actor_put, Function.update_idem,
      ← @frames_nobody _ _ vmem nobody (3 * WAIT), Function.update_eq_self]
    rfl
  rwa [stage_eq] at after

end bubble

section programs

variable {process : UserProcess} {fdt : Fin 8 → Fd} {lines0 lines1 : List (List UInt8)}

/-- The clock of `fish`. -/
def Fd.clock : Fd where
  file_operation_table_ptr := some .rtc_func
  inode := 0
  position := 0
  flags := 1

/-- The waits of `main` and what it does between them. -/
theorem fish_show_prints
    (ticks : ∀ call system, process.known call system → system.Ticked process.esp call)
    (clock : fdt 2 = Fd.clock) {vmem : Nat → UInt8} (blink_struct : Blink)
    (corner : ∃ c0 c1, frame_cell lines0 lines1 40 = some (c0, c1))
    (nobody : frame_cell lines0 lines1 BUBBLE = none) {state : BlinkState} {slots : List Nat}
    (performs : state.Performs slots (frames_stage lines0 lines1 vmem 0)) :
    ∃ after, process.Prints (fish_show (2 : Fin 8) blink_struct state) []
      (0, (List.range (4 * WAIT)).map fun n => fish_screen lines0 lines1 vmem (n + 1)) fdt
      after := by
  have in_use : (fdt 2).flags ≠ 0 := by rw [clock]; exact one_ne_zero
  have table : (fdt 2).file_operation_table_ptr = some .rtc_func := by rw [clock]; rfl
  have reads : process.Prints (request (.descriptor (.read (2 : Fin 8) false 4))) [] ⟨0, []⟩ fdt
      fdt := prints_read_clock ticks in_use table 4
  have writes : process.Prints (request (.descriptor (.write (2 : Fin 8) [32, 0, 0, 0] 4))) []
      ⟨0, []⟩ fdt fdt :=
    prints_descriptor (answers_write_clock (by decide) in_use table _ 4 fun _ => rfl)
  obtain ⟨first, first_slots, first_wait, performs⟩ := fish_wait_prints reads
    (frames_stage lines0 lines1 vmem) (tick_frames lines0 lines1 vmem) WAIT performs
  -- the bubble comes
  obtain ⟨entered, performs⟩ := bubble_enters nobody performs blink_struct
  obtain ⟨second, second_slots, second_wait, performs⟩ := fish_wait_prints reads
    (fun n => (frames_stage lines0 lines1 vmem (WAIT + n)).put BUBBLE (Actor.timed 73 77 7 6 n))
    (fun n => by
      rw [Stage.tick_put, tick_frames, Actor.timed_tick _ _ (by decide) (by decide)]
      rfl)
    WAIT performs
  -- it follows the frames
  obtain ⟨answer, followed, synced, performs⟩ := bubble_follows corner performs
  obtain ⟨third, third_slots, third_wait, performs⟩ := fish_wait_prints reads
    (fun n => (frames_stage lines0 lines1 vmem (2 * WAIT + n)).put BUBBLE
      (Actor.timed 73 77 15 15 (2 * WAIT + n)))
    (fun n => by
      rw [Stage.tick_put, tick_frames, Actor.timed_tick _ _ (by decide) (by decide)]
      rfl)
    WAIT performs
  -- it leaves
  obtain ⟨left, left_slots, removed, performs⟩ := bubble_leaves nobody performs
  obtain ⟨fourth, fourth_slots, fourth_wait, -⟩ := fish_wait_prints reads
    (fun n => frames_stage lines0 lines1 (Function.update vmem (2 * BUBBLE) 73) (3 * WAIT + n))
    (fun n => tick_frames ..) WAIT performs
  obtain ⟨reply, after, closes, -⟩ := @prints_close process fdt 2 le_rfl
  refine ⟨after, ?_⟩
  rw [← fish_screens nobody, fish_show]
  refine writes.silent (first_wait.silent (second_wait.silent ?_))
  simp only [synced, fish_ioctl]
  refine third_wait.silent ?_
  simp only [removed]
  exact fourth_wait.silent (closes.silent (prints_done _))

/-- `vidmap` on a pointer inside the user page returns 0; the process keeps its descriptors. -/
theorem reply_vidmap {screen_start : Int} (above : 0x8000000 ≤ screen_start)
    (below : screen_start + 4 ≤ 0x8400000) {system : System}
    (owned : system.Owned process.esp fdt process.argument) :
    ∃ last, system.reply process.image process.esp process.others (.vidmap screen_start) =
        some (⟨0, []⟩, last) ∧
      last.Owned process.esp fdt process.argument := by
  have not_null : screen_start ≠ 0 := by omega
  have inside : screen_start ≥ 0x8000000 ∧ screen_start < 0x8400000 := by omega
  have whole : ¬screen_start + 4 > 0x8400000 := by omega
  simp only [System.reply, Kernel.vidmap, if_neg not_null, if_pos inside, if_neg whole]
  exact ⟨_, rfl, owned⟩

/-- The clock is opened as any other entry. -/
theorem Fd.ofDentry_clock {dentry : Dentry} (clock : dentry.file_type = 0) :
    Fd.ofDentry dentry = Fd.clock := by
  simp [Fd.ofDentry, Fd.clock, clock, find_table_point]

theorem fish_prints (well : process.image.WellFormed) (fresh : Fresh fdt)
    (ticks : ∀ call system, process.known call system → system.Ticked process.esp call)
    {clock dentry0 dentry1 : Dentry} (found : process.image.lookup (bytes "rtc") = some clock)
    (found0 : process.image.lookup (bytes "frame0.txt") = some dentry0)
    (found1 : process.image.lookup (bytes "frame1.txt") = some dentry1)
    (is_clock : clock.file_type = 0) (regular0 : dentry0.file_type = 2)
    (regular1 : dentry1.file_type = 2)
    (lines0_eq : (process.image.file dentry0.inode_index).splitOn NEWLINE = lines0)
    (lines1_eq : (process.image.file dentry1.inode_index).splitOn NEWLINE = lines1)
    (fits0 : FitsScreen lines0) (fits1 : FitsScreen lines1)
    (corner : ∃ c0 c1, frame_cell lines0 lines1 40 = some (c0, c1))
    (nobody : frame_cell lines0 lines1 BUBBLE = none) {rows cols : Nat} (wide : 80 < cols)
    (high : 818 < rows) (frame_struct blink_struct : Blink) (vmem : Nat → UInt8) :
    ∃ after, process.Prints
      (do
        let opened ← request (.descriptor (.open_file (bytes "rtc")))
        let rtc_fd := opened.result
        let added ← add_frames (bytes "frame0.txt") (bytes "frame1.txt") rows cols frame_struct
          (BlinkState.start vmem)
        match added with
        | none => pure (-1, [])
        | some state => fish_show rtc_fd blink_struct state) []
      (0, (List.range (4 * WAIT)).map fun n => fish_screen lines0 lines1 vmem (n + 1)) fdt
      after := by
  subst lines0_eq lines1_eq
  have opened := @prints_open_first process _ fresh (bytes "rtc") clock found (by omega)
  rw [Fd.ofDentry_clock is_clock] at opened
  have in_use : (Function.update fdt 2 Fd.clock 2).flags ≠ 0 := one_ne_zero
  have closed : ∀ fd, 3 ≤ fd → (Function.update fdt 2 Fd.clock fd).flags = 0 := by
    intro fd from_three
    rw [Function.update_of_ne (by omega)]
    exact fresh.closed fd (by omega)
  obtain ⟨filled, added, clock_there⟩ := @add_frames_prints process _ well (bytes "frame0.txt")
    (bytes "frame1.txt") _ _ found0 found1 regular0 regular1 in_use closed rows cols
    (fun line mem => (fits0.short line mem).trans_lt wide)
    (fun line mem => (fits1.short line mem).trans_lt wide) (fits0.few.trans_lt high)
    (fits1.few.trans_lt high) frame_struct (BlinkState.start vmem)
  rw [Function.update_self] at clock_there
  let cells : Blink := { frame_struct with on_length := 15, off_length := 15 }
  obtain ⟨others, performs⟩ := (BlinkState.performs_start vmem).addAll
    (Stage.fits_enter (frame_users_sorted cells fits0 fits1)
      (frame_users_timed cells fits0 fits1 rfl rfl) fun _ _ => rfl)
  rw [@enter_frames _ _ cells fits0 fits1 rfl rfl] at performs
  obtain ⟨after, shows⟩ := fish_show_prints ticks clock_there blink_struct corner nobody performs
  exact ⟨after, opened.silent (added.silent shows)⟩

/-- An image with the clock and two frames of one character. -/
def Image.animation : Image where
  byte offset :=
    match offset with
    | 0 => 3                                                    -- num_dir_entry
    | 4 => 2                                                    -- num_inodes
    | 8 => 2                                                    -- num_data_blocks
    | 64 => 114 | 65 => 116 | 66 => 99                          -- rtc
    | 128 => 102 | 129 => 114 | 130 => 97 | 131 => 109 | 132 => 101 | 133 => 48   -- frame0.txt
    | 134 => 46 | 135 => 116 | 136 => 120 | 137 => 116
    | 160 => 2
    | 192 => 102 | 193 => 114 | 194 => 97 | 195 => 109 | 196 => 101 | 197 => 49   -- frame1.txt
    | 198 => 46 | 199 => 116 | 200 => 120 | 201 => 116
    | 224 => 2
    | 228 => 1
    | 4096 => 1                                                 -- length of inode 0
    | 8192 => 1                                                 -- length of inode 1
    | 8196 => 1                                                 -- its block
    | 12288 => 47
    | 16384 => 92
    | _ => 0

theorem Image.animation_wellFormed : Image.animation.WellFormed where
  entries_le := by decide
  file_type_le := by decide
  inode_lt := by decide
  length_le := by decide
  block_lt := by decide

/-- A process on that image whose reads of the clock find it ticked. -/
def UserProcess.animation : UserProcess :=
  { UserProcess.sample with
    image := Image.animation
    known call system := system.Ticked 0x7FE000 call }

end programs

end ComputerSystem
