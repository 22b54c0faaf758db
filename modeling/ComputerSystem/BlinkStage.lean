import ComputerSystem.BlinkPhase
import ComputerSystem.BlinkTiming

/-!
# The stage

What the blinking characters are for: on a stage, actors stand at places of the screen and change
between two characters, each in its own time.  As long as actors enter at free places, the list, its
slots and the video memory of `blink.S` perform the stage.
-/

namespace ComputerSystem

/-- An element without its slot and pointer. -/
structure Actor where
  /-- The character of the first phase. -/
  on_char : UInt8
  /-- The character of the second phase. -/
  off_char : UInt8
  /-- Ticks of the first phase. -/
  on : Nat
  /-- Ticks of the second phase. -/
  off : Nat
  /-- Ticks since the period began. -/
  place : Nat
  /-- The character on the screen. -/
  shown : UInt8
  deriving DecidableEq

namespace Actor

/-- An actor begins with its on character. -/
def entering (user : Blink) : Actor where
  on_char := user.on_char
  off_char := user.off_char
  on := user.on_length.toNat
  off := user.off_length.toNat
  place := 0
  shown := user.on_char

/-- A tick changes the character where the other phase begins. -/
def tick (actor : Actor) : Actor :=
  let place := (actor.place + 1) % (actor.on + actor.off)
  let shown :=
    if place = 0 then actor.on_char else if place = actor.on then actor.off_char else actor.shown
  { actor with place, shown }

/-- An actor that takes over the time of another one shows its off character at once, in either
phase. -/
def follow (actor source : Actor) : Actor :=
  { actor with on := source.on, off := source.off, place := source.place, shown := actor.off_char }

/-- An actor that nobody disturbed for `n` ticks. -/
def timed (on_char off_char : UInt8) (on off n : Nat) : Actor where
  on_char := on_char
  off_char := off_char
  on := on
  off := off
  place := n % (on + off)
  shown := if n % (on + off) < on then on_char else off_char

theorem timed_tick (on_char off_char : UInt8) {on off : Nat} (on_pos : 1 ≤ on) (off_pos : 1 ≤ off)
    (n : Nat) : (timed on_char off_char on off n).tick = timed on_char off_char on off (n + 1) := by
  have bound : n % (on + off) < on + off := Nat.mod_lt n (by omega)
  have place_eq : (n % (on + off) + 1) % (on + off) = (n + 1) % (on + off) := by
    rw [Nat.mod_add_mod]
  simp only [timed, tick, place_eq, Actor.mk.injEq, true_and]
  rw [← place_eq]
  rcases Nat.lt_or_ge (n % (on + off) + 1) (on + off) with inside | last
  · rw [Nat.mod_eq_of_lt inside, if_neg (Nat.succ_ne_zero _)]
    split_ifs <;> first | rfl | omega
  · have wraps : n % (on + off) + 1 = on + off := by omega
    rw [wraps, Nat.mod_self, if_pos rfl, if_pos (Nat.lt_of_succ_le on_pos)]

end Actor

/-- The actors at the locations of the screen, and what is behind them. -/
@[ext]
structure Stage where
  /-- Who is at a location. -/
  actor : Nat → Option Actor
  /-- What is shown where nobody is. -/
  backdrop : Nat → UInt8

namespace Stage

/-- The actor whose character a byte of video memory holds. -/
def actorAt (stage : Stage) (offset : Nat) : Option Actor :=
  if offset % 2 = 0 then stage.actor (offset / 2) else none

/-- The video memory. -/
def screen (stage : Stage) (offset : Nat) : UInt8 :=
  ((stage.actorAt offset).map Actor.shown).getD (stage.backdrop offset)

/-- Nobody on the stage. -/
def empty (backdrop : Nat → UInt8) : Stage := ⟨fun _ => none, backdrop⟩

/-- An actor comes to a location, or changes there. -/
def put (stage : Stage) (location : Nat) (actor : Actor) : Stage :=
  { stage with actor := Function.update stage.actor location (some actor) }

/-- An actor leaves, but for its character. -/
def leave (stage : Stage) (location : Nat) (actor : Actor) : Stage where
  actor := Function.update stage.actor location none
  backdrop := Function.update stage.backdrop (2 * location) actor.shown

/-- One event, with the result of the call. -/
def step (stage : Stage) : BlinkEvent → Int × Stage
  | .add user =>
      if user.location.toNat < BLINK_SLOTS then
        (0, stage.put user.location.toNat (.entering user))
      else (-1, stage)
  | .remove arg =>
      let location := (arg.setWidth 16).toNat
      match stage.actor location with
      | some actor => (0, stage.leave location actor)
      | none => (-1, stage)
  | .find location => (if (stage.actor location.toNat).isSome then 0 else -1, stage)
  | .sync arg =>
      let location := (arg.setWidth 16).toNat
      match stage.actor ((arg >>> 16).setWidth 16).toNat, stage.actor location with
      | some source, some actor => (0, stage.put location (actor.follow source))
      | _, _ => (-1, stage)
  | .tick => (0, { stage with actor := fun location => (stage.actor location).map Actor.tick })

/-- The stage behind some events. -/
def after (stage : Stage) (events : List BlinkEvent) : Stage :=
  events.foldl (fun stage event => (stage.step event).2) stage

/-- An actor enters at a free place other than 0, and counts in both phases. -/
def Fits (stage : Stage) : BlinkEvent → Prop
  | .add user =>
      user.location.toNat < BLINK_SLOTS → user.location ≠ 0 ∧
        stage.actor user.location.toNat = none ∧
        1 ≤ user.on_length.toNat ∧ user.on_length.toNat ≤ 32767 ∧
        1 ≤ user.off_length.toNat ∧ user.off_length.toNat ≤ 32767
  | _ => True

/-- Every event fits where it comes. -/
def FitsAll : Stage → List BlinkEvent → Prop
  | _, [] => True
  | stage, event :: events => stage.Fits event ∧ (stage.step event).2.FitsAll events

/-- What a tick does to the actor at one location. -/
def tickAt (stage : Stage) (location : Nat) : Stage :=
  { stage with
    actor := Function.update stage.actor location ((stage.actor location).map Actor.tick) }

theorem actor_tickAt (stage : Stage) (location : Nat) :
    (stage.tickAt location).actor =
      Function.update stage.actor location ((stage.actor location).map Actor.tick) := rfl

theorem ticks_actor {locations : List Nat} (distinct : locations.Nodup) (stage : Stage)
    (location : Nat) :
    (locations.foldl tickAt stage).actor location =
      if location ∈ locations then (stage.actor location).map Actor.tick
      else stage.actor location := by
  induction locations generalizing stage with
  | nil => rfl
  | cons first locations ih =>
      rw [List.nodup_cons] at distinct
      rw [List.foldl_cons, ih distinct.2, actor_tickAt]
      by_cases here : location = first
      · rw [here, if_neg distinct.1, if_pos List.mem_cons_self, Function.update_self]
      · simp only [List.mem_cons, here, false_or, Function.update_of_ne here]

theorem ticks_backdrop (locations : List Nat) (stage : Stage) :
    (locations.foldl tickAt stage).backdrop = stage.backdrop := by
  induction locations generalizing stage with
  | nil => rfl
  | cons first locations ih => exact ih (stage.tickAt first)

theorem actorAt_double (stage : Stage) (location : Nat) :
    stage.actorAt (2 * location) = stage.actor location := by
  rw [actorAt, if_pos (Nat.mul_mod_right 2 location), Nat.mul_div_cancel_left _ Nat.two_pos]

theorem actorAt_other {stage other : Stage} {location offset : Nat}
    (same : ∀ place, place ≠ location → other.actor place = stage.actor place)
    (different : offset ≠ 2 * location) : other.actorAt offset = stage.actorAt offset := by
  rw [actorAt, actorAt]
  split_ifs with even
  · exact same _ (by omega)
  · rfl

theorem screen_of_actor {stage : Stage} {location : Nat} {actor : Actor}
    (here : stage.actor location = some actor) : stage.screen (2 * location) = actor.shown := by
  rw [screen, actorAt_double, here, Option.map_some, Option.getD_some]

@[simp]
theorem actor_put (stage : Stage) (location : Nat) (actor : Actor) :
    (stage.put location actor).actor = Function.update stage.actor location (some actor) := rfl

@[simp]
theorem actor_leave (stage : Stage) (location : Nat) (actor : Actor) :
    (stage.leave location actor).actor = Function.update stage.actor location none := rfl

theorem screen_put (stage : Stage) (location : Nat) (actor : Actor) :
    (stage.put location actor).screen =
      Function.update stage.screen (2 * location) actor.shown := by
  funext offset
  by_cases here : offset = 2 * location
  · rw [here, Function.update_self]
    exact screen_of_actor (Function.update_self ..)
  · rw [Function.update_of_ne here, screen, screen, actorAt_other _ here]
    · rfl
    · exact fun place other => Function.update_of_ne other ..

theorem screen_leave {stage : Stage} {location : Nat} {actor : Actor}
    (here : stage.actor location = some actor) :
    (stage.leave location actor).screen = stage.screen := by
  funext offset
  by_cases same : offset = 2 * location
  · rw [same, screen_of_actor here, screen, actorAt_double]
    simp [leave]
  · have others : ∀ place, place ≠ location →
        (stage.leave location actor).actor place = stage.actor place :=
      fun place other => Function.update_of_ne other ..
    rw [screen, screen, actorAt_other others same]
    simp [leave, same]

end Stage

/-! ## Elements that play actors -/

/-- An element plays an actor, but for the character on the screen. -/
structure Blink.Plays (blink : Blink) (actor : Actor) : Prop where
  /-- The characters are the same. -/
  on_char : blink.on_char = actor.on_char
  /-- The characters are the same. -/
  off_char : blink.off_char = actor.off_char
  /-- The element is at the same place of its period. -/
  is_at : blink.At actor.on actor.off actor.place
  /-- The first phase takes time. -/
  on_pos : 1 ≤ actor.on
  /-- Its ticks count down as a signed number. -/
  on_le : actor.on ≤ 32767
  /-- The second phase takes time. -/
  off_pos : 1 ≤ actor.off
  /-- Its ticks count down as a signed number. -/
  off_le : actor.off ≤ 32767

namespace Blink

variable {blink : Blink} {actor : Actor}

/-- A tick writes where a phase begins. -/
theorem At.tick_writes {on off place : Nat} (is_at : blink.At on off place) (on_pos : 1 ≤ on)
    (on_le : on ≤ 32767) (off_pos : 1 ≤ off) (off_le : off ≤ 32767) :
    blink.tick.2 =
      let next := (place + 1) % (on + off)
      if next = 0 then some blink.on_char else if next = on then some blink.off_char else none := by
  obtain ⟨positive, small⟩ := is_at.countdown_bounds on_le off_le
  obtain ⟨-, -, in_period, status, countdown⟩ := is_at
  have exact := counting_iff positive small
  by_cases counting : BitVec.slt 0 (blink.countdown - 1)
  · rw [tick_counting counting]
    rw [exact, countdown] at counting
    have inside : place + 1 < on + off := by
      split_ifs at counting <;> omega
    have same_phase : place + 1 ≠ on := by
      split_ifs at counting <;> omega
    simp only [Nat.mod_eq_of_lt inside, if_neg same_phase]
    rw [if_neg (Nat.succ_ne_zero place)]
  · by_cases off_phase : blink.status &&& 1 = 0
    · have behind : ¬place < on := by
        rwa [← status, on_iff, not_not]
      have last : place + 1 = on + off := by
        rw [exact, countdown, if_neg behind] at counting
        omega
      rw [tick_on counting off_phase]
      simp only [last, Nat.mod_self, if_true]
    · have before : place < on := by
        rwa [← status, on_iff]
      have last : place + 1 = on := by
        rw [exact, countdown, if_pos before] at counting
        omega
      rw [tick_off counting off_phase]
      have inside : on < on + off := by omega
      have positive : on ≠ 0 := by omega
      simp only [last, Nat.mod_eq_of_lt inside, if_neg positive, if_true]

theorem Plays.tick (plays : blink.Plays actor) :
    blink.tick.1.Plays actor.tick ∧ blink.tick.2.getD actor.shown = actor.tick.shown := by
  obtain ⟨on_char, off_char, is_at, on_pos, on_le, off_pos, off_le⟩ := plays
  have key := BlinkState.tick_key blink
  constructor
  · refine ⟨?_, ?_, is_at.tick on_pos on_le off_pos off_le, on_pos, on_le, off_pos, off_le⟩
    · exact (congrArg BlinkKey.on_char key).trans on_char
    · exact (congrArg BlinkKey.off_char key).trans off_char
  · rw [is_at.tick_writes on_pos on_le off_pos off_le, Actor.tick, on_char, off_char]
    simp only
    split_ifs <;> rfl

theorem Plays.relink (plays : blink.Plays actor) (pointer : Option Nat) :
    { blink with next := pointer }.Plays actor :=
  { plays with is_at := plays.is_at.relink pointer }

theorem plays_entering (user : Blink) (head : Option Nat) (on_pos : 1 ≤ user.on_length.toNat)
    (on_le : user.on_length.toNat ≤ 32767) (off_pos : 1 ≤ user.off_length.toNat)
    (off_le : user.off_length.toNat ≤ 32767) :
    (user.added head).Plays (Actor.entering user) := by
  refine ⟨rfl, rfl, ⟨rfl, rfl, ?_, ?_, ?_⟩, on_pos, on_le, off_pos, off_le⟩
  · exact Nat.add_pos_left on_pos _
  · exact iff_of_true (by decide : (1 : BitVec 16) &&& 1 = 1) on_pos
  · exact (if_pos on_pos).symm

/-- `sync_copy_loop` plays the actor that follows. -/
theorem Plays.synchronise {source : Blink} {leader : Actor} (plays : blink.Plays actor)
    (leads : source.Plays leader) : (blink.synchronise source).Plays (actor.follow leader) where
  on_char := plays.on_char
  off_char := plays.off_char
  is_at := ⟨leads.is_at.on_length, leads.is_at.off_length, leads.is_at.in_period,
    leads.is_at.status, leads.is_at.countdown⟩
  on_pos := leads.on_pos
  on_le := leads.on_le
  off_pos := leads.off_pos
  off_le := leads.off_le

end Blink

namespace BlinkState

/-- The location of the element in a slot. -/
def place (state : BlinkState) (slot : Nat) : Nat := (state.blink_array slot).location.toNat

/-- The elements on the list play the actors of a stage, one each, and the video memory is what the
stage looks like. -/
structure Performs (state : BlinkState) (slots : List Nat) (stage : Stage) : Prop where
  /-- The elements on the list. -/
  listed : state.Listed slots
  /-- The other slots can be handed out. -/
  free : ∀ slot < BLINK_SLOTS, slot ∉ slots → (state.blink_array slot).location = 0
  /-- They are on the screen, not at location 0. -/
  on_screen : ∀ slot ∈ slots, 1 ≤ state.place slot ∧ state.place slot < BLINK_SLOTS
  /-- They share no location. -/
  distinct : (slots.map state.place).Nodup
  /-- Each plays the actor at its location. -/
  plays : ∀ slot ∈ slots, ∃ actor, stage.actor (state.place slot) = some actor ∧
    (state.blink_array slot).Plays actor
  /-- Each actor is played. -/
  cast : ∀ location actor, stage.actor location = some actor → location ∈ slots.map state.place
  /-- The screen is that of the stage. -/
  vmem : state.vmem = stage.screen

variable {state : BlinkState} {slots : List Nat} {stage : Stage}

theorem performs_start (vmem : Nat → UInt8) : (start vmem).Performs [] (.empty vmem) where
  listed := start_listed vmem
  free _ _ _ := rfl
  on_screen := List.forall_mem_nil _
  distinct := List.nodup_nil
  plays := List.forall_mem_nil _
  cast _ _ absurd := nomatch absurd
  vmem := by
    funext offset
    rw [Stage.screen, Stage.actorAt]
    split_ifs <;> rfl

theorem Performs.put (performs : state.Performs slots stage) {slot : Nat} (mem : slot ∈ slots)
    {blink : Blink} (same_next : blink.next = state.next slot)
    (same_place : blink.location = (state.blink_array slot).location) {actor : Actor}
    (plays : blink.Plays actor) {vmem : Nat → UInt8}
    (written : vmem = Function.update state.vmem (2 * state.place slot) actor.shown) :
    { state.setSlot slot blink with vmem }.Performs slots
      (stage.put (state.place slot) actor) := by
  set after : BlinkState := { state.setSlot slot blink with vmem } with after_eq
  have location (other : Nat) :
      (after.blink_array other).location = (state.blink_array other).location := by
    rw [after_eq]
    simp only [setSlot, Function.update_apply]
    split_ifs with here
    · rw [here, same_place]
    · rfl
  have place_eq : after.place = state.place := funext fun other => by
    rw [place, place, location]
  have next_eq : after.next = state.next := setSlot_next_same state same_next
  refine ⟨⟨?_, performs.listed.in_array⟩, ?_, ?_, ?_, ?_, ?_, ?_⟩
  · rw [next_eq]
    exact performs.listed.nodes
  · intro other in_array absent
    rw [location]
    exact performs.free other in_array absent
  · rw [place_eq]
    exact performs.on_screen
  · rw [place_eq]
    exact performs.distinct
  · intro other other_mem
    rw [place_eq]
    by_cases here : other = slot
    · refine ⟨actor, ?_, ?_⟩
      · rw [here]
        exact Function.update_self ..
      · rw [here, after_eq]
        simpa only [setSlot, Function.update_self] using plays
    · obtain ⟨played, played_eq, other_plays⟩ := performs.plays other other_mem
      have different : state.place other ≠ state.place slot := fun same =>
        here (List.inj_on_of_nodup_map performs.distinct other_mem mem same)
      refine ⟨played, ?_, ?_⟩
      · rw [Stage.actor_put, Function.update_of_ne different, played_eq]
      · rw [after_eq]
        simpa only [setSlot, Function.update_of_ne here] using other_plays
  · intro location played played_eq
    rw [place_eq]
    by_cases here : location = state.place slot
    · rw [here]
      exact List.mem_map_of_mem mem
    · rw [Stage.actor_put, Function.update_of_ne here] at played_eq
      exact performs.cast location played played_eq
  · rw [Stage.screen_put, ← performs.vmem]
    exact written

/-! ## Events -/

theorem Performs.tickSlot (performs : state.Performs slots stage) {slot : Nat}
    (mem : slot ∈ slots) :
    (state.tickSlot slot).Performs slots (stage.tickAt (state.place slot)) := by
  obtain ⟨actor, here, plays⟩ := performs.plays slot mem
  obtain ⟨ticked_plays, written⟩ := plays.tick
  have key := tick_key (state.blink_array slot)
  have stage_eq : stage.tickAt (state.place slot) =
      stage.put (state.place slot) actor.tick := by
    rw [Stage.tickAt, here]
    rfl
  have shown_before : state.vmem (2 * state.place slot) = actor.shown := by
    rw [performs.vmem]
    exact Stage.screen_of_actor here
  rw [stage_eq, BlinkState.tickSlot]
  rcases ticked : (state.blink_array slot).tick with ⟨blink, char⟩
  rw [ticked] at ticked_plays written key
  have same_next : blink.next = state.next slot := by
    rw [next, ← tick_next (state.blink_array slot), ticked]
  have same_place : blink.location = (state.blink_array slot).location :=
    congrArg BlinkKey.location key
  cases char with
  | none =>
      have still : state.vmem =
          Function.update state.vmem (2 * state.place slot) actor.tick.shown := by
        rw [← written, Option.getD_none, ← shown_before, Function.update_eq_self]
      exact performs.put mem same_next same_place ticked_plays still
  | some c =>
      refine performs.put mem same_next same_place ticked_plays ?_
      rw [← written, Option.getD_some, setSlot, same_place]
      rfl

theorem tickSlot_place (state : BlinkState) (slot : Nat) :
    (state.tickSlot slot).place = state.place :=
  funext fun other => congrArg BitVec.toNat ((tickSlot_same state slot).location other)

theorem Performs.ticks (performs : state.Performs slots stage) {todo : List Nat}
    (within : ∀ slot ∈ todo, slot ∈ slots) :
    (todo.foldl BlinkState.tickSlot state).Performs slots
      ((todo.map state.place).foldl Stage.tickAt stage) := by
  induction todo generalizing state stage with
  | nil => exact performs
  | cons first todo ih =>
      rw [List.forall_mem_cons] at within
      have rest := ih (performs.tickSlot within.1) within.2
      rwa [tickSlot_place] at rest

/-- The tasklet ticks every actor once. -/
theorem Performs.tick (performs : state.Performs slots stage) :
    (slots.foldl BlinkState.tickSlot state).Performs slots (stage.step .tick).2 := by
  have ticked := performs.ticks fun _ mem => mem
  have stage_eq : (slots.map state.place).foldl Stage.tickAt stage = (stage.step .tick).2 := by
    have actor : ((slots.map state.place).foldl Stage.tickAt stage).actor =
        fun location => (stage.actor location).map Actor.tick := by
      funext location
      rw [Stage.ticks_actor performs.distinct]
      split_ifs with mem
      · rfl
      · cases here : stage.actor location with
        | none => rfl
        | some actor => exact absurd (performs.cast location actor here) mem
    exact Stage.ext actor (Stage.ticks_backdrop (slots.map state.place) stage)
  rwa [stage_eq] at ticked

theorem Performs.find (performs : state.Performs slots stage) (location : BitVec 16) :
    match stage.actor location.toNat with
    | none => slots.find? (fun slot => (state.blink_array slot).location = location) = none
    | some actor => ∃ slot ∈ slots, (state.blink_array slot).location = location ∧
        slots.find? (fun slot => (state.blink_array slot).location = location) = some slot ∧
        (state.blink_array slot).Plays actor := by
  cases found : slots.find? fun slot => (state.blink_array slot).location = location with
  | none =>
      rw [List.find?_eq_none] at found
      cases here : stage.actor location.toNat with
      | none => rfl
      | some actor =>
          obtain ⟨slot, mem, place_eq⟩ := List.mem_map.mp (performs.cast _ actor here)
          have same : (state.blink_array slot).location = location :=
            BitVec.eq_of_toNat_eq place_eq
          exact absurd (decide_eq_true same) (found slot mem)
  | some slot =>
      have mem := List.mem_of_find?_eq_some found
      have same : (state.blink_array slot).location = location := by
        simpa using List.find?_some found
      obtain ⟨actor, here, plays⟩ := performs.plays slot mem
      rw [place, same] at here
      rw [here]
      exact ⟨slot, mem, same, rfl, plays⟩

/-- There is a free slot, since no two elements share a location. -/
theorem Performs.malloc (performs : state.Performs slots stage) {location : Nat}
    (positive : 1 ≤ location) (inside : location < BLINK_SLOTS)
    (nobody : stage.actor location = none) :
    ∃ fresh, state.mp1_malloc = some fresh ∧ fresh ∉ slots := by
  have absent : location ∉ slots.map state.place := by
    intro mem
    obtain ⟨slot, slot_mem, rfl⟩ := List.mem_map.mp mem
    obtain ⟨actor, here, -⟩ := performs.plays slot slot_mem
    rw [nobody] at here
    cases here
  have room : slots.length < BLINK_SLOTS := by
    have subset : location :: slots.map state.place ⊆ List.range BLINK_SLOTS := by
      intro other mem
      rw [List.mem_range]
      rcases List.mem_cons.mp mem with rfl | mem
      · exact inside
      · obtain ⟨slot, slot_mem, rfl⟩ := List.mem_map.mp mem
        exact (performs.on_screen slot slot_mem).2
    have fits := ((List.nodup_cons.mpr ⟨absent, performs.distinct⟩).subperm subset).length_le
    rw [List.length_cons, List.length_map, List.length_range] at fits
    exact fits
  have empty : ∃ slot < BLINK_SLOTS, slot ∉ slots := by
    by_contra full
    push Not at full
    have subset : List.range BLINK_SLOTS ⊆ slots :=
      fun slot mem => full slot (List.mem_range.mp mem)
    have fits := (List.nodup_range.subperm subset).length_le
    rw [List.length_range] at fits
    omega
  obtain ⟨slot, in_array, free⟩ := empty
  cases allocated : state.mp1_malloc with
  | none =>
      have taken := List.find?_range_eq_none.mp allocated slot in_array
      simp [performs.free slot in_array free] at taken
  | some fresh =>
      refine ⟨fresh, rfl, fun mem => ?_⟩
      obtain ⟨zero, -, -⟩ := List.find?_range_eq_some.mp allocated
      have location_zero : state.place fresh = 0 :=
        congrArg BitVec.toNat (of_decide_eq_true zero)
      have on_screen := (performs.on_screen fresh mem).1
      omega

theorem Performs.added (performs : state.Performs slots stage) {fresh : Nat} {user : Blink}
    (in_array : fresh < BLINK_SLOTS) (absent : fresh ∉ slots) (positive : user.location ≠ 0)
    (inside : user.location.toNat < BLINK_SLOTS) (nobody : stage.actor user.location.toNat = none)
    (plays : (user.added state.mp1_list_head).Plays (.entering user)) :
    (state.added fresh user).Performs (fresh :: slots)
      (stage.put user.location.toNat (.entering user)) := by
  have place_fresh : (state.added fresh user).place fresh = user.location.toNat := by
    rw [place, added_blink_array, Function.update_self]
    rfl
  have kept : ∀ other ∈ slots,
      (state.added fresh user).blink_array other = state.blink_array other := by
    intro other mem
    rw [added_blink_array, Function.update_of_ne]
    rintro rfl
    exact absent mem
  have place_kept : ∀ other ∈ slots, (state.added fresh user).place other = state.place other :=
    fun other mem => congrArg (fun blink : Blink => blink.location.toNat) (kept other mem)
  have places : (fresh :: slots).map (state.added fresh user).place =
      user.location.toNat :: slots.map state.place := by
    rw [List.map_cons, place_fresh, List.map_congr_left place_kept]
  have new_place : user.location.toNat ∉ slots.map state.place := by
    intro mem
    obtain ⟨slot, slot_mem, same⟩ := List.mem_map.mp mem
    obtain ⟨actor, here, -⟩ := performs.plays slot slot_mem
    rw [same, nobody] at here
    cases here
  refine ⟨performs.listed.added user in_array absent, ?_, ?_, ?_, ?_, ?_, ?_⟩
  · intro slot slot_in_array free
    rw [List.mem_cons, not_or] at free
    rw [added_blink_array, Function.update_of_ne free.1]
    exact performs.free slot slot_in_array free.2
  · rw [List.forall_mem_cons, place_fresh]
    have location_ne : user.location.toNat ≠ 0 := fun zero =>
      positive (BitVec.eq_of_toNat_eq zero)
    refine ⟨⟨by omega, inside⟩, fun slot mem => ?_⟩
    rw [place_kept slot mem]
    exact performs.on_screen slot mem
  · rw [places]
    exact List.nodup_cons.mpr ⟨new_place, performs.distinct⟩
  · rw [List.forall_mem_cons, place_fresh]
    refine ⟨⟨_, Function.update_self .., ?_⟩, fun slot mem => ?_⟩
    · rw [added_blink_array, Function.update_self]
      exact plays
    · obtain ⟨actor, here, slot_plays⟩ := performs.plays slot mem
      rw [place_kept slot mem, kept slot mem]
      refine ⟨actor, ?_, slot_plays⟩
      rw [Stage.actor_put, Function.update_of_ne, here]
      intro same
      exact new_place (same ▸ List.mem_map_of_mem mem)
  · intro location actor here
    rw [places]
    by_cases new : location = user.location.toNat
    · exact new ▸ List.mem_cons_self
    · rw [Stage.actor_put, Function.update_of_ne new] at here
      exact List.mem_cons_of_mem _ (performs.cast location actor here)
  · rw [Stage.screen_put, ← performs.vmem]
    rfl

theorem Performs.removed {before behind : List Nat} {element : Nat}
    (performs : state.Performs (before ++ element :: behind) stage) {actor : Actor}
    (here : stage.actor (state.place element) = some actor) :
    (state.removed before element).Performs (before ++ behind)
      (stage.leave (state.place element) actor) := by
  have absent := performs.listed.nodes.not_mem_others
  have kept : ∀ slot, slot ≠ element → ∃ pointer,
      (state.removed before element).blink_array slot =
        { state.blink_array slot with next := pointer } := by
    intro slot different
    obtain ⟨pointer, kept⟩ := removed_blink_array state before element slot
    exact ⟨pointer, by rw [kept, if_neg different]⟩
  have place_kept : ∀ slot, slot ≠ element →
      (state.removed before element).place slot = state.place slot := by
    intro slot different
    obtain ⟨pointer, slot_eq⟩ := kept slot different
    rw [place, slot_eq]
    rfl
  have others_ne : ∀ slot ∈ before ++ behind, slot ≠ element := by
    rintro slot mem rfl
    exact absent mem
  have others_mem : ∀ slot ∈ before ++ behind, slot ∈ before ++ element :: behind :=
    fun slot mem => LinkedList.mem_of_mem_others mem
  have places : (before ++ behind).map (state.removed before element).place =
      (before ++ behind).map state.place :=
    List.map_congr_left fun slot mem => place_kept slot (others_ne slot mem)
  have distinct : (state.place element :: (before ++ behind).map state.place).Nodup := by
    have perm : ((before ++ element :: behind).map state.place).Perm
        ((element :: (before ++ behind)).map state.place) := List.perm_middle.map _
    exact perm.nodup_iff.mp performs.distinct
  refine ⟨performs.listed.removed, ?_, ?_, ?_, ?_, ?_, ?_⟩
  · intro slot in_array free
    by_cases same : slot = element
    · obtain ⟨pointer, zeroed⟩ := removed_blink_array state before element slot
      rw [zeroed, if_pos same]
      rfl
    · obtain ⟨pointer, slot_eq⟩ := kept slot same
      rw [slot_eq]
      refine performs.free slot in_array fun mem => free ?_
      rcases List.mem_append.mp mem with mem | mem
      · exact List.mem_append_left _ mem
      · exact List.mem_append_right _ (List.mem_of_ne_of_mem same mem)
  · intro slot mem
    rw [place_kept slot (others_ne slot mem)]
    exact performs.on_screen slot (others_mem slot mem)
  · rw [places]
    exact (List.nodup_cons.mp distinct).2
  · intro slot mem
    obtain ⟨pointer, slot_eq⟩ := kept slot (others_ne slot mem)
    obtain ⟨played, played_eq, plays⟩ := performs.plays slot (others_mem slot mem)
    rw [place_kept slot (others_ne slot mem), slot_eq]
    refine ⟨played, ?_, plays.relink pointer⟩
    rw [Stage.actor_leave, Function.update_of_ne, played_eq]
    intro same
    exact (List.nodup_cons.mp distinct).1 (same ▸ List.mem_map_of_mem mem)
  · intro location played played_eq
    by_cases left : location = state.place element
    · rw [Stage.actor_leave, left, Function.update_self] at played_eq
      cases played_eq
    · rw [Stage.actor_leave, Function.update_of_ne left] at played_eq
      rw [places]
      have mem := performs.cast location played played_eq
      rw [List.map_append, List.map_cons, List.mem_append, List.mem_cons] at mem
      rw [List.map_append, List.mem_append]
      exact mem.imp_right fun mem => mem.resolve_left left
  · rw [removed_vmem, Stage.screen_leave here]
    exact performs.vmem

theorem Performs.synchronised (performs : state.Performs slots stage) {source target : Nat}
    (mem : target ∈ slots) {actor leader : Actor}
    (plays : (state.blink_array target).Plays actor)
    (leads : (state.blink_array source).Plays leader) :
    (state.sync_copy source target).Performs slots
      (stage.put (state.place target) (actor.follow leader)) := by
  let blink := (state.blink_array target).synchronise (state.blink_array source)
  have same_next : blink.next = state.next target := rfl
  have same_place : blink.location = (state.blink_array target).location := rfl
  have follows : blink.Plays (actor.follow leader) := plays.synchronise leads
  refine performs.put mem same_next same_place follows ?_
  rw [Blink.sync_char_eq]
  exact congrArg (Function.update state.vmem (2 * state.place target)) plays.off_char

/-- Every call and every tick returns what the stage says and leaves what the stage becomes. -/
theorem Performs.call (performs : state.Performs slots stage) {event : BlinkEvent}
    (fits : stage.Fits event) :
    ∃ answer others, state.call event = some answer ∧ answer.result = (stage.step event).1 ∧
      answer.state.Performs others (stage.step event).2 := by
  cases event with
  | add user =>
      by_cases inside : user.location.toNat < BLINK_SLOTS
      · obtain ⟨positive, nobody, on_pos, on_le, off_pos, off_le⟩ := fits inside
        have location_ne : user.location.toNat ≠ 0 := fun zero =>
          positive (BitVec.eq_of_toNat_eq zero)
        obtain ⟨fresh, allocated, absent⟩ := performs.malloc (by omega) inside nobody
        have plays := Blink.plays_entering user state.mp1_list_head on_pos on_le off_pos off_le
        refine ⟨_, fresh :: slots, congrArg some (ioctl_add_eq inside allocated), ?_, ?_⟩
        · rw [Stage.step, if_pos inside]
        · rw [Stage.step, if_pos inside]
          exact performs.added (lt_of_mp1_malloc allocated) absent positive inside nobody plays
      · have refused : state.mp1_ioctl_add user = ⟨-1, none, state⟩ :=
          if_pos (Nat.not_lt.mp inside)
        refine ⟨_, slots, congrArg some refused, ?_, ?_⟩
        · rw [Stage.step, if_neg inside]
        · rw [Stage.step, if_neg inside]
          exact performs
  | remove arg =>
      have found := performs.find (arg.setWidth 16)
      rw [Stage.step]
      obtain ⟨absent, refused⟩ | ⟨element, before, behind, rfl, place_eq, earlier, removed⟩ :=
        performs.listed.ioctl_remove arg
      · cases here : stage.actor (arg.setWidth 16).toNat with
        | none => exact ⟨_, slots, refused, rfl, performs⟩
        | some actor =>
            rw [here] at found
            obtain ⟨slot, mem, same, -⟩ := found
            exact absurd same (absent slot mem)
      · obtain ⟨actor, here, -⟩ := performs.plays element (by simp)
        have place_toNat : state.place element = (arg.setWidth 16).toNat :=
          congrArg BitVec.toNat place_eq
        have leaves := performs.removed here
        rw [place_toNat] at here leaves
        rw [here]
        exact ⟨_, before ++ behind, removed, rfl, leaves⟩
  | find location =>
      have found := performs.find location
      refine ⟨_, slots, performs.listed.ioctl_find location, ?_, ?_⟩
      · rw [Stage.step]
        cases here : stage.actor location.toNat with
        | none =>
            rw [here] at found
            rw [found]
            rfl
        | some actor =>
            rw [here] at found
            obtain ⟨slot, -, -, found, -⟩ := found
            rw [found]
            rfl
      · cases slots.find? fun slot => (state.blink_array slot).location = location <;>
          exact performs
  | sync arg =>
      have source_found := performs.find ((arg >>> 16).setWidth 16)
      have target_found := performs.find (arg.setWidth 16)
      simp only [BlinkState.call, mp1_ioctl_sync, performs.listed.find_helper, Option.bind_some,
        Option.map_some, Stage.step]
      cases leader_eq : stage.actor ((arg >>> 16).setWidth 16).toNat with
      | none =>
          rw [leader_eq] at source_found
          rw [source_found]
          exact ⟨_, slots, rfl, rfl, performs⟩
      | some leader =>
          rw [leader_eq] at source_found
          obtain ⟨source, -, -, source_found, leads⟩ := source_found
          rw [source_found]
          cases here : stage.actor (arg.setWidth 16).toNat with
          | none =>
              rw [here] at target_found
              rw [target_found]
              exact ⟨_, slots, rfl, rfl, performs⟩
          | some actor =>
              rw [here] at target_found
              obtain ⟨target, mem, same, target_found, plays⟩ := target_found
              rw [target_found]
              have follows := performs.synchronised mem plays leads
              rw [place, same] at follows
              exact ⟨_, slots, rfl, rfl, follows⟩
  | tick =>
      refine ⟨⟨0, none, slots.foldl BlinkState.tickSlot state⟩, slots, ?_, rfl, performs.tick⟩
      rw [BlinkState.call, performs.listed.tasklet, Option.map_some]

/-! ## Runs -/

theorem Performs.run (performs : state.Performs slots stage) {events : List BlinkEvent}
    (fits : stage.FitsAll events) :
    ∃ last others, Run.run step state events = some last ∧
      last.Performs others (stage.after events) := by
  induction events generalizing state slots stage with
  | nil => exact ⟨state, slots, rfl, performs⟩
  | cons event events ih =>
      obtain ⟨answer, others, called, -, next_performs⟩ := performs.call fits.1
      obtain ⟨last, slots, reached, last_performs⟩ := ih next_performs fits.2
      refine ⟨last, slots, ?_, last_performs⟩
      rw [Run.run, step, called, Option.map_some]
      exact reached

/-- As long as actors enter at free places, every call and every tick returns, with the result that
the stage gives, and the video memory is what the stage looks like. -/
theorem blink_performs_stage (vmem : Nat → UInt8) (events : List BlinkEvent)
    (fits : (Stage.empty vmem).FitsAll events) :
    let stage := (Stage.empty vmem).after events
    ∃ last, Run.run step (start vmem) events = some last ∧ last.vmem = stage.screen ∧
      ∀ event, stage.Fits event →
        ∃ answer, last.call event = some answer ∧ answer.result = (stage.step event).1 := by
  obtain ⟨last, slots, reached, performs⟩ := (performs_start vmem).run fits
  refine ⟨last, reached, performs.vmem, fun event event_fits => ?_⟩
  obtain ⟨answer, -, called, result, -⟩ := performs.call event_fits
  exact ⟨answer, called, result⟩

/-- An actor enters at location 1, leaves after a tick, and another one comes to its place. -/
def recast : List BlinkEvent :=
  [.add (BlinkHistory.framed 1), .tick, .remove 1, .add (BlinkHistory.framed 1)]

/-- The theorem above, for these events. -/
theorem blink_performs_stage_recast :
    ∃ last, Run.run step (start fun _ => 0) recast = some last ∧ last.vmem 2 = 111 := by
  have fits : (Stage.empty fun _ => 0).FitsAll recast := by
    refine ⟨fun _ => ?_, trivial, trivial, fun _ => ?_, trivial⟩
    · exact ⟨by decide, rfl, by decide, by decide, by decide, by decide⟩
    · exact ⟨by decide, rfl, by decide, by decide, by decide, by decide⟩
  obtain ⟨last, reached, vmem, -⟩ := blink_performs_stage (fun _ => 0) recast fits
  exact ⟨last, reached, congrFun vmem 2⟩

end BlinkState

end ComputerSystem
