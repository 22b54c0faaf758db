import ComputerSystem.BlinkRegistry

/-!
# Timing of a blinking character

Where an element is in its period of `on_length + off_length` ticks, from its status and its
countdown, and that only ticks move it on: the other calls that leave it on the list change at most
its pointer.
-/

namespace ComputerSystem

namespace Blink

/-- The signed comparison of a countdown that has not passed 0. -/
theorem counting_iff {countdown : BitVec 16} (positive : 1 ≤ countdown.toNat)
    (small : countdown.toNat ≤ 32767) :
    BitVec.slt 0 (countdown - 1) ↔ 1 < countdown.toNat := by
  have zero : (0 : BitVec 16).toInt = 0 := rfl
  have down : (countdown - 1).toNat = countdown.toNat - 1 := by bv_omega
  rw [BitVec.slt_iff_toInt_lt, zero, BitVec.toInt_eq_toNat_of_lt (by omega), down]
  omega

/-- The place of an element in its period: `on` ticks on, then `off` ticks off. -/
structure At (blink : Blink) (on off place : Nat) : Prop where
  /-- Ticks of the first phase. -/
  on_length : blink.on_length.toNat = on
  /-- Ticks of the second phase. -/
  off_length : blink.off_length.toNat = off
  /-- The place is one of the period. -/
  in_period : place < on + off
  /-- The phase is that of the place. -/
  status : blink.status &&& 1 = 1 ↔ place < on
  /-- What is left of it is counted down. -/
  countdown : blink.countdown.toNat = if place < on then on - place else on + off - place

variable {blink : Blink} {on off place : Nat}

/-- The countdown of an element in its period is positive as a signed number. -/
theorem At.countdown_bounds (is_at : blink.At on off place) (on_le : on ≤ 32767)
    (off_le : off ≤ 32767) : 1 ≤ blink.countdown.toNat ∧ blink.countdown.toNat ≤ 32767 := by
  have in_period := is_at.in_period
  rw [is_at.countdown]
  split_ifs <;> omega

theorem At.tick (is_at : blink.At on off place) (on_pos : 1 ≤ on) (on_le : on ≤ 32767)
    (off_pos : 1 ≤ off) (off_le : off ≤ 32767) :
    blink.tick.1.At on off ((place + 1) % (on + off)) := by
  obtain ⟨positive, small⟩ := is_at.countdown_bounds on_le off_le
  obtain ⟨on_length, off_length, in_period, status, countdown⟩ := is_at
  have exact := counting_iff positive small
  have down : (blink.countdown - 1).toNat = blink.countdown.toNat - 1 := by bv_omega
  by_cases counting : BitVec.slt 0 (blink.countdown - 1)
  · -- the phase goes on
    rw [tick_counting counting]
    rw [exact, countdown] at counting
    have inside : place + 1 < on + off := by
      split_ifs at counting <;> omega
    have same : place + 1 < on ↔ place < on := by
      split_ifs at counting <;> omega
    rw [Nat.mod_eq_of_lt inside]
    refine ⟨on_length, off_length, inside, ?_, ?_⟩
    · exact status.trans same.symm
    · simp only [same]
      rw [down, countdown]
      split_ifs <;> omega
  · by_cases off_phase : blink.status &&& 1 = 0
    · -- the last tick of the period
      have behind : ¬place < on := by
        rwa [← status, on_iff, not_not]
      have last : place + 1 = on + off := by
        rw [exact, countdown, if_neg behind] at counting
        omega
      rw [tick_on counting off_phase, last, Nat.mod_self]
      refine ⟨on_length, off_length, by omega, ?_, ?_⟩
      · rw [on_iff, flipped_iff, not_not]
        exact iff_of_true off_phase on_pos
      · rw [if_pos (Nat.lt_of_succ_le on_pos)]
        exact on_length
    · -- the last tick of the first part
      have before : place < on := by
        rwa [← status, on_iff]
      have last : place + 1 = on := by
        rw [exact, countdown, if_pos before] at counting
        omega
      rw [tick_off counting off_phase, last, Nat.mod_eq_of_lt (by omega)]
      refine ⟨on_length, off_length, by omega, ?_, ?_⟩
      · rw [on_iff, flipped_iff, not_not]
        exact iff_of_false off_phase (lt_irrefl on)
      · rw [if_neg (lt_irrefl on)]
        exact off_length.trans (by omega)

theorem At.relink (is_at : blink.At on off place) (pointer : Option Nat) :
    { blink with next := pointer }.At on off place :=
  ⟨is_at.on_length, is_at.off_length, is_at.in_period, is_at.status, is_at.countdown⟩

end Blink

/-- The number of ticks among some events. -/
def ticks (events : List BlinkEvent) : Nat :=
  events.countP fun
    | .tick => true
    | _ => false

namespace BlinkState

/-- The event takes the element in a slot off the list, or synchronises it with another one. -/
def Disturbs (state : BlinkState) (slot : Nat) : BlinkEvent → Prop
  | .remove arg => state.mp1_find_helper (arg.setWidth 16) = some (some slot)
  | .sync arg =>
      (∃ source, state.mp1_find_helper ((arg >>> 16).setWidth 16) = some (some source)) ∧
        state.mp1_find_helper (arg.setWidth 16) = some (some slot)
  | _ => False

instance (state : BlinkState) (slot : Nat) : (event : BlinkEvent) →
    Decidable (state.Disturbs slot event)
  | .remove _ => inferInstanceAs (Decidable (_ = _))
  | .sync arg =>
      decidable_of_iff ((state.mp1_find_helper ((arg >>> 16).setWidth 16)).join.isSome ∧
          state.mp1_find_helper (arg.setWidth 16) = some (some slot))
        (and_congr_left fun _ => by simp only [Option.isSome_iff_exists, Option.join_eq_some_iff])
  | .add _ | .find _ | .tick => .isFalse id

variable {state next last : BlinkState} {slots : List Nat} {slot on off place : Nat}
  {event : BlinkEvent} {user : Blink}

/-- A call of the tasklet ticks each element on the list once, and no other slot. -/
theorem ticked_blink_array (distinct : slots.Nodup) (other : Nat) :
    (slots.foldl tickSlot state).blink_array other =
      if other ∈ slots then (state.blink_array other).tick.1 else state.blink_array other := by
  induction slots generalizing state with
  | nil => rfl
  | cons first slots ih =>
      rw [List.nodup_cons] at distinct
      rw [List.foldl_cons, ih distinct.2, tickSlot_blink_array, Function.update_apply]
      by_cases here : other = first
      · rw [here, if_neg distinct.1, if_pos rfl, if_pos List.mem_cons_self]
      · simp only [List.mem_cons, here, false_or, if_false]

/-- An event that does not disturb an element leaves it on the list; it ticks it or changes at most
its pointer. -/
theorem Listed.undisturbed (listed : state.Listed slots) (mem : slot ∈ slots)
    (taken : state.step event = some next) (next_listed : ∃ others, next.Listed others)
    (calm : ¬state.Disturbs slot event) :
    ∃ others, next.Listed others ∧ slot ∈ others ∧
      ((event = .tick ∧ next.blink_array slot = (state.blink_array slot).tick.1) ∨
        (ticks [event] = 0 ∧ ∃ pointer,
          next.blink_array slot = { state.blink_array slot with next := pointer })) := by
  obtain ⟨others, behind_listed⟩ := next_listed
  obtain ⟨answer, called, rfl⟩ := Option.map_eq_some_iff.mp taken
  obtain ⟨same, only_find⟩ |
    ⟨user, fresh, rfl, valid, allocated, -, added⟩ |
    ⟨arg, element, before, behind, rfl, rfl, here, earlier, -, removed⟩ |
    ⟨arg, source, target, rfl, source_found, target_found, copied⟩ |
    ⟨rfl, ticked⟩ := listed.call_cases called
  · have no_tick : ticks [event] = 0 := by
      cases event with
      | tick =>
          obtain ⟨ticked, -, rfl⟩ := Option.map_eq_some_iff.mp called
          obtain ⟨location, impossible⟩ := only_find rfl
          cases impossible
      | _ => rfl
    rw [same]
    exact ⟨slots, listed, mem, Or.inr ⟨no_tick, (state.blink_array slot).next, rfl⟩⟩
  · -- the new slot is not on the list, since it stays one
    have absent : fresh ∉ slots := by
      intro again
      rw [added] at behind_listed
      exact listed.added_again user again others behind_listed.nodes
    have in_array := lt_of_mp1_malloc allocated
    have different : slot ≠ fresh := by
      rintro rfl
      exact absent mem
    rw [added]
    refine ⟨fresh :: slots, listed.added user in_array absent, List.mem_cons_of_mem fresh mem,
      Or.inr ⟨rfl, (state.blink_array slot).next, ?_⟩⟩
    rw [added_blink_array, Function.update_of_ne different]
  · have different : slot ≠ element := by
      rintro rfl
      exact calm (listed.find_helper_first here earlier)
    rw [removed]
    obtain ⟨pointer, kept⟩ := removed_blink_array state before element slot
    rw [if_neg different] at kept
    refine ⟨before ++ behind, listed.removed, ?_, Or.inr ⟨rfl, pointer, kept⟩⟩
    rcases List.mem_append.mp mem with mem | mem
    · exact List.mem_append_left behind mem
    · exact List.mem_append_right before (List.mem_of_ne_of_mem different mem)
  · have different : slot ≠ target := by
      rintro rfl
      refine calm ⟨⟨source, ?_⟩, ?_⟩
      · rw [listed.find_helper, source_found]
      · rw [listed.find_helper, target_found]
    rw [copied]
    refine ⟨slots, (sync_copy_same state source target).listed listed, mem,
      Or.inr ⟨rfl, (state.blink_array slot).next, ?_⟩⟩
    exact sync_copy_other state source different
  · rw [ticked]
    refine ⟨slots, (ticked_same state slots).listed listed, mem, Or.inl ⟨rfl, ?_⟩⟩
    rw [ticked_blink_array listed.nodes.nodup, if_pos mem]

theorem Listed.at_of_run (on_pos : 1 ≤ on) (on_le : on ≤ 32767) (off_pos : 1 ≤ off)
    (off_le : off ≤ 32767) (events : List BlinkEvent) (listed : state.Listed slots)
    (mem : slot ∈ slots) (is_at : (state.blink_array slot).At on off place)
    (acyclic : ∀ visited ∈ Run.visited step state events, ∃ others, visited.Listed others)
    (calm : ∀ entry ∈ Run.taken step state events, ¬entry.1.Disturbs slot entry.2)
    (reached : Run.run step state events = some last) :
    (last.blink_array slot).At on off ((place + ticks events) % (on + off)) := by
  induction events generalizing state slots place with
  | nil =>
      cases reached
      have still : (place + ticks []) % (on + off) = place := Nat.mod_eq_of_lt is_at.in_period
      rw [still]
      exact is_at
  | cons event events ih =>
      obtain ⟨next, taken, rest⟩ := Option.bind_eq_some_iff.mp reached
      rw [Run.visited, taken] at acyclic
      rw [Run.taken, taken] at calm
      rw [List.forall_mem_cons] at acyclic calm
      have next_listed := acyclic.2 next (Run.mem_visited_start step next events)
      have count : ticks (event :: events) = ticks events + ticks [event] := by
        simp only [ticks, List.countP_cons, List.countP_nil, Nat.zero_add]
      obtain ⟨others, behind_listed, behind_mem, ⟨rfl, ticked⟩ | ⟨no_tick, pointer, kept⟩⟩ :=
        listed.undisturbed mem taken next_listed calm.1
      · have moved := is_at.tick on_pos on_le off_pos off_le
        rw [← ticked] at moved
        have later := ih behind_listed behind_mem moved acyclic.2 calm.2 rest
        have one : ticks [.tick] = 1 := rfl
        rw [Nat.mod_add_mod] at later
        rwa [count, one, Nat.add_comm (ticks events), ← Nat.add_assoc]
      · have kept_at := is_at.relink pointer
        rw [← kept] at kept_at
        have later := ih behind_listed behind_mem kept_at acyclic.2 calm.2 rest
        rwa [count, no_tick, Nat.add_zero]

theorem added_of_ioctl_add (added : state.mp1_ioctl_add user = ⟨0, none, next⟩) :
    ∃ fresh, next = state.added fresh user := by
  have failed : (-1 : Int) ≠ 0 := by decide
  rw [mp1_ioctl_add] at added
  split_ifs at added with invalid
  · exact absurd (congrArg BlinkAnswer.result added) failed
  · cases allocated : state.mp1_malloc with
    | none =>
        rw [allocated] at added
        exact absurd (congrArg BlinkAnswer.result added) failed
    | some fresh =>
        rw [allocated] at added
        exact ⟨fresh, (congrArg BlinkAnswer.state added).symm⟩

/-- As long as the list stays one and nothing removes or synchronises an element that was added, it
is on in the first `on_length` of each `on_length + off_length` ticks behind its addition; and each
call of the tasklet ticks each element on the list once. -/
theorem blinks_in_time (on_pos : 1 ≤ user.on_length.toNat) (on_le : user.on_length.toNat ≤ 32767)
    (off_pos : 1 ≤ user.off_length.toNat) (off_le : user.off_length.toNat ≤ 32767)
    (added : state.mp1_ioctl_add user = ⟨0, none, next⟩) (head : next.mp1_list_head = some slot)
    (events : List BlinkEvent)
    (acyclic : ∀ visited ∈ Run.visited step next events, ∃ slots, visited.Listed slots)
    (calm : ∀ entry ∈ Run.taken step next events, ¬entry.1.Disturbs slot entry.2)
    (reached : Run.run step next events = some last) :
    ((last.blink_array slot).status &&& 1 = 1 ↔
        ticks events % (user.on_length.toNat + user.off_length.toNat) < user.on_length.toNat) ∧
      ∀ visited ∈ Run.visited step next events, ∀ slots, visited.Listed slots →
        ∃ ticked, visited.mp1_rtc_tasklet = some ticked ∧ ticked.Listed slots ∧
          ∀ other, ticked.blink_array other =
            if other ∈ slots then (visited.blink_array other).tick.1
            else visited.blink_array other := by
  constructor
  · obtain ⟨fresh, rfl⟩ := added_of_ioctl_add added
    cases head
    obtain ⟨slots, listed⟩ := acyclic _ (Run.mem_visited_start step _ events)
    have is_at : ((state.added slot user).blink_array slot).At user.on_length.toNat
        user.off_length.toNat 0 := by
      rw [added_blink_array, Function.update_self]
      refine ⟨rfl, rfl, by omega, ?_, ?_⟩
      · exact iff_of_true (by decide : (1 : BitVec 16) &&& 1 = 1) on_pos
      · rw [if_pos (Nat.lt_of_succ_le on_pos)]
        rfl
    obtain ⟨rest, rfl, -⟩ := LinkedList.nodes_some.mp listed.nodes
    have place := listed.at_of_run on_pos on_le off_pos off_le events List.mem_cons_self is_at
      acyclic calm reached
    rw [Nat.zero_add] at place
    exact place.status
  · intro visited _ slots listed
    exact ⟨_, listed.tasklet, (ticked_same visited slots).listed listed,
      ticked_blink_array listed.nodes.nodup⟩

/-- One element, at location 1. -/
def alone : BlinkState := (start fun _ => 0).added 0 (BlinkHistory.framed 1)

/-- 18 ticks, in the course of which an element at location 2 comes, is synchronised with the first
one and goes. -/
def visit : List BlinkEvent :=
  List.replicate 10 .tick ++ [.add (BlinkHistory.framed 2)] ++ List.replicate 5 .tick ++
    [.sync 0x00010002, .remove 2] ++ List.replicate 3 .tick

/-- After them the first element is off, and it is alone again. -/
theorem blinks_in_time_visit :
    ∃ last, Run.run step alone visit = some last ∧ ¬(last.blink_array 0).status &&& 1 = 1 ∧
      ∃ ticked, last.mp1_rtc_tasklet = some ticked ∧ ticked.Listed [0] := by
  have added := ioctl_add_eq (by decide : (BlinkHistory.framed 1).location.toNat < BLINK_SLOTS)
    (start_mp1_malloc fun _ => 0)
  have ends : (Run.run step alone visit).isSome := by decide +kernel
  obtain ⟨last, reached⟩ := Option.isSome_iff_exists.mp ends
  have linked : ∀ visited ∈ Run.visited step alone visit,
      visited.Listed [0] ∨ visited.Listed [1, 0] := by decide +kernel
  have calm : ∀ entry ∈ Run.taken step alone visit, ¬entry.1.Disturbs 0 entry.2 := by
    decide +kernel
  have left : ∀ state ∈ Run.run step alone visit, state.Listed [0] := by decide +kernel
  have acyclic (visited : BlinkState) (mem : visited ∈ Run.visited step alone visit) :
      ∃ slots, visited.Listed slots :=
    (linked visited mem).elim (fun listed => ⟨[0], listed⟩) fun listed => ⟨[1, 0], listed⟩
  obtain ⟨status, ticks_once⟩ := blinks_in_time (by decide) (by decide) (by decide) (by decide)
    added rfl visit acyclic calm reached
  obtain ⟨ticked, called, listed, -⟩ := ticks_once last (Run.mem_visited_of_run reached) [0]
    (left last reached)
  exact ⟨last, reached, status.not.mpr (by decide), ticked, called, listed⟩

end BlinkState

end ComputerSystem
