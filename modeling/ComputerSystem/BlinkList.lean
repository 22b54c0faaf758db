import ComputerSystem.Blink
import ComputerSystem.LinkedList

/-!
# The list of blinking characters

What the loops, the calls and a tick do where the pointers from `mp1_list_head` on are a list.
-/

namespace ComputerSystem

open LinkedList

namespace Blink

theorem off_iff (status : BitVec 16) : status &&& 1 = 0 ↔ status.getLsbD 0 = false := by
  have bit := BitVec.and_one_eq_setWidth_ofBool_getLsbD (x := status)
  rw [show status &&& 1 = _ from bit]
  cases status.getLsbD 0 <;> decide

theorem on_iff (status : BitVec 16) : status &&& 1 = 1 ↔ ¬status &&& 1 = 0 := by
  have bit := BitVec.and_one_eq_setWidth_ofBool_getLsbD (x := status)
  rw [show status &&& 1 = _ from bit]
  cases status.getLsbD 0 <;> decide

theorem flipped_iff (status : BitVec 16) : (status ^^^ 1) &&& 1 = 0 ↔ ¬status &&& 1 = 0 := by
  rw [off_iff, off_iff, BitVec.getLsbD_xor]
  cases status.getLsbD 0 <;> decide

theorem tick_counting {blink : Blink} (counting : BitVec.slt 0 (blink.countdown - 1)) :
    blink.tick = ({ blink with countdown := blink.countdown - 1 }, none) := if_pos counting

theorem tick_on {blink : Blink} (ended : ¬BitVec.slt 0 (blink.countdown - 1))
    (off : blink.status &&& 1 = 0) :
    blink.tick = ({ blink with countdown := blink.on_length, status := blink.status ^^^ 1 },
      some blink.on_char) := by
  rw [tick, if_neg ended, if_pos off]

theorem tick_off {blink : Blink} (ended : ¬BitVec.slt 0 (blink.countdown - 1))
    (on : ¬blink.status &&& 1 = 0) :
    blink.tick = ({ blink with countdown := blink.off_length, status := blink.status ^^^ 1 },
      some blink.off_char) := by
  rw [tick, if_neg ended, if_neg on]

end Blink

/-- What an element keeps while it is on the list. -/
structure BlinkKey where
  /-- The cell of the screen. -/
  location : BitVec 16
  /-- The character of the first phase. -/
  on_char : UInt8
  /-- The character of the second phase. -/
  off_char : UInt8
  deriving DecidableEq

/-- The key of an element. -/
def Blink.key (blink : Blink) : BlinkKey := ⟨blink.location, blink.on_char, blink.off_char⟩

namespace BlinkState

/-- The elements on the list, each of them a slot of `blink_array`. -/
structure Listed (state : BlinkState) (slots : List Nat) : Prop where
  /-- The pointers go through them. -/
  nodes : Nodes state.next state.mp1_list_head slots
  /-- They are in the array. -/
  in_array : ∀ slot ∈ slots, slot < BLINK_SLOTS

instance (state : BlinkState) (slots : List Nat) : Decidable (state.Listed slots) :=
  decidable_of_iff
    (Nodes state.next state.mp1_list_head slots ∧ ∀ slot ∈ slots, slot < BLINK_SLOTS)
    ⟨fun ⟨nodes, in_array⟩ => ⟨nodes, in_array⟩, fun listed => ⟨listed.nodes, listed.in_array⟩⟩

variable {state next : BlinkState} {slots : List Nat}

theorem Listed.unique {other : List Nat} (listed : state.Listed slots)
    (again : state.Listed other) : slots = other := listed.nodes.unique again.nodes

theorem Listed.length_le (listed : state.Listed slots) : slots.length ≤ BLINK_SLOTS := by
  have subset : slots ⊆ List.range BLINK_SLOTS :=
    fun slot mem => List.mem_range.mpr (listed.in_array slot mem)
  have fits := (listed.nodes.nodup.subperm subset).length_le
  rwa [List.length_range] at fits

theorem setSlot_next (state : BlinkState) (slot : Nat) (blink : Blink) :
    (state.setSlot slot blink).next = Function.update state.next slot blink.next := by
  funext other
  simp only [next, setSlot, Function.update_apply]
  split_ifs <;> rfl

theorem setSlot_next_same (state : BlinkState) {slot : Nat} {blink : Blink}
    (same : blink.next = state.next slot) : (state.setSlot slot blink).next = state.next := by
  rw [setSlot_next, same, Function.update_eq_self]

/-! ## Loops -/

theorem tick_next (blink : Blink) : blink.tick.1.next = blink.next := by
  simp only [Blink.tick]
  split_ifs <;> rfl

@[simp]
theorem tickSlot_head (state : BlinkState) (slot : Nat) :
    (state.tickSlot slot).mp1_list_head = state.mp1_list_head := by
  simp only [tickSlot]
  split <;> rfl

theorem tickSlot_blink_array (state : BlinkState) (slot : Nat) :
    (state.tickSlot slot).blink_array =
      Function.update state.blink_array slot (state.blink_array slot).tick.1 := by
  simp only [tickSlot]
  split <;> rfl

@[simp]
theorem tickSlot_next (state : BlinkState) (slot : Nat) :
    (state.tickSlot slot).next = state.next := by
  funext other
  simp only [next, tickSlot_blink_array, Function.update_apply]
  split_ifs with same
  · rw [tick_next, same]
  · rfl

theorem tasklet_loop_eq {rounds : Nat} {start : Option Nat} (nodes : Nodes state.next start slots)
    (enough : slots.length < rounds) :
    state.tasklet_loop rounds start = some (slots.foldl tickSlot state) := by
  induction rounds generalizing state start slots with
  | zero => cases enough
  | succ rounds ih =>
      cases slots with
      | nil =>
          cases nodes
          rfl
      | cons slot slots =>
          obtain ⟨rfl, rest⟩ := nodes
          rw [← tickSlot_next state slot] at rest
          exact ih rest (Nat.lt_of_succ_lt_succ enough)

/-- A loop of the tasklet that ends has been at the end of the list. -/
theorem nodes_of_tasklet_loop {rounds : Nat} {start : Option Nat}
    (ended : state.tasklet_loop rounds start = some next) :
    ∃ slots, Nodes state.next start slots := by
  induction rounds generalizing state start with
  | zero => cases ended
  | succ rounds ih =>
      cases start with
      | none => exact ⟨[], rfl⟩
      | some slot =>
          obtain ⟨slots, nodes⟩ := ih ended
          rw [tickSlot_next] at nodes
          exact ⟨slot :: slots, rfl, nodes⟩

theorem helper_loop_eq (location : BitVec 16) {rounds : Nat} {start : Option Nat}
    (nodes : Nodes state.next start slots) (enough : slots.length < rounds) :
    state.helper_loop location rounds start =
      some (slots.find? fun slot => (state.blink_array slot).location = location) := by
  induction rounds generalizing start slots with
  | zero => cases enough
  | succ rounds ih =>
      cases slots with
      | nil =>
          cases nodes
          rfl
      | cons slot slots =>
          obtain ⟨rfl, rest⟩ := nodes
          rw [helper_loop, List.find?_cons]
          by_cases here : (state.blink_array slot).location = location
          · simp [here]
          · simp only [here, if_false, decide_false]
            exact ih rest (Nat.lt_of_succ_lt_succ enough)

/-- The link that points to an element, for the elements before it. -/
def linkBehind (link : BlinkLink) (before : List Nat) : BlinkLink :=
  (before.getLast?.map BlinkLink.next).getD link

theorem remove_find_prev_eq {rounds element : Nat} {link : BlinkLink} {before behind : List Nat}
    (nodes : Nodes state.next (state.load link) (before ++ element :: behind))
    (enough : before.length < rounds) :
    state.remove_find_prev element rounds link = some (linkBehind link before) := by
  have distinct := nodes.nodup
  induction rounds generalizing link before with
  | zero => cases enough
  | succ rounds ih =>
      rw [remove_find_prev]
      cases before with
      | nil =>
          rw [if_pos nodes.1]
          rfl
      | cons slot before =>
          obtain ⟨loaded, rest⟩ := nodes
          change Nodes state.next (state.load (.next slot)) (before ++ element :: behind) at rest
          have other : slot ≠ element := by
            rintro rfl
            exact (List.nodup_cons.mp distinct).1 (List.mem_append_right before List.mem_cons_self)
          rw [loaded, if_neg (by simpa using other)]
          simp only
          rw [ih rest (Nat.lt_of_succ_lt_succ enough) (List.nodup_cons.mp distinct).2]
          cases before with
          | nil => rfl
          | cons second before =>
              simp only [linkBehind, List.getLast?_cons, Option.map_some, Option.getD_some]

/-! ## Calls on a list -/

theorem Listed.find_helper (listed : state.Listed slots) (location : BitVec 16) :
    state.mp1_find_helper location =
      some (slots.find? fun slot => (state.blink_array slot).location = location) :=
  helper_loop_eq location listed.nodes (Nat.lt_succ_of_le listed.length_le)

theorem Listed.find_helper_first {before behind : List Nat} {element : Nat} {location : BitVec 16}
    (listed : state.Listed (before ++ element :: behind))
    (here : (state.blink_array element).location = location)
    (earlier : ∀ slot ∈ before, (state.blink_array slot).location ≠ location) :
    state.mp1_find_helper location = some (some element) := by
  rw [listed.find_helper, Option.some_inj, List.find?_eq_some_iff_append]
  refine ⟨decide_eq_true here, before, behind, rfl, fun slot mem => ?_⟩
  simpa using earlier slot mem

theorem Listed.tasklet (listed : state.Listed slots) :
    state.mp1_rtc_tasklet = some (slots.foldl tickSlot state) :=
  tasklet_loop_eq listed.nodes (Nat.lt_succ_of_le listed.length_le)

/-- The state behind an addition at a slot. -/
def added (state : BlinkState) (slot : Nat) (user : Blink) : BlinkState :=
  { state.setSlot slot (user.added state.mp1_list_head) with
    mp1_list_head := some slot }.mp1_poke (2 * user.location.toNat) user.on_char

/-- The state behind the removal of an element. -/
def removed (state : BlinkState) (before : List Nat) (element : Nat) : BlinkState :=
  (state.store (linkBehind .mp1_list_head before) (state.next element)).mp1_free element

theorem lt_of_mp1_malloc {slot : Nat} (allocated : state.mp1_malloc = some slot) :
    slot < BLINK_SLOTS := by
  obtain ⟨-, in_array, -⟩ := List.find?_range_eq_some.mp allocated
  exact List.mem_range.mp in_array

theorem ioctl_add_eq {user : Blink} {slot : Nat} (valid : user.location.toNat < BLINK_SLOTS)
    (allocated : state.mp1_malloc = some slot) :
    state.mp1_ioctl_add user = ⟨0, none, state.added slot user⟩ := by
  have in_screen : ¬80 * 25 ≤ user.location.toNat := Nat.not_le.mpr valid
  rw [mp1_ioctl_add, if_neg in_screen, allocated]
  rfl

theorem step_add_eq {user : Blink} {slot : Nat} (valid : user.location.toNat < BLINK_SLOTS)
    (allocated : state.mp1_malloc = some slot) :
    state.step (.add user) = some (state.added slot user) := by
  simp only [step, call, ioctl_add_eq valid allocated, Option.map_some]

theorem Listed.ioctl_remove (listed : state.Listed slots) (arg : BitVec 32) :
    ((∀ slot ∈ slots, (state.blink_array slot).location ≠ arg.setWidth 16) ∧
      state.mp1_ioctl_remove arg = some ⟨-1, none, state⟩) ∨
    ∃ element before behind, slots = before ++ element :: behind ∧
      (state.blink_array element).location = arg.setWidth 16 ∧
      (∀ slot ∈ before, (state.blink_array slot).location ≠ arg.setWidth 16) ∧
      state.mp1_ioctl_remove arg = some ⟨0, none, state.removed before element⟩ := by
  simp only [mp1_ioctl_remove, listed.find_helper, Option.bind_some]
  cases found : slots.find? fun slot => (state.blink_array slot).location = arg.setWidth 16 with
  | none =>
      rw [List.find?_eq_none] at found
      exact Or.inl ⟨fun slot mem => by simpa using found slot mem, rfl⟩
  | some element =>
      obtain ⟨here, before, behind, rfl, earlier⟩ := List.find?_eq_some_iff_append.mp found
      have enough := listed.length_le
      rw [List.length_append] at enough
      have link : state.remove_find_prev element (BLINK_SLOTS + 1) .mp1_list_head =
          some (linkBehind .mp1_list_head before) :=
        remove_find_prev_eq listed.nodes (by omega)
      refine Or.inr ⟨element, before, behind, rfl, ?_, ?_, ?_⟩
      · simpa using here
      · intro slot mem
        simpa using earlier slot mem
      · simp only [link, Option.map_some, BlinkState.removed]

theorem Listed.ioctl_find (listed : state.Listed slots) (location : BitVec 16) :
    state.mp1_ioctl_find location = some
      (match slots.find? fun slot => (state.blink_array slot).location = location with
      | none => ⟨-1, none, state⟩
      | some element => ⟨0, some (state.blink_array element), state⟩) := by
  rw [mp1_ioctl_find, listed.find_helper]
  cases slots.find? fun slot => (state.blink_array slot).location = location <;> rfl

theorem Listed.ioctl_sync (listed : state.Listed slots) (arg : BitVec 32) :
    state.mp1_ioctl_sync arg = some ⟨-1, none, state⟩ ∨
    ∃ source target,
      slots.find? (fun slot => (state.blink_array slot).location = (arg >>> 16).setWidth 16) =
        some source ∧
      slots.find? (fun slot => (state.blink_array slot).location = arg.setWidth 16) =
        some target ∧
      state.mp1_ioctl_sync arg = some ⟨0, none, state.sync_copy source target⟩ := by
  simp only [mp1_ioctl_sync, listed.find_helper, Option.bind_some, Option.map_some]
  cases source_found : slots.find? fun slot =>
      (state.blink_array slot).location = (arg >>> 16).setWidth 16 with
  | none => exact Or.inl rfl
  | some source =>
      cases target_found : slots.find? fun slot =>
          (state.blink_array slot).location = arg.setWidth 16 with
      | none => exact Or.inl rfl
      | some target => exact Or.inr ⟨source, target, rfl, rfl, rfl⟩

/-- Every call and every tick returns where there is a list. -/
theorem Listed.returns (listed : state.Listed slots) (event : BlinkEvent) :
    (state.call event).isSome := by
  cases event with
  | add user => rfl
  | remove arg =>
      obtain ⟨-, done⟩ | ⟨element, before, behind, -, -, -, done⟩ := listed.ioctl_remove arg
      · rw [call, done, Option.isSome_some]
      · rw [call, done, Option.isSome_some]
  | find location => rw [call, listed.ioctl_find, Option.isSome_some]
  | sync arg =>
      obtain done | ⟨source, target, -, -, done⟩ := listed.ioctl_sync arg
      · rw [call, done, Option.isSome_some]
      · rw [call, done, Option.isSome_some]
  | tick => rw [call, listed.tasklet, Option.map_some, Option.isSome_some]

theorem Listed.step_tick (listed : state.Listed slots) :
    state.step .tick = some (slots.foldl tickSlot state) := by
  rw [step, call, listed.tasklet]
  rfl

/-- What one event can do where there is a list: nothing, put a slot in front, take the first
element of a location away, synchronise two elements, or tick all of them. -/
theorem Listed.call_cases (listed : state.Listed slots) {event : BlinkEvent} {answer : BlinkAnswer}
    (called : state.call event = some answer) :
    (answer.state = state ∧ (answer.result = 0 → ∃ location, event = .find location)) ∨
    (∃ user slot, event = .add user ∧ user.location.toNat < BLINK_SLOTS ∧
      state.mp1_malloc = some slot ∧ answer.result = 0 ∧
      answer.state = state.added slot user) ∨
    (∃ arg element before behind, event = .remove arg ∧ slots = before ++ element :: behind ∧
      (state.blink_array element).location = arg.setWidth 16 ∧
      (∀ slot ∈ before, (state.blink_array slot).location ≠ arg.setWidth 16) ∧
      answer.result = 0 ∧ answer.state = state.removed before element) ∨
    (∃ arg source target, event = .sync arg ∧
      slots.find? (fun slot => (state.blink_array slot).location = (arg >>> 16).setWidth 16) =
        some source ∧
      slots.find? (fun slot => (state.blink_array slot).location = arg.setWidth 16) =
        some target ∧
      answer.state = state.sync_copy source target) ∨
    (event = .tick ∧ answer.state = slots.foldl tickSlot state) := by
  have failed : (-1 : Int) ≠ 0 := by decide
  cases event with
  | add user =>
      cases called
      simp only [mp1_ioctl_add]
      split_ifs with invalid
      · exact Or.inl ⟨rfl, fun zero => absurd zero failed⟩
      · cases allocated : state.mp1_malloc with
        | none => exact Or.inl ⟨rfl, fun zero => absurd zero failed⟩
        | some slot =>
            exact Or.inr (Or.inl ⟨user, slot, rfl, Nat.not_le.mp invalid, rfl, rfl, rfl⟩)
  | remove arg =>
      obtain ⟨-, done⟩ | ⟨element, before, behind, split, here, earlier, done⟩ :=
        listed.ioctl_remove arg
      · cases done.symm.trans called
        exact Or.inl ⟨rfl, fun zero => absurd zero failed⟩
      · cases done.symm.trans called
        exact Or.inr (Or.inr (Or.inl
          ⟨arg, element, before, behind, rfl, split, here, earlier, rfl, rfl⟩))
  | find location =>
      cases (listed.ioctl_find location).symm.trans called
      refine Or.inl ⟨?_, fun _ => ⟨location, rfl⟩⟩
      cases slots.find? fun slot => (state.blink_array slot).location = location <;> rfl
  | sync arg =>
      obtain done | ⟨source, target, source_found, target_found, done⟩ := listed.ioctl_sync arg
      · cases done.symm.trans called
        exact Or.inl ⟨rfl, fun zero => absurd zero failed⟩
      · cases done.symm.trans called
        exact Or.inr (Or.inr (Or.inr (Or.inl
          ⟨arg, source, target, rfl, source_found, target_found, rfl⟩)))
  | tick =>
      simp only [call, listed.tasklet, Option.map_some] at called
      cases called
      exact Or.inr (Or.inr (Or.inr (Or.inr ⟨rfl, rfl⟩)))

/-! ## What the events keep -/

theorem start_listed (vmem : Nat → UInt8) : (start vmem).Listed [] :=
  ⟨rfl, fun _ mem => nomatch mem⟩

theorem start_mp1_malloc (vmem : Nat → UInt8) : (start vmem).mp1_malloc = some 0 :=
  List.find?_range_eq_some.mpr ⟨rfl, List.mem_range.mpr (by decide), fun _ before => nomatch before⟩

theorem added_next (state : BlinkState) (slot : Nat) (user : Blink) :
    (state.added slot user).next = Function.update state.next slot state.mp1_list_head :=
  setSlot_next state slot (user.added state.mp1_list_head)

theorem added_blink_array (state : BlinkState) (slot : Nat) (user : Blink) :
    (state.added slot user).blink_array =
      Function.update state.blink_array slot (user.added state.mp1_list_head) := rfl

theorem Listed.added {slot : Nat} (listed : state.Listed slots) (user : Blink)
    (in_array : slot < BLINK_SLOTS) (fresh : slot ∉ slots) :
    (state.added slot user).Listed (slot :: slots) := by
  refine ⟨?_, List.forall_mem_cons.mpr ⟨in_array, listed.in_array⟩⟩
  rw [added_next]
  exact listed.nodes.insert fresh

/-- An addition at a slot that is on the list closes a circle. -/
theorem Listed.added_again {slot : Nat} (listed : state.Listed slots) (user : Blink)
    (mem : slot ∈ slots) (others : List Nat) :
    ¬Nodes (state.added slot user).next (some slot) others := by
  rw [added_next]
  exact listed.nodes.insert_again mem

/-- On a circle the tasklet does not return. -/
theorem Listed.added_again_hangs {slot : Nat} (listed : state.Listed slots) (user : Blink)
    (mem : slot ∈ slots) : (state.added slot user).mp1_rtc_tasklet = none := by
  cases ended : (state.added slot user).mp1_rtc_tasklet with
  | none => rfl
  | some next =>
      obtain ⟨others, nodes⟩ := nodes_of_tasklet_loop ended
      exact absurd nodes (listed.added_again user mem others)

theorem linkBehind_concat (link : BlinkLink) (before : List Nat) (slot : Nat) :
    linkBehind link (before ++ [slot]) = .next slot := by
  simp only [linkBehind, List.getLast?_concat, Option.map_some, Option.getD_some]

/-- The slot of a removed element is zero, and the others keep all but their pointers. -/
theorem removed_blink_array (state : BlinkState) (before : List Nat) (element other : Nat) :
    ∃ pointer, (state.removed before element).blink_array other =
      if other = element then .zero else { state.blink_array other with next := pointer } := by
  by_cases same : other = element
  · exact ⟨none, by rw [if_pos same, same]; exact Function.update_self ..⟩
  · simp only [if_neg same, removed, mp1_free, setSlot]
    rw [Function.update_of_ne same]
    cases linkBehind .mp1_list_head before with
    | mp1_list_head => exact ⟨_, rfl⟩
    | next slot =>
        simp only [store, setSlot, Function.update_apply]
        split_ifs with here
        · exact ⟨_, by rw [here]⟩
        · exact ⟨_, rfl⟩

theorem removed_vmem (state : BlinkState) (before : List Nat) (element : Nat) :
    (state.removed before element).vmem = state.vmem := by
  simp only [removed, mp1_free, setSlot]
  cases linkBehind .mp1_list_head before <;> rfl

theorem Listed.removed {before behind : List Nat} {element : Nat}
    (listed : state.Listed (before ++ element :: behind)) :
    (state.removed before element).Listed (before ++ behind) := by
  have absent := listed.nodes.not_mem_others
  refine ⟨?_, fun slot mem => listed.in_array slot (mem_of_mem_others mem)⟩
  rw [BlinkState.removed, mp1_free, setSlot_next]
  have kept : ∀ {pointers : Nat → Option Nat}, ∀ slot ∈ before ++ behind,
      Function.update pointers element Blink.zero.next slot = pointers slot := by
    intro pointers slot mem
    rw [Function.update_of_ne]
    rintro rfl
    exact absent mem
  refine Nodes.congr ?_ kept
  rcases List.eq_nil_or_concat before with rfl | ⟨init, slot, rfl⟩
  · exact listed.nodes.2
  · have nodes := listed.nodes
    rw [List.concat_eq_append, List.append_assoc] at nodes ⊢
    rw [linkBehind_concat, store, setSlot_next]
    exact nodes.unlink

/-- The two states have the same list, and the same places and characters in all slots. -/
structure SameList (state other : BlinkState) : Prop where
  /-- The list begins with the same slot. -/
  mp1_list_head : other.mp1_list_head = state.mp1_list_head
  /-- It goes on with the same ones. -/
  next : other.next = state.next
  /-- All slots keep their keys. -/
  key : ∀ slot, (other.blink_array slot).key = (state.blink_array slot).key

theorem SameList.listed (same : state.SameList next) (listed : state.Listed slots) :
    next.Listed slots := by
  refine ⟨?_, listed.in_array⟩
  rw [same.mp1_list_head, same.next]
  exact listed.nodes

theorem SameList.location (same : state.SameList next) (slot : Nat) :
    (next.blink_array slot).location = (state.blink_array slot).location :=
  congrArg BlinkKey.location (same.key slot)

theorem tick_key (blink : Blink) : blink.tick.1.key = blink.key := by
  simp only [Blink.tick]
  split_ifs <;> rfl

theorem tickSlot_same (state : BlinkState) (slot : Nat) : state.SameList (state.tickSlot slot) := by
  refine ⟨tickSlot_head state slot, tickSlot_next state slot, fun other => ?_⟩
  rw [tickSlot_blink_array, Function.update_apply]
  split_ifs with here
  · rw [tick_key, here]
  · rfl

theorem ticked_same (state : BlinkState) (slots : List Nat) :
    state.SameList (slots.foldl tickSlot state) := by
  induction slots generalizing state with
  | nil => exact ⟨rfl, rfl, fun _ => rfl⟩
  | cons slot slots ih =>
      have first := tickSlot_same state slot
      have rest := ih (state.tickSlot slot)
      exact ⟨rest.1.trans first.1, rest.2.trans first.2,
        fun other => (rest.3 other).trans (first.3 other)⟩

theorem sync_copy_other (state : BlinkState) (source : Nat) {target other : Nat}
    (different : other ≠ target) :
    (state.sync_copy source target).blink_array other = state.blink_array other :=
  Function.update_of_ne different _ _

theorem sync_copy_same (state : BlinkState) (source target : Nat) :
    state.SameList (state.sync_copy source target) := by
  refine ⟨rfl, setSlot_next_same state rfl, fun other => ?_⟩
  simp only [sync_copy, mp1_poke, setSlot, Function.update_apply]
  split_ifs with here
  · rw [here]
    rfl
  · rfl

end BlinkState

end ComputerSystem
