import ComputerSystem.BlinkRegistry

/-!
# Phases on the screen

The tasklet and `mp1_ioctl_add` write the character of the phase that an element enters.
`mp1_ioctl_sync` takes the status of another element over and writes the off character in both
phases, since `cmovl` goes by the sign of a bit test that is never negative.
-/

namespace ComputerSystem

namespace Blink

/-- The character of the phase that an element is in. -/
def phase (blink : Blink) : UInt8 :=
  if blink.status &&& 1 = 0 then blink.off_char else blink.on_char

/-- The tasklet writes the character of the new phase, or the phase stays. -/
theorem tick_phase (blink : Blink) : blink.tick.2.getD blink.phase = blink.tick.1.phase := by
  by_cases counting : BitVec.slt 0 (blink.countdown - 1)
  · rw [tick_counting counting]
    rfl
  · by_cases off : blink.status &&& 1 = 0
    · rw [tick_on counting off]
      exact (if_neg (by simpa only [flipped_iff, not_not] using off)).symm
    · rw [tick_off counting off]
      exact (if_pos ((flipped_iff _).mpr off)).symm

/-- The sign flag behind `testb` is clear. -/
theorem sync_char_eq (blink : Blink) : blink.sync_char = blink.off_char := by
  simp [sync_char]

end Blink

namespace BlinkState

/-- The screen shows the phase of the element in a slot. -/
def Shown (state : BlinkState) (slot : Nat) : Prop :=
  state.vmem (2 * (state.blink_array slot).location.toNat) = (state.blink_array slot).phase

/-- The screen shows the phases of all elements on the list. -/
def Shows (state : BlinkState) : Prop :=
  ∃ slots, state.Listed slots ∧ ∀ slot ∈ slots, state.Shown slot

/-- The elements on the list have distinct locations, none of them 0. -/
def Spaced (state : BlinkState) : Prop :=
  ∀ slots, state.Listed slots →
    (∀ slot ∈ slots, 1 ≤ (state.blink_array slot).location.toNat ∧
      (state.blink_array slot).location.toNat ≤ 1999) ∧
    ∀ slot ∈ slots, ∀ other ∈ slots, other ≠ slot →
      (state.blink_array other).location ≠ (state.blink_array slot).location

/-- An element is synchronised only with one that is off, or its two characters are the same. -/
def InStep (state : BlinkState) (event : BlinkEvent) : Prop :=
  ∀ arg source target, event = .sync arg →
    state.mp1_find_helper ((arg >>> 16).setWidth 16) = some (some source) →
    state.mp1_find_helper (arg.setWidth 16) = some (some target) →
    (state.blink_array source).status &&& 1 = 0 ∨
      (state.blink_array target).on_char = (state.blink_array target).off_char

instance (state : BlinkState) : (event : BlinkEvent) → Decidable (state.InStep event)
  | .sync arg =>
      decidable_of_iff
        (∀ source ∈ (state.mp1_find_helper ((arg >>> 16).setWidth 16)).join,
          ∀ target ∈ (state.mp1_find_helper (arg.setWidth 16)).join,
            (state.blink_array source).status &&& 1 = 0 ∨
              (state.blink_array target).on_char = (state.blink_array target).off_char)
        ⟨fun all _ source target same found found' => by
            cases same
            exact all source (Option.join_eq_some_iff.mpr found) target
              (Option.join_eq_some_iff.mpr found'),
          fun in_step source found target found' =>
            in_step arg source target rfl (Option.join_eq_some_iff.mp found)
              (Option.join_eq_some_iff.mp found')⟩
  | .add _ | .remove _ | .find _ | .tick => .isTrue fun _ _ _ same => nomatch same

variable {state next : BlinkState} {slots : List Nat} {event : BlinkEvent}

/-! ## One element -/

/-- An element that changes together with its character leaves the characters of others. -/
theorem put_shown {slot other : Nat} {blink : Blink} {c : UInt8} (phase : c = blink.phase)
    (apart : other ≠ slot →
      state.Shown other ∧ (state.blink_array other).location ≠ blink.location) :
    ((state.setSlot slot blink).mp1_poke (2 * blink.location.toNat) c).Shown other := by
  simp only [Shown, mp1_poke, setSlot]
  by_cases same : other = slot
  · rw [same, Function.update_self, Function.update_self, phase]
  · obtain ⟨shown, different⟩ := apart same
    have places : 2 * (state.blink_array other).location.toNat ≠ 2 * blink.location.toNat := by
      intro equal
      exact different (BitVec.eq_of_toNat_eq (by omega))
    rw [Function.update_of_ne same, Function.update_of_ne places]
    exact shown

theorem tickSlot_shown {slot other : Nat} (shown_slot : state.Shown slot)
    (shown : state.Shown other)
    (apart : other ≠ slot →
      (state.blink_array other).location ≠ (state.blink_array slot).location) :
    (state.tickSlot slot).Shown other := by
  have phase := (state.blink_array slot).tick_phase
  have key := tick_key (state.blink_array slot)
  rcases ticked : (state.blink_array slot).tick with ⟨blink, char⟩
  rw [ticked] at phase key
  have location : blink.location = (state.blink_array slot).location :=
    congrArg BlinkKey.location key
  simp only [tickSlot, ticked]
  cases char with
  | none =>
      by_cases same : other = slot
      · simp only [Shown, setSlot, same, Function.update_self]
        rw [location, ← phase]
        exact shown_slot
      · simp only [Shown, setSlot, Function.update_of_ne same]
        exact shown
  | some c =>
      refine put_shown phase fun different => ⟨shown, ?_⟩
      rw [location]
      exact apart different

theorem ticked_shown {todo : List Nat} (within : ∀ slot ∈ todo, slot ∈ slots)
    (apart : ∀ slot ∈ slots, ∀ other ∈ slots, other ≠ slot →
      (state.blink_array other).location ≠ (state.blink_array slot).location)
    (shown : ∀ slot ∈ slots, state.Shown slot) :
    ∀ slot ∈ slots, (todo.foldl tickSlot state).Shown slot := by
  induction todo generalizing state with
  | nil => exact shown
  | cons first todo ih =>
      rw [List.forall_mem_cons] at within
      have same := tickSlot_same state first
      refine ih within.2 ?_ fun slot mem =>
        tickSlot_shown (shown first within.1) (shown slot mem) (apart first within.1 slot mem)
      intro slot mem other other_mem different
      rw [same.location, same.location]
      exact apart slot mem other other_mem different

/-! ## One event -/

/-- A list of which the screen shows the phases. -/
def Phased (state : BlinkState) : Prop :=
  ∃ keys slots, BlinkHistory.Holds ⟨state, keys⟩ slots ∧ ∀ slot ∈ slots, state.Shown slot

theorem Spaced.clear {keys : List BlinkKey} (spaced : state.Spaced) :
    BlinkHistory.Clear ⟨state, keys⟩ event := by
  intro user slots is_add valid listed element mem empty
  have positive := ((spaced slots listed).1 element mem).1
  rw [show (state.blink_array element).location = 0 from empty] at positive
  exact absurd positive (by decide)

theorem added_shown {slot : Nat} {user : Blink} (listed : state.Listed slots)
    (shown : ∀ slot ∈ slots, state.Shown slot) (in_array : slot < BLINK_SLOTS)
    (fresh : slot ∉ slots) (spaced : (state.added slot user).Spaced) :
    ∀ other ∈ slot :: slots, (state.added slot user).Shown other := by
  intro other mem
  have on_char : user.on_char = (user.added state.mp1_list_head).phase :=
    (if_neg (by decide : ¬(1 : BitVec 16) &&& 1 = 0)).symm
  have put : ((state.setSlot slot (user.added state.mp1_list_head)).mp1_poke
      (2 * user.location.toNat) user.on_char).Shown other := by
    refine put_shown on_char fun different => ?_
    have other_mem := List.mem_of_ne_of_mem different mem
    have apart := (spaced _ (listed.added user in_array fresh)).2 slot List.mem_cons_self other
      mem different
    rw [added_blink_array, Function.update_self, Function.update_of_ne different] at apart
    exact ⟨shown other other_mem, apart⟩
  exact put

theorem removed_shown {before behind : List Nat} {element : Nat}
    (listed : state.Listed (before ++ element :: behind))
    (shown : ∀ slot ∈ before ++ element :: behind, state.Shown slot) :
    ∀ slot ∈ before ++ behind, (state.removed before element).Shown slot := by
  intro slot mem
  have different : slot ≠ element := by
    rintro rfl
    exact listed.nodes.not_mem_others mem
  obtain ⟨pointer, other⟩ := removed_blink_array state before element slot
  rw [if_neg different] at other
  rw [Shown, removed_vmem, other]
  exact shown slot (LinkedList.mem_of_mem_others mem)

theorem sync_copy_phase {source target : Nat}
    (fits : (state.blink_array source).status &&& 1 = 0 ∨
      (state.blink_array target).on_char = (state.blink_array target).off_char) :
    ((state.blink_array target).synchronise (state.blink_array source)).sync_char =
      ((state.blink_array target).synchronise (state.blink_array source)).phase := by
  rw [Blink.sync_char_eq]
  rcases fits with off | same
  · exact (if_pos off).symm
  · rw [Blink.phase]
    split_ifs
    · rfl
    · exact same.symm

theorem sync_copy_shown {source target : Nat} (target_mem : target ∈ slots)
    (apart : ∀ slot ∈ slots, ∀ other ∈ slots, other ≠ slot →
      (state.blink_array other).location ≠ (state.blink_array slot).location)
    (fits : (state.blink_array source).status &&& 1 = 0 ∨
      (state.blink_array target).on_char = (state.blink_array target).off_char)
    (shown : ∀ slot ∈ slots, state.Shown slot) :
    ∀ slot ∈ slots, (state.sync_copy source target).Shown slot := by
  intro slot mem
  exact put_shown (sync_copy_phase fits) fun different =>
    ⟨shown slot mem, apart target target_mem slot mem different⟩

/-- An event that is in step keeps the phases on the screen. -/
theorem Phased.step (phased : state.Phased) (spaced : state.Spaced) (next_spaced : next.Spaced)
    (taken : state.step event = some next) (in_step : state.InStep event) : next.Phased := by
  obtain ⟨keys, slots, holds, shown⟩ := phased
  have apart := (spaced slots holds.listed).2
  obtain ⟨answer, called, rfl⟩ := Option.map_eq_some_iff.mp taken
  have recorded : BlinkHistory.step ⟨state, keys⟩ event =
      some ⟨answer.state, BlinkHistory.keysAfter keys answer.result event⟩ := by
    rw [BlinkHistory.step, called]
    rfl
  obtain ⟨others, behind_holds⟩ := holds.step recorded spaced.clear
  have unique : ∀ {again : List Nat}, answer.state.Listed again → again = others :=
    fun listed => listed.unique behind_holds.listed
  refine ⟨_, others, behind_holds, ?_⟩
  obtain ⟨same, -⟩ |
    ⟨user, slot, rfl, valid, allocated, -, added⟩ |
    ⟨arg, element, before, behind, rfl, rfl, here, earlier, -, removed⟩ |
    ⟨arg, source, target, rfl, source_found, target_found, copied⟩ |
    ⟨rfl, ticked⟩ := holds.listed.call_cases called
  · rw [same] at unique ⊢
    rw [← unique holds.listed]
    exact shown
  · have fresh := holds.notReissued_iff.mpr spaced.clear user slot slots rfl valid allocated
      holds.listed
    have in_array := lt_of_mp1_malloc allocated
    rw [added] at unique next_spaced ⊢
    rw [← unique (holds.listed.added user in_array fresh)]
    exact added_shown holds.listed shown in_array fresh next_spaced
  · rw [removed] at unique ⊢
    rw [← unique holds.listed.removed]
    exact removed_shown holds.listed shown
  · have fits := in_step arg source target rfl
      (by rw [holds.listed.find_helper, source_found])
      (by rw [holds.listed.find_helper, target_found])
    rw [copied] at unique ⊢
    rw [← unique ((sync_copy_same state source target).listed holds.listed)]
    exact sync_copy_shown (List.mem_of_find?_eq_some target_found) apart fits shown
  · rw [ticked] at unique ⊢
    rw [← unique ((ticked_same state slots).listed holds.listed)]
    exact ticked_shown (fun _ mem => mem) apart shown

/-- An event that is not in step leaves a phase that the screen does not show. -/
theorem Phased.broken (phased : state.Phased) (taken : state.step event = some next)
    (not_in_step : ¬state.InStep event) : ¬next.Shows := by
  obtain ⟨keys, slots, holds, -⟩ := phased
  simp only [InStep] at not_in_step
  push Not at not_in_step
  obtain ⟨arg, source, target, rfl, source_found, target_found, on, different⟩ := not_in_step
  rintro ⟨others, listed, shown⟩
  have copied : next = state.sync_copy source target := by
    simp only [BlinkState.step, call, mp1_ioctl_sync, source_found, target_found] at taken
    exact (Option.some.inj taken).symm
  rw [copied] at listed shown
  rw [← ((sync_copy_same state source target).listed holds.listed).unique listed] at shown
  have mem : target ∈ slots := by
    have found := (holds.listed.find_helper (arg.setWidth 16)).symm.trans target_found
    exact List.mem_of_find?_eq_some (Option.some.inj found)
  have off_char := shown target mem
  simp only [Shown, sync_copy, mp1_poke, setSlot, Function.update_self, Blink.sync_char_eq,
    Blink.phase] at off_char
  exact different (off_char.trans (if_neg on)).symm

/-! ## Runs -/

theorem start_phased (vmem : Nat → UInt8) : (start vmem).Phased :=
  ⟨[], [], BlinkHistory.start_holds vmem, fun _ mem => nomatch mem⟩

theorem Phased.shows (phased : state.Phased) : state.Shows := by
  obtain ⟨keys, slots, holds, shown⟩ := phased
  exact ⟨slots, holds.listed, shown⟩

/-- As long as the elements on the list have distinct locations, the screen shows their phases
exactly when every synchronisation takes over the off phase, or changes an element with two equal
characters. -/
theorem shows_iff_in_step (vmem : Nat → UInt8) (events : List BlinkEvent)
    (spaced : ∀ state ∈ Run.visited step (start vmem) events, state.Spaced) :
    (∀ state ∈ Run.visited step (start vmem) events, state.Shows) ↔
      ∀ entry ∈ Run.taken step (start vmem) events, InStep entry.1 entry.2 := by
  refine Run.weak_iff_ok_within InStep Spaced Phased Shows (fun _ => Phased.shows) ?_ ?_
    (start_phased vmem) events spaced
  · intro state event next here behind phased taken in_step
    exact phased.step here behind taken in_step
  · intro state event next here behind phased taken not_in_step
    exact phased.broken taken not_in_step

/-! ## Two elements that are on -/

theorem spaced_of_keys {keys : List BlinkKey} (holds : BlinkHistory.Holds ⟨state, keys⟩ slots)
    (in_screen : ∀ key ∈ keys, 1 ≤ key.location.toNat ∧ key.location.toNat ≤ 1999)
    (distinct : (keys.map BlinkKey.location).Nodup) : state.Spaced := by
  intro others listed
  cases listed.unique holds.listed
  have keys_eq : slots.map (fun slot => (state.blink_array slot).key) = keys := holds.keys
  rw [← keys_eq, List.map_map] at distinct
  rw [← keys_eq] at in_screen
  constructor
  · intro slot mem
    exact in_screen _ (List.mem_map_of_mem mem)
  · intro slot mem other other_mem different same
    exact different (List.inj_on_of_nodup_map distinct other_mem mem same)

/-- Additions at locations 1 and 2, and a synchronisation of the second element with the first. -/
def paired : List BlinkEvent :=
  [.add (BlinkHistory.framed 1), .add (BlinkHistory.framed 2), .sync 0x00010002]

/-- The state behind the addition at location 1. -/
def one : BlinkState := (start fun _ => 0).added 0 (BlinkHistory.framed 1)

/-- The state behind both additions. -/
def both : BlinkState := one.added 1 (BlinkHistory.framed 2)

theorem one_holds : BlinkHistory.Holds ⟨one, [(BlinkHistory.framed 1).key]⟩ [0] :=
  (BlinkHistory.start_holds fun _ => 0).add (BlinkHistory.framed 1) (by decide) (by simp)

theorem both_holds :
    BlinkHistory.Holds ⟨both, [(BlinkHistory.framed 2).key, (BlinkHistory.framed 1).key]⟩ [1, 0] :=
  one_holds.add (BlinkHistory.framed 2) (by decide) (by simp)

theorem paired_visited :
    Run.visited step (start fun _ => 0) paired =
      [start fun _ => 0, one, both, both.sync_copy 0 1] := by
  have second : one.mp1_malloc = some 1 := by
    refine List.find?_range_eq_some.mpr ⟨rfl, List.mem_range.mpr (by decide), fun slot before => ?_⟩
    rw [Nat.lt_one_iff] at before
    rw [before]
    rfl
  have added : step (start fun _ => 0) (.add (BlinkHistory.framed 1)) = some one :=
    step_add_eq (by decide) (start_mp1_malloc _)
  have added_behind : step one (.add (BlinkHistory.framed 2)) = some both :=
    step_add_eq (by decide) second
  have copied : step both (.sync 0x00010002) = some (both.sync_copy 0 1) := by
    simp only [step, call, mp1_ioctl_sync, both_holds.listed.find_helper]
    rfl
  simp only [paired, Run.visited, added, added_behind, copied]

theorem paired_spaced : ∀ state ∈ Run.visited step (start fun _ => 0) paired, state.Spaced := by
  have both_spaced := spaced_of_keys both_holds (by decide) (by decide)
  have copied : BlinkHistory.Holds ⟨both.sync_copy 0 1, _⟩ [1, 0] :=
    both_holds.same (sync_copy_same both 0 1)
  rw [paired_visited]
  simp only [List.forall_mem_cons]
  refine ⟨?_, ?_, both_spaced, ?_, fun _ mem => nomatch mem⟩
  · exact spaced_of_keys (BlinkHistory.start_holds fun _ => 0) (by decide) (by decide)
  · exact spaced_of_keys one_holds (by decide) (by decide)
  · exact spaced_of_keys copied (by decide) (by decide)

/-- The calls of `paired`, the last one only when both elements are off, and a tick. -/
def rested : List BlinkEvent :=
  [.add (BlinkHistory.framed 1), .add (BlinkHistory.framed 2)] ++ List.replicate 15 .tick ++
    [.sync 0x00010002, .tick]

/-- The screen shows both elements all the time. -/
theorem shows_iff_in_step_rested :
    (Run.run step (start fun _ => 0) rested).isSome ∧
      ∀ state ∈ Run.visited step (start fun _ => 0) rested, state.Shows := by
  have linked : ∀ state ∈ Run.visited step (start fun _ => 0) rested,
      state.Listed [] ∨ state.Listed [0] ∧ (state.blink_array 0).location = 1 ∨
        state.Listed [1, 0] ∧ (state.blink_array 0).location = 1 ∧
          (state.blink_array 1).location = 2 := by decide +kernel
  have spaced (state : BlinkState) (mem : state ∈ Run.visited step (start fun _ => 0) rested) :
      state.Spaced := by
    intro slots listed
    rcases linked state mem with none | ⟨first, place⟩ | ⟨both, place, place'⟩
    · cases listed.unique none
      simp
    · cases listed.unique first
      simp [place]
    · cases listed.unique both
      simp [place, place']
  have in_step : ∀ entry ∈ Run.taken step (start fun _ => 0) rested, InStep entry.1 entry.2 := by
    decide +kernel
  exact ⟨by decide +kernel, (shows_iff_in_step (fun _ => 0) rested spaced).mpr in_step⟩

/-- Behind these calls the second element is on, and the screen shows its off character. -/
theorem paired_not_shown :
    (∀ state ∈ Run.visited step (start fun _ => 0) paired, state.Spaced) ∧
      ¬∀ state ∈ Run.visited step (start fun _ => 0) paired, state.Shows := by
  refine ⟨paired_spaced, fun shows => ?_⟩
  rw [paired_visited] at shows
  obtain ⟨slots, listed, shown⟩ := shows (both.sync_copy 0 1) (by simp)
  rw [listed.unique ((sync_copy_same both 0 1).listed both_holds.listed)] at shown
  have off_char : (46 : UInt8) = 111 := shown 1 List.mem_cons_self
  exact absurd off_char (by decide)

end BlinkState

end ComputerSystem
