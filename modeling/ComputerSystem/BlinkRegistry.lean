import ComputerSystem.BlinkList
import ComputerSystem.Run

/-!
# Blinking characters that are registered

The elements that were added and not removed, and when the list holds just these.  `mp1_malloc`
takes a slot for free when its location is 0, also the slot of a listed element at location 0: where
no free slot comes before that one, an addition puts it on the list once more and closes a circle.
-/

namespace ComputerSystem

open LinkedList

/-- A state, and the keys of the elements that its calls have added and not removed, the newest
first. -/
structure BlinkHistory where
  /-- The state. -/
  state : BlinkState
  /-- The registered keys. -/
  keys : List BlinkKey

namespace BlinkHistory

/-- The keys behind a call with this result. -/
def keysAfter (keys : List BlinkKey) (result : Int) : BlinkEvent → List BlinkKey
  | .add user => if result = 0 then user.key :: keys else keys
  | .remove arg =>
      if result = 0 then keys.eraseP fun key => key.location = arg.setWidth 16 else keys
  | _ => keys

/-- One event. -/
def step (history : BlinkHistory) (event : BlinkEvent) : Option BlinkHistory :=
  (history.state.call event).map fun answer =>
    ⟨answer.state, keysAfter history.keys answer.result event⟩

/-- The empty list. -/
def start (vmem : Nat → UInt8) : BlinkHistory := ⟨.start vmem, []⟩

/-- The list is finite, its nodes are distinct slots of `blink_array` and the registered elements,
`mp1_ioctl_find` finds just these, and every call and every tick returns. -/
structure Intact (history : BlinkHistory) : Prop where
  /-- The list is that of the registered elements. -/
  listed : ∃ slots, history.state.Listed slots ∧ slots.Nodup ∧
    slots.map (fun slot => (history.state.blink_array slot).key) = history.keys
  /-- `mp1_ioctl_find` finds them. -/
  finds : ∀ location,
    (history.state.mp1_ioctl_find location).map
        (fun answer => (answer.result, answer.found.map Blink.key)) =
      some (match history.keys.find? fun key => key.location = location with
        | none => (-1, none)
        | some key => (0, some key))
  /-- Nothing hangs. -/
  returns : ∀ event, (history.state.call event).isSome

/-- An addition is not given a slot that is on the list. -/
def NotReissued (history : BlinkHistory) (event : BlinkEvent) : Prop :=
  ∀ user slot slots, event = .add user → user.location.toNat < BLINK_SLOTS →
    history.state.mp1_malloc = some slot → history.state.Listed slots → slot ∉ slots

/-- At an addition, each element at location 0 has a free slot before its own. -/
def Clear (history : BlinkHistory) (event : BlinkEvent) : Prop :=
  ∀ user slots, event = .add user → user.location.toNat < BLINK_SLOTS →
    history.state.Listed slots →
    ∀ element ∈ slots, (history.state.blink_array element).location = 0 →
      ∃ slot < element, slot ∉ slots

/-- The list of the registered elements; the other slots are 0 where `mp1_malloc` looks. -/
structure Holds (history : BlinkHistory) (slots : List Nat) : Prop where
  /-- The slots on the list. -/
  listed : history.state.Listed slots
  /-- Their keys are the registered ones. -/
  keys : slots.map (fun slot => (history.state.blink_array slot).key) = history.keys
  /-- The others can be handed out. -/
  free : ∀ slot < BLINK_SLOTS, slot ∉ slots → (history.state.blink_array slot).location = 0

variable {history next : BlinkHistory} {slots : List Nat} {event : BlinkEvent}

theorem Holds.intact (holds : history.Holds slots) : history.Intact := by
  refine ⟨⟨slots, holds.listed, holds.listed.nodes.nodup, holds.keys⟩, fun location => ?_,
    holds.listed.returns⟩
  rw [holds.listed.ioctl_find, ← holds.keys, List.find?_map]
  simp only [Option.map_some, Function.comp_def, Blink.key]
  cases slots.find? fun slot => (history.state.blink_array slot).location = location <;> rfl

/-- `mp1_malloc` gives a slot on the list exactly when an element at location 0 has no free slot
before its own. -/
theorem Holds.reissued_iff (holds : history.Holds slots) :
    (∃ slot ∈ slots, history.state.mp1_malloc = some slot) ↔
      ∃ element ∈ slots, (history.state.blink_array element).location = 0 ∧
        ∀ slot < element, slot ∈ slots := by
  constructor
  · rintro ⟨slot, mem, allocated⟩
    obtain ⟨empty, in_array, earlier⟩ := List.find?_range_eq_some.mp allocated
    refine ⟨slot, mem, of_decide_eq_true empty, fun other before => ?_⟩
    by_contra absent
    have zero := holds.free other (before.trans (List.mem_range.mp in_array)) absent
    simpa [zero] using earlier other before
  · rintro ⟨element, mem, empty, filled⟩
    have in_array := holds.listed.in_array element mem
    cases allocated : history.state.mp1_malloc with
    | none =>
        simpa [empty] using List.find?_range_eq_none.mp allocated element in_array
    | some slot =>
        obtain ⟨-, -, earlier⟩ := List.find?_range_eq_some.mp allocated
        refine ⟨slot, ?_, rfl⟩
        rcases lt_trichotomy slot element with before | rfl | behind
        · exact filled slot before
        · exact mem
        · simpa [empty] using earlier element behind

theorem Holds.notReissued_iff (holds : history.Holds slots) :
    history.NotReissued event ↔ history.Clear event := by
  have exact := holds.reissued_iff
  constructor
  · intro fresh user others is_add valid listed element mem empty
    cases listed.unique holds.listed
    by_contra filled
    push Not at filled
    obtain ⟨slot, again, allocated⟩ := exact.mpr ⟨element, mem, empty, filled⟩
    exact fresh user slot slots is_add valid allocated listed again
  · intro clear user slot others is_add valid allocated listed again
    cases listed.unique holds.listed
    obtain ⟨element, mem, empty, filled⟩ := exact.mp ⟨slot, again, allocated⟩
    obtain ⟨free, before, absent⟩ := clear user slots is_add valid listed element mem empty
    exact absent (filled free before)

/-! ## One event -/

/-- Equal keys in all slots keep what the history says of a list. -/
theorem Holds.same {state : BlinkState} (holds : history.Holds slots)
    (same : history.state.SameList state) : Holds ⟨state, history.keys⟩ slots := by
  refine ⟨same.listed holds.listed, ?_, fun slot in_array absent => ?_⟩
  · rw [← holds.keys]
    exact List.map_congr_left fun slot _ => same.key slot
  · rw [← holds.free slot in_array absent]
    exact same.location slot

theorem Holds.add {slot : Nat} (holds : history.Holds slots) (user : Blink)
    (in_array : slot < BLINK_SLOTS) (fresh : slot ∉ slots) :
    Holds ⟨history.state.added slot user, user.key :: history.keys⟩ (slot :: slots) := by
  refine ⟨holds.listed.added user in_array fresh, ?_, ?_⟩
  · rw [List.map_cons, ← holds.keys, BlinkState.added_blink_array, Function.update_self]
    refine congrArg₂ List.cons rfl (List.map_congr_left fun other mem => ?_)
    rw [Function.update_of_ne]
    rintro rfl
    exact fresh mem
  · intro other other_in_array absent
    rw [List.mem_cons, not_or] at absent
    rw [BlinkState.added_blink_array, Function.update_of_ne absent.1]
    exact holds.free other other_in_array absent.2

theorem Holds.remove {before behind : List Nat} {element : Nat} {location : BitVec 16}
    (holds : history.Holds (before ++ element :: behind))
    (here : (history.state.blink_array element).location = location)
    (earlier : ∀ slot ∈ before, (history.state.blink_array slot).location ≠ location) :
    Holds ⟨history.state.removed before element,
      history.keys.eraseP fun key => key.location = location⟩ (before ++ behind) := by
  have absent := holds.listed.nodes.not_mem_others
  have kept : ∀ slot ∈ before ++ behind,
      ((history.state.removed before element).blink_array slot).key =
        (history.state.blink_array slot).key := by
    intro slot mem
    obtain ⟨pointer, other⟩ := BlinkState.removed_blink_array history.state before element slot
    have different : slot ≠ element := by
      rintro rfl
      exact absent mem
    rw [other, if_neg different]
    rfl
  refine ⟨holds.listed.removed, ?_, ?_⟩
  · rw [List.map_congr_left kept, ← holds.keys, List.map_append, List.map_append, List.map_cons]
    rw [List.eraseP_append_right, List.eraseP_cons_of_pos]
    · exact decide_eq_true here
    · simpa [Blink.key] using earlier
  · intro slot in_array free
    obtain ⟨pointer, other⟩ := BlinkState.removed_blink_array history.state before element slot
    rw [other]
    split_ifs with same
    · rfl
    · refine holds.free slot in_array fun mem => ?_
      rcases List.mem_append.mp mem with mem | mem
      · exact free (List.mem_append_left _ mem)
      · rcases List.mem_cons.mp mem with rfl | mem
        · exact same rfl
        · exact free (List.mem_append_right _ mem)

theorem Holds.step (holds : history.Holds slots) (taken : history.step event = some next)
    (clear : history.Clear event) : ∃ slots, next.Holds slots := by
  obtain ⟨answer, called, rfl⟩ := Option.map_eq_some_iff.mp taken
  obtain ⟨same, only_find⟩ |
    ⟨user, slot, rfl, valid, allocated, zero, added⟩ |
    ⟨arg, element, before, behind, rfl, rfl, here, earlier, zero, removed⟩ |
    ⟨arg, source, target, rfl, -, -, copied⟩ | ⟨rfl, ticked⟩ := holds.listed.call_cases called
  · have keys : keysAfter history.keys answer.result event = history.keys := by
      by_cases zero : answer.result = 0
      · obtain ⟨location, rfl⟩ := only_find zero
        rfl
      · cases event <;> simp only [keysAfter, if_neg zero]
    rw [same, keys]
    exact ⟨slots, holds⟩
  · have fresh := holds.notReissued_iff.mpr clear user slot slots rfl valid allocated holds.listed
    simp only [added, keysAfter, zero, if_true]
    exact ⟨slot :: slots, holds.add user (BlinkState.lt_of_mp1_malloc allocated) fresh⟩
  · simp only [removed, keysAfter, zero, if_true]
    exact ⟨before ++ behind, holds.remove here earlier⟩
  · rw [copied]
    exact ⟨slots, holds.same (BlinkState.sync_copy_same _ source target)⟩
  · rw [ticked]
    exact ⟨slots, holds.same (BlinkState.ticked_same _ slots)⟩

/-- An event that is not clear adds an element at a slot of the list. -/
theorem Holds.added_again (holds : history.Holds slots) (taken : history.step event = some next)
    (not_clear : ¬history.Clear event) :
    ∃ slot ∈ slots, ∃ user, next.state = history.state.added slot user := by
  obtain ⟨answer, called, rfl⟩ := Option.map_eq_some_iff.mp taken
  rw [← holds.notReissued_iff] at not_clear
  simp only [NotReissued] at not_clear
  push Not at not_clear
  obtain ⟨user, slot, others, rfl, valid, allocated, listed, mem⟩ := not_clear
  cases listed.unique holds.listed
  cases called
  refine ⟨slot, mem, user, ?_⟩
  rw [BlinkState.ioctl_add_eq valid allocated]

theorem Holds.broken (holds : history.Holds slots) (taken : history.step event = some next)
    (not_clear : ¬history.Clear event) : ¬next.Intact := by
  intro intact
  obtain ⟨slot, mem, user, added⟩ := holds.added_again taken not_clear
  obtain ⟨again, linked, -, -⟩ := intact.listed
  rw [added] at linked
  exact holds.listed.added_again user mem again linked.nodes

/-- Behind an event that is not clear the next tick does not return. -/
theorem Holds.hangs (holds : history.Holds slots) (taken : history.step event = some next)
    (not_clear : ¬history.Clear event) : next.step .tick = none := by
  obtain ⟨slot, mem, user, added⟩ := holds.added_again taken not_clear
  rw [BlinkHistory.step, added, BlinkState.call, holds.listed.added_again_hangs user mem]
  rfl

/-! ## Runs -/

theorem start_holds (vmem : Nat → UInt8) : (start vmem).Holds [] :=
  ⟨BlinkState.start_listed vmem, rfl, fun _ _ _ => rfl⟩

/-- The list stays intact exactly when every event is clear. -/
theorem intact_iff (vmem : Nat → UInt8) (events : List BlinkEvent) :
    (∀ history ∈ Run.visited step (start vmem) events, history.Intact) ↔
      ∀ entry ∈ Run.taken step (start vmem) events, Clear entry.1 entry.2 := by
  refine Run.weak_iff_ok Clear (fun history => ∃ slots, history.Holds slots) Intact ?_ ?_ ?_
    ⟨[], start_holds vmem⟩ events
  · rintro history ⟨slots, holds⟩
    exact holds.intact
  · rintro history event next ⟨slots, holds⟩ taken clear
    exact holds.step taken clear
  · rintro history event next ⟨slots, holds⟩ taken not_clear
    exact holds.broken taken not_clear

/-- No slot of the list is handed out again exactly when every event is clear. -/
theorem notReissued_iff (vmem : Nat → UInt8) (events : List BlinkEvent) :
    (∀ entry ∈ Run.taken step (start vmem) events, NotReissued entry.1 entry.2) ↔
      ∀ entry ∈ Run.taken step (start vmem) events, Clear entry.1 entry.2 := by
  refine Run.good_iff_ok (fun history => ∃ slots, history.Holds slots) Clear NotReissued ?_ ?_
    ⟨[], start_holds vmem⟩ events
  · rintro history event next ⟨slots, holds⟩ -
    exact holds.notReissued_iff
  · rintro history event next ⟨slots, holds⟩ clear taken
    exact holds.step taken clear

/-- From the empty list on, the list stays intact and none of its slots is handed out again exactly
when at each addition every element at location 0 has a free slot before its own. -/
theorem stays_intact_iff (vmem : Nat → UInt8) (events : List BlinkEvent) :
    (∀ history ∈ Run.visited step (start vmem) events, history.Intact) ∧
        (∀ entry ∈ Run.taken step (start vmem) events, NotReissued entry.1 entry.2) ↔
      ∀ entry ∈ Run.taken step (start vmem) events, Clear entry.1 entry.2 := by
  rw [intact_iff, notReissued_iff, and_self]

/-- An element at a location, with both lengths 15 as for the frames. -/
def framed (location : BitVec 16) : Blink := ⟨location, 111, 46, 15, 15, 0, 0, none⟩

/-- After an addition at location 0, the next one gets the same slot. -/
theorem corner_reissued :
    ¬((∀ history ∈ Run.visited step (start fun _ => 0) [.add (framed 0), .add (framed 520)],
          history.Intact) ∧
        ∀ entry ∈ Run.taken step (start fun _ => 0) [.add (framed 0), .add (framed 520)],
          NotReissued entry.1 entry.2) := by
  rintro ⟨intact, -⟩
  rw [intact_iff] at intact
  have valid : (framed 0).location.toNat < BLINK_SLOTS := by decide
  let corner : BlinkHistory := ⟨(BlinkState.start fun _ => 0).added 0 (framed 0), [(framed 0).key]⟩
  have added : step (start fun _ => 0) (.add (framed 0)) = some corner := by
    have answer : (BlinkState.start fun _ => 0).mp1_ioctl_add (framed 0) =
        ⟨0, none, corner.state⟩ :=
      BlinkState.ioctl_add_eq valid (BlinkState.start_mp1_malloc _)
    simp only [step, BlinkState.call, start, answer, Option.map_some, keysAfter, if_true]
    rfl
  have holds : corner.Holds [0] := (start_holds fun _ => 0).add (framed 0) (by decide) (by simp)
  have second : (corner, .add (framed 520)) ∈
      Run.taken step (start fun _ => 0) [.add (framed 0), .add (framed 520)] :=
    Run.mem_taken_of_run step _ [.add (framed 0)] (.add (framed 520)) []
      (by simp only [Run.run, added]; rfl) rfl
  obtain ⟨slot, before, -⟩ := intact _ second (framed 520) [0] rfl (by decide) holds.listed 0
    List.mem_cons_self rfl
  exact Nat.not_lt_zero slot before

end BlinkHistory

end ComputerSystem
