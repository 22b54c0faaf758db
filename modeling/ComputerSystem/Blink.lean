import Mathlib

/-!
# Blinking characters

The list of `blink.S` and the slots that `fish.c` gives it.  A pointer is a slot number or null.
The loops over the list get one round more than there are slots; a loop that needs more does not
return.
-/

namespace ComputerSystem

/-- Slots of `blink_array`. -/
def BLINK_SLOTS : Nat := 80 * 25

/-- `struct mp1_blink_struct`. -/
structure Blink where
  /-- The cell of the screen. -/
  location : BitVec 16
  /-- The character of the first phase. -/
  on_char : UInt8
  /-- The character of the second phase. -/
  off_char : UInt8
  /-- Ticks of the first phase. -/
  on_length : BitVec 16
  /-- Ticks of the second phase. -/
  off_length : BitVec 16
  /-- Ticks that are left of the phase. -/
  countdown : BitVec 16
  /-- Bit 0 is set in the first phase. -/
  status : BitVec 16
  /-- The next slot on the list. -/
  next : Option Nat
  deriving DecidableEq

namespace Blink

/-- A slot that was set to zero. -/
def zero : Blink := ⟨0, 0, 0, 0, 0, 0, 0, none⟩

/-- What `mp1_rtc_tasklet` does to one element, and the character it writes. -/
def tick (blink : Blink) : Blink × Option UInt8 :=
  let blink := { blink with countdown := blink.countdown - 1 }
  if BitVec.slt 0 blink.countdown then (blink, none)
  else if blink.status &&& 1 = 0 then                          -- currently_off
    ({ blink with countdown := blink.on_length, status := blink.status ^^^ 1 }, some blink.on_char)
  else
    ({ blink with countdown := blink.off_length, status := blink.status ^^^ 1 },
      some blink.off_char)

/-- `sync_copy_loop`: the fields that come from the other element. -/
def synchronise (blink source : Blink) : Blink :=
  { blink with
    on_length := source.on_length
    off_length := source.off_length
    countdown := source.countdown
    status := source.status }

/-- The character that `mp1_ioctl_sync` writes: `testb` sets the sign flag and clears the overflow
flag, and `cmovl` takes `on_char` where they differ. -/
def sync_char (blink : Blink) : UInt8 :=
  let tested := blink.status.setWidth 8 &&& 1
  let sign_flag := tested.msb
  let overflow_flag := false
  if sign_flag ≠ overflow_flag then blink.on_char else blink.off_char

/-- What `mp1_ioctl_add` makes of the user's structure. -/
def added (user : Blink) (mp1_list_head : Option Nat) : Blink :=
  { user with status := 1, countdown := user.on_length, next := mp1_list_head }

end Blink

/-- The list, its slots and video memory from `vmem_base_addr` on. -/
structure BlinkState where
  /-- The first slot on the list. -/
  mp1_list_head : Option Nat
  /-- The slots. -/
  blink_array : Nat → Blink
  /-- The cells of the screen, two bytes each. -/
  vmem : Nat → UInt8

/-- The result of a call, the structure it gives to the user, and the state afterwards. -/
structure BlinkAnswer where
  /-- What the call returns. -/
  result : Int
  /-- What it copies to the user. -/
  found : Option Blink
  /-- What it leaves. -/
  state : BlinkState

/-- Where a pointer to an element is stored. -/
inductive BlinkLink
  | mp1_list_head
  | next (slot : Nat)
  deriving DecidableEq

namespace BlinkState

/-- Change one slot. -/
def setSlot (state : BlinkState) (slot : Nat) (blink : Blink) : BlinkState :=
  { state with blink_array := Function.update state.blink_array slot blink }

/-- `mp1_poke`. -/
def mp1_poke (state : BlinkState) (offset : Nat) (c : UInt8) : BlinkState :=
  { state with vmem := Function.update state.vmem offset c }

/-- `mp1_malloc`: the first slot whose location is 0. -/
def mp1_malloc (state : BlinkState) : Option Nat :=
  (List.range BLINK_SLOTS).find? fun slot => (state.blink_array slot).location = 0

/-- `mp1_free`. -/
def mp1_free (state : BlinkState) (slot : Nat) : BlinkState := state.setSlot slot .zero

/-- The pointers of the slots. -/
def next (state : BlinkState) (slot : Nat) : Option Nat := (state.blink_array slot).next

/-- One element of `tasklet_loop`. -/
def tickSlot (state : BlinkState) (slot : Nat) : BlinkState :=
  let (blink, shown) := (state.blink_array slot).tick
  let ticked := state.setSlot slot blink
  match shown with
  | none => ticked
  | some c => ticked.mp1_poke (2 * blink.location.toNat) c

/-- `tasklet_loop`. -/
def tasklet_loop : Nat → BlinkState → Option Nat → Option BlinkState
  | 0, _, _ => none
  | _ + 1, state, none => some state
  | rounds + 1, state, some slot =>
      let state := state.tickSlot slot
      tasklet_loop rounds state (state.next slot)

/-- `mp1_rtc_tasklet`. -/
def mp1_rtc_tasklet (state : BlinkState) : Option BlinkState :=
  state.tasklet_loop (BLINK_SLOTS + 1) state.mp1_list_head

/-- The loop of `mp1_find_helper`. -/
def helper_loop (state : BlinkState) (location : BitVec 16) : Nat → Option Nat → Option (Option Nat)
  | 0, _ => none
  | _ + 1, none => some none
  | rounds + 1, some slot =>
      if (state.blink_array slot).location = location then some (some slot)
      else state.helper_loop location rounds (state.next slot)

/-- `mp1_find_helper`. -/
def mp1_find_helper (state : BlinkState) (location : BitVec 16) : Option (Option Nat) :=
  state.helper_loop location (BLINK_SLOTS + 1) state.mp1_list_head

/-- The pointer stored at a link. -/
def load (state : BlinkState) : BlinkLink → Option Nat
  | .mp1_list_head => state.mp1_list_head
  | .next slot => state.next slot

/-- Store a pointer at a link. -/
def store (state : BlinkState) (link : BlinkLink) (pointer : Option Nat) : BlinkState :=
  match link with
  | .mp1_list_head => { state with mp1_list_head := pointer }
  | .next slot => state.setSlot slot { state.blink_array slot with next := pointer }

/-- `remove_find_prev`. -/
def remove_find_prev (state : BlinkState) (element : Nat) : Nat → BlinkLink → Option BlinkLink
  | 0, _ => none
  | rounds + 1, link =>
      if state.load link = some element then some link
      else
        match state.load link with
        | none => none
        | some slot => state.remove_find_prev element rounds (.next slot)

/-- `mp1_ioctl_add`, for the structure it copies from the user. -/
def mp1_ioctl_add (state : BlinkState) (user : Blink) : BlinkAnswer :=
  if 80 * 25 ≤ user.location.toNat then ⟨-1, none, state⟩
  else
    match state.mp1_malloc with
    | none => ⟨-1, none, state⟩
    | some slot =>
        let state := state.setSlot slot (user.added state.mp1_list_head)
        let state := { state with mp1_list_head := some slot }
        ⟨0, none, state.mp1_poke (2 * user.location.toNat) user.on_char⟩

/-- `mp1_ioctl_remove`. -/
def mp1_ioctl_remove (state : BlinkState) (arg : BitVec 32) : Option BlinkAnswer :=
  (state.mp1_find_helper (arg.setWidth 16)).bind fun
    | none => some ⟨-1, none, state⟩
    | some element =>
        (state.remove_find_prev element (BLINK_SLOTS + 1) .mp1_list_head).map fun link =>
          ⟨0, none, (state.store link (state.next element)).mp1_free element⟩

/-- `mp1_ioctl_find`, for the location it copies from the user. -/
def mp1_ioctl_find (state : BlinkState) (location : BitVec 16) : Option BlinkAnswer :=
  (state.mp1_find_helper location).map fun
    | none => ⟨-1, none, state⟩
    | some element => ⟨0, some (state.blink_array element), state⟩

/-- The last part of `mp1_ioctl_sync`. -/
def sync_copy (state : BlinkState) (source target : Nat) : BlinkState :=
  let blink := (state.blink_array target).synchronise (state.blink_array source)
  (state.setSlot target blink).mp1_poke (2 * blink.location.toNat) blink.sync_char

/-- `mp1_ioctl_sync`. -/
def mp1_ioctl_sync (state : BlinkState) (arg : BitVec 32) : Option BlinkAnswer :=
  (state.mp1_find_helper ((arg >>> 16).setWidth 16)).bind fun
    | none => some ⟨-1, none, state⟩
    | some source =>
        (state.mp1_find_helper (arg.setWidth 16)).map fun
          | none => ⟨-1, none, state⟩
          | some target => ⟨0, none, state.sync_copy source target⟩

end BlinkState

/-- A call of `mp1_ioctl` with one of its four commands, or an interrupt of the RTC. -/
inductive BlinkEvent
  | add (user : Blink)
  | remove (arg : BitVec 32)
  | find (location : BitVec 16)
  | sync (arg : BitVec 32)
  | tick

namespace BlinkState

/-- One event; `none` when it does not return. -/
def call (state : BlinkState) : BlinkEvent → Option BlinkAnswer
  | .add user => some (state.mp1_ioctl_add user)
  | .remove arg => state.mp1_ioctl_remove arg
  | .find location => state.mp1_ioctl_find location
  | .sync arg => state.mp1_ioctl_sync arg
  | .tick => state.mp1_rtc_tasklet.map fun state => ⟨0, none, state⟩

/-- The state behind an event. -/
def step (state : BlinkState) (event : BlinkEvent) : Option BlinkState :=
  (state.call event).map BlinkAnswer.state

/-- The state behind the clearing of `blink_array` in `main`, with some contents of video memory. -/
def start (vmem : Nat → UInt8) : BlinkState where
  mp1_list_head := none
  blink_array := fun _ => .zero
  vmem := vmem

end BlinkState

end ComputerSystem
