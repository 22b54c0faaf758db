import ComputerSystem.Blink
import ComputerSystem.UserCalls

/-!
# fish

The program that animates two text files with the list of `blink.S`.  Its stores to the video page
are in `BlinkState.vmem`; the video memory behind each wait is kept beside the result.
-/

namespace ComputerSystem

open Dialogue

/-- Ticks of each wait in `main`. -/
def WAIT : Nat := 100

/-- The byte that was read last from one of the two files, and whether its end was reached. -/
structure FrameReader where
  /-- The byte. -/
  c : UInt8
  /-- The end was reached. -/
  eof : Bool
  deriving DecidableEq

namespace FrameReader

/-- Nothing was read yet. -/
def start : FrameReader := ⟨48, false⟩

/-- A byte is read, unless the line has ended; at the end of the file it counts as a newline. -/
def next (fd : Int) (reader : FrameReader) : Dialogue UserCall Reply FrameReader :=
  if reader.c ≠ NEWLINE then do
    let got ← request (.descriptor (.read fd false 1))
    if got.result = 0 then pure ⟨NEWLINE, true⟩
    else pure { reader with c := got.bytes.getD 0 reader.c }
  else pure reader

/-- Behind a row: a file that has ended is closed, once more for each row that follows. -/
def rewind (fd : Int) (reader : FrameReader) : Dialogue UserCall Reply FrameReader :=
  if reader.eof then do
    let _ ← request (.descriptor (.close fd))
    pure { reader with c := NEWLINE }
  else pure { reader with c := 48 }

/-- The character of a frame. -/
def char (reader : FrameReader) : UInt8 := if reader.c = NEWLINE then 32 else reader.c

end FrameReader

/-- The structure that `add_frames` passes to `mp1_ioctl`. -/
def framed_cell (blink_struct : Blink) (row col : Nat) (on_char off_char : UInt8) : Blink :=
  { blink_struct with on_char, off_char, location := BitVec.ofNat 16 (row * 80 + col + 40) }

/-- The inner loop of `add_frames`. -/
def frame_row (fd0 fd1 : Int) (blink_struct : Blink) (row : Nat) :
    Nat → Nat → FrameReader → FrameReader → BlinkState →
      Dialogue UserCall Reply (FrameReader × FrameReader × BlinkState)
  | 0, _, _, _, _ => spent
  | rounds + 1, col, reader0, reader1, state => do
      let reader0 ← reader0.next fd0
      let reader1 ← reader1.next fd1
      let c0 := reader0.c
      let c1 := reader1.c
      if c0 = NEWLINE ∧ c1 = NEWLINE then pure (reader0, reader1, state)
      else
        let state :=
          if (c0 ≠ 32 ∧ c0 ≠ NEWLINE) ∨ (c1 ≠ 32 ∧ c1 ≠ NEWLINE) then
            (state.mp1_ioctl_add (framed_cell blink_struct row col reader0.char reader1.char)).state
          else state
        frame_row fd0 fd1 blink_struct row rounds (col + 1) reader0 reader1 state

/-- The outer loop of `add_frames`. -/
def frame_rows (fd0 fd1 : Int) (blink_struct : Blink) (cols : Nat) :
    Nat → Nat → FrameReader → FrameReader → BlinkState → Dialogue UserCall Reply BlinkState
  | 0, _, _, _, _ => spent
  | rounds + 1, row, reader0, reader1, state =>
      if reader0.eof = false ∨ reader1.eof = false then do
        let (reader0, reader1, state) ←
          frame_row fd0 fd1 blink_struct row cols 0 reader0 reader1 state
        let reader0 ← reader0.rewind fd0
        let reader1 ← reader1.rewind fd1
        frame_rows fd0 fd1 blink_struct cols rounds (row + 1) reader0 reader1 state
      else pure state

/-- `add_frames`; `none` when it halts.  The structure on its stack is not initialised. -/
def add_frames (f0 f1 : List UInt8) (rows cols : Nat) (blink_struct : Blink) (state : BlinkState) :
    Dialogue UserCall Reply (Option BlinkState) := do
  let blink_struct := { blink_struct with on_length := 15, off_length := 15 }
  let opened0 ← request (.descriptor (.open_file f0))
  let fd0 := opened0.result
  if fd0 < 0 then pure none
  else do
    let opened1 ← request (.descriptor (.open_file f1))
    let fd1 := opened1.result
    if fd1 < 0 then pure none
    else do
      let state ← frame_rows fd0 fd1 blink_struct cols rows 0 .start .start state
      pure (some state)

/-- One of the waits in `main`, and the video memory behind each tick. -/
def fish_wait (rtc_fd : Int) : Nat → BlinkState →
    Dialogue UserCall Reply (BlinkState × List (Nat → UInt8))
  | 0, state => pure (state, [])
  | ticks + 1, state => do
      let _ ← request (.descriptor (.read rtc_fd false 4))
      match state.mp1_rtc_tasklet with
      | none => spent
      | some state => do
          let (last, screens) ← fish_wait rtc_fd ticks state
          pure (last, state.vmem :: screens)

/-- A call of `mp1_ioctl` that may not return. -/
def fish_ioctl (answer : Option BlinkAnswer) : Dialogue UserCall Reply BlinkState :=
  match answer with
  | none => spent
  | some answer => pure answer.state

/-- The structure that `main` adds. -/
def bubble (blink_struct : Blink) : Blink :=
  { blink_struct with
    on_char := 73, off_char := 77, on_length := 7, off_length := 6, location := 6 * 80 + 60 }

/-- The part of `main` behind `add_frames`. -/
def fish_show (rtc_fd : Int) (blink_struct : Blink) (state : BlinkState) :
    Dialogue UserCall Reply (Int × List (Nat → UInt8)) := do
  let _ ← request (.descriptor (.write rtc_fd [32, 0, 0, 0] 4))
  let (state, first) ← fish_wait rtc_fd WAIT state
  let state := (state.mp1_ioctl_add (bubble blink_struct)).state
  let (state, second) ← fish_wait rtc_fd WAIT state
  let state ← fish_ioctl (state.mp1_ioctl_sync (40 <<< 16 ||| (6 * 80 + 60)))
  let (state, third) ← fish_wait rtc_fd WAIT state
  let state ← fish_ioctl (state.mp1_ioctl_remove (6 * 80 + 60))
  let (_, fourth) ← fish_wait rtc_fd WAIT state
  let _ ← request (.descriptor (.close rtc_fd))
  pure (0, first ++ second ++ third ++ fourth)

/-- `main` of `fish`, with `vmem_base_addr` at `screen_start` and the contents of the video page;
both structures on the stack are not initialised. -/
def fish_main (rows cols : Nat) (frame_struct blink_struct : Blink) (screen_start : Int)
    (vmem : Nat → UInt8) : Dialogue UserCall Reply (Int × List (Nat → UInt8)) := do
  let state := BlinkState.start vmem
  let mapped ← request (.vidmap screen_start)
  if mapped.result = -1 then pure (-1, [])
  else do
    let opened ← request (.descriptor (.open_file (bytes "rtc")))
    let rtc_fd := opened.result
    let added ← add_frames (bytes "frame0.txt") (bytes "frame1.txt") rows cols frame_struct state
    match added with
    | none => pure (-1, [])
    | some state => fish_show rtc_fd blink_struct state

end ComputerSystem
