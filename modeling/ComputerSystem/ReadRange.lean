import ComputerSystem.Descriptors

/-!
# Reads at every offset

Inside a file `read_data` returns the bytes from the offset on, as many as were asked for and the
file still has.  Behind the file the remaining length wraps, and the last inode number that the
check lets pass is the count of the inodes.
-/

namespace ComputerSystem

open Word

/-! ## The loop ends -/

namespace ReadState

/-- The test of the loop of `read_data`. -/
def Running (state : ReadState) : Prop :=
  state.num_bytes > 0 ∧ state.length_file_remain > 0

/-- The loop runs for a number of rounds and ends in the final state. -/
structure Halts (image : Image) (inode : Nat) (state final : ReadState) (rounds : Nat) : Prop where
  /-- It ends there. -/
  reached : (read_chunk image inode)^[rounds] state = final
  /-- It does not end before. -/
  running : ∀ round < rounds, ((read_chunk image inode)^[round] state).Running
  /-- It ends. -/
  ended : ¬final.Running

end ReadState

/-- A round copies something, and the next one starts a block. -/
theorem read_chunk_progress (image : Image) (inode : Nat) {state : ReadState}
    (running : state.Running) (inside : state.offset_in_one_block < 4096) :
    (read_chunk image inode state).num_bytes < state.num_bytes ∧
      ((read_chunk image inode state).Running →
        (read_chunk image inode state).offset_in_one_block < 4096) := by
  obtain ⟨le_request, -, -, positive⟩ := index_in_data_bounds state inside
  have progress := positive running.1 running.2
  rw [read_chunk]
  split
  · exact ⟨by simp only; omega, fun _ => (by decide : 0 < 4096)⟩
  · rename_i done
    exact ⟨by simp only; omega, fun more => (done more).elim⟩

theorem read_loop_halts (image : Image) (inode : Nat) (fuel : Nat) {state : ReadState}
    (inside : state.Running → state.offset_in_one_block < 4096)
    (enough : state.num_bytes ≤ fuel) :
    ∃ rounds ≤ fuel, state.Halts image inode (read_loop image inode fuel state) rounds := by
  induction fuel generalizing state with
  | zero =>
      have nothing : ¬state.Running := fun running => by have := running.1; omega
      exact ⟨0, le_rfl, rfl, nofun, nothing⟩
  | succ fuel ih =>
      rw [read_loop]
      split
      · rename_i running
        obtain ⟨fewer, next_inside⟩ := read_chunk_progress image inode running (inside running)
        obtain ⟨rounds, few, halts⟩ := ih next_inside (by omega)
        refine
          ⟨rounds + 1, Nat.succ_le_succ few, halts.reached, fun round round_lt => ?_, halts.ended⟩
        cases round with
        | zero => exact running
        | succ round => exact halts.running round (Nat.lt_of_succ_lt_succ round_lt)
      · rename_i done
        exact ⟨0, Nat.zero_le _, rfl, nofun, done⟩

theorem read_data_halts (image : Image) {inode : Nat} (offset length : Nat)
    (valid : inode ≤ image.num_inodes) :
    ∃ rounds final, (read_start image inode offset length).Halts image inode final rounds ∧
      read_data image inode offset length = (toSigned final.buf.length, final.buf) := by
  have inside : (read_start image inode offset length).offset_in_one_block < 4096 :=
    Nat.mod_lt _ (by decide)
  obtain ⟨rounds, -, halts⟩ :=
    read_loop_halts image inode length (fun _ => inside) (le_refl length)
  refine ⟨rounds, _, halts, ?_⟩
  rw [read_data, if_neg (Nat.not_lt.mpr valid)]

/-! ## Inside the file -/

/-- The inodes fit their block lists, and their blocks are there. -/
structure Image.Readable (image : Image) : Prop where
  /-- The files fit their block lists. -/
  length_le : ∀ inode < image.num_inodes, image.length inode ≤ 1023 * 4096
  /-- Their blocks are there. -/
  block_lt : ∀ inode < image.num_inodes, ∀ index < (image.length inode + 4095) / 4096,
    image.data_block_list inode index < image.num_data_blocks

/-- In range, `read_data` ends and returns the bytes of the file from the offset on, as many as
were asked for and the file still has, each from a data block of the image. -/
theorem read_data_in_range (image : Image) (readable : image.Readable) {inode offset : Nat}
    (valid : inode < image.num_inodes) (inside : offset ≤ image.length inode) (length : Nat) :
    let r := min length (image.length inode - offset)
    (∃ rounds final, (read_start image inode offset length).Halts image inode final rounds ∧
      read_data image inode offset length = (toSigned final.buf.length, final.buf)) ∧
    read_data image inode offset length = ((r : Int), image.slice inode offset r) ∧
    ∀ k < r, image.data_block_list inode ((offset + k) / 4096) < image.num_data_blocks := by
  have fits := readable.length_le inode valid
  have remain : sub32 (image.length inode) offset = image.length inode - offset :=
    sub32_of_le inside (image.word_lt _)
  have result := read_data_result image offset length valid.le
  rw [remain, toSigned_of_lt (by omega)] at result
  have bytes := read_data_bytes image offset length valid.le
  rw [remain] at bytes
  refine ⟨read_data_halts image offset length valid.le, Prod.ext result bytes, fun k k_lt => ?_⟩
  exact readable.block_lt inode valid _ (by omega)

/-- Two bytes of the file of the sample image are left behind its first two. -/
theorem read_data_in_range_sample :
    (∃ rounds final, (read_start Image.sample 0 2 9).Halts Image.sample 0 final rounds ∧
      read_data Image.sample 0 2 9 = (toSigned final.buf.length, final.buf)) ∧
    read_data Image.sample 0 2 9 = (2, Image.sample.slice 0 2 2) ∧
    ∀ k < 2, Image.sample.data_block_list 0 ((2 + k) / 4096) < Image.sample.num_data_blocks :=
  read_data_in_range Image.sample
    ⟨Image.sample_wellFormed.length_le, Image.sample_wellFormed.block_lt⟩ (by decide) (by decide) 9

/-! ## Out of range -/

/-- A read out of range stores nothing: -1 behind the inodes, 0 behind the file. -/
def RejectsRead (image : Image) (inode offset length : Nat) : Prop :=
  (image.num_inodes ≤ inode → read_data image inode offset length = (-1, [])) ∧
  (inode < image.num_inodes → image.length inode ≤ offset →
    read_data image inode offset length = (0, []))

/-- A read that lets the check pass stores nothing exactly when it returns 0. -/
theorem read_data_nothing_iff (image : Image) {inode : Nat} (offset length : Nat)
    (valid : inode ≤ image.num_inodes) :
    read_data image inode offset length = (0, []) ↔
      length = 0 ∨ sub32 (image.length inode) offset = 0 := by
  have bytes := read_data_bytes image offset length valid
  have result := read_data_result image offset length valid
  rw [Prod.ext_iff, result, bytes]
  constructor
  · rintro ⟨-, nothing⟩
    have none_left := congrArg List.length nothing
    rw [Image.slice_length] at none_left
    simp only [List.length_nil] at none_left
    omega
  · intro nothing
    have none_left : min length (sub32 (image.length inode) offset) = 0 := by omega
    rw [none_left]
    exact ⟨rfl, rfl⟩

/-- No read that lets the check pass looks like a rejected one. -/
theorem read_data_ne_rejected (image : Image) {inode : Nat} (offset length : Nat)
    (valid : inode ≤ image.num_inodes) : read_data image inode offset length ≠ (-1, []) := by
  intro rejected
  rw [read_data, if_neg (Nat.not_lt.mpr valid)] at rejected
  obtain ⟨result, bytes⟩ := Prod.mk.inj rejected
  rw [bytes] at result
  exact absurd result (by decide)

theorem sub32_length_eq_zero_iff (image : Image) (inode : Nat) {offset : Nat}
    (word : offset < 2 ^ 32) (behind : image.length inode ≤ offset) :
    sub32 (image.length inode) offset = 0 ↔ offset = image.length inode := by
  rw [sub32]
  omega

/-- A read out of range is rejected unless the inode is the count of the inodes, or the offset lies
strictly behind the file and something is asked for. -/
theorem rejectsRead_iff (image : Image) (inode : Nat) {offset : Nat} (length : Nat)
    (word : offset < 2 ^ 32) :
    RejectsRead image inode offset length ↔
      inode ≠ image.num_inodes ∧
        ¬(inode < image.num_inodes ∧ image.length inode < offset ∧ 0 < length) := by
  rcases Nat.lt_trichotomy inode image.num_inodes with valid | same | invalid
  · have nothing := read_data_nothing_iff image offset length valid.le
    constructor
    · rintro ⟨-, rejected⟩
      refine ⟨valid.ne, fun ⟨_, behind, wanted⟩ => ?_⟩
      have at_end := sub32_length_eq_zero_iff image inode word behind.le
      have := nothing.mp (rejected valid behind.le)
      omega
    · rintro ⟨-, in_file⟩
      refine ⟨fun invalid => absurd valid (Nat.not_lt.mpr invalid), fun _ behind => ?_⟩
      have at_end := sub32_length_eq_zero_iff image inode word behind
      exact nothing.mpr (by omega)
  · have read := read_data_ne_rejected image offset length same.le
    exact ⟨fun rejected => (read (rejected.1 same.ge)).elim, fun ⟨other, _⟩ => (other same).elim⟩
  · refine ⟨fun _ => ⟨invalid.ne', fun ⟨valid, _⟩ => by omega⟩, fun _ => ⟨fun _ => ?_, ?_⟩⟩
    · exact read_data_invalid image offset length invalid
    · exact fun valid => absurd valid (Nat.not_lt.mpr invalid.le)

/-- A failed `file_read` keeps the position. -/
def KeepsPosition (image : Image) (task : Task) (fd : Fin 8) (buf_null : Bool) (nbytes : Int) :
    Prop :=
  (file_read image task fd buf_null nbytes).result = -1 →
    ((file_read image task fd buf_null nbytes).task.fdt fd).position = (task.fdt fd).position

theorem add32_minus_one_ne (position : Nat) : add32 position (toUnsigned (-1)) ≠ position := by
  rw [add32, toUnsigned]
  omega

theorem file_read_asked (image : Image) (task : Task) (fd : Fin 8) {buf_null : Bool} {nbytes : Int}
    (asked : ¬(buf_null ∨ nbytes ≤ 0)) :
    let entry := task.fdt fd
    let result := (read_data image entry.inode entry.position nbytes.toNat).1
    (file_read image task fd buf_null nbytes).result = result ∧
      ((file_read image task fd buf_null nbytes).task.fdt fd).position =
        add32 entry.position (toUnsigned result) := by
  rw [file_read, if_neg asked]
  simp only [Task.setFd, Function.update_self, and_self]

/-- A failed `file_read` keeps the position unless it is the inode that is rejected: then -1 is
added to it. -/
theorem keepsPosition_iff (image : Image) (task : Task) (fd : Fin 8) (buf_null : Bool)
    {nbytes : Int} (word : nbytes < 2 ^ 31) :
    KeepsPosition image task fd buf_null nbytes ↔
      buf_null ∨ nbytes ≤ 0 ∨ (task.fdt fd).inode ≤ image.num_inodes := by
  rw [KeepsPosition, ← or_assoc]
  by_cases refused : buf_null ∨ nbytes ≤ 0
  · rw [file_read, if_pos refused]
    exact ⟨fun _ => Or.inl refused, fun _ _ => rfl⟩
  · obtain ⟨result_eq, position_eq⟩ := file_read_asked image task fd refused
    rw [result_eq, position_eq]
    rcases Nat.lt_or_ge image.num_inodes (task.fdt fd).inode with invalid | valid
    · rw [read_data_invalid image _ _ invalid]
      have moved := add32_minus_one_ne (task.fdt fd).position
      exact ⟨fun kept => (moved (kept rfl)).elim, fun good =>
        absurd invalid (Nat.not_lt.mpr (good.resolve_left refused))⟩
    · refine ⟨fun _ => Or.inr valid, fun _ failed => ?_⟩
      rw [read_data_result image _ _ valid, toSigned_of_lt (by omega)] at failed
      omega

/-- A descriptor table whose descriptors are all open on one inode. -/
def Task.opened (inode : Nat) : Task where
  fdt := fun _ => { file_operation_table_ptr := some .file_func, inode, position := 0, flags := 1 }
  devices := Devices.boot

end ComputerSystem
