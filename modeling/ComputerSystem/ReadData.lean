import ComputerSystem.Image

/-!
# Block-by-block file reading

`read_data` copies a file range chunk by chunk, one data block at a time.  The loop lemma carries
the position of the next byte: while the loop runs, the current block and the offset in it are
those of that position, and the bytes written are the file range before it.
-/

namespace ComputerSystem

open Word

/-- The locals the loop of `read_data` changes.  The bytes written to the caller's buffer are kept
as a list, so `bytes_index` is its length. -/
structure ReadState where
  /-- Bytes still wanted. -/
  num_bytes : Nat
  /-- Bytes left in the file. -/
  length_file_remain : Nat
  /-- Index into the inode's block list. -/
  block_index : Nat
  /-- Data block the next byte comes from. -/
  data_block_index : Nat
  /-- Offset of the next byte in that block. -/
  offset_in_one_block : Nat
  /-- Bytes written so far. -/
  buf : List UInt8

/-- Size of the next chunk: the rest of the request, of the file or of the block. -/
def index_in_data (state : ReadState) : Nat :=
  if state.num_bytes < 4096 - state.offset_in_one_block ∧
      state.num_bytes ≤ state.length_file_remain then
    state.num_bytes
  else if state.num_bytes > state.length_file_remain ∧
      state.length_file_remain < 4096 - state.offset_in_one_block then
    state.length_file_remain
  else
    4096 - state.offset_in_one_block

/-- One round of the loop: copy a chunk and, if more is wanted, move on to the next block. -/
def read_chunk (image : Image) (inode : Nat) (state : ReadState) : ReadState :=
  let count := index_in_data state
  let chunk := (List.range count).map fun k =>
    image.data state.data_block_index (state.offset_in_one_block + k)
  let num_bytes := state.num_bytes - count
  let length_file_remain := state.length_file_remain - count
  if num_bytes > 0 ∧ length_file_remain > 0 then
    { num_bytes
      length_file_remain
      block_index := state.block_index + 1
      data_block_index := image.data_block_list inode (state.block_index + 1)
      offset_in_one_block := 0
      buf := state.buf ++ chunk }
  else
    { state with
      num_bytes
      length_file_remain
      offset_in_one_block := state.offset_in_one_block + count
      buf := state.buf ++ chunk }

/-- The loop of `read_data`.  Every round copies at least one byte, so as many rounds as there are
bytes wanted are enough. -/
def read_loop (image : Image) (inode : Nat) : Nat → ReadState → ReadState
  | 0, state => state
  | fuel + 1, state =>
      if state.num_bytes > 0 ∧ state.length_file_remain > 0 then
        read_loop image inode fuel (read_chunk image inode state)
      else
        state

/-- The locals of `read_data` before its loop. -/
def read_start (image : Image) (inode offset length : Nat) : ReadState where
  num_bytes := length
  length_file_remain := sub32 (image.length inode) offset
  block_index := offset / 4096
  data_block_index := image.data_block_list inode (offset / 4096)
  offset_in_one_block := offset % 4096
  buf := []

/-- `read_data`: the result and the bytes written from `buf[0]` on. -/
def read_data (image : Image) (inode offset length : Nat) : Int × List UInt8 :=
  if inode > image.num_inodes then (-1, [])
  else
    let final := read_loop image inode length (read_start image inode offset length)
    (toSigned final.buf.length, final.buf)

namespace Image

/-- Byte of a file: its block comes from the inode's block list. -/
def fileByte (image : Image) (inode position : Nat) : UInt8 :=
  image.data (image.data_block_list inode (position / 4096)) (position % 4096)

/-- A range of a file. -/
def slice (image : Image) (inode position count : Nat) : List UInt8 :=
  (List.range count).map fun k => image.fileByte inode (position + k)

/-- A whole file. -/
def file (image : Image) (inode : Nat) : List UInt8 := image.slice inode 0 (image.length inode)

@[simp]
theorem slice_length (image : Image) (inode position count : Nat) :
    (image.slice inode position count).length = count := by
  simp [slice]

@[simp]
theorem file_length (image : Image) (inode : Nat) :
    (image.file inode).length = image.length inode := by
  simp [file]

theorem slice_add (image : Image) (inode position m n : Nat) :
    image.slice inode position (m + n) =
      image.slice inode position m ++ image.slice inode (position + m) n := by
  simp only [slice, List.range_add, List.map_append, List.map_map, List.append_cancel_left_eq]
  apply List.map_congr_left
  intro k _
  simp [Nat.add_assoc]

theorem slice_eq_take_drop (image : Image) (inode position count : Nat)
    (fits : position + count ≤ image.length inode) :
    image.slice inode position count = ((image.file inode).drop position).take count := by
  obtain ⟨rest, length_eq⟩ := Nat.exists_eq_add_of_le fits
  rw [file, length_eq, slice_add, slice_add, List.append_assoc, Nat.zero_add]
  rw [List.drop_left' (slice_length image inode 0 position)]
  rw [List.take_left' (slice_length image inode position count)]

theorem slice_in_block (image : Image) (inode position count : Nat)
    (fits : position % 4096 + count ≤ 4096) :
    image.slice inode position count =
      (List.range count).map fun k =>
        image.data (image.data_block_list inode (position / 4096)) (position % 4096 + k) := by
  apply List.map_congr_left
  intro k member
  have k_lt := List.mem_range.mp member
  rw [fileByte, show (position + k) / 4096 = position / 4096 by omega,
    show (position + k) % 4096 = position % 4096 + k by omega]

end Image

/-! ## The copy loop -/

/-- The chunk never passes the request, the file or the block, and is empty only at the end. -/
theorem index_in_data_bounds (state : ReadState) (inside : state.offset_in_one_block < 4096) :
    index_in_data state ≤ state.num_bytes ∧
      index_in_data state ≤ state.length_file_remain ∧
      state.offset_in_one_block + index_in_data state ≤ 4096 ∧
      (0 < state.num_bytes → 0 < state.length_file_remain → 0 < index_in_data state) := by
  unfold index_in_data
  split
  · omega
  · split <;> omega

/-- A chunk that leaves something to do reaches the end of its block. -/
theorem index_in_data_full (state : ReadState)
    (wanted : index_in_data state < state.num_bytes)
    (left : index_in_data state < state.length_file_remain) :
    index_in_data state = 4096 - state.offset_in_one_block := by
  unfold index_in_data at wanted left ⊢
  split at wanted
  · omega
  · rename_i not_request
    rw [if_neg not_request] at left ⊢
    split at wanted
    · rename_i rest
      rw [if_pos rest] at left
      omega
    · rename_i not_rest
      rw [if_neg not_rest]

/-- The loop state reads at a file position. -/
def ReadState.At (image : Image) (inode : Nat) (state : ReadState) (position : Nat) : Prop :=
  state.block_index = position / 4096 ∧
    state.data_block_index = image.data_block_list inode (position / 4096) ∧
    state.offset_in_one_block = position % 4096

theorem read_start_at (image : Image) (inode offset length : Nat) :
    (read_start image inode offset length).At image inode offset := ⟨rfl, rfl, rfl⟩

theorem read_chunk_spec {image : Image} {inode position : Nat} {state : ReadState}
    (here : state.At image inode position) :
    let next := read_chunk image inode state
    let count := index_in_data state
    next.buf = state.buf ++ image.slice inode position count ∧
      next.num_bytes = state.num_bytes - count ∧
      next.length_file_remain = state.length_file_remain - count ∧
      (0 < next.num_bytes → 0 < next.length_file_remain →
        next.At image inode (position + count)) := by
  obtain ⟨block, data_block, offset⟩ := here
  have inside : state.offset_in_one_block < 4096 := by omega
  obtain ⟨le_request, le_file, le_block, _⟩ := index_in_data_bounds state inside
  have chunk : (List.range (index_in_data state)).map (fun k =>
      image.data state.data_block_index (state.offset_in_one_block + k)) =
        image.slice inode position (index_in_data state) := by
    rw [image.slice_in_block inode position _ (by omega), data_block, offset]
  dsimp only
  rw [read_chunk]
  simp only [chunk]
  split
  · rename_i more
    refine ⟨rfl, rfl, rfl, fun _ _ => ?_⟩
    have full := index_in_data_full state (by omega) (by omega)
    have next_block : (position + index_in_data state) / 4096 = position / 4096 + 1 := by omega
    have next_offset : (position + index_in_data state) % 4096 = 0 := by omega
    refine ⟨?_, ?_, ?_⟩
    · simp only [next_block, block]
    · simp only [next_block, block]
    · simp only [next_offset]
  · rename_i done
    exact ⟨rfl, rfl, rfl, fun wanted left => (done ⟨wanted, left⟩).elim⟩

theorem read_loop_buf {image : Image} {inode : Nat} (fuel : Nat) {position : Nat}
    {state : ReadState} (here : state.At image inode position)
    (enough : state.num_bytes ≤ fuel) :
    (read_loop image inode fuel state).buf =
      state.buf ++ image.slice inode position (min state.num_bytes state.length_file_remain) := by
  induction fuel generalizing state position with
  | zero =>
      have nothing : state.num_bytes = 0 := by omega
      simp [read_loop, nothing, Image.slice]
  | succ fuel ih =>
      rw [read_loop]
      split
      · rename_i running
        obtain ⟨buf_eq, num_eq, remain_eq, next_at⟩ := read_chunk_spec here
        have inside : state.offset_in_one_block < 4096 := by
          have := here.2.2
          omega
        obtain ⟨le_request, le_file, _, positive⟩ := index_in_data_bounds state inside
        have progress := positive running.1 running.2
        have split_min : min state.num_bytes state.length_file_remain =
            index_in_data state +
              min (state.num_bytes - index_in_data state)
                (state.length_file_remain - index_in_data state) := by omega
        by_cases more : 0 < (read_chunk image inode state).num_bytes ∧
            0 < (read_chunk image inode state).length_file_remain
        · rw [ih (next_at more.1 more.2) (by omega), buf_eq, num_eq, remain_eq, split_min,
            Image.slice_add, List.append_assoc]
        · have stops : read_loop image inode fuel (read_chunk image inode state) =
              read_chunk image inode state := by
            cases fuel with
            | zero => rfl
            | succ fuel => rw [read_loop, if_neg more]
          have exhausted : min (state.num_bytes - index_in_data state)
              (state.length_file_remain - index_in_data state) = 0 := by omega
          rw [stops, buf_eq, split_min, exhausted, Nat.add_zero]
      · rename_i done
        have nothing : min state.num_bytes state.length_file_remain = 0 := by omega
        simp [nothing, Image.slice]

/-- `read_data` writes the file range from `offset` on, as far as the remaining length reaches. -/
theorem read_data_bytes (image : Image) {inode : Nat} (offset length : Nat)
    (valid : inode ≤ image.num_inodes) :
    (read_data image inode offset length).2 =
      image.slice inode offset (min length (sub32 (image.length inode) offset)) := by
  rw [read_data, if_neg (Nat.not_lt.mpr valid)]
  exact read_loop_buf length (read_start_at image inode offset length) le_rfl

theorem read_data_result (image : Image) {inode : Nat} (offset length : Nat)
    (valid : inode ≤ image.num_inodes) :
    (read_data image inode offset length).1 =
      toSigned (min length (sub32 (image.length inode) offset)) := by
  have bytes := congrArg List.length (read_data_bytes image offset length valid)
  rw [Image.slice_length] at bytes
  rw [← bytes, read_data, if_neg (Nat.not_lt.mpr valid)]

theorem read_data_invalid (image : Image) {inode : Nat} (offset length : Nat)
    (invalid : image.num_inodes < inode) : read_data image inode offset length = (-1, []) := by
  rw [read_data, if_pos invalid]

/-- Inside a file `read_data` returns the requested range, cut at the end of the file. -/
theorem read_data_in_file (image : Image) {inode offset length : Nat}
    (valid : inode ≤ image.num_inodes) (inside : offset ≤ image.length inode)
    (small : length < 2 ^ 31) :
    read_data image inode offset length =
      (((min length (image.length inode - offset) : Nat) : Int),
        ((image.file inode).drop offset).take length) := by
  have remain : sub32 (image.length inode) offset = image.length inode - offset :=
    sub32_of_le inside (image.word_lt _)
  have bytes := read_data_bytes image offset length valid
  have result := read_data_result image offset length valid
  rw [remain] at bytes result
  rw [toSigned_of_lt (by omega)] at result
  rw [image.slice_eq_take_drop inode offset _ (by omega)] at bytes
  have cut : ((image.file inode).drop offset).take (min length (image.length inode - offset)) =
      ((image.file inode).drop offset).take length := by
    apply List.take_eq_take_iff.mpr
    simp only [List.length_drop, Image.file_length]
    omega
  rw [← Prod.mk.eta (p := read_data image inode offset length), bytes, result, cut]

/-- `read_data` never writes more bytes than it was asked for, whatever the image. -/
theorem read_data_length_le (image : Image) (inode offset length : Nat) :
    (read_data image inode offset length).2.length ≤ length := by
  by_cases invalid : image.num_inodes < inode
  · rw [read_data_invalid image offset length invalid]
    exact Nat.zero_le _
  · rw [read_data_bytes image offset length (Nat.not_lt.mp invalid), Image.slice_length]
    exact Nat.min_le_left _ _

theorem read_data_result_le (image : Image) (inode offset length : Nat) :
    (read_data image inode offset length).1 ≤ length := by
  by_cases invalid : image.num_inodes < inode
  · rw [read_data_invalid image offset length invalid]
    omega
  · rw [read_data_result image offset length (Nat.not_lt.mp invalid)]
    have := toSigned_le (min length (sub32 (image.length inode) offset))
    omega

end ComputerSystem
