import ComputerSystem.ReadRange

/-!
# What a read looks at

The accesses of `read_data`, in their order: indices into the block list of the inode, and bytes of
data blocks.  The first index is looked up before the loop asks whether there is anything to read.
-/

namespace ComputerSystem

/-- An access of `read_data` to the image. -/
inductive Access
  /-- `cur_inode->data_block_list[block_index]`. -/
  | list (block_index : Nat)
  /-- `data_block_ptr->data_block_starting_addr[offset_in_one_block]`. -/
  | byte (data_block_index offset_in_one_block : Nat)
  deriving DecidableEq

namespace Access

/-- The access stays in the block list, or in a block of the image. -/
def InBounds (image : Image) : Access → Prop
  | .list block_index => block_index < 1023
  | .byte data_block_index offset_in_one_block =>
      data_block_index < image.num_data_blocks ∧ offset_in_one_block < 4096

/-- The byte that an access gives, if it gives one. -/
def value (image : Image) : Access → Option UInt8
  | .list _ => none
  | .byte data_block_index offset_in_one_block =>
      some (image.data data_block_index offset_in_one_block)

end Access

/-- The accesses of one round: the bytes of its chunk, and the next block when more is wanted. -/
def chunk_accesses (state : ReadState) : List Access :=
  let count := index_in_data state
  let chunk := (List.range count).map fun k =>
    Access.byte state.data_block_index (state.offset_in_one_block + k)
  if state.num_bytes - count > 0 ∧ state.length_file_remain - count > 0 then
    chunk ++ [.list (state.block_index + 1)]
  else chunk

/-- The accesses of the loop. -/
def loop_accesses (image : Image) (inode : Nat) : Nat → ReadState → List Access
  | 0, _ => []
  | fuel + 1, state =>
      if state.num_bytes > 0 ∧ state.length_file_remain > 0 then
        chunk_accesses state ++ loop_accesses image inode fuel (read_chunk image inode state)
      else []

/-- The accesses of `read_data`. -/
def read_accesses (image : Image) (inode offset length : Nat) : List Access :=
  if inode > image.num_inodes then []
  else
    .list (offset / 4096) :: loop_accesses image inode length (read_start image inode offset length)

/-! ## The bytes read are those of the accesses -/

theorem chunk_accesses_value (image : Image) (inode : Nat) (state : ReadState) :
    (read_chunk image inode state).buf =
      state.buf ++ (chunk_accesses state).filterMap (Access.value image) := by
  have chunk : ((List.range (index_in_data state)).map fun k =>
      Access.byte state.data_block_index (state.offset_in_one_block + k)).filterMap
        (Access.value image) =
      (List.range (index_in_data state)).map fun k =>
        image.data state.data_block_index (state.offset_in_one_block + k) := by
    rw [List.filterMap_map]
    exact congrFun List.filterMap_eq_map' _
  simp only [read_chunk, chunk_accesses]
  split_ifs
  · rw [List.filterMap_append, chunk]
    simp [Access.value]
  · rw [chunk]

theorem loop_accesses_value (image : Image) (inode fuel : Nat) (state : ReadState) :
    (read_loop image inode fuel state).buf =
      state.buf ++ (loop_accesses image inode fuel state).filterMap (Access.value image) := by
  induction fuel generalizing state with
  | zero => simp [read_loop, loop_accesses]
  | succ fuel ih =>
      rw [read_loop, loop_accesses]
      split_ifs
      · rw [ih, chunk_accesses_value, List.filterMap_append, List.append_assoc]
      · simp

/-- What `read_data` writes to its buffer is what it reads from the image. -/
theorem read_accesses_value (image : Image) (inode offset length : Nat) :
    (read_data image inode offset length).2 =
      (read_accesses image inode offset length).filterMap (Access.value image) := by
  rw [read_data, read_accesses]
  split_ifs
  · rfl
  · exact loop_accesses_value image inode length _

/-! ## Bounds -/

/-- A round that starts inside the file reads a block of the image, and looks up a further one only
when the file reaches into it. -/
theorem chunk_accesses_inBounds {image : Image} (readable : image.Readable) {inode : Nat}
    (valid : inode < image.num_inodes) {state : ReadState} {position : Nat}
    (here : state.At image inode position)
    (remain : position + state.length_file_remain = image.length inode) (running : state.Running) :
    ∀ access ∈ chunk_accesses state, access.InBounds image := by
  obtain ⟨block, data_block, offset⟩ := here
  have fits := readable.length_le inode valid
  have inside : state.offset_in_one_block < 4096 := by omega
  have left := running.2
  obtain ⟨-, -, le_block, -⟩ := index_in_data_bounds state inside
  have chunk : ∀ access ∈ (List.range (index_in_data state)).map fun k =>
      Access.byte state.data_block_index (state.offset_in_one_block + k),
      access.InBounds image := by
    intro access mem
    obtain ⟨k, k_mem, rfl⟩ := List.mem_map.mp mem
    have k_lt := List.mem_range.mp k_mem
    refine ⟨?_, by omega⟩
    rw [data_block]
    exact readable.block_lt inode valid _ (by omega)
  simp only [chunk_accesses]
  split_ifs with more
  · have full := index_in_data_full state (by omega) (by omega)
    rw [List.forall_mem_append]
    refine ⟨chunk, fun access mem => ?_⟩
    rw [List.mem_singleton] at mem
    subst mem
    simp only [Access.InBounds]
    omega
  · exact chunk

theorem loop_accesses_inBounds {image : Image} (readable : image.Readable) {inode : Nat}
    (valid : inode < image.num_inodes) (fuel : Nat) {state : ReadState} {position : Nat}
    (here : state.Running → state.At image inode position)
    (remain : state.Running → position + state.length_file_remain = image.length inode) :
    ∀ access ∈ loop_accesses image inode fuel state, access.InBounds image := by
  induction fuel generalizing state position with
  | zero => exact fun access mem => absurd mem List.not_mem_nil
  | succ fuel ih =>
      rw [loop_accesses]
      split_ifs with running
      · have at_position := here running
        obtain ⟨-, num_eq, remain_eq, next_at⟩ := read_chunk_spec at_position
        have inside : state.offset_in_one_block < 4096 := by
          have := at_position.2.2
          omega
        obtain ⟨-, le_file, -, -⟩ := index_in_data_bounds state inside
        rw [List.forall_mem_append]
        refine ⟨chunk_accesses_inBounds readable valid at_position (remain running) running, ?_⟩
        apply ih
        · exact fun more => next_at more.1 more.2
        · intro more
          have := remain running
          omega
      · exact fun access mem => absurd mem List.not_mem_nil

/-- In a file of a readable image, from an offset up to its end, every access of `read_data` stays
in the block list, in the data blocks and in its block exactly when the offset is not the end of a
file of the greatest size. -/
theorem read_accesses_iff (image : Image) (readable : image.Readable) {inode offset : Nat}
    (valid : inode < image.num_inodes) (inside : offset ≤ image.length inode) (length : Nat) :
    (∀ access ∈ read_accesses image inode offset length, access.InBounds image) ↔
      offset ≠ 1023 * 4096 := by
  have fits := readable.length_le inode valid
  rw [read_accesses, if_neg (Nat.not_lt.mpr valid.le), List.forall_mem_cons]
  constructor
  · rintro ⟨first, -⟩ rfl
    have below : 1023 * 4096 / 4096 < 1023 := first
    omega
  · intro not_end
    have first : (Access.list (offset / 4096)).InBounds image := by
      simp only [Access.InBounds]
      omega
    have remain : offset + (read_start image inode offset length).length_file_remain =
        image.length inode := by
      rw [read_start, Word.sub32_of_le inside (image.word_lt _)]
      exact Nat.add_sub_cancel' inside
    exact ⟨first, loop_accesses_inBounds readable valid length
      (fun _ => read_start_at image inode offset length) fun _ => remain⟩

/-- The end of the file of the sample image. -/
theorem read_accesses_iff_sample :
    read_accesses Image.sample 0 4 9 ≠ [] ∧
      ∀ access ∈ read_accesses Image.sample 0 4 9, access.InBounds Image.sample := by
  have readable : Image.sample.Readable :=
    ⟨Image.sample_wellFormed.length_le, Image.sample_wellFormed.block_lt⟩
  exact ⟨by decide,
    (read_accesses_iff Image.sample readable (by decide) (by decide) 9).mpr (by decide)⟩

/-- An image with one file, of the greatest size, all of whose blocks are the same. -/
def Image.greatest : Image where
  byte offset :=
    if offset = 4 then 1                                        -- num_inodes
    else if offset = 8 then 1                                   -- num_data_blocks
    else if offset = 4097 then 0xF0                             -- length of inode 0
    else if offset = 4098 then 0x3F
    else 0

theorem Image.greatest_wellFormed : Image.greatest.WellFormed where
  entries_le := by decide
  file_type_le := by decide
  inode_lt := by decide
  length_le := by decide
  block_lt inode inode_lt index _ := by
    have one : Image.greatest.num_inodes = 1 := by decide
    have zero (offset : Nat) (behind : 4099 ≤ offset) : Image.greatest.byte offset = 0 := by
      simp only [greatest]
      split_ifs <;> first | omega | rfl
    have block : Image.greatest.data_block_list inode index = 0 := by
      rw [data_block_list, word, zero _ (by omega), zero _ (by omega), zero _ (by omega),
        zero _ (by omega)]
      rfl
    rw [block]
    decide

/-- At the end of that file the lookup before the loop is one index past the block list. -/
theorem read_accesses_past_list :
    ¬∀ (image : Image) (inode offset length : Nat), image.WellFormed → inode < image.num_inodes →
      offset ≤ image.length inode →
      ∀ access ∈ read_accesses image inode offset length, access.InBounds image := by
  intro all
  have first := all Image.greatest 0 (1023 * 4096) 1 Image.greatest_wellFormed (by decide)
    (by decide) (.list 1023) List.mem_cons_self
  exact absurd first (lt_irrefl 1023)

end ComputerSystem
