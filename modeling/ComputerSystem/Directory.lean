import ComputerSystem.DescriptorTable

/-!
# Listing a directory

Every read on a directory descriptor gives the name field of the next entry.  The position is that
of the descriptor, while the entry passes through a global that other reads use too.
-/

namespace ComputerSystem

open CString Word

/-- A directory of at most 63 entries with names that are not empty and end in NULs only. -/
structure Image.Named (image : Image) : Prop where
  /-- They fit the first block. -/
  entries_le : image.num_dir_entry ≤ 63
  /-- They have names. -/
  name_ne : ∀ entry ∈ image.entries, entry.name ≠ []
  /-- NULs fill the name fields. -/
  padded : ∀ entry ∈ image.entries,
    entry.fnameBytes = entry.name ++ List.replicate (32 - entry.name.length) 0

theorem Image.dir_entries_mem (image : Image) {index : Nat} (inside : index < image.num_dir_entry) :
    image.dir_entries index ∈ image.entries := by
  rw [entries, List.mem_map]
  exact ⟨index, List.mem_range.mpr inside, rfl⟩

theorem countP_name {entry : Dentry} {count : Nat}
    (padded : entry.fnameBytes = entry.name ++ List.replicate count 0) :
    entry.fnameBytes.countP (· ≠ 0) = entry.name.length := by
  have solid : entry.name.countP (· ≠ 0) = entry.name.length := by
    rw [List.countP_eq_length]
    intro c mem
    simpa using ne_zero_of_mem_text mem
  rw [padded, List.countP_append, solid, List.countP_replicate]
  rfl

/-- A name with a NUL behind it is found again, at the first entry that has it. -/
theorem read_dentry_by_name_again (image : Image) {index : Nat}
    (inside : index < image.num_dir_entry) (behind : List UInt8) (dentry : Dentry) :
    ∃ first ≤ index,
      read_dentry_by_name image ((image.dir_entries index).name ++ 0 :: behind) dentry =
        (0, image.dir_entries first) ∧
      (image.dir_entries first).name = (image.dir_entries index).name ∧
      ∀ earlier < first, (image.dir_entries earlier).name ≠ (image.dir_entries index).name := by
  have text_eq : text ((image.dir_entries index).name ++ 0 :: behind) =
      (image.dir_entries index).name :=
    text_append_nul (fun _ mem => ne_zero_of_mem_text mem) behind
  cases found : image.lookup (image.dir_entries index).name with
  | none =>
      have absent := Image.lookup_eq_none_iff.mp found
      exact absurd rfl (absent _ (image.dir_entries_mem inside))
  | some entry =>
      obtain ⟨first, -, rfl, same, earlier⟩ := Image.lookup_eq_some_iff.mp found
      refine ⟨first, ?_, ?_, same, earlier⟩
      · by_contra late
        exact earlier index (not_le.mp late) rfl
      · rw [read_dentry_by_name_eq, text_eq, found]

/-! ## Calls on other descriptors -/

/-- A call reads with a buffer, and does not close the descriptor. -/
def Enumerates (fd : Fin 8) : TaskEvent → Prop
  | .call (.read k buf_null _) => k = fd → buf_null = false
  | .call (.close k) => k ≠ fd
  | _ => True

/-- A read on the descriptor. -/
def reads_on (fd : Fin 8) : TaskEvent → Bool
  | .call (.read k _ _) => k = fd
  | _ => false

/-- An `open` that returns either fails or hands out the lowest free descriptor. -/
theorem open_file_answer {image : Image} {task : Task} {filename : List UInt8} {answer : Answer}
    (returned : open_file image task filename = some answer) :
    answer = ⟨-1, [], task⟩ ∨
      ∃ dentry fd devices, image.lookup (text filename) = some dentry ∧ task.lowest = some fd ∧
        answer = ⟨fd, [], (task.setDevices devices).setFd fd (Fd.ofDentry dentry)⟩ := by
  obtain ⟨-, failed⟩ | ⟨dentry, fd, found, lowest, opened⟩ := open_file_lookup image task filename
  · exact Or.inl (Option.some.inj (returned.symm.trans failed))
  · rw [opened] at returned
    obtain ⟨table, -, rfl⟩ := Option.map_eq_some_iff.mp returned
    exact Or.inr ⟨dentry, fd, _, found, lowest, rfl⟩

theorem lowest_free {task : Task} {fd : Fin 8} (lowest : task.lowest = some fd) :
    ¬task.Open fd := by
  have free := List.find?_some lowest
  rw [Task.Open, not_not]
  simpa using free

theorem open_directory {image : Image} {task : Task} {filename : List UInt8} {answer : Answer}
    {dentry : Dentry} (found : image.lookup (text filename) = some dentry)
    (returned : open_file image task filename = some answer) {fd : Fin 8}
    (result : answer.result = fd) : 2 ≤ fd ∧ answer.task.fdt fd = Fd.ofDentry dentry := by
  obtain rfl | ⟨other, chosen, devices, other_found, lowest, rfl⟩ := open_file_answer returned
  · simp only at result
    omega
  · obtain rfl := Option.some.inj (found.symm.trans other_found)
    obtain rfl : chosen = fd := Fin.ext (by simpa using result)
    exact ⟨Task.two_le_of_lowest lowest, by rw [Task.setFd_fdt, if_pos rfl]⟩

theorem close_other (task : Task) {k : Int} {fd : Fin 8} (other : k ≠ fd) :
    (close task k).task.fdt fd = task.fdt fd := by
  simp only [close]
  split
  · rename_i inside
    have apart : fd ≠ ⟨k.toNat, by omega⟩ := by
      rintro rfl
      exact other (Int.toNat_of_nonneg (by omega)).symm
    split
    · rfl
    · split
      · rfl
      · rw [Task.setFd_fdt, if_neg apart]
  · rfl

/-- A call on another descriptor leaves this one as it is. -/
theorem call_other {image : Image} {task : Task} {syscall : Syscall} {answer : Answer}
    (returned : task.call image syscall = some answer) {fd : Fin 8} (in_use : task.Open fd)
    (enumerates : Enumerates fd (.call syscall)) (other : reads_on fd (.call syscall) = false) :
    answer.task.fdt fd = task.fdt fd := by
  cases syscall with
  | open_file filename =>
      obtain rfl | ⟨dentry, chosen, devices, -, lowest, rfl⟩ := open_file_answer returned
      · rfl
      · have apart : fd ≠ chosen := by
          rintro rfl
          exact lowest_free lowest in_use
        rw [Task.setFd_fdt, if_neg apart, Task.setDevices_fdt]
  | read k buf_null nbytes =>
      have not_same : k ≠ fd := by simpa [reads_on] using other
      by_cases used : ∃ c : Fin 8, (c : Int) = k ∧ task.Open c
      · obtain ⟨c, rfl, used⟩ := used
        have apart : fd ≠ c := fun same =>
          not_same (congrArg (fun k : Fin 8 => (k : Int)) same.symm)
        cases table_eq : (task.fdt c).file_operation_table_ptr with
        | none =>
            cases (read_no_table image buf_null nbytes table_eq).symm.trans returned
            rfl
        | some table =>
            rw [Task.call, read_open image buf_null nbytes used table_eq] at returned
            obtain ⟨position, fdt_eq, -⟩ := FuncTable.read_fdt returned
            rw [fdt_eq, Function.update_of_ne apart]
      · have closed : ∀ c : Fin 8, (c : Int) = k → ¬task.Open c :=
          fun c same used' => used ⟨c, same, used'⟩
        cases (read_closed image buf_null nbytes closed).symm.trans returned
        rfl
  | write k buf nbytes =>
      cases returned
      rw [write_fdt]
  | close k =>
      cases returned
      exact close_other task enumerates

/-! ## Reads -/

/-- The descriptor is open on a directory of which `count` entries were asked for. -/
structure Enumerating (image : Image) (task : Task) (fd : Fin 8) (count : Nat) : Prop where
  /-- It is not one of the terminal. -/
  from_two : 2 ≤ fd
  /-- It is open. -/
  in_use : task.Open fd
  /-- It is that of a directory. -/
  table : (task.fdt fd).file_operation_table_ptr = some .dir_func
  /-- The entries that were read. -/
  position : (task.fdt fd).position = min count image.num_dir_entry

namespace Enumerating

variable {image : Image} {task : Task} {fd : Fin 8} {count : Nat}

theorem of_same (enumerating : Enumerating image task fd count) {next : Task}
    (same : next.fdt fd = task.fdt fd) : Enumerating image next fd count where
  from_two := enumerating.from_two
  in_use := by
    rw [Task.Open, same]
    exact enumerating.in_use
  table := by
    rw [same]
    exact enumerating.table
  position := by
    rw [same]
    exact enumerating.position

theorem read (enumerating : Enumerating image task fd count) (named : image.Named) (nbytes : Int) :
    ∃ answer, ComputerSystem.read image task fd false nbytes = some answer ∧
      Enumerating image answer.task fd (count + 1) ∧
      if count < image.num_dir_entry then
        answer.result = (image.dir_entries count).name.length ∧
          answer.bytes = (image.dir_entries count).fnameBytes
      else answer.result = 0 := by
  have from_two := enumerating.from_two
  have entries_le := named.entries_le
  have position := enumerating.position
  have within : ¬(fd.val < 2 ∨ fd.val > 7) := by omega
  refine ⟨_, read_open image false nbytes enumerating.in_use enumerating.table, ?_⟩
  rw [dir_read, if_neg Bool.false_ne_true, if_neg within]
  by_cases more : count < image.num_dir_entry
  · rw [Nat.min_eq_left more.le] at position
    have here := image.dir_entries_mem more
    have found : ¬image.num_dir_entry < count := by omega
    simp only [position, ge_iff_le, not_le.mpr more, if_false, read_dentry_by_index, if_neg found,
      countP_name (named.padded _ here), if_pos more, and_self, and_true]
    refine ⟨enumerating.from_two, ?_, ?_, ?_⟩
    · rw [Task.Open, Task.setFd_fdt, if_pos rfl]
      exact enumerating.in_use
    · rw [Task.setFd_fdt, if_pos rfl]
      exact enumerating.table
    · rw [Task.setFd_fdt, if_pos rfl]
      dsimp only
      rw [add32_of_lt (by omega)]
      omega
  · rw [Nat.min_eq_right (not_lt.mp more)] at position
    simp only [position, ge_iff_le, le_refl, if_true, if_neg more, and_true]
    refine ⟨enumerating.from_two, enumerating.in_use, enumerating.table, ?_⟩
    rw [position]
    omega

theorem step (enumerating : Enumerating image task fd count) (named : image.Named)
    {event : TaskEvent} (enumerates : Enumerates fd event) {next : Task}
    (taken : task.step image event = some next) :
    Enumerating image next fd (if reads_on fd event then count + 1 else count) := by
  cases event with
  | interrupt devices =>
      cases taken
      exact enumerating.of_same rfl
  | call syscall =>
      obtain ⟨answer, returned, rfl⟩ := Option.map_eq_some_iff.mp taken
      by_cases own : reads_on fd (.call syscall) = true
      · cases syscall with
        | read k buf_null nbytes =>
            obtain rfl : k = fd := by simpa [reads_on] using own
            obtain rfl := enumerates rfl
            obtain ⟨last, last_returned, after, -⟩ := enumerating.read named nbytes
            obtain rfl := Option.some.inj (last_returned.symm.trans returned)
            rw [if_pos own]
            exact after
        | _ => cases own
      · have other := Bool.eq_false_iff.mpr own
        rw [if_neg own]
        exact enumerating.of_same (call_other returned enumerating.in_use enumerates other)

theorem run (enumerating : Enumerating image task fd count) (named : image.Named)
    {events : List TaskEvent} (enumerates : ∀ event ∈ events, Enumerates fd event) {last : Task}
    (reached : Run.run (Task.step image) task events = some last) :
    Enumerating image last fd (count + events.countP (reads_on fd)) := by
  induction events generalizing task count with
  | nil =>
      cases reached
      exact enumerating
  | cons event events ih =>
      obtain ⟨next, enabled, rest⟩ := Option.bind_eq_some_iff.mp reached
      rw [List.forall_mem_cons] at enumerates
      have after := ih (enumerating.step named enumerates.1 enabled) enumerates.2 rest
      rw [List.countP_cons]
      split_ifs at after ⊢
      · rw [Nat.add_assoc, Nat.add_comm 1] at after
        exact after
      · exact after

end Enumerating

/-- Whatever happens to the other descriptors and the devices after a directory was opened: the read
number `k` gives entry `k`, whose name leads back to the first entry that has it; behind the last
entry reads return 0. -/
theorem directory_enumerated (image : Image) (named : image.Named) (before : Task)
    (filename : List UInt8) (dentry : Dentry)
    (found : image.lookup (text filename) = some dentry) (directory : dentry.file_type = 1)
    (opened : Answer) (returned : open_file image before filename = some opened) (fd : Fin 8)
    (result : opened.result = fd) (events : List TaskEvent)
    (enumerates : ∀ event ∈ events, Enumerates fd event) (task : Task)
    (reached : Run.run (Task.step image) opened.task events = some task) (nbytes : Int) :
    let k := events.countP (reads_on fd)
    ∃ answer, read image task fd false nbytes = some answer ∧
      (image.num_dir_entry ≤ k → answer.result = 0) ∧
      (k < image.num_dir_entry →
        answer.result = (image.dir_entries k).name.length ∧ 0 < answer.result ∧
        answer.bytes = (image.dir_entries k).fnameBytes ∧
        answer.bytes.take answer.result.toNat = (image.dir_entries k).name ∧
        ∀ behind dentry, ∃ first ≤ k,
          read_dentry_by_name image (answer.bytes.take answer.result.toNat ++ 0 :: behind) dentry =
            (0, image.dir_entries first) ∧
          (image.dir_entries first).name = (image.dir_entries k).name ∧
          ∀ earlier < first,
            (image.dir_entries earlier).name ≠ (image.dir_entries k).name) := by
  intro k
  obtain ⟨from_two, entry_eq⟩ := open_directory found returned result
  have initial : Enumerating image opened.task fd 0 := by
    refine ⟨from_two, ?_, ?_, ?_⟩
    · rw [Task.Open, entry_eq]
      exact one_ne_zero
    · rw [entry_eq, Fd.ofDentry, directory]
      rfl
    · rw [entry_eq, Nat.zero_min]
      rfl
  have enumerating := initial.run named enumerates reached
  rw [Nat.zero_add] at enumerating
  obtain ⟨answer, answered, -, contents⟩ := enumerating.read named nbytes
  refine ⟨answer, answered, fun past => ?_, fun inside => ?_⟩
  · rw [if_neg (not_lt.mpr past)] at contents
    exact contents
  · rw [if_pos inside] at contents
    obtain ⟨result_eq, bytes_eq⟩ := contents
    have here := image.dir_entries_mem inside
    have not_empty := List.length_pos_iff.mpr (named.name_ne _ here)
    have name_eq : answer.bytes.take answer.result.toNat = (image.dir_entries k).name := by
      rw [bytes_eq, named.padded _ here, result_eq, Int.toNat_natCast]
      exact List.take_left
    refine ⟨result_eq, ?_, bytes_eq, name_eq, ?_⟩
    · rw [result_eq]
      exact_mod_cast not_empty
    · intro behind dentry
      rw [name_eq]
      exact read_dentry_by_name_again image inside behind dentry

/-- After one read and an `open` of `ls`, the second entry of the sample image is `shell`. -/
theorem directory_enumerated_shell :
    ∃ opened task answer,
      open_file Image.sample ⟨set_up_io_file fun _ => Fd.free, Devices.boot⟩ [46] = some opened ∧
      Run.run (Task.step Image.sample) opened.task
        [.call (.read 2 false 32), .call (.open_file [108, 115])] = some task ∧
      read Image.sample task 2 false 32 = some answer ∧ answer.result = 5 := by
  have named : Image.sample.Named := ⟨by decide, by decide, by decide⟩
  have facts : (Image.sample.lookup (text [46])).map Dentry.file_type = some 1 := by decide
  obtain ⟨dentry, found, directory⟩ := Option.map_eq_some_iff.mp facts
  have enumerates : ∀ event ∈ [TaskEvent.call (.read 2 false 32), .call (.open_file [108, 115])],
      Enumerates 2 event := by simp [Enumerates]
  have returned : open_file Image.sample ⟨set_up_io_file fun _ => Fd.free, Devices.boot⟩ [46] =
      some _ := rfl
  obtain ⟨answer, answered, -, contents⟩ := directory_enumerated Image.sample named _ [46] dentry
    found directory _ returned 2 rfl _ enumerates _ (by rfl) 32
  refine ⟨_, _, answer, returned, rfl, answered, ?_⟩
  rw [(contents (by decide)).1]
  decide

end ComputerSystem
