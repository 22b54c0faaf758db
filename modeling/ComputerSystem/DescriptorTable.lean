import ComputerSystem.Descriptors
import ComputerSystem.Run

/-!
# The descriptor table over whole runs

A process makes system calls in any order and with any arguments; between two calls the devices may
change in any way, since interrupts and the other processes work on them too.
-/

namespace ComputerSystem

open CString

/-- A system call on descriptors. -/
inductive Syscall
  /-- `open`. -/
  | open_file (filename : List UInt8)
  /-- `read`. -/
  | read (fd : Int) (buf_null : Bool) (nbytes : Int)
  /-- `write`. -/
  | write (fd : Int) (buf : List UInt8) (nbytes : Int)
  /-- `close`. -/
  | close (fd : Int)

/-- What happens to a process and the devices. -/
inductive TaskEvent
  /-- The process makes a call. -/
  | call (syscall : Syscall)
  /-- The devices change between two calls. -/
  | interrupt (devices : Devices)

namespace Task

/-- Make a call. -/
def call (image : Image) (task : Task) : Syscall → Option Answer
  | .open_file filename => ComputerSystem.open_file image task filename
  | .read fd buf_null nbytes => ComputerSystem.read image task fd buf_null nbytes
  | .write fd buf nbytes => some (ComputerSystem.write task fd buf nbytes)
  | .close fd => some (ComputerSystem.close task fd)

/-- One event; a call that does not return is not a step. -/
def step (image : Image) (task : Task) : TaskEvent → Option Task
  | .call syscall => (task.call image syscall).map Answer.task
  | .interrupt devices => some (task.setDevices devices)

/-- The descriptor is in use. -/
def Open (task : Task) (fd : Fin 8) : Prop := (task.fdt fd).flags ≠ 0

instance (task : Task) (fd : Fin 8) : Decidable (task.Open fd) :=
  inferInstanceAs (Decidable (_ ≠ _))

@[simp]
theorem setDevices_fdt (task : Task) (devices : Devices) :
    (task.setDevices devices).fdt = task.fdt := rfl

theorem setFd_fdt (task : Task) (fd k : Fin 8) (entry : Fd) :
    (task.setFd fd entry).fdt k = if k = fd then entry else task.fdt k :=
  Function.update_apply task.fdt fd entry k

end Task

/-! ## One lemma for each call -/

/-- The entry that `open` makes for a directory entry. -/
def Fd.ofDentry (dentry : Dentry) : Fd where
  file_operation_table_ptr := find_table_point dentry.file_type
  inode := if dentry.file_type = 2 then dentry.inode_index else 0
  position := 0
  flags := 1

/-- The lowest descriptor `open` may hand out. -/
def Task.lowest (task : Task) : Option (Fin 8) :=
  openable.find? fun fd => (task.fdt fd).flags = 0

theorem find_table_point_of_le {file_type : Nat} (le : file_type ≤ 2) :
    ∃ table, find_table_point file_type = some table := by
  interval_cases file_type <;> exact ⟨_, rfl⟩

/-- `open` fails, or it hands out the lowest free descriptor for the entry, if it has a jump
table. -/
theorem open_file_lookup (image : Image) (task : Task) (filename : List UInt8) :
    ((image.lookup (text filename) = none ∨ task.lowest = none) ∧
      open_file image task filename = some ⟨-1, [], task⟩) ∨
    ∃ dentry fd, image.lookup (text filename) = some dentry ∧ task.lowest = some fd ∧
      open_file image task filename = (find_table_point dentry.file_type).map fun table =>
        ⟨fd, [], (task.setDevices (table.opened image filename task.devices).2).setFd fd
          (Fd.ofDentry dentry)⟩ := by
  simp only [open_file, read_dentry_by_name_eq]
  cases found : image.lookup (text filename) with
  | none => exact Or.inl ⟨Or.inl rfl, rfl⟩
  | some dentry =>
      cases free : task.lowest with
      | none =>
          rw [Task.lowest] at free
          exact Or.inl ⟨Or.inr rfl, by simp [free]⟩
      | some fd =>
          rw [Task.lowest] at free
          refine Or.inr ⟨dentry, fd, rfl, rfl, ?_⟩
          cases table_eq : find_table_point dentry.file_type with
          | none => simp [free, table_eq]
          | some table => simp [free, table_eq, Fd.ofDentry]

theorem open_file_cases (image : Image) (task : Task) (filename : List UInt8)
    (types : ∀ entry ∈ image.entries, entry.file_type ≤ 2) :
    ((image.lookup (text filename) = none ∨ task.lowest = none) ∧
      open_file image task filename = some ⟨-1, [], task⟩) ∨
    ∃ dentry fd devices, image.lookup (text filename) = some dentry ∧ task.lowest = some fd ∧
      open_file image task filename =
        some ⟨fd, [], (task.setDevices devices).setFd fd (Fd.ofDentry dentry)⟩ := by
  obtain failed | ⟨dentry, fd, found, free, opened⟩ := open_file_lookup image task filename
  · exact Or.inl failed
  · obtain ⟨table, table_eq⟩ :=
      find_table_point_of_le (types dentry (Image.mem_entries_of_lookup found))
    rw [table_eq] at opened
    exact Or.inr ⟨dentry, fd, _, found, free, opened⟩

/-- A read moves at most the position of its descriptor, and only on a file or a directory. -/
theorem FuncTable.read_fdt {table : FuncTable} {image : Image} {task : Task} {fd : Fin 8}
    {buf_null : Bool} {nbytes : Int} {answer : Answer}
    (returned : table.read image task fd buf_null nbytes = some answer) :
    ∃ position, answer.task.fdt = Function.update task.fdt fd { task.fdt fd with position } ∧
      (table ≠ .dir_func → table ≠ .file_func → position = (task.fdt fd).position) := by
  have unmoved : task.fdt = Function.update task.fdt fd
      { task.fdt fd with position := (task.fdt fd).position } :=
    (Function.update_eq_self fd task.fdt).symm
  cases table with
  | rtc_func =>
      obtain ⟨rtc, -, rfl⟩ := Option.map_eq_some_iff.mp returned
      exact ⟨_, unmoved, fun _ _ => rfl⟩
  | dir_func =>
      cases returned
      simp only [dir_read]
      split_ifs
      · exact ⟨_, unmoved, fun no_dir => absurd rfl no_dir⟩
      · exact ⟨_, unmoved, fun no_dir => absurd rfl no_dir⟩
      · exact ⟨_, unmoved, fun no_dir => absurd rfl no_dir⟩
      · exact ⟨_, rfl, fun no_dir => absurd rfl no_dir⟩
  | file_func =>
      cases returned
      simp only [file_read]
      split_ifs
      · exact ⟨_, unmoved, fun _ no_file => absurd rfl no_file⟩
      · exact ⟨_, rfl, fun _ no_file => absurd rfl no_file⟩
  | terminal_func_in =>
      obtain ⟨console, -, rfl⟩ := Option.map_eq_some_iff.mp returned
      exact ⟨_, unmoved, fun _ _ => rfl⟩
  | terminal_func_out =>
      cases returned
      exact ⟨_, unmoved, fun _ _ => rfl⟩

theorem exists_fd {fd : Int} (inside : 0 ≤ fd ∧ fd < 8) : ∃ k : Fin 8, (k : Int) = fd :=
  ⟨⟨fd.toNat, by omega⟩, by simp only; omega⟩

theorem read_closed (image : Image) {task : Task} {fd : Int} (buf_null : Bool) (nbytes : Int)
    (closed : ∀ k : Fin 8, (k : Int) = fd → ¬task.Open k) :
    read image task fd buf_null nbytes = some ⟨-1, [], task⟩ := by
  by_cases inside : 0 ≤ fd ∧ fd < 8
  · obtain ⟨k, rfl⟩ := exists_fd inside
    have free := closed k rfl
    rw [Task.Open, not_not] at free
    simp only [read, dif_pos inside, Int.toNat_natCast, Fin.eta, free, if_true]
  · rw [read, dif_neg inside]

theorem read_open (image : Image) {task : Task} {fd : Fin 8} (buf_null : Bool) (nbytes : Int)
    {table : FuncTable} (in_use : task.Open fd)
    (table_eq : (task.fdt fd).file_operation_table_ptr = some table) :
    read image task fd buf_null nbytes = table.read image task fd buf_null nbytes := by
  have inside : 0 ≤ (fd : Int) ∧ (fd : Int) < 8 := by omega
  rw [Task.Open] at in_use
  simp only [read, dif_pos inside, Int.toNat_natCast, Fin.eta, if_neg in_use, table_eq]

theorem read_no_table (image : Image) {task : Task} {fd : Fin 8} (buf_null : Bool) (nbytes : Int)
    (table_eq : (task.fdt fd).file_operation_table_ptr = none) :
    read image task fd buf_null nbytes = some ⟨-1, [], task⟩ := by
  have inside : 0 ≤ (fd : Int) ∧ (fd : Int) < 8 := by omega
  simp only [read, dif_pos inside, Int.toNat_natCast, Fin.eta, table_eq, ite_self]

theorem write_closed {task : Task} {fd : Int} (buf : List UInt8) (nbytes : Int)
    (closed : ∀ k : Fin 8, (k : Int) = fd → ¬task.Open k) :
    write task fd buf nbytes = ⟨-1, [], task⟩ := by
  by_cases inside : 0 ≤ fd ∧ fd < 8
  · obtain ⟨k, rfl⟩ := exists_fd inside
    have free := closed k rfl
    rw [Task.Open, not_not] at free
    simp only [write, dif_pos inside, Int.toNat_natCast, Fin.eta, free, if_true]
  · rw [write, dif_neg inside]

theorem write_fdt (task : Task) (fd : Int) (buf : List UInt8) (nbytes : Int) :
    (write task fd buf nbytes).task.fdt = task.fdt := by
  simp only [write]
  split
  · split
    · rfl
    · split
      · rfl
      · rename_i table _
        cases table <;> rfl
  · rfl

/-- `close` fails outside the open descriptors from 2 on. -/
theorem close_closed {task : Task} {fd : Int}
    (closed : ∀ k : Fin 8, (k : Int) = fd → 2 ≤ k → ¬task.Open k) :
    close task fd = ⟨-1, [], task⟩ := by
  by_cases inside : 2 ≤ fd ∧ fd < 8
  · obtain ⟨k, rfl⟩ := exists_fd (show 0 ≤ fd ∧ fd < 8 by omega)
    have free := closed k rfl (by rw [Fin.le_def, Fin.val_two]; omega)
    rw [Task.Open, not_not] at free
    simp only [close, dif_pos inside, Int.toNat_natCast, Fin.eta, free, if_true]
  · rw [close, dif_neg inside]

theorem close_open {task : Task} {fd : Fin 8} (from_two : 2 ≤ fd) (in_use : task.Open fd)
    (has_table : (task.fdt fd).file_operation_table_ptr ≠ none) :
    close task fd = ⟨0, [], task.setFd fd { task.fdt fd with flags := 0 }⟩ := by
  have inside : 2 ≤ (fd : Int) ∧ (fd : Int) < 8 := by
    rw [Fin.le_def, Fin.val_two] at from_two
    omega
  obtain ⟨table, table_eq⟩ := Option.ne_none_iff_exists'.mp has_table
  rw [Task.Open] at in_use
  simp only [close, dif_pos inside, Int.toNat_natCast, Fin.eta, if_neg in_use, table_eq,
    FuncTable.close]

/-! ## The invariant -/

/-- The entry of stdin. -/
def Fd.stdin : Fd where
  file_operation_table_ptr := some .terminal_func_in
  inode := 0
  position := 0
  flags := 1

/-- The entry of stdout. -/
def Fd.stdout : Fd where
  file_operation_table_ptr := some .terminal_func_out
  inode := 0
  position := 0
  flags := 1

namespace Task

/-- The table of a running process. -/
structure Sound (task : Task) : Prop where
  /-- Descriptor 0 is stdin. -/
  stdin : task.fdt 0 = Fd.stdin
  /-- Descriptor 1 is stdout. -/
  stdout : task.fdt 1 = Fd.stdout
  /-- What is open has a table. -/
  has_table : ∀ fd, task.Open fd → (task.fdt fd).file_operation_table_ptr ≠ none

theorem Sound.of_fdt_eq {task other : Task} (sound : task.Sound) (fdt_eq : other.fdt = task.fdt) :
    other.Sound where
  stdin := by rw [fdt_eq]; exact sound.stdin
  stdout := by rw [fdt_eq]; exact sound.stdout
  has_table fd := by
    simp only [Open, fdt_eq]
    exact sound.has_table fd

/-- Changing a descriptor from 2 on to an entry that is closed or has a table. -/
theorem Sound.setFd {task : Task} (sound : task.Sound) {fd : Fin 8} {entry : Fd}
    (from_two : 2 ≤ fd) (has_table : entry.flags ≠ 0 → entry.file_operation_table_ptr ≠ none) :
    (task.setFd fd entry).Sound where
  stdin := by
    rw [setFd_fdt, if_neg (by rintro rfl; exact absurd from_two (by decide))]
    exact sound.stdin
  stdout := by
    rw [setFd_fdt, if_neg (by rintro rfl; exact absurd from_two (by decide))]
    exact sound.stdout
  has_table k := by
    simp only [Open, setFd_fdt]
    split_ifs
    · exact has_table
    · exact sound.has_table k

theorem Sound.table_of_lt_two {task : Task} (sound : task.Sound) {fd : Fin 8} {table : FuncTable}
    (below : fd < 2) (table_eq : (task.fdt fd).file_operation_table_ptr = some table) :
    table ≠ .dir_func ∧ table ≠ .file_func := by
  have which : fd = 0 ∨ fd = 1 := by omega
  rcases which with rfl | rfl
  · rw [sound.stdin] at table_eq
    cases table_eq
    decide
  · rw [sound.stdout] at table_eq
    cases table_eq
    decide

/-- `set_up_io_file` on a table with the other descriptors closed. -/
theorem sound_set_up_io_file {fdt : Fin 8 → Fd} (fresh : ∀ fd, 2 ≤ fd → (fdt fd).flags = 0)
    (devices : Devices) : (⟨ComputerSystem.set_up_io_file fdt, devices⟩ : Task).Sound where
  stdin := rfl
  stdout := rfl
  has_table fd := by
    simp only [Open, ComputerSystem.set_up_io_file, Function.update_apply]
    split_ifs with one zero
    · simp [find_table_point]
    · simp [find_table_point]
    · intro in_use
      refine absurd (fresh fd ?_) in_use
      omega

theorem mem_openable : ∀ {fd : Fin 8}, 2 ≤ fd → fd ∈ openable := by decide

theorem two_le_of_mem_openable : ∀ {fd : Fin 8}, fd ∈ openable → 2 ≤ fd := by decide

theorem two_le_of_lowest {task : Task} {fd : Fin 8} (lowest : task.lowest = some fd) : 2 ≤ fd :=
  two_le_of_mem_openable (List.mem_of_find?_eq_some lowest)

theorem sound_call {image : Image} {task : Task}
    (types : ∀ entry ∈ image.entries, entry.file_type ≤ 2) (sound : task.Sound)
    {syscall : Syscall} {answer : Answer}
    (returned : task.call image syscall = some answer) : answer.task.Sound := by
  cases syscall with
  | open_file filename =>
      rcases open_file_cases image task filename types with
        ⟨-, result⟩ | ⟨dentry, fd, devices, found, lowest, result⟩
      · cases result.symm.trans returned
        exact sound
      · cases result.symm.trans returned
        refine (sound.of_fdt_eq (task.setDevices_fdt devices)).setFd (two_le_of_lowest lowest) ?_
        intro _
        obtain ⟨table, table_eq⟩ :=
          find_table_point_of_le (types dentry (Image.mem_entries_of_lookup found))
        simp [Fd.ofDentry, table_eq]
  | read fd buf_null nbytes =>
      by_cases in_use : ∃ k : Fin 8, (k : Int) = fd ∧ task.Open k
      · obtain ⟨k, rfl, in_use⟩ := in_use
        obtain ⟨table, table_eq⟩ := Option.ne_none_iff_exists'.mp (sound.has_table k in_use)
        rw [call, read_open image buf_null nbytes in_use table_eq] at returned
        obtain ⟨position, fdt_eq, unmoved⟩ := FuncTable.read_fdt returned
        by_cases from_two : 2 ≤ k
        · have moved : (task.setFd k { task.fdt k with position }).Sound :=
            sound.setFd from_two fun _ => sound.has_table k in_use
          exact moved.of_fdt_eq fdt_eq
        · have terminal := sound.table_of_lt_two (not_le.mp from_two) table_eq
          refine sound.of_fdt_eq ?_
          rw [fdt_eq, unmoved terminal.1 terminal.2]
          exact Function.update_eq_self k task.fdt
      · have closed : ∀ k : Fin 8, (k : Int) = fd → ¬task.Open k :=
          fun k same in_use' => in_use ⟨k, same, in_use'⟩
        cases (read_closed image buf_null nbytes closed).symm.trans returned
        exact sound
  | write fd buf nbytes =>
      cases returned
      exact sound.of_fdt_eq (write_fdt task fd buf nbytes)
  | close fd =>
      cases returned
      by_cases in_use : ∃ k : Fin 8, (k : Int) = fd ∧ 2 ≤ k ∧ task.Open k
      · obtain ⟨k, rfl, from_two, in_use⟩ := in_use
        rw [close_open from_two in_use (sound.has_table k in_use)]
        exact sound.setFd from_two fun in_use => absurd rfl in_use
      · rw [close_closed fun k same from_two in_use' => in_use ⟨k, same, from_two, in_use'⟩]
        exact sound

/-- A process that starts with the table of `set_up_io_file` keeps it in every run. -/
theorem sound_of_run {image : Image} (types : ∀ entry ∈ image.entries, entry.file_type ≤ 2)
    {start task : Task} (sound : start.Sound) {events : List TaskEvent}
    (reached : Run.run (step image) start events = some task) : task.Sound := by
  refine Run.invariant_of_run Sound (fun _ => True) ?_ sound (fun _ _ => trivial) reached
  intro task event next sound _ taken
  cases event with
  | call syscall =>
      obtain ⟨answer, returned, rfl⟩ := Option.map_eq_some_iff.mp taken
      exact sound_call types sound returned
  | interrupt devices =>
      cases taken
      exact sound.of_fdt_eq rfl

/-! ## What every call does -/

/-- The specification of the calls on a table. -/
def Meets (image : Image) (task : Task) (syscall : Syscall) (answer : Answer) : Prop :=
  match syscall with
  | .open_file filename =>
      (answer.result = -1 ↔
        (∀ entry ∈ image.entries, entry.name ≠ text filename) ∨ ∀ fd, 2 ≤ fd → task.Open fd) ∧
      (answer.result = -1 → answer.task.fdt = task.fdt) ∧
      (answer.result ≠ -1 → ∃ (fd : Fin 8) (dentry : Dentry), answer.result = fd ∧ 2 ≤ fd ∧
        ¬task.Open fd ∧ (∀ k, 2 ≤ k → k < fd → task.Open k) ∧
        image.lookup (text filename) = some dentry ∧
        (answer.task.fdt fd).position = 0 ∧ answer.task.Open fd ∧
        (answer.task.fdt fd).file_operation_table_ptr = find_table_point dentry.file_type ∧
        (dentry.file_type = 2 → (answer.task.fdt fd).inode = dentry.inode_index) ∧
        ∀ k, k ≠ fd → answer.task.fdt k = task.fdt k)
  | .read fd _ _ =>
      ((∀ k : Fin 8, (k : Int) = fd → ¬task.Open k) → answer.result = -1) ∧
      ∀ k : Fin 8, (k : Int) ≠ fd → answer.task.fdt k = task.fdt k
  | .write fd _ _ =>
      ((∀ k : Fin 8, (k : Int) = fd → ¬task.Open k) → answer.result = -1) ∧
      ∀ k : Fin 8, (k : Int) ≠ fd → answer.task.fdt k = task.fdt k
  | .close fd =>
      (answer.result = 0 ↔ ∃ k : Fin 8, (k : Int) = fd ∧ 2 ≤ k ∧ task.Open k) ∧
      (answer.result ≠ 0 → answer.result = -1 ∧ answer.task.fdt = task.fdt) ∧
      (answer.result = 0 → ∀ k : Fin 8, (k : Int) = fd → ¬answer.task.Open k) ∧
      ∀ k : Fin 8, (k : Int) ≠ fd → answer.task.fdt k = task.fdt k

theorem lowest_eq_none {task : Task} : task.lowest = none ↔ ∀ fd, 2 ≤ fd → task.Open fd := by
  simp only [lowest, List.find?_eq_none, decide_eq_true_eq, ← Open.eq_def]
  exact ⟨fun busy fd from_two => busy fd (mem_openable from_two),
    fun busy fd mem => busy fd (two_le_of_mem_openable mem)⟩

theorem lowest_spec {task : Task} {fd : Fin 8} (lowest : task.lowest = some fd) :
    2 ≤ fd ∧ ¬task.Open fd ∧ ∀ k, 2 ≤ k → k < fd → task.Open k := by
  have sorted : openable.Pairwise (· < ·) := by decide
  obtain ⟨free, busy⟩ := CArray.lowest_of_find? sorted lowest
  refine ⟨two_le_of_lowest lowest, by simpa [Open] using free, ?_⟩
  intro k from_two below
  simpa [Open] using busy k (mem_openable from_two) below

theorem lookup_eq_none {image : Image} {name : List UInt8} :
    image.lookup name = none ↔ ∀ entry ∈ image.entries, entry.name ≠ name := by
  simp [Image.lookup, List.find?_eq_none]

/-- Every call on a sound table meets its specification. -/
theorem meets_of_sound {image : Image} {task : Task}
    (types : ∀ entry ∈ image.entries, entry.file_type ≤ 2) (sound : task.Sound)
    {syscall : Syscall} {answer : Answer} (returned : task.call image syscall = some answer) :
    task.Meets image syscall answer := by
  cases syscall with
  | open_file filename =>
      rcases open_file_cases image task filename types with
        ⟨missing, result⟩ | ⟨dentry, fd, devices, found, lowest, result⟩
      · cases result.symm.trans returned
        rw [lookup_eq_none, lowest_eq_none] at missing
        exact ⟨iff_of_true rfl missing, fun _ => rfl, fun opened => absurd rfl opened⟩
      · cases result.symm.trans returned
        obtain ⟨from_two, free, busy⟩ := lowest_spec lowest
        have not_failed : (fd : Int) ≠ -1 := by omega
        refine ⟨iff_of_false not_failed ?_, fun failed => absurd failed not_failed, fun _ =>
          ⟨fd, dentry, rfl, from_two, free, busy, found, ?_⟩⟩
        · rintro (missing | all_open)
          · rw [← lookup_eq_none, found] at missing
            cases missing
          · exact free (all_open fd from_two)
        · have entry_eq : (((task.setDevices devices).setFd fd (Fd.ofDentry dentry)).fdt fd) =
              Fd.ofDentry dentry := by rw [setFd_fdt, if_pos rfl]
          refine ⟨by rw [entry_eq]; rfl, by rw [Open, entry_eq]; exact one_ne_zero,
            by rw [entry_eq]; rfl, fun regular => by rw [entry_eq]; exact if_pos regular,
            fun k other => ?_⟩
          rw [setFd_fdt, if_neg other, setDevices_fdt]
  | read fd buf_null nbytes =>
      by_cases in_use : ∃ k : Fin 8, (k : Int) = fd ∧ task.Open k
      · obtain ⟨k, rfl, in_use⟩ := in_use
        obtain ⟨table, table_eq⟩ := Option.ne_none_iff_exists'.mp (sound.has_table k in_use)
        rw [call, read_open image buf_null nbytes in_use table_eq] at returned
        obtain ⟨position, fdt_eq, -⟩ := FuncTable.read_fdt returned
        refine ⟨fun closed => absurd in_use (closed k rfl), fun other differs => ?_⟩
        rw [fdt_eq, Function.update_of_ne]
        rintro rfl
        exact differs rfl
      · have closed : ∀ k : Fin 8, (k : Int) = fd → ¬task.Open k :=
          fun k same in_use' => in_use ⟨k, same, in_use'⟩
        cases (read_closed image buf_null nbytes closed).symm.trans returned
        exact ⟨fun _ => rfl, fun _ _ => rfl⟩
  | write fd buf nbytes =>
      cases returned
      refine ⟨fun closed => ?_, fun k _ => ?_⟩
      · rw [write_closed buf nbytes closed]
      · rw [write_fdt]
  | close fd =>
      cases returned
      by_cases in_use : ∃ k : Fin 8, (k : Int) = fd ∧ 2 ≤ k ∧ task.Open k
      · have ⟨k, same, from_two, open_k⟩ := in_use
        subst same
        rw [close_open from_two open_k (sound.has_table k open_k)]
        refine ⟨iff_of_true rfl in_use, fun failed => absurd rfl failed, fun _ other same => ?_,
          fun other differs => ?_⟩
        · have equal : other = k := by omega
          simp [Open, setFd_fdt, equal]
        · rw [setFd_fdt, if_neg]
          rintro rfl
          exact differs rfl
      · rw [close_closed fun k same from_two in_use' => in_use ⟨k, same, from_two, in_use'⟩]
        have failed : (-1 : Int) ≠ 0 := by decide
        exact ⟨iff_of_false failed in_use, fun _ => ⟨rfl, rfl⟩,
          fun succeeded => absurd succeeded failed, fun _ _ => rfl⟩

/-- All calls return on every table but reads of an open descriptor, which may wait. -/
theorem returns_of_types {image : Image} (task : Task)
    (types : ∀ entry ∈ image.entries, entry.file_type ≤ 2) (syscall : Syscall) :
    (∃ answer, task.call image syscall = some answer) ∨
      ∃ (fd : Fin 8) (buf_null : Bool) (nbytes : Int),
        syscall = .read fd buf_null nbytes ∧ task.Open fd := by
  cases syscall with
  | open_file filename =>
      rcases open_file_cases image task filename types with ⟨-, result⟩ | ⟨_, _, _, -, -, result⟩
      · exact Or.inl ⟨_, result⟩
      · exact Or.inl ⟨_, result⟩
  | read fd buf_null nbytes =>
      by_cases in_use : ∃ k : Fin 8, (k : Int) = fd ∧ task.Open k
      · obtain ⟨k, rfl, in_use⟩ := in_use
        exact Or.inr ⟨k, buf_null, nbytes, rfl, in_use⟩
      · exact Or.inl ⟨_, read_closed image buf_null nbytes fun k same in_use' =>
          in_use ⟨k, same, in_use'⟩⟩
  | write fd buf nbytes => exact Or.inl ⟨_, rfl⟩
  | close fd => exact Or.inl ⟨_, rfl⟩

/-- The descriptor table of a process that `set_up_io_file` started, in every state it reaches:
stdin and stdout are in place, reads and writes of closed or impossible descriptors return -1, and
whatever call comes next does what its specification says. -/
theorem descriptor_table_invariant (image : Image)
    (types : ∀ entry ∈ image.entries, entry.file_type ≤ 2) (fdt : Fin 8 → Fd)
    (fresh : ∀ fd, 2 ≤ fd → (fdt fd).flags = 0) (devices : Devices) (events : List TaskEvent)
    (task : Task)
    (reached : Run.run (step image) ⟨set_up_io_file fdt, devices⟩ events = some task) :
    task.fdt 0 = Fd.stdin ∧ task.fdt 1 = Fd.stdout ∧
    (∀ fd : Int, (∀ k : Fin 8, (k : Int) = fd → ¬task.Open k) →
      (∀ buf_null nbytes, task.call image (.read fd buf_null nbytes) = some ⟨-1, [], task⟩) ∧
      ∀ buf nbytes, task.call image (.write fd buf nbytes) = some ⟨-1, [], task⟩) ∧
    ∀ syscall,
      ((∃ answer, task.call image syscall = some answer) ∨
        ∃ (fd : Fin 8) (buf_null : Bool) (nbytes : Int),
          syscall = .read fd buf_null nbytes ∧ task.Open fd) ∧
      ∀ answer, task.call image syscall = some answer → task.Meets image syscall answer := by
  have sound := sound_of_run types (sound_set_up_io_file fresh devices) reached
  refine ⟨sound.stdin, sound.stdout, fun fd closed => ⟨fun buf_null nbytes => ?_,
    fun buf nbytes => ?_⟩, fun syscall => ⟨task.returns_of_types types syscall,
      fun _ returned => meets_of_sound types sound returned⟩⟩
  · exact read_closed image buf_null nbytes closed
  · exact congrArg some (write_closed buf nbytes closed)

/-- A process opens `ls` and `shell`, reads the second and closes the first: descriptor 2 cannot be
read or written then, and the next `open` hands it out. -/
theorem descriptor_table_invariant_ls :
    ∃ task, Run.run (step Image.sample) ⟨set_up_io_file fun _ => Fd.free, Devices.boot⟩
        [.call (.open_file [108, 115]), .call (.open_file [115, 104, 101, 108, 108]),
          .call (.read 3 false 2), .interrupt Devices.boot, .call (.close 2)] = some task ∧
      (task.fdt 0 = Fd.stdin ∧ task.Open 3 ∧ ¬task.Open 2) ∧
      task.call Image.sample (.read 2 false 1) = some ⟨-1, [], task⟩ ∧
      task.call Image.sample (.write 2 [1] 1) = some ⟨-1, [], task⟩ ∧
      ∃ answer, task.call Image.sample (.open_file [108, 115]) = some answer ∧
        answer.result = 2 ∧ task.Meets Image.sample (.open_file [108, 115]) answer := by
  refine ⟨_, rfl, ?_⟩
  obtain ⟨stdin, -, closed, meets⟩ := descriptor_table_invariant Image.sample (by decide)
    (fun _ => Fd.free) (fun _ _ => rfl) Devices.boot
    [.call (.open_file [108, 115]), .call (.open_file [115, 104, 101, 108, 108]),
      .call (.read 3 false 2), .interrupt Devices.boot, .call (.close 2)] _ rfl
  obtain ⟨reads, writes⟩ := closed 2 (by decide)
  exact ⟨⟨stdin, by decide, by decide⟩, reads false 1, writes [1] 1, _, rfl, rfl,
    (meets (.open_file [108, 115])).2 _ rfl⟩

end Task

end ComputerSystem
