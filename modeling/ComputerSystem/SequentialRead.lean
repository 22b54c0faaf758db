import ComputerSystem.DescriptorTable

/-!
# Sequential reading of files

`Ledger` keeps, next to a process and its devices, what was asked for and delivered on every
descriptor since it was opened.  On a well-formed image the deliveries on a file are the file from
its start on, however the reads are split and mixed with those on other descriptors.
-/

namespace ComputerSystem

open CString Word

/-- A process with the record of its descriptors. -/
structure Ledger where
  /-- The process and the devices. -/
  task : Task
  /-- Name each descriptor was opened under. -/
  filename : Fin 8 → List UInt8
  /-- Bytes asked for since then. -/
  asked : Fin 8 → Nat
  /-- Bytes delivered since then. -/
  delivered : Fin 8 → List UInt8

namespace Ledger

/-- A process with nothing recorded. -/
def start (task : Task) : Ledger where
  task := task
  filename := fun _ => []
  asked := fun _ => 0
  delivered := fun _ => []

/-- The record of a call that gave an answer.  A read delivers as many bytes of its buffer as its
result says. -/
def record (ledger : Ledger) (syscall : Syscall) (answer : Answer) : Ledger :=
  match syscall with
  | .open_file filename =>
      let opened (k : Fin 8) : Prop := (k : Int) = answer.result
      { task := answer.task
        filename := fun k => if opened k then filename else ledger.filename k
        asked := fun k => if opened k then 0 else ledger.asked k
        delivered := fun k => if opened k then [] else ledger.delivered k }
  | .read fd _ nbytes =>
      let used (k : Fin 8) : Prop := (k : Int) = fd
      { ledger with
        task := answer.task
        asked := fun k => if used k then ledger.asked k + nbytes.toNat else ledger.asked k
        delivered := fun k =>
          if used k then ledger.delivered k ++ answer.bytes.take answer.result.toNat
          else ledger.delivered k }
  | _ => { ledger with task := answer.task }

/-- One event. -/
def step (image : Image) (ledger : Ledger) : TaskEvent → Option Ledger
  | .call syscall => (ledger.task.call image syscall).map (ledger.record syscall)
  | .interrupt devices => some { ledger with task := ledger.task.setDevices devices }

/-- The descriptor is open on a regular file. -/
def Regular (ledger : Ledger) (k : Fin 8) : Prop :=
  ledger.task.Open k ∧ (ledger.task.fdt k).file_operation_table_ptr = some .file_func

/-- The record of a descriptor agrees with the file it was opened on. -/
structure Lossless (image : Image) (ledger : Ledger) (k : Fin 8) (dentry : Dentry) : Prop where
  /-- The descriptor was opened under the name of this entry. -/
  found : image.lookup (text (ledger.filename k)) = some dentry
  /-- The entry is a regular file. -/
  regular : dentry.file_type = 2
  /-- The descriptor has its inode. -/
  inode : (ledger.task.fdt k).inode = dentry.inode_index
  /-- The position is as far as was asked for, within the file. -/
  position : (ledger.task.fdt k).position = min (ledger.asked k) (image.length dentry.inode_index)
  /-- What was asked for was delivered, within the file. -/
  delivered : ledger.delivered k = (image.file dentry.inode_index).take (ledger.asked k)

/-- The invariant: the table is sound and every file descriptor is lossless. -/
structure Sound (image : Image) (ledger : Ledger) : Prop where
  /-- The table is sound. -/
  task : ledger.task.Sound
  /-- Every file descriptor is lossless. -/
  lossless : ∀ k, ledger.Regular k → ∃ dentry, ledger.Lossless image k dentry

end Ledger

theorem take_append_take_drop {α : Type*} (file : List α) (asked more : Nat) :
    file.take asked ++ (file.drop (min asked file.length)).take more =
      file.take (asked + more) := by
  rw [List.take_add]
  congr 2
  rcases Nat.le_total asked file.length with inside | past
  · rw [Nat.min_eq_left inside]
  · rw [Nat.min_eq_right past, List.drop_length, List.drop_eq_nil_of_le past]

theorem file_read_in_file {image : Image} (well : image.WellFormed) {task : Task} {fd : Fin 8}
    {nbytes : Int} (positive : 0 < nbytes) (small : nbytes < 2 ^ 31)
    (valid : (task.fdt fd).inode < image.num_inodes)
    (inside : (task.fdt fd).position ≤ image.length (task.fdt fd).inode) :
    let entry := task.fdt fd
    let count := min nbytes.toNat (image.length entry.inode - entry.position)
    file_read image task fd false nbytes =
      ⟨(count : Nat), ((image.file entry.inode).drop entry.position).take nbytes.toNat,
        task.setFd fd { entry with position := entry.position + count }⟩ := by
  intro entry count
  have length_le : image.length entry.inode ≤ 1023 * 4096 := well.length_le _ valid
  have remains : count ≤ image.length entry.inode - entry.position := Nat.min_le_right _ _
  have within : entry.position ≤ image.length entry.inode := inside
  have read_eq := read_data_in_file image (Nat.le_of_lt valid) inside
    (show nbytes.toNat < 2 ^ 31 by omega)
  have moved :
      add32 entry.position (toUnsigned ((count : Nat) : Int)) = entry.position + count := by
    rw [toUnsigned_natCast (by omega), add32_of_lt (by omega)]
  have not_empty : ¬nbytes ≤ 0 := by omega
  simp only [file_read, Bool.false_eq_true, false_or, if_neg not_empty, read_eq]
  rw [moved]

theorem length_take_drop_file (image : Image) (inode position count : Nat) :
    (((image.file inode).drop position).take count).length =
      min count (image.length inode - position) := by
  rw [List.length_take, List.length_drop, image.file_length]

namespace Ledger

variable {image : Image} {ledger : Ledger}

/-- Only the entry and the record of a descriptor count. -/
theorem Lossless.congr {other : Ledger} {k : Fin 8} {dentry : Dentry}
    (lossless : ledger.Lossless image k dentry) (entry : other.task.fdt k = ledger.task.fdt k)
    (filename : other.filename k = ledger.filename k) (asked : other.asked k = ledger.asked k)
    (delivered : other.delivered k = ledger.delivered k) : other.Lossless image k dentry where
  found := by rw [filename]; exact lossless.found
  regular := lossless.regular
  inode := by rw [entry]; exact lossless.inode
  position := by rw [entry, asked]; exact lossless.position
  delivered := by rw [delivered, asked]; exact lossless.delivered

theorem Lossless.inside {k : Fin 8} {dentry : Dentry} (lossless : ledger.Lossless image k dentry) :
    (ledger.task.fdt k).position ≤ image.length (ledger.task.fdt k).inode := by
  rw [lossless.position, lossless.inode]
  exact Nat.min_le_right _ _

theorem Lossless.valid (well : image.WellFormed) {k : Fin 8} {dentry : Dentry}
    (lossless : ledger.Lossless image k dentry) :
    (ledger.task.fdt k).inode < image.num_inodes := by
  rw [lossless.inode]
  exact well.inode_lt dentry (Image.mem_entries_of_lookup lossless.found) lossless.regular

theorem Lossless.read (well : image.WellFormed) {k : Fin 8} {dentry : Dentry}
    (lossless : ledger.Lossless image k dentry) {nbytes : Int} (positive : 0 < nbytes)
    (small : nbytes < 2 ^ 31) :
    (ledger.record (.read k false nbytes)
      (file_read image ledger.task k false nbytes)).Lossless image k dentry := by
  have valid := lossless.valid well
  rw [file_read_in_file well positive small valid lossless.inside]
  have length_eq := image.file_length dentry.inode_index
  refine ⟨lossless.found, lossless.regular, ?_, ?_, ?_⟩
  · simp only [record, Task.setFd_fdt, if_true]
    exact lossless.inode
  · simp only [record, Task.setFd_fdt, if_true, lossless.position, lossless.inode]
    omega
  · simp only [record, if_true, Int.toNat_natCast]
    rw [← length_take_drop_file, List.take_length, lossless.delivered, lossless.position,
      lossless.inode, ← length_eq, take_append_take_drop]

/-- Reads get a buffer and ask for at least one byte; the size is a signed word. -/
def Sequential : TaskEvent → Prop
  | .call (.read _ buf_null nbytes) => buf_null = false ∧ 0 < nbytes ∧ nbytes < 2 ^ 31
  | _ => True

theorem file_type_of_file_func {file_type : Nat}
    (table : find_table_point file_type = some .file_func) : file_type = 2 := by
  by_contra not_two
  simp only [find_table_point, if_neg not_two] at table
  split_ifs at table <;> cases table

/-- A step that leaves the entry and the record of a descriptor alone keeps it lossless. -/
theorem Sound.lossless_of_same (sound : ledger.Sound image) {other : Ledger} {k : Fin 8}
    (regular : other.Regular k) (entry : other.task.fdt k = ledger.task.fdt k)
    (filename : other.filename k = ledger.filename k) (asked : other.asked k = ledger.asked k)
    (delivered : other.delivered k = ledger.delivered k) :
    ∃ dentry, other.Lossless image k dentry := by
  have regular_before : ledger.Regular k := by
    rw [Regular, Task.Open, ← entry]
    exact regular
  obtain ⟨dentry, lossless⟩ := sound.lossless k regular_before
  exact ⟨dentry, lossless.congr entry filename asked delivered⟩

theorem record_open_of_ne (ledger : Ledger) (filename : List UInt8) (answer : Answer) {k : Fin 8}
    (not_opened : (k : Int) ≠ answer.result) :
    let next := ledger.record (.open_file filename) answer
    next.filename k = ledger.filename k ∧ next.asked k = ledger.asked k ∧
      next.delivered k = ledger.delivered k :=
  ⟨if_neg not_opened, if_neg not_opened, if_neg not_opened⟩

/-- An opened file starts lossless, with nothing asked for. -/
theorem Sound.open_file (well : image.WellFormed) (sound : ledger.Sound image)
    {filename : List UInt8} {answer : Answer}
    (returned : ComputerSystem.open_file image ledger.task filename = some answer) :
    ∀ k, (ledger.record (.open_file filename) answer).Regular k →
      ∃ dentry, (ledger.record (.open_file filename) answer).Lossless image k dentry := by
  intro k regular
  rcases open_file_cases image ledger.task filename well.file_type_le with
    ⟨-, result⟩ | ⟨dentry, fd, devices, found, -, result⟩
  · cases result.symm.trans returned
    have not_opened : (k : Int) ≠ -1 := by omega
    have same := ledger.record_open_of_ne filename ⟨-1, [], ledger.task⟩ not_opened
    exact sound.lossless_of_same regular rfl same.1 same.2.1 same.2.2
  · cases result.symm.trans returned
    by_cases same : k = fd
    · subst same
      refine ⟨dentry, ?_⟩
      have table := regular.2
      simp only [record, Task.setFd_fdt, if_true, Fd.ofDentry] at table
      have two := file_type_of_file_func table
      refine ⟨by simpa [record] using found, two, ?_, ?_, ?_⟩
      · simp [record, Task.setFd_fdt, Fd.ofDentry, two]
      · simp [record, Task.setFd_fdt, Fd.ofDentry]
      · simp [record]
    · have not_opened : (k : Int) ≠ fd := by omega
      have entry : ((ledger.task.setDevices devices).setFd fd (Fd.ofDentry dentry)).fdt k =
          ledger.task.fdt k := by
        rw [Task.setFd_fdt, if_neg same, Task.setDevices_fdt]
      have same := ledger.record_open_of_ne filename
        ⟨fd, [], (ledger.task.setDevices devices).setFd fd (Fd.ofDentry dentry)⟩
        not_opened
      exact sound.lossless_of_same regular entry same.1 same.2.1 same.2.2

theorem Sound.read (well : image.WellFormed) (sound : ledger.Sound image) {fd nbytes : Int}
    (positive : 0 < nbytes) (small : nbytes < 2 ^ 31) {answer : Answer}
    (returned : ComputerSystem.read image ledger.task fd false nbytes = some answer) :
    ∀ k, (ledger.record (.read fd false nbytes) answer).Regular k →
      ∃ dentry, (ledger.record (.read fd false nbytes) answer).Lossless image k dentry := by
  intro k regular
  by_cases in_use : ∃ used : Fin 8, (used : Int) = fd ∧ ledger.task.Open used
  · obtain ⟨used, rfl, in_use⟩ := in_use
    obtain ⟨table, table_eq⟩ := Option.ne_none_iff_exists'.mp (sound.task.has_table used in_use)
    rw [read_open image false nbytes in_use table_eq] at returned
    obtain ⟨position, fdt_eq, -⟩ := FuncTable.read_fdt returned
    by_cases same : k = used
    · subst same
      have still : table = .file_func := by
        have after := regular.2
        simp only [record, fdt_eq, Function.update_self, table_eq] at after
        exact Option.some.inj after
      subst still
      cases returned
      obtain ⟨dentry, lossless⟩ := sound.lossless k ⟨in_use, table_eq⟩
      exact ⟨dentry, lossless.read well positive small⟩
    · have not_used : (k : Int) ≠ used := by omega
      refine sound.lossless_of_same regular ?_ rfl (if_neg not_used) (if_neg not_used)
      simp only [record, fdt_eq, Function.update_of_ne same]
  · have closed : ∀ used : Fin 8, (used : Int) = fd → ¬ledger.task.Open used :=
      fun used same in_use' => in_use ⟨used, same, in_use'⟩
    cases (read_closed image false nbytes closed).symm.trans returned
    have not_used : (k : Int) ≠ fd := fun same => closed k same regular.1
    exact sound.lossless_of_same regular rfl rfl (if_neg not_used) (if_neg not_used)

theorem Sound.close (sound : ledger.Sound image) (fd : Int) :
    ∀ k, (ledger.record (.close fd) (ComputerSystem.close ledger.task fd)).Regular k →
      ∃ dentry, (ledger.record (.close fd)
        (ComputerSystem.close ledger.task fd)).Lossless image k dentry := by
  intro k regular
  refine sound.lossless_of_same regular ?_ rfl rfl rfl
  by_cases in_use : ∃ used : Fin 8, (used : Int) = fd ∧ 2 ≤ used ∧ ledger.task.Open used
  · obtain ⟨used, rfl, from_two, in_use⟩ := in_use
    have close_eq := close_open from_two in_use (sound.task.has_table used in_use)
    have open_after := regular.1
    simp only [record, close_eq, Task.Open, Task.setFd_fdt] at open_after ⊢
    split_ifs at open_after with same
    · exact absurd rfl open_after
    · rw [if_neg same]
  · have closed := close_closed fun used same from_two in_use' =>
      in_use ⟨used, same, from_two, in_use'⟩
    simp only [record, closed]

theorem sound_step (well : image.WellFormed) {next : Ledger} {event : TaskEvent}
    (sound : ledger.Sound image) (sequential : Sequential event)
    (taken : ledger.step image event = some next) : next.Sound image := by
  cases event with
  | interrupt devices =>
      cases taken
      exact ⟨sound.task.of_fdt_eq rfl, fun k regular =>
        sound.lossless_of_same regular rfl rfl rfl rfl⟩
  | call syscall =>
      obtain ⟨answer, returned, rfl⟩ := Option.map_eq_some_iff.mp taken
      have task_sound := Task.sound_call well.file_type_le sound.task returned
      cases syscall with
      | open_file filename => exact ⟨task_sound, sound.open_file well returned⟩
      | read fd buf_null nbytes =>
          obtain ⟨rfl, positive, small⟩ := sequential
          exact ⟨task_sound, sound.read well positive small returned⟩
      | write fd buf nbytes =>
          cases returned
          refine ⟨task_sound, fun k regular => sound.lossless_of_same regular ?_ rfl rfl rfl⟩
          simp only [record, write_fdt]
      | close fd =>
          cases returned
          exact ⟨task_sound, sound.close fd⟩

/-- A read on a file descriptor returns the number of bytes that it stored, and 0 exactly at the end
of the file. -/
theorem Lossless.read_counts (well : image.WellFormed) {k : Fin 8}
    {dentry : Dentry} (regular : ledger.Regular k) (lossless : ledger.Lossless image k dentry)
    {nbytes : Int} (positive : 0 < nbytes) (small : nbytes < 2 ^ 31) :
    ∃ answer, ComputerSystem.read image ledger.task k false nbytes = some answer ∧
      answer.result = answer.bytes.length ∧
      (answer.result = 0 ↔ ledger.delivered k = image.file dentry.inode_index) := by
  have read_eq := file_read_in_file well positive small (lossless.valid well) lossless.inside
  refine ⟨_, read_open image false nbytes regular.1 regular.2, ?_⟩
  rw [read_eq]
  refine ⟨congrArg Int.ofNat (length_take_drop_file image _ _ _).symm, ?_⟩
  rw [lossless.delivered, List.take_eq_self_iff, image.file_length, lossless.position,
    lossless.inode]
  simp only
  omega

/-- Sequential reading is lossless.  Whatever a process opens, reads and closes, every descriptor
that is open on a regular file has delivered exactly what was asked of it, cut at the end of the
file that its name leads to; its position stays within the file, and the next read returns the
number of bytes that it stores, which is 0 exactly when the whole file has been delivered. -/
theorem sequential_read_lossless (image : Image) (well : image.WellFormed) (fdt : Fin 8 → Fd)
    (fresh : ∀ fd, 2 ≤ fd → (fdt fd).flags = 0) (devices : Devices) (events : List TaskEvent)
    (sequential : ∀ event ∈ events, Sequential event) (ledger : Ledger)
    (reached : Run.run (step image) (start ⟨set_up_io_file fdt, devices⟩) events = some ledger)
    (k : Fin 8) (regular : ledger.Regular k) :
    ∃ dentry, image.lookup (text (ledger.filename k)) = some dentry ∧ dentry.file_type = 2 ∧
      let file := image.file dentry.inode_index
      ledger.delivered k = file.take (min (ledger.asked k) file.length) ∧
      (ledger.task.fdt k).position ≤ file.length ∧
      ∀ nbytes, 0 < nbytes → nbytes < 2 ^ 31 →
        ∃ answer, ComputerSystem.read image ledger.task k false nbytes = some answer ∧
          answer.result = answer.bytes.length ∧
          (answer.result = 0 ↔ ledger.delivered k = file) := by
  have initial : (start ⟨set_up_io_file fdt, devices⟩).Sound image := by
    have task_sound := Task.sound_set_up_io_file fresh devices
    refine ⟨task_sound, fun k regular => ?_⟩
    by_cases from_two : 2 ≤ k
    · refine absurd ?_ regular.1
      simp only [start, set_up_io_file, Function.update_apply]
      rw [if_neg (by rintro rfl; exact absurd from_two (by decide)),
        if_neg (by rintro rfl; exact absurd from_two (by decide)), fresh k from_two]
    · exact absurd rfl (task_sound.table_of_lt_two (not_le.mp from_two) regular.2).2
  have sound := Run.invariant_of_run (Sound image) Sequential
    (fun _ _ _ sound sequential taken => sound_step well sound sequential taken)
    initial sequential reached
  obtain ⟨dentry, lossless⟩ := sound.lossless k regular
  refine ⟨dentry, lossless.found, lossless.regular, ?_, ?_, fun nbytes positive small =>
    lossless.read_counts well regular positive small⟩
  · rw [lossless.delivered, List.take_eq_take_iff]
    omega
  · rw [image.file_length, lossless.position]
    exact Nat.min_le_right _ _

/-- The four bytes of `ls` in two reads, with one of `shell` in between; then there is nothing
left. -/
theorem sequential_read_lossless_ls :
    ∃ ledger, Run.run (step Image.sample) (start ⟨set_up_io_file fun _ => Fd.free, Devices.boot⟩)
        [.call (.open_file [108, 115]), .call (.open_file [115, 104, 101, 108, 108]),
          .call (.read 2 false 3), .call (.read 3 false 1), .call (.read 2 false 3)] =
        some ledger ∧
      ledger.asked 2 = 6 ∧
      ∃ dentry, Image.sample.lookup [108, 115] = some dentry ∧
        ledger.delivered 2 = (Image.sample.file dentry.inode_index).take
          (min 6 (Image.sample.file dentry.inode_index).length) ∧
        ∃ answer, ComputerSystem.read Image.sample ledger.task 2 false 3 = some answer ∧
          answer.result = answer.bytes.length := by
  refine ⟨_, rfl, rfl, ?_⟩
  obtain ⟨dentry, found, -, delivered, -, reads⟩ :=
    sequential_read_lossless Image.sample Image.sample_wellFormed (fun _ => Fd.free)
      (fun _ _ => rfl) Devices.boot
      [.call (.open_file [108, 115]), .call (.open_file [115, 104, 101, 108, 108]),
        .call (.read 2 false 3), .call (.read 3 false 1), .call (.read 2 false 3)]
      (by simp [Sequential]) _ rfl 2 ⟨by decide, rfl⟩
  obtain ⟨answer, returned, counts, -⟩ := reads 3 (by decide) (by decide)
  exact ⟨dentry, found, delivered, answer, returned, counts⟩

end Ledger

end ComputerSystem
