import ComputerSystem.Keyboard
import ComputerSystem.ReadData
import ComputerSystem.Rtc

/-!
# File descriptors

The descriptor table of a process, the five function jump tables and the system calls that go
through them.  The image is the one `file_init` was given, so the tests for a missing `boot_block`
are left out.  A call that does not return, because it spins or because it calls through a table
that is not there, is `none`.
-/

namespace ComputerSystem

open Word

/-- Descriptors are named by literals. -/
instance descriptor_neZero : NeZero 8 := ⟨by decide⟩

/-- The function jump tables. -/
inductive FuncTable
  | rtc_func
  | dir_func
  | file_func
  | terminal_func_in
  | terminal_func_out
  deriving DecidableEq

/-- `fd_t`. -/
structure Fd where
  /-- Function jump table; `none` is NULL. -/
  file_operation_table_ptr : Option FuncTable
  /-- Inode of a regular file, else 0. -/
  inode : Nat
  /-- Bytes or entries read so far. -/
  position : Nat
  /-- 0 when the descriptor is free. -/
  flags : Nat
  deriving DecidableEq

/-- A zeroed descriptor. -/
def Fd.free : Fd where
  file_operation_table_ptr := none
  inode := 0
  position := 0
  flags := 0

/-- The globals that the tables' functions use. -/
structure Devices where
  /-- RTC driver. -/
  rtc : Rtc
  /-- Keyboard and terminals. -/
  tty : Tty
  /-- Entry found by the last `file_open`. -/
  cur_dentry : Dentry
  /-- Entry found by the last `dir_open` or `dir_read`. -/
  cur_dir_dentry : Dentry

/-- The devices after boot. -/
def Devices.boot : Devices where
  rtc := Rtc.boot
  tty := ⟨Keyboard.boot, Console.boot.terminal_start⟩
  cur_dentry := { fname := fun _ => 0, file_type := 0, inode_index := 0 }
  cur_dir_dentry := { fname := fun _ => 0, file_type := 0, inode_index := 0 }

/-- The descriptor table of the calling process and the devices. -/
structure Task where
  /-- `pcb->fdt`. -/
  fdt : Fin 8 → Fd
  /-- The devices. -/
  devices : Devices

/-- What a call gives back. -/
structure Answer where
  /-- Return value. -/
  result : Int
  /-- Bytes stored from the start of the caller's buffer on. -/
  bytes : List UInt8
  /-- Table and devices afterwards. -/
  task : Task

/-- `find_table_point`. -/
def find_table_point (file_type : Nat) : Option FuncTable :=
  if file_type = 0 then some .rtc_func
  else if file_type = 1 then some .dir_func
  else if file_type = 2 then some .file_func
  else if file_type = 3 then some .terminal_func_in
  else if file_type = 4 then some .terminal_func_out
  else none

namespace Task

/-- Change one descriptor. -/
def setFd (task : Task) (fd : Fin 8) (entry : Fd) : Task :=
  { task with fdt := Function.update task.fdt fd entry }

/-- Change the devices. -/
def setDevices (task : Task) (devices : Devices) : Task := { task with devices }

end Task

/-! ## Opening -/

/-- `file_open`. -/
def file_open (image : Image) (fname : List UInt8) (devices : Devices) : Int × Devices :=
  let (found, cur_dentry) := read_dentry_by_name image fname devices.cur_dentry
  (if found = 0 ∧ cur_dentry.file_type = 2 then 0 else -1, { devices with cur_dentry })

/-- `dir_open`. -/
def dir_open (image : Image) (fname : List UInt8) (devices : Devices) : Int × Devices :=
  let (found, cur_dir_dentry) := read_dentry_by_name image fname devices.cur_dir_dentry
  (if found = 0 ∧ cur_dir_dentry.file_type = 1 then 0 else -1, { devices with cur_dir_dentry })

/-- The `open` of a jump table; `terminal_open` only returns 0. -/
def FuncTable.opened (table : FuncTable) (image : Image) (fname : List UInt8) (devices : Devices) :
    Int × Devices :=
  match table with
  | rtc_func => (0, { devices with rtc := devices.rtc.rtc_open })
  | dir_func => dir_open image fname devices
  | file_func => file_open image fname devices
  | terminal_func_in => (0, devices)
  | terminal_func_out => (0, devices)

/-- Descriptors that `open` may hand out, in the order of its loop. -/
def openable : List (Fin 8) := [2, 3, 4, 5, 6, 7]

/-- `open`.  The dentry on its stack is filled by a successful lookup before it is used, and what
the `open` of the table returns is not looked at. -/
def open_file (image : Image) (task : Task) (filename : List UInt8) : Option Answer :=
  match read_dentry_by_name image filename task.devices.cur_dentry with
  | (-1, _) => some ⟨-1, [], task⟩
  | (_, dentry) =>
      match openable.find? fun fd => (task.fdt fd).flags = 0 with
      | none => some ⟨-1, [], task⟩
      | some fd =>
          match find_table_point dentry.file_type with
          | none => none
          | some table =>
              let (_, devices) := table.opened image filename task.devices
              let entry : Fd :=
                { file_operation_table_ptr := some table
                  inode := if dentry.file_type = 2 then dentry.inode_index else 0
                  position := 0
                  flags := 1 }
              some ⟨fd, [], (task.setDevices devices).setFd fd entry⟩

/-! ## Reading -/

/-- `file_read`. -/
def file_read (image : Image) (task : Task) (fd : Fin 8) (buf_null : Bool) (nbytes : Int) :
    Answer :=
  if buf_null ∨ nbytes ≤ 0 then ⟨-1, [], task⟩
  else
    let entry := task.fdt fd
    let (bytes_ret_index, bytes) := read_data image entry.inode entry.position nbytes.toNat
    ⟨bytes_ret_index, bytes, task.setFd fd
      { entry with position := add32 entry.position (toUnsigned bytes_ret_index) }⟩

/-- `dir_read`: whatever the caller asks for, the whole name field is copied. -/
def dir_read (image : Image) (task : Task) (fd : Fin 8) (buf_null : Bool) (_nbytes : Int) :
    Answer :=
  if buf_null then ⟨-1, [], task⟩
  else if fd.val < 2 ∨ fd.val > 7 then ⟨-1, [], task⟩
  else
    let entry := task.fdt fd
    let offset := entry.position
    if offset ≥ image.num_dir_entry then ⟨0, [], task⟩
    else
      let current := task.devices.cur_dir_dentry
      let (_, _, cur_dir_dentry) := read_dentry_by_index image offset current current
      let length := cur_dir_dentry.fnameBytes.countP (· ≠ 0)
      let task := task.setDevices { task.devices with cur_dir_dentry }
      ⟨length, cur_dir_dentry.fnameBytes,
        task.setFd fd { entry with position := add32 entry.position 1 }⟩

/-- `rtc_read` as a system call. -/
def rtc_read (task : Task) : Option Answer :=
  task.devices.rtc.rtc_read.map fun rtc =>
    ⟨0, [], task.setDevices { task.devices with rtc }⟩

/-- `terminal_read` as a system call: `nbytes` is not looked at. -/
def terminal_read (task : Task) (buf_null : Bool) (_nbytes : Int) : Option Answer :=
  (task.devices.tty.console.terminal_read buf_null).map fun (result, bytes, console) =>
    ⟨result, bytes, task.setDevices
      { task.devices with tty := { task.devices.tty with console } }⟩

/-- The `read` of a jump table. -/
def FuncTable.read (table : FuncTable) (image : Image) (task : Task) (fd : Fin 8)
    (buf_null : Bool) (nbytes : Int) : Option Answer :=
  match table with
  | rtc_func => rtc_read task
  | dir_func => some (dir_read image task fd buf_null nbytes)
  | file_func => some (file_read image task fd buf_null nbytes)
  | terminal_func_in => terminal_read task buf_null nbytes
  | terminal_func_out => some ⟨-1, [], task⟩

/-- `read`. -/
def read (image : Image) (task : Task) (fd : Int) (buf_null : Bool) (nbytes : Int) :
    Option Answer :=
  if inside : 0 ≤ fd ∧ fd < 8 then
    let fd : Fin 8 := ⟨fd.toNat, by omega⟩
    if (task.fdt fd).flags = 0 then some ⟨-1, [], task⟩
    else
      match (task.fdt fd).file_operation_table_ptr with
      | none => some ⟨-1, [], task⟩
      | some table => table.read image task fd buf_null nbytes
  else
    some ⟨-1, [], task⟩

/-! ## Writing -/

/-- `rtc_write` as a system call: the rate is the first word of the buffer. -/
def rtc_write (task : Task) (buf : List UInt8) : Answer :=
  let rate := toSigned (littleEndian (buf.getD 0 0) (buf.getD 1 0) (buf.getD 2 0) (buf.getD 3 0))
  let (result, rtc) := task.devices.rtc.rtc_write rate
  ⟨result, [], task.setDevices { task.devices with rtc }⟩

/-- `terminal_write` as a system call. -/
def terminal_write (task : Task) (buf : List UInt8) (nbytes : Int) : Answer :=
  let (result, console) := task.devices.tty.console.terminal_write buf nbytes
  ⟨result, [], task.setDevices { task.devices with tty := { task.devices.tty with console } }⟩

/-- The `write` of a jump table; `buf` is the memory the caller's pointer leads to. -/
def FuncTable.write (table : FuncTable) (task : Task) (buf : List UInt8) (nbytes : Int) : Answer :=
  match table with
  | rtc_func => rtc_write task buf
  | dir_func => ⟨-1, [], task⟩
  | file_func => ⟨-1, [], task⟩
  | terminal_func_in => ⟨-1, [], task⟩
  | terminal_func_out => terminal_write task buf nbytes

/-- `write`. -/
def write (task : Task) (fd : Int) (buf : List UInt8) (nbytes : Int) : Answer :=
  if inside : 0 ≤ fd ∧ fd < 8 then
    let fd : Fin 8 := ⟨fd.toNat, by omega⟩
    if (task.fdt fd).flags = 0 then ⟨-1, [], task⟩
    else
      match (task.fdt fd).file_operation_table_ptr with
      | none => ⟨-1, [], task⟩
      | some table => table.write task buf nbytes
  else
    ⟨-1, [], task⟩

/-! ## Closing -/

/-- The `close` of a jump table: all of them only return 0. -/
def FuncTable.close (_table : FuncTable) : Int := 0

/-- `close`. -/
def close (task : Task) (fd : Int) : Answer :=
  if inside : 2 ≤ fd ∧ fd < 8 then
    let fd : Fin 8 := ⟨fd.toNat, by omega⟩
    let entry := task.fdt fd
    if entry.flags = 0 then ⟨-1, [], task⟩
    else
      match entry.file_operation_table_ptr with
      | none => ⟨-1, [], task⟩
      | some table => ⟨table.close, [], task.setFd fd { entry with flags := 0 }⟩
  else
    ⟨-1, [], task⟩

/-- `set_up_io_file`: descriptors 0 and 1 become stdin and stdout. -/
def set_up_io_file (fdt : Fin 8 → Fd) : Fin 8 → Fd :=
  let entry (file_type : Nat) : Fd :=
    { file_operation_table_ptr := find_table_point file_type
      inode := 0
      position := 0
      flags := 1 }
  Function.update (Function.update fdt 0 (entry 3)) 1 (entry 4)

end ComputerSystem
