import ComputerSystem.Descriptors

/-!
# Processes

`execute` and `real_halt`.  The kernel's tables, the process control blocks by their addresses, the
page-directory entry of the user program and the task state segment are explicit state.  What the
code leaves to the machine, the registers and the uninitialised part of a stack frame, comes with
the call as a `Frame`.
-/

namespace ComputerSystem

open CArray CString Word

/-- Processes are named by literals. -/
instance process_neZero : NeZero 6 := ⟨by decide⟩

/-- Entries of page tables are named by literals. -/
instance page_neZero : NeZero 1024 := ⟨by decide⟩

/-- Bottom of the user pages and top of the kernel page. -/
def EIGHT_MB : Int := 0x800000

/-- Size of a kernel stack with its PCB. -/
def EIGHT_KB : Int := 0x2000

/-- Bytes of a program image that are loaded. -/
def FOURTY_KB : Nat := 0xA000

/-- Offset of `USER_IMAGE` in the user page at 128 MB. -/
def USER_IMAGE_OFFSET : Nat := 0x48000

/-- Mask that leads from a kernel stack to its PCB. -/
def PCB_MASK : Nat := 0xFFFFE000

/-- Kernel data segment. -/
def KERNEL_DS : Nat := 0x18

/-- `elf_header`. -/
def elf_header : List UInt8 := [0x7F, 0x45, 0x4C, 0x46]

/-- `pcb_t`. -/
structure Pcb where
  /-- Descriptor table. -/
  fdt : Fin 8 → Fd
  /-- Process number. -/
  pid : Int
  /-- Saved EBP. -/
  ebp : Nat
  /-- Saved ESP. -/
  esp : Nat
  /-- Address of the parent's PCB; 0 is NULL. -/
  parent : Nat
  /-- Argument of the command. -/
  argument : Fin 128 → UInt8

/-- A zeroed PCB. -/
def Pcb.zero : Pcb where
  fdt := fun _ => Fd.free
  pid := 0
  ebp := 0
  esp := 0
  parent := 0
  argument := fun _ => 0

/-- `page_directory_t`. -/
structure PageDirectory where
  /-- Whether the page is present. -/
  present : Nat
  /-- Whether it can be written. -/
  R_W : Nat
  /-- Whether user code can use it. -/
  U_S : Nat
  /-- Write-through. -/
  PWT : Nat
  /-- Caching disabled. -/
  PCD : Nat
  /-- Accessed. -/
  A : Nat
  /-- Unused. -/
  Ignored : Nat
  /-- 1 for a 4 MB page. -/
  Size : Nat
  /-- Global. -/
  G : Nat
  /-- Free for the system. -/
  AVL : Nat
  /-- Bits 31 to 12 of the physical address. -/
  Addr31_12 : Nat

/-- The fields of the task state segment that the kernel changes. -/
structure Tss where
  /-- Kernel stack segment. -/
  ss0 : Nat
  /-- Kernel stack pointer on entry from user space. -/
  esp0 : Nat

/-- The kernel. -/
structure Kernel where
  /-- `process_arr`: 1 for the processes that exist. -/
  process_arr : Fin 6 → Int
  /-- `schedule_arr`. -/
  schedule_arr : Fin 3 → Int
  /-- The PCB at an address. -/
  pcb : Nat → Pcb
  /-- `page_dir`. -/
  page_dir : Fin 1024 → PageDirectory
  /-- `tss`. -/
  tss : Tss
  /-- Devices and physical memory. -/
  devices : Devices

/-- What a call of `execute` finds in its registers and in the uninitialised part of its frame. -/
structure Frame where
  /-- ESP when the parent's data is stored. -/
  esp : Nat
  /-- EBP when the parent's data is stored. -/
  ebp : Nat
  /-- Bytes behind `exe_command`. -/
  exe_tail : List UInt8
  /-- Bytes of `header_buf`. -/
  header_buf : List UInt8
  /-- `cur_dentry`. -/
  cur_dentry : Dentry

/-- A zeroed frame. -/
def Frame.zero : Frame where
  esp := 0
  ebp := 0
  exe_tail := []
  header_buf := []
  cur_dentry := { fname := fun _ => 0, file_type := 0, inode_index := 0 }

/-- The kernel before the first process, with the user page not mapped. -/
def Kernel.boot : Kernel where
  process_arr := fun _ => 0
  schedule_arr := fun _ => -1
  pcb := fun _ => Pcb.zero
  page_dir := fun _ =>
    { present := 0, R_W := 0, U_S := 0, PWT := 0, PCD := 0, A := 0, Ignored := 0, Size := 0, G := 0,
      AVL := 0, Addr31_12 := 0 }
  tss := { ss0 := KERNEL_DS, esp0 := 0x800000 }
  devices := Devices.boot

/-- How a call ends. -/
inductive Outcome
  /-- It returns to its caller. -/
  | returned (eax : Int)
  /-- `iret` into a new process. -/
  | started (pid : Fin 6) (entry_point : Nat)
  /-- It jumps to `halt_return` with these registers. -/
  | jumped (eax : Nat) (esp ebp : Nat)
  /-- It reads through a NULL pointer. -/
  | fault
  deriving DecidableEq

/-- The PCB of a process: the bottom of its kernel stack. -/
def pcbAddress (pid : Int) : Nat := toUnsigned (EIGHT_MB - (pid + 1) * EIGHT_KB)

/-- Kernel stack top of a process, less room for ESP. -/
def stackTop (pid : Int) : Nat := toUnsigned (EIGHT_MB - pid * EIGHT_KB - 4)

/-- `get_cur_pcb`: the address of the PCB whose stack ESP is on. -/
def get_cur_pcb (esp : Nat) : Nat := sub32 esp 4 &&& PCB_MASK

namespace Memory

/-- Store bytes from an address on. -/
def write (memory : Memory) (address : Nat) (bytes : List UInt8) : Memory :=
  fun a =>
    if address ≤ a ∧ a < address + bytes.length then bytes.getD (a - address) 0 else memory a

end Memory

namespace Kernel

/-- Change one PCB. -/
def modifyPcb (kernel : Kernel) (address : Nat) (f : Pcb → Pcb) : Kernel :=
  { kernel with pcb := Function.update kernel.pcb address (f (kernel.pcb address)) }

/-- Change the console. -/
def modifyConsole (kernel : Kernel) (f : Console → Console) : Kernel :=
  { kernel with
    devices := { kernel.devices with
      tty := { kernel.devices.tty with console := f kernel.devices.tty.console } } }

/-- The console. -/
def console (kernel : Kernel) : Console := kernel.devices.tty.console

/-- Physical memory. -/
def memory (kernel : Kernel) : Memory := kernel.console.screen.memory

/-- `printf` of a text without conversions. -/
def printf (kernel : Kernel) (text : String) : Kernel :=
  kernel.modifyConsole fun console => console.puts (text.toList.map fun c => c.toNat.toUInt8)

/-- `paging_set_up`: the 4 MB page at 128 MB maps the frame of a process. -/
def paging_set_up (kernel : Kernel) (process_num : Int) : Kernel :=
  let entry : PageDirectory :=
    { present := 1
      R_W := 1
      U_S := 1
      PWT := 0
      PCD := 0
      A := 0
      Ignored := 0
      Size := 1
      G := 1
      AVL := 0
      Addr31_12 := toUnsigned (0x800 + 0x400 * process_num) % 2 ^ 20 }
  { kernel with page_dir := Function.update kernel.page_dir 32 entry }

/-- Set the kernel stack of a process. -/
def setTss (kernel : Kernel) (pid : Int) : Kernel :=
  { kernel with tss := { ss0 := KERNEL_DS, esp0 := stackTop pid } }

/-- Physical address of `USER_IMAGE` under the current mapping. -/
def userImage (kernel : Kernel) : Nat :=
  (kernel.page_dir 32).Addr31_12 * 0x1000 + USER_IMAGE_OFFSET

/-- The calling process as a task. -/
def task (kernel : Kernel) (address : Nat) : Task where
  fdt := (kernel.pcb address).fdt
  devices := kernel.devices

/-- Table and devices after a call. -/
def setTask (kernel : Kernel) (address : Nat) (task : Task) : Kernel :=
  { kernel.modifyPcb address fun pcb => { pcb with fdt := task.fdt } with devices := task.devices }

end Kernel

/-! ## execute -/

/-- The result of the loop over the command. -/
structure Parsed where
  /-- Index at which it stopped. -/
  i : Nat
  /-- The characters of `exe_command`. -/
  exe_command : List UInt8
  /-- Whether a blank ended the name. -/
  flag1 : Bool

/-- The loop over the command for `remaining` more indices.  A NUL in front of the name is recorded
as its first character, and characters past the 32nd are skipped. -/
def parse_command (command : List UInt8) : Nat → Nat → List UInt8 → Parsed
  | 0, i, exe_command => ⟨i, exe_command, false⟩
  | remaining + 1, i, exe_command =>
      let c := command.getD i 0
      if c = SPACE ∧ exe_command.length = 0 then parse_command command remaining (i + 1) exe_command
      else if c = 0 ∧ exe_command.length ≠ 0 then ⟨i, exe_command, false⟩
      else if c ≠ SPACE ∧ exe_command.length < 32 then
        parse_command command remaining (i + 1) (exe_command ++ [c])
      else if c = SPACE ∧ exe_command.length ≠ 0 then ⟨i, exe_command, true⟩
      else parse_command command remaining (i + 1) exe_command

/-- The blanks skipped in front of the argument. -/
def argument_blanks (command : List UInt8) (i : Nat) : Nat :=
  ((command.drop i).takeWhile (· = SPACE)).length

/-- The argument that starts behind the blanks. -/
def argument_text (command : List UInt8) (i : Nat) : List UInt8 :=
  text (command.drop (i + argument_blanks command i))

/-- The stores into `pcb->argument`; an argument of more than 127 characters runs past the PCB. -/
def store_argument (argument : Fin 128 → UInt8) (bytes : List UInt8) : Fin 128 → UInt8 :=
  fun k => if k.val < bytes.length then bytes.getD k 0 else if k.val = bytes.length then 0
    else argument k

/-- The first slot that no process has, as the scan of `process_arr` finds it. -/
def Kernel.free_slot (kernel : Kernel) : Option (Fin 6) :=
  (List.finRange 6).find? fun i => kernel.process_arr i ≠ 1

/-- The check of the executable: the entry of the name and the magic number of its file. -/
def check_executable (image : Image) (frame : Frame) (exe_command : List UInt8) : Option Dentry :=
  let padding := List.replicate (32 - exe_command.length) 0
  match read_dentry_by_name image (exe_command ++ padding ++ frame.exe_tail) frame.cur_dentry with
  | (-1, _) => none
  | (_, cur_dentry) =>
      let bytes := (read_data image cur_dentry.inode_index 0 40).2
      let header_buf := bytes ++ frame.header_buf.drop bytes.length
      let check_buf := header_buf.take 4
      if strncmp check_buf elf_header 4 ≠ 0 then none else some cur_dentry

/-- Taking the slot, mapping its page and copying the file to `USER_IMAGE`. -/
def Kernel.load_program (image : Image) (kernel : Kernel) (cur_pid : Fin 6) (cur_dentry : Dentry) :
    Kernel :=
  let kernel := { kernel with process_arr := store kernel.process_arr cur_pid 1 }
  let kernel := kernel.paging_set_up cur_pid
  let bytes := (read_data image cur_dentry.inode_index 0 FOURTY_KB).2
  kernel.modifyConsole fun console =>
    { console with screen := { console.screen with
      memory := console.screen.memory.write kernel.userImage bytes } }

/-- Number and parent of the new process; the registers are saved in the parent's PCB.  An entry of
`schedule_arr` that is no pid is taken for that of a PCB all the same; `BootModule.Saves` says where
its words are nobody's. -/
def Kernel.initiate_pcb (kernel : Kernel) (frame : Frame) (cur_pid : Fin 6) : Kernel :=
  let address := pcbAddress cur_pid
  let kernel := kernel.modifyPcb address fun pcb => { pcb with pid := cur_pid }
  if cur_pid.val ≤ 2 then kernel.modifyPcb address fun pcb => { pcb with parent := 0 }
  else
    let parent := pcbAddress (kernel.schedule_arr kernel.console.cur_term_idx)
    let kernel := kernel.modifyPcb address fun pcb => { pcb with parent }
    kernel.modifyPcb parent fun pcb => { pcb with esp := frame.esp, ebp := frame.ebp }

/-- `schedule_arr[cur_term_idx] = i` and `term[i].pcb_idx = i`.  From index 3 on the second store
only counts as past `term`; `BootModule.Takes` says where it overwrites nothing. -/
def Kernel.record_index (kernel : Kernel) (i : Nat) : Kernel :=
  let kernel :=
    { kernel with schedule_arr := store kernel.schedule_arr kernel.console.cur_term_idx i }
  kernel.modifyConsole fun console => console.storePcbIdx i i

/-- The second half of `execute`, which starts a process.  `i` is the index that the scan of the
command left behind. -/
def start_process (image : Image) (kernel : Kernel) (frame : Frame) (cur_pid : Fin 6)
    (cur_dentry : Dentry) (i : Nat) : Outcome × Kernel :=
  let kernel := kernel.load_program image cur_pid cur_dentry
  let entry_point_start := kernel.userImage + 24
  let entry_point := littleEndian (kernel.memory entry_point_start)
    (kernel.memory (entry_point_start + 1)) (kernel.memory (entry_point_start + 2))
    (kernel.memory (entry_point_start + 3))
  let kernel := kernel.initiate_pcb frame cur_pid
  let kernel := kernel.record_index i
  let kernel := kernel.modifyPcb (pcbAddress cur_pid) fun pcb =>
    { pcb with fdt := set_up_io_file pcb.fdt }
  (.started cur_pid entry_point, kernel.setTss cur_pid)

/-- `execute`; the command is the memory from the pointer on, or NULL. -/
def execute (image : Image) (kernel : Kernel) (frame : Frame) (command : Option (List UInt8)) :
    Outcome × Kernel :=
  match kernel.free_slot with
  | none =>
      (.returned 0, kernel.printf
        "Hushen: There are already 6 processes running, cannot open new process\n")
  | some cur_pid =>
      match command with
      | none => (.returned (-1), kernel)
      | some command =>
          let parsed := parse_command command 128 0 []
          let argument := if parsed.flag1 then argument_text command parsed.i else []
          let i :=
            if parsed.flag1 then parsed.i + argument_blanks command parsed.i + argument.length
            else parsed.i
          let kernel := kernel.modifyPcb (pcbAddress cur_pid) fun pcb =>
            { pcb with argument := store_argument pcb.argument argument }
          match check_executable image frame parsed.exe_command with
          | none => (.returned (-1), kernel)
          | some cur_dentry => start_process image kernel frame cur_pid cur_dentry i

/-- The command that starts a shell. -/
def shell : List UInt8 := [115, 104, 101, 108, 108]

/-! ## halt -/

namespace Kernel

/-- The loop that closes descriptors 2 to 7. -/
def close_files (kernel : Kernel) (address : Nat) : Kernel :=
  openable.foldl
    (fun kernel fd_index =>
      if ((kernel.pcb address).fdt fd_index).flags ≠ 0 then
        kernel.setTask address (close (kernel.task address) fd_index).task
      else
        kernel)
    kernel

/-- The start of `real_halt`: slot, descriptors and argument of the process are given up. -/
def release (kernel : Kernel) (address : Nat) : Kernel :=
  let cur_pid := (kernel.pcb address).pid
  let kernel := { kernel with process_arr := store kernel.process_arr cur_pid 0 }
  let kernel := kernel.modifyPcb address fun pcb =>
    { pcb with
      fdt := fun fd => if fd.val < 2 then { pcb.fdt fd with flags := 0 } else pcb.fdt fd }
  let kernel := kernel.close_files address
  kernel.modifyPcb address fun pcb => { pcb with argument := fun _ => 0 }

/-- The end of `real_halt`: back into the frame in which the parent called `execute`. -/
def halt_return (kernel : Kernel) (address : Nat) (ret_value : Nat) : Outcome × Kernel :=
  let parent := (kernel.pcb address).parent
  if parent = 0 then (.fault, kernel)
  else
    let cur_pid := (kernel.pcb parent).pid
    let kernel := (kernel.paging_set_up cur_pid).setTss cur_pid
    (.jumped ret_value (kernel.pcb parent).esp (kernel.pcb parent).ebp, kernel)

end Kernel

/-- `real_halt`, called with ESP `esp`; `frame` is that of the `execute` it may call. -/
def real_halt (image : Image) (kernel : Kernel) (esp : Nat) (frame : Frame) (status : Nat) :
    Outcome × Kernel :=
  let address := get_cur_pcb esp
  let cur_pid := (kernel.pcb address).pid
  let kernel := kernel.release address
  if cur_pid ≤ 2 then
    let kernel := kernel.printf "Quiting last shell is prohibited by Xushen\n"
    match execute image kernel frame (some shell) with
    | (.started pid entry_point, kernel) => (.started pid entry_point, kernel)
    | (_, kernel) => kernel.halt_return address status
  else
    kernel.halt_return address status

/-- `halt`. -/
def halt (image : Image) (kernel : Kernel) (esp : Nat) (frame : Frame) (status : UInt8) :
    Outcome × Kernel :=
  real_halt image kernel esp frame status.toNat

end ComputerSystem
