import ComputerSystem.Directory
import ComputerSystem.SequentialRead
import ComputerSystem.UserCalls

/-!
# What user programs print

Most calls are decided by the descriptors of the process alone, whatever the devices do.  `Prints`
builds on that: it gives the text a program prints in every run, and its rules follow the program
call by call.
-/

namespace ComputerSystem

open CString Word

/-! ## Calls whose answer the descriptors decide -/

/-- A descriptor on a regular file. -/
def Fd.regular (inode position : Nat) : Fd where
  file_operation_table_ptr := some .file_func
  inode := inode
  position := position
  flags := 1

/-- A descriptor on a directory. -/
def Fd.directory (position : Nat) : Fd where
  file_operation_table_ptr := some .dir_func
  inode := 0
  position := position
  flags := 1

theorem Fd.ofDentry_regular {dentry : Dentry} (regular : dentry.file_type = 2) :
    Fd.ofDentry dentry = Fd.regular dentry.inode_index 0 := by
  simp [Fd.ofDentry, Fd.regular, regular, find_table_point]

theorem Fd.ofDentry_directory {dentry : Dentry} (directory : dentry.file_type = 1) :
    Fd.ofDentry dentry = Fd.directory 0 := by
  simp [Fd.ofDentry, Fd.directory, directory, find_table_point]

theorem update_stdout {fdt : Fin 8 → Fd} (stdout : fdt 1 = Fd.stdout) {fd : Fin 8}
    (from_two : 2 ≤ fd) (entry : Fd) : Function.update fdt fd entry 1 = Fd.stdout := by
  rw [Function.update_of_ne, stdout]
  rintro rfl
  exact absurd from_two (by decide)

/-- Whatever the devices do within what is known of them, a call gives this reply and leaves these
descriptors; it puts on the console what it prints. -/
def Answers (image : Image) (known : Devices → Prop) (fdt : Fin 8 → Fd) (syscall : Syscall)
    (reply : Reply) (after : Fin 8 → Fd) : Prop :=
  ∀ devices, known devices → ∃ answer,
    (⟨fdt, devices⟩ : Task).call image syscall = some answer ∧
    (⟨answer.result, answer.bytes⟩ : Reply) = reply ∧ answer.task.fdt = after ∧
    answer.task.devices.tty.console =
      devices.tty.console.puts (displayed [(.descriptor syscall, reply)])

section answers

variable {image : Image} {known : Devices → Prop} {fdt : Fin 8 → Fd}

theorem terminal_write_puts (console : Console) (buf : List UInt8) (nbytes : Int) :
    (console.terminal_write buf nbytes).2 = console.puts (leading buf nbytes.toNat) := by
  rw [Console.terminal_write, Console.puts, leading, List.foldl_map]

theorem displayed_write (buf : List UInt8) (nbytes : Int) (reply : Reply) :
    displayed [(.descriptor (.write 1 buf nbytes), reply)] = leading buf nbytes.toNat := by
  rw [displayed, if_pos rfl, displayed, List.append_nil]

theorem answers_write_stdout (stdout : fdt 1 = Fd.stdout) (buf : List UInt8) (nbytes : Int) :
    Answers image known fdt (.write 1 buf nbytes) ⟨nbytes, []⟩ fdt := by
  intro devices _
  refine ⟨terminal_write ⟨fdt, devices⟩ buf nbytes, ?_, rfl, rfl, ?_⟩
  · rw [Task.call, write, dif_pos (by decide)]
    simp only [Int.toNat_one, Fin.mk_one, stdout, Fd.stdout, one_ne_zero, if_false,
      FuncTable.write]
  · rw [displayed_write, ← terminal_write_puts]
    rfl

theorem answers_read {fd : Fin 8} (in_use : (fdt fd).flags ≠ 0) {table : FuncTable}
    (table_eq : (fdt fd).file_operation_table_ptr = some table) {nbytes : Int} {reply : Reply}
    {after : Fin 8 → Fd}
    (answered : ∀ devices, known devices → ∃ answer,
      table.read image ⟨fdt, devices⟩ fd false nbytes = some answer ∧
        (⟨answer.result, answer.bytes⟩ : Reply) = reply ∧ answer.task.fdt = after ∧
        answer.task.devices.tty.console = devices.tty.console) :
    Answers image known fdt (.read fd false nbytes) reply after := by
  intro devices holds
  obtain ⟨answer, returned, rest⟩ := answered devices holds
  have opened : (⟨fdt, devices⟩ : Task).Open fd := in_use
  exact ⟨answer, (read_open image false nbytes opened table_eq).trans returned, rest⟩

theorem answers_read_file (well : image.WellFormed) {fd : Fin 8} {inode position : Nat}
    (entry : fdt fd = Fd.regular inode position) (valid : inode < image.num_inodes)
    (inside : position ≤ image.length inode) {nbytes : Int} (positive : 0 < nbytes)
    (small : nbytes < 2 ^ 31) :
    let chunk := ((image.file inode).drop position).take nbytes.toNat
    Answers image known fdt (.read fd false nbytes) ⟨chunk.length, chunk⟩
      (Function.update fdt fd (Fd.regular inode (position + chunk.length))) := by
  intro chunk
  have chunk_length : chunk.length = min nbytes.toNat (image.length inode - position) := by
    simp only [chunk, List.length_take, List.length_drop, Image.file_length]
  refine answers_read (by rw [entry]; exact one_ne_zero) (by rw [entry]; rfl) fun devices _ => ?_
  have entry_here : (⟨fdt, devices⟩ : Task).fdt fd = Fd.regular inode position := entry
  have read_eq := @file_read_in_file image well ⟨fdt, devices⟩ fd nbytes positive small
    (by rw [entry_here]; exact valid) (by rw [entry_here]; exact inside)
  refine ⟨_, congrArg some read_eq, ?_, ?_, rfl⟩
  · rw [chunk_length]
    simp only [entry, Fd.regular, chunk]
  · rw [chunk_length]
    simp only [Task.setFd, entry, Fd.regular]

theorem answers_read_directory (named : image.Named) {fd : Fin 8} (from_two : 2 ≤ fd)
    {position : Nat} (entry : fdt fd = Fd.directory position)
    (inside : position < image.num_dir_entry) (nbytes : Int) :
    Answers image known fdt (.read fd false nbytes)
      ⟨(image.dir_entries position).name.length, (image.dir_entries position).fnameBytes⟩
      (Function.update fdt fd (Fd.directory (position + 1))) := by
  refine answers_read (by rw [entry]; exact one_ne_zero) (by rw [entry]; rfl) fun devices _ =>
    ⟨_, rfl, ?_⟩
  have entries_le := named.entries_le
  have within : ¬(fd.val < 2 ∨ fd.val > 7) := by omega
  have found : ¬image.num_dir_entry < position := by omega
  have here := image.dir_entries_mem inside
  rw [dir_read, if_neg Bool.false_ne_true, if_neg within]
  simp only [entry, Fd.directory, ge_iff_le, not_le.mpr inside, if_false, read_dentry_by_index,
    if_neg found, countP_name (named.padded _ here), true_and]
  rw [add32_of_lt (by omega)]
  exact ⟨rfl, rfl⟩

/-- Behind the last entry a read on a directory gives nothing. -/
theorem answers_read_directory_end {fd : Fin 8} (from_two : 2 ≤ fd) {position : Nat}
    (entry : fdt fd = Fd.directory position) (past : image.num_dir_entry ≤ position)
    (nbytes : Int) : Answers image known fdt (.read fd false nbytes) ⟨0, []⟩ fdt := by
  refine answers_read (by rw [entry]; exact one_ne_zero) (by rw [entry]; rfl) fun devices _ =>
    ⟨_, rfl, ?_⟩
  have within : ¬(fd.val < 2 ∨ fd.val > 7) := by omega
  rw [dir_read, if_neg Bool.false_ne_true, if_neg within]
  simp only [entry, Fd.directory, ge_iff_le, past, if_true, and_self]

/-- A read on the clock that finds the tick reached. -/
theorem answers_read_clock (ticked : ∀ devices, known devices →
      devices.rtc.freq_ctr = devices.rtc.freq_val) {fd : Fin 8} (in_use : (fdt fd).flags ≠ 0)
    (table : (fdt fd).file_operation_table_ptr = some .rtc_func) (nbytes : Int) :
    Answers image known fdt (.read fd false nbytes) ⟨0, []⟩ fdt := by
  refine answers_read in_use table fun devices holds => ?_
  let rtc : Rtc := { devices.rtc with freq_ctr := 0 }
  refine ⟨⟨0, [], ⟨fdt, { devices with rtc }⟩⟩, ?_, rfl, rfl, rfl⟩
  rw [FuncTable.read, rtc_read, Rtc.rtc_read, if_pos (ticked devices holds)]
  rfl

theorem answers_write_clock {fd : Fin 8} (not_stdout : (fd : Int) ≠ 1)
    (in_use : (fdt fd).flags ≠ 0)
    (table : (fdt fd).file_operation_table_ptr = some .rtc_func) (buf : List UInt8) (nbytes : Int)
    (accepted : ∀ devices, (rtc_write ⟨fdt, devices⟩ buf).result = 0) :
    Answers image known fdt (.write fd buf nbytes) ⟨0, []⟩ fdt := by
  intro devices _
  have inside : 0 ≤ (fd : Int) ∧ (fd : Int) < 8 := by omega
  have nothing : displayed [(.descriptor (.write fd buf nbytes), ⟨0, []⟩)] = [] := by
    rw [displayed, if_neg not_stdout]
    rfl
  refine ⟨rtc_write ⟨fdt, devices⟩ buf, ?_, ?_, rfl, ?_⟩
  · rw [Task.call, write, dif_pos inside]
    simp only [Int.toNat_natCast, Fin.eta, if_neg in_use, table, FuncTable.write]
  · rw [accepted]
    rfl
  · rw [nothing]
    rfl

theorem answers_open_missing {filename : List UInt8}
    (missing : image.lookup (text filename) = none) :
    Answers image known fdt (.open_file filename) ⟨-1, []⟩ fdt := by
  intro devices _
  obtain ⟨-, failed⟩ | ⟨dentry, fd, found, -⟩ := open_file_lookup image ⟨fdt, devices⟩ filename
  · exact ⟨_, failed, rfl, rfl, rfl⟩
  · rw [missing] at found
    cases found

theorem FuncTable.opened_tty (table : FuncTable) (image : Image) (fname : List UInt8)
    (devices : Devices) : (table.opened image fname devices).2.tty = devices.tty := by
  cases table <;> rfl

theorem answers_open {filename : List UInt8} {dentry : Dentry}
    (found : image.lookup (text filename) = some dentry) (type_le : dentry.file_type ≤ 2)
    {fd : Fin 8} (from_two : 2 ≤ fd) (free : (fdt fd).flags = 0)
    (lowest : ∀ k, 2 ≤ k → k < fd → (fdt k).flags ≠ 0) :
    Answers image known fdt (.open_file filename) ⟨fd, []⟩
      (Function.update fdt fd (Fd.ofDentry dentry)) := by
  intro devices _
  obtain ⟨table, table_eq⟩ := find_table_point_of_le type_le
  obtain ⟨missing, -⟩ | ⟨other, chosen, other_found, chosen_lowest, opened⟩ :=
    open_file_lookup image ⟨fdt, devices⟩ filename
  · rw [found, Task.lowest_eq_none] at missing
    exact absurd free (missing.resolve_left (Option.some_ne_none _) fd from_two)
  · obtain rfl := Option.some.inj (found.symm.trans other_found)
    obtain ⟨chosen_from_two, chosen_free, chosen_first⟩ := Task.lowest_spec chosen_lowest
    have same : chosen = fd := by
      rcases lt_trichotomy chosen fd with below | same | above
      · exact absurd (lowest chosen chosen_from_two below) chosen_free
      · exact same
      · exact absurd free (chosen_first fd from_two above)
    subst same
    rw [table_eq] at opened
    exact ⟨_, opened, rfl, rfl, congrArg Tty.console (table.opened_tty image filename devices)⟩

theorem answers_close {fd : Fin 8} (from_two : 2 ≤ fd) (in_use : (fdt fd).flags ≠ 0)
    (has_table : (fdt fd).file_operation_table_ptr ≠ none) :
    Answers image known fdt (.close fd) ⟨0, []⟩
      (Function.update fdt fd { fdt fd with flags := 0 }) := by
  intro devices _
  let task : Task := ⟨fdt, devices⟩
  have closed := @close_open task fd from_two in_use has_table
  exact ⟨_, congrArg some closed, rfl, rfl, rfl⟩

theorem answers_close_closed {fd : Int}
    (closed : ∀ k : Fin 8, (k : Int) = fd → 2 ≤ k → (fdt k).flags = 0) :
    Answers image known fdt (.close fd) ⟨-1, []⟩ fdt := by
  intro devices _
  let task : Task := ⟨fdt, devices⟩
  have refused := @close_closed task fd fun k same from_two =>
    not_not.mpr (closed k same from_two)
  exact ⟨_, congrArg some refused, rfl, rfl, rfl⟩

theorem answers_close_no_table {fd : Fin 8} (no_table : (fdt fd).file_operation_table_ptr = none) :
    Answers image known fdt (.close fd) ⟨-1, []⟩ fdt := by
  intro devices _
  have refused : close ⟨fdt, devices⟩ fd = ⟨-1, [], ⟨fdt, devices⟩⟩ := by
    rw [close]
    split_ifs <;> simp [no_table]
  exact ⟨_, congrArg some refused, rfl, rfl, rfl⟩

end answers

/-! ## What programs print -/

/-- A call of a process reads the clock. -/
def System.ReadsClock (esp : Nat) (system : System) : UserCall → Prop
  | .descriptor (.read fd _ _) => ∃ k : Fin 8, (k : Int) = fd ∧
      ((system.kernel.pcb (get_cur_pcb esp)).fdt k).file_operation_table_ptr = some .rtc_func
  | _ => False

instance (esp : Nat) (system : System) (call : UserCall) : Decidable (system.ReadsClock esp call) :=
  match call with
  | .descriptor (.read _ _ _) => inferInstanceAs (Decidable (∃ _, _ ∧ _))
  | .descriptor (.open_file _) | .descriptor (.write _ _ _) | .descriptor (.close _)
  | .getargs _ | .execute _ | .vidmap _ | .number _ => isFalse id

/-- A read of the clock finds it ticked: the interrupts since the last read are as many as the rate
asks for. -/
def System.Ticked (esp : Nat) (system : System) (call : UserCall) : Prop :=
  system.ReadsClock esp call →
    system.kernel.devices.rtc.freq_ctr = system.kernel.devices.rtc.freq_val

/-- The interrupts of the clock up to the next tick. -/
def System.tick (system : System) : System :=
  { system with kernel := { system.kernel with devices := { system.kernel.devices with
      rtc := { system.kernel.devices.rtc with freq_ctr := system.kernel.devices.rtc.freq_val } } } }

/-- A call waits for the clock if it reads it. -/
def System.wait (esp : Nat) (call : UserCall) (system : System) : System :=
  if system.ReadsClock esp call then system.tick else system

theorem System.elsewhere_wait (esp : Nat) (call : UserCall) (system : System) :
    system.Elsewhere esp (system.wait esp call) := by
  rw [wait]
  split_ifs <;> exact ⟨rfl, rfl⟩

theorem System.ticked_wait (esp : Nat) (call : UserCall) (system : System) :
    (system.wait esp call).Ticked esp call := by
  rw [wait]
  split_ifs with reads
  · exact fun _ => rfl
  · exact fun again => absurd again reads


/-- A process, with what its calls depend on beside its descriptors. -/
structure UserProcess where
  /-- The file system. -/
  image : Image
  /-- ESP on its kernel stack. -/
  esp : Nat
  /-- Calls that are answered elsewhere. -/
  others : System → UserCall → Option (Reply × System)
  /-- Its argument. -/
  argument : Fin 128 → UInt8
  /-- What is known of the system when it makes a call. -/
  known : UserCall → System → Prop

namespace UserProcess

open Dialogue

variable {Result Final : Type}

/-- Run a program of the process; `disturb n call` is what happens elsewhere before call number `n`,
which is `call`. -/
def run (process : UserProcess) (program : Dialogue UserCall Reply Result)
    (disturb : Nat → UserCall → System → System) (system : System) :
    List (UserCall × Reply) × Ending UserCall Result System :=
  program.run (System.reply process.image process.esp process.others) disturb system

/-- What may happen elsewhere before a call of the process. -/
def Allows (process : UserProcess) (call : UserCall) (system changed : System) : Prop :=
  system.Elsewhere process.esp changed ∧ process.known call changed

/-- From these descriptors on the program ends, whatever happens elsewhere between its calls: it
prints the text, returns the result and leaves the descriptors `after`.  If the console is left
alone meanwhile, the text is what comes to stand on it. -/
def Prints (process : UserProcess) (program : Dialogue UserCall Reply Result)
    (text : List UInt8) (result : Result) (fdt after : Fin 8 → Fd) : Prop :=
  ∀ (Change : UserCall → System → System → Prop),
    (∀ call system changed, Change call system changed → process.Allows call system changed) →
    ∀ system, system.Owned process.esp fdt process.argument →
      program.Ensures (System.reply process.image process.esp process.others) Change
        (Ending.Finishes fun log returned last =>
          displayed log = text ∧ returned = result ∧ last.Owned process.esp after process.argument ∧
          ((∀ call system changed, Change call system changed →
              changed.console = system.console) →
            last.console = system.console.puts text))
        system

variable {process : UserProcess} {fdt middle after : Fin 8 → Fd}

theorem Prints.run {program : Dialogue UserCall Reply Result} {text : List UInt8} {result : Result}
    (prints : process.Prints program text result fdt after) {system : System}
    (owned : system.Owned process.esp fdt process.argument)
    {disturb : Nat → UserCall → System → System}
    (elsewhere : ∀ n call system, process.Allows call system (disturb n call system)) :
    ∃ log last, process.run program disturb system = (log, .finished result last) ∧
      displayed log = text ∧
      ((∀ n call system, (disturb n call system).console = system.console) →
        last.console = system.console.puts text) := by
  let Change (call : UserCall) (system changed : System) : Prop :=
    ∃ n, changed = disturb n call system
  have allowed : ∀ call system changed, Change call system changed →
      process.Allows call system changed := by
    rintro call system changed ⟨n, rfl⟩
    exact elsewhere n call system
  obtain ⟨log, returned, last, ran, text_eq, rfl, -, shown⟩ :=
    (prints Change allowed system owned).run_finishes fun n call system => ⟨n, rfl⟩
  refine ⟨log, last, ran, text_eq, fun alone => shown ?_⟩
  rintro call system changed ⟨n, rfl⟩
  exact alone n call system

theorem Prints.of_eq {program : Dialogue UserCall Reply Result} {text other : List UInt8}
    {result : Result} (prints : process.Prints program text result fdt after)
    (same : text = other) : process.Prints program other result fdt after := same ▸ prints

theorem prints_done (result : Result) : process.Prints (done result) [] result fdt fdt :=
  fun _ _ _ owned => ⟨rfl, rfl, owned, fun _ => rfl⟩

theorem Prints.bind {first : Dialogue UserCall Reply Result}
    {second : Result → Dialogue UserCall Reply Final} {text rest : List UInt8} {result : Result}
    {final : Final} (before : process.Prints first text result fdt middle)
    (behind : process.Prints (second result) rest final middle after) :
    process.Prints (first >>= second) (text ++ rest) final fdt after := by
  intro Change allowed system owned
  refine (before Change allowed system owned).bind_finishes ?_
  rintro log returned last ⟨rfl, rfl, owned, shown⟩
  refine (behind Change allowed last owned).finishes_mono ?_
  rintro more final last ⟨rfl, rfl, owned, shown_behind⟩
  refine ⟨displayed_append log more, rfl, owned, fun alone => ?_⟩
  rw [shown_behind alone, shown alone, Console.puts, Console.puts, Console.puts, List.foldl_append]

theorem Prints.silent {first : Dialogue UserCall Reply Result}
    {second : Result → Dialogue UserCall Reply Final} {text : List UInt8} {result : Result}
    {final : Final} (before : process.Prints first [] result fdt middle)
    (behind : process.Prints (second result) text final middle after) :
    process.Prints (first >>= second) text final fdt after := before.bind behind

/-- Devices that the process may find when it makes a call with these descriptors. -/
def Finds (process : UserProcess) (fdt : Fin 8 → Fd) (call : UserCall) (devices : Devices) : Prop :=
  ∃ system : System, system.Owned process.esp fdt process.argument ∧
    process.known call system ∧ system.kernel.devices = devices

/-- A call that is answered the same in all the states that may have come about. -/
theorem prints_request {call : UserCall} {reply : Reply}
    (answered : ∀ system : System, system.Owned process.esp fdt process.argument →
      process.known call system → ∃ last : System,
        system.reply process.image process.esp process.others call = some (reply, last) ∧
          last.Owned process.esp after process.argument ∧
          last.console = system.console.puts (displayed [(call, reply)])) :
    process.Prints (request call) (displayed [(call, reply)]) reply fdt after := by
  intro Change allowed system owned
  refine Ensures.ask fun changed change => ?_
  obtain ⟨⟨fdt_eq, argument_eq⟩, holds⟩ := allowed call system changed change
  obtain ⟨last, answer, owned, shown⟩ :=
    answered changed ⟨fdt_eq.trans owned.1, argument_eq.trans owned.2⟩ holds
  exact ⟨reply, last, answer, rfl, rfl, owned, fun alone =>
    alone call system changed change ▸ shown⟩

/-- The reply to a call whose answer the descriptors decide. -/
theorem reply_descriptor {syscall : Syscall} {reply : Reply}
    (answers : Answers process.image (process.Finds fdt (.descriptor syscall)) fdt syscall reply
      after)
    {system : System} (owned : system.Owned process.esp fdt process.argument)
    (holds : process.known (.descriptor syscall) system) :
    ∃ last : System,
      system.reply process.image process.esp process.others (.descriptor syscall) =
        some (reply, last) ∧
      last.Owned process.esp after process.argument ∧
      last.console = system.console.puts (displayed [(.descriptor syscall, reply)]) := by
  have found := answers system.kernel.devices ⟨system, owned, holds, rfl⟩
  obtain ⟨fdt_eq, argument_eq⟩ := owned
  subst fdt_eq
  obtain ⟨answer, returned, rfl, rfl, shown⟩ := found
  refine ⟨{ system with kernel := system.kernel.setTask (get_cur_pcb process.esp) answer.task },
    by rw [System.reply, Kernel.task, returned]; rfl, ⟨?_, ?_⟩, shown⟩
  · simp only [Kernel.setTask, Kernel.modifyPcb, Function.update_self]
  · simp only [Kernel.setTask, Kernel.modifyPcb, Function.update_self, argument_eq]

/-- A call whose answer the descriptors decide. -/
theorem prints_descriptor {syscall : Syscall} {reply : Reply}
    (answers : Answers process.image (process.Finds fdt (.descriptor syscall)) fdt syscall reply
      after) :
    process.Prints (request (.descriptor syscall)) (displayed [(.descriptor syscall, reply)]) reply
      fdt after :=
  prints_request fun _ owned holds => reply_descriptor answers owned holds

/-- A read of the clock that is known to find it ticked. -/
theorem prints_read_clock
    (ticks : ∀ call system, process.known call system → system.Ticked process.esp call) {fd : Fin 8}
    (in_use : (fdt fd).flags ≠ 0) (table : (fdt fd).file_operation_table_ptr = some .rtc_func)
    (nbytes : Int) :
    process.Prints (request (.descriptor (.read fd false nbytes))) [] ⟨0, []⟩ fdt fdt := by
  refine prints_descriptor (answers_read_clock ?_ in_use table nbytes)
  rintro devices ⟨system, ⟨fdt_eq, -⟩, holds, rfl⟩
  refine ticks _ system holds ⟨fd, rfl, ?_⟩
  rw [fdt_eq]
  exact table

theorem prints_write (stdout : fdt 1 = Fd.stdout) (buf : List UInt8) (nbytes : Int) :
    process.Prints (request (.descriptor (.write 1 buf nbytes))) (leading buf nbytes.toNat)
      ⟨nbytes, []⟩ fdt fdt := by
  exact (prints_descriptor (answers_write_stdout stdout buf nbytes)).of_eq (displayed_write ..)

theorem prints_fdputs (stdout : fdt 1 = Fd.stdout) (s : List UInt8) :
    process.Prints (ece391_fdputs 1 s) (CString.text s) () fdt fdt := by
  refine ((prints_write stdout s _).bind (prints_done ())).of_eq ?_
  rw [List.append_nil, Int.toNat_natCast, leading_strlen]

theorem prints_message (stdout : fdt 1 = Fd.stdout) {message : List UInt8}
    (whole : CString.text message = message) (result : Result) :
    process.Prints (do ece391_fdputs 1 message; pure result) message result fdt fdt := by
  refine ((prints_fdputs stdout message).bind (prints_done result)).of_eq ?_
  rw [whole, List.append_nil]

theorem prints_getargs {argument : List UInt8} {behind : List UInt8}
    (solid : ∀ c ∈ argument, c ≠ 0)
    (argument_eq : List.ofFn process.argument = argument ++ 0 :: behind) {nbytes : Int}
    (positive : 0 < nbytes) :
    process.Prints (request (.getargs nbytes)) []
      (if argument = [] then ⟨-1, []⟩ else ⟨0, argument ++ [0]⟩) fdt fdt := by
  refine prints_request fun system owned _ => ⟨system, ?_, owned, rfl⟩
  have asked : ¬((false : Bool) = true ∨ nbytes ≤ 0) := by simp; omega
  have first : process.argument 0 = (argument ++ 0 :: behind).getD 0 0 := by
    rw [← argument_eq, List.ofFn_succ]
    rfl
  rw [System.reply, Kernel.getargs, if_neg asked]
  simp only [owned.2, argument_eq, getargs_loop_append solid, first]
  cases argument with
  | nil => rfl
  | cons c argument =>
      have not_nul : c ≠ 0 := solid c List.mem_cons_self
      simp [not_nul]

end UserProcess

end ComputerSystem
