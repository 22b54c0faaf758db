import ComputerSystem.UserPrograms

/-!
# cat and ls

The two programs read until a read returns 0.  Each loop is followed along the position of its
descriptor: what is left to print is the file, or the list of names, from there on.
-/

namespace ComputerSystem

open CString Dialogue UserProcess

/-! ## The programs -/

/-- The loop of `ece391cat`, for at most so many rounds. -/
def cat_loop (fd : Int) : Nat → List UInt8 → Dialogue UserCall Reply Int
  | 0, _ => spent
  | rounds + 1, buf => do
      let got ← request (.descriptor (.read fd false 1024))
      let buf := overwrite buf 0 got.bytes
      let cnt := got.result
      if cnt = 0 then pure 0
      else if cnt = -1 then do
        ece391_fdputs 1 (bytes "file read failed\n")
        pure 3
      else do
        let put ← request (.descriptor (.write 1 buf cnt))
        if put.result = -1 then pure 3 else cat_loop fd rounds buf

/-- `main` of `ece391cat`; `buf` starts with whatever is on the stack. -/
def cat_main (rounds : Nat) (buf : List UInt8) : Dialogue UserCall Reply Int := do
  let got ← request (.getargs 1024)
  let buf := overwrite buf 0 got.bytes
  if got.result ≠ 0 then do
    ece391_fdputs 1 (bytes "could not read arguments\n")
    pure 3
  else do
    let opened ← request (.descriptor (.open_file buf))
    if opened.result = -1 then do
      ece391_fdputs 1 (bytes "file not found\n")
      pure 2
    else cat_loop opened.result rounds buf

/-- The loop of `ece391ls`, for at most so many rounds. -/
def ls_loop (fd : Int) : Nat → List UInt8 → Dialogue UserCall Reply Int
  | 0, _ => spent
  | rounds + 1, buf => do
      let got ← request (.descriptor (.read fd false 32))
      let buf := overwrite buf 0 got.bytes
      let cnt := got.result
      if cnt = 0 then pure 0
      else if cnt = -1 then do
        ece391_fdputs 1 (bytes "directory entry read failed\n")
        pure 3
      else do
        let buf := overwrite buf cnt.toNat [NEWLINE]
        let put ← request (.descriptor (.write 1 buf (cnt + 1)))
        if put.result = -1 then pure 3 else ls_loop fd rounds buf

/-- `main` of `ece391ls`. -/
def ls_main (rounds : Nat) (buf : List UInt8) : Dialogue UserCall Reply Int := do
  let opened ← request (.descriptor (.open_file (bytes ".")))
  if opened.result = -1 then do
    ece391_fdputs 1 (bytes "directory open failed\n")
    pure 2
  else ls_loop opened.result rounds buf

/-! ## The loops -/

variable {process : UserProcess} {fdt : Fin 8 → Fd}

theorem cnt_ne {count : Nat} (positive : 0 < count) :
    (count : Int) ≠ 0 ∧ (count : Int) ≠ -1 := by omega

/-- The loop of `cat` prints a file from the position of its descriptor on. -/
theorem cat_loop_file (well : process.image.WellFormed) (stdout : fdt 1 = Fd.stdout) {fd : Fin 8}
    (from_two : 2 ≤ fd) {inode position : Nat} (entry : fdt fd = Fd.regular inode position)
    (valid : inode < process.image.num_inodes) (inside : position ≤ process.image.length inode)
    {rounds : Nat} (enough : process.image.length inode - position + 1024 ≤ rounds * 1024)
    (buf : List UInt8) :
    process.Prints (cat_loop fd rounds buf) ((process.image.file inode).drop position) 0 fdt
      (Function.update fdt fd (Fd.regular inode (process.image.length inode))) := by
  induction rounds generalizing fdt position buf with
  | zero => omega
  | succ rounds ih =>
      let file := process.image.file inode
      have file_length : file.length = process.image.length inode := Image.file_length _ _
      let chunk := (file.drop position).take 1024
      have chunk_length : chunk.length = min 1024 (process.image.length inode - position) := by
        rw [List.length_take, List.length_drop, file_length]
      let moved := Function.update fdt fd (Fd.regular inode (position + chunk.length))
      have got : process.Prints (request (.descriptor (.read fd false 1024))) []
          ⟨chunk.length, chunk⟩ fdt moved :=
        prints_descriptor (answers_read_file well entry valid inside (by decide) (by decide))
      rw [cat_loop]
      rcases inside.eq_or_lt with ended | more
      · have empty : chunk = [] := List.eq_nil_of_length_eq_zero (by omega)
        have nothing : file.drop position = [] := by
          rw [ended, ← file_length, List.drop_length]
        rw [nothing]
        refine got.silent ?_
        simp only [moved, empty, List.length_nil, Nat.add_zero, Nat.cast_zero, if_true, ended]
        exact prints_done 0
      · obtain ⟨not_zero, not_failed⟩ := cnt_ne (show 0 < chunk.length by omega)
        have stdout_moved : moved 1 = Fd.stdout := update_stdout stdout from_two _
        have put : process.Prints
            (request (.descriptor (.write 1 (overwrite buf 0 chunk) chunk.length))) chunk
            ⟨chunk.length, []⟩ moved moved := by
          refine (prints_write stdout_moved _ _).of_eq ?_
          rw [overwrite_start, Int.toNat_natCast, leading_append]
        have rest := ih stdout_moved (Function.update_self ..) (by omega) (by omega)
          (overwrite buf 0 chunk)
        rw [Function.update_idem] at rest
        have whole : file.drop position = chunk ++ file.drop (position + chunk.length) := by
          rw [← List.drop_drop]
          exact (List.prefix_iff_eq_append.mp (List.take_prefix 1024 _)).symm
        rw [whole]
        refine got.silent ?_
        simp only [if_neg not_zero, if_neg not_failed]
        refine put.bind ?_
        simp only [if_neg not_failed]
        exact rest

/-- The names from an entry of the directory on, each with an ending. -/
def Image.listing (image : Image) (ending : List UInt8) (position : Nat) : List UInt8 :=
  (image.entries.drop position).flatMap fun entry => entry.name ++ ending

theorem Image.listing_end (image : Image) (ending : List UInt8) :
    image.listing ending image.num_dir_entry = [] := by
  have length_eq : image.entries.length = image.num_dir_entry := by simp [entries]
  rw [listing, ← length_eq, List.drop_length, List.flatMap_nil]

theorem Image.listing_next (image : Image) (ending : List UInt8) {position : Nat}
    (inside : position < image.num_dir_entry) :
    image.listing ending position =
      (image.dir_entries position).name ++ ending ++ image.listing ending (position + 1) := by
  have within : position < image.entries.length := by simpa [entries] using inside
  have entry_eq : image.entries[position] = image.dir_entries position := by simp [entries]
  rw [listing, List.drop_eq_getElem_cons within, List.flatMap_cons, entry_eq, listing]

theorem overwrite_name {image : Image} (named : image.Named) {position : Nat}
    (inside : position < image.num_dir_entry) (buf : List UInt8) :
    ∃ behind, overwrite buf 0 (image.dir_entries position).fnameBytes =
      (image.dir_entries position).name ++ behind := by
  have here := image.dir_entries_mem inside
  rw [overwrite_start, named.padded _ here, List.append_assoc]
  exact ⟨_, rfl⟩

/-- The loop of `cat` prints the names of a directory. -/
theorem cat_loop_directory (named : process.image.Named) (stdout : fdt 1 = Fd.stdout) {fd : Fin 8}
    (from_two : 2 ≤ fd) {position : Nat} (entry : fdt fd = Fd.directory position)
    (inside : position ≤ process.image.num_dir_entry) {rounds : Nat}
    (enough : process.image.num_dir_entry - position < rounds) (buf : List UInt8) :
    process.Prints (cat_loop fd rounds buf) (process.image.listing [] position) 0 fdt
      (Function.update fdt fd (Fd.directory process.image.num_dir_entry)) := by
  induction rounds generalizing fdt position buf with
  | zero => omega
  | succ rounds ih =>
      rw [cat_loop]
      rcases inside.eq_or_lt with ended | more
      · subst ended
        have got : process.Prints (request (.descriptor (.read fd false 1024))) [] ⟨0, []⟩ fdt
            fdt :=
          prints_descriptor (answers_read_directory_end from_two entry le_rfl 1024)
        rw [Image.listing_end, ← entry, Function.update_eq_self]
        exact got.silent (prints_done 0)
      · set name := (process.image.dir_entries position).name with name_eq
        set field := (process.image.dir_entries position).fnameBytes
        let moved := Function.update fdt fd (Fd.directory (position + 1))
        have got : process.Prints (request (.descriptor (.read fd false 1024))) []
            ⟨name.length, field⟩ fdt moved :=
          prints_descriptor (answers_read_directory named from_two entry more 1024)
        have not_empty := named.name_ne _ (process.image.dir_entries_mem more)
        obtain ⟨not_zero, not_failed⟩ := cnt_ne (List.length_pos_iff.mpr not_empty)
        have stdout_moved : moved 1 = Fd.stdout := update_stdout stdout from_two _
        have put : process.Prints
            (request (.descriptor (.write 1 (overwrite buf 0 field) name.length))) name
            ⟨name.length, []⟩ moved moved := by
          obtain ⟨behind, stored⟩ := overwrite_name named more buf
          refine (prints_write stdout_moved _ _).of_eq ?_
          rw [stored, Int.toNat_natCast, leading_append]
        have rest := ih stdout_moved (Function.update_self ..) (by omega) (by omega)
          (overwrite buf 0 field)
        rw [Function.update_idem] at rest
        rw [Image.listing_next _ _ more, List.append_nil]
        refine got.silent ?_
        simp only [name_eq, if_neg not_zero, if_neg not_failed]
        refine put.bind ?_
        simp only [name_eq, if_neg not_failed]
        exact rest

/-- The loop of `ls` prints the names of a directory, one on a line. -/
theorem ls_loop_directory (named : process.image.Named) (stdout : fdt 1 = Fd.stdout) {fd : Fin 8}
    (from_two : 2 ≤ fd) {position : Nat} (entry : fdt fd = Fd.directory position)
    (inside : position ≤ process.image.num_dir_entry) {rounds : Nat}
    (enough : process.image.num_dir_entry - position < rounds) (buf : List UInt8) :
    process.Prints (ls_loop fd rounds buf) (process.image.listing [NEWLINE] position) 0 fdt
      (Function.update fdt fd (Fd.directory process.image.num_dir_entry)) := by
  induction rounds generalizing fdt position buf with
  | zero => omega
  | succ rounds ih =>
      rw [ls_loop]
      rcases inside.eq_or_lt with ended | more
      · subst ended
        have got : process.Prints (request (.descriptor (.read fd false 32))) [] ⟨0, []⟩ fdt fdt :=
          prints_descriptor (answers_read_directory_end from_two entry le_rfl 32)
        rw [Image.listing_end, ← entry, Function.update_eq_self]
        exact got.silent (prints_done 0)
      · set name := (process.image.dir_entries position).name with name_eq
        set field := (process.image.dir_entries position).fnameBytes
        let moved := Function.update fdt fd (Fd.directory (position + 1))
        have got : process.Prints (request (.descriptor (.read fd false 32))) []
            ⟨name.length, field⟩ fdt moved :=
          prints_descriptor (answers_read_directory named from_two entry more 32)
        have not_empty := named.name_ne _ (process.image.dir_entries_mem more)
        obtain ⟨not_zero, not_failed⟩ := cnt_ne (List.length_pos_iff.mpr not_empty)
        have stdout_moved : moved 1 = Fd.stdout := update_stdout stdout from_two _
        let line := overwrite (overwrite buf 0 field) name.length [NEWLINE]
        have put : process.Prints (request (.descriptor (.write 1 line (name.length + 1))))
            (name ++ [NEWLINE]) ⟨name.length + 1, []⟩ moved moved := by
          obtain ⟨behind, stored⟩ := overwrite_name named more buf
          refine (prints_write stdout_moved _ _).of_eq ?_
          have line_eq : line = (name ++ [NEWLINE]) ++ behind.drop 1 := by
            simp only [line]
            rw [stored, overwrite_append]
            rfl
          have count_eq : ((name.length : Int) + 1).toNat = (name ++ [NEWLINE]).length := by
            rw [List.length_append, List.length_singleton]
            omega
          rw [line_eq, count_eq, leading_append]
        have rest := ih stdout_moved (Function.update_self ..) (by omega) (by omega) line
        rw [Function.update_idem] at rest
        rw [Image.listing_next _ _ more]
        refine got.silent ?_
        simp only [name_eq, if_neg not_zero, if_neg not_failed]
        refine put.bind ?_
        have written : (name.length : Int) + 1 ≠ -1 := by omega
        simp only [if_neg written]
        exact rest

/-! ## The programs -/

/-- The table of a process that has opened nothing. -/
structure Fresh (fdt : Fin 8 → Fd) : Prop where
  /-- Output goes to the terminal. -/
  stdout : fdt 1 = Fd.stdout
  /-- Nothing else is open. -/
  closed : ∀ fd, 2 ≤ fd → (fdt fd).flags = 0

theorem fresh_set_up_io_file {fdt : Fin 8 → Fd} (closed : ∀ fd, 2 ≤ fd → (fdt fd).flags = 0) :
    Fresh (set_up_io_file fdt) where
  stdout := rfl
  closed fd from_two := by
    rw [set_up_io_file, Function.update_of_ne, Function.update_of_ne, closed fd from_two]
    · rintro rfl
      exact absurd from_two (by decide)
    · rintro rfl
      exact absurd from_two (by decide)

theorem prints_open_first (fresh : Fresh fdt) {filename : List UInt8} {dentry : Dentry}
    (found : process.image.lookup (text filename) = some dentry)
    (type_le : dentry.file_type ≤ 2) :
    process.Prints (request (.descriptor (.open_file filename))) [] ⟨2, []⟩ fdt
      (Function.update fdt 2 (Fd.ofDentry dentry)) :=
  prints_descriptor (answers_open found type_le le_rfl (fresh.closed 2 le_rfl)
    fun _ from_two below => absurd from_two (not_le.mpr below))

/-- What `cat` of a name prints and returns; the clock is not a text. -/
def cat_answer (image : Image) (name : List UInt8) : Option (List UInt8 × Int) :=
  if name = [] then some (bytes "could not read arguments\n", 3)
  else
    match image.lookup name with
    | none => some (bytes "file not found\n", 2)
    | some dentry =>
        if dentry.file_type = 2 then some (image.file dentry.inode_index, 0)
        else if dentry.file_type = 1 then some (image.listing [] 0, 0)
        else none

theorem cat_main_argument {name behind : List UInt8} (solid : ∀ c ∈ name, c ≠ 0)
    (argument_eq : List.ofFn process.argument = name ++ 0 :: behind) (not_empty : name ≠ [])
    {rounds : Nat} (buf : List UInt8) {output : List UInt8} {result : Int} {after : Fin 8 → Fd}
    (opens : ∀ buf, text buf = name → process.Prints (do
        let opened ← request (.descriptor (.open_file buf))
        if opened.result = -1 then do
          ece391_fdputs 1 (bytes "file not found\n")
          pure 2
        else cat_loop opened.result rounds buf) output result fdt after) :
    process.Prints (cat_main rounds buf) output result fdt after := by
  have got := @prints_getargs process fdt name behind solid argument_eq 1024 (by decide)
  rw [if_neg not_empty] at got
  rw [cat_main]
  refine got.silent (opens _ ?_)
  rw [overwrite_start, List.append_assoc]
  exact text_append_nul solid _

theorem cat_main_prints (well : process.image.WellFormed) (named : process.image.Named)
    (fresh : Fresh fdt) {name behind : List UInt8} (solid : ∀ c ∈ name, c ≠ 0)
    (argument_eq : List.ofFn process.argument = name ++ 0 :: behind) {output : List UInt8}
    {result : Int} (answer : cat_answer process.image name = some (output, result))
    (buf : List UInt8) {rounds : Nat} (enough : 4093 ≤ rounds) :
    ∃ after, process.Prints (cat_main rounds buf) output result fdt after := by
  rw [cat_answer] at answer
  by_cases empty : name = []
  · rw [if_pos empty] at answer
    cases answer
    have got := @prints_getargs process fdt name behind solid argument_eq 1024 (by decide)
    rw [if_pos empty] at got
    exact ⟨fdt, got.silent (prints_message fresh.stdout (by decide) 3)⟩
  rw [if_neg empty] at answer
  cases found : process.image.lookup name with
  | none =>
      rw [found] at answer
      cases answer
      refine ⟨fdt, cat_main_argument solid argument_eq empty buf fun buf text_eq => ?_⟩
      have missing : process.Prints (request (.descriptor (.open_file buf))) [] ⟨-1, []⟩ fdt fdt :=
        prints_descriptor (answers_open_missing (by rw [text_eq, found]))
      exact missing.silent (prints_message fresh.stdout (by decide) 2)
  | some dentry =>
      rw [found] at answer
      have mem := Image.mem_entries_of_lookup found
      have opens : ∀ buf, text buf = name → process.Prints
          (request (.descriptor (.open_file buf))) [] ⟨2, []⟩ fdt
          (Function.update fdt 2 (Fd.ofDentry dentry)) := fun buf text_eq =>
        prints_open_first fresh (by rw [text_eq, found]) (well.file_type_le _ mem)
      have stdout := update_stdout fresh.stdout le_rfl (Fd.ofDentry dentry)
      simp only at answer
      split_ifs at answer with regular directory
      · cases answer
        have valid := well.inode_lt _ mem regular
        have length_le := well.length_le _ valid
        have loop := cat_loop_file well stdout le_rfl
          (by rw [Function.update_self, Fd.ofDentry_regular regular]) valid (Nat.zero_le _)
          (show process.image.length dentry.inode_index - 0 + 1024 ≤ rounds * 1024 by omega)
        exact ⟨_, cat_main_argument solid argument_eq empty buf fun buf text_eq =>
          (opens buf text_eq).silent (loop buf)⟩
      · cases answer
        have entries_le := named.entries_le
        have loop := cat_loop_directory named stdout le_rfl
          (by rw [Function.update_self, Fd.ofDentry_directory directory]) (Nat.zero_le _)
          (show process.image.num_dir_entry - 0 < rounds by omega)
        exact ⟨_, cat_main_argument solid argument_eq empty buf fun buf text_eq =>
          (opens buf text_eq).silent (loop buf)⟩

/-- Whatever the other processes and the interrupts do between its calls, `cat` prints the file or
the directory that its argument names, and says so when there is none; while nothing else uses the
console, that is what comes to stand there. -/
theorem cat_prints (process : UserProcess) (well : process.image.WellFormed)
    (named : process.image.Named) (fdt : Fin 8 → Fd)
    (closed : ∀ fd, 2 ≤ fd → (fdt fd).flags = 0) (name behind : List UInt8)
    (solid : ∀ c ∈ name, c ≠ 0)
    (argument_eq : List.ofFn process.argument = name ++ 0 :: behind) (output : List UInt8)
    (result : Int) (answer : cat_answer process.image name = some (output, result))
    (system : System) (owned : system.Owned process.esp (set_up_io_file fdt) process.argument)
    (disturb : Nat → UserCall → System → System)
    (elsewhere : ∀ n call system, process.Allows call system (disturb n call system))
    (buf : List UInt8) (rounds : Nat) (enough : 4093 ≤ rounds) :
    ∃ log last, process.run (cat_main rounds buf) disturb system = (log, .finished result last) ∧
      displayed log = output ∧
      ((∀ n call system, (disturb n call system).console = system.console) →
        last.console = system.console.puts output) := by
  obtain ⟨after, prints⟩ := cat_main_prints well named (fresh_set_up_io_file closed) solid
    argument_eq answer buf enough
  exact prints.run owned elsewhere

/-- The sample image in a process with `ls` for its argument. -/
def UserProcess.sample : UserProcess where
  image := Image.sample
  esp := 0x7FE000
  others _ _ := none
  argument := store_argument (fun _ => 0) [108, 115]
  known _ _ := True

/-- A kernel in which that process has just been started. -/
def System.sample : System where
  kernel := Kernel.boot.modifyPcb (get_cur_pcb 0x7FE000) fun pcb =>
    { pcb with fdt := set_up_io_file pcb.fdt, argument := store_argument pcb.argument [108, 115] }
  page_table_VM := (paging_init 0 0).page_table_VM

theorem System.sample_owned : System.sample.Owned UserProcess.sample.esp
    (set_up_io_file fun _ => Fd.free) UserProcess.sample.argument := by
  simp [Owned, sample, UserProcess.sample, Kernel.modifyPcb, Kernel.boot, Pcb.zero]

theorem Image.sample_named : Image.sample.Named := ⟨by decide, by decide, by decide⟩

/-- `cat ls` prints the four bytes of that file. -/
theorem cat_prints_ls :
    ∃ log last, UserProcess.sample.run (cat_main 4093 []) (fun _ _ system => system) System.sample =
        (log, .finished 0 last) ∧
      displayed log = [0x7F, 0x45, 0x4C, 0x46] ∧
      ((∀ (_ : Nat) (_ : UserCall) (system : System), system.console = system.console) →
        last.console = System.sample.console.puts [0x7F, 0x45, 0x4C, 0x46]) := by
  have solid : ∀ c ∈ ([108, 115] : List UInt8), c ≠ 0 := by simp
  have argument_eq := @store_argument_ofFn (fun _ => 0) [108, 115] (by decide)
  have answer : cat_answer Image.sample [108, 115] = some ([0x7F, 0x45, 0x4C, 0x46], 0) := by decide
  exact cat_prints UserProcess.sample Image.sample_wellFormed Image.sample_named (fun _ => Fd.free)
    (fun _ _ => rfl) [108, 115] _ solid argument_eq _ _ answer System.sample System.sample_owned _
    (fun _ _ _ => ⟨⟨rfl, rfl⟩, trivial⟩) [] 4093 le_rfl

/-- `ls` prints the names in the directory, one on a line, whatever happens elsewhere between its
calls; while nothing else uses the console, the list comes to stand there. -/
theorem ls_prints (process : UserProcess) (named : process.image.Named) (fdt : Fin 8 → Fd)
    (closed : ∀ fd, 2 ≤ fd → (fdt fd).flags = 0) (dentry : Dentry)
    (found : process.image.lookup [46] = some dentry) (directory : dentry.file_type = 1)
    (system : System) (owned : system.Owned process.esp (set_up_io_file fdt) process.argument)
    (disturb : Nat → UserCall → System → System)
    (elsewhere : ∀ n call system, process.Allows call system (disturb n call system))
    (buf : List UInt8) (rounds : Nat) (enough : 64 ≤ rounds) :
    let output := process.image.entries.flatMap fun entry => entry.name ++ [NEWLINE]
    ∃ log last, process.run (ls_main rounds buf) disturb system = (log, .finished 0 last) ∧
      displayed log = output ∧
      ((∀ n call system, (disturb n call system).console = system.console) →
        last.console = system.console.puts output) := by
  intro output
  have fresh := fresh_set_up_io_file closed
  have entries_le := named.entries_le
  have opened := @prints_open_first process _ fresh (bytes ".") dentry found (by omega)
  have loop := ls_loop_directory named (update_stdout fresh.stdout le_rfl (Fd.ofDentry dentry))
    le_rfl (by rw [Function.update_self, Fd.ofDentry_directory directory]) (Nat.zero_le _)
    (show process.image.num_dir_entry - 0 < rounds by omega) buf
  have prints : process.Prints (ls_main rounds buf) (process.image.listing [NEWLINE] 0) 0 _ _ :=
    opened.silent loop
  exact prints.run owned elsewhere

/-- `ls` on the sample image. -/
theorem ls_prints_sample :
    ∃ log last, UserProcess.sample.run (ls_main 64 []) (fun _ _ system => system) System.sample =
        (log, .finished 0 last) ∧
      displayed log = bytes ".\nshell\nls\n" := by
  have facts : (Image.sample.lookup [46]).map Dentry.file_type = some 1 := by decide
  obtain ⟨dentry, found, directory⟩ := Option.map_eq_some_iff.mp facts
  obtain ⟨log, last, ran, text_eq, -⟩ := ls_prints UserProcess.sample Image.sample_named
    (fun _ => Fd.free) (fun _ _ => rfl) dentry found directory System.sample System.sample_owned _
    (fun _ _ _ => ⟨⟨rfl, rfl⟩, trivial⟩) [] 64 le_rfl
  have listed : (Image.sample.entries.flatMap fun entry => entry.name ++ [NEWLINE]) =
      bytes ".\nshell\nls\n" := by decide
  exact ⟨log, last, ran, text_eq.trans listed⟩

end ComputerSystem
