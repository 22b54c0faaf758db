import ComputerSystem.Grep

/-!
# grep over a directory

The rounds of `do_one_file` are followed along the position in the file: what is left to report is
the pieces of the line in the buffer and of the file behind it.  A file that is no text is read to
its end all the same, so the loop over the directory gets to every file.
-/

namespace ComputerSystem

open CString Dialogue UserProcess LinePieces

variable {process : UserProcess} {fdt after : Fin 8 → Fd}

/-! ## A file -/

theorem search_lines_last (stdout : fdt 1 = Fd.stdout) {s : List UInt8} (not_empty : text s ≠ [])
    (fname : List UInt8) {data line : List UInt8} (buffered : Buffered data line) (rounds : Nat) :
    ∃ data', process.Prints
      (search_lines s fname (ece391_strlen s) 0 line.length (rounds + 1) data 0)
      (report (text s) (text fname) (pieces NEWLINE BUFSIZE line)) (data', 0) fdt fdt := by
  obtain ⟨stale, rfl⟩ := buffered.starts
  obtain ⟨b, stale, rfl⟩ : ∃ b rest, stale = b :: rest := by
    apply List.exists_cons_of_ne_nil
    rintro rfl
    have length := buffered.length
    have short := buffered.short
    simp only [List.append_nil] at length
    omega
  refine ⟨line ++ 0 :: stale, ?_⟩
  have ends := @search_lines_ends s fname (ece391_strlen s) 0 _ rounds [] line stale b
    buffered.whole (Nat.zero_add _) (Or.inr (Or.inl rfl))
  have searched := @search_line_prints process _ stdout _ not_empty fname [] line stale
    buffered.no_nul
  rw [show (0 : Nat) = ([] : List UInt8).length from rfl, ← List.nil_append (line ++ b :: stale),
    ends]
  refine (prints_then searched _).of_eq ?_
  by_cases empty : line = []
  · rw [empty, report_nil, matched, if_neg]
    rw [List.infix_nil]
    exact not_empty
  · rw [pieces_last buffered.whole empty buffered.short.le, report, List.flatMap_singleton]

theorem overwrite_nil (buf : List UInt8) (offset : Nat) : overwrite buf offset [] = buf := by
  rw [overwrite, List.append_nil, List.length_nil, Nat.add_zero, List.take_append_drop]

/-- What is read behind a line leaves the end of the buffer alone. -/
theorem Buffered.overwrite {data line : List UInt8} (buffered : Buffered data line)
    {chunk : List UInt8} (fits : line.length + chunk.length ≤ BUFSIZE) :
    ∃ stale, ComputerSystem.overwrite data line.length chunk = line ++ chunk ++ stale ∧
      (line ++ chunk ++ stale).length = BUFSIZE + 1 ∧
      (line ++ chunk ++ stale).getD BUFSIZE 0 ≠ NEWLINE := by
  obtain ⟨stale, rfl⟩ := buffered.starts
  have length := buffered.length
  have last_byte := buffered.last_byte
  rw [List.length_append] at length
  refine ⟨stale.drop chunk.length, overwrite_append line stale chunk, ?_, ?_⟩
  · simp only [List.length_append, List.length_drop]
    omega
  · rw [List.getD_append_right _ _ _ _ (by omega)] at last_byte
    rw [List.getD_append_right _ _ _ _ (by rwa [List.length_append]), List.length_append,
      List.getD_eq_getElem?_getD, List.getElem?_drop, ← List.getD_eq_getElem?_getD,
      show chunk.length + (BUFSIZE - (line.length + chunk.length)) = BUFSIZE - line.length by omega]
    exact last_byte

theorem prints_fill (well : process.image.WellFormed) {fd : Fin 8} {inode position : Nat}
    (entry : fdt fd = Fd.regular inode position) (valid : inode < process.image.num_inodes)
    (inside : position ≤ process.image.length inode) {left : Nat} (short : left < BUFSIZE) :
    let chunk := ((process.image.file inode).drop position).take (BUFSIZE - left)
    process.Prints (request (.descriptor (.read fd false (BUFSIZE - left)))) []
      ⟨chunk.length, chunk⟩ fdt
      (Function.update fdt fd (Fd.regular inode (position + chunk.length))) := by
  have answers := @answers_read_file _
    (process.Finds fdt (.descriptor (.read fd false (BUFSIZE - left)))) _ well _ _ _ entry valid
    inside (BUFSIZE - left) (by omega) (by rw [BUFSIZE]; omega)
  rw [show ((BUFSIZE : Int) - left).toNat = BUFSIZE - left by omega] at answers
  exact prints_descriptor answers

/-- The rest of a file is reported, with the part of a line in the buffer before it. -/
theorem search_file_prints (well : process.image.WellFormed) (stdout : fdt 1 = Fd.stdout)
    {s : List UInt8} (not_empty : text s ≠ []) (fname : List UInt8) {fd : Fin 8}
    (from_two : 2 ≤ fd) {inode position : Nat} (entry : fdt fd = Fd.regular inode position)
    (valid : inode < process.image.num_inodes) (inside : position ≤ process.image.length inode)
    (no_nul : 0 ∉ process.image.file inode) {data line : List UInt8}
    (buffered : Buffered data line) {rounds : Nat}
    (enough : process.image.length inode - position < rounds) :
    process.Prints (search_file s fname (ece391_strlen s) fd rounds data line.length)
      (report (text s) (text fname)
        (pieces NEWLINE BUFSIZE (line ++ (process.image.file inode).drop position)))
      true fdt (Function.update fdt fd (Fd.regular inode (process.image.length inode))) := by
  induction rounds generalizing fdt position data line with
  | zero => omega
  | succ rounds ih =>
      let file := process.image.file inode
      have file_length : file.length = process.image.length inode := Image.file_length _ _
      have short := buffered.short
      let room := BUFSIZE - line.length
      let chunk := (file.drop position).take room
      have chunk_length : chunk.length = min room (process.image.length inode - position) := by
        rw [List.length_take, List.length_drop, file_length]
      let moved := Function.update fdt fd (Fd.regular inode (position + chunk.length))
      have got : process.Prints
          (request (.descriptor (.read fd false (BUFSIZE - line.length)))) []
          ⟨chunk.length, chunk⟩ fdt moved := prints_fill well entry valid inside short
      have stdout_moved : moved 1 = Fd.stdout := update_stdout stdout from_two _
      have not_failed : (chunk.length : Int) ≠ -1 := by omega
      rw [search_file]
      refine got.silent ?_
      simp only [if_neg not_failed, Int.toNat_natCast]
      rcases inside.eq_or_lt with ended | more
      · have empty : chunk = [] := List.eq_nil_of_length_eq_zero (by omega)
        have nothing : file.drop position = [] := by
          rw [ended, ← file_length, List.drop_length]
        obtain ⟨data', searched⟩ := search_lines_last stdout_moved not_empty fname buffered
          line.length
        simp only [empty, overwrite_nil, List.length_nil, Nat.add_zero, Nat.cast_zero, if_true]
        simp only [moved, empty, List.length_nil, Nat.add_zero, ended] at searched
        rw [show (process.image.file inode).drop position = [] from nothing, List.append_nil]
        simp only [moved, empty, List.length_nil, Nat.add_zero, ended]
        refine (searched.bind (prints_done true)).of_eq (List.append_nil _)
      · have not_end : (chunk.length : Int) ≠ 0 := by omega
        obtain ⟨stale, stored, length, last_byte⟩ :=
          @Buffered.overwrite _ _ buffered chunk (by omega)
        have chunk_no_nul : 0 ∉ chunk := fun mem =>
          no_nul (List.mem_of_mem_drop (List.mem_of_mem_take mem))
        have sum : ([] : List UInt8).length + (line ++ chunk).length =
            line.length + chunk.length := by
          rw [List.length_append, List.length_nil, Nat.zero_add]
        obtain ⟨output, data', left, searched, buffered_left, told⟩ :=
          search_lines_prints stdout_moved not_empty fname not_end sum length last_byte (by omega)
            (List.append_ne_nil_of_right_ne_nil _
              (List.ne_nil_of_length_pos (by omega)))
            (by rw [List.mem_append]; exact not_or.mpr ⟨buffered.no_nul, chunk_no_nul⟩)
            (show (line ++ chunk).length < line.length + chunk.length + 1 by
              rw [List.length_append]; omega)
        have entry_moved : moved fd = Fd.regular inode (position + chunk.length) :=
          Function.update_self ..
        have rest := ih stdout_moved entry_moved (by omega) buffered_left (by omega)
        have whole : line ++ file.drop position =
            line ++ chunk ++ file.drop (position + chunk.length) := by
          rw [List.append_assoc, ← List.drop_drop]
          exact congrArg _ (List.prefix_iff_eq_append.mp (List.take_prefix room _)).symm
        have full : line.length + chunk.length = BUFSIZE ∨
            file.drop (position + chunk.length) = [] := by
          rcases Nat.le_total room (process.image.length inode - position) with fills | ends
          · exact Or.inl (by omega)
          · exact Or.inr (List.drop_eq_nil_of_le (by omega))
        rw [show (process.image.file inode).drop position = file.drop position from rfl, whole,
          told _ full, stored]
        rw [Function.update_idem] at rest
        simp only [if_neg not_end]
        exact searched.bind rest

/-! ## Any file

With NULs in it a file is no text, and what is displayed of it is not told; but the search gets to
its end. -/

theorem find_line_end_bounds (data : List UInt8) (last remaining line_end : Nat) :
    line_end ≤ find_line_end data last remaining line_end ∧
      find_line_end data last remaining line_end ≤ line_end + remaining := by
  induction remaining generalizing line_end with
  | zero => exact ⟨le_rfl, le_rfl⟩
  | succ remaining ih =>
      have next := ih (line_end + 1)
      rw [find_line_end]
      split_ifs <;> omega

theorem search_line_ends (stdout : fdt 1 = Fd.stdout) (s fname : List UInt8) (s_len : Nat)
    (data : List UInt8) (line_start remaining check : Nat) :
    ∃ output, process.Prints (search_line s fname s_len data line_start remaining check) output ()
      fdt fdt := by
  induction remaining generalizing check with
  | zero => exact ⟨[], prints_done ()⟩
  | succ remaining ih =>
      rw [search_line]
      split_ifs
      · exact ⟨_, prints_hit stdout fname (data.drop line_start)⟩
      · exact ih (check + 1)

/-- Whatever the buffer holds, its lines are searched, and less than a buffer is left of it. -/
theorem search_lines_end (stdout : fdt 1 = Fd.stdout) (s fname : List UInt8) (s_len : Nat)
    (cnt : Int) {last rounds line_start : Nat} (fits : last ≤ BUFSIZE)
    (enough : last - line_start < rounds) (data : List UInt8) :
    ∃ output data' left, process.Prints
      (search_lines s fname s_len cnt last rounds data line_start) output (data', left) fdt fdt ∧
      left < BUFSIZE := by
  induction rounds generalizing line_start data with
  | zero => omega
  | succ rounds ih =>
      have bounds := find_line_end_bounds data last (last - line_start) line_start
      rw [search_lines]
      set line_end := find_line_end data last (last - line_start) line_start
      by_cases moves : data.getD line_end 0 ≠ NEWLINE ∧ cnt ≠ 0 ∧ line_start ≠ 0
      · simp only [if_pos moves]
        have positive : 0 < BUFSIZE := by decide
        exact ⟨[], _, _, prints_done _, by omega⟩
      · simp only [if_neg moves]
        obtain ⟨first, searched⟩ := @search_line_ends process _ stdout s fname s_len
          (data.set line_end 0) line_start (line_end - line_start) line_start
        by_cases past : line_end + 1 ≥ last
        · simp only [if_pos past]
          exact ⟨first, _, 0, prints_then searched _, by decide⟩
        · simp only [if_neg past]
          obtain ⟨output, data', left, prints, short⟩ :=
            @ih (line_end + 1) (by omega) (data.set line_end 0)
          exact ⟨first ++ output, data', left, searched.bind prints, short⟩

theorem search_file_ends (well : process.image.WellFormed) (stdout : fdt 1 = Fd.stdout)
    (s fname : List UInt8) (s_len : Nat) {fd : Fin 8} (from_two : 2 ≤ fd) {inode position : Nat}
    (entry : fdt fd = Fd.regular inode position) (valid : inode < process.image.num_inodes)
    (inside : position ≤ process.image.length inode) {left : Nat} (short : left < BUFSIZE)
    {rounds : Nat} (enough : process.image.length inode - position < rounds) (data : List UInt8) :
    ∃ output, process.Prints (search_file s fname s_len fd rounds data left) output true fdt
      (Function.update fdt fd (Fd.regular inode (process.image.length inode))) := by
  induction rounds generalizing fdt position data left with
  | zero => omega
  | succ rounds ih =>
      let chunk := ((process.image.file inode).drop position).take (BUFSIZE - left)
      have chunk_length : chunk.length =
          min (BUFSIZE - left) (process.image.length inode - position) := by
        rw [List.length_take, List.length_drop, Image.file_length]
      let moved := Function.update fdt fd (Fd.regular inode (position + chunk.length))
      have got : process.Prints (request (.descriptor (.read fd false (BUFSIZE - left)))) []
          ⟨chunk.length, chunk⟩ fdt moved := prints_fill well entry valid inside short
      have stdout_moved : moved 1 = Fd.stdout := update_stdout stdout from_two _
      have not_failed : (chunk.length : Int) ≠ -1 := by omega
      obtain ⟨first, data', left', searched, short'⟩ := @search_lines_end process _ stdout_moved s
        fname s_len chunk.length (left + chunk.length) (left + chunk.length + 1) 0 (by omega)
        (by omega) (overwrite data left chunk)
      rw [search_file]
      by_cases ended : chunk.length = 0
      · refine ⟨first, got.silent ?_⟩
        simp only [if_neg not_failed, Int.toNat_natCast]
        have at_end : position = process.image.length inode := by omega
        rw [← at_end]
        refine (searched.bind ?_).of_eq (List.append_nil _)
        simp only [ended, Nat.cast_zero, if_true, moved, Nat.add_zero]
        exact prints_done true
      · have entry_moved : moved fd = Fd.regular inode (position + chunk.length) :=
          Function.update_self ..
        obtain ⟨output, rest⟩ := ih stdout_moved entry_moved (by omega) short' (by omega) data'
        rw [Function.update_idem] at rest
        refine ⟨first ++ output, got.silent ?_⟩
        simp only [if_neg not_failed, Int.toNat_natCast]
        refine searched.bind ?_
        have not_end : (chunk.length : Int) ≠ 0 := by omega
        simp only [if_neg not_end]
        exact rest

/-! ## The directory -/

/-- What `grep` may print for an entry of the directory. -/
structure Reported (image : Image) (search : List UInt8) (entry : Dentry) (output : List UInt8) :
    Prop where
  /-- Nothing for the clock. -/
  clock : ∀ dentry, image.lookup entry.name = some dentry → dentry.file_type = 0 → output = []
  /-- For a text, the pieces of it that have the string in them. -/
  text : ∀ dentry, image.lookup entry.name = some dentry → dentry.file_type = 2 →
    0 ∉ image.file dentry.inode_index →
    output = report search entry.name
      (pieces NEWLINE BUFSIZE (image.file dentry.inode_index))
  /-- With no line longer than the buffer, these are its lines. -/
  lines : ∀ dentry, image.lookup entry.name = some dentry → dentry.file_type = 2 →
    0 ∉ image.file dentry.inode_index →
    (∀ line ∈ (image.file dentry.inode_index).splitOn NEWLINE, line.length ≤ BUFSIZE) →
    output = (((image.file dentry.inode_index).splitOn NEWLINE).filter (search <:+: ·)).flatMap
      fun line => entry.name ++ bytes ":" ++ line ++ bytes "\n"

theorem report_filter (s fname : List UInt8) (lines : List (List UInt8)) :
    report s fname lines = (lines.filter (s <:+: ·)).flatMap
      fun line => fname ++ bytes ":" ++ line ++ bytes "\n" := by
  induction lines with
  | nil => rfl
  | cons line lines ih =>
      rw [report_cons, ih, matched, List.filter_cons]
      by_cases found : s <:+: line
      · simp [found]
      · simp [found]

theorem report_solid {s : List UInt8} (not_empty : s ≠ []) (fname : List UInt8)
    (lines : List (List UInt8)) :
    report s fname (lines.filter (· ≠ [])) = report s fname lines := by
  induction lines with
  | nil => rfl
  | cons line lines ih =>
      rw [report_cons, List.filter_cons, ← ih]
      by_cases empty : line = []
      · simp [empty, matched, not_empty]
      · simp [empty, report_cons]

/-- A text needs no more than its pieces told. -/
theorem reported_text {image : Image} {search : List UInt8} (not_empty : search ≠ [])
    {entry dentry : Dentry} (found : image.lookup entry.name = some dentry)
    (regular : dentry.file_type = 2) :
    Reported image search entry
      (report search entry.name (pieces NEWLINE BUFSIZE (image.file dentry.inode_index))) where
  clock other other_found zero := by
    obtain rfl := Option.some.inj (found.symm.trans other_found)
    omega
  text other other_found _ _ := by
    obtain rfl := Option.some.inj (found.symm.trans other_found)
    rfl
  lines other other_found _ _ short := by
    obtain rfl := Option.some.inj (found.symm.trans other_found)
    rw [← report_filter, ← report_solid not_empty, pieces_splitOn (by decide) short,
      report_solid not_empty]

/-- The descriptors of `grep` between two files. -/
structure Grepping (fdt : Fin 8 → Fd) (position : Nat) : Prop where
  /-- Output goes to the terminal. -/
  stdout : fdt 1 = Fd.stdout
  /-- The directory is open. -/
  directory : fdt 2 = Fd.directory position
  /-- The file is not. -/
  closed : (fdt 3).flags = 0

/-- The descriptors after a file was opened and closed again. -/
theorem Grepping.reopened {position : Nat} (grepping : Grepping fdt position) (entry : Fd) :
    Grepping (Function.update fdt 3 { entry with flags := 0 }) position where
  stdout := grepping.stdout
  directory := grepping.directory
  closed := rfl

theorem do_one_file_opened {position : Nat} (grepping : Grepping fdt position)
    {s fname data : List UInt8} {dentry : Dentry}
    (found : process.image.lookup (text fname) = some dentry) (type_le : dentry.file_type ≤ 2)
    {rounds : Nat} {output : List UInt8} {entry : Fd} (in_use : entry.flags ≠ 0)
    (has_table : entry.file_operation_table_ptr ≠ none)
    (searched : process.Prints (search_file s fname (ece391_strlen s) (3 : Fin 8) rounds data 0)
      output true (Function.update fdt 3 (Fd.ofDentry dentry)) (Function.update fdt 3 entry)) :
    process.Prints (do_one_file rounds data s fname) output 0 fdt
      (Function.update fdt 3 { entry with flags := 0 }) := by
  have opened : process.Prints (request (.descriptor (.open_file fname))) [] ⟨3, []⟩ fdt
      (Function.update fdt 3 (Fd.ofDentry dentry)) := by
    refine prints_descriptor (answers_open found type_le (by decide) grepping.closed ?_)
    intro k from_two below
    have two : k = 2 := by omega
    rw [two, grepping.directory]
    exact one_ne_zero
  have closed : process.Prints (request (.descriptor (.close 3))) [] ⟨0, []⟩
      (Function.update fdt 3 entry) (Function.update fdt 3 { entry with flags := 0 }) := by
    have answers := @answers_close process.image
      (process.Finds (Function.update fdt 3 entry) (.descriptor (.close 3)))
      (Function.update fdt 3 entry) 3 (by decide) (by simpa using in_use)
      (by simpa using has_table)
    rw [Function.update_self, Function.update_idem] at answers
    exact prints_descriptor answers
  rw [do_one_file]
  refine opened.silent ((searched.bind (closed.silent (prints_done 0))).of_eq ?_)
  exact List.append_nil output

/-- A read of the clock ends the search at once. -/
theorem search_file_clock
    (ticks : ∀ call system, process.known call system → system.Ticked process.esp call)
    (s fname : List UInt8) (s_len : Nat) {fd : Fin 8}
    (in_use : (fdt fd).flags ≠ 0) (table : (fdt fd).file_operation_table_ptr = some .rtc_func)
    (rounds : Nat) (data : List UInt8) :
    process.Prints (search_file s fname s_len fd (rounds + 1) data 0) [] true fdt fdt := by
  have got : process.Prints (request (.descriptor (.read fd false (BUFSIZE - (0 : Nat))))) []
      ⟨0, []⟩ fdt fdt := prints_read_clock ticks in_use table _
  have nothing (data : List UInt8) : search_lines s fname s_len 0 0 1 data 0 =
      done (data.set 0 0, 0) := by
    simp [search_lines, find_line_end, search_line]
  rw [search_file]
  refine got.silent ?_
  simp only [Int.reduceNeg, Int.toNat_zero, Nat.zero_add, nothing, done_bind, if_true]
  exact prints_done true

/-- What `do_one_file` does with an entry of the directory. -/
theorem do_one_file_prints
    (ticks : ∀ call system, process.known call system → system.Ticked process.esp call)
    (well : process.image.WellFormed) {position : Nat} (grepping : Grepping fdt position)
    {s : List UInt8} (not_empty : text s ≠ []) {fname : List UInt8} {entry : Dentry}
    (named : text fname = entry.name) (mem : entry ∈ process.image.entries)
    (no_directory : ∀ dentry, process.image.lookup entry.name = some dentry →
      dentry.file_type ≠ 1)
    {data : List UInt8} (length : data.length = BUFSIZE + 1)
    (last_byte : data.getD BUFSIZE 0 ≠ NEWLINE) {rounds : Nat} (enough : 1023 * 4096 < rounds) :
    ∃ output after, process.Prints (do_one_file rounds data s fname) output 0 fdt after ∧
      Grepping after position ∧ Reported process.image (text s) entry output := by
  cases found : process.image.lookup entry.name with
  | none => exact absurd rfl (Image.lookup_eq_none_iff.mp found entry mem)
  | some dentry =>
      have dentry_mem := Image.mem_entries_of_lookup found
      have type_le := well.file_type_le _ dentry_mem
      have stdout := @update_stdout _ grepping.stdout 3 (by decide) (Fd.ofDentry dentry)
      have not_one := no_directory dentry found
      have searches := @do_one_file_opened process fdt position grepping s fname data dentry
        (by rw [named, found]) type_le rounds
      obtain clock | regular : dentry.file_type = 0 ∨ dentry.file_type = 2 := by omega
      · obtain ⟨rounds, rfl⟩ := Nat.exists_eq_succ_of_ne_zero (show rounds ≠ 0 by omega)
        have entry_eq : Function.update fdt 3 (Fd.ofDentry dentry) 3 = Fd.ofDentry dentry :=
          Function.update_self ..
        have searched := @search_file_clock process (Function.update fdt 3 (Fd.ofDentry dentry))
          ticks s fname (ece391_strlen s) 3 (by rw [entry_eq]; exact one_ne_zero)
          (by rw [entry_eq, Fd.ofDentry, clock]; rfl) rounds data
        refine ⟨[], _, searches one_ne_zero ?_ searched, grepping.reopened _, ?_⟩
        · rw [Fd.ofDentry, clock]
          exact Option.some_ne_none _
        · refine ⟨fun _ _ _ => rfl, fun other other_found two => ?_,
            fun other other_found two => ?_⟩
          all_goals
            obtain rfl := Option.some.inj (found.symm.trans other_found)
            omega
      · have valid := well.inode_lt _ dentry_mem regular
        have length_le := well.length_le _ valid
        have entry_eq : Function.update fdt 3 (Fd.ofDentry dentry) 3 =
            Fd.regular dentry.inode_index 0 := by
          rw [Function.update_self, Fd.ofDentry_regular regular]
        by_cases no_nul : 0 ∈ process.image.file dentry.inode_index
        · obtain ⟨output, searched⟩ := @search_file_ends process _ well stdout s fname
            (ece391_strlen s) 3 (by decide) _ 0 entry_eq valid (Nat.zero_le _) 0 (by decide) rounds
            (by omega) data
          rw [Function.update_idem] at searched
          refine ⟨output, _, searches one_ne_zero (Option.some_ne_none _) searched,
            grepping.reopened _, fun other other_found zero => ?_,
            fun other other_found _ text => ?_,
            fun other other_found _ text => ?_⟩
          · obtain rfl := Option.some.inj (found.symm.trans other_found)
            omega
          all_goals
            obtain rfl := Option.some.inj (found.symm.trans other_found)
            exact absurd no_nul text
        · have searched := @search_file_prints process _ well stdout _ not_empty fname 3 (by decide)
            _ 0 entry_eq valid (Nat.zero_le _) no_nul _ _ (buffered_nil length last_byte) rounds
            (by omega)
          rw [Function.update_idem, List.nil_append, List.drop_zero, named] at searched
          exact ⟨_, _, searches one_ne_zero (Option.some_ne_none _) searched, grepping.reopened _,
            reported_text not_empty found regular⟩

/-- A dot in front hides an entry. -/
def Dentry.Visible (entry : Dentry) : Prop := entry.name.head? ≠ some 46

instance (entry : Dentry) : Decidable entry.Visible := inferInstanceAs (Decidable (_ ≠ _))

theorem grep_loop_prints
    (ticks : ∀ call system, process.known call system → system.Ticked process.esp call)
    (well : process.image.WellFormed) (named : process.image.Named)
    (directories : ∀ entry ∈ process.image.entries, entry.file_type = 1 → ¬entry.Visible)
    {s : List UInt8} (not_empty : text s ≠ []) {stack : Nat → List UInt8}
    (length : ∀ n, (stack n).length = BUFSIZE + 1)
    (last_byte : ∀ n, (stack n).getD BUFSIZE 0 ≠ NEWLINE) {file_rounds : Nat}
    (enough_file : 1023 * 4096 < file_rounds) {position : Nat} (grepping : Grepping fdt position)
    (inside : position ≤ process.image.num_dir_entry) {rounds : Nat}
    (enough : process.image.num_dir_entry - position < rounds) (buf : List UInt8) :
    ∃ outputs after, process.Prints (grep_loop s 2 file_rounds stack rounds buf) outputs.flatten 0
        fdt after ∧
      List.Forall₂ (Reported process.image (text s))
        ((process.image.entries.drop position).filter (·.Visible)) outputs := by
  induction rounds generalizing fdt position buf with
  | zero => omega
  | succ rounds ih =>
      rw [grep_loop]
      have length_eq : process.image.entries.length = process.image.num_dir_entry := by
        simp [Image.entries]
      rcases inside.eq_or_lt with ended | more
      · have got : process.Prints (request (.descriptor (.read (2 : Fin 8) false 32))) [] ⟨0, []⟩
            fdt fdt :=
          prints_descriptor (answers_read_directory_end le_rfl grepping.directory ended.ge 32)
        refine ⟨[], fdt, got.silent (prints_done 0), ?_⟩
        rw [ended, ← length_eq, List.drop_length]
        exact List.Forall₂.nil
      · let entry := process.image.dir_entries position
        have mem : entry ∈ process.image.entries := process.image.dir_entries_mem more
        let moved := Function.update fdt 2 (Fd.directory (position + 1))
        have got : process.Prints (request (.descriptor (.read (2 : Fin 8) false 32))) []
            ⟨entry.name.length, entry.fnameBytes⟩ fdt moved :=
          prints_descriptor (answers_read_directory named le_rfl grepping.directory more 32)
        have moved_grepping : Grepping moved (position + 1) :=
          ⟨update_stdout grepping.stdout le_rfl _, Function.update_self ..,
            grepping.closed⟩
        have not_empty_name := named.name_ne _ mem
        obtain ⟨not_zero, not_failed⟩ := cnt_ne (List.length_pos_iff.mpr not_empty_name)
        obtain ⟨behind, stored⟩ := overwrite_name named more buf
        have listed : process.image.entries.drop position =
            entry :: process.image.entries.drop (position + 1) := by
          rw [List.drop_eq_getElem_cons (by omega)]
          simp [Image.entries, entry]
        have dotted : (overwrite buf 0 entry.fnameBytes).getD 0 0 = 46 ↔ ¬entry.Visible := by
          obtain ⟨c, rest, name_eq⟩ := List.exists_cons_of_ne_nil not_empty_name
          rw [stored, name_eq, Dentry.Visible, name_eq]
          simp
        rw [listed]
        by_cases visible : entry.Visible
        · have no_directory : ∀ dentry, process.image.lookup entry.name = some dentry →
              dentry.file_type ≠ 1 := by
            intro dentry found one
            obtain ⟨index, below, rfl, same, -⟩ := Image.lookup_eq_some_iff.mp found
            refine directories _ (process.image.dir_entries_mem below) one ?_
            rw [Dentry.Visible, same]
            exact visible
          let fname := (overwrite buf 0 entry.fnameBytes).set entry.name.length 0
          have fname_eq : text fname = entry.name := by
            simp only [fname]
            rw [stored, text_set_nul]
            exact List.takeWhile_idem
          obtain ⟨output, after, searched, after_grepping, reported⟩ :=
            do_one_file_prints ticks well
            moved_grepping not_empty fname_eq mem no_directory (length rounds) (last_byte rounds)
            enough_file
          obtain ⟨outputs, last, prints, all⟩ := ih after_grepping (by omega) (by omega) fname
          refine ⟨output :: outputs, last, got.silent ?_, ?_⟩
          · have first := mt dotted.mp (not_not.mpr visible)
            simp only [if_neg not_zero, if_neg not_failed, if_neg first, Int.toNat_natCast]
            exact searched.bind prints
          · rw [List.filter_cons_of_pos (by simpa using visible)]
            exact List.Forall₂.cons reported all
        · obtain ⟨outputs, last, prints, all⟩ := ih moved_grepping (by omega) (by omega)
            (overwrite buf 0 entry.fnameBytes)
          refine ⟨outputs, last, got.silent ?_, ?_⟩
          · have first := dotted.mpr visible
            simp only [if_neg not_zero, if_neg not_failed, if_pos first]
            exact prints
          · rw [List.filter_cons_of_neg (by simpa using visible)]
            exact all

/-- An image with a directory, the clock and `ls`. -/
def Image.searched : Image where
  byte offset :=
    match offset with
    | 0 => 3                                                    -- num_dir_entry
    | 4 => 1                                                    -- num_inodes
    | 8 => 1                                                    -- num_data_blocks
    | 64 => 46                                                  -- .
    | 96 => 1
    | 128 => 114 | 129 => 116 | 130 => 99                       -- rtc
    | 192 => 108 | 193 => 115                                   -- ls
    | 224 => 2
    | 4096 => 4                                                 -- length of inode 0
    | 8192 => 0x7F | 8193 => 0x45 | 8194 => 0x4C | 8195 => 0x46
    | _ => 0

/-- A process with `E` for its argument whose reads of the clock find it ticked. -/
def UserProcess.searching : UserProcess where
  image := Image.searched
  esp := 0x7FE000
  others _ _ := none
  argument := store_argument (fun _ => 0) [69]
  known call system := system.Ticked 0x7FE000 call

/-- A kernel in which that process has just been started. -/
def System.searching : System where
  kernel := Kernel.boot.modifyPcb (get_cur_pcb 0x7FE000) fun pcb =>
    { pcb with fdt := set_up_io_file pcb.fdt, argument := store_argument pcb.argument [69] }
  page_table_VM := (paging_init 0 0).page_table_VM

end ComputerSystem
