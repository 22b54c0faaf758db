import ComputerSystem.FilePrograms
import ComputerSystem.Fish

/-!
# The frames

`add_frames` reads two files in step, a byte of each at a time.  Each reader is followed along the
rest of its line, and behind a row along its remaining lines; a file that ends first goes on with
empty lines.
-/

namespace ComputerSystem

open CString Dialogue UserProcess

variable {process : UserProcess} {fdt : Fin 8 → Fd}

/-! ## Lines -/

/-- The character of a row, blank behind the line. -/
def line_char (line : List UInt8) (col : Nat) : UInt8 := line.getD col 32

/-- The structures that a row passes on, from a column on. -/
def row_users (blink_struct : Blink) (row col : Nat) (line0 line1 : List UInt8) : List Blink :=
  (List.range (max line0.length line1.length)).filterMap fun k =>
    if line_char line0 k ≠ 32 ∨ line_char line1 k ≠ 32 then
      some (framed_cell blink_struct row (col + k) (line_char line0 k) (line_char line1 k))
    else none

/-- The structures that two files pass on, from a row on. -/
def frame_users (blink_struct : Blink) (row : Nat) (lines0 lines1 : List (List UInt8)) :
    List Blink :=
  (List.range (max lines0.length lines1.length)).flatMap fun k =>
    row_users blink_struct (row + k) 0 (lines0.getD k []) (lines1.getD k [])

/-- Additions one after another. -/
def BlinkState.addAll (state : BlinkState) (users : List Blink) : BlinkState :=
  users.foldl (fun state user => (state.mp1_ioctl_add user).state) state

theorem line_char_zero (line : List UInt8) : line_char line 0 = line.headD 32 := by
  cases line <;> rfl

theorem line_char_succ (line : List UInt8) (col : Nat) :
    line_char line (col + 1) = line_char line.tail col := by
  cases line <;> simp [line_char]

theorem row_users_step (blink_struct : Blink) (row col : Nat) {line0 line1 : List UInt8}
    (more : line0 ≠ [] ∨ line1 ≠ []) :
    row_users blink_struct row col line0 line1 =
      (if line0.headD 32 ≠ 32 ∨ line1.headD 32 ≠ 32 then
        [framed_cell blink_struct row col (line0.headD 32) (line1.headD 32)] else []) ++
      row_users blink_struct row (col + 1) line0.tail line1.tail := by
  have length : max line0.length line1.length = max line0.tail.length line1.tail.length + 1 := by
    rw [List.length_tail, List.length_tail]
    have positive : 0 < line0.length ∨ 0 < line1.length :=
      more.imp List.length_pos_iff.mpr List.length_pos_iff.mpr
    omega
  rw [row_users, length, List.range_succ_eq_map, List.filterMap_cons, List.filterMap_map, row_users]
  simp only [line_char_zero, line_char_succ, Function.comp_def, Nat.add_zero, Nat.succ_eq_add_one,
    Nat.add_right_comm col 1, ← Nat.add_assoc col]
  split_ifs <;> rfl

theorem frame_users_step (blink_struct : Blink) (row : Nat) {lines0 lines1 : List (List UInt8)}
    (more : lines0 ≠ [] ∨ lines1 ≠ []) :
    frame_users blink_struct row lines0 lines1 =
      row_users blink_struct row 0 (lines0.headD []) (lines1.headD []) ++
        frame_users blink_struct (row + 1) lines0.tail lines1.tail := by
  have length : max lines0.length lines1.length =
      max lines0.tail.length lines1.tail.length + 1 := by
    rw [List.length_tail, List.length_tail]
    have positive : 0 < lines0.length ∨ 0 < lines1.length :=
      more.imp List.length_pos_iff.mpr List.length_pos_iff.mpr
    omega
  have head (lines : List (List UInt8)) : lines.getD 0 [] = lines.headD [] := by
    cases lines <;> rfl
  have behind (lines : List (List UInt8)) (k : Nat) :
      lines.getD (k + 1) [] = lines.tail.getD k [] := by
    cases lines <;> simp
  rw [frame_users, length, List.range_succ_eq_map, List.flatMap_cons, List.flatMap_map, frame_users]
  simp only [head, behind, Nat.add_zero, Nat.succ_eq_add_one, Nat.add_right_comm row 1,
    ← Nat.add_assoc row]

/-! ## One reader -/

/-- In front of the rest of a line: where the reader is at the end of it, and whether the file ends
there. -/
structure FrameReader.Ahead (reader : FrameReader) (file : List UInt8) (position : Nat)
    (line : List UInt8) (last : Nat) (eof : Bool) : Prop where
  /-- Behind a newline the line is over. -/
  ended : reader.c = NEWLINE → line = [] ∧ last = position ∧ eof = reader.eof
  /-- Otherwise it goes on up to the next newline, or to the end of the file. -/
  reading : reader.c ≠ NEWLINE → reader.eof = false ∧ NEWLINE ∉ line ∧
    ((∃ more, file.drop position = line ++ NEWLINE :: more) ∧
        last = position + line.length + 1 ∧ eof = false ∨
      file.drop position = line ∧ last = position + line.length ∧ eof = true)

theorem next_byte (well : process.image.WellFormed) {fd : Fin 8} {inode position : Nat}
    (entry : fdt fd = Fd.regular inode position) (valid : inode < process.image.num_inodes)
    {reader : FrameReader} (reading : reader.c ≠ NEWLINE) {b : UInt8} {rest : List UInt8}
    (drop_eq : (process.image.file inode).drop position = b :: rest) :
    process.Prints (reader.next fd) [] { reader with c := b } fdt
        (Function.update fdt fd (Fd.regular inode (position + 1))) ∧
      position + 1 ≤ process.image.length inode ∧
      (process.image.file inode).drop (position + 1) = rest := by
  have inside : position < process.image.length inode := by
    have length := congrArg List.length drop_eq
    rw [List.length_drop, Image.file_length, List.length_cons] at length
    omega
  have got : process.Prints (request (.descriptor (.read fd false 1))) [] ⟨1, [b]⟩ fdt
      (Function.update fdt fd (Fd.regular inode (position + 1))) := by
    have answers := @answers_read_file _ (process.Finds fdt (.descriptor (.read fd false 1))) _ well
      _ _ _ entry valid inside.le 1 (by decide) (by decide)
    rw [drop_eq] at answers
    exact prints_descriptor answers
  refine ⟨?_, inside, ?_⟩
  · rw [FrameReader.next, if_pos reading]
    refine got.silent ?_
    simp only [one_ne_zero, if_false, List.getD_cons_zero]
    exact prints_done _
  · rw [← List.drop_drop, drop_eq]
    rfl

theorem next_end (well : process.image.WellFormed) {fd : Fin 8} {inode position : Nat}
    (entry : fdt fd = Fd.regular inode position) (valid : inode < process.image.num_inodes)
    (inside : position ≤ process.image.length inode) {reader : FrameReader}
    (reading : reader.c ≠ NEWLINE) (drop_eq : (process.image.file inode).drop position = []) :
    process.Prints (reader.next fd) [] ⟨NEWLINE, true⟩ fdt fdt := by
  have got : process.Prints (request (.descriptor (.read fd false 1))) [] ⟨0, []⟩ fdt fdt := by
    have answers := @answers_read_file _ (process.Finds fdt (.descriptor (.read fd false 1))) _ well
      _ _ _ entry valid inside 1 (by decide) (by decide)
    simp only [drop_eq, List.take_nil, List.length_nil, Nat.add_zero, ← entry,
      Function.update_eq_self] at answers
    exact prints_descriptor answers
  rw [FrameReader.next, if_pos reading]
  exact got.silent (prints_done _)

/-- A step of a reader along its line; the descriptor counts until the file has ended. -/
theorem next_prints (well : process.image.WellFormed) {fd : Fin 8} {inode position : Nat}
    (valid : inode < process.image.num_inodes) (inside : position ≤ process.image.length inode)
    {reader : FrameReader} (entry : reader.eof = false → fdt fd = Fd.regular inode position)
    {line : List UInt8} {last : Nat} {eof : Bool}
    (ahead : reader.Ahead (process.image.file inode) position line last eof) :
    ∃ (reader' : FrameReader) (position' : Nat) (after : Fin 8 → Fd),
      process.Prints (reader.next fd) [] reader' fdt after ∧
      (∀ other, other ≠ fd → after other = fdt other) ∧
      (reader'.eof = false → after fd = Fd.regular inode position') ∧
      position' ≤ process.image.length inode ∧ (reader'.c = NEWLINE ↔ line = []) ∧
      reader'.char = line.headD 32 ∧
      reader'.Ahead (process.image.file inode) position' line.tail last eof := by
  by_cases newline : reader.c = NEWLINE
  · obtain ⟨rfl, last_eq, eof_eq⟩ := ahead.ended newline
    refine ⟨reader, position, fdt, ?_, fun _ _ => rfl, entry, inside, iff_of_true newline rfl,
      if_pos newline, ahead⟩
    rw [FrameReader.next, if_neg (not_not.mpr newline)]
    exact prints_done reader
  obtain ⟨not_eof, solid, behind⟩ := ahead.reading newline
  have entry := entry not_eof
  have moves : ∀ {b : UInt8} {rest : List UInt8},
      (process.image.file inode).drop position = b :: rest →
      (∀ other, other ≠ fd →
        Function.update fdt fd (Fd.regular inode (position + 1)) other = fdt other) ∧
      (({ reader with c := b } : FrameReader).eof = false →
        Function.update fdt fd (Fd.regular inode (position + 1)) fd =
          Fd.regular inode (position + 1)) :=
    fun _ => ⟨fun _ different => Function.update_of_ne different .., fun _ =>
      Function.update_self ..⟩
  cases line with
  | nil =>
      obtain ⟨⟨more, drop_eq⟩, last_eq, eof_eq⟩ | ⟨drop_eq, last_eq, eof_eq⟩ := behind
      · obtain ⟨read, inside', -⟩ := next_byte well entry valid newline drop_eq
        obtain ⟨others, moved⟩ := moves drop_eq
        refine ⟨_, position + 1, _, read, others, moved, inside', iff_of_true rfl rfl, if_pos rfl,
          fun _ => ⟨rfl, last_eq, ?_⟩, fun other => ?_⟩
        · rw [eof_eq, not_eof]
        · exact absurd rfl other
      · have read := next_end well entry valid inside newline drop_eq
        exact ⟨⟨NEWLINE, true⟩, position, fdt, read, fun _ _ => rfl, nofun, inside,
          iff_of_true rfl rfl, if_pos rfl, fun _ => ⟨rfl, last_eq, eof_eq⟩,
          fun other => absurd rfl other⟩
  | cons b line =>
      rw [List.mem_cons, not_or] at solid
      have other : b ≠ NEWLINE := fun same => solid.1 same.symm
      have goes_on : b = NEWLINE ↔ b :: line = [] := iff_of_false other (List.cons_ne_nil b line)
      obtain ⟨⟨more, drop_eq⟩, last_eq, eof_eq⟩ | ⟨drop_eq, last_eq, eof_eq⟩ := behind
      · obtain ⟨read, inside', drop_next⟩ := next_byte well entry valid newline drop_eq
        obtain ⟨others, moved⟩ := moves drop_eq
        refine ⟨_, position + 1, _, read, others, moved, inside', goes_on, if_neg other,
          fun same => absurd same other, fun _ =>
          ⟨not_eof, solid.2, Or.inl ⟨⟨more, drop_next⟩, ?_, eof_eq⟩⟩⟩
        rw [last_eq, List.length_cons, List.tail_cons]
        omega
      · obtain ⟨read, inside', drop_next⟩ := next_byte well entry valid newline drop_eq
        obtain ⟨others, moved⟩ := moves drop_eq
        refine ⟨_, position + 1, _, read, others, moved, inside', goes_on, if_neg other,
          fun same => absurd same other, fun _ =>
          ⟨not_eof, solid.2, Or.inr ⟨drop_next, ?_, eof_eq⟩⟩⟩
        rw [last_eq, List.length_cons, List.tail_cons]
        omega

/-! ## Rows -/

theorem FrameReader.visible_iff (reader : FrameReader) :
    reader.c ≠ 32 ∧ reader.c ≠ NEWLINE ↔ reader.char ≠ 32 := by
  rw [char]
  split_ifs with newline <;> simp [newline]

theorem FrameReader.Ahead.at_end {reader : FrameReader} {file : List UInt8} {position last : Nat}
    {eof : Bool} (ahead : reader.Ahead file position [] last eof) (newline : reader.c = NEWLINE) :
    reader = ⟨NEWLINE, eof⟩ ∧ last = position := by
  obtain ⟨-, last_eq, eof_eq⟩ := ahead.ended newline
  refine ⟨?_, last_eq⟩
  rw [← newline, eof_eq]

section rows

variable {fd0 fd1 : Fin 8} {inode0 inode1 position0 position1 last0 last1 : Nat}
  {reader0 reader1 : FrameReader} {line0 line1 : List UInt8} {eof0 eof1 : Bool}

theorem frame_row_prints (well : process.image.WellFormed) (distinct : fd0 ≠ fd1)
    (valid0 : inode0 < process.image.num_inodes) (valid1 : inode1 < process.image.num_inodes)
    (entry0 : reader0.eof = false → fdt fd0 = Fd.regular inode0 position0)
    (entry1 : reader1.eof = false → fdt fd1 = Fd.regular inode1 position1)
    (inside0 : position0 ≤ process.image.length inode0)
    (inside1 : position1 ≤ process.image.length inode1)
    (ahead0 : reader0.Ahead (process.image.file inode0) position0 line0 last0 eof0)
    (ahead1 : reader1.Ahead (process.image.file inode1) position1 line1 last1 eof1)
    (blink_struct : Blink) (row col : Nat) (state : BlinkState) {rounds : Nat}
    (enough : max line0.length line1.length < rounds) :
    ∃ after,
      process.Prints (frame_row fd0 fd1 blink_struct row rounds col reader0 reader1 state) []
        (⟨NEWLINE, eof0⟩, ⟨NEWLINE, eof1⟩,
          state.addAll (row_users blink_struct row col line0 line1)) fdt after ∧
      (∀ other, other ≠ fd0 → other ≠ fd1 → after other = fdt other) ∧
      (eof0 = false → after fd0 = Fd.regular inode0 last0) ∧
      (eof1 = false → after fd1 = Fd.regular inode1 last1) ∧
      last0 ≤ process.image.length inode0 ∧ last1 ≤ process.image.length inode1 := by
  induction rounds generalizing fdt position0 position1 reader0 reader1 line0 line1 col state with
  | zero => omega
  | succ rounds ih =>
      obtain ⟨next0, position0', middle, read0, others0, moved0, inside0', newline0, char0,
        behind0⟩ := next_prints well valid0 inside0 entry0 ahead0
      have entry1' : reader1.eof = false → middle fd1 = Fd.regular inode1 position1 :=
        fun open_file => (others0 fd1 distinct.symm).trans (entry1 open_file)
      obtain ⟨next1, position1', moved, read1, others1, moved1, inside1', newline1, char1,
        behind1⟩ := next_prints well valid1 inside1 entry1' ahead1
      have moved0 : next0.eof = false → moved fd0 = Fd.regular inode0 position0' :=
        fun open_file => (others1 fd0 distinct).trans (moved0 open_file)
      have kept : ∀ other, other ≠ fd0 → other ≠ fd1 → moved other = fdt other :=
        fun other not0 not1 => (others1 other not1).trans (others0 other not0)
      rw [frame_row]
      by_cases ended : line0 = [] ∧ line1 = []
      · obtain ⟨rfl, rfl⟩ := ended
        obtain ⟨rfl, rfl⟩ := behind0.at_end (newline0.mpr rfl)
        obtain ⟨rfl, rfl⟩ := behind1.at_end (newline1.mpr rfl)
        refine ⟨moved, read0.silent (read1.silent ?_), kept, moved0, moved1, inside0', inside1'⟩
        simp only [and_self, if_true]
        exact prints_done _
      · have more : line0 ≠ [] ∨ line1 ≠ [] := not_and_or.mp ended
        have goes_on : ¬(next0.c = NEWLINE ∧ next1.c = NEWLINE) := by rwa [newline0, newline1]
        have shorter : max line0.tail.length line1.tail.length < rounds := by
          rw [List.length_tail, List.length_tail]
          have positive : 0 < line0.length ∨ 0 < line1.length :=
            more.imp List.length_pos_iff.mpr List.length_pos_iff.mpr
          omega
        let added := if next0.char ≠ 32 ∨ next1.char ≠ 32 then
          (state.mp1_ioctl_add (framed_cell blink_struct row col next0.char next1.char)).state
          else state
        obtain ⟨after, rest, others, last_entries⟩ := ih moved0 moved1 inside0' inside1' behind0
          behind1 (col + 1) added shorter
        refine ⟨after, read0.silent (read1.silent ?_), fun other not0 not1 =>
          (others other not0 not1).trans (kept other not0 not1), last_entries⟩
        have users : state.addAll (row_users blink_struct row col line0 line1) =
            added.addAll (row_users blink_struct row (col + 1) line0.tail line1.tail) := by
          rw [row_users_step blink_struct row col more, ← char0, ← char1]
          simp only [BlinkState.addAll, List.foldl_append, added]
          split_ifs <;> rfl
        simp only [if_neg goes_on, FrameReader.visible_iff]
        rw [users]
        exact rest

/-! ## Files -/

theorem prints_close {fd : Fin 8} (from_two : 2 ≤ fd) :
    ∃ (reply : Reply) (after : Fin 8 → Fd),
      process.Prints (request (.descriptor (.close fd))) [] reply fdt after ∧
      ∀ other, other ≠ fd → after other = fdt other := by
  by_cases closed : (fdt fd).flags = 0
  · refine ⟨⟨-1, []⟩, fdt, prints_descriptor (answers_close_closed fun k same _ => ?_),
      fun _ _ => rfl⟩
    have k_eq : k = fd := Fin.ext (by omega)
    rw [k_eq, closed]
  by_cases no_table : (fdt fd).file_operation_table_ptr = none
  · exact ⟨⟨-1, []⟩, fdt, prints_descriptor (answers_close_no_table no_table), fun _ _ => rfl⟩
  · exact ⟨⟨0, []⟩, _, prints_descriptor (answers_close from_two closed no_table),
      fun other different => Function.update_of_ne different ..⟩

theorem rewind_prints {fd : Fin 8} (from_two : 2 ≤ fd) (eof : Bool) :
    ∃ after, process.Prints (FrameReader.rewind fd ⟨NEWLINE, eof⟩) []
        (if eof then ⟨NEWLINE, true⟩ else ⟨48, false⟩) fdt after ∧
      (∀ other, other ≠ fd → after other = fdt other) ∧ (eof = false → after = fdt) := by
  cases eof with
  | false => exact ⟨fdt, prints_done _, fun _ _ => rfl, fun _ => rfl⟩
  | true =>
      obtain ⟨reply, after, closed, others⟩ := @prints_close process fdt fd from_two
      exact ⟨after, closed.silent (prints_done _), others, nofun⟩

/-- A reader at the start of a row, and the lines in front of it. -/
inductive FrameReader.Lines (file : List UInt8) : FrameReader → Nat → List (List UInt8) → Prop
  /-- The file has ended. -/
  | ended (position : Nat) : Lines file ⟨NEWLINE, true⟩ position []
  /-- It goes on. -/
  | reading (position : Nat) :
      Lines file ⟨48, false⟩ position ((file.drop position).splitOn NEWLINE)

theorem FrameReader.Lines.ahead {reader : FrameReader} {file : List UInt8} {position : Nat}
    {lines : List (List UInt8)} (lines_eq : reader.Lines file position lines) :
    ∃ last eof, reader.Ahead file position (lines.headD []) last eof ∧
      (if eof then ⟨NEWLINE, true⟩ else ⟨48, false⟩ : FrameReader).Lines file last lines.tail := by
  cases lines_eq with
  | ended => exact ⟨position, true, ⟨fun _ => ⟨rfl, rfl, rfl⟩, fun other => absurd rfl other⟩,
      Lines.ended position⟩
  | reading =>
      have not_newline : (48 : UInt8) ≠ NEWLINE := by decide
      by_cases mem : NEWLINE ∈ file.drop position
      · obtain ⟨line, more, drop_eq, solid⟩ := List.eq_append_cons_of_mem mem
        have split : (file.drop position).splitOn NEWLINE = line :: more.splitOn NEWLINE := by
          rw [drop_eq, List.splitOn_append_cons_self_of_not_mem solid]
        have drop_last : file.drop (position + line.length + 1) = more := by
          rw [Nat.add_assoc, ← List.drop_drop, drop_eq, ← List.singleton_append,
            ← List.append_assoc, ← List.length_singleton, ← List.length_append]
          exact List.drop_left
        rw [split]
        refine ⟨position + line.length + 1, false, ⟨fun same => absurd same not_newline, fun _ =>
          ⟨rfl, solid, Or.inl ⟨⟨more, drop_eq⟩, rfl, rfl⟩⟩⟩, ?_⟩
        have rest := @Lines.reading file (position + line.length + 1)
        rwa [drop_last] at rest
      · have split : (file.drop position).splitOn NEWLINE = [file.drop position] :=
          List.splitOn_eq_singleton mem
        rw [split]
        exact ⟨position + (file.drop position).length, true,
          ⟨fun same => absurd same not_newline, fun _ => ⟨rfl, mem, Or.inr ⟨rfl, rfl, rfl⟩⟩⟩,
          Lines.ended _⟩

theorem FrameReader.Lines.eof_iff {reader : FrameReader} {file : List UInt8} {position : Nat}
    {lines : List (List UInt8)} (lines_eq : reader.Lines file position lines) :
    reader.eof = false ↔ lines ≠ [] := by
  cases lines_eq with
  | ended => simp
  | reading => simp [List.splitOn_ne_nil]

/-- The rows add the characters of all lines. -/
theorem frame_rows_prints (well : process.image.WellFormed) (distinct : fd0 ≠ fd1)
    (from_two0 : 2 ≤ fd0) (from_two1 : 2 ≤ fd1)
    (valid0 : inode0 < process.image.num_inodes) (valid1 : inode1 < process.image.num_inodes)
    (entry0 : reader0.eof = false → fdt fd0 = Fd.regular inode0 position0)
    (entry1 : reader1.eof = false → fdt fd1 = Fd.regular inode1 position1)
    (inside0 : position0 ≤ process.image.length inode0)
    (inside1 : position1 ≤ process.image.length inode1) {lines0 lines1 : List (List UInt8)}
    (ahead0 : reader0.Lines (process.image.file inode0) position0 lines0)
    (ahead1 : reader1.Lines (process.image.file inode1) position1 lines1) (blink_struct : Blink)
    {cols : Nat} (short0 : ∀ line ∈ lines0, line.length < cols)
    (short1 : ∀ line ∈ lines1, line.length < cols) (row : Nat) (state : BlinkState) {rounds : Nat}
    (enough : max lines0.length lines1.length < rounds) :
    ∃ after, process.Prints
        (frame_rows fd0 fd1 blink_struct cols rounds row reader0 reader1 state) []
        (state.addAll (frame_users blink_struct row lines0 lines1)) fdt after ∧
      ∀ other, other ≠ fd0 → other ≠ fd1 → after other = fdt other := by
  induction rounds generalizing fdt position0 position1 reader0 reader1 lines0 lines1 row state with
  | zero => omega
  | succ rounds ih =>
      rw [frame_rows]
      have goes_on : reader0.eof = false ∨ reader1.eof = false ↔ lines0 ≠ [] ∨ lines1 ≠ [] :=
        or_congr ahead0.eof_iff ahead1.eof_iff
      by_cases more : lines0 ≠ [] ∨ lines1 ≠ []
      · rw [if_pos (goes_on.mpr more)]
        obtain ⟨last0, eof0, line0, behind0⟩ := ahead0.ahead
        obtain ⟨last1, eof1, line1, behind1⟩ := ahead1.ahead
        have head_short : ∀ {lines : List (List UInt8)}, (∀ line ∈ lines, line.length < cols) →
            0 < cols → (lines.headD []).length < cols := by
          intro lines short positive
          cases lines with
          | nil => exact positive
          | cons line lines => exact short line List.mem_cons_self
        have positive : 0 < cols := by
          rcases more with more | more
          · obtain ⟨line, mem⟩ := List.exists_mem_of_ne_nil _ more
            exact Nat.zero_lt_of_lt (short0 line mem)
          · obtain ⟨line, mem⟩ := List.exists_mem_of_ne_nil _ more
            exact Nat.zero_lt_of_lt (short1 line mem)
        obtain ⟨middle, row_prints, others, last_entry0, last_entry1, last_inside0, last_inside1⟩ :=
          frame_row_prints well distinct valid0 valid1 entry0 entry1 inside0 inside1 line0 line1
            blink_struct row 0 state
            (max_lt (head_short short0 positive) (head_short short1 positive))
        obtain ⟨closed0, rewinds0, others0, same0⟩ :=
          @rewind_prints process middle fd0 from_two0 eof0
        obtain ⟨closed1, rewinds1, others1, same1⟩ :=
          @rewind_prints process closed0 fd1 from_two1 eof1
        have open_iff : ∀ eof : Bool,
            (if eof then ⟨NEWLINE, true⟩ else ⟨48, false⟩ : FrameReader).eof = false ↔
              eof = false := by decide
        have entry0' : (if eof0 then ⟨NEWLINE, true⟩ else ⟨48, false⟩ : FrameReader).eof = false →
            closed1 fd0 = Fd.regular inode0 last0 := by
          rw [open_iff]
          intro open_file
          rw [others1 fd0 distinct, same0 open_file, last_entry0 open_file]
        have entry1' : (if eof1 then ⟨NEWLINE, true⟩ else ⟨48, false⟩ : FrameReader).eof = false →
            closed1 fd1 = Fd.regular inode1 last1 := by
          rw [open_iff]
          intro open_file
          rw [same1 open_file, others0 fd1 distinct.symm, last_entry1 open_file]
        have shorter : max lines0.tail.length lines1.tail.length < rounds := by
          rw [List.length_tail, List.length_tail]
          have positive : 0 < lines0.length ∨ 0 < lines1.length :=
            more.imp List.length_pos_iff.mpr List.length_pos_iff.mpr
          omega
        obtain ⟨after, rest, kept⟩ := ih entry0' entry1' last_inside0 last_inside1 behind0 behind1
          (fun line mem => short0 line (List.mem_of_mem_tail mem))
          (fun line mem => short1 line (List.mem_of_mem_tail mem)) (row + 1)
          (state.addAll (row_users blink_struct row 0 (lines0.headD []) (lines1.headD []))) shorter
        have users : state.addAll (frame_users blink_struct row lines0 lines1) =
            (state.addAll (row_users blink_struct row 0 (lines0.headD []) (lines1.headD []))).addAll
              (frame_users blink_struct (row + 1) lines0.tail lines1.tail) := by
          rw [frame_users_step blink_struct row more, BlinkState.addAll, List.foldl_append]
          rfl
        rw [users]
        refine ⟨after, row_prints.silent (rewinds0.silent (rewinds1.silent rest)), ?_⟩
        intro other not0 not1
        rw [kept other not0 not1, others1 other not1, others0 other not0, others other not0 not1]
      · rw [if_neg (mt goes_on.mp more)]
        have ended : lines0 = [] ∧ lines1 = [] := by simpa [not_or] using more
        rw [ended.1, ended.2]
        exact ⟨fdt, prints_done _, fun _ _ _ => rfl⟩

end rows

/-- The structures that `add_frames` passes on for two files. -/
def frames_users (blink_struct : Blink) (file0 file1 : List UInt8) : List Blink :=
  frame_users { blink_struct with on_length := 15, off_length := 15 } 0 (file0.splitOn NEWLINE)
    (file1.splitOn NEWLINE)

/-- `add_frames` adds the characters of its two files. -/
theorem add_frames_prints (well : process.image.WellFormed) {f0 f1 : List UInt8}
    {dentry0 dentry1 : Dentry} (found0 : process.image.lookup (text f0) = some dentry0)
    (found1 : process.image.lookup (text f1) = some dentry1) (regular0 : dentry0.file_type = 2)
    (regular1 : dentry1.file_type = 2) (in_use : (fdt 2).flags ≠ 0)
    (closed : ∀ fd, 3 ≤ fd → (fdt fd).flags = 0) {rows cols : Nat}
    (short0 : ∀ line ∈ (process.image.file dentry0.inode_index).splitOn NEWLINE,
      line.length < cols)
    (short1 : ∀ line ∈ (process.image.file dentry1.inode_index).splitOn NEWLINE,
      line.length < cols)
    (few0 : ((process.image.file dentry0.inode_index).splitOn NEWLINE).length < rows)
    (few1 : ((process.image.file dentry1.inode_index).splitOn NEWLINE).length < rows)
    (blink_struct : Blink) (state : BlinkState) :
    ∃ after, process.Prints (add_frames f0 f1 rows cols blink_struct state) []
        (some (state.addAll (frames_users blink_struct (process.image.file dentry0.inode_index)
          (process.image.file dentry1.inode_index)))) fdt after ∧
      after 2 = fdt 2 := by
  have valid0 := well.inode_lt _ (Image.mem_entries_of_lookup found0) regular0
  have valid1 := well.inode_lt _ (Image.mem_entries_of_lookup found1) regular1
  let first := Function.update fdt 3 (Fd.ofDentry dentry0)
  let second := Function.update first 4 (Fd.ofDentry dentry1)
  have opened0 : process.Prints (request (.descriptor (.open_file f0))) [] ⟨3, []⟩ fdt first := by
    refine prints_descriptor
      (answers_open found0 (by omega) (by decide) (closed 3 le_rfl) fun k from_two below => ?_)
    have two : k = 2 := by omega
    rw [two]
    exact in_use
  have opened1 : process.Prints (request (.descriptor (.open_file f1))) [] ⟨4, []⟩ first
      second := by
    have free : (first 4).flags = 0 := closed 4 (by decide)
    refine prints_descriptor
      (answers_open found1 (by omega) (by decide) free fun k from_two below => ?_)
    obtain rfl | rfl : k = 2 ∨ k = 3 := by omega
    · exact in_use
    · exact one_ne_zero
  have entry0 : second 3 = Fd.regular dentry0.inode_index 0 := Fd.ofDentry_regular regular0
  have entry1 : second 4 = Fd.regular dentry1.inode_index 0 := Fd.ofDentry_regular regular1
  obtain ⟨after, rows_print, others⟩ := @frame_rows_prints process second 3 4 _ _ 0 0 .start .start
    well (by decide) (by decide) (by decide) valid0 valid1 (fun _ => entry0) (fun _ => entry1)
    (Nat.zero_le _) (Nat.zero_le _) _ _ (FrameReader.Lines.reading 0)
    (FrameReader.Lines.reading 0) { blink_struct with on_length := 15, off_length := 15 } cols
    short0 short1 0 state rows (max_lt few0 few1)
  refine ⟨after, opened0.silent ?_, ?_⟩
  · have open3 : ¬(3 : Int) < 0 := by decide
    have open4 : ¬(4 : Int) < 0 := by decide
    simp only [if_neg open3]
    refine opened1.silent ?_
    simp only [if_neg open4]
    exact rows_print.silent (prints_done _)
  · rw [others 2 (by decide) (by decide)]
    rfl

end ComputerSystem
