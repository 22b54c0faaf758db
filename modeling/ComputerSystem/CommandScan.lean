import ComputerSystem.ProcessEffects

/-!
# The scan of a command

`execute` copies the first word of its command into a name buffer of 32 bytes, looks at no more than
128 bytes for it, and takes what stands behind the word as the argument.  The scan is given in
closed form, with the bytes it reads, and compared with the words of the command.
-/

namespace ComputerSystem

open CString

/-! ## The words of a command -/

/-- Blanks in front of the first word. -/
def leading_blanks (line : List UInt8) : Nat := ((text line).takeWhile (· = SPACE)).length

/-- The first word; a command without a word has an empty one. -/
def first_word (line : List UInt8) : List UInt8 :=
  ((text line).dropWhile (· = SPACE)).takeWhile (· ≠ SPACE)

/-- What stands behind the first word and the blanks that follow it. -/
def argument_part (line : List UInt8) : List UInt8 :=
  (((text line).dropWhile (· = SPACE)).dropWhile (· ≠ SPACE)).dropWhile (· = SPACE)

/-- The string behind the first byte that is not a blank: the rest of the first word and what
follows it.  Without a word that byte is the NUL, and the string lies behind the command. -/
def after_first (line : List UInt8) : List UInt8 := text (line.drop (leading_blanks line + 1))

/-- The index at which the first word ends; without a word, that of the word behind the NUL. -/
def name_end (line : List UInt8) : Nat :=
  leading_blanks line + 1 + ((after_first line).takeWhile (· ≠ SPACE)).length

/-! ## What the loops read -/

/-- The indices at which the loop of `parse_command` reads the command. -/
def parse_reads (command : List UInt8) : Nat → Nat → List UInt8 → List Nat
  | 0, _, _ => []
  | remaining + 1, i, exe_command =>
      let c := command.getD i 0
      i ::
        if c = SPACE ∧ exe_command.length = 0 then parse_reads command remaining (i + 1) exe_command
        else if c = 0 ∧ exe_command.length ≠ 0 then []
        else if c ≠ SPACE ∧ exe_command.length < 32 then
          parse_reads command remaining (i + 1) (exe_command ++ [c])
        else if c = SPACE ∧ exe_command.length ≠ 0 then []
        else parse_reads command remaining (i + 1) exe_command

/-- The indices at which the two loops over the argument read the command from `i` on: the blanks,
then the argument with its NUL. -/
def argument_reads (command : List UInt8) (i : Nat) : List Nat :=
  List.range' i (argument_blanks command i + 1) ++
    List.range' (i + argument_blanks command i) ((argument_text command i).length + 1)

/-- The indices at which `execute` reads its command. -/
def Kernel.command_reads (kernel : Kernel) (command : List UInt8) : List Nat :=
  match kernel.free_slot with
  | none => []
  | some _ =>
      let parsed := parse_command command 128 0 []
      parse_reads command 128 0 [] ++ if parsed.flag1 then argument_reads command parsed.i else []

/-- How many bytes of `s1` a call of `strncmp` reads. -/
def strncmp_reads (s1 s2 : List UInt8) : Nat → Nat
  | 0 => 0
  | n + 1 =>
      let a := first s1
      let b := first s2
      if a ≠ b ∨ a = 0 then 1 else strncmp_reads s1.tail s2.tail n + 1

/-- How many bytes of `fname` the loop of `read_dentry_by_name` reads. -/
def read_dentry_loop_reads (image : Image) (fname : List UInt8) : Nat → Nat → Nat → Nat
  | 0, _, _ => 0
  | remaining + 1, index_dir_entry, name_count1 =>
      let entry := image.dir_entries index_dir_entry
      let name_count2 := strlen entry.fnameBytes
      let name_count2 := if name_count2 > 32 then 32 else name_count2
      let name_count1 := if name_count1 < name_count2 then name_count2 else name_count1
      let reads := strncmp_reads fname entry.fnameBytes name_count1
      if strncmp fname entry.fnameBytes name_count1 = 0 then reads
      else
        max reads
          (read_dentry_loop_reads image fname remaining (index_dir_entry + 1) name_count1)

/-- How many bytes of `fname` `read_dentry_by_name` reads: `strlen` goes up to the NUL. -/
def read_dentry_by_name_reads (image : Image) (fname : List UInt8) : Nat :=
  if strlen fname > 32 then strlen fname + 1
  else max (strlen fname + 1)
    (read_dentry_loop_reads image fname image.num_dir_entry 0 (strlen fname))

/-- The memory from the name buffer of `execute` on. -/
def name_buffer (frame : Frame) (exe_command : List UInt8) : List UInt8 :=
  exe_command ++ List.replicate (32 - exe_command.length) 0 ++ frame.exe_tail

/-- The name buffer that `execute` looks up, if it comes to that. -/
def Kernel.looked_up (kernel : Kernel) (frame : Frame) (command : List UInt8) :
    Option (List UInt8) :=
  kernel.free_slot.map fun _ => name_buffer frame (parse_command command 128 0 []).exe_command

/-! ## The scan in closed form -/

theorem take_take_append {α : Type*} (n : Nat) (l rest : List α) :
    (l.take n ++ rest).take n = (l ++ rest).take n := by
  rw [List.take_append, List.take_append, List.take_take, Nat.min_self, List.length_take]
  congr 2
  omega

section Begun

variable (line : List UInt8) (remaining : Nat) {i : Nat} {copied : List UInt8}

theorem take_push (room : copied.length ≤ 32) (c : UInt8) :
    (copied ++ [c]).take 32 = if copied.length < 32 then copied ++ [c] else copied := by
  split_ifs with short
  · apply List.take_of_length_le
    rw [List.length_append, List.length_singleton]
    exact short
  · exact List.take_left' (by omega)

theorem parse_command_round (begun : copied ≠ []) (room : copied.length ≤ 32) :
    parse_command line (remaining + 1) i copied =
      if line.getD i 0 = 0 then ⟨i, copied, false⟩
      else if line.getD i 0 = SPACE then ⟨i, copied, true⟩
      else parse_command line remaining (i + 1) ((copied ++ [line.getD i 0]).take 32) := by
  have not_empty : copied.length ≠ 0 := mt List.eq_nil_of_length_eq_zero begun
  rw [parse_command, take_push room]
  generalize line.getD i 0 = c
  simp only [not_empty, and_false, if_false, ne_eq, not_false_eq_true, and_true, ite_and, ite_not]
  split_ifs <;> rfl

theorem parse_reads_round (begun : copied ≠ []) (room : copied.length ≤ 32) :
    parse_reads line (remaining + 1) i copied =
      i :: if line.getD i 0 = 0 then []
        else if line.getD i 0 = SPACE then []
        else parse_reads line remaining (i + 1) ((copied ++ [line.getD i 0]).take 32) := by
  have not_empty : copied.length ≠ 0 := mt List.eq_nil_of_length_eq_zero begun
  rw [parse_reads, take_push room]
  generalize line.getD i 0 = c
  simp only [not_empty, and_false, if_false, ne_eq, not_false_eq_true, and_true, ite_and, ite_not]
  split_ifs <;> rfl

/-- The word that a string begins with, byte by byte. -/
theorem takeWhile_text_drop (s : List UInt8) (i : Nat) :
    (text (s.drop i)).takeWhile (· ≠ SPACE) =
      if s.getD i 0 = 0 then []
      else if s.getD i 0 = SPACE then []
      else s.getD i 0 :: (text (s.drop (i + 1))).takeWhile (· ≠ SPACE) := by
  rw [text_drop]
  split_ifs with nul blank
  · rfl
  · exact List.takeWhile_cons_of_neg (by simpa using blank)
  · exact List.takeWhile_cons_of_pos (by simpa using blank)

/-- The loop stops at the blank or NUL that ends the word, or at its limit. -/
theorem parse_command_begun (begun : copied ≠ []) (room : copied.length ≤ 32) :
    let rest := text (line.drop i)
    let word := rest.takeWhile (· ≠ SPACE)
    parse_command line remaining i copied =
      ⟨i + min word.length remaining, (copied ++ word.take remaining).take 32,
        decide (word.length < remaining ∧ word.length < rest.length)⟩ := by
  intro rest word
  induction remaining generalizing i copied with
  | zero => simp [parse_command, List.take_of_length_le room]
  | succ remaining ih =>
      have whole : copied.take 32 = copied := List.take_of_length_le room
      have word_eq : word = _ := takeWhile_text_drop line i
      have rest_eq : rest = _ := text_drop line i
      rw [parse_command_round line remaining begun room, word_eq, rest_eq]
      generalize line.getD i 0 = c
      split_ifs with nul blank
      · simp [whole]
      · simp [whole]
      · have begun_next : (copied ++ [c]).take 32 ≠ [] := by simp
        have room_next : ((copied ++ [c]).take 32).length ≤ 32 := List.length_take_le _ _
        have name_eq (word : List UInt8) : ((copied ++ [c]).take 32 ++ word).take 32 =
            (copied ++ c :: word).take 32 := by
          rw [take_take_append, List.append_assoc, List.singleton_append]
        rw [ih begun_next room_next, name_eq]
        generalize text (line.drop (i + 1)) = rest
        simp only [List.length_cons, List.take_succ_cons, Nat.succ_min_succ, Nat.succ_lt_succ_iff,
          Parsed.mk.injEq, and_self, and_true]
        omega

theorem parse_reads_begun (begun : copied ≠ []) (room : copied.length ≤ 32) :
    parse_reads line remaining i copied =
      List.range' i
        (min (((text (line.drop i)).takeWhile (· ≠ SPACE)).length + 1) remaining) := by
  induction remaining generalizing i copied with
  | zero => simp [parse_reads]
  | succ remaining ih =>
      rw [parse_reads_round line remaining begun room, takeWhile_text_drop]
      generalize line.getD i 0 = c
      split_ifs with nul blank
      · simp
      · simp
      · have begun_next : (copied ++ [c]).take 32 ≠ [] := by simp
        rw [ih begun_next (List.length_take_le _ _), Nat.succ_min_succ, List.range'_succ]
        rfl

end Begun
/-- The loop skips blanks in front of the name. -/
theorem parse_command_blanks (line : List UInt8) (remaining : Nat) {before i : Nat}
    (blank : ∀ k < before, line.getD (i + k) 0 = SPACE) :
    parse_command line (before + remaining) i [] =
      parse_command line remaining (i + before) [] := by
  induction before generalizing i with
  | zero => rw [Nat.zero_add, Nat.add_zero]
  | succ before ih =>
      have here := blank 0 (Nat.succ_pos before)
      rw [Nat.add_zero] at here
      rw [Nat.succ_add, parse_command, if_pos ⟨here, rfl⟩, ih, Nat.add_right_comm, Nat.add_assoc]
      intro k inside
      rw [Nat.add_right_comm, Nat.add_assoc]
      exact blank (k + 1) (Nat.succ_lt_succ inside)

theorem parse_reads_blanks (line : List UInt8) (remaining : Nat) {before i : Nat}
    (blank : ∀ k < before, line.getD (i + k) 0 = SPACE) :
    parse_reads line (before + remaining) i [] =
      List.range' i before ++ parse_reads line remaining (i + before) [] := by
  induction before generalizing i with
  | zero => rw [Nat.zero_add, Nat.add_zero, List.range'_zero, List.nil_append]
  | succ before ih =>
      have here := blank 0 (Nat.succ_pos before)
      rw [Nat.add_zero] at here
      rw [Nat.succ_add, parse_reads, if_pos ⟨here, rfl⟩, ih, List.range'_succ, List.cons_append,
        Nat.add_right_comm, Nat.add_assoc]
      intro k inside
      rw [Nat.add_right_comm, Nat.add_assoc]
      exact blank (k + 1) (Nat.succ_lt_succ inside)

/-! ### Blanks -/

theorem leading_blanks_le (line : List UInt8) : leading_blanks line ≤ (text line).length :=
  (List.takeWhile_prefix _).length_le

/-- Behind the blanks the string goes on with what is not a blank. -/
theorem text_drop_leading_blanks (line : List UInt8) :
    text (line.drop (leading_blanks line)) = (text line).dropWhile (· = SPACE) := by
  rw [text_drop_of_le line (leading_blanks_le line)]
  exact drop_length_takeWhile _ _

theorem getD_of_lt_leading_blanks {line : List UInt8} {k : Nat} (inside : k < leading_blanks line) :
    line.getD k 0 = SPACE := by
  rw [getD_eq_text_getD line (inside.le.trans (leading_blanks_le line)),
    ← List.takeWhile_append_dropWhile (p := (· = SPACE)) (l := text line),
    List.getD_append _ _ _ _ inside, List.getD_eq_getElem _ _ inside]
  simpa using List.mem_takeWhile_imp (List.getElem_mem inside)

theorem getD_leading_blanks_ne (line : List UInt8) :
    line.getD (leading_blanks line) 0 ≠ SPACE := by
  have behind := text_drop_leading_blanks line
  rw [text_drop] at behind
  have head := List.head?_dropWhile_not (· = SPACE) (text line)
  rw [← behind] at head
  split_ifs at head with nul
  · rw [nul]
    decide
  · simpa using head

/-- The first word begins with the first byte that is not a blank, unless that is the NUL. -/
theorem first_word_eq (line : List UInt8) :
    first_word line =
      if line.getD (leading_blanks line) 0 = 0 then []
      else line.getD (leading_blanks line) 0 :: (after_first line).takeWhile (· ≠ SPACE) := by
  rw [first_word, ← text_drop_leading_blanks, takeWhile_text_drop,
    if_neg (getD_leading_blanks_ne line), after_first]

/-! ### The whole scan -/

theorem parse_command_eq (line : List UInt8) :
    parse_command line 128 0 [] =
      if 128 ≤ leading_blanks line then ⟨128, [], false⟩
      else
        let word := (after_first line).takeWhile (· ≠ SPACE)
        ⟨min (name_end line) 128,
          (line.getD (leading_blanks line) 0 :: word.take (127 - leading_blanks line)).take 32,
          decide (name_end line < 128 ∧ word.length < (after_first line).length)⟩ := by
  have blank (k : Nat) (inside : k < leading_blanks line) : line.getD (0 + k) 0 = SPACE := by
    rw [Nat.zero_add]
    exact getD_of_lt_leading_blanks inside
  split_ifs with past
  · rw [← Nat.add_zero 128, parse_command_blanks line 0 fun k inside => blank k (by omega)]
    rfl
  · have split : 128 = leading_blanks line + (127 - leading_blanks line + 1) := by omega
    have not_blank := getD_leading_blanks_ne line
    conv_lhs => rw [split, parse_command_blanks line _ blank, parse_command, Nat.zero_add]
    simp only [not_blank, false_and, if_false, List.length_nil, ne_eq, not_true, and_false,
      not_false_eq_true, true_and, List.nil_append]
    rw [if_pos (by decide), parse_command_begun line _ (List.cons_ne_nil _ _) (by simp)]
    rw [← after_first, name_end]
    generalize ((after_first line).takeWhile (· ≠ SPACE)).length = length
    simp only [Parsed.mk.injEq, decide_eq_decide]
    refine ⟨by omega, rfl, by omega⟩

theorem parse_reads_eq (line : List UInt8) :
    parse_reads line 128 0 [] = List.range (min (name_end line + 1) 128) := by
  have blank (k : Nat) (inside : k < leading_blanks line) : line.getD (0 + k) 0 = SPACE := by
    rw [Nat.zero_add]
    exact getD_of_lt_leading_blanks inside
  rcases Nat.lt_or_ge (leading_blanks line) 128 with inside | past
  · have split : 128 = leading_blanks line + (127 - leading_blanks line + 1) := by omega
    have not_blank := getD_leading_blanks_ne line
    conv_lhs => rw [split, parse_reads_blanks line _ blank, parse_reads, Nat.zero_add]
    simp only [not_blank, false_and, if_false, List.length_nil, ne_eq, not_true, and_false,
      not_false_eq_true, true_and, List.nil_append]
    rw [if_pos (by decide), parse_reads_begun line _ (List.cons_ne_nil _ _) (by simp),
      ← after_first, ← List.range'_succ, List.range_eq_range']
    have joined (m n : Nat) : List.range' 0 m ++ List.range' m n = List.range' 0 (m + n) := by
      rw [← List.range'_append_1, Nat.zero_add]
    rw [joined, name_end]
    congr 1
    omega
  · conv_lhs =>
      rw [← Nat.add_zero 128, parse_reads_blanks line 0 fun k inside => blank k (by omega)]
    rw [parse_reads, List.append_nil, List.range_eq_range', name_end]
    congr 1
    omega

/-! ## The argument -/

/-- What stands behind the word that `name_end` ends, and behind the blanks that follow it. -/
def argument_behind (line : List UInt8) : List UInt8 :=
  ((after_first line).dropWhile (· ≠ SPACE)).dropWhile (· = SPACE)

theorem argument_blanks_eq (line : List UInt8) (i : Nat) :
    argument_blanks line i = ((text (line.drop i)).takeWhile (· = SPACE)).length := by
  rw [argument_blanks, text, List.takeWhile_takeWhile]
  congr 2
  funext c
  rcases eq_or_ne c SPACE with rfl | other
  · rfl
  · simp [other]

theorem argument_text_eq (line : List UInt8) (i : Nat) :
    argument_text line i = (text (line.drop i)).dropWhile (· = SPACE) := by
  have inside : argument_blanks line i ≤ (text (line.drop i)).length := by
    rw [argument_blanks_eq]
    exact (List.takeWhile_prefix _).length_le
  rw [argument_text, ← List.drop_drop, text_drop_of_le _ inside, argument_blanks_eq,
    drop_length_takeWhile]

theorem argument_length (line : List UInt8) {i : Nat} (inside : i ≤ (text line).length) :
    i + argument_blanks line i + (argument_text line i).length = (text line).length := by
  have parts := congrArg List.length
    (List.takeWhile_append_dropWhile (p := (· = SPACE)) (l := text (line.drop i)))
  rw [List.length_append, ← argument_blanks_eq, ← argument_text_eq, text_drop_of_le line inside,
    List.length_drop] at parts
  omega

theorem text_drop_name_end (line : List UInt8) :
    text (line.drop (name_end line)) = (after_first line).dropWhile (· ≠ SPACE) := by
  have inside : ((after_first line).takeWhile (· ≠ SPACE)).length ≤
      (text (line.drop (leading_blanks line + 1))).length := (List.takeWhile_prefix _).length_le
  rw [name_end, ← List.drop_drop, text_drop_of_le _ inside, ← after_first, drop_length_takeWhile]

theorem parse_command_i (line : List UInt8) :
    (parse_command line 128 0 []).i = min (name_end line) 128 := by
  rw [parse_command_eq]
  split_ifs with late
  · have ends_late : 128 ≤ name_end line := by
      rw [name_end]
      omega
    exact (Nat.min_eq_right ends_late).symm
  · rfl

theorem parse_command_flag1 (line : List UInt8) :
    (parse_command line 128 0 []).flag1 = true ↔
      name_end line < 128 ∧ (after_first line).dropWhile (· ≠ SPACE) ≠ [] := by
  have parts := congrArg List.length
    (List.takeWhile_append_dropWhile (p := (· ≠ SPACE)) (l := after_first line))
  rw [List.length_append] at parts
  rw [parse_command_eq, ← List.length_pos_iff]
  split_ifs with late
  · have ends_late : ¬name_end line < 128 := by
      rw [name_end]
      omega
    exact iff_of_false id fun both => ends_late both.1
  · simp only [decide_eq_true_eq]
    omega

theorem scan_command_argument (line : List UInt8) :
    (scan_command line).argument = if name_end line < 128 then argument_behind line else [] := by
  simp only [scan_command, parse_command_flag1, parse_command_i]
  split_ifs with found ends ends
  · rw [Nat.min_eq_left ends.le, argument_text_eq, text_drop_name_end, argument_behind]
  · exact absurd found.1 ends
  · have nothing : (after_first line).dropWhile (· ≠ SPACE) = [] := by
      by_contra something
      exact found ⟨ends, something⟩
    rw [argument_behind, nothing, List.dropWhile_nil]
  · rfl

/-! ## The name -/

/-- What the two limits leave of the first word. -/
def cut_word (line : List UInt8) : List UInt8 :=
  ((first_word line).take (128 - leading_blanks line)).take 32

/-- A word that ends within the first 128 bytes and fits the name buffer is not cut. -/
theorem cut_word_of_fits {line : List UInt8}
    (uncut : leading_blanks line + (first_word line).length ≤ 128)
    (short : (first_word line).length ≤ 32) : cut_word line = first_word line := by
  have inside : (first_word line).take (128 - leading_blanks line) = first_word line :=
    List.take_of_length_le (by omega)
  rw [cut_word, inside, List.take_of_length_le short]

theorem first_word_eq_nil_iff (line : List UInt8) :
    first_word line = [] ↔ line.getD (leading_blanks line) 0 = 0 := by
  rw [first_word_eq]
  split_ifs with nul
  · exact iff_of_true rfl nul
  · exact iff_of_false id nul

theorem argument_part_eq (line : List UInt8) :
    argument_part line = if first_word line = [] then [] else argument_behind line := by
  have not_blank := getD_leading_blanks_ne line
  simp only [argument_part, ← text_drop_leading_blanks, text_drop line (leading_blanks line),
    argument_behind, after_first, first_word_eq_nil_iff]
  split_ifs with nul
  · rfl
  · rw [List.dropWhile_cons_of_pos (by simpa using not_blank)]

/-- Without a word the blanks go up to the NUL. -/
theorem leading_blanks_of_no_word {line : List UInt8} (no_word : first_word line = []) :
    leading_blanks line = (text line).length := by
  have nul := (first_word_eq_nil_iff line).mp no_word
  have behind := text_drop_leading_blanks line
  rw [text_drop, if_pos nul, ← drop_length_takeWhile, eq_comm, List.drop_eq_nil_iff] at behind
  exact (leading_blanks_le line).antisymm behind

theorem name_end_of_word {line : List UInt8} (word : first_word line ≠ []) :
    name_end line = leading_blanks line + (first_word line).length ∧
      name_end line ≤ (text line).length := by
  have solid := mt (first_word_eq_nil_iff line).mpr word
  have inside := (List.takeWhile_prefix (p := (· ≠ SPACE)) (l := after_first line)).length_le
  have behind := congrArg List.length (text_drop_leading_blanks line)
  have within := leading_blanks_le line
  rw [← text_drop_leading_blanks, text_drop_of_le line within, List.length_drop] at behind
  have rest := congrArg List.length (text_drop line (leading_blanks line))
  rw [if_neg solid, text_drop_of_le line within, List.length_drop, List.length_cons,
    ← after_first] at rest
  rw [first_word_eq, if_neg solid, name_end, List.length_cons]
  omega

theorem parse_command_name_of_word {line : List UInt8} (word : first_word line ≠ []) :
    (parse_command line 128 0 []).exe_command = cut_word line := by
  have solid := mt (first_word_eq_nil_iff line).mpr word
  rw [parse_command_eq, cut_word, first_word_eq, if_neg solid]
  split_ifs with late
  · rw [Nat.sub_eq_zero_of_le late]
    rfl
  · rw [show 128 - leading_blanks line = 127 - leading_blanks line + 1 by omega,
      List.take_succ_cons]

/-- Without a word the name is empty, with the NUL or without it. -/
theorem name_buffer_of_no_word (frame : Frame) {line : List UInt8}
    (no_word : first_word line = []) :
    text (name_buffer frame (parse_command line 128 0 []).exe_command) = [] := by
  have nul := (first_word_eq_nil_iff line).mp no_word
  rw [parse_command_eq, nul]
  split_ifs
  · rfl
  · simp only [name_buffer, List.take_succ_cons, List.cons_append, text_cons, if_true]

theorem solid_of_mem_cut_word {line : List UInt8} {c : UInt8} (mem : c ∈ cut_word line) :
    c ≠ 0 := by
  apply ne_zero_of_mem_text (s := line)
  apply (List.dropWhile_sublist (· = SPACE)).subset
  apply (List.takeWhile_prefix (· ≠ SPACE)).subset
  exact List.mem_of_mem_take (List.mem_of_mem_take mem)

theorem name_buffer_of_short (frame : Frame) {name : List UInt8} (solid : ∀ c ∈ name, c ≠ 0)
    (short : name.length < 32) : text (name_buffer frame name) = name := by
  obtain ⟨room, room_eq⟩ := Nat.exists_eq_add_of_lt short
  have padded : name_buffer frame name =
      name ++ 0 :: (List.replicate room 0 ++ frame.exe_tail) := by
    rw [name_buffer, show 32 - name.length = room + 1 by omega, List.replicate_succ,
      List.append_assoc, List.cons_append]
  rw [padded, text, List.takeWhile_append_of_pos (by simpa using solid)]
  simp

/-- A full name buffer has no NUL. -/
theorem name_buffer_of_full (frame : Frame) {name : List UInt8} (solid : ∀ c ∈ name, c ≠ 0)
    (full : 32 ≤ name.length) : 32 ≤ (text (name_buffer frame name)).length := by
  rw [name_buffer, List.append_assoc, text, List.takeWhile_append_of_pos (by simpa using solid),
    List.length_append]
  omega

/-! ## What is read -/

theorem strncmp_reads_le (s1 s2 : List UInt8) (n : Nat) :
    strncmp_reads s1 s2 n ≤ strlen s1 + 1 := by
  induction n generalizing s1 s2 with
  | zero => exact Nat.zero_le _
  | succ n ih =>
      rw [strncmp_reads]
      cases s1 with
      | nil => simp [first]
      | cons c s1 =>
          have shorter := ih s1 s2.tail
          rw [first, List.tail_cons, strlen]
          rcases eq_or_ne c 0 with rfl | solid
          · rw [if_pos (Or.inr rfl), if_pos rfl]
          · rw [if_neg solid]
            split_ifs <;> omega

/-- No comparison looks further than `strlen` did. -/
theorem read_dentry_loop_reads_le (image : Image) (fname : List UInt8)
    (remaining index count : Nat) :
    read_dentry_loop_reads image fname remaining index count ≤ strlen fname + 1 := by
  induction remaining generalizing index count with
  | zero => exact Nat.zero_le _
  | succ remaining ih =>
      simp only [read_dentry_loop_reads]
      generalize (image.dir_entries index).fnameBytes = field
      split_ifs
      all_goals first
        | exact strncmp_reads_le _ _ _
        | exact max_le (strncmp_reads_le _ _ _) (ih _ _)

theorem read_dentry_by_name_reads_eq (image : Image) (fname : List UInt8) :
    read_dentry_by_name_reads image fname = (text fname).length + 1 := by
  rw [read_dentry_by_name_reads, ← strlen_eq_length_text]
  split_ifs
  · rfl
  · exact max_eq_left (read_dentry_loop_reads_le image fname _ _ _)

/-! ## Exact scans -/

/-- The scan of a command as it should be. -/
structure ScansExactly (image : Image) (kernel : Kernel) (frame : Frame) (line : List UInt8) :
    Prop where
  /-- No byte behind the NUL is read. -/
  command_reads : ∀ i ∈ kernel.command_reads line, i ≤ (text line).length
  /-- No byte behind the name buffer is read. -/
  name_reads : ∀ fname ∈ kernel.looked_up frame line, read_dentry_by_name_reads image fname ≤ 32
  /-- The name that is looked up is the first word. -/
  looked_up : ∀ fname ∈ kernel.looked_up frame line, text fname = first_word line
  /-- A command without a word is rejected, and so is a word that is too long. -/
  rejected : first_word line = [] ∨ 32 < (first_word line).length →
    (execute image kernel frame (some line)).1 = .returned (-1)

/-- With a free slot the command has a word of at most 31 characters that ends within its first 128,
or no word in at least 127 blanks while no executable has an empty name; without one it has a word
of at most 32 characters. -/
def ScanFits (image : Image) (kernel : Kernel) (frame : Frame) (line : List UInt8) : Prop :=
  match kernel.free_slot with
  | none => first_word line ≠ [] ∧ (first_word line).length ≤ 32
  | some _ =>
      if first_word line = [] then
        127 ≤ (text line).length ∧ check_executable image frame [] = none
      else (first_word line).length ≤ 31 ∧ leading_blanks line + (first_word line).length ≤ 128

variable {image : Image} {kernel : Kernel} {frame : Frame} {line : List UInt8}

theorem command_reads_of_free {slot : Fin 6} (free : kernel.free_slot = some slot) :
    (∀ i ∈ kernel.command_reads line, i ≤ (text line).length) ↔
      min (name_end line) 127 ≤ (text line).length := by
  have reads_eq : kernel.command_reads line = List.range (min (name_end line + 1) 128) ++
      if (parse_command line 128 0 []).flag1 then
        argument_reads line (parse_command line 128 0 []).i else [] := by
    simp only [Kernel.command_reads, free, parse_reads_eq]
  rw [reads_eq]
  constructor
  · intro within
    apply within
    rw [List.mem_append, List.mem_range]
    exact Or.inl (by omega)
  · intro within i mem
    rcases List.mem_append.mp mem with mem | mem
    · rw [List.mem_range] at mem
      omega
    · split_ifs at mem with found
      · obtain ⟨ends, -⟩ := (parse_command_flag1 line).mp found
        have inside : name_end line ≤ (text line).length := by omega
        have length_eq := argument_length line inside
        rw [parse_command_i, Nat.min_eq_left ends.le, argument_reads, List.mem_append,
          List.mem_range'_1, List.mem_range'_1] at mem
        omega
      · cases mem

/-- Once a slot is free, `execute` returns -1 exactly when the check of the executable fails. -/
theorem execute_rejects_iff {slot : Fin 6} (free : kernel.free_slot = some slot) :
    (execute image kernel frame (some line)).1 = .returned (-1) ↔
      check_executable image frame (parse_command line 128 0 []).exe_command = none := by
  have name_eq : (scan_command line).name = (parse_command line 128 0 []).exe_command := rfl
  rw [← name_eq]
  obtain ⟨refused, next, result, -⟩ | ⟨passes, entry_point, next, result, -⟩ :=
    execute_free_cases image frame free line
  · rw [result]
    exact iff_of_true rfl refused
  · rw [result]
    exact iff_of_false Outcome.noConfusion passes

theorem scans_exactly_of_no_slot (busy : kernel.free_slot = none) :
    ScansExactly image kernel frame line ↔
      first_word line ≠ [] ∧ (first_word line).length ≤ 32 := by
  have nothing_read : kernel.command_reads line = [] := by rw [Kernel.command_reads, busy]
  have no_name : kernel.looked_up frame line = none := by
    rw [Kernel.looked_up, busy, Option.map_none]
  have refused : (execute image kernel frame (some line)).1 ≠ .returned (-1) := by
    rw [execute_of_no_slot image frame busy]
    intro same
    exact absurd (Outcome.returned.inj same) (by decide)
  constructor
  · intro scans
    have not_rejected := mt scans.rejected refused
    rw [not_or, not_lt] at not_rejected
    exact not_rejected
  · rintro ⟨word, short⟩
    refine ⟨?_, ?_, ?_, ?_⟩
    · rw [nothing_read]
      exact fun i mem => absurd mem List.not_mem_nil
    · rw [no_name]
      exact fun fname mem => absurd mem (Option.not_mem_none _)
    · rw [no_name]
      exact fun fname mem => absurd mem (Option.not_mem_none _)
    · rintro (no_word | long)
      · exact absurd no_word word
      · exact absurd short (not_le.mpr long)

theorem scans_exactly_of_word {slot : Fin 6} (free : kernel.free_slot = some slot)
    (word : first_word line ≠ []) :
    ScansExactly image kernel frame line ↔
      (first_word line).length ≤ 31 ∧ leading_blanks line + (first_word line).length ≤ 128 := by
  have name : kernel.looked_up frame line = some (name_buffer frame (cut_word line)) := by
    rw [Kernel.looked_up, free, Option.map_some, parse_command_name_of_word word]
  have solid : ∀ c ∈ cut_word line, c ≠ 0 := fun c => solid_of_mem_cut_word
  have cut_length : (cut_word line).length =
      min 32 (min (128 - leading_blanks line) (first_word line).length) := by
    rw [cut_word, List.length_take, List.length_take]
  have word_length := List.length_pos_iff.mpr word
  constructor
  · intro scans
    have read := scans.name_reads _ name
    have looked_up := scans.looked_up _ name
    rw [read_dentry_by_name_reads_eq] at read
    have short : (cut_word line).length < 32 := by
      by_contra full
      have := name_buffer_of_full frame solid (not_lt.mp full)
      omega
    rw [name_buffer_of_short frame solid short] at looked_up
    rw [looked_up] at cut_length short
    omega
  · rintro ⟨short, uncut⟩
    have whole := cut_word_of_fits uncut (by omega)
    rw [whole] at solid name
    have buffer := name_buffer_of_short frame solid (by omega)
    refine ⟨?_, ?_, ?_, ?_⟩
    · rw [command_reads_of_free free]
      have := (name_end_of_word word).2
      omega
    · rintro fname looked_up
      obtain rfl := Option.some.inj (name.symm.trans looked_up)
      rw [read_dentry_by_name_reads_eq, buffer]
      omega
    · rintro fname looked_up
      obtain rfl := Option.some.inj (name.symm.trans looked_up)
      exact buffer
    · rintro (no_word | long)
      · exact absurd no_word word
      · omega

theorem scans_exactly_of_no_word {slot : Fin 6} (free : kernel.free_slot = some slot)
    (no_word : first_word line = []) :
    ScansExactly image kernel frame line ↔
      127 ≤ (text line).length ∧ check_executable image frame [] = none := by
  have name : kernel.looked_up frame line =
      some (name_buffer frame (parse_command line 128 0 []).exe_command) := by
    rw [Kernel.looked_up, free, Option.map_some]
  have buffer := name_buffer_of_no_word frame no_word
  have blanks := leading_blanks_of_no_word no_word
  have nul := (first_word_eq_nil_iff line).mp no_word
  have reads : (∀ i ∈ kernel.command_reads line, i ≤ (text line).length) ↔
      127 ≤ (text line).length := by
    rw [command_reads_of_free free, name_end, blanks]
    omega
  have checked (long : 127 ≤ (text line).length) :
      check_executable image frame (parse_command line 128 0 []).exe_command =
        check_executable image frame [] := by
    rw [parse_command_eq, nul]
    split_ifs with late
    · rfl
    · -- the NUL is the last byte that the loop looks at
      have last : 127 - leading_blanks line = 0 := by omega
      rw [last]
      rfl
  constructor
  · intro scans
    have long := reads.mp scans.command_reads
    rw [← checked long, ← execute_rejects_iff free]
    exact ⟨long, scans.rejected (Or.inl no_word)⟩
  · rintro ⟨long, not_executable⟩
    refine ⟨reads.mpr long, ?_, ?_, fun _ => ?_⟩
    · rintro fname looked_up
      obtain rfl := Option.some.inj (name.symm.trans looked_up)
      rw [read_dentry_by_name_reads_eq, buffer]
      decide
    · rintro fname looked_up
      obtain rfl := Option.some.inj (name.symm.trans looked_up)
      rw [buffer, no_word]
    · rw [execute_rejects_iff free, checked long]
      exact not_executable

end ComputerSystem
