import ComputerSystem.DescriptorTable
import ComputerSystem.Desk

/-!
# How much a read writes

Files, the RTC and stdout keep to the size the caller gives.  `dir_read` copies a whole name field
and `terminal_read` everything pending, neither of which looks at `nbytes`.
-/

namespace ComputerSystem

namespace FuncTable

/-- What has to hold for a read of a table to keep to `nbytes`. -/
def Fits (table : FuncTable) (image : Image) (task : Task) (fd : Fin 8) (nbytes : Int) : Prop :=
  match table with
  | dir_func => fd.val < 2 ∨ image.num_dir_entry ≤ (task.fdt fd).position ∨ 32 ≤ nbytes
  | terminal_func_in => (task.devices.tty.visible.term_buf_idx : Int) ≤ nbytes
  | _ => True

end FuncTable

namespace Answer

/-- The call wrote at most `nbytes` bytes and returned no larger count. -/
def Within (answer : Answer) (nbytes : Int) : Prop :=
  (answer.bytes.length : Int) ≤ nbytes ∧ answer.result ≤ nbytes

theorem within_failed (task : Task) {nbytes : Int} (natural : 0 ≤ nbytes) :
    (⟨-1, [], task⟩ : Answer).Within nbytes :=
  ⟨natural, show (-1 : Int) ≤ nbytes by omega⟩

end Answer

theorem file_read_within (image : Image) (task : Task) (fd : Fin 8) {nbytes : Int}
    (natural : 0 ≤ nbytes) : (file_read image task fd false nbytes).Within nbytes := by
  simp only [file_read, Bool.false_eq_true, false_or]
  split_ifs with empty
  · exact Answer.within_failed task natural
  · have length_le :=
      read_data_length_le image (task.fdt fd).inode (task.fdt fd).position nbytes.toNat
    have result_le := read_data_result_le image (task.fdt fd).inode (task.fdt fd).position
      nbytes.toNat
    constructor
    · simp only
      omega
    · simp only
      omega

theorem dir_read_within (image : Image) (task : Task) (fd : Fin 8) {nbytes : Int}
    (natural : 0 ≤ nbytes) :
    (dir_read image task fd false nbytes).Within nbytes ↔
      FuncTable.dir_func.Fits image task fd nbytes := by
  have below := fd.isLt
  simp only [dir_read, FuncTable.Fits, Bool.false_eq_true, if_false]
  split_ifs with outside exhausted
  · exact iff_of_true (Answer.within_failed task natural) (by omega)
  · exact iff_of_true ⟨natural, natural⟩ (Or.inr (Or.inl exhausted))
  · have length_eq (dentry : Dentry) : dentry.fnameBytes.length = 32 := List.length_ofFn
    have count_le (dentry : Dentry) : dentry.fnameBytes.countP (· ≠ 0) ≤ 32 :=
      length_eq dentry ▸ List.countP_le_length
    generalize (read_dentry_by_index image (task.fdt fd).position task.devices.cur_dir_dentry
      task.devices.cur_dir_dentry).2.2 = dentry
    have := count_le dentry
    simp only [Answer.Within, length_eq]
    omega

theorem terminal_read_within {task : Task} {nbytes : Int} {answer : Answer}
    (returned : terminal_read task false nbytes = some answer) :
    answer.Within nbytes ↔ (task.devices.tty.visible.term_buf_idx : Int) ≤ nbytes := by
  obtain ⟨copied, read_eq, rfl⟩ := Option.map_eq_some_iff.mp returned
  rcases task.devices.tty.desk_terminal_read with ⟨-, result⟩ | ⟨-, console, result, -⟩
  · cases result.symm.trans read_eq
  · cases result.symm.trans read_eq
    simp [Answer.Within]

/-- A read of a jump table keeps to `nbytes` exactly when it fits. -/
theorem FuncTable.read_within {table : FuncTable} {image : Image} {task : Task} {fd : Fin 8}
    {nbytes : Int} (natural : 0 ≤ nbytes) {answer : Answer}
    (returned : table.read image task fd false nbytes = some answer) :
    answer.Within nbytes ↔ table.Fits image task fd nbytes := by
  cases table with
  | rtc_func =>
      obtain ⟨rtc, -, rfl⟩ := Option.map_eq_some_iff.mp returned
      exact iff_of_true ⟨natural, natural⟩ trivial
  | dir_func =>
      cases returned
      exact dir_read_within image task fd natural
  | file_func =>
      cases returned
      exact iff_of_true (file_read_within image task fd natural) trivial
  | terminal_func_in => exact terminal_read_within returned
  | terminal_func_out =>
      cases returned
      exact iff_of_true (Answer.within_failed task natural) trivial

namespace Task

/-- What has to hold before a read of `nbytes` for it to keep to them. -/
def ReadFits (image : Image) (task : Task) (fd : Int) (nbytes : Int) : Prop :=
  ∀ k : Fin 8, (k : Int) = fd → task.Open k → ∀ table,
    (task.fdt k).file_operation_table_ptr = some table → table.Fits image task k nbytes

/-- In every state, a read of `nbytes` that returns has written at most `nbytes` bytes and returns
no larger count exactly when it is not a read of a directory with entries left that asks for fewer
than 32 bytes, nor a read of stdin that asks for fewer bytes than are pending. -/
theorem read_within_iff (image : Image) (task : Task) (fd nbytes : Int) (natural : 0 ≤ nbytes)
    (answer : Answer) (returned : read image task fd false nbytes = some answer) :
    answer.Within nbytes ↔ task.ReadFits image fd nbytes := by
  by_cases in_use : ∃ k : Fin 8, (k : Int) = fd ∧ task.Open k
  · obtain ⟨k, rfl, in_use⟩ := in_use
    cases table_eq : (task.fdt k).file_operation_table_ptr with
    | none =>
        cases (read_no_table image false nbytes table_eq).symm.trans returned
        refine iff_of_true (Answer.within_failed task natural) ?_
        intro other same _ table other_eq
        have equal : other = k := by omega
        rw [equal, table_eq] at other_eq
        cases other_eq
    | some table =>
        rw [read_open image false nbytes in_use table_eq] at returned
        rw [FuncTable.read_within natural returned]
        constructor
        · intro fits other same _ other_table other_eq
          have equal : other = k := by omega
          rw [equal, table_eq] at other_eq
          cases other_eq
          rwa [equal]
        · intro fits
          exact fits k rfl in_use table table_eq
  · have closed : ∀ k : Fin 8, (k : Int) = fd → ¬task.Open k :=
      fun k same in_use' => in_use ⟨k, same, in_use'⟩
    cases (read_closed image false nbytes closed).symm.trans returned
    exact iff_of_true (Answer.within_failed task natural)
      fun k same in_use' => absurd in_use' (closed k same)

/-- A fresh process while `a` and Enter are pending. -/
def withLine : Task where
  fdt := set_up_io_file fun _ => Fd.free
  devices :=
    { Devices.boot with tty := (Devices.boot.tty.show_pressed_key 0x1E).show_pressed_key 0x1C }

/-- A read of two bytes takes both. -/
theorem read_within_iff_line :
    ∃ answer, read Image.sample withLine 0 false 2 = some answer ∧ answer.Within 2 := by
  refine ⟨_, rfl, (read_within_iff Image.sample withLine 0 2 (by decide) _ rfl).mpr ?_⟩
  intro k same _ table table_eq
  have zero : k = 0 := by omega
  subst zero
  cases table_eq
  change (2 : Int) ≤ 2
  decide

/-- A read of one byte takes both too. -/
theorem read_exceeds_nbytes :
    ¬∀ (image : Image) (fdt : Fin 8 → Fd) (devices : Devices) (events : List TaskEvent)
      (task : Task), (∀ fd, 2 ≤ fd → (fdt fd).flags = 0) →
      Run.run (step image) ⟨set_up_io_file fdt, devices⟩ events = some task →
      ∀ fd nbytes answer, 0 ≤ nbytes → read image task fd false nbytes = some answer →
        answer.Within nbytes := by
  intro within
  have stdin := within Image.sample (fun _ => Fd.free) withLine.devices [] _ (fun _ _ => rfl) rfl
    0 1 _ (by decide) rfl
  exact absurd stdin.2 (by decide)

end Task

end ComputerSystem
