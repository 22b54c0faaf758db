import ComputerSystem.Arguments
import ComputerSystem.Dialogue
import ComputerSystem.Printf
import ComputerSystem.VideoMapping

/-!
# User programs and their system calls

The calls that user programs make, answered by the kernel, and their support library.  Between two
calls of a process the other processes and the interrupts may change everything but its own
descriptor table and argument.
-/

namespace ComputerSystem

open CString Word

/-! ## Calls -/

/-- A system call of a user program. -/
inductive UserCall
  /-- A call on descriptors. -/
  | descriptor (syscall : Syscall)
  /-- `ece391_getargs`. -/
  | getargs (nbytes : Int)
  /-- `ece391_execute`. -/
  | execute (command : List UInt8)
  /-- `ece391_vidmap`. -/
  | vidmap (screen_start : Int)
  /-- `call_sys`: a call by its number, with whatever is in the other registers. -/
  | number (num : Int)

/-- What a call gives back. -/
structure Reply where
  /-- Return value. -/
  result : Int
  /-- Bytes stored from the pointer of the call on. -/
  bytes : List UInt8
  deriving DecidableEq

/-- The kernel and the page table of the video page. -/
structure System where
  /-- The kernel. -/
  kernel : Kernel
  /-- `page_table_VM`. -/
  page_table_VM : Fin 1024 → PageTableEntry

namespace System

/-- A call of the process whose kernel stack ESP is on.  What another program does until it halts,
and what comes of a number with stray arguments, is given by `others`. -/
def reply (image : Image) (esp : Nat) (others : System → UserCall → Option (Reply × System))
    (system : System) : UserCall → Option (Reply × System)
  | .descriptor syscall =>
      let address := get_cur_pcb esp
      ((system.kernel.task address).call image syscall).map fun answer =>
        (⟨answer.result, answer.bytes⟩,
          { system with kernel := system.kernel.setTask address answer.task })
  | .getargs nbytes =>
      (system.kernel.getargs esp false nbytes).map fun (result, bytes) => (⟨result, bytes⟩, system)
  | .vidmap screen_start =>
      let (result, kernel, page_table_VM) :=
        system.kernel.vidmap system.page_table_VM esp screen_start
      result.map fun result => (⟨result, []⟩, ⟨kernel, page_table_VM⟩)
  | .number num =>
      if num ≤ 0 ∨ num > 10 then some (⟨-1, []⟩, system) else others system (.number num)
  | .execute command => others system (.execute command)

/-- What happens elsewhere leaves the descriptors and the argument of a process alone. -/
def Elsewhere (esp : Nat) (before after : System) : Prop :=
  (after.kernel.pcb (get_cur_pcb esp)).fdt = (before.kernel.pcb (get_cur_pcb esp)).fdt ∧
    (after.kernel.pcb (get_cur_pcb esp)).argument = (before.kernel.pcb (get_cur_pcb esp)).argument

/-- The console. -/
def console (system : System) : Console := system.kernel.console

/-- The descriptors and the argument of a process. -/
def Owned (esp : Nat) (fdt : Fin 8 → Fd) (argument : Fin 128 → UInt8) (system : System) : Prop :=
  (system.kernel.pcb (get_cur_pcb esp)).fdt = fdt ∧
    (system.kernel.pcb (get_cur_pcb esp)).argument = argument

end System

/-! ## The support library -/

/-- `ece391_strlen`. -/
def ece391_strlen (s : List UInt8) : Nat := strlen s

/-- `ece391_fdputs`. -/
def ece391_fdputs (fd : Int) (s : List UInt8) : Dialogue UserCall Reply Unit := do
  let _ ← Dialogue.request (.descriptor (.write fd s (ece391_strlen s)))
  pure ()

/-- `ece391_strcmp`, which compares bytes as unsigned numbers. -/
def ece391_strcmp : List UInt8 → List UInt8 → Int
  | [], s2 => -(first s2).toNat
  | c :: s1, s2 =>
      if c = first s2 then if c = 0 then 0 else ece391_strcmp s1 s2.tail
      else c.toNat - (first s2).toNat

/-- `ece391_strncmp`. -/
def ece391_strncmp (s1 s2 : List UInt8) : Nat → Int
  | 0 => 0
  | n + 1 =>
      if first s1 = first s2 then
        if first s1 = 0 ∨ n = 0 then 0 else ece391_strncmp s1.tail s2.tail n
      else (first s1).toNat - (first s2).toNat

/-- The loop of `ece391_strcpy` on one array: both pointers advance until a NUL was copied. -/
def ece391_strcpy (memory : List UInt8) (dst src : Nat) : Nat → List UInt8
  | 0 => memory
  | fuel + 1 =>
      let c := memory.getD src 0
      let memory := memory.set dst c
      if c = 0 then memory else ece391_strcpy memory (dst + 1) (src + 1) fuel

/-- Bytes stored in a buffer. -/
def overwrite (buf : List UInt8) (offset : Nat) (stored : List UInt8) : List UInt8 :=
  buf.take offset ++ stored ++ buf.drop (offset + stored.length)

/-- The first bytes from a pointer on. -/
def leading (buf : List UInt8) (count : Nat) : List UInt8 :=
  (List.range count).map fun i => buf.getD i 0

/-- The bytes that the calls of a log put on the terminal. -/
def displayed : List (UserCall × Reply) → List UInt8
  | [] => []
  | (.descriptor (.write fd buf nbytes), _) :: log =>
      (if fd = 1 then leading buf nbytes.toNat else []) ++ displayed log
  | _ :: log => displayed log

theorem leading_eq_take {buf : List UInt8} {count : Nat} (inside : count ≤ buf.length) :
    leading buf count = buf.take count := by
  apply List.ext_getElem
  · simp [leading, inside]
  · intro k below _
    rw [leading, List.length_map, List.length_range] at below
    simp only [leading, List.getElem_map, List.getElem_range, List.getElem_take]
    exact List.getD_eq_getElem _ _ (below.trans_le inside)

theorem leading_append (stored behind : List UInt8) :
    leading (stored ++ behind) stored.length = stored := by
  rw [leading_eq_take (by simp), List.take_left]

theorem overwrite_append (front behind stored : List UInt8) :
    overwrite (front ++ behind) front.length stored =
      front ++ stored ++ behind.drop stored.length := by
  rw [overwrite, List.take_left, List.drop_append, List.drop_eq_nil_of_le (by omega),
    List.nil_append, Nat.add_sub_cancel_left]

theorem overwrite_start (buf stored : List UInt8) :
    overwrite buf 0 stored = stored ++ buf.drop stored.length :=
  overwrite_append [] buf stored

theorem leading_strlen (s : List UInt8) : leading s (ece391_strlen s) = text s := by
  rw [ece391_strlen, strlen_eq_length_text, leading_eq_take (text_length_le s)]
  exact (List.prefix_iff_eq_take.mp (List.takeWhile_prefix _)).symm

theorem displayed_append (log rest : List (UserCall × Reply)) :
    displayed (log ++ rest) = displayed log ++ displayed rest := by
  induction log with
  | nil => rfl
  | cons entry log ih =>
      obtain ⟨call, reply⟩ := entry
      cases call with
      | descriptor syscall => cases syscall <;> simp [displayed, ih]
      | _ => simp [displayed, ih]

/-! ## What the support library computes -/

/-- The comparison of unsigned bytes has the zeros of the comparison of `char`s. -/
theorem ece391_strncmp_eq_zero_iff (s1 s2 : List UInt8) (n : Nat) :
    ece391_strncmp s1 s2 n = 0 ↔ (text s1).take n = (text s2).take n := by
  rw [← strncmp_eq_zero_iff]
  induction n generalizing s1 s2 with
  | zero => rfl
  | succ n ih =>
      rw [ece391_strncmp, strncmp]
      by_cases same : first s1 = first s2
      · by_cases nul : first s2 = 0
        · simp [same, nul]
        · rcases n with - | n
          · simp [same, nul, strncmp]
          · simpa [same, nul] using ih s1.tail s2.tail
      · have difference : signed (first s1) - signed (first s2) ≠ 0 := fun equality =>
          same (signed_injective (by omega))
        have values : ((first s1).toNat : Int) - (first s2).toNat ≠ 0 := fun equality =>
          same (UInt8.toNat_inj.mp (by omega))
        simp [same, difference, values]

theorem ece391_strcmp_eq_zero_iff (s1 s2 : List UInt8) :
    ece391_strcmp s1 s2 = 0 ↔ text s1 = text s2 := by
  induction s1 generalizing s2 with
  | nil =>
      rw [ece391_strcmp, text_nil, text_eq_first s2]
      by_cases nul : first s2 = 0
      · simp [nul]
      · have value : (first s2).toNat ≠ 0 := fun zero => nul (UInt8.toNat_inj.mp zero)
        simp [nul, value]
  | cons c s1 ih =>
      rw [ece391_strcmp, text_cons, text_eq_first s2]
      by_cases same : c = first s2
      · by_cases nul : first s2 = 0
        · simp [same, nul]
        · simpa [same, nul] using ih s2.tail
      · have values : (c.toNat : Int) - (first s2).toNat ≠ 0 := fun equality =>
          same (UInt8.toNat_inj.mp (by omega))
        rw [if_neg same]
        refine iff_of_false values ?_
        split_ifs with left right right
        · exact fun _ => same (left.trans right.symm)
        · exact nofun
        · exact nofun
        · exact fun equality => same (List.cons.inj equality).1

theorem getD_behind (front : List UInt8) (c : UInt8) (rest : List UInt8) :
    (front ++ c :: rest).getD front.length 0 = c := by
  rw [List.getD_append_right _ _ _ _ le_rfl, Nat.sub_self, List.getD_cons_zero]

theorem set_behind (front : List UInt8) (c stored : UInt8) (rest : List UInt8) :
    (front ++ c :: rest).set front.length stored = front ++ stored :: rest := by
  rw [List.set_append_right _ _ le_rfl, Nat.sub_self, List.set_cons_zero]

theorem text_append_zero (s behind : List UInt8) : text (s ++ 0 :: behind) = text s := by
  induction s with
  | nil => rfl
  | cons c s ih => rw [List.cons_append, text_cons, text_cons, ih]

theorem text_set_nul (line behind : List UInt8) :
    text ((line ++ behind).set line.length 0) = text line := by
  cases behind with
  | nil => rw [List.append_nil, List.set_eq_of_length_le le_rfl]
  | cons c behind => rw [set_behind, text_append_zero]

/-- A text moved towards the start of its array, where the two places may overlap. -/
theorem ece391_strcpy_moves {front gap todo behind : List UInt8} (not_empty : gap ≠ [])
    (solid : ∀ c ∈ todo, c ≠ 0) {fuel : Nat} (enough : todo.length < fuel) :
    ece391_strcpy (front ++ (gap ++ (todo ++ 0 :: behind))) front.length
        (front.length + gap.length) fuel =
      front ++ (todo ++ 0 :: (gap ++ (todo ++ 0 :: behind)).drop (todo.length + 1)) := by
  induction todo generalizing front gap fuel with
  | nil =>
      obtain ⟨fuel, rfl⟩ := Nat.exists_eq_succ_of_ne_zero (Nat.ne_zero_of_lt enough)
      obtain ⟨g, gap, rfl⟩ := List.exists_cons_of_ne_nil not_empty
      have loaded := getD_behind (front ++ g :: gap) 0 behind
      rw [List.append_assoc, List.length_append] at loaded
      rw [List.nil_append, ece391_strcpy, loaded, List.cons_append, set_behind]
      simp
  | cons c todo ih =>
      obtain ⟨fuel, rfl⟩ := Nat.exists_eq_succ_of_ne_zero (Nat.ne_zero_of_lt enough)
      obtain ⟨g, gap, rfl⟩ := List.exists_cons_of_ne_nil not_empty
      rw [List.forall_mem_cons] at solid
      have loaded := getD_behind (front ++ g :: gap) c (todo ++ 0 :: behind)
      rw [List.append_assoc, List.length_append] at loaded
      have moved := @ih (front ++ [c]) (gap ++ [c]) (by simp) solid.2 fuel (by simpa using enough)
      rw [ece391_strcpy]
      simp only [List.cons_append] at loaded ⊢
      simp only [loaded, if_neg solid.1, set_behind]
      simp only [List.length_append, List.length_singleton, List.append_assoc,
        List.singleton_append] at moved
      simp only [List.length_cons, ← Nat.add_assoc] at moved ⊢
      rw [Nat.add_right_comm front.length 1] at moved
      rw [moved, List.drop_succ_cons]

end ComputerSystem
