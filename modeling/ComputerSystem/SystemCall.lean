import ComputerSystem.Ia32

/-!
# System call linkage

`system_call_asm` saves registers, pushes the arguments, checks the number and calls through
`jump_table`.  The check lets two numbers pass that the table has no entry for: those calls go
wherever the words behind the table point.
-/

namespace ComputerSystem

open Ia32

/-- The functions of `jump_table`. -/
inductive SystemCall
  | halt
  | execute
  | read
  | write
  | open_file
  | close
  | getargs
  | vidmap
  deriving DecidableEq

namespace SystemCall

/-- `SYS_HALT` to `SYS_VIDMAP`. -/
def number : SystemCall → BitVec 32
  | .halt => 1
  | .execute => 2
  | .read => 3
  | .write => 4
  | .open_file => 5
  | .close => 6
  | .getargs => 7
  | .vidmap => 8

/-- The entries of `jump_table`; the first one is 0. -/
def jump_table : List (Option SystemCall) :=
  [none, some halt, some execute, some read, some write, some open_file, some close, some getargs,
    some vidmap]

end SystemCall

/-- The program that `system_call_asm` is linked into. -/
structure Program where
  /-- Addresses of the functions. -/
  address : SystemCall → BitVec 32
  /-- The words behind `jump_table`, by their distance from its start. -/
  behind : Nat → BitVec 32
  /-- What a call of an address does, up to its return; `none` when it does not return. -/
  code : BitVec 32 → Cpu → Option Cpu

namespace Program

/-- Word of memory from `jump_table` on. -/
def table_word (program : Program) (index : Nat) : BitVec 32 :=
  match SystemCall.jump_table[index]? with
  | some none => 0
  | some (some function) => program.address function
  | none => program.behind index

end Program

/-- A call of an address with three arguments. -/
structure IndirectCall where
  /-- The address. -/
  target : BitVec 32
  /-- The words on the stack. -/
  arguments : List (BitVec 32)

/-- What `system_call_asm` calls, and the processor at its `iret`. -/
structure Linkage where
  /-- The calls, in order. -/
  calls : List IndirectCall
  /-- The processor at the `iret`, unless a call does not return. -/
  cpu : Option Cpu

/-- What is on the stack when the number is checked: three saved registers and the arguments. -/
def push_frame (cpu : Cpu) : Cpu :=
  (((((cpu.pushl cpu.edi).pushl cpu.esi).pushl cpu.ebx).pushl cpu.edx).pushl
    cpu.ecx).pushl cpu.ebx

/-- From `finish` on: drop the arguments, then restore the registers. -/
def finish (cpu : Cpu) : Cpu :=
  let cpu := cpu.discard 3
  let cpu := { cpu with ebx := cpu.word 0 }.discard 1
  let cpu := { cpu with esi := cpu.word 0 }.discard 1
  { cpu with edi := cpu.word 0 }.discard 1

/-- `system_call_asm`. -/
def system_call_asm (program : Program) (cpu : Cpu) : Linkage :=
  let cpu := push_frame cpu
  if cpu.eax.slt 1 ∨ BitVec.slt 10 cpu.eax then        -- invald_num
    ⟨[], some (finish { cpu with eax := -1 })⟩
  else
    let target := program.table_word cpu.eax.toNat
    ⟨[⟨target, [cpu.word 0, cpu.word 1, cpu.word 2]⟩],
      (program.code target cpu).map finish⟩

/-- The registers a system call has to keep. -/
structure Restored (before after : Cpu) : Prop where
  /-- `%ebx` is popped. -/
  ebx : after.ebx = before.ebx
  /-- `%esi` is popped. -/
  esi : after.esi = before.esi
  /-- `%edi` is popped. -/
  edi : after.edi = before.edi
  /-- The stack is as it was. -/
  esp : after.esp = before.esp

/-- A system call calls the function of its number with the three arguments, and without such a
function calls nothing and returns -1; either way it returns with the registers restored. -/
structure Dispatches (program : Program) (cpu : Cpu) : Prop where
  /-- The function of the number is called. -/
  listed : ∀ function : SystemCall, cpu.eax = function.number →
    (system_call_asm program cpu).calls =
      [⟨program.address function, [cpu.ebx, cpu.ecx, cpu.edx]⟩]
  /-- Without one, nothing is. -/
  unlisted : (∀ function : SystemCall, cpu.eax ≠ function.number) →
    (system_call_asm program cpu).calls = [] ∧
      ∀ final ∈ (system_call_asm program cpu).cpu, final.eax = -1
  /-- It returns. -/
  restored : ∃ final ∈ (system_call_asm program cpu).cpu, Restored cpu final

/-! ## The stack -/

@[simp]
theorem push_frame_eax (cpu : Cpu) : (push_frame cpu).eax = cpu.eax := by
  simp only [push_frame, Cpu.pushl_eax]

theorem push_frame_esp (cpu : Cpu) : (push_frame cpu).esp + 24 = cpu.esp := by
  simp only [push_frame, Cpu.pushl_esp]
  bv_omega

theorem push_frame_arguments (cpu : Cpu) :
    (push_frame cpu).word 0 = cpu.ebx ∧ (push_frame cpu).word 1 = cpu.ecx ∧
      (push_frame cpu).word 2 = cpu.edx := by
  simp only [push_frame]
  refine ⟨Cpu.word_pushl_zero _ _, ?_, ?_⟩
  · rw [Cpu.word_pushl_succ _ _ (by decide)]
    exact Cpu.word_pushl_zero _ _
  · iterate 2 rw [Cpu.word_pushl_succ _ _ (by decide)]
    exact Cpu.word_pushl_zero _ _

theorem push_frame_saved (cpu : Cpu) :
    (push_frame cpu).word 3 = cpu.ebx ∧ (push_frame cpu).word 4 = cpu.esi ∧
      (push_frame cpu).word 5 = cpu.edi := by
  simp only [push_frame]
  refine ⟨?_, ?_, ?_⟩
  · iterate 3 rw [Cpu.word_pushl_succ _ _ (by decide)]
    exact Cpu.word_pushl_zero _ _
  · iterate 4 rw [Cpu.word_pushl_succ _ _ (by decide)]
    exact Cpu.word_pushl_zero _ _
  · iterate 5 rw [Cpu.word_pushl_succ _ _ (by decide)]
    exact Cpu.word_pushl_zero _ _

theorem finish_eq (cpu : Cpu) :
    finish cpu =
      { cpu.discard 6 with
        ebx := cpu.word 3
        esi := cpu.word 4
        edi := cpu.word 5 } := by
  have ebx : (cpu.discard 3).word 0 = cpu.word 3 := cpu.word_discard 3 0
  have esi : ((cpu.discard 3).discard 1).word 0 = cpu.word 4 := by
    rw [Cpu.word_discard, Cpu.word_discard]
  have edi : (((cpu.discard 3).discard 1).discard 1).word 0 = cpu.word 5 := by
    rw [Cpu.word_discard, Cpu.word_discard, Cpu.word_discard]
  have esp : cpu.esp + 12 + 4 + 4 + 4 = cpu.esp + 24 := by bv_omega
  calc
    finish cpu =
        { cpu with
          ebx := (cpu.discard 3).word 0
          esi := ((cpu.discard 3).discard 1).word 0
          edi := (((cpu.discard 3).discard 1).discard 1).word 0
          esp := cpu.esp + 12 + 4 + 4 + 4 } := rfl
    _ = _ := by
      rw [esp, ebx, esi, edi]
      rfl

/-- The registers come back from a stack on which the saved words are still there. -/
theorem restored_finish {cpu before : Cpu} (esp : before.esp = (push_frame cpu).esp)
    (saved : ∀ k < 3, before.word (3 + k) = (push_frame cpu).word (3 + k)) :
    Restored cpu (finish before) := by
  obtain ⟨ebx, esi, edi⟩ := push_frame_saved cpu
  rw [finish_eq]
  refine ⟨(saved 0 (by decide)).trans ebx, (saved 1 (by decide)).trans esi,
    (saved 2 (by decide)).trans edi, ?_⟩
  exact (congrArg (· + 24) esp).trans (push_frame_esp cpu)

theorem checked_iff (eax : BitVec 32) :
    ¬(eax.slt 1 ∨ BitVec.slt 10 eax) ↔ 1 ≤ eax.toNat ∧ eax.toNat ≤ 10 := by
  have one : (1 : BitVec 32).toInt = 1 := by decide
  have ten : (10 : BitVec 32).toInt = 10 := by decide
  rw [BitVec.slt_iff_toInt_lt, BitVec.slt_iff_toInt_lt, one, ten, BitVec.toInt_eq_toNat_cond]
  split_ifs <;> omega

theorem number_eq_iff (eax : BitVec 32) :
    (∃ function : SystemCall, eax = function.number) ↔ 1 ≤ eax.toNat ∧ eax.toNat ≤ 8 := by
  constructor
  · rintro ⟨function, rfl⟩
    cases function <;> decide
  · rintro ⟨positive, small⟩
    have word : eax = BitVec.ofNat 32 eax.toNat := by rw [BitVec.ofNat_toNat, BitVec.setWidth_eq]
    generalize eax.toNat = k at word positive small
    subst word
    interval_cases k
    · exact ⟨.halt, rfl⟩
    · exact ⟨.execute, rfl⟩
    · exact ⟨.read, rfl⟩
    · exact ⟨.write, rfl⟩
    · exact ⟨.open_file, rfl⟩
    · exact ⟨.close, rfl⟩
    · exact ⟨.getargs, rfl⟩
    · exact ⟨.vidmap, rfl⟩

theorem table_word_number (program : Program) (function : SystemCall) :
    program.table_word function.number.toNat = program.address function := by
  cases function <;> rfl

/-! ## The two paths -/

theorem system_call_refused (program : Program) {cpu : Cpu}
    (refused : cpu.eax.slt 1 ∨ BitVec.slt 10 cpu.eax) :
    system_call_asm program cpu =
      ⟨[], some (finish { push_frame cpu with eax := -1 })⟩ := by
  simp only [system_call_asm, push_frame_eax, if_pos refused]

theorem system_call_checked (program : Program) {cpu : Cpu}
    (checked : ¬(cpu.eax.slt 1 ∨ BitVec.slt 10 cpu.eax)) :
    system_call_asm program cpu =
      ⟨[⟨program.table_word cpu.eax.toNat, [cpu.ebx, cpu.ecx, cpu.edx]⟩],
        (program.code (program.table_word cpu.eax.toNat) (push_frame cpu)).map finish⟩ := by
  obtain ⟨first, second, third⟩ := push_frame_arguments cpu
  simp only [system_call_asm, push_frame_eax, if_neg checked, first, second, third]

/-- A refused number returns -1 without a call. -/
theorem dispatches_refused (program : Program) {cpu : Cpu}
    (refused : cpu.eax.slt 1 ∨ BitVec.slt 10 cpu.eax) : Dispatches program cpu := by
  have linkage := system_call_refused program refused
  constructor
  · intro function number
    have listed := (number_eq_iff cpu.eax).mp ⟨function, number⟩
    exact absurd refused ((checked_iff cpu.eax).mpr (by omega))
  · intro
    rw [linkage]
    refine ⟨rfl, fun final returned => ?_⟩
    cases returned
    rw [finish_eq]
    rfl
  · rw [linkage]
    exact ⟨_, rfl, restored_finish rfl fun _ _ => rfl⟩

/-- The functions of the table follow the C convention and return. -/
def Program.Conforms (program : Program) : Prop :=
  ∀ function before, ∃ after, program.code (program.address function) before = some after ∧
    Cpu.Cdecl 3 3 before after

/-- The number of a function leads to a call of it. -/
theorem dispatches_listed {program : Program} (conforms : program.Conforms) {cpu : Cpu}
    {function : SystemCall} (number : cpu.eax = function.number) :
    Dispatches program cpu := by
  have listed := (number_eq_iff cpu.eax).mp ⟨function, number⟩
  have linkage := system_call_checked program ((checked_iff cpu.eax).mpr (by omega))
  have target : program.table_word cpu.eax.toNat = program.address function := by
    rw [number, table_word_number]
  obtain ⟨after, returned, keeps⟩ := conforms function (push_frame cpu)
  rw [target, returned] at linkage
  constructor
  · intro other other_number
    have same := table_word_number program other
    rw [← other_number, target] at same
    rw [linkage, same]
  · intro unlisted
    exact absurd number (unlisted function)
  · rw [linkage]
    exact ⟨_, rfl, restored_finish keeps.esp keeps.word⟩

/-- A number that the check lets pass leads to a call. -/
theorem not_dispatches_past_table (program : Program) {cpu : Cpu}
    (past : cpu.eax = 9 ∨ cpu.eax = 10) : ¬Dispatches program cpu := by
  have toNat_eq : cpu.eax.toNat = 9 ∨ cpu.eax.toNat = 10 :=
    past.imp (congrArg BitVec.toNat) (congrArg BitVec.toNat)
  have linkage := system_call_checked program ((checked_iff cpu.eax).mpr (by omega))
  intro dispatches
  obtain ⟨no_call, -⟩ := dispatches.unlisted fun function number => by
    have listed := (number_eq_iff cpu.eax).mp ⟨function, number⟩
    omega
  rw [linkage] at no_call
  cases no_call

/-- With functions that follow the C convention and return, a system call calls the function of its
number, or none and returns -1, and restores the registers, exactly when the number is none of the
two that the check lets pass behind the table. -/
theorem dispatches_iff (program : Program) (conforms : program.Conforms) (cpu : Cpu) :
    Dispatches program cpu ↔ cpu.eax ≠ 9 ∧ cpu.eax ≠ 10 := by
  constructor
  · intro dispatches
    rw [← not_or]
    exact fun past => not_dispatches_past_table program past dispatches
  · rintro ⟨not_nine, not_ten⟩
    by_cases refused : cpu.eax.slt 1 ∨ BitVec.slt 10 cpu.eax
    · exact dispatches_refused program refused
    · have checked := (checked_iff cpu.eax).mp refused
      have listed : 1 ≤ cpu.eax.toNat ∧ cpu.eax.toNat ≤ 8 := by bv_omega
      obtain ⟨function, number⟩ := (number_eq_iff cpu.eax).mpr listed
      exact dispatches_listed conforms number

/-- Every function returns 0. -/
def Program.zero : Program where
  address := SystemCall.number
  behind := fun _ => 0
  code := fun _ cpu => some { cpu with eax := 0 }

theorem Program.zero_conforms : Program.zero.Conforms :=
  fun _ before => ⟨{ before with eax := 0 }, rfl, rfl, rfl, rfl, rfl, rfl, fun _ _ => rfl⟩

/-- A cpu with a given number in `eax`. -/
def Cpu.requesting (eax : BitVec 32) : Cpu :=
  { eax, ebx := 1, ecx := 2, edx := 3, esi := 4, edi := 5, ebp := 6, esp := 0x7FFFE8, df := false,
    memory := fun _ => 0 }

/-- `read`. -/
theorem dispatches_iff_read :
    Program.zero.Conforms ∧ Dispatches Program.zero (Cpu.requesting 3) :=
  ⟨Program.zero_conforms,
    (dispatches_iff Program.zero Program.zero_conforms (Cpu.requesting 3)).mpr (by decide)⟩

/-- `sigreturn` is no entry of the table, and calls what lies behind it. -/
theorem dispatches_past_table :
    ¬∀ (program : Program) (cpu : Cpu), program.Conforms → Dispatches program cpu := by
  intro all
  exact not_dispatches_past_table Program.zero (Or.inr rfl)
    (all Program.zero (Cpu.requesting 10) Program.zero_conforms)

end ComputerSystem
