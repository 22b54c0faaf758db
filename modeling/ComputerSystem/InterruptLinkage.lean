import ComputerSystem.Ia32

/-!
# The linkage of the interrupts

`linkage.S`: what the stubs put on the stack around their call of `do_irq`, and the program that was
interrupted.
-/

namespace ComputerSystem

open Ia32

/-- What an interrupt has to keep of a program. -/
structure Context where
  /-- Its registers and memory. -/
  cpu : Cpu
  /-- The flags. -/
  eflags : BitVec 32
  /-- Its code segment. -/
  cs : BitVec 32
  /-- The next instruction. -/
  eip : BitVec 32
  /-- Its stack segment. -/
  ss : BitVec 32

namespace Context

/-- The program runs in the kernel. -/
def Privileged (context : Context) : Prop := context.cs &&& 3 = 0

instance (context : Context) : Decidable context.Privileged :=
  inferInstanceAs (Decidable (context.cs &&& 3 = 0))

/-- The stack that the processor changes to: that of the TSS, for a user program. -/
def entered (context : Context) (esp0 : BitVec 32) : Cpu :=
  if context.Privileged then context.cpu
  else ({ context.cpu with esp := esp0 }.pushl context.ss).pushl context.cpu.esp

/-- The processor goes through an interrupt gate. -/
def interrupt (context : Context) (esp0 : BitVec 32) : Cpu :=
  (((context.entered esp0).pushl context.eflags).pushl context.cs).pushl context.eip

/-- The flags in the handler. -/
def gateFlags (context : Context) : BitVec 32 := context.eflags &&& ~~~0x34300

end Context

/-- `iret`; a segment that is not popped stays. -/
def iret (ss : BitVec 32) (cpu : Cpu) : Context :=
  let eip := cpu.word 0
  let cs := cpu.word 1
  let eflags := cpu.word 2
  let cpu := { cpu.discard 3 with df := eflags.getLsbD 10 }
  if cs &&& 3 = 0 then ⟨cpu, eflags, cs, eip, ss⟩
  else ⟨{ cpu with esp := cpu.word 0 }, eflags, cs, eip, cpu.word 1⟩

/-- `pushal`. -/
def pushal (cpu : Cpu) : Cpu :=
  (((((((cpu.pushl cpu.eax).pushl cpu.ecx).pushl cpu.edx).pushl cpu.ebx).pushl cpu.esp).pushl
    cpu.ebp).pushl cpu.esi).pushl cpu.edi

/-- `popal`; the stack pointer that was pushed is passed over. -/
def popal (cpu : Cpu) : Cpu :=
  { cpu.discard 8 with
    edi := cpu.word 0
    esi := cpu.word 1
    ebp := cpu.word 2
    ebx := cpu.word 4
    edx := cpu.word 5
    ecx := cpu.word 6
    eax := cpu.word 7 }

/-- `popfl`. -/
def popfl (cpu : Cpu) : Cpu := { cpu.discard 1 with df := (cpu.word 0).getLsbD 10 }

/-- The stack at the call of `do_irq`. -/
def push_context (irq flags : BitVec 32) (cpu : Cpu) : Cpu := ((pushal cpu).pushl flags).pushl irq

/-- The stubs: registers and flags are saved, `do_irq` is called, and they are restored. -/
def intr_asm (irq : BitVec 32) (do_irq : Cpu → Option Cpu) (flags : BitVec 32) (cpu : Cpu) :
    Option Cpu :=
  (do_irq (push_context irq flags cpu)).map fun cpu => popal (popfl (cpu.discard 1))

def pit_intr_asm : (Cpu → Option Cpu) → BitVec 32 → Cpu → Option Cpu := intr_asm 32
def key_intr_asm : (Cpu → Option Cpu) → BitVec 32 → Cpu → Option Cpu := intr_asm 33
def rtc_intr_asm : (Cpu → Option Cpu) → BitVec 32 → Cpu → Option Cpu := intr_asm 40

/-! ## The stack -/

section push_context

variable (irq flags : BitVec 32) (cpu : Cpu)

theorem push_context_word {k : Nat} (k_lt : k < 2 ^ 28) :
    (push_context irq flags cpu).word (10 + k) = cpu.word k := by
  have order : 10 + k = k + 1 + 1 + 1 + 1 + 1 + 1 + 1 + 1 + 1 + 1 := by omega
  rw [order, push_context, pushal]
  iterate 10 rw [Cpu.word_pushl_succ _ _ (by omega)]

theorem push_context_esp : (push_context irq flags cpu).esp + 40 = cpu.esp := by
  simp only [push_context, pushal, Cpu.pushl_esp]
  bv_omega

theorem push_context_registers :
    (push_context irq flags cpu).word 2 = cpu.edi ∧ (push_context irq flags cpu).word 3 = cpu.esi ∧
      (push_context irq flags cpu).word 4 = cpu.ebp ∧
      (push_context irq flags cpu).word 6 = cpu.ebx ∧
      (push_context irq flags cpu).word 7 = cpu.edx ∧
      (push_context irq flags cpu).word 8 = cpu.ecx ∧
      (push_context irq flags cpu).word 9 = cpu.eax := by
  simp only [push_context, pushal]
  refine ⟨?_, ?_, ?_, ?_, ?_, ?_, ?_⟩
  · iterate 2 rw [Cpu.word_pushl_succ _ _ (by decide)]
    exact Cpu.word_pushl_zero _ _
  · iterate 3 rw [Cpu.word_pushl_succ _ _ (by decide)]
    exact Cpu.word_pushl_zero _ _
  · iterate 4 rw [Cpu.word_pushl_succ _ _ (by decide)]
    exact Cpu.word_pushl_zero _ _
  · iterate 6 rw [Cpu.word_pushl_succ _ _ (by decide)]
    exact Cpu.word_pushl_zero _ _
  · iterate 7 rw [Cpu.word_pushl_succ _ _ (by decide)]
    exact Cpu.word_pushl_zero _ _
  · iterate 8 rw [Cpu.word_pushl_succ _ _ (by decide)]
    exact Cpu.word_pushl_zero _ _
  · iterate 9 rw [Cpu.word_pushl_succ _ _ (by decide)]
    exact Cpu.word_pushl_zero _ _

end push_context

theorem popfl_word (cpu : Cpu) (k : Nat) : (popfl (cpu.discard 1)).word k = cpu.word (2 + k) := by
  have popped : (popfl (cpu.discard 1)).word k = ((cpu.discard 1).discard 1).word k := rfl
  rw [popped, Cpu.word_discard, Cpu.word_discard, ← Nat.add_assoc]

theorem popal_popfl_word (cpu : Cpu) (k : Nat) :
    (popal (popfl (cpu.discard 1))).word k = cpu.word (10 + k) := by
  have popped : (popal (popfl (cpu.discard 1))).word k =
      ((popfl (cpu.discard 1)).discard 8).word k := rfl
  rw [popped, Cpu.word_discard, popfl_word, ← Nat.add_assoc]

theorem popal_popfl_esp (cpu : Cpu) :
    (popal (popfl (cpu.discard 1))).esp = cpu.esp + 40 := by
  have popped : (popal (popfl (cpu.discard 1))).esp = cpu.esp + 4 + 4 + 32 := rfl
  rw [popped]
  bv_omega

/-- What a stub leaves when `do_irq` returned: the registers that it found, and the words on the
stack that `do_irq` left alone. -/
theorem intr_asm_restores {irq flags : BitVec 32} {do_irq : Cpu → Option Cpu} {cpu after : Cpu}
    {frame : Nat} (room : 9 ≤ frame) (small : frame ≤ 2 ^ 28)
    (returns : ∀ before next, do_irq before = some next → Cpu.Cdecl 1 frame before next)
    (result : intr_asm irq do_irq flags cpu = some after) :
    after.eax = cpu.eax ∧ after.ebx = cpu.ebx ∧ after.ecx = cpu.ecx ∧ after.edx = cpu.edx ∧
      after.esi = cpu.esi ∧ after.edi = cpu.edi ∧ after.ebp = cpu.ebp ∧ after.esp = cpu.esp ∧
      ∀ k, 9 + k < frame → after.word k = cpu.word k := by
  obtain ⟨next, called, rfl⟩ := Option.map_eq_some_iff.mp result
  have cdecl := returns _ _ called
  have kept (k : Nat) (k_lt : k < frame) :
      next.word (1 + k) = (push_context irq flags cpu).word (1 + k) := cdecl.word k k_lt
  obtain ⟨edi, esi, ebp, ebx, edx, ecx, eax⟩ := push_context_registers irq flags cpu
  refine ⟨(popfl_word next 7).trans ((kept 8 (by omega)).trans eax),
    (popfl_word next 4).trans ((kept 5 (by omega)).trans ebx),
    (popfl_word next 6).trans ((kept 7 (by omega)).trans ecx),
    (popfl_word next 5).trans ((kept 6 (by omega)).trans edx),
    (popfl_word next 1).trans ((kept 2 (by omega)).trans esi),
    (popfl_word next 0).trans ((kept 1 (by omega)).trans edi),
    (popfl_word next 2).trans ((kept 3 (by omega)).trans ebp), ?_, fun k inside => ?_⟩
  · rw [popal_popfl_esp, cdecl.esp, push_context_esp]
  · have order : 10 + k = 1 + (9 + k) := by omega
    rw [popal_popfl_word, order, kept _ inside, ← order, push_context_word _ _ _ (by omega)]

section iret

variable (ss : BitVec 32) (cpu : Cpu)

theorem iret_frame :
    (iret ss cpu).eip = cpu.word 0 ∧ (iret ss cpu).cs = cpu.word 1 ∧
      (iret ss cpu).eflags = cpu.word 2 ∧ (iret ss cpu).cpu.df = (cpu.word 2).getLsbD 10 := by
  rw [iret]
  dsimp only
  split_ifs <;> exact ⟨rfl, rfl, rfl, rfl⟩

theorem iret_registers :
    (iret ss cpu).cpu.eax = cpu.eax ∧ (iret ss cpu).cpu.ebx = cpu.ebx ∧
      (iret ss cpu).cpu.ecx = cpu.ecx ∧ (iret ss cpu).cpu.edx = cpu.edx ∧
      (iret ss cpu).cpu.esi = cpu.esi ∧ (iret ss cpu).cpu.edi = cpu.edi ∧
      (iret ss cpu).cpu.ebp = cpu.ebp := by
  rw [iret]
  dsimp only
  split_ifs <;> exact ⟨rfl, rfl, rfl, rfl, rfl, rfl, rfl⟩

variable {cpu}

/-- A return to the kernel stays on its stack. -/
theorem iret_kernel (kernel : cpu.word 1 &&& 3 = 0) :
    (iret ss cpu).cpu.esp = cpu.esp + 12 ∧ (iret ss cpu).ss = ss ∧
      ∀ k, (iret ss cpu).cpu.word k = cpu.word (3 + k) := by
  rw [iret]
  dsimp only
  rw [if_pos kernel]
  exact ⟨rfl, rfl, fun k => cpu.word_discard 3 k⟩

/-- A return to a user program takes its stack from that of the kernel. -/
theorem iret_user (user : ¬cpu.word 1 &&& 3 = 0) :
    (iret ss cpu).cpu.esp = cpu.word (3 + 0) ∧ (iret ss cpu).ss = cpu.word (3 + 1) := by
  rw [iret]
  dsimp only
  rw [if_neg user]
  exact ⟨cpu.word_discard 3 0, cpu.word_discard 3 1⟩

end iret

/-! ## The interrupted program -/

/-- The program goes on as if nothing had happened; in the kernel it finds its stack as it was, as
far as `do_irq` leaves it alone. -/
structure Resumes (frame : Nat) (before after : Context) : Prop where
  /-- `%eax` is restored. -/
  eax : after.cpu.eax = before.cpu.eax
  /-- `%ebx` is restored. -/
  ebx : after.cpu.ebx = before.cpu.ebx
  /-- `%ecx` is restored. -/
  ecx : after.cpu.ecx = before.cpu.ecx
  /-- `%edx` is restored. -/
  edx : after.cpu.edx = before.cpu.edx
  /-- `%esi` is restored. -/
  esi : after.cpu.esi = before.cpu.esi
  /-- `%edi` is restored. -/
  edi : after.cpu.edi = before.cpu.edi
  /-- `%ebp` is restored. -/
  ebp : after.cpu.ebp = before.cpu.ebp
  /-- It is on its own stack again. -/
  esp : after.cpu.esp = before.cpu.esp
  /-- The direction flag is the one of its flags. -/
  df : after.cpu.df = before.eflags.getLsbD 10
  /-- The flags are restored. -/
  eflags : after.eflags = before.eflags
  /-- It runs with its own privileges. -/
  cs : after.cs = before.cs
  /-- It goes on where it was interrupted. -/
  eip : after.eip = before.eip
  /-- The stack segment is restored. -/
  ss : after.ss = before.ss
  /-- What it has on the stack of the kernel is there. -/
  stack : before.Privileged → ∀ k < frame, after.cpu.word k = before.cpu.word k

namespace Context

variable (context : Context) (esp0 : BitVec 32)

/-- The gate and the change of the stack leave the registers alone. -/
theorem interrupt_registers :
    (context.interrupt esp0).eax = context.cpu.eax ∧
      (context.interrupt esp0).ebx = context.cpu.ebx ∧
      (context.interrupt esp0).ecx = context.cpu.ecx ∧
      (context.interrupt esp0).edx = context.cpu.edx ∧
      (context.interrupt esp0).esi = context.cpu.esi ∧
      (context.interrupt esp0).edi = context.cpu.edi ∧
      (context.interrupt esp0).ebp = context.cpu.ebp := by
  rw [interrupt, entered]
  split_ifs <;> simp

theorem interrupt_esp :
    (context.interrupt esp0).esp + 12 = (context.entered esp0).esp := by
  simp only [interrupt, Cpu.pushl_esp]
  bv_omega

theorem interrupt_words :
    (context.interrupt esp0).word 0 = context.eip ∧ (context.interrupt esp0).word 1 = context.cs ∧
      (context.interrupt esp0).word 2 = context.eflags := by
  refine ⟨Cpu.word_pushl_zero _ _, ?_, ?_⟩
  · rw [interrupt, Cpu.word_pushl_succ _ _ (by decide)]
    exact Cpu.word_pushl_zero _ _
  · rw [interrupt]
    iterate 2 rw [Cpu.word_pushl_succ _ _ (by decide)]
    exact Cpu.word_pushl_zero _ _

theorem interrupt_word {k : Nat} (k_lt : k < 2 ^ 28) :
    (context.interrupt esp0).word (3 + k) = (context.entered esp0).word k := by
  have order : 3 + k = k + 1 + 1 + 1 := by omega
  rw [order, interrupt]
  iterate 3 rw [Cpu.word_pushl_succ _ _ (by omega)]

/-- The stack of a user program is on that of the kernel. -/
theorem entered_words (user : ¬context.Privileged) :
    (context.entered esp0).word 0 = context.cpu.esp ∧
      (context.entered esp0).word 1 = context.ss := by
  rw [entered, if_neg user]
  refine ⟨Cpu.word_pushl_zero _ _, ?_⟩
  rw [Cpu.word_pushl_succ _ _ (by decide)]
  exact Cpu.word_pushl_zero _ _

end Context

/-- Whatever program is interrupted, in the kernel or not: if `do_irq` returns as the C convention
has it, the program goes on with its registers, flags and stack as they were. -/
theorem interrupt_resumes (irq : BitVec 32) (do_irq : Cpu → Option Cpu) (context : Context)
    (ss0 esp0 : BitVec 32) (frame : Nat) (small : frame + 14 ≤ 2 ^ 28)
    (returns : ∀ before next, do_irq before = some next → Cpu.Cdecl 1 (frame + 14) before next)
    (after : Cpu)
    (result : intr_asm irq do_irq context.gateFlags (context.interrupt esp0) = some after) :
    Resumes frame context (iret (if context.Privileged then context.ss else ss0) after) := by
  obtain ⟨eax, ebx, ecx, edx, esi, edi, ebp, esp, words⟩ :=
    intr_asm_restores (by omega) small returns result
  obtain ⟨eax', ebx', ecx', edx', esi', edi', ebp'⟩ := context.interrupt_registers esp0
  obtain ⟨eip', cs', eflags'⟩ := context.interrupt_words esp0
  have eip : after.word 0 = context.eip := (words 0 (by omega)).trans eip'
  have cs : after.word 1 = context.cs := (words 1 (by omega)).trans cs'
  have eflags : after.word 2 = context.eflags := (words 2 (by omega)).trans eflags'
  have behind (k : Nat) (k_lt : k < frame + 2) :
      after.word (3 + k) = (context.entered esp0).word k := by
    rw [words _ (by omega), context.interrupt_word _ (by omega)]
  generalize ss_eq : (if context.Privileged then context.ss else ss0) = ss
  obtain ⟨eip_of, cs_of, eflags_of, df_of⟩ := iret_frame ss after
  obtain ⟨eax_of, ebx_of, ecx_of, edx_of, esi_of, edi_of, ebp_of⟩ := iret_registers ss after
  have placed : (iret ss after).cpu.esp = context.cpu.esp ∧ (iret ss after).ss = context.ss ∧
      (context.Privileged → ∀ k < frame, (iret ss after).cpu.word k = context.cpu.word k) := by
    by_cases privileged : context.Privileged
    · have kernel : context.entered esp0 = context.cpu := if_pos privileged
      have returns_to : after.word 1 &&& 3 = 0 := by
        rw [cs]
        exact privileged
      obtain ⟨esp_of, ss_of, stack⟩ := iret_kernel ss returns_to
      rw [esp_of, ss_of, esp, context.interrupt_esp, kernel]
      rw [if_pos privileged] at ss_eq
      exact ⟨rfl, ss_eq.symm, fun _ k k_lt => by rw [stack, behind k (by omega), kernel]⟩
    · obtain ⟨user_esp, user_ss⟩ := context.entered_words esp0 privileged
      have returns_to : ¬after.word 1 &&& 3 = 0 := by
        rw [cs]
        exact privileged
      obtain ⟨esp_of, ss_of⟩ := iret_user ss returns_to
      rw [esp_of, ss_of, behind 0 (by omega), behind 1 (by omega), user_esp, user_ss]
      exact ⟨rfl, rfl, fun kernel => absurd kernel privileged⟩
  exact
    { eax := eax_of.trans (eax.trans eax')
      ebx := ebx_of.trans (ebx.trans ebx')
      ecx := ecx_of.trans (ecx.trans ecx')
      edx := edx_of.trans (edx.trans edx')
      esi := esi_of.trans (esi.trans esi')
      edi := edi_of.trans (edi.trans edi')
      ebp := ebp_of.trans (ebp.trans ebp')
      esp := placed.1
      df := df_of.trans (congrArg (·.getLsbD 10) eflags)
      eflags := eflags_of.trans eflags
      cs := cs_of.trans cs
      eip := eip_of.trans eip
      ss := placed.2.1
      stack := placed.2.2 }

/-- A user program with interrupts enabled. -/
def Context.user : Context where
  cpu :=
    { eax := 3, ebx := 1, ecx := 0x8048200, edx := 16, esi := 5, edi := 6, ebp := 0x83FFFF0
      esp := 0x83FFFE0, df := false, memory := fun _ => 0 }
  eflags := 0x202
  cs := 0x23
  eip := 0x8048100
  ss := 0x2B

/-- The stack of a call that overwrites its argument and pushes two words of its own. -/
def clobberedStack (cpu : Cpu) : Cpu := (((cpu.discard 1).pushl 0).pushl cpu.ebp).pushl 0x61

/-- That call, with the registers that the C convention leaves it used for something else. -/
def clobber (cpu : Cpu) : Cpu :=
  { cpu with eax := 0, ecx := 1, edx := 0x20, memory := (clobberedStack cpu).memory }

theorem clobberedStack_word (cpu : Cpu) {k : Nat} (k_lt : k < 2 ^ 28) :
    (clobberedStack cpu).word (k + 1 + 1 + 1) = cpu.word (1 + k) := by
  rw [clobberedStack]
  iterate 3 rw [Cpu.word_pushl_succ _ _ (by omega)]
  rw [Cpu.word_discard]

theorem clobberedStack_esp (cpu : Cpu) : (clobberedStack cpu).esp + 8 = cpu.esp := by
  simp only [clobberedStack, Cpu.discard, Cpu.pushl_esp]
  bv_omega

theorem clobber_cdecl (cpu : Cpu) {frame : Nat} (small : frame ≤ 2 ^ 28) :
    Cpu.Cdecl 1 frame cpu (clobber cpu) where
  ebx := rfl
  esi := rfl
  edi := rfl
  ebp := rfl
  esp := rfl
  word k k_lt := by
    have esp := clobberedStack_esp cpu
    have place : cpu.esp + BitVec.ofNat 32 (4 * (1 + k)) =
        (clobberedStack cpu).esp + BitVec.ofNat 32 (4 * (k + 1 + 1 + 1)) := by
      rw [← esp, show (8 : BitVec 32) = BitVec.ofNat 32 8 from rfl, offset_add]
      congr 2
      omega
    rw [← clobberedStack_word cpu (by omega), Cpu.word, Cpu.word, clobber, place]

/-- A key interrupts it, and its registers are used for something else. -/
theorem interrupt_resumes_user :
    ∃ after, key_intr_asm (fun cpu => some (clobber cpu)) Context.user.gateFlags
        (Context.user.interrupt 0x7FE000) = some after ∧
      Resumes 8 Context.user
        (iret (if Context.user.Privileged then Context.user.ss else 0x18) after) := by
  refine ⟨_, rfl, interrupt_resumes 33 (fun cpu => some (clobber cpu)) Context.user 0x18 0x7FE000 8
    (by decide) (fun before next returned => ?_) _ rfl⟩
  cases returned
  exact clobber_cdecl before (by decide)

end ComputerSystem
