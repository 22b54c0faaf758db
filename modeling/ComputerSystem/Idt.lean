import ComputerSystem.Gates

/-!
# The interrupt descriptor table

`idt.c`: the 256 entries as the kernel fills them in, and the gates that the processor finds there.
-/

namespace ComputerSystem

open Gates

/-- `idt_desc_t`. -/
structure idt_desc_t where
  /-- The low half of the address. -/
  offset_15_00 : Nat
  /-- The code segment of the handler. -/
  seg_selector : Nat
  /-- Not used. -/
  reserved4 : Nat
  /-- Set for a trap gate. -/
  reserved3 : Nat
  /-- Set for a gate. -/
  reserved2 : Nat
  /-- Set for a gate. -/
  reserved1 : Nat
  /-- Set for 32 bits. -/
  size : Nat
  /-- Clear for a gate. -/
  reserved0 : Nat
  /-- The privilege that `int` needs. -/
  dpl : Nat
  /-- The gate is there. -/
  present : Nat
  /-- The high half of the address. -/
  offset_31_16 : Nat

/-- The eight bytes of an entry. -/
def idt_desc_t.val (entry : idt_desc_t) : Nat :=
  entry.offset_15_00 % 2 ^ 16 + entry.seg_selector % 2 ^ 16 * 2 ^ 16 +
    entry.reserved4 % 2 ^ 8 * 2 ^ 32 + entry.reserved3 % 2 * 2 ^ 40 + entry.reserved2 % 2 * 2 ^ 41 +
    entry.reserved1 % 2 * 2 ^ 42 + entry.size % 2 * 2 ^ 43 + entry.reserved0 % 2 * 2 ^ 44 +
    entry.dpl % 4 * 2 ^ 45 + entry.present % 2 * 2 ^ 47 + entry.offset_31_16 % 2 ^ 16 * 2 ^ 48

/-- The entries, by their vectors. -/
abbrev IdtTable := Nat → idt_desc_t

def NUM_VEC : Nat := 256
def KERNEL_CS : Nat := 0x0010

/-- What the gates lead to. -/
inductive Isr
  | exception_de | exception_db | exception_nmi | exception_bp | exception_of | exception_br
  | exception_ud | exception_nm | exception_df | exception_mf | exception_ts | exception_np
  | exception_ss | exception_gp | exception_pf | exception_fp | exception_ac | exception_mc
  | exception_xf | pit_intr_asm | key_intr_asm | rtc_intr_asm | system_call_asm
  deriving DecidableEq

/-- The calls of `SET_IDT_ENTRY` in `idt_init`. -/
def isrs : List (Nat × Isr) :=
  [(0, .exception_de), (1, .exception_db), (2, .exception_nmi), (3, .exception_bp),
    (4, .exception_of), (5, .exception_br), (6, .exception_ud), (7, .exception_nm),
    (8, .exception_df), (9, .exception_mf), (10, .exception_ts), (11, .exception_np),
    (12, .exception_ss), (13, .exception_gp), (14, .exception_pf), (16, .exception_fp),
    (17, .exception_ac), (18, .exception_mc), (19, .exception_xf), (0x20, .pit_intr_asm),
    (33, .key_intr_asm), (40, .rtc_intr_asm), (0x80, .system_call_asm)]

/-- `SET_IDT_ENTRY`. -/
def SET_IDT_ENTRY (entry : idt_desc_t) (handler : BitVec 32) : idt_desc_t :=
  { entry with
    offset_31_16 := ((handler &&& 0xFFFF0000#32) >>> 16).toNat
    offset_15_00 := (handler &&& 0xFFFF#32).toNat }

/-- One turn of the loop of `idt_init`. -/
def idt_init_entry (idt : IdtTable) (i : Nat) : IdtTable :=
  let present :=
    if i < 15 then 1
    else if i > 15 ∧ i < 20 then 1
    else if i = 0x20 then 1
    else if i = 33 then 1
    else if i = 40 then 1
    else if i = 0x80 then 1
    else 0
  let idt := Function.update idt i
    { idt i with
      seg_selector := KERNEL_CS
      present
      size := 1
      dpl := 0
      reserved0 := 0
      reserved1 := 1
      reserved2 := 1
      reserved4 := 0 }
  let idt := Function.update idt 0x80 { idt 0x80 with dpl := 3 }
  Function.update idt i { idt i with reserved3 := if i < 32 then 1 else 0 }

/-- `idt_init`. -/
def idt_init (address : Isr → BitVec 32) (idt : IdtTable) : IdtTable :=
  let idt := (List.range NUM_VEC).foldl idt_init_entry idt
  isrs.foldl (fun idt (vector, isr) =>
    Function.update idt vector (SET_IDT_ENTRY (idt vector) (address isr))) idt

/-! ## The entries -/

/-- What the loop makes of an entry. -/
def idtEntry (entry : idt_desc_t) (i : Nat) : idt_desc_t :=
  { entry with
    seg_selector := KERNEL_CS
    present := if (isrs.lookup i).isSome then 1 else 0
    size := 1
    dpl := if i = 0x80 then 3 else 0
    reserved0 := 0
    reserved1 := 1
    reserved2 := 1
    reserved3 := if i < 32 then 1 else 0
    reserved4 := 0 }

theorem present_eq : ∀ i < NUM_VEC,
    (if i < 15 then 1 else if i > 15 ∧ i < 20 then 1 else if i = 0x20 then 1 else if i = 33 then 1
      else if i = 40 then 1 else if i = 0x80 then 1 else 0) =
      if (isrs.lookup i).isSome then 1 else 0 := by
  decide +kernel

theorem idt_init_entry_self (idt : IdtTable) {i : Nat} (inside : i < NUM_VEC) :
    idt_init_entry idt i i = idtEntry (idt i) i := by
  have present := present_eq i inside
  rw [idt_init_entry, present, idtEntry]
  by_cases system : i = 0x80
  · subst system
    simp
  · simp [system]

/-- The entry for system calls is made usable by user code over and over. -/
theorem idt_init_entry_other (idt : IdtTable) {i v : Nat} (other : v ≠ i) :
    idt_init_entry idt i v = if v = 0x80 then { idt v with dpl := 3 } else idt v := by
  rw [idt_init_entry]
  by_cases system : v = 0x80
  · subst system
    simp [other]
  · simp [system, other]

/-- What a turn leaves of an entry is made the same. -/
theorem idtEntry_turn (idt : IdtTable) {i : Nat} (v : Nat) (inside : i < NUM_VEC) :
    idtEntry (idt_init_entry idt i v) v = idtEntry (idt v) v := by
  by_cases same : v = i
  · rw [same, idt_init_entry_self idt inside]
    rfl
  · rw [idt_init_entry_other idt same]
    split_ifs <;> rfl

/-- A later turn leaves an entry that is filled in. -/
theorem idtEntry_kept (idt : IdtTable) {i v : Nat} {entry : idt_desc_t} (other : v ≠ i)
    (filled : idt v = idtEntry entry v) : idt_init_entry idt i v = idtEntry entry v := by
  rw [idt_init_entry_other idt other, filled]
  split_ifs with system
  · simp only [idtEntry, system, if_true]
  · rfl

/-- The entries that the loop has passed are filled in, and the others will be. -/
theorem idt_init_loop (idt : IdtTable) {n : Nat} (v : Nat) (n_le : n ≤ NUM_VEC) :
    idtEntry ((List.range n).foldl idt_init_entry idt v) v = idtEntry (idt v) v ∧
      (v < n → (List.range n).foldl idt_init_entry idt v = idtEntry (idt v) v) := by
  induction n with
  | zero => exact ⟨rfl, fun passed => absurd passed (Nat.not_lt_zero v)⟩
  | succ n ih =>
      obtain ⟨later, passed⟩ := ih (Nat.le_of_succ_le n_le)
      rw [List.range_succ, List.foldl_append, List.foldl_cons, List.foldl_nil,
        idtEntry_turn _ _ n_le]
      refine ⟨later, fun below => ?_⟩
      rcases Nat.lt_succ_iff_lt_or_eq.mp below with before | rfl
      · exact idtEntry_kept _ before.ne (passed before)
      · rw [idt_init_entry_self _ n_le, later]

theorem foldl_set_entries (address : Isr → BitVec 32) (calls : List (Nat × Isr)) (idt : IdtTable)
    (v : Nat) (distinct : (calls.map Prod.fst).Nodup) :
    calls.foldl (fun idt (vector, isr) =>
      Function.update idt vector (SET_IDT_ENTRY (idt vector) (address isr))) idt v =
      ((calls.lookup v).map fun isr => SET_IDT_ENTRY (idt v) (address isr)).getD (idt v) := by
  induction calls generalizing idt with
  | nil => rfl
  | cons call calls ih =>
      obtain ⟨vector, isr⟩ := call
      rw [List.map_cons, List.nodup_cons] at distinct
      rw [List.foldl_cons, ih _ distinct.2, List.lookup_cons]
      dsimp only
      by_cases same : v = vector
      · have absent : calls.lookup v = none := by
          rw [List.lookup_eq_none_iff]
          intro call mem
          rw [same]
          exact bne_iff_ne.mpr fun found => distinct.1 (List.mem_map.mpr ⟨call, mem, found.symm⟩)
        rw [absent, same, Function.update_self, beq_self_eq_true]
        rfl
      · rw [Function.update_of_ne same, beq_false_of_ne same]

theorem val_present (entry : idt_desc_t) : entry.val / 2 ^ 47 % 2 = entry.present % 2 := by
  rw [idt_desc_t.val]
  omega

theorem SET_IDT_ENTRY_val (entry : idt_desc_t) (handler : BitVec 32) (i : Nat) :
    (SET_IDT_ENTRY (idtEntry entry i) handler).val =
      descriptor handler.toNat KERNEL_CS (0xE + (decide (i < 32)).toNat) 0
        (if i = 0x80 then 3 else 0) (if (isrs.lookup i).isSome then 1 else 0) := by
  have high : ((handler &&& 0xFFFF0000#32) >>> 16).toNat = handler.toNat / 2 ^ 16 := by
    have mask : (0xFFFF0000#32).toNat >>> 16 = 2 ^ 16 - 1 := rfl
    rw [BitVec.toNat_ushiftRight, BitVec.toNat_and, Nat.shiftRight_and_distrib, mask,
      Nat.and_two_pow_sub_one_eq_mod, Nat.shiftRight_eq_div_pow]
    omega
  have low : (handler &&& 0xFFFF#32).toNat = handler.toNat % 2 ^ 16 := by
    rw [BitVec.toNat_and]
    exact Nat.and_two_pow_sub_one_eq_mod _ 16
  rw [idt_desc_t.val, SET_IDT_ENTRY, high, low, descriptor]
  simp only [idtEntry]
  by_cases exception : i < 32
  · rw [if_pos exception, decide_eq_true exception, Bool.toNat_true]
    omega
  · rw [if_neg exception, decide_eq_false exception, Bool.toNat_false]
    omega

/-- After `idt_init` the vectors with a handler have a gate to it, and no other has one; exceptions
leave interrupts enabled, and user code may use the gate of the system calls. -/
theorem gate_idt_init (address : Isr → BitVec 32) (idt : IdtTable) {v : Nat}
    (inside : v < NUM_VEC) :
    gate (idt_init address idt v).val = (isrs.lookup v).map fun isr =>
      ⟨KERNEL_CS, (address isr).toNat, v < 32, if v = 0x80 then 3 else 0⟩ := by
  have filled := (idt_init_loop idt v le_rfl).2 inside
  have distinct : (isrs.map Prod.fst).Nodup := by decide
  rw [idt_init, foldl_set_entries address isrs _ v distinct, filled]
  cases found : isrs.lookup v with
  | none =>
      have absent : (idtEntry (idt v) v).present = 0 := by rw [idtEntry, found]; rfl
      rw [Option.map_none, Option.getD_none, gate, val_present, absent, if_pos (Or.inl rfl)]
      rfl
  | some isr =>
      rw [Option.map_some, Option.getD_some, SET_IDT_ENTRY_val, found, Option.isSome_some,
        if_pos rfl, gate_present _ _ _ (address isr).isLt]
      have level : (if v = 0x80 then 3 else 0) % 4 = if v = 0x80 then 3 else 0 := by
        split_ifs <;> rfl
      rw [level]
      rfl

end ComputerSystem
