import Mathlib

/-!
# Paging in two levels

How an IA-32 processor translates linear addresses, and the translations that it keeps.  Numbers of
pages and frames are addresses without their last 12 bits.  What the processor keeps is right as
long as it is dropped with every change of an entry.
-/

namespace PageWalk

/-- The bits of the control registers that paging depends on. -/
structure Controls where
  /-- CR0.PG. -/
  paging : Bool
  /-- CR0.WP: read-only pages bind supervisor code too. -/
  write_protect : Bool
  /-- CR4.PSE: the directory may map 4 MB pages. -/
  page_size : Bool
  /-- CR4.PGE: global translations outlive a change of CR3. -/
  global : Bool
  /-- CR3 without its last 12 bits. -/
  directory : Nat

/-- The kind of an access. -/
structure PageAccess where
  /-- Made by user code. -/
  user : Bool
  /-- A store. -/
  write : Bool

/-- What the entries say about a page. -/
structure Translation where
  /-- Its physical address, in units of 4 KB. -/
  frame : Nat
  /-- User code may use it. -/
  user : Bool
  /-- It may be written. -/
  writable : Bool
  /-- It outlives a change of CR3. -/
  global : Bool
  deriving DecidableEq

namespace Translation

/-- The page may be accessed so. -/
def permits (translation : Translation) (write_protect : Bool) (access : PageAccess) : Bool :=
  if access.user then translation.user && (translation.writable || !access.write)
  else translation.writable || !access.write || !write_protect

/-- The physical address. -/
def physical (translation : Translation) (linear : Nat) : Nat :=
  translation.frame * 2 ^ 12 + linear % 2 ^ 12

end Translation

/-- The entries for a page, read from physical memory by `load`; bits 12 to 21 of an entry that
maps 4 MB are ignored. -/
def translate (controls : Controls) (load : Nat → Nat) (page : Nat) : Option Translation :=
  let upper := load (controls.directory * 2 ^ 12 + page / 2 ^ 10 * 4)
  if upper.testBit 0 then
    if controls.page_size && upper.testBit 7 then
      some
        { frame := upper / 2 ^ 22 * 2 ^ 10 + page % 2 ^ 10
          user := upper.testBit 2
          writable := upper.testBit 1
          global := upper.testBit 8 }
    else
      let lower := load (upper / 2 ^ 12 * 2 ^ 12 + page % 2 ^ 10 * 4)
      if lower.testBit 0 then
        some
          { frame := lower / 2 ^ 12
            user := upper.testBit 2 && lower.testBit 2
            writable := upper.testBit 1 && lower.testBit 1
            global := lower.testBit 8 }
      else none
  else none

/-- The physical address that an access gets to, unless it faults. -/
def reach (controls : Controls) (translation : Option Translation) (access : PageAccess)
    (linear : Nat) : Option Nat :=
  translation.bind fun translation =>
    if translation.permits controls.write_protect access then some (translation.physical linear)
    else none

/-- The processor, with the translations that it keeps. -/
structure Cpu where
  /-- The control registers. -/
  controls : Controls
  /-- The TLB. -/
  kept : Nat → Option Translation

namespace Cpu

/-- Where an access gets; a translation that is kept is not looked up. -/
def resolve (cpu : Cpu) (load : Nat → Nat) (access : PageAccess) (linear : Nat) : Option Nat :=
  if cpu.controls.paging then
    let page := linear / 2 ^ 12
    reach cpu.controls ((cpu.kept page).or (translate cpu.controls load page)) access linear
  else some linear

/-- The processor looks up a page, for an access or ahead of one. -/
def fetch (cpu : Cpu) (load : Nat → Nat) (page : Nat) : Cpu :=
  { cpu with
    kept :=
      Function.update cpu.kept page ((cpu.kept page).or (translate cpu.controls load page)) }

/-- The processor runs out of room for a translation. -/
def drop (cpu : Cpu) (page : Nat) : Cpu := { cpu with kept := Function.update cpu.kept page none }

/-- CR3 is loaded again. -/
def reload (cpu : Cpu) : Cpu :=
  { cpu with
    kept := fun page =>
      (cpu.kept page).filter fun translation => cpu.controls.global && translation.global }

/-- What is kept is what the entries say. -/
def Coherent (cpu : Cpu) (load : Nat → Nat) : Prop :=
  ∀ page translation, cpu.kept page = some translation →
    translate cpu.controls load page = some translation

variable {cpu : Cpu} {load : Nat → Nat}

theorem resolve_kept (paging : cpu.controls.paging = true) {linear : Nat}
    {translation : Translation} (kept : cpu.kept (linear / 2 ^ 12) = some translation)
    (access : PageAccess) :
    cpu.resolve load access linear = reach cpu.controls (some translation) access linear := by
  rw [resolve, if_pos paging]
  simp only [kept, Option.some_or]

/-- Looking up first or not makes no difference. -/
theorem Coherent.or_translate (coherent : cpu.Coherent load) (page : Nat) :
    (cpu.kept page).or (translate cpu.controls load page) =
      translate cpu.controls load page := by
  cases kept : cpu.kept page with
  | none => rfl
  | some translation => exact (coherent page translation kept).symm

theorem Coherent.resolve (coherent : cpu.Coherent load) (paging : cpu.controls.paging = true)
    (access : PageAccess) (linear : Nat) :
    cpu.resolve load access linear =
      reach cpu.controls (translate cpu.controls load (linear / 2 ^ 12)) access linear := by
  rw [Cpu.resolve, if_pos paging]
  simp only [coherent.or_translate]

theorem Coherent.fetch (coherent : cpu.Coherent load) (page : Nat) :
    (cpu.fetch load page).Coherent load := by
  intro other translation kept
  simp only [Cpu.fetch, coherent.or_translate] at kept
  by_cases same : other = page
  · subst same
    rwa [Function.update_self] at kept
  · rw [Function.update_of_ne same] at kept
    exact coherent other translation kept

theorem Coherent.drop (coherent : cpu.Coherent load) (page : Nat) :
    (cpu.drop page).Coherent load := by
  intro other translation kept
  by_cases same : other = page
  · subst same
    simp only [Cpu.drop, Function.update_self] at kept
    cases kept
  · simp only [Cpu.drop, Function.update_of_ne same] at kept
    exact coherent other translation kept

/-- Without global pages a new CR3 leaves nothing that could be wrong. -/
theorem coherent_reload (no_global : cpu.controls.global = false) (load : Nat → Nat) :
    cpu.reload.Coherent load := by
  intro page translation kept
  obtain ⟨-, global⟩ := Option.filter_eq_some_iff.mp kept
  simp [no_global] at global

theorem reload_global (global : cpu.controls.global = true) {page : Nat}
    {translation : Translation} (kept : cpu.kept page = some translation)
    (marked : translation.global = true) : cpu.reload.kept page = some translation := by
  simp [reload, kept, global, marked]

/-- Entries may change that say the same. -/
theorem Coherent.of_translate (coherent : cpu.Coherent load) {changed : Nat → Nat}
    (same : ∀ page, translate cpu.controls changed page = translate cpu.controls load page) :
    cpu.Coherent changed := fun page translation kept =>
  (same page).trans (coherent page translation kept)

end Cpu

end PageWalk
