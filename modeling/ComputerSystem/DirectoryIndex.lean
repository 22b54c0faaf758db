import ComputerSystem.Image

/-!
# Directory entries by index

`read_dentry_by_index` puts the entry into the global `cur_dir_dentry`, so only a caller that passes
the address of the global gets it, and its bound lets the index behind the last entry pass.
-/

namespace ComputerSystem

open CString

/-- What a caller passes to `read_dentry_by_index`: the address of the global, or of a dentry of its
own. -/
inductive DentryPointer
  | cur_dir_dentry
  | own
  deriving DecidableEq

/-- The global `cur_dir_dentry` and the dentry of a caller. -/
structure Dentries where
  /-- The global. -/
  cur_dir_dentry : Dentry
  /-- The caller's. -/
  own : Dentry

namespace Dentries

/-- The dentry behind a pointer. -/
def target (dentries : Dentries) : DentryPointer → Dentry
  | .cur_dir_dentry => dentries.cur_dir_dentry
  | .own => dentries.own

/-- The result of `read_dentry_by_index`, and the dentries afterwards. -/
def by_index (dentries : Dentries) (image : Image) (index : Nat) : Int × Dentries :=
  let (result, own, cur_dir_dentry) :=
    read_dentry_by_index image index dentries.own dentries.cur_dir_dentry
  (result, { cur_dir_dentry, own })

theorem by_index_behind (dentries : Dentries) {image : Image} {index : Nat}
    (behind : image.num_dir_entry < index) : dentries.by_index image index = (-1, dentries) := by
  simp only [by_index, read_dentry_by_index, if_pos behind]

theorem by_index_inside (dentries : Dentries) {image : Image} {index : Nat}
    (inside : index ≤ image.num_dir_entry) :
    dentries.by_index image index =
      (0, { dentries with cur_dir_dentry := image.dir_entries index }) := by
  simp only [by_index, read_dentry_by_index, if_neg (Nat.not_lt.mpr inside)]

/-- The lookup by index fails, and leaves the dentry it was given alone, exactly from the end of the
directory on; before that it gives the entry, and the name of the entry leads back to it. -/
structure Agrees (dentries : Dentries) (image : Image) (index : Nat) (pointer : DentryPointer) :
    Prop where
  /-- It fails from the end of the directory on. -/
  fails_iff : ((dentries.by_index image index).1 = -1 ∧
    (dentries.by_index image index).2.target pointer = dentries.target pointer) ↔
      image.num_dir_entry ≤ index
  /-- Before that it gives the entry. -/
  finds : index < image.num_dir_entry →
    (dentries.by_index image index).1 = 0 ∧
    (dentries.by_index image index).2.target pointer = image.dir_entries index ∧
    ∀ dentry, read_dentry_by_name image
      ((dentries.by_index image index).2.target pointer).name dentry =
        (0, image.dir_entries index)

end Dentries

/-- Entries with different indices have different names. -/
def Image.Distinct (image : Image) : Prop :=
  ∀ i < image.num_dir_entry, ∀ j < image.num_dir_entry,
    (image.dir_entries i).name = (image.dir_entries j).name → i = j

theorem Dentry.text_name (dentry : Dentry) : text dentry.name = dentry.name := by
  rw [text, List.takeWhile_eq_self_iff]
  intro c mem
  simpa using ne_zero_of_mem_text mem

/-- In a directory of distinct names each name leads to its entry. -/
theorem read_dentry_by_name_distinct {image : Image} (distinct : image.Distinct) {index : Nat}
    (inside : index < image.num_dir_entry) (dentry : Dentry) :
    read_dentry_by_name image (image.dir_entries index).name dentry =
      (0, image.dir_entries index) := by
  have found : image.lookup (image.dir_entries index).name = some (image.dir_entries index) := by
    rw [Image.lookup_eq_some_iff]
    refine ⟨index, inside, rfl, rfl, fun earlier earlier_lt same => ?_⟩
    exact earlier_lt.ne (distinct earlier (earlier_lt.trans inside) index inside same)
  rw [read_dentry_by_name_eq, Dentry.text_name, found]

namespace Dentries

/-- In a directory of distinct names the two lookups agree exactly when the index is not the count
of the entries and, below that, the caller passes the address of the global or has the entry
already. -/
theorem agrees_iff (image : Image) (distinct : image.Distinct) (dentries : Dentries) (index : Nat)
    (pointer : DentryPointer) :
    dentries.Agrees image index pointer ↔
      index ≠ image.num_dir_entry ∧
        (index < image.num_dir_entry →
          pointer = .cur_dir_dentry ∨ dentries.own = image.dir_entries index) := by
  have zero_ne : (0 : Int) ≠ -1 := by decide
  rcases Nat.lt_trichotomy index image.num_dir_entry with inside | rfl | behind
  · have result := dentries.by_index_inside inside.le
    constructor
    · intro agrees
      refine ⟨inside.ne, fun _ => ?_⟩
      have found := (agrees.finds inside).2.1
      rw [result] at found
      cases pointer with
      | cur_dir_dentry => exact Or.inl rfl
      | own => exact Or.inr found
    · rintro ⟨-, passed⟩
      have found : (dentries.by_index image index).2.target pointer = image.dir_entries index := by
        rw [result]
        cases pointer with
        | cur_dir_dentry => rfl
        | own => exact (passed inside).resolve_left nofun
      refine ⟨iff_of_false ?_ (Nat.not_le.mpr inside), fun _ => ⟨?_, found, fun dentry => ?_⟩⟩
      · rw [result]
        exact fun failed => zero_ne failed.1
      · rw [result]
      · rw [found]
        exact read_dentry_by_name_distinct distinct inside dentry
  · have result := dentries.by_index_inside (le_refl image.num_dir_entry)
    constructor
    · intro agrees
      have failed := (agrees.fails_iff.mpr le_rfl).1
      rw [result] at failed
      exact absurd failed zero_ne
    · rintro ⟨other, -⟩
      exact absurd rfl other
  · have result := dentries.by_index_behind behind
    refine iff_of_true ⟨?_, fun inside => ?_⟩ ⟨behind.ne', fun inside => ?_⟩
    · rw [result]
      exact iff_of_true ⟨rfl, rfl⟩ behind.le
    · exact absurd inside behind.asymm
    · exact absurd inside behind.asymm

/-- Dentries that nothing was read into. -/
def empty : Dentries where
  cur_dir_dentry := ⟨fun _ => 0, 0, 0⟩
  own := ⟨fun _ => 0, 0, 0⟩

theorem sample_distinct : Image.sample.Distinct := by
  unfold Image.Distinct
  decide

/-- `dir_read` passes the address of the global. -/
theorem agrees_iff_shell :
    Image.sample.Distinct ∧ empty.Agrees Image.sample 1 .cur_dir_dentry :=
  ⟨sample_distinct, (agrees_iff Image.sample sample_distinct empty 1 .cur_dir_dentry).mpr
    ⟨by decide, fun _ => Or.inl rfl⟩⟩

/-- A caller with a dentry of its own gets a result of 0 for the second entry, and no entry. -/
theorem lookups_disagree :
    ¬∀ (image : Image) (dentries : Dentries) (index : Nat), image.Distinct →
      dentries.Agrees image index .own := by
  intro all
  have found := (all Image.sample empty 1 sample_distinct).finds (by decide)
  have type_eq := congrArg Dentry.file_type found.2.1
  revert type_eq
  decide

end Dentries

end ComputerSystem
