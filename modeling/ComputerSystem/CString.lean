import Mathlib

/-!
# NUL-terminated strings

Memory from a `char*` on is a list of bytes, and every byte past the end of the list is NUL.  A
string is the prefix before the first NUL.
-/

namespace CString

/-- The string at the head of the memory: its bytes before the first NUL. -/
def text (memory : List UInt8) : List UInt8 :=
  memory.takeWhile (· ≠ 0)

/-- `strlen`: count bytes up to the first NUL. -/
def strlen : List UInt8 → Nat
  | [] => 0
  | c :: s => if c = 0 then 0 else strlen s + 1

/-- The byte a pointer into the memory points at. -/
def first : List UInt8 → UInt8
  | [] => 0
  | c :: _ => c

/-- Reading of a byte as a signed `char`. -/
def signed (c : UInt8) : Int :=
  if c.toNat < 128 then c.toNat else c.toNat - 256

/-- `strncmp`: compare at most `n` bytes, stopping at a difference or at a common NUL. -/
def strncmp (s1 s2 : List UInt8) : Nat → Int
  | 0 => 0
  | n + 1 =>
      let a := first s1
      let b := first s2
      if a ≠ b ∨ a = 0 then signed a - signed b else strncmp s1.tail s2.tail n

@[simp]
theorem text_nil : text [] = [] := rfl

theorem text_cons (c : UInt8) (s : List UInt8) :
    text (c :: s) = if c = 0 then [] else c :: text s := by
  by_cases zero : c = 0
  · simp [text, zero]
  · simp [text, zero]

theorem strlen_eq_length_text (s : List UInt8) : strlen s = (text s).length := by
  induction s with
  | nil => rfl
  | cons c s ih =>
      rw [strlen, text_cons]
      split <;> simp [ih]

theorem text_length_le (s : List UInt8) : (text s).length ≤ s.length :=
  (List.takeWhile_prefix _).length_le

/-- What lies behind a field does not show in its first bytes, whether or not it holds a NUL. -/
theorem text_append_take (s behind : List UInt8) {n : Nat} (inside : n ≤ s.length) :
    (text (s ++ behind)).take n = (text s).take n := by
  rw [text, text, List.takeWhile_append]
  split_ifs with full
  · have whole : s.takeWhile (· ≠ 0) = s :=
      (List.takeWhile_prefix _).eq_of_length full
    rw [whole, List.take_append_of_le_length inside]
  · rfl

theorem ne_zero_of_mem_text {s : List UInt8} {c : UInt8} (mem : c ∈ text s) : c ≠ 0 := by
  simpa using List.mem_takeWhile_imp mem

/-- A NUL ends the string, whatever lies behind it. -/
theorem text_append_nul {s : List UInt8} (solid : ∀ c ∈ s, c ≠ 0) (behind : List UInt8) :
    text (s ++ 0 :: behind) = s := by
  rw [text, List.takeWhile_append_of_pos]
  · simp
  · intro c mem
    simpa using solid c mem

theorem drop_length_takeWhile {α : Type*} (p : α → Bool) (l : List α) :
    l.drop (l.takeWhile p).length = l.dropWhile p := by
  induction l with
  | nil => rfl
  | cons a l ih =>
      rw [List.takeWhile_cons, List.dropWhile_cons]
      split_ifs
      · exact ih
      · rfl

/-- Up to its end the string is what memory holds. -/
theorem getD_eq_text_getD (s : List UInt8) {k : Nat} (inside : k ≤ (text s).length) :
    s.getD k 0 = (text s).getD k 0 := by
  induction s generalizing k with
  | nil => rfl
  | cons c s ih =>
      rw [text_cons] at inside ⊢
      split_ifs at inside ⊢ with zero
      · obtain rfl : k = 0 := by simpa using inside
        simp [zero]
      · cases k with
        | zero => rfl
        | succ k => exact ih (by simpa using inside)

theorem signed_injective {a b : UInt8} (equality : signed a = signed b) : a = b := by
  have a_lt := a.toNat_lt
  have b_lt := b.toNat_lt
  have values : a.toNat = b.toNat := by
    unfold signed at equality
    split at equality <;> split at equality <;> omega
  exact UInt8.toNat_inj.mp values

theorem text_eq_first (s : List UInt8) :
    text s = if first s = 0 then [] else first s :: text s.tail := by
  cases s with
  | nil => simp [first]
  | cons c s => exact text_cons c s

theorem first_drop (s : List UInt8) (i : Nat) : first (s.drop i) = s.getD i 0 := by
  rw [List.getD_eq_getElem?_getD, ← List.head?_drop]
  cases s.drop i with
  | nil => rfl
  | cons c rest => rfl

theorem text_drop (s : List UInt8) (i : Nat) :
    text (s.drop i) = if s.getD i 0 = 0 then [] else s.getD i 0 :: text (s.drop (i + 1)) := by
  rw [text_eq_first, first_drop, List.tail_drop]

/-- A position within the string cuts it in two. -/
theorem text_drop_of_le (s : List UInt8) {i : Nat} (inside : i ≤ (text s).length) :
    text (s.drop i) = (text s).drop i := by
  induction i generalizing s with
  | zero => rfl
  | succ i ih =>
      cases s with
      | nil => simp at inside
      | cons c s =>
          rw [text_cons] at inside ⊢
          split_ifs at inside ⊢ with zero
          · simp at inside
          · exact ih s (by simpa using inside)

/-- A zero result means that the two strings agree as far as `n` bytes show. -/
theorem strncmp_eq_zero_iff (s1 s2 : List UInt8) (n : Nat) :
    strncmp s1 s2 n = 0 ↔ (text s1).take n = (text s2).take n := by
  induction n generalizing s1 s2 with
  | zero => simp [strncmp]
  | succ n ih =>
      rw [text_eq_first s1, text_eq_first s2]
      by_cases same : first s1 = first s2
      · by_cases zero : first s2 = 0
        · simp [strncmp, same, zero]
        · simpa [strncmp, same, zero] using ih s1.tail s2.tail
      · have difference : strncmp s1 s2 (n + 1) ≠ 0 := by
          intro equality
          have values : signed (first s1) - signed (first s2) = 0 := by
            simpa [strncmp, same] using equality
          exact same (signed_injective (by omega))
        have texts_ne :
            (if first s1 = 0 then [] else first s1 :: text s1.tail).take (n + 1) ≠
              (if first s2 = 0 then [] else first s2 :: text s2.tail).take (n + 1) := by
          intro equality
          split at equality <;> split at equality
          · rename_i zero1 zero2
            exact same (zero1.trans zero2.symm)
          · simp at equality
          · simp at equality
          · exact same (List.cons.inj equality).1
        exact iff_of_false difference texts_ne

end CString
