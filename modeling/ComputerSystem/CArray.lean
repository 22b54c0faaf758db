import Mathlib

/-!
# Fixed-size arrays with signed indices

A C array of `n` cells is a function on `Fin n`.  A store whose index lies outside the array
changes no cell: what it hits is some other object.  The prefix `contents` is the list view that
buffers with a fill count are read through.  A loop that looks for a cell finds the lowest one.
-/

namespace CArray

variable {α : Type*} {n : Nat}

/-- Store `x` at index `i`; an index outside `0..n-1` changes no cell. -/
def store (cells : Fin n → α) (i : Int) (x : α) : Fin n → α :=
  fun k => if (k : Int) = i then x else cells k

@[simp]
theorem store_same (cells : Fin n → α) (k : Fin n) (x : α) : store cells k x k = x := by
  simp [store]

theorem store_of_ne (cells : Fin n → α) {i : Int} {k : Fin n} (x : α) (ne : (k : Int) ≠ i) :
    store cells i x k = cells k := by
  simp [store, ne]

@[simp]
theorem store_of_fin_ne (cells : Fin n → α) {j k : Fin n} (x : α) (ne : k ≠ j) :
    store cells j x k = cells k := by
  apply store_of_ne
  intro equality
  exact ne (Fin.ext (by exact_mod_cast equality))

theorem store_fin (cells : Fin n → α) (j k : Fin n) (x : α) :
    store cells j x k = if k = j then x else cells k := by
  by_cases same : k = j
  · simp [same]
  · simp [same]

theorem store_outside (cells : Fin n → α) {i : Int} (x : α) (outside : i < 0 ∨ (n : Int) ≤ i) :
    store cells i x = cells := by
  funext k
  apply store_of_ne
  have := k.isLt
  omega

/-- The first `len` cells, as far as the array reaches. -/
def contents (cells : Fin n → α) (len : Nat) : List α :=
  (List.ofFn cells).take len

@[simp]
theorem contents_length (cells : Fin n → α) (len : Nat) :
    (contents cells len).length = min len n := by
  simp [contents]

theorem contents_getElem? (cells : Fin n → α) (len i : Nat) :
    (contents cells len)[i]? =
      if bound : i < min len n then some (cells ⟨i, by omega⟩) else none := by
  by_cases inside : i < min len n
  · simp [contents, inside]
  · rw [dif_neg inside]
    apply List.getElem?_eq_none
    simp only [contents_length]
    omega

theorem contents_store_of_le (cells : Fin n → α) {i : Int} {len : Nat} (x : α)
    (past : (len : Int) ≤ i) : contents (store cells i x) len = contents cells len := by
  apply List.ext_getElem?
  intro k
  rw [contents_getElem?, contents_getElem?]
  by_cases inside : k < min len n
  · rw [dif_pos inside, dif_pos inside, store_of_ne]
    simp only
    omega
  · rw [dif_neg inside, dif_neg inside]

theorem contents_succ (cells : Fin n → α) {len : Nat} (fits : len < n) :
    contents cells (len + 1) = contents cells len ++ [cells ⟨len, fits⟩] := by
  have cell : (List.ofFn cells)[len]? = some (cells ⟨len, fits⟩) := by
    simp [fits]
  simp [contents, List.take_add_one, cell]

/-- Storing in the first free cell and counting it appends the element. -/
theorem contents_push (cells : Fin n → α) {len : Nat} (x : α) (fits : len < n) :
    contents (store cells len x) (len + 1) = contents cells len ++ [x] := by
  rw [contents_succ _ fits, contents_store_of_le cells x le_rfl]
  congr 2
  exact store_same cells ⟨len, fits⟩ x

theorem contents_pred (cells : Fin n → α) {len : Nat} (fits : len ≤ n) :
    contents cells (len - 1) = (contents cells len).dropLast := by
  rw [List.dropLast_eq_take, contents_length, Nat.min_eq_left fits, contents, contents,
    List.take_take, Nat.min_eq_left (Nat.sub_le len 1)]

/-- A search over increasing indices finds the lowest that passes. -/
theorem lowest_of_find? {indices : List (Fin n)} (sorted : indices.Pairwise (· < ·))
    {passes : Fin n → Bool} {i : Fin n} (found : indices.find? passes = some i) :
    passes i = true ∧ ∀ k ∈ indices, k < i → passes k = false := by
  obtain ⟨passed, before, after, list_eq, failed⟩ := List.find?_eq_some_iff_append.mp found
  refine ⟨passed, ?_⟩
  intro k mem below
  rw [list_eq, List.pairwise_append] at sorted
  rw [list_eq] at mem
  rcases List.mem_append.mp mem with mem | mem
  · simpa using failed k mem
  · rcases List.mem_cons.mp mem with rfl | mem
    · exact absurd below (lt_irrefl k)
    · exact absurd below ((List.pairwise_cons.mp sorted.2.1).1 k mem).asymm

end CArray
