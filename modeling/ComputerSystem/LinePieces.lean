import Mathlib

/-!
# Cutting a text into lines of bounded length

`pieces` cuts a text at every mark, and behind `limit` elements where no mark comes before.  On
texts whose lines are short enough the pieces are the lines, but for empty ones.
-/

namespace LinePieces

variable {α : Type*} [DecidableEq α] (mark : α) (limit : Nat)

/-- The first piece: what comes before the first mark, within the limit. -/
def head (text : List α) : List α := (text.take limit).takeWhile (· ≠ mark)

/-- What is behind the first piece; a mark right behind it is taken away. -/
def behind (text : List α) : List α :=
  match text.drop (head mark limit text).length with
  | [] => []
  | a :: rest =>
      if a = mark ∧ (head mark limit text).length < limit then rest else a :: rest

/-- The pieces of a text. -/
def pieces (text : List α) : List (List α) :=
  if _shrinks : (behind mark limit text).length < text.length then
    head mark limit text :: pieces (behind mark limit text)
  else []
termination_by text.length

variable {mark limit}

@[simp]
theorem pieces_nil : pieces mark limit [] = [] := by
  rw [pieces, dif_neg]
  simp

theorem head_of_solid {line : List α} (rest : List α) (solid : mark ∉ line)
    (ends : line.length = limit ∨ line.length < limit ∧ (rest = [] ∨ ∃ more, rest = mark :: more)) :
    head mark limit (line ++ rest) = line := by
  have keeps : ∀ a ∈ line, decide (a ≠ mark) = true := by
    intro a mem
    rw [decide_eq_true_eq]
    rintro rfl
    exact solid mem
  rw [head]
  obtain full | ⟨short, rfl | ⟨more, rfl⟩⟩ := ends
  · rw [← full, List.take_left, List.takeWhile_eq_self_iff.mpr keeps]
  · rw [List.append_nil, List.take_of_length_le short.le, List.takeWhile_eq_self_iff.mpr keeps]
  · obtain ⟨room, limit_eq⟩ := Nat.exists_eq_add_of_lt short
    rw [limit_eq, Nat.add_assoc, List.take_length_add_append, List.take_succ_cons,
      List.takeWhile_append_of_pos keeps]
    simp

theorem pieces_line {line rest : List α} (solid : mark ∉ line) (short : line.length < limit) :
    pieces mark limit (line ++ mark :: rest) = line :: pieces mark limit rest := by
  have head_eq : head mark limit (line ++ mark :: rest) = line :=
    head_of_solid _ solid (Or.inr ⟨short, Or.inr ⟨rest, rfl⟩⟩)
  have behind_eq : behind mark limit (line ++ mark :: rest) = rest := by
    rw [behind, head_eq, List.drop_left]
    exact if_pos ⟨rfl, short⟩
  rw [pieces, behind_eq, head_eq, dif_pos]
  simp only [List.length_append, List.length_cons]
  omega

theorem pieces_full {line : List α} (rest : List α) (solid : mark ∉ line)
    (full : line.length = limit) (positive : 0 < limit) :
    pieces mark limit (line ++ rest) = line :: pieces mark limit rest := by
  have head_eq : head mark limit (line ++ rest) = line := head_of_solid _ solid (Or.inl full)
  have behind_eq : behind mark limit (line ++ rest) = rest := by
    rw [behind, head_eq, List.drop_left]
    cases rest with
    | nil => rfl
    | cons a rest => exact if_neg fun short => absurd full short.2.ne
  rw [pieces, behind_eq, head_eq, dif_pos]
  rw [List.length_append]
  omega

/-- The end of a text behind its last mark. -/
theorem pieces_last {line : List α} (solid : mark ∉ line) (not_empty : line ≠ [])
    (fits : line.length ≤ limit) : pieces mark limit line = [line] := by
  have positive := List.length_pos_iff.mpr not_empty
  rcases fits.eq_or_lt with full | short
  · have one := pieces_full [] solid full (by omega)
    rwa [List.append_nil, pieces_nil] at one
  · have head_eq := head_of_solid [] solid (Or.inr ⟨short, Or.inl rfl⟩)
    rw [List.append_nil] at head_eq
    have behind_eq : behind mark limit line = [] := by
      rw [behind, head_eq, List.drop_length]
    rw [pieces, behind_eq, head_eq, dif_pos (by rwa [List.length_nil]), pieces_nil]

/-- On a text with short lines the pieces are the lines, but for empty ones. -/
theorem pieces_splitOn {text : List α} (positive : 0 < limit)
    (short : ∀ line ∈ text.splitOn mark, line.length ≤ limit) :
    (pieces mark limit text).filter (· ≠ []) = (text.splitOn mark).filter (· ≠ []) := by
  induction length_eq : text.length using Nat.strong_induction_on generalizing text with
  | h n ih =>
      by_cases mem : mark ∈ text
      · obtain ⟨line, rest, rfl, solid⟩ := List.eq_append_cons_of_mem mem
        rw [List.splitOn_append_cons_self_of_not_mem solid, List.forall_mem_cons] at short
        have behind := ih rest.length
          (by rw [← length_eq, List.length_append, List.length_cons]; omega) short.2 rfl
        rw [List.splitOn_append_cons_self_of_not_mem solid, List.filter_cons, ← behind]
        rcases short.1.eq_or_lt with full | fits
        · -- the mark behind a line that reaches the limit makes an empty piece
          have empty : pieces mark limit ([] ++ mark :: rest) = [] :: pieces mark limit rest :=
            pieces_line List.not_mem_nil positive
          rw [List.nil_append] at empty
          rw [pieces_full _ solid full positive, empty, List.filter_cons, List.filter_cons]
          simp
        · rw [pieces_line solid fits, List.filter_cons]
      · rw [List.splitOn_eq_singleton mem, List.forall_mem_singleton] at short
        rw [List.splitOn_eq_singleton mem]
        by_cases empty : text = []
        · rw [empty, pieces_nil]
          rfl
        · rw [pieces_last mem empty short]

end LinePieces
