import Mathlib

/-!
# Linked lists

Cells with a pointer to the next one, each pointer a cell or null.  The nodes from a pointer on form
a finite list, or the pointers run in a circle; a pointer determines its nodes, so none of them
occurs twice.  Inserting in front, unlinking and changes of other cells are lemmas on the nodes.
-/

namespace LinkedList

variable {ι : Type*} {next other : ι → Option ι} {start : Option ι} {i : ι} {nodes rest : List ι}

/-- The nodes from a pointer on, up to a null pointer. -/
def Nodes (next : ι → Option ι) : Option ι → List ι → Prop
  | start, [] => start = none
  | start, i :: nodes => start = some i ∧ Nodes next (next i) nodes

instance decidableNodes [DecidableEq ι] (next : ι → Option ι) (start : Option ι) :
    (nodes : List ι) → Decidable (Nodes next start nodes)
  | [] => inferInstanceAs (Decidable (start = none))
  | i :: nodes =>
      have := decidableNodes next (next i) nodes
      inferInstanceAs (Decidable (start = some i ∧ Nodes next (next i) nodes))

theorem nodes_none : Nodes next none nodes ↔ nodes = [] := by
  cases nodes with
  | nil => exact iff_of_true rfl rfl
  | cons i nodes => exact iff_of_false (fun linked => nomatch linked.1) (List.cons_ne_nil i nodes)

theorem nodes_some :
    Nodes next (some i) nodes ↔ ∃ rest, nodes = i :: rest ∧ Nodes next (next i) rest := by
  constructor
  · intro linked
    cases nodes with
    | nil => cases linked
    | cons j rest =>
        obtain ⟨same, linked⟩ := linked
        cases same
        exact ⟨rest, rfl, linked⟩
  · rintro ⟨rest, rfl, linked⟩
    exact ⟨rfl, linked⟩

/-- A pointer determines its nodes. -/
theorem Nodes.unique (linked : Nodes next start nodes) (again : Nodes next start rest) :
    nodes = rest := by
  induction nodes generalizing start rest with
  | nil =>
      cases linked
      exact (nodes_none.mp again).symm
  | cons i nodes ih =>
      obtain ⟨rfl, linked⟩ := linked
      obtain ⟨rest, rfl, tail⟩ := nodes_some.mp again
      rw [ih linked tail]

theorem Nodes.from_node {before behind : List ι}
    (linked : Nodes next start (before ++ i :: behind)) : Nodes next (some i) (i :: behind) := by
  induction before generalizing start with
  | nil => exact ⟨rfl, linked.2⟩
  | cons j before ih => exact ih linked.2

/-- No node occurs twice. -/
theorem Nodes.nodup (linked : Nodes next start nodes) : nodes.Nodup := by
  induction nodes generalizing start with
  | nil => exact List.nodup_nil
  | cons i nodes ih =>
      rw [List.nodup_cons]
      refine ⟨fun mem => ?_, ih linked.2⟩
      obtain ⟨before, behind, rfl⟩ := List.append_of_mem mem
      -- from the second occurrence on the list is as long as from the first
      have same := linked.2.unique (linked.2.from_node).2
      have lengths := congrArg List.length same
      simp at lengths
      omega

theorem Nodes.not_mem_others {before behind : List ι}
    (linked : Nodes next start (before ++ i :: behind)) : i ∉ before ++ behind := by
  have distinct := List.perm_middle.nodup_iff.mp linked.nodup
  exact (List.nodup_cons.mp distinct).1

theorem mem_of_mem_others {before behind : List ι} {j : ι} (mem : j ∈ before ++ behind) :
    j ∈ before ++ i :: behind := by
  rcases List.mem_append.mp mem with mem | mem
  · exact List.mem_append_left _ mem
  · exact List.mem_append_right _ (List.mem_cons_of_mem _ mem)

/-- Pointers of cells that are no nodes do not count. -/
theorem Nodes.congr (linked : Nodes next start nodes) (same : ∀ i ∈ nodes, other i = next i) :
    Nodes other start nodes := by
  induction nodes generalizing start with
  | nil => exact linked
  | cons i nodes ih =>
      rw [List.forall_mem_cons] at same
      refine ⟨linked.1, ?_⟩
      rw [same.1]
      exact ih linked.2 same.2

/-- As long as two sets of pointers agree, they lead to the same nodes. -/
theorem Nodes.mem_of_agree {before behind : List ι}
    (linked : Nodes next start (before ++ i :: behind)) (same : ∀ j ∈ before, other j = next j)
    (again : Nodes other start rest) : i ∈ rest := by
  induction before generalizing start rest with
  | nil =>
      rw [linked.1] at again
      obtain ⟨rest, rfl, -⟩ := nodes_some.mp again
      exact List.mem_cons_self
  | cons j before ih =>
      rw [List.forall_mem_cons] at same
      rw [linked.1] at again
      obtain ⟨rest, rfl, tail⟩ := nodes_some.mp again
      rw [same.1] at tail
      exact List.mem_cons_of_mem j (ih linked.2 same.2 tail)

variable [DecidableEq ι]

theorem Nodes.insert (linked : Nodes next start nodes) (fresh : i ∉ nodes) :
    Nodes (Function.update next i start) (some i) (i :: nodes) := by
  refine ⟨rfl, ?_⟩
  rw [Function.update_self]
  refine linked.congr fun j mem => ?_
  rw [Function.update_of_ne]
  rintro rfl
  exact fresh mem

/-- A node that goes to the front once more closes a circle. -/
theorem Nodes.insert_again (linked : Nodes next start nodes) (mem : i ∈ nodes) :
    ¬Nodes (Function.update next i start) (some i) rest := by
  intro circle
  obtain ⟨behind, rfl, again⟩ := nodes_some.mp circle
  rw [Function.update_self] at again
  obtain ⟨before, after, rfl⟩ := List.append_of_mem mem
  have distinct := linked.nodup
  have returns : i ∈ behind := by
    refine linked.mem_of_agree (fun j j_mem => ?_) again
    rw [Function.update_of_ne]
    rintro rfl
    exact (List.disjoint_of_nodup_append distinct) j_mem List.mem_cons_self
  exact (List.nodup_cons.mp circle.nodup).1 returns

/-- A node behind another one is unlinked by a change of that one's pointer. -/
theorem Nodes.unlink {before behind : List ι} {j : ι}
    (linked : Nodes next start (before ++ j :: i :: behind)) :
    Nodes (Function.update next j (next i)) start (before ++ j :: behind) := by
  have distinct := linked.nodup
  induction before generalizing start with
  | nil =>
      obtain ⟨start_eq, next_eq, linked⟩ := linked
      refine ⟨start_eq, ?_⟩
      rw [Function.update_self]
      refine linked.congr fun k mem => ?_
      rw [Function.update_of_ne]
      rintro rfl
      exact (List.nodup_cons.mp distinct).1 (List.mem_cons_of_mem i mem)
  | cons k before ih =>
      have other : k ≠ j := by
        rintro rfl
        exact (List.nodup_cons.mp distinct).1 (List.mem_append_right before List.mem_cons_self)
      refine ⟨linked.1, ?_⟩
      rw [Function.update_of_ne other]
      exact ih linked.2 (List.nodup_cons.mp distinct).2

end LinkedList
