import ComputerSystem.Printf

/-!
# The scan of a format

`printf` looks at its format byte by byte, from two places: the test of its loop, which ends at a
NUL, and the switch behind a `%`, which passes whatever stands there.  A format is complete when
every `%` has its conversion.
-/

namespace ComputerSystem

open StateTransition Word

/-- Where `printf` looks at its format. -/
inductive ScanPoint
  /-- The test of the loop. -/
  | outer (position : Nat)
  /-- `format_char_switch`. -/
  | conversion (alternate : Bool) (position : Nat)
  deriving DecidableEq

namespace ScanPoint

/-- The byte of the format that is looked at. -/
def position : ScanPoint → Nat
  | .outer position => position
  | .conversion _ position => position

/-- `buf - format`. -/
def result (point : ScanPoint) : Int := toSigned (point.position % 2 ^ 32)

end ScanPoint

/-- From one look at the format to the next; `none` at the end of the loop. -/
def scan_step (format : Nat → UInt8) : ScanPoint → Option ScanPoint
  | .outer p =>
      if format p = 0 then none
      else if format p = 37 then some (.conversion false (p + 1))  -- %
      else some (.outer (p + 1))
  | .conversion _ p =>
      if format p = 35 then some (.conversion true (p + 1))        -- #
      else some (.outer (p + 1))

/-- The looks of `printf` at a format. -/
def Scans (format : Nat → UInt8) : ScanPoint → ScanPoint → Prop := Reaches (scan_step format)

/-- A string of length `n`. -/
structure EndsAt (format : Nat → UInt8) (n : Nat) : Prop where
  /-- No NUL stands before its end. -/
  solid : ∀ i < n, format i ≠ 0
  /-- One stands there. -/
  nul : format n = 0

/-- The scan ends at the NUL and returns the length, and no byte behind the NUL is looked at. -/
structure StopsAtEnd (format : Nat → UInt8) (n : Nat) : Prop where
  /-- The scan ends at the NUL. -/
  ends : ∃ final ∈ eval (scan_step format) (.outer 0), final.position = n ∧ final.result = n
  /-- It never gets behind it. -/
  looks : ∀ point, Scans format (.outer 0) point → point.position ≤ n

/-- A text in which every `%` has a conversion behind its flags. -/
inductive Complete : List UInt8 → Prop
  | nil : Complete []
  | plain {c : UInt8} {s : List UInt8} (not_percent : c ≠ 37) (rest : Complete s) :
      Complete (c :: s)
  | conversion (flags : Nat) {c : UInt8} {s : List UInt8} (not_flag : c ≠ 35)
      (rest : Complete s) : Complete (37 :: (List.replicate flags 35 ++ c :: s))

/-- A text is what stands in the format from a position on. -/
def Holds (format : Nat → UInt8) : Nat → List UInt8 → Prop
  | _, [] => True
  | p, c :: s => format p = c ∧ Holds format (p + 1) s

/-! ## Texts in a format -/

theorem holds_range (format : Nat → UInt8) (p n : Nat) :
    Holds format p ((List.range' p n).map format) := by
  induction n generalizing p with
  | zero => trivial
  | succ n ih => exact ⟨rfl, ih (p + 1)⟩

theorem holds_append {format : Nat → UInt8} {p : Nat} {s t : List UInt8} :
    Holds format p (s ++ t) ↔ Holds format p s ∧ Holds format (p + s.length) t := by
  induction s generalizing p with
  | nil => exact (and_iff_right trivial).symm
  | cons c s ih =>
      rw [List.cons_append, Holds, Holds, ih, and_assoc, List.length_cons, Nat.add_assoc p 1,
        Nat.add_comm 1]

/-! ## Steps of the scan -/

variable {format : Nat → UInt8} {p : Nat}

theorem scans_plain {c : UInt8} (here : format p = c) (solid : c ≠ 0) (not_percent : c ≠ 37) :
    Scans format (.outer p) (.outer (p + 1)) := by
  refine Relation.ReflTransGen.single ?_
  rw [← here] at solid not_percent
  simp [scan_step, solid, not_percent]

theorem scans_percent (here : format p = 37) :
    Scans format (.outer p) (.conversion false (p + 1)) := by
  refine Relation.ReflTransGen.single ?_
  simp [scan_step, here]

theorem scans_conversion {c : UInt8} (here : format p = c) (not_flag : c ≠ 35) (alternate : Bool) :
    Scans format (.conversion alternate p) (.outer (p + 1)) := by
  refine Relation.ReflTransGen.single ?_
  rw [← here] at not_flag
  simp [scan_step, not_flag]

/-- Flags are passed by going back to the switch. -/
theorem scans_flags {flags : Nat} (here : Holds format p (List.replicate flags 35))
    (alternate : Bool) :
    ∃ after, Scans format (.conversion alternate p) (.conversion after (p + flags)) := by
  induction flags generalizing p alternate with
  | zero => exact ⟨alternate, Relation.ReflTransGen.refl⟩
  | succ flags ih =>
      obtain ⟨flag, rest⟩ := here
      obtain ⟨after, scans⟩ := ih rest true
      have first : Scans format (.conversion alternate p) (.conversion true (p + 1)) := by
        refine Relation.ReflTransGen.single ?_
        simp [scan_step, flag]
      rw [Nat.add_assoc p 1, Nat.add_comm 1] at scans
      exact ⟨after, first.trans scans⟩

theorem scans_item {flags : Nat} {c : UInt8} {s : List UInt8} (not_flag : c ≠ 35)
    (here : Holds format p (37 :: (List.replicate flags 35 ++ c :: s))) :
    Scans format (.outer p) (.outer (p + (flags + 2))) ∧ Holds format (p + (flags + 2)) s := by
  obtain ⟨percent, behind⟩ := here
  rw [holds_append, List.length_replicate] at behind
  obtain ⟨after, flagged⟩ := scans_flags behind.1 false
  have next : p + 1 + flags + 1 = p + (flags + 2) := by omega
  rw [← next]
  exact ⟨(scans_percent percent).trans (flagged.trans (scans_conversion behind.2.1 not_flag after)),
    behind.2.2⟩

theorem item_length (flags : Nat) (c : UInt8) (s : List UInt8) :
    (37 :: (List.replicate flags 35 ++ c :: s)).length = flags + 2 + s.length := by
  simp
  omega

theorem Scans.position_le {first second : ScanPoint} (scans : Scans format first second) :
    first.position ≤ second.position := by
  induction scans with
  | refl => exact le_rfl
  | tail _ taken ih =>
      refine ih.trans ?_
      rename_i before after _
      cases before with
      | outer p =>
          simp only [scan_step, Option.mem_def] at taken
          split_ifs at taken <;> cases taken <;> exact Nat.le_succ p
      | conversion alternate p =>
          simp only [scan_step, Option.mem_def] at taken
          split_ifs at taken <;> cases taken <;> exact Nat.le_succ p

theorem Complete.scans {s : List UInt8} (complete : Complete s) (solid : ∀ c ∈ s, c ≠ 0)
    (here : Holds format p s) : Scans format (.outer p) (.outer (p + s.length)) := by
  induction complete generalizing p with
  | nil => exact Relation.ReflTransGen.refl
  | @plain c s not_percent _ ih =>
      rw [List.forall_mem_cons] at solid
      have rest := ih solid.2 here.2
      rw [Nat.add_assoc p 1, Nat.add_comm 1] at rest
      exact (scans_plain here.1 solid.1 not_percent).trans rest
  | @conversion flags c s not_flag _ ih =>
      rw [List.forall_mem_cons, List.forall_mem_append, List.forall_mem_cons] at solid
      obtain ⟨item, behind⟩ := scans_item not_flag here
      have rest := ih solid.2.2.2 behind
      rw [Nat.add_assoc] at rest
      rw [item_length]
      exact item.trans rest

/-- A text is a run of flags, or goes on behind one with something else. -/
theorem flags_split (s : List UInt8) :
    (∃ flags, s = List.replicate flags 35) ∨
      ∃ flags c rest, c ≠ 35 ∧ s = List.replicate flags 35 ++ c :: rest := by
  induction s with
  | nil => exact Or.inl ⟨0, rfl⟩
  | cons c s ih =>
      by_cases flag : c = 35
      · subst flag
        rcases ih with ⟨flags, rfl⟩ | ⟨flags, c, rest, not_flag, rfl⟩
        · exact Or.inl ⟨flags + 1, rfl⟩
        · exact Or.inr ⟨flags + 1, c, rest, not_flag, rfl⟩
      · exact Or.inr ⟨0, c, s, flag, rfl⟩

/-- In a text that is not complete the scan ends up in the switch, at what stands behind the
text. -/
theorem scans_incomplete {s : List UInt8} (incomplete : ¬Complete s) (solid : ∀ c ∈ s, c ≠ 0)
    (here : Holds format p s) :
    ∃ after, Scans format (.outer p) (.conversion after (p + s.length)) := by
  induction length_eq : s.length using Nat.strong_induction_on generalizing s p with
  | _ length ih =>
      subst length_eq
      cases s with
      | nil => exact absurd Complete.nil incomplete
      | cons c s =>
          rw [List.forall_mem_cons] at solid
          by_cases percent : c = 37
          · subst percent
            rcases flags_split s with ⟨flags, rfl⟩ | ⟨flags, c, rest, not_flag, rfl⟩
            · obtain ⟨first, behind⟩ := here
              obtain ⟨after, flagged⟩ := scans_flags behind false
              rw [List.length_cons, List.length_replicate, Nat.add_comm flags, ← Nat.add_assoc]
              exact ⟨after, (scans_percent first).trans flagged⟩
            · rw [List.forall_mem_append, List.forall_mem_cons] at solid
              obtain ⟨item, behind⟩ := scans_item not_flag here
              have shorter :
                  rest.length < (37 :: (List.replicate flags 35 ++ c :: rest)).length := by
                rw [item_length]
                omega
              obtain ⟨after, scans⟩ := ih rest.length shorter
                (fun complete => incomplete (.conversion flags not_flag complete)) solid.2.2.2
                behind rfl
              rw [Nat.add_assoc] at scans
              rw [item_length]
              exact ⟨after, item.trans scans⟩
          · obtain ⟨after, rest⟩ := ih s.length (Nat.lt_succ_self _)
              (fun complete => incomplete (.plain percent complete)) solid.2 here.2 rfl
            rw [Nat.add_assoc p 1, Nat.add_comm 1] at rest
            exact ⟨after, (scans_plain here.1 solid.1 percent).trans rest⟩

/-! ## The end of the scan -/

variable {n : Nat}

theorem holds_format (format : Nat → UInt8) (n : Nat) :
    Holds format 0 ((List.range n).map format) := by
  rw [List.range_eq_range']
  exact holds_range format 0 n

theorem EndsAt.solid_text (terminated : EndsAt format n) :
    ∀ c ∈ (List.range n).map format, c ≠ 0 := by
  intro c mem
  obtain ⟨i, i_mem, rfl⟩ := List.mem_map.mp mem
  exact terminated.solid i (List.mem_range.mp i_mem)

theorem text_length (format : Nat → UInt8) (n : Nat) :
    0 + ((List.range n).map format).length = n := by
  rw [List.length_map, List.length_range, Nat.zero_add]

/-- In the switch the NUL is passed. -/
theorem not_stopsAtEnd_of_conversion (terminated : EndsAt format n) {after : Bool}
    (scans : Scans format (.outer 0) (.conversion after n)) : ¬StopsAtEnd format n := by
  intro stops
  have nul : (0 : UInt8) ≠ 35 := by decide
  have behind := stops.looks _ (scans.trans (scans_conversion terminated.nul nul after))
  exact absurd behind (Nat.not_succ_le_self n)

/-- In the test of the loop the NUL ends the scan. -/
theorem mem_eval_of_outer (terminated : EndsAt format n)
    (scans : Scans format (.outer 0) (.outer n)) :
    ScanPoint.outer n ∈ eval (scan_step format) (.outer 0) := by
  refine mem_eval.mpr ⟨scans, ?_⟩
  rw [scan_step, if_pos terminated.nul]

/-- The scan of a format ends at its NUL, looks at nothing behind and returns the length exactly
when every `%` has its conversion and the length fits an `int`. -/
theorem stops_at_end_iff (format : Nat → UInt8) (n : Nat) (terminated : EndsAt format n) :
    StopsAtEnd format n ↔ Complete ((List.range n).map format) ∧ n < 2 ^ 31 := by
  have here := holds_format format n
  have solid := terminated.solid_text
  constructor
  · intro stops
    constructor
    · by_contra incomplete
      obtain ⟨after, scans⟩ := scans_incomplete incomplete solid here
      rw [text_length] at scans
      exact not_stopsAtEnd_of_conversion terminated scans stops
    · obtain ⟨final, -, position, result⟩ := stops.ends
      rw [ScanPoint.result, position, toSigned] at result
      split_ifs at result <;> omega
  · rintro ⟨complete, small⟩
    have scans := complete.scans solid here
    rw [text_length] at scans
    have ended := mem_eval_of_outer terminated scans
    refine ⟨⟨_, ended, rfl, ?_⟩, fun point reached => ?_⟩
    · rw [ScanPoint.result, ScanPoint.position, Nat.mod_eq_of_lt (by omega), toSigned_of_lt small]
    · rcases reaches_total reached scans with forward | back
      · exact Scans.position_le forward
      · rw [(eval_maximal ended).mp back]
        rfl

/-- A memory that begins with a text, with a NUL behind it and something else behind that. -/
def memory_of (s : List UInt8) (i : Nat) : UInt8 := (s ++ [0]).getD i 65

/-- The scan of an unknown conversion behind two flags, and a letter, ends. -/
theorem stops_at_end_iff_unknown : StopsAtEnd (memory_of [37, 35, 35, 113, 65]) 5 := by
  have text : (List.range 5).map (memory_of [37, 35, 35, 113, 65]) = [37, 35, 35, 113, 65] := by
    decide
  have complete : Complete [37, 35, 35, 113, 65] :=
    .conversion 2 (by decide) (.plain (by decide) .nil)
  exact (stops_at_end_iff _ 5 ⟨by decide, by decide⟩).mpr ⟨by rwa [text], by decide⟩

/-- A `%` at the end takes the scan behind the NUL. -/
theorem scan_passes_end :
    ¬∀ (format : Nat → UInt8) (n : Nat), EndsAt format n → StopsAtEnd format n := by
  intro all
  have terminated : EndsAt (memory_of [37]) 1 := ⟨by decide, by decide⟩
  exact not_stopsAtEnd_of_conversion terminated (scans_percent rfl) (all _ 1 terminated)

/-! ## The text of `printf` -/

/-- Where `printf_scan` stands. -/
def point_of : Option Bool → Nat → ScanPoint
  | none, p => .outer p
  | some alternate, p => .conversion alternate p

/-- Whatever a conversion prints, one byte of the format is passed for it. -/
theorem printf_scan_conversion (alternate : Bool) {c : UInt8} (not_flag : c ≠ 35) (s : List UInt8)
    (args : List Argument) :
    ∃ rest, (printf_scan (some alternate) (c :: s) args).1 = (printf_scan none s rest).1 + 1 := by
  rw [printf_scan, if_neg not_flag]
  exact ⟨_, rfl⟩

/-- The bytes that `printf_scan` passes are those from here to the end of the scan. -/
theorem printf_scan_scans (s : List UInt8) (mode : Option Bool) (args : List Argument)
    (here : ∀ i, format (p + i) = s.getD i 0) :
    Scans format (point_of mode p) (.outer (p + (printf_scan mode s args).1)) ∧
      format (p + (printf_scan mode s args).1) = 0 := by
  induction s generalizing p mode args with
  | nil =>
      cases mode with
      | none => exact ⟨Relation.ReflTransGen.refl, here 0⟩
      | some alternate => exact ⟨scans_conversion (here 0) (by decide) alternate, here 1⟩
  | cons c s ih =>
      have first : format p = c := here 0
      have behind : ∀ i, format (p + 1 + i) = s.getD i 0 := by
        intro i
        rw [Nat.add_assoc, Nat.add_comm 1]
        exact here (i + 1)
      have onward {mode next : Option Bool} {args rest : List Argument}
          (passed : (printf_scan mode (c :: s) args).1 = (printf_scan next s rest).1 + 1)
          (taken : Scans format (point_of mode p) (point_of next (p + 1))) :
          Scans format (point_of mode p) (.outer (p + (printf_scan mode (c :: s) args).1)) ∧
            format (p + (printf_scan mode (c :: s) args).1) = 0 := by
        obtain ⟨scans, nul⟩ := ih next rest behind
        have place : p + (printf_scan mode (c :: s) args).1 =
            p + 1 + (printf_scan next s rest).1 := by omega
        rw [place]
        exact ⟨taken.trans scans, nul⟩
      cases mode with
      | none =>
          by_cases nul : c = 0
          · have passed : (printf_scan none (c :: s) args).1 = 0 := by
              rw [printf_scan, if_pos nul]
            rw [passed]
            exact ⟨Relation.ReflTransGen.refl, first.trans nul⟩
          · by_cases percent : c = 37
            · refine @onward none (some false) args args ?_ ?_
              · rw [printf_scan, if_neg nul, if_pos percent]
              · exact scans_percent (first.trans percent)
            · refine @onward none none args args ?_ ?_
              · rw [printf_scan, if_neg nul, if_neg percent]
              · exact scans_plain first nul percent
      | some alternate =>
          by_cases flag : c = 35
          · refine @onward (some alternate) (some true) args args ?_ ?_
            · rw [printf_scan, if_pos flag]
            · refine Relation.ReflTransGen.single ?_
              simp [point_of, scan_step, first, flag]
          · obtain ⟨rest, passed⟩ := printf_scan_conversion alternate flag s args
            exact onward passed (scans_conversion first flag alternate)

end ComputerSystem
