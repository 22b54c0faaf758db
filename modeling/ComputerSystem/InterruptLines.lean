import ComputerSystem.Pic8259

/-!
# Sixteen interrupt lines

What a pair of controllers is for: lines that can be enabled, that request interrupts and that are
served one inside another, by priority.  A pair that was initialised for fully nested interrupts is
such a set of lines.
-/

namespace Pic8259

/-- Sixteen lines. -/
structure Lines where
  /-- The lines that may interrupt. -/
  enabled : Fin 16 → Bool
  /-- The lines that want to. -/
  pending : Fin 16 → Bool
  /-- The lines that are being served, each inside the next one. -/
  serving : List (Fin 16)

/-- The priority of a line; those of the slave have the same one towards the master. -/
def level (n : Fin 16) : Nat := if n.val < 8 then n.val else SLAVE_LINE

/-- A line of the slave. -/
def slaveLine (k : Nat) : Fin 16 := Fin.ofNat 16 (8 + k)

theorem slaveLine_val {k : Nat} (inside : k < 8) : (slaveLine k).val = 8 + k := by
  rw [slaveLine, Fin.val_ofNat]
  omega

/-- The lines in front of the slave's. -/
def low : List (Fin 16) := [0, 1]

/-- The lines behind the slave's. -/
def high : List (Fin 16) := [3, 4, 5, 6, 7]

namespace Lines

/-- A line that interrupts what is being served. -/
def Interrupts (lines : Lines) (n : Fin 16) : Prop :=
  lines.pending n = true ∧ lines.enabled n = true ∧ (¬n.val < 8 → lines.enabled 2 = true) ∧
    ∀ m ∈ lines.serving, level n < level m

instance (lines : Lines) (n : Fin 16) : Decidable (lines.Interrupts n) :=
  inferInstanceAs (Decidable (_ ∧ _ ∧ (_ → _) ∧ ∀ m ∈ lines.serving, _))

/-- The line that interrupts. -/
def next (lines : Lines) : Option (Fin 16) :=
  (low ++ (List.range 8).map slaveLine ++ high).find? fun n => lines.Interrupts n

/-- A line is served. -/
def serve (lines : Lines) (n : Fin 16) : Lines :=
  { lines with pending := Function.update lines.pending n false, serving := n :: lines.serving }

@[simp]
theorem serve_pending (lines : Lines) (n : Fin 16) :
    (lines.serve n).pending = Function.update lines.pending n false := rfl

@[simp]
theorem serve_serving (lines : Lines) (n : Fin 16) :
    (lines.serve n).serving = n :: lines.serving := rfl

/-- A device requests an interrupt. -/
def request (lines : Lines) (n : Fin 16) : Lines :=
  if n.val = SLAVE_LINE then lines
  else { lines with pending := Function.update lines.pending n true }

/-- A line is enabled or disabled. -/
def switch (lines : Lines) (n : Fin 16) (on : Bool) : Lines :=
  { lines with enabled := Function.update lines.enabled n on }

/-- What was served last is done. -/
def finish (lines : Lines) : Lines := { lines with serving := lines.serving.tail }

end Lines

/-- A pair that was initialised, in the state that the lines are in. -/
structure Pair.Stands (pair : Pair) (base : Nat) (lines : Lines) : Prop where
  /-- The master is initialised, and waits for the end of its interrupts. -/
  master_ready : pair.master.awaits = .mask ∧ pair.master.auto_eoi = false
  /-- So is the slave. -/
  slave_ready : pair.slave.awaits = .mask ∧ pair.slave.auto_eoi = false
  /-- The master knows the slave's line. -/
  cascade : pair.master.cascade = line SLAVE_LINE
  /-- The slave knows its line. -/
  answers : pair.Answers SLAVE_LINE
  /-- The vectors of the master are the first eight. -/
  master_base : pair.master.base.toNat = base
  /-- Those of the slave come behind them. -/
  slave_base : pair.slave.base.toNat = base + 8
  /-- What is enabled is not masked. -/
  mask : ∀ n, pair.bit Chip.mask n = !lines.enabled n
  /-- What is pending is requested. -/
  requests : ∀ n, pair.bit Chip.requests n = lines.pending n
  /-- No device is on the slave's line. -/
  quiet : ∀ n : Fin 16, n.val = SLAVE_LINE → lines.pending n = false ∧ n ∉ lines.serving
  /-- What is served is in service. -/
  service : ∀ n : Fin 16, n.val ≠ SLAVE_LINE →
    pair.bit Chip.in_service n = decide (n ∈ lines.serving)
  /-- The slave's line is in service while one of the slave is. -/
  slave_service : pair.bit Chip.in_service 2 = decide (∃ m ∈ lines.serving, ¬m.val < 8)
  /-- Each line that is served interrupted the next one. -/
  nested : lines.serving.Pairwise fun n m => level n < level m

namespace Pair

variable {pair : Pair} {base : Nat} {lines : Lines}

theorem bit_slaveLine (set : Chip → BitVec 8) (pair : Pair) {k : Nat} (inside : k < 8) :
    pair.bit set (slaveLine k) = (set pair.slave).getLsbD k := by
  have value := slaveLine_val inside
  rw [bit_slave set pair (by omega), value, Nat.add_sub_cancel_left]

/-- The master serves a line while anything of its priority is served. -/
theorem Stands.master_service (stands : pair.Stands base lines) {k : Nat} (inside : k < 8) :
    pair.master.in_service.getLsbD k = decide (∃ m ∈ lines.serving, level m = k) := by
  let n : Fin 16 := ⟨k, by omega⟩
  have bit_eq := bit_master Chip.in_service pair (show n.val < 8 from inside)
  rw [← show n.val = k from rfl, ← bit_eq]
  by_cases slave : n.val = SLAVE_LINE
  · have two : n = 2 := Fin.ext slave
    rw [two, stands.slave_service, decide_eq_decide]
    refine exists_congr fun m => and_congr_right fun mem => ?_
    rw [level]
    split_ifs with master
    · refine iff_of_false (not_not.mpr master) fun same => ?_
      exact (stands.quiet m same).2 mem
    · exact iff_of_true master rfl
  · rw [stands.service n slave, decide_eq_decide]
    constructor
    · exact fun mem => ⟨n, mem, if_pos inside⟩
    · rintro ⟨m, mem, level_eq⟩
      rw [level] at level_eq
      split_ifs at level_eq with master
      · rwa [← Fin.ext level_eq]
      · exact absurd level_eq.symm slave

/-- Nothing of a priority or above is in service. -/
theorem Stands.clear_iff (stands : pair.Stands base lines) {k : Nat} (inside : k < 8) :
    (∀ m ≤ k, pair.master.in_service.getLsbD m = false) ↔ ∀ m ∈ lines.serving, k < level m := by
  constructor
  · intro clear m mem
    by_contra below
    have served := clear (level m) (not_lt.mp below)
    rw [stands.master_service (by omega)] at served
    exact of_decide_eq_false served ⟨m, mem, rfl⟩
  · intro above m below
    rw [stands.master_service (by omega), decide_eq_false_iff_not]
    rintro ⟨s, mem, level_eq⟩
    have level_gt := above s mem
    omega

theorem wired_other (pair : Pair) {k : Nat} (inside : k < 8) (other : k ≠ SLAVE_LINE) :
    pair.wired.requests.getLsbD k = pair.master.requests.getLsbD k :=
  (getLsbD_put _ _ inside).trans (if_neg other)

theorem wired_slave (pair : Pair) :
    pair.wired.requests.getLsbD SLAVE_LINE = pair.slave.candidate.isSome :=
  (getLsbD_put _ _ (by decide)).trans (if_pos rfl)

/-- The other lines of the master interrupt by their own priority. -/
theorem Stands.eligible_master (stands : pair.Stands base lines) {n : Fin 16}
    (master : n.val < 8) (other : n.val ≠ SLAVE_LINE) :
    pair.wired.Eligible n.val ↔ lines.Interrupts n := by
  have requests := stands.requests n
  have mask := stands.mask n
  rw [bit_master _ _ master] at requests mask
  have masked : pair.wired.mask.getLsbD n.val = !lines.enabled n := mask
  have clear := stands.clear_iff master
  rw [Chip.Eligible, Lines.Interrupts, wired_other pair master other, requests, masked,
    Bool.not_eq_false', show level n = n.val from if_pos master]
  exact and_congr_right fun _ => and_congr_right fun _ =>
    ⟨fun free => ⟨fun slave => absurd master slave, clear.mp free⟩, fun both => clear.mpr both.2⟩

/-- The slave gets through to the processor. -/
def Opens (lines : Lines) : Prop :=
  lines.enabled 2 = true ∧ ∀ m ∈ lines.serving, SLAVE_LINE < level m

/-- The slave's line interrupts if the slave has a candidate and gets through. -/
theorem Stands.eligible_slave (stands : pair.Stands base lines) :
    pair.wired.Eligible SLAVE_LINE ↔ pair.slave.candidate.isSome ∧ Opens lines := by
  have mask := stands.mask 2
  rw [bit_master _ _ (by decide)] at mask
  have masked : pair.wired.mask.getLsbD SLAVE_LINE = !lines.enabled 2 := mask
  have clear := stands.clear_iff (show SLAVE_LINE < 8 by decide)
  rw [Chip.Eligible, wired_slave, masked, Bool.not_eq_false', Opens]
  exact and_congr_right fun _ => and_congr_right fun _ => clear

/-- The lines of the slave interrupt by its priorities, if it gets through. -/
theorem Stands.interrupts_slave (stands : pair.Stands base lines) {k : Nat} (inside : k < 8) :
    lines.Interrupts (slaveLine k) ↔ Opens lines ∧ pair.slave.Eligible k := by
  have value := slaveLine_val inside
  have slave : ¬(slaveLine k).val < 8 := by omega
  have requests := stands.requests (slaveLine k)
  have mask := stands.mask (slaveLine k)
  rw [bit_slaveLine _ _ inside] at requests mask
  have level_eq : level (slaveLine k) = SLAVE_LINE := if_neg slave
  rw [Lines.Interrupts, Opens, Chip.Eligible, requests, mask, level_eq, Bool.not_eq_false']
  constructor
  · rintro ⟨pending, enabled, opened, above⟩
    refine ⟨⟨opened slave, above⟩, pending, enabled, fun m below => ?_⟩
    have m_inside : m < 8 := by omega
    have m_value := slaveLine_val m_inside
    have two : SLAVE_LINE = 2 := rfl
    rw [← bit_slaveLine Chip.in_service pair m_inside, stands.service _ (by omega),
      decide_eq_false_iff_not]
    intro mem
    have level_gt := above _ mem
    rw [level, if_neg (by omega)] at level_gt
    exact lt_irrefl _ level_gt
  · rintro ⟨⟨opened, above⟩, pending, enabled, -⟩
    exact ⟨pending, enabled, fun _ => opened, above⟩

/-! ## The next interrupt -/

theorem Stands.find_master (stands : pair.Stands base lines) {ns : List (Fin 16)}
    (masters : ∀ n ∈ ns, n.val < 8 ∧ n.val ≠ SLAVE_LINE) :
    (ns.map Fin.val).find? (fun n => pair.wired.Eligible n) =
      (ns.find? fun n => lines.Interrupts n).map Fin.val := by
  induction ns with
  | nil => rfl
  | cons n ns ih =>
      rw [List.forall_mem_cons] at masters
      have same := stands.eligible_master masters.1.1 masters.1.2
      rw [List.map_cons, List.find?_cons, List.find?_cons, decide_eq_decide.mpr same, ih masters.2]
      cases decide (lines.Interrupts n) <;> rfl

/-- The slave's lines are found as the slave finds them, if it gets through. -/
theorem Stands.find_slave (stands : pair.Stands base lines) (opens : Opens lines) {ks : List Nat}
    (inside : ∀ k ∈ ks, k < 8) :
    (ks.map slaveLine).find? (fun n => lines.Interrupts n) =
      (ks.find? fun k => pair.slave.Eligible k).map slaveLine := by
  induction ks with
  | nil => rfl
  | cons k ks ih =>
      rw [List.forall_mem_cons] at inside
      have same : lines.Interrupts (slaveLine k) ↔ pair.slave.Eligible k := by
        rw [stands.interrupts_slave inside.1]
        exact and_iff_right opens
      rw [List.map_cons, List.find?_cons, List.find?_cons, decide_eq_decide.mpr same, ih inside.2]
      cases decide (pair.slave.Eligible k) <;> rfl

/-- Otherwise none of them interrupts. -/
theorem Stands.find_closed (stands : pair.Stands base lines) (closed : ¬Opens lines) {ks : List Nat}
    (inside : ∀ k ∈ ks, k < 8) :
    (ks.map slaveLine).find? (fun n => lines.Interrupts n) = none := by
  rw [List.find?_eq_none]
  intro n mem
  obtain ⟨k, k_mem, rfl⟩ := List.mem_map.mp mem
  rw [decide_eq_true_iff, stands.interrupts_slave (inside k k_mem)]
  exact fun both => closed both.1

/-- The pair after it acknowledged a line. -/
def served (pair : Pair) (n : Fin 16) : Pair :=
  if n.val < 8 then { pair with master := pair.master.serve n.val }
  else ⟨pair.master.serve SLAVE_LINE, pair.slave.serve (n.val - 8)⟩

theorem low_masters : ∀ n ∈ low, n.val < 8 ∧ n.val ≠ SLAVE_LINE := by decide

theorem high_masters : ∀ n ∈ high, n.val < 8 ∧ n.val ≠ SLAVE_LINE := by decide

/-- The pair gives the vector of the line that interrupts. -/
theorem Stands.acknowledge (stands : pair.Stands base lines) :
    pair.acknowledge = lines.next.map fun n => (base + n.val, pair.served n) := by
  have split : List.range 8 = low.map Fin.val ++ [SLAVE_LINE] ++ high.map Fin.val := by decide
  have candidate : pair.wired.candidate =
      (((low.find? fun n => lines.Interrupts n).map Fin.val).or
        ([SLAVE_LINE].find? fun n => pair.wired.Eligible n)).or
        ((high.find? fun n => lines.Interrupts n).map Fin.val) := by
    rw [Chip.candidate, split, List.find?_append, List.find?_append, stands.find_master low_masters,
      stands.find_master high_masters]
  have slaves : ∀ k ∈ List.range 8, k < 8 := fun k => List.mem_range.mp
  have master_line (n : Fin 16) (master : n.val < 8 ∧ n.val ≠ SLAVE_LINE) :
      (if pair.master.cascade.getLsbD n.val then
        if pair.Answers n.val then
          pair.slave.candidate.map fun k =>
            (pair.slave.vector k, (⟨pair.master.serve n.val, pair.slave.serve k⟩ : Pair))
        else none
      else some (pair.master.vector n.val, { pair with master := pair.master.serve n.val })) =
      some (base + n.val, pair.served n) := by
    have not_slave : ¬pair.master.cascade.getLsbD n.val = true := by
      rw [stands.cascade, getLsbD_line master.1, decide_eq_true_iff]
      exact master.2
    rw [if_neg not_slave, Chip.vector, stands.master_base, served, if_pos master.1]
  rw [Pair.acknowledge, Lines.next, List.find?_append, List.find?_append, candidate]
  cases first : low.find? fun n => lines.Interrupts n with
  | some n => exact master_line n (low_masters n (List.mem_of_find?_eq_some first))
  | none =>
      by_cases gets : pair.slave.candidate.isSome ∧ Opens lines
      · obtain ⟨k, found⟩ := Option.isSome_iff_exists.mp gets.1
        have k_lt := slaves k (List.mem_of_find?_eq_some found)
        have value := slaveLine_val k_lt
        have on_slave : pair.master.cascade.getLsbD SLAVE_LINE = true := by
          rw [stands.cascade]
          decide
        have here : [SLAVE_LINE].find? (fun n => pair.wired.Eligible n) = some SLAVE_LINE := by
          rw [List.find?_singleton, if_pos (decide_eq_true (stands.eligible_slave.mpr gets))]
        have vector : pair.slave.vector k = base + (slaveLine k).val := by
          rw [Chip.vector, stands.slave_base, value]
          omega
        have served_eq : pair.served (slaveLine k) =
            ⟨pair.master.serve SLAVE_LINE, pair.slave.serve k⟩ := by
          rw [served, if_neg (by omega), value, Nat.add_sub_cancel_left]
        rw [stands.find_slave gets.2 slaves, show (List.range 8).find?
          (fun k => pair.slave.Eligible k) = some k from found, here]
        simp only [Option.map_none, Option.none_or, Option.some_or, Option.map_some, on_slave,
          if_true, stands.answers, found, vector, served_eq]
      · have here : [SLAVE_LINE].find? (fun n => pair.wired.Eligible n) = none := by
          have refused : ¬pair.wired.Eligible SLAVE_LINE := fun eligible =>
            gets (stands.eligible_slave.mp eligible)
          rw [List.find?_singleton, decide_eq_false refused, if_neg Bool.false_ne_true]
        have nothing :
            ((List.range 8).map slaveLine).find? (fun n => lines.Interrupts n) = none := by
          by_cases opens : Opens lines
          · have no_candidate : pair.slave.candidate = none := by
              rw [← Option.not_isSome_iff_eq_none]
              exact fun some => gets ⟨some, opens⟩
            rw [stands.find_slave opens slaves, show (List.range 8).find?
              (fun k => pair.slave.Eligible k) = none from no_candidate]
            rfl
          · exact stands.find_closed opens slaves
        rw [here, nothing]
        cases last : high.find? fun n => lines.Interrupts n with
        | none => rfl
        | some n => exact master_line n (high_masters n (List.mem_of_find?_eq_some last))

/-! ## What changes the lines -/

/-- The line that interrupts is one of those that devices are on. -/
theorem next_spec {n : Fin 16} (next : lines.next = some n) :
    lines.Interrupts n ∧ n.val ≠ SLAVE_LINE := by
  have interrupts := List.find?_some next
  refine ⟨of_decide_eq_true interrupts, ?_⟩
  have devices : ∀ m ∈ low ++ (List.range 8).map slaveLine ++ high, m.val ≠ SLAVE_LINE := by decide
  exact devices n (List.mem_of_find?_eq_some next)

theorem Stands.served_requests (stands : pair.Stands base lines) (n m : Fin 16) :
    (pair.served n).bit Chip.requests m = if m = n then false else pair.bit Chip.requests m := by
  have through : (pair.served n).bit Chip.requests m =
      if m = n ∨ m.val = SLAVE_LINE ∧ ¬n.val < 8 then false else pair.bit Chip.requests m := by
    apply bit_put_line
    rw [served]
    split_ifs <;> exact ⟨rfl, rfl⟩
  rw [through]
  by_cases slave : m.val = SLAVE_LINE
  · rw [stands.requests m, (stands.quiet m slave).1, ite_self, ite_self]
  · simp only [slave, false_and, or_false]

theorem Stands.served_in_service (stands : pair.Stands base lines) (n m : Fin 16) :
    (pair.served n).bit Chip.in_service m =
      if m = n ∨ m.val = SLAVE_LINE ∧ ¬n.val < 8 then true else pair.bit Chip.in_service m := by
  have master_eoi (k : Nat) :
      (pair.master.serve k).in_service = put pair.master.in_service k true :=
    if_neg (by rw [stands.master_ready.2]; exact Bool.false_ne_true)
  have slave_eoi (k : Nat) : (pair.slave.serve k).in_service = put pair.slave.in_service k true :=
    if_neg (by rw [stands.slave_ready.2]; exact Bool.false_ne_true)
  apply bit_put_line
  rw [served]
  split_ifs
  · exact ⟨master_eoi n, rfl⟩
  · exact ⟨master_eoi SLAVE_LINE, slave_eoi (n - 8)⟩

theorem served_fields (pair : Pair) (n : Fin 16) :
    (pair.served n).master.awaits = pair.master.awaits ∧
      (pair.served n).master.auto_eoi = pair.master.auto_eoi ∧
      (pair.served n).master.cascade = pair.master.cascade ∧
      (pair.served n).master.base = pair.master.base ∧
      (pair.served n).master.mask = pair.master.mask ∧
      (pair.served n).slave.awaits = pair.slave.awaits ∧
      (pair.served n).slave.auto_eoi = pair.slave.auto_eoi ∧
      (pair.served n).slave.cascade = pair.slave.cascade ∧
      (pair.served n).slave.base = pair.slave.base ∧
      (pair.served n).slave.mask = pair.slave.mask := by
  rw [served]
  split_ifs <;> exact ⟨rfl, rfl, rfl, rfl, rfl, rfl, rfl, rfl, rfl, rfl⟩

theorem Stands.served (stands : pair.Stands base lines) {n : Fin 16}
    (next : lines.next = some n) : (pair.served n).Stands base (lines.serve n) := by
  obtain ⟨⟨-, -, -, above⟩, device⟩ := next_spec next
  obtain ⟨awaits, auto_eoi, cascade, master_base, master_mask, slave_awaits, slave_eoi,
    slave_cascade, slave_base, slave_mask⟩ := served_fields pair n
  refine
    { master_ready := ⟨awaits.trans stands.master_ready.1, auto_eoi.trans stands.master_ready.2⟩
      slave_ready :=
        ⟨slave_awaits.trans stands.slave_ready.1, slave_eoi.trans stands.slave_ready.2⟩
      cascade := cascade.trans stands.cascade
      answers := by rw [Answers, slave_cascade, stands.answers]
      master_base := by rw [master_base, stands.master_base]
      slave_base := by rw [slave_base, stands.slave_base]
      mask := fun m => ?_
      requests := fun m => ?_
      quiet := fun m slave => ?_
      service := fun m other => ?_
      slave_service := ?_
      nested := List.pairwise_cons.mpr ⟨above, stands.nested⟩ }
  · rw [bit, master_mask, slave_mask]
    exact stands.mask m
  · rw [stands.served_requests, stands.requests, Lines.serve_pending, Function.update_apply]
  · have other : m ≠ n := by
      rintro rfl
      exact device slave
    obtain ⟨pending, absent⟩ := stands.quiet m slave
    refine ⟨?_, fun mem => ?_⟩
    · rw [Lines.serve_pending, Function.update_of_ne other]
      exact pending
    · rcases List.mem_cons.mp mem with same | mem
      · exact other same
      · exact absent mem
  · rw [stands.served_in_service, stands.service m other, Lines.serve_serving]
    by_cases same : m = n
    · simp [same]
    · simp [same, other]
  · have two : (2 : Fin 16) ≠ n := by
      rintro rfl
      exact device rfl
    have line_eq : (2 : Fin 16).val = SLAVE_LINE := rfl
    rw [stands.served_in_service, stands.slave_service, Lines.serve_serving]
    by_cases master : n.val < 8
    · simp [two, master]
    · rw [if_pos (Or.inr ⟨line_eq, master⟩)]
      simp [not_lt.mp master]

theorem Stands.request (stands : pair.Stands base lines) (n : Fin 16) :
    (pair.request n).Stands base (lines.request n) := by
  rw [Pair.request, Lines.request]
  by_cases slave : n.val = SLAVE_LINE
  · rw [if_pos slave, if_pos slave]
    exact stands
  · rw [if_neg slave, if_neg slave]
    have quiet (m : Fin 16) (line_eq : m.val = SLAVE_LINE) :
        Function.update lines.pending n true m = false ∧ m ∉ lines.serving := by
      have other : m ≠ n := by
        rintro rfl
        exact slave line_eq
      rw [Function.update_of_ne other]
      exact stands.quiet m line_eq
    have requests (m : Fin 16) : (if m = n then true else pair.bit Chip.requests m) =
        Function.update lines.pending n true m := by
      rw [stands.requests, Function.update_apply]
    split_ifs with master
    · refine { stands with requests := fun m => Eq.trans ?_ (requests m), quiet }
      exact bit_put_master Chip.requests true pair m master rfl rfl
    · refine { stands with requests := fun m => Eq.trans ?_ (requests m), quiet }
      exact bit_put_slave Chip.requests true pair m master rfl rfl

/-- The bit of a line in the mask of its controller. -/
def remask (pair : Pair) (n : Fin 16) (masked : Bool) : Pair :=
  if n.val < 8 then { pair with master.mask := put pair.master.mask n.val masked }
  else { pair with slave.mask := put pair.slave.mask (n.val - 8) masked }

theorem Stands.remask (stands : pair.Stands base lines) (n : Fin 16) (on : Bool) :
    (pair.remask n !on).Stands base (lines.switch n on) := by
  have mask (m : Fin 16) : (if m = n then !on else pair.bit Chip.mask m) =
      !Function.update lines.enabled n on m := by
    rw [stands.mask, Function.update_apply]
    split_ifs <;> rfl
  rw [Pair.remask, Lines.switch]
  split_ifs with master
  · refine { stands with mask := fun m => Eq.trans ?_ (mask m) }
    exact bit_put_master Chip.mask (!on) pair m master rfl rfl
  · refine { stands with mask := fun m => Eq.trans ?_ (mask m) }
    exact bit_put_slave Chip.mask (!on) pair m master rfl rfl

/-- The pair after a line's interrupt was ended on the controllers it went through. -/
def ended (pair : Pair) (n : Fin 16) : Pair :=
  if n.val < 8 then
    { pair with master.in_service := put pair.master.in_service n.val false }
  else
    { pair with
      master.in_service := put pair.master.in_service SLAVE_LINE false
      slave.in_service := put pair.slave.in_service (n.val - 8) false }

theorem Stands.ended (stands : pair.Stands base lines) {n : Fin 16} {rest : List (Fin 16)}
    (serving : lines.serving = n :: rest) : (pair.ended n).Stands base lines.finish := by
  have nested := stands.nested
  have device : n.val ≠ SLAVE_LINE := fun slave =>
    (stands.quiet n slave).2 (serving ▸ List.mem_cons_self)
  rw [serving, List.pairwise_cons] at nested
  obtain ⟨above, nested⟩ := nested
  have finished : lines.finish.serving = rest := by rw [Lines.finish, serving]; rfl
  have absent : n ∉ rest := fun mem => lt_irrefl _ (above n mem)
  have service (m : Fin 16) : (pair.ended n).bit Chip.in_service m =
      if m = n ∨ m.val = SLAVE_LINE ∧ ¬n.val < 8 then false
      else pair.bit Chip.in_service m := by
    apply bit_put_line
    rw [Pair.ended]
    split_ifs <;> exact ⟨rfl, rfl⟩
  have others (set : Chip → BitVec 8)
      (keeps : ∀ (chip : Chip) in_service, set { chip with in_service } = set chip) (m : Fin 16) :
      (pair.ended n).bit set m = pair.bit set m := by
    rw [Pair.ended, bit, bit]
    split_ifs <;> simp only [keeps]
  have device_mem {m : Fin 16} (other : m ≠ n) : m ∈ lines.serving ↔ m ∈ rest := by
    rw [serving, List.mem_cons, or_iff_right other]
  refine
    { master_ready := ?_, slave_ready := ?_, cascade := ?_, answers := ?_, master_base := ?_
      slave_base := ?_
      mask := fun m => (others Chip.mask (fun _ _ => rfl) m).trans (stands.mask m)
      requests := fun m => (others Chip.requests (fun _ _ => rfl) m).trans (stands.requests m)
      quiet := fun m slave => ⟨(stands.quiet m slave).1, ?_⟩
      service := fun m other => ?_
      slave_service := ?_
      nested := finished ▸ nested }
  · rw [Pair.ended]
    split_ifs <;> exact stands.master_ready
  · rw [Pair.ended]
    split_ifs <;> exact stands.slave_ready
  · rw [Pair.ended]
    split_ifs <;> exact stands.cascade
  · rw [Pair.ended]
    split_ifs <;> exact stands.answers
  · rw [Pair.ended]
    split_ifs <;> exact stands.master_base
  · rw [Pair.ended]
    split_ifs <;> exact stands.slave_base
  · rw [finished]
    exact fun mem => (stands.quiet m slave).2 (serving ▸ List.mem_cons_of_mem n mem)
  · rw [service, finished]
    by_cases same : m = n
    · rw [if_pos (Or.inl same), same]
      exact (decide_eq_false absent).symm
    · rw [if_neg (by simp only [same, other, false_and, or_self, not_false_eq_true]),
        stands.service m other, decide_eq_decide]
      exact device_mem same
  · have two : (2 : Fin 16) ≠ n := by
      rintro rfl
      exact device rfl
    have line_eq : (2 : Fin 16).val = SLAVE_LINE := rfl
    rw [service, finished]
    by_cases master : n.val < 8
    · have kept : ¬((2 : Fin 16) = n ∨ ((2 : Fin 16).val = SLAVE_LINE ∧ ¬n.val < 8)) := by
        rintro (same | ⟨-, slave⟩)
        · exact two same
        · exact slave master
      rw [if_neg kept, stands.slave_service, serving, decide_eq_decide]
      constructor
      · rintro ⟨m, mem, slave⟩
        rcases List.mem_cons.mp mem with rfl | mem
        · exact absurd master slave
        · exact ⟨m, mem, slave⟩
      · rintro ⟨m, mem, slave⟩
        exact ⟨m, List.mem_cons_of_mem n mem, slave⟩
    · -- a second slave line would have the level of the one that ended
      rw [if_pos (Or.inr ⟨line_eq, master⟩)]
      symm
      rw [decide_eq_false_iff_not]
      rintro ⟨m, mem, slave⟩
      have below := above m mem
      rw [level, level, if_neg master, if_neg slave] at below
      exact lt_irrefl _ below

end Pair

end Pic8259
