import ComputerSystem.Rtc
import ComputerSystem.Run

/-!
# How long a reader of the RTC waits

A reader leaves its loop when the counter is exactly at the rate, so it waits for the counter to
come round once it was passed.  Counter and rate are shared, so what one descriptor does shows on
another one.
-/

namespace ComputerSystem

open Word

namespace Rtc

/-- The rates that can be set give between 1 and 512 interrupts a tick. -/
structure Steady (rtc : Rtc) : Prop where
  /-- The counter counts upwards from 0. -/
  ctr_nonneg : 0 ≤ rtc.freq_ctr
  /-- It has not passed the rate. -/
  ctr_le : rtc.freq_ctr ≤ rtc.freq_val
  /-- The rate is not 0. -/
  val_pos : 1 ≤ rtc.freq_val
  /-- It is one that can be set. -/
  val_le : rtc.freq_val ≤ 512

theorem rtc_handler_ctr {rtc : Rtc} (nonneg : 0 ≤ rtc.freq_ctr) (small : rtc.freq_ctr < 2 ^ 30) :
    rtc.rtc_handler.freq_ctr = rtc.freq_ctr + 1 := by
  have word : toUnsigned (rtc.freq_ctr + 1) = (rtc.freq_ctr + 1).toNat := by
    rw [toUnsigned]
    omega
  simp only [rtc_handler, word]
  rw [toSigned_of_lt (by omega)]
  omega

theorem iterate_rtc_handler_ctr {rtc : Rtc} (nonneg : 0 ≤ rtc.freq_ctr) {ticks : Nat}
    (small : rtc.freq_ctr + ticks < 2 ^ 30) :
    (rtc_handler^[ticks] rtc).freq_ctr = rtc.freq_ctr + ticks := by
  induction ticks with
  | zero => simp
  | succ ticks ih =>
      have before := ih (by omega)
      rw [Function.iterate_succ_apply', rtc_handler_ctr (by omega) (by omega), before]
      omega

/-- What `rtc_write` accepts. -/
def Accepted (rate : Int) : Prop :=
  ¬(rate > 1024 ∨ rate < 2) ∧ rate.toNat &&& (rate.toNat - 1) = 0

instance (rate : Int) : Decidable (Accepted rate) := inferInstanceAs (Decidable (_ ∧ _))

theorem rtc_write_eq (rtc : Rtc) (rate : Int) :
    rtc.rtc_write rate = if Accepted rate then (0, ⟨0, 1024 / rate⟩) else (-1, rtc) := by
  simp only [rtc_write, Accepted]
  split_ifs <;> simp_all

theorem steady_rtc_open (rtc : Rtc) : rtc.rtc_open.Steady := by
  have initial : Steady ⟨0, 1024 / 2⟩ := ⟨le_rfl, by decide, by decide, by decide⟩
  exact initial

theorem steady_of_accepted {rate : Int} (accepted : Accepted rate) : Steady ⟨0, 1024 / rate⟩ := by
  have in_range := not_or.mp accepted.1
  have low : 1 ≤ 1024 / rate := by
    rw [Int.le_ediv_iff_mul_le (by omega)]
    omega
  have high : 1024 / rate ≤ 512 := Int.ediv_le_of_le_mul (by omega) (by omega)
  exact ⟨le_rfl, by simp only; omega, low, high⟩

/-! ## Overtaking -/

/-- What happens to the driver. -/
inductive Event
  /-- A descriptor is opened. -/
  | rtc_open
  /-- A rate is asked for. -/
  | rtc_write (rate : Int)
  /-- A read completes. -/
  | rtc_read
  /-- An interrupt. -/
  | rtc_handler

/-- One event. -/
def step (rtc : Rtc) : Event → Option Rtc
  | .rtc_open => some rtc.rtc_open
  | .rtc_write rate => some (rtc.rtc_write rate).2
  | .rtc_read => rtc.rtc_read
  | .rtc_handler => some rtc.rtc_handler

/-- As many ticks as `freq_val` says, or fewer, make the exit test of `rtc_read` true. -/
def Meets (rtc : Rtc) : Prop :=
  ∃ ticks : Nat, ticks ≤ rtc.freq_val ∧ (rtc_handler^[ticks] rtc).freq_ctr = rtc.freq_val

/-- No interrupt comes while the exit test is true. -/
def Looked (rtc : Rtc) : Event → Prop
  | .rtc_handler => rtc.freq_ctr ≠ rtc.freq_val
  | _ => True

theorem Steady.meets {rtc : Rtc} (steady : rtc.Steady) : rtc.Meets := by
  obtain ⟨nonneg, le, -, small⟩ := steady
  refine ⟨(rtc.freq_val - rtc.freq_ctr).toNat, by omega, ?_⟩
  rw [iterate_rtc_handler_ctr nonneg (by omega)]
  omega

theorem Steady.step {rtc next : Rtc} {event : Event} (steady : rtc.Steady)
    (taken : rtc.step event = some next) (looked : rtc.Looked event) : next.Steady := by
  cases event with
  | rtc_open =>
      cases taken
      exact steady_rtc_open rtc
  | rtc_write rate =>
      cases taken
      rw [rtc_write_eq]
      split_ifs with accepted
      · exact steady_of_accepted accepted
      · exact steady
  | rtc_read =>
      obtain ⟨-, next_eq⟩ := Option.ite_none_right_eq_some.mp taken
      cases next_eq
      have val_nonneg := (by decide : (0 : Int) ≤ 1).trans steady.val_pos
      exact ⟨le_rfl, val_nonneg, steady.val_pos, steady.val_le⟩
  | rtc_handler =>
      cases taken
      obtain ⟨nonneg, le, pos, small⟩ := steady
      have counted := rtc_handler_ctr nonneg (by omega)
      have below : rtc.freq_ctr < rtc.freq_val := lt_of_le_of_ne le looked
      exact ⟨by omega, by rw [counted]; exact below, pos, small⟩

/-- An interrupt at the exit test takes the counter past the rate. -/
theorem Steady.overtaken {rtc next : Rtc} {event : Event} (steady : rtc.Steady)
    (taken : rtc.step event = some next) (not_looked : ¬rtc.Looked event) :
    ¬next.freq_ctr ≤ next.freq_val ∧ ¬next.Meets := by
  cases event with
  | rtc_handler =>
      cases taken
      obtain ⟨nonneg, -, pos, small⟩ := steady
      have reached : rtc.freq_ctr = rtc.freq_val := not_not.mp not_looked
      have counted := rtc_handler_ctr nonneg (by omega)
      have value : rtc.rtc_handler.freq_val = rtc.freq_val := rfl
      refine ⟨by omega, ?_⟩
      rintro ⟨ticks, few, met⟩
      rw [iterate_rtc_handler_ctr (by omega) (by omega)] at met
      omega
  | _ => exact absurd trivial not_looked

/-- In every run: readers are never overtaken exactly when no interrupt comes while the counter is
at the rate. -/
theorem not_overtaken_iff (events : List Event) :
    ((∀ rtc ∈ Run.visited step boot events, rtc.Meets) ↔
      ∀ entry ∈ Run.taken step boot events, entry.1.Looked entry.2) ∧
    ((∀ rtc ∈ Run.visited step boot events, rtc.freq_ctr ≤ rtc.freq_val) ↔
      ∀ entry ∈ Run.taken step boot events, entry.1.Looked entry.2) := by
  have initial : boot.Steady := ⟨le_rfl, by decide, le_rfl, by decide⟩
  constructor
  · exact Run.weak_iff_ok Looked Steady Meets (fun _ steady => steady.meets)
      (fun _ _ _ steady taken looked => steady.step taken looked)
      (fun _ _ _ steady taken not_looked => (steady.overtaken taken not_looked).2) initial events
  · exact Run.weak_iff_ok Looked Steady (fun rtc => rtc.freq_ctr ≤ rtc.freq_val)
      (fun _ steady => steady.ctr_le)
      (fun _ _ _ steady taken looked => steady.step taken looked)
      (fun _ _ _ steady taken not_looked => (steady.overtaken taken not_looked).1) initial events

/-- Two interrupts after boot. -/
theorem overtaken_after_boot :
    ¬∀ events, ∀ rtc ∈ Run.visited step boot events, rtc.Meets ∧ rtc.freq_ctr ≤ rtc.freq_val := by
  intro in_time
  have last := (in_time [.rtc_handler, .rtc_handler] ⟨2, 1⟩
    (List.mem_cons_of_mem _ (List.mem_cons_of_mem _ List.mem_cons_self))).2
  exact absurd last (by decide)

/-! ## Two descriptors -/

/-- The descriptor that is watched and the other one. -/
inductive Client
  | a
  | b
  deriving DecidableEq

/-- What happens to the driver, by descriptor. -/
inductive SharedEvent
  /-- An interrupt. -/
  | rtc_handler
  /-- `open`. -/
  | rtc_open (fd : Client)
  /-- `write`. -/
  | rtc_write (fd : Client) (rate : Int)
  /-- `read` is called. -/
  | rtc_read (fd : Client)
  /-- `read` finds the counter at the rate and returns. -/
  | rtc_return (fd : Client)
  deriving DecidableEq

/-- The driver with its readers. -/
structure Shared where
  /-- The globals. -/
  rtc : Rtc
  /-- Interrupts that a descriptor's reader has waited for. -/
  waiting : Client → Option Nat
  /-- Not in the source: the last rate set on A, 2 Hz behind `open`. -/
  rate : Option Int
  /-- Not in the source: that rate at each read on A. -/
  rates : List Int
  /-- Not in the source: the interrupts that each completed read on A waited for. -/
  waits : List Nat

namespace Shared

/-- The driver after boot. -/
def start : Shared where
  rtc := boot
  waiting := fun _ => none
  rate := none
  rates := []
  waits := []

/-- A descriptor can be used: its last read is over, and A is open. -/
def Ready (state : Shared) (fd : Client) : Prop :=
  state.waiting fd = none ∧ (fd = .a → state.rate ≠ none)

instance (state : Shared) (fd : Client) : Decidable (state.Ready fd) :=
  inferInstanceAs (Decidable (_ ∧ _))

/-- One event.  A waiting reader looks at the counter between any two interrupts, and returns when
it finds it at the rate, unless the other one was faster. -/
def step (state : Shared) : SharedEvent → Option Shared
  | .rtc_handler =>
      if (state.waiting .a ≠ none ∨ state.waiting .b ≠ none) ∧
          state.rtc.freq_ctr = state.rtc.freq_val then none
      else
        some { state with
          rtc := state.rtc.rtc_handler
          waiting := fun fd => (state.waiting fd).map (· + 1) }
  | .rtc_open fd =>
      if state.waiting fd ≠ none then none
      else
        some { state with
          rtc := state.rtc.rtc_open
          rate := if fd = .a then some 2 else state.rate }
  | .rtc_write fd rate =>
      if ¬state.Ready fd then none
      else
        let (result, rtc) := state.rtc.rtc_write rate
        some { state with
          rtc
          rate := if fd = .a ∧ result = 0 then some rate else state.rate }
  | .rtc_read fd =>
      if ¬state.Ready fd then none
      else
        some { state with
          waiting := Function.update state.waiting fd (some 0)
          rates := if fd = .a then state.rates ++ state.rate.toList else state.rates }
  | .rtc_return fd =>
      match state.waiting fd with
      | none => none
      | some ticks =>
          state.rtc.rtc_read.map fun rtc =>
            { state with
              rtc
              waiting := Function.update state.waiting fd none
              waits := if fd = .a then state.waits ++ [ticks] else state.waits }

/-- The interrupts and the operations on A. -/
def ofA : SharedEvent → Bool
  | .rtc_handler => true
  | .rtc_open fd => fd = .a
  | .rtc_write fd _ => fd = .a
  | .rtc_read fd => fd = .a
  | .rtc_return _ => false

/-- The operations on B that change the counter or the rate. -/
def touches : SharedEvent → Bool
  | .rtc_open fd => fd = .b
  | .rtc_write fd rate => fd = .b ∧ Accepted rate
  | .rtc_return fd => fd = .b
  | _ => false

/-- A read on A is called when the counter was just reset for the rate of A, and no operation on B
changes counter or rate while it waits. -/
def Undisturbed (state : Shared) (event : SharedEvent) : Prop :=
  (event = .rtc_read .a →
    state.rtc.freq_ctr = 0 ∧ ∀ rate ∈ state.rate, state.rtc.freq_val = 1024 / rate) ∧
  (touches event → state.waiting .a = none)

instance (state : Shared) (event : SharedEvent) : Decidable (state.Undisturbed event) :=
  inferInstanceAs (Decidable (_ ∧ _))

/-! ### What the operations on A ask for -/

/-- The rate of A and the rates at its reads. -/
def asked (rates : Option Int × List Int) : SharedEvent → Option Int × List Int
  | .rtc_open .a => (some 2, rates.2)
  | .rtc_write .a rate => (if Accepted rate then some rate else rates.1, rates.2)
  | .rtc_read .a => (rates.1, rates.2 ++ rates.1.toList)
  | _ => rates

theorem asked_of_not_ofA (rates : Option Int × List Int) {event : SharedEvent}
    (other : ofA event = false) : asked rates event = rates := by
  rcases event with _ | (_ | _) | ⟨_ | _, rate⟩ | (_ | _) | (_ | _) <;> first | rfl | cases other

theorem asked_step {state next : Shared} {event : SharedEvent}
    (taken : state.step event = some next) :
    (next.rate, next.rates) = asked (state.rate, state.rates) event := by
  cases event with
  | rtc_handler =>
      simp only [step, Option.ite_none_left_eq_some] at taken
      cases taken.2
      rfl
  | rtc_open fd =>
      simp only [step, Option.ite_none_left_eq_some] at taken
      cases taken.2
      cases fd <;> rfl
  | rtc_write fd rate =>
      simp only [step, rtc_write_eq, Option.ite_none_left_eq_some] at taken
      cases taken.2
      cases fd with
      | a => by_cases accepted : Accepted rate <;> simp [asked, accepted]
      | b => simp [asked]
  | rtc_read fd =>
      simp only [step, Option.ite_none_left_eq_some] at taken
      cases taken.2
      cases fd <;> rfl
  | rtc_return fd =>
      rw [step] at taken
      split at taken
      · cases taken
      · obtain ⟨rtc, -, next_eq⟩ := Option.map_eq_some_iff.mp taken
        cases next_eq
        rfl

/-- The rates at the reads depend on the operations on A only. -/
theorem asked_run {state last : Shared} {events : List SharedEvent}
    (reached : Run.run step state events = some last) :
    (last.rate, last.rates) = (events.filter ofA).foldl asked (state.rate, state.rates) := by
  induction events generalizing state with
  | nil =>
      cases reached
      rfl
  | cons event events ih =>
      obtain ⟨next, taken, rest⟩ := Option.bind_eq_some_iff.mp reached
      rw [ih rest, asked_step taken]
      cases mine : ofA event with
      | true => rw [List.filter_cons_of_pos mine, List.foldl_cons]
      | false =>
          rw [List.filter_cons_of_neg (by rw [mine]; exact Bool.false_ne_true),
            asked_of_not_ofA _ mine]

/-! ### The waits -/

/-- The completed reads on A waited as long as the rates at their calls say, and a read that waits
still has counted from zero at its own rate. -/
def Timely (state : Shared) : Prop :=
  (∀ rate ∈ state.rate, Accepted rate) ∧
  match state.waiting .a with
  | none => state.waits.map Int.ofNat = state.rates.map (1024 / ·)
  | some ticks =>
      state.rtc.Steady ∧ state.rtc.freq_ctr = ticks ∧
      ∃ earlier rate, state.rates = earlier ++ [rate] ∧ state.rtc.freq_val = 1024 / rate ∧
        state.waits.map Int.ofNat = earlier.map (1024 / ·)

theorem timely_start : start.Timely := ⟨nofun, rfl⟩

/-- While no read on A waits, the counter and the rate do not matter. -/
theorem Timely.of_idle {state next : Shared} (timely : state.Timely)
    (accepted : ∀ rate ∈ next.rate, Accepted rate) (idle : state.waiting .a = none)
    (still : next.waiting .a = none) (waits_eq : next.waits = state.waits)
    (rates_eq : next.rates = state.rates) : next.Timely := by
  have waits := timely.2
  rw [idle] at waits
  refine ⟨accepted, ?_⟩
  rw [still, waits_eq, rates_eq]
  exact waits

theorem Timely.count {state : Shared} (timely : state.Timely)
    (looked : state.waiting .a ≠ none → state.rtc.freq_ctr ≠ state.rtc.freq_val) :
    Timely { state with
      rtc := state.rtc.rtc_handler
      waiting := fun fd => (state.waiting fd).map (· + 1) } := by
  cases pending : state.waiting .a with
  | none => exact timely.of_idle timely.1 pending (by simp [pending]) rfl rfl
  | some ticks =>
      obtain ⟨accepted, waits⟩ := timely
      simp only [pending] at waits
      obtain ⟨steady, counted, earlier, rate, rates_eq, value, before⟩ := waits
      have ctr_eq := rtc_handler_ctr steady.ctr_nonneg (by
        have := steady.ctr_le
        have := steady.val_le
        omega)
      have counts : Rtc.step state.rtc .rtc_handler = some state.rtc.rtc_handler := rfl
      refine ⟨accepted, ?_⟩
      simp only [pending, Option.map_some]
      refine ⟨steady.step counts (looked (pending ▸ Option.some_ne_none ticks)), ?_, earlier, rate,
        rates_eq, value, before⟩
      rw [ctr_eq, counted]
      exact (Int.natCast_succ ticks).symm

theorem Timely.call {state : Shared} (timely : state.Timely) (ready : state.Ready .a)
    (reset : state.rtc.freq_ctr = 0)
    (own : ∀ rate ∈ state.rate, state.rtc.freq_val = 1024 / rate) :
    Timely { state with
      waiting := Function.update state.waiting .a (some 0)
      rates := state.rates ++ state.rate.toList } := by
  obtain ⟨accepted, waits⟩ := timely
  obtain ⟨idle, opened⟩ := ready
  obtain ⟨rate, rate_eq⟩ := Option.ne_none_iff_exists'.mp (opened rfl)
  have value := own rate rate_eq
  have rtc_eq : state.rtc = ⟨0, 1024 / rate⟩ := by rw [← reset, ← value]
  rw [idle] at waits
  refine ⟨accepted, ?_⟩
  simp only [Function.update_self, rate_eq, Option.toList_some]
  refine ⟨?_, reset, state.rates, rate, rfl, value, waits⟩
  rw [rtc_eq]
  exact steady_of_accepted (accepted rate rate_eq)

theorem Timely.complete {state : Shared} (timely : state.Timely) {ticks : Nat}
    (pending : state.waiting .a = some ticks) (reached : state.rtc.freq_ctr = state.rtc.freq_val)
    (rtc : Rtc) :
    Timely { state with
      rtc
      waiting := Function.update state.waiting .a none
      waits := state.waits ++ [ticks] } := by
  obtain ⟨accepted, waits⟩ := timely
  rw [pending] at waits
  obtain ⟨-, counted, earlier, rate, rates_eq, value, before⟩ := waits
  have waited : (ticks : Int) = 1024 / rate := by rw [← counted, reached, value]
  refine ⟨accepted, ?_⟩
  simp only [Function.update_self, List.map_append, before, rates_eq]
  exact congrArg (earlier.map (1024 / ·) ++ [·]) waited

theorem Timely.step {state next : Shared} {event : SharedEvent} (timely : state.Timely)
    (undisturbed : state.Undisturbed event) (taken : state.step event = some next) :
    next.Timely := by
  obtain ⟨fresh, alone⟩ := undisturbed
  cases event with
  | rtc_handler =>
      simp only [Shared.step, Option.ite_none_left_eq_some] at taken
      obtain ⟨not_reached, next_eq⟩ := taken
      cases next_eq
      exact timely.count fun waiting reached => not_reached ⟨Or.inl waiting, reached⟩
  | rtc_open fd =>
      simp only [Shared.step, Option.ite_none_left_eq_some, not_not] at taken
      obtain ⟨idle, next_eq⟩ := taken
      cases next_eq
      cases fd with
      | a => exact timely.of_idle (by simp; decide) idle idle rfl rfl
      | b =>
          have idle_a := alone rfl
          exact timely.of_idle (by simpa using timely.1) idle_a idle_a rfl rfl
  | rtc_write fd rate =>
      simp only [Shared.step, rtc_write_eq, Option.ite_none_left_eq_some, not_not] at taken
      obtain ⟨ready, next_eq⟩ := taken
      cases next_eq
      by_cases valid : Accepted rate
      · have idle : state.waiting .a = none := by
          cases fd with
          | a => exact ready.1
          | b => exact alone (decide_eq_true ⟨rfl, valid⟩)
        refine timely.of_idle ?_ idle idle rfl rfl
        cases fd with
        | a => simp [valid]
        | b => simpa using timely.1
      · simpa [valid] using timely
  | rtc_read fd =>
      simp only [Shared.step, Option.ite_none_left_eq_some, not_not] at taken
      obtain ⟨ready, next_eq⟩ := taken
      cases next_eq
      cases fd with
      | a => exact timely.call ready (fresh rfl).1 (fresh rfl).2
      | b => exact ⟨timely.1, by simpa [Function.update_apply] using timely.2⟩
  | rtc_return fd =>
      rw [Shared.step] at taken
      split at taken
      · cases taken
      · rename_i ticks pending
        obtain ⟨rtc, returned, next_eq⟩ := Option.map_eq_some_iff.mp taken
        obtain ⟨reached, -⟩ := Option.ite_none_right_eq_some.mp returned
        cases next_eq
        cases fd with
        | a => exact timely.complete pending reached rtc
        | b =>
            have idle := alone rfl
            exact timely.of_idle timely.1 idle (by simp [idle]) rfl rfl

/-- A completed read waited for 1024 interrupts by the rate at its call. -/
theorem Timely.waited {state : Shared} (timely : state.Timely) {k ticks : Nat}
    (completed : state.waits[k]? = some ticks) :
    ∃ rate, state.rates[k]? = some rate ∧ (ticks : Int) = 1024 / rate := by
  obtain ⟨earlier, later, rates_eq, waited⟩ : ∃ earlier later, state.rates = earlier ++ later ∧
      state.waits.map Int.ofNat = earlier.map (1024 / ·) := by
    obtain ⟨-, waits⟩ := timely
    split at waits
    · exact ⟨state.rates, [], (List.append_nil _).symm, waits⟩
    · obtain ⟨-, -, earlier, rate, rates_eq, -, before⟩ := waits
      exact ⟨earlier, [rate], rates_eq, before⟩
  have entry : (earlier.map (1024 / ·))[k]? = some (ticks : Int) := by
    rw [← waited, List.getElem?_map, completed]
    rfl
  rw [List.getElem?_map] at entry
  obtain ⟨rate, rate_eq, ticks_eq⟩ := Option.map_eq_some_iff.mp entry
  have inside := (List.getElem?_eq_some_iff.mp rate_eq).1
  exact ⟨rate, by rw [rates_eq, List.getElem?_append_left inside, rate_eq], ticks_eq.symm⟩

/-- A read that waits still returns once it has waited for 1024 interrupts by its rate, and not
before. -/
theorem Timely.pending {state : Shared} (timely : state.Timely) {ticks : Nat}
    (waiting : state.waiting .a = some ticks) :
    ∃ rate, state.rates.getLast? = some rate ∧ (ticks : Int) ≤ 1024 / rate ∧
      ((state.step (.rtc_return .a)).isSome ↔ (ticks : Int) = 1024 / rate) := by
  obtain ⟨-, waits⟩ := timely
  rw [waiting] at waits
  obtain ⟨steady, counted, earlier, rate, rates_eq, value, -⟩ := waits
  refine ⟨rate, by rw [rates_eq, List.getLast?_concat], ?_, ?_⟩
  · rw [← counted, ← value]
    exact steady.ctr_le
  · rw [Shared.step, waiting, Option.isSome_map, rtc_read, ← counted, ← value]
    split_ifs with reached <;> simp [reached]

/-- Every step of the run finds the reads on A undisturbed. -/
def Alone (events : List SharedEvent) : Prop :=
  ∀ entry ∈ Run.taken step start events, entry.1.Undisturbed entry.2

theorem Alone.timely {events : List SharedEvent} (alone : Alone events) {last : Shared}
    (reached : Run.run step start events = some last) : last.Timely :=
  Run.invariant_of_ok Timely Undisturbed
    (fun _ _ _ timely undisturbed taken => timely.step undisturbed taken) timely_start events alone
    last (Run.mem_visited_of_run reached)

/-- What A does: set 512 Hz and read once. -/
def readOnce : List SharedEvent :=
  [.rtc_open .a, .rtc_write .a 512, .rtc_read .a, .rtc_handler, .rtc_handler, .rtc_return .a]

end Shared

end Rtc

end ComputerSystem
