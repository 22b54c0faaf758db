import Mathlib

/-!
# Runs of a partial step function

A run is a list of events fed to a partial step function; an event that is not enabled ends it.
`taken` lists the steps a run takes, each with the state it starts from, and `visited` the states
it passes through.  Properties of every step and of every state of a run are proved from one-step
facts by the three rules at the end.
-/

namespace Run

variable {σ ε : Type*}

/-- Feed a list of events to the step function. -/
def run (step : σ → ε → Option σ) : σ → List ε → Option σ
  | state, [] => some state
  | state, event :: events => step state event >>= fun next => run step next events

/-- The enabled steps of a run, each paired with the state it starts from. -/
def taken (step : σ → ε → Option σ) : σ → List ε → List (σ × ε)
  | _, [] => []
  | state, event :: events =>
      match step state event with
      | none => []
      | some next => (state, event) :: taken step next events

/-- The states a run passes through, the first one included. -/
def visited (step : σ → ε → Option σ) : σ → List ε → List σ
  | state, [] => [state]
  | state, event :: events =>
      match step state event with
      | none => [state]
      | some next => state :: visited step next events

theorem mem_visited_start (step : σ → ε → Option σ) (state : σ) (events : List ε) :
    state ∈ visited step state events := by
  cases events with
  | nil => simp [visited]
  | cons event events =>
      rw [visited]
      split <;> simp

/-- A run passes through where its beginnings end. -/
theorem mem_visited_append {step : σ → ε → Option σ} {state last : σ} {events : List ε}
    (reached : run step state events = some last) (rest : List ε) :
    last ∈ visited step state (events ++ rest) := by
  induction events generalizing state with
  | nil =>
      cases reached
      exact mem_visited_start step _ rest
  | cons event events ih =>
      obtain ⟨next, enabled, tail⟩ := Option.bind_eq_some_iff.mp reached
      rw [List.cons_append, visited, enabled]
      exact List.mem_cons_of_mem _ (ih tail)

theorem mem_visited_of_run {step : σ → ε → Option σ} {state last : σ} {events : List ε}
    (reached : run step state events = some last) : last ∈ visited step state events := by
  simpa using mem_visited_append reached []

theorem run_append {step : σ → ε → Option σ} (state : σ) (first second : List ε) :
    run step state (first ++ second) =
      run step state first >>= fun next => run step next second := by
  induction first generalizing state with
  | nil => rfl
  | cons event first ih =>
      simp only [List.cons_append, run]
      cases step state event with
      | none => rfl
      | some next => exact ih next

theorem mem_taken_of_run (step : σ → ε → Option σ) (state : σ) (events : List ε) (event : ε)
    (rest : List ε) {last next : σ} (reached : run step state events = some last)
    (enabled : step last event = some next) :
    (last, event) ∈ taken step state (events ++ event :: rest) := by
  induction events generalizing state with
  | nil =>
      cases reached
      simp [taken, enabled]
  | cons first events ih =>
      obtain ⟨second, first_enabled, tail⟩ := Option.bind_eq_some_iff.mp reached
      rw [List.cons_append, taken, first_enabled]
      exact List.mem_cons_of_mem _ (ih second tail)

/-- Two step functions that keep states related take the same runs, to related states. -/
theorem rel_run {τ : Type*} {step : σ → ε → Option σ} {abstract : τ → ε → Option τ}
    {Rel : σ → τ → Prop}
    (related : ∀ state model event, Rel state model →
      Option.Rel Rel (step state event) (abstract model event))
    {state : σ} {model : τ} (initial : Rel state model) (events : List ε) :
    Option.Rel Rel (run step state events) (run abstract model events) := by
  induction events generalizing state model with
  | nil => exact .some initial
  | cons event events ih =>
      rw [run, run]
      have next := related state model event initial
      cases first : step state event with
      | none =>
          cases second : abstract model event with
          | none => exact .none
          | some model =>
              rw [first, second] at next
              exact absurd next Option.not_rel_none_some
      | some state =>
          cases second : abstract model event with
          | none =>
              rw [first, second] at next
              exact absurd next Option.not_rel_some_none
          | some model =>
              rw [first, second] at next
              exact ih (Option.rel_some_some.mp next)

variable {step : σ → ε → Option σ} (Aux Inv : σ → Prop) (Ok Good : σ → ε → Prop)

/-- An invariant that fitting events keep holds where a run of them ends. -/
theorem invariant_of_run (Fit : ε → Prop)
    (keeps : ∀ state event next, Inv state → Fit event → step state event = some next → Inv next)
    {start last : σ} (initial : Inv start) {events : List ε} (fits : ∀ event ∈ events, Fit event)
    (reached : run step start events = some last) : Inv last := by
  induction events generalizing start with
  | nil =>
      cases reached
      exact initial
  | cons event events ih =>
      obtain ⟨next, enabled, rest⟩ := Option.bind_eq_some_iff.mp reached
      rw [List.forall_mem_cons] at fits
      exact ih (keeps _ _ _ initial fits.1 enabled) fits.2 rest

/-- Where `Good` and `Ok` agree on every enabled step under an invariant that such steps keep, they
agree over whole runs. -/
theorem good_iff_ok
    (agree : ∀ state event next, Inv state → step state event = some next →
      (Good state event ↔ Ok state event))
    (keeps : ∀ state event next, Inv state → Ok state event →
      step state event = some next → Inv next)
    {start : σ} (initial : Inv start) (events : List ε) :
    (∀ entry ∈ taken step start events, Good entry.1 entry.2) ↔
      ∀ entry ∈ taken step start events, Ok entry.1 entry.2 := by
  induction events generalizing start with
  | nil => simp [taken]
  | cons event events ih =>
      rw [taken]
      cases enabled : step start event with
      | none => simp
      | some next =>
          simp only [List.forall_mem_cons]
          constructor
          · rintro ⟨head_good, tail_good⟩
            have head_ok := (agree _ _ _ initial enabled).mp head_good
            exact ⟨head_ok, (ih (keeps _ _ _ initial head_ok enabled)).mp tail_good⟩
          · rintro ⟨head_ok, tail_ok⟩
            exact ⟨(agree _ _ _ initial enabled).mpr head_ok,
              (ih (keeps _ _ _ initial head_ok enabled)).mpr tail_ok⟩

/-- In a run that stays within `Within`: where every step that meets its condition keeps `Strong`,
which implies `Weak`, and every other step breaks `Weak`, it holds of every visited state exactly
when every step meets its condition. -/
theorem weak_iff_ok_within (Within Strong Weak : σ → Prop)
    (weaken : ∀ state, Strong state → Weak state)
    (keeps : ∀ state event next, Within state → Within next → Strong state →
      step state event = some next → Ok state event → Strong next)
    (breaks : ∀ state event next, Within state → Within next → Strong state →
      step state event = some next → ¬Ok state event → ¬Weak next)
    {start : σ} (initial : Strong start) (events : List ε)
    (within : ∀ state ∈ visited step start events, Within state) :
    (∀ state ∈ visited step start events, Weak state) ↔
      ∀ entry ∈ taken step start events, Ok entry.1 entry.2 := by
  induction events generalizing start with
  | nil => simpa [visited, taken] using weaken start initial
  | cons event events ih =>
      rw [visited, taken]
      rw [visited] at within
      cases enabled : step start event with
      | none => simpa using weaken start initial
      | some next =>
          simp only [enabled, List.forall_mem_cons] at within ⊢
          obtain ⟨here, later⟩ := within
          have behind := later next (mem_visited_start step next events)
          constructor
          · rintro ⟨-, tail⟩
            have head : Ok start event := by
              by_contra not_ok
              exact breaks _ _ _ here behind initial enabled not_ok
                (tail next (mem_visited_start step next events))
            exact ⟨head, (ih (keeps _ _ _ here behind initial enabled head) later).mp tail⟩
          · rintro ⟨head, tail⟩
            exact ⟨weaken start initial,
              (ih (keeps _ _ _ here behind initial enabled head) later).mpr tail⟩

/-- Where every step that meets its condition keeps `Strong`, which implies `Weak`, and every other
step breaks `Weak`, it holds of every visited state exactly when every step meets its condition. -/
theorem weak_iff_ok (Strong Weak : σ → Prop) (weaken : ∀ state, Strong state → Weak state)
    (keeps : ∀ state event next, Strong state → step state event = some next → Ok state event →
      Strong next)
    (breaks : ∀ state event next, Strong state → step state event = some next → ¬Ok state event →
      ¬Weak next)
    {start : σ} (initial : Strong start) (events : List ε) :
    (∀ state ∈ visited step start events, Weak state) ↔
      ∀ entry ∈ taken step start events, Ok entry.1 entry.2 :=
  weak_iff_ok_within Ok (fun _ => True) Strong Weak weaken
    (fun state event next _ _ => keeps state event next)
    (fun state event next _ _ => breaks state event next) initial events fun _ _ => trivial

/-- An invariant that a step keeps exactly when it meets its condition holds of every visited state
exactly when every step meets its condition. -/
theorem invariant_iff_ok
    (always : ∀ state event next, Aux state → step state event = some next → Aux next)
    (exact : ∀ state event next, Aux state → Inv state → step state event = some next →
      (Inv next ↔ Ok state event))
    {start : σ} (background : Aux start) (initial : Inv start) (events : List ε) :
    (∀ state ∈ visited step start events, Inv state) ↔
      ∀ entry ∈ taken step start events, Ok entry.1 entry.2 := by
  refine weak_iff_ok Ok (fun state => Aux state ∧ Inv state) Inv (fun _ strong => strong.2) ?_ ?_
    ⟨background, initial⟩ events
  · intro state event next strong enabled ok
    exact ⟨always _ _ _ strong.1 enabled, (exact _ _ _ strong.1 strong.2 enabled).mpr ok⟩
  · intro state event next strong enabled not_ok inv
    exact not_ok ((exact _ _ _ strong.1 strong.2 enabled).mp inv)

/-- An invariant kept by every step that meets its condition holds in every visited state of a run
whose steps meet theirs. -/
theorem invariant_of_ok
    (keeps : ∀ state event next, Inv state → Ok state event →
      step state event = some next → Inv next)
    {start : σ} (initial : Inv start) (events : List ε)
    (ok : ∀ entry ∈ taken step start events, Ok entry.1 entry.2) :
    ∀ state ∈ visited step start events, Inv state := by
  induction events generalizing start with
  | nil => simpa [visited] using initial
  | cons event events ih =>
      rw [taken] at ok
      rw [visited]
      cases enabled : step start event with
      | none => simpa using initial
      | some next =>
          simp only [enabled, List.forall_mem_cons] at ok ⊢
          exact ⟨initial, ih (keeps _ _ _ initial ok.1 enabled) ok.2⟩

end Run
