import Mathlib

/-!
# Programs in dialogue with a server

A program makes requests and goes on with the replies; between two requests the state of the server
may change.  `run` executes a program under a schedule of such changes and keeps the log of what was
asked and answered.  `Ensures` is the weakest precondition for every schedule whose changes are
among those allowed, and is computed along the program.
-/

/-- A program that makes requests; a loop that has used up its rounds is `spent`. -/
inductive Dialogue (Request Reply Result : Type)
  /-- The program ends. -/
  | done (result : Result)
  /-- It makes a request. -/
  | ask (request : Request) (next : Reply → Dialogue Request Reply Result)
  /-- A loop goes on past its rounds. -/
  | spent

namespace Dialogue

variable {Request Reply Result Final σ : Type}

/-- One program after the other. -/
protected def bind (first : Dialogue Request Reply Result)
    (second : Result → Dialogue Request Reply Final) : Dialogue Request Reply Final :=
  match first with
  | done result => second result
  | ask request next => ask request fun reply => (next reply).bind second
  | spent => spent

instance : Monad (Dialogue Request Reply) where
  pure := done
  bind := Dialogue.bind

/-- Make a request and return the reply. -/
def request (request : Request) : Dialogue Request Reply Reply := ask request done

@[simp]
theorem pure_eq_done (result : Result) :
    (pure result : Dialogue Request Reply Result) = done result := rfl

@[simp]
theorem done_bind (result : Result) (second : Result → Dialogue Request Reply Final) :
    (done result : Dialogue Request Reply Result) >>= second = second result := rfl

@[simp]
theorem ask_bind (request : Request) (next : Reply → Dialogue Request Reply Result)
    (second : Result → Dialogue Request Reply Final) :
    ask request next >>= second = ask request fun reply => next reply >>= second := rfl

@[simp]
theorem spent_bind (second : Result → Dialogue Request Reply Final) :
    (spent : Dialogue Request Reply Result) >>= second = spent := rfl

/-- How a run ends. -/
inductive Ending (Request Result σ : Type)
  /-- The program ended. -/
  | finished (result : Result) (state : σ)
  /-- The server does not reply. -/
  | waiting (request : Request)
  /-- A loop used up its rounds. -/
  | spent

/-- Run a program; `disturb n` is the change before request number `n`, which may go by what is
requested. -/
def run (respond : σ → Request → Option (Reply × σ)) :
    Dialogue Request Reply Result → (Nat → Request → σ → σ) → σ →
      List (Request × Reply) × Ending Request Result σ
  | done result, _, state => ([], .finished result state)
  | ask request next, disturb, state =>
      match respond (disturb 0 request state) request with
      | none => ([], .waiting request)
      | some (reply, after) =>
          let (log, ending) := (next reply).run respond (fun n => disturb (n + 1)) after
          ((request, reply) :: log, ending)
  | spent, _, _ => ([], .spent)

/-- The program's log and ending meet a condition, whatever changes happen between requests. -/
def Ensures (respond : σ → Request → Option (Reply × σ)) (Change : Request → σ → σ → Prop) :
    Dialogue Request Reply Result →
      (List (Request × Reply) → Ending Request Result σ → Prop) → σ → Prop
  | done result, Post, state => Post [] (.finished result state)
  | ask request next, Post, state =>
      ∀ changed, Change request state changed →
        match respond changed request with
        | none => Post [] (.waiting request)
        | some (reply, after) =>
            (next reply).Ensures respond Change (fun log => Post ((request, reply) :: log)) after
  | spent, Post, _ => Post [] .spent

/-- The condition that the program ends, with a given condition on its log, result and last
state. -/
def Ending.Finishes (Post : List (Request × Reply) → Result → σ → Prop)
    (log : List (Request × Reply)) : Ending Request Result σ → Prop
  | finished result state => Post log result state
  | waiting _ => False
  | spent => False

section rules

variable {respond : σ → Request → Option (Reply × σ)} {Change : Request → σ → σ → Prop}

/-- `Ensures` speaks of every run. -/
theorem Ensures.run {program : Dialogue Request Reply Result}
    {Post : List (Request × Reply) → Ending Request Result σ → Prop} {state : σ}
    (ensures : program.Ensures respond Change Post state) {disturb : Nat → Request → σ → σ}
    (allowed : ∀ n request state, Change request state (disturb n request state)) :
    Post (program.run respond disturb state).1 (program.run respond disturb state).2 := by
  induction program generalizing Post state disturb with
  | done result => exact ensures
  | ask request next ih =>
      have here := ensures (disturb 0 request state) (allowed 0 request state)
      rw [Dialogue.run]
      cases answered : respond (disturb 0 request state) request with
      | none =>
          rw [answered] at here
          exact here
      | some answer =>
          rw [answered] at here
          exact ih answer.1 here fun n => allowed (n + 1)
  | spent => exact ensures

theorem Ensures.ask {request : Request} {next : Reply → Dialogue Request Reply Result}
    {Post : List (Request × Reply) → Ending Request Result σ → Prop} {state : σ}
    (answered : ∀ changed, Change request state changed → ∃ reply after,
      respond changed request = some (reply, after) ∧
        (next reply).Ensures respond Change (fun log => Post ((request, reply) :: log)) after) :
    (ask request next).Ensures respond Change Post state := by
  intro changed change
  obtain ⟨reply, after, answer, rest⟩ := answered changed change
  rw [answer]
  exact rest

theorem Ensures.mono {program : Dialogue Request Reply Result}
    {Post Weaker : List (Request × Reply) → Ending Request Result σ → Prop} {state : σ}
    (ensures : program.Ensures respond Change Post state)
    (weaken : ∀ log ending, Post log ending → Weaker log ending) :
    program.Ensures respond Change Weaker state := by
  induction program generalizing Post Weaker state with
  | done result => exact weaken _ _ ensures
  | ask request next ih =>
      intro changed change
      have here := ensures changed change
      cases answered : respond changed request with
      | none =>
          rw [answered] at here
          exact weaken _ _ here
      | some answer =>
          rw [answered] at here
          exact ih answer.1 here fun log => weaken _
  | spent => exact weaken _ _ ensures

/-- What the first of two programs has to ensure. -/
def Then (respond : σ → Request → Option (Reply × σ)) (Change : Request → σ → σ → Prop)
    (second : Result → Dialogue Request Reply Final)
    (Post : List (Request × Reply) → Ending Request Final σ → Prop)
    (log : List (Request × Reply)) : Ending Request Result σ → Prop
  | .finished result state =>
      (second result).Ensures respond Change (fun rest => Post (log ++ rest)) state
  | .waiting request => Post log (.waiting request)
  | .spent => Post log .spent

theorem Ensures.bind {first : Dialogue Request Reply Result}
    {second : Result → Dialogue Request Reply Final}
    {Post : List (Request × Reply) → Ending Request Final σ → Prop} {state : σ}
    (ensures : first.Ensures respond Change (Then respond Change second Post) state) :
    (first >>= second).Ensures respond Change Post state := by
  induction first generalizing Post state with
  | done result => exact ensures
  | ask request next ih =>
      intro changed change
      have here := ensures changed change
      cases answered : respond changed request with
      | none =>
          rw [answered] at here
          exact here
      | some answer =>
          rw [answered] at here
          refine ih answer.1 (here.mono fun log ending held => ?_)
          cases ending with
          | finished result last => exact held
          | waiting request => exact held
          | spent => exact held
  | spent => exact ensures

/-- A program that is sure to finish does so in every run. -/
theorem Ensures.run_finishes {program : Dialogue Request Reply Result}
    {Post : List (Request × Reply) → Result → σ → Prop} {state : σ}
    (ensures : program.Ensures respond Change (Ending.Finishes Post) state)
    {disturb : Nat → Request → σ → σ}
    (allowed : ∀ n request state, Change request state (disturb n request state)) :
    ∃ log result last, program.run respond disturb state = (log, .finished result last) ∧
      Post log result last := by
  have finishes := ensures.run allowed
  generalize program.run respond disturb state = outcome at finishes ⊢
  obtain ⟨log, ending⟩ := outcome
  cases ending with
  | finished result last => exact ⟨log, result, last, rfl, finishes⟩
  | waiting request => exact False.elim finishes
  | spent => exact False.elim finishes

theorem Ensures.finishes_mono {program : Dialogue Request Reply Result}
    {Post Weaker : List (Request × Reply) → Result → σ → Prop} {state : σ}
    (ensures : program.Ensures respond Change (Ending.Finishes Post) state)
    (weaken : ∀ log result last, Post log result last → Weaker log result last) :
    program.Ensures respond Change (Ending.Finishes Weaker) state := by
  refine ensures.mono fun log ending finishes => ?_
  cases ending with
  | finished result last => exact weaken log result last finishes
  | waiting request => exact finishes
  | spent => exact finishes

theorem Ensures.bind_finishes {first : Dialogue Request Reply Result}
    {second : Result → Dialogue Request Reply Final}
    {Middle : List (Request × Reply) → Result → σ → Prop}
    {Post : List (Request × Reply) → Final → σ → Prop} {state : σ}
    (ensures : first.Ensures respond Change (Ending.Finishes Middle) state)
    (behind : ∀ log result last, Middle log result last →
      (second result).Ensures respond Change
        (Ending.Finishes fun rest => Post (log ++ rest)) last) :
    (first >>= second).Ensures respond Change (Ending.Finishes Post) state := by
  refine Ensures.bind (ensures.mono fun log ending finishes => ?_)
  cases ending with
  | finished result last =>
      refine (behind log result last finishes).mono fun rest ending finishes => ?_
      cases ending with
      | finished final last => exact finishes
      | waiting request => exact finishes
      | spent => exact finishes
  | waiting request => exact finishes
  | spent => exact finishes

end rules

end Dialogue
