import Hailcast.Lib.EventRun
import Mathlib.Order.Basic

/-!
# A queue of one

At most one run is going and at most one waits; a newer one that has to wait takes the place of the one that
waits. Not every submission asks for a run. Jobs ask for something and do something: what a replaced job would
have done is done only if a later one does it.
-/

namespace Coalesce

/-- A job, with its number among the submissions. -/
structure Run (J : Type) where
  index : Nat
  job : J

structure State (J : Type) where
  submitted : List J := []
  running : Option (Run J) := none
  pending : Option (Run J) := none
  finished : List (Run J) := []
  /-- The number of submissions up to the last run that has started. -/
  started : Nat := 0

inductive Event (J : Type) where
  | submit (job : J)
  /-- The running job ends, and the pending one starts. -/
  | finish

variable {J A : Type} (runs : J → Bool)

def State.submit (s : State J) (job : J) : State J :=
  let s' := { s with submitted := s.submitted ++ [job] }
  let run := ⟨s.submitted.length, job⟩
  if runs job then
    match s.running with
    | none => { s' with running := some run, started := run.index + 1 }
    | some _ => { s' with pending := some run }
  else s'

def State.finish (s : State J) : State J :=
  match s.running with
  | none => s
  | some run =>
      { s with
        running := s.pending
        pending := none
        finished := s.finished ++ [run]
        started := (s.pending.map (fun next => next.index + 1)).getD s.started }

def step (s : State J) : Event J → State J
  | .submit job => s.submit runs job
  | .finish => s.finish

def State.starting (s : State J) : Event J → Option (Run J)
  | .submit job => if runs job ∧ s.running.isNone then some ⟨s.submitted.length, job⟩ else none
  | .finish => s.running.bind (fun _ => s.pending)

variable (asks does : J → A → Prop)

/-- A run that starts does everything that was asked for since the one before started. -/
def Covers (s : State J) (e : Event J) : Prop :=
  ∀ run, s.starting runs e = some run → ∀ (m : Nat) (job : J), s.started ≤ m →
    (step runs s e).submitted[m]? = some job → ∀ a, asks job a → does run.job a

/-- What submission `m` may ask for has been done after it, or is just being done. -/
def State.Done (s : State J) (m : Nat) (a : A) : Prop :=
  ∃ run : Run J, (run ∈ s.finished ∨ s.running = some run) ∧ m ≤ run.index ∧ does run.job a

/-- With nothing pending, everything that was asked for is done. -/
def State.Served (s : State J) : Prop :=
  s.pending = none → ∀ (m : Nat) (job : J), s.submitted[m]? = some job → ∀ a, asks job a → s.Done does m a

/-! ## The invariant -/

structure State.Inv (s : State J) : Prop where
  idle : s.running = none → s.pending = none
  going : ∀ run, s.running = some run → run.index < s.started
  past : ∀ run ∈ s.finished, run.index < s.started
  within : s.started ≤ s.submitted.length
  ahead : ∀ run, s.pending = some run → s.started ≤ run.index ∧ run.index < s.submitted.length
  /-- Submissions after the one that waits want no run. -/
  last : ∀ run, s.pending = some run → ∀ (m : Nat) (job : J), run.index < m → s.submitted[m]? = some job →
    runs job = false
  none_waits : s.pending = none → ∀ (m : Nat) (job : J), s.started ≤ m → s.submitted[m]? = some job → runs job = false
  done : ∀ (m : Nat) (job : J), m < s.started → s.submitted[m]? = some job → ∀ a, asks job a → s.Done does m a

variable {runs asks does} {s : State J}

theorem getElem?_submit {xs : List J} {job job' : J} {m : Nat} (h : (xs ++ [job])[m]? = some job') :
    xs[m]? = some job' ∨ (m = xs.length ∧ job' = job) := by
  rw [List.getElem?_append] at h
  split at h
  · exact Or.inl h
  · rename_i hlt
    rw [List.getElem?_singleton] at h
    split at h
    · exact Or.inr ⟨by omega, (Option.some.inj h).symm⟩
    · cases h

theorem State.Inv.served (h : s.Inv runs asks does) (hasks : ∀ job a, asks job a → runs job = true) :
    s.Served asks does := by
  intro hpending m job hm a ha
  by_cases hlt : m < s.started
  · exact h.done m job hlt hm a ha
  · have hruns := h.none_waits hpending m job (by omega) hm
    rw [hasks job a ha] at hruns
    cases hruns

theorem State.Inv.empty : ({} : State J).Inv runs asks does where
  idle _ := rfl
  going _ h := by cases h
  past _ h := by cases h
  within := Nat.le_refl 0
  ahead _ h := by cases h
  last _ h := by cases h
  none_waits _ m job _ h := by cases h
  done m job h := by cases h

theorem State.Done.mono {s' : State J} {m : Nat} {a : A} (h : s.Done does m a)
    (hkeep : ∀ run, run ∈ s.finished ∨ s.running = some run → run ∈ s'.finished ∨ s'.running = some run) :
    s'.Done does m a := by
  obtain ⟨run, hrun, hle, hdoes⟩ := h
  exact ⟨run, hkeep run hrun, hle, hdoes⟩

theorem State.Inv.getElem?_started (h : s.Inv runs asks does) {job job' : J} {m : Nat} (hlt : m < s.started)
    (hm : (s.submitted ++ [job])[m]? = some job') : s.submitted[m]? = some job' := by
  rwa [List.getElem?_append_left (Nat.lt_of_lt_of_le hlt h.within)] at hm

theorem State.Inv.within_submit (h : s.Inv runs asks does) (job : J) :
    s.started ≤ (s.submitted ++ [job]).length := by
  rw [List.length_append]
  exact Nat.le_trans h.within (Nat.le_add_right _ _)

theorem State.Inv.over (h : s.Inv runs asks does) {run : Run J} (hrunning : s.running = some run) :
    ∀ run' ∈ s.finished ++ [run], run'.index < s.started := by
  intro run' hrun
  rcases List.mem_append.mp hrun with hrun | hrun
  · exact h.past run' hrun
  · obtain rfl := List.mem_singleton.mp hrun
    exact h.going run' hrunning

theorem State.Done.finish {s' : State J} {run : Run J} {m : Nat} {a : A} (h : s.Done does m a)
    (hrunning : s.running = some run) (hfinished : s'.finished = s.finished ++ [run]) : s'.Done does m a := by
  refine h.mono fun run' hrun => Or.inl ?_
  rw [hfinished]
  rcases hrun with hrun | hrun
  · exact List.mem_append_left _ hrun
  · obtain rfl := Option.some.inj (hrunning.symm.trans hrun)
    simp

/-! ## One event -/

theorem State.Inv.submit_ignored (h : s.Inv runs asks does) {job : J} (hruns : runs job = false) :
    ({ s with submitted := s.submitted ++ [job] } : State J).Inv runs asks does := by
  refine { h with within := ?_, ahead := ?_, last := ?_, none_waits := ?_, done := ?_ }
  · exact h.within_submit job
  · intro run hrun
    obtain ⟨hle, hlt⟩ := h.ahead run hrun
    refine ⟨hle, ?_⟩
    simp only [List.length_append]
    omega
  · intro run hrun m job' hlt hm
    rcases getElem?_submit hm with hm | ⟨_, rfl⟩
    · exact h.last run hrun m job' hlt hm
    · exact hruns
  · intro hpending m job' hle hm
    rcases getElem?_submit hm with hm | ⟨_, rfl⟩
    · exact h.none_waits hpending m job' hle hm
    · exact hruns
  · intro m job' hlt hm a ha
    exact h.done m job' hlt (h.getElem?_started hlt hm) a ha

theorem State.Inv.submit_pending (h : s.Inv runs asks does) {run : Run J} (hrunning : s.running = some run) (job : J) :
    ({ s with submitted := s.submitted ++ [job], pending := some ⟨s.submitted.length, job⟩ } : State J).Inv
      runs asks does := by
  refine { h with idle := ?_, within := ?_, ahead := ?_, last := ?_, none_waits := ?_, done := ?_ }
  · intro hnone
    rw [hrunning] at hnone
    cases hnone
  · exact h.within_submit job
  · rintro _ ⟨⟩
    exact ⟨h.within, by simp⟩
  · rintro _ ⟨⟩ m job' hlt hm
    have hlen := (List.getElem?_eq_some_iff.mp hm).1
    simp only [List.length_append, List.length_singleton] at hlen hlt
    omega
  · intro hnone
    cases hnone
  · intro m job' hlt hm a ha
    exact h.done m job' hlt (h.getElem?_started hlt hm) a ha

theorem State.Inv.submit_started (h : s.Inv runs asks does) (hrunning : s.running = none) {job : J}
    (hcovers : ∀ (m : Nat) (job' : J), s.started ≤ m → (s.submitted ++ [job])[m]? = some job' →
      ∀ a, asks job' a → does job a) :
    ({ s with
        submitted := s.submitted ++ [job]
        running := some ⟨s.submitted.length, job⟩
        started := s.submitted.length + 1 } : State J).Inv runs asks does := by
  refine {
    idle := ?_, going := ?_, past := ?_, within := ?_, ahead := ?_, last := ?_, none_waits := ?_, done := ?_ }
  · intro hnone
    cases hnone
  · rintro _ ⟨⟩
    exact Nat.lt_succ_self _
  · intro run hrun
    have := h.past run hrun
    have := h.within
    simp only
    omega
  · simp
  · intro run hrun
    simp [h.idle hrunning] at hrun
  · intro run hrun
    simp [h.idle hrunning] at hrun
  · intro _ m job' hle hm
    have hlen := (List.getElem?_eq_some_iff.mp hm).1
    simp only [List.length_append, List.length_singleton] at hlen hle
    omega
  · intro m job' hlt hm a ha
    by_cases hold : m < s.started
    · refine (h.done m job' hold (h.getElem?_started hold hm) a ha).mono fun run hrun => ?_
      rcases hrun with hrun | hrun
      · exact Or.inl hrun
      · rw [hrunning] at hrun
        cases hrun
    · exact ⟨⟨s.submitted.length, job⟩, Or.inr rfl, by simp only at hlt ⊢; omega,
        hcovers m job' (by omega) hm a ha⟩

theorem State.Inv.finish_last (h : s.Inv runs asks does) {run : Run J} (hrunning : s.running = some run)
    (hpending : s.pending = none) :
    ({ s with running := none, finished := s.finished ++ [run] } : State J).Inv runs asks does := by
  refine { h with idle := fun _ => hpending, going := ?_, past := ?_, done := ?_ }
  · intro run' hnone
    cases hnone
  · exact h.over hrunning
  · intro m job hlt hm a ha
    exact (h.done m job hlt hm a ha).finish hrunning rfl

theorem State.Inv.finish_next (h : s.Inv runs asks does) {run next : Run J} (hrunning : s.running = some run)
    (hpending : s.pending = some next)
    (hcovers : ∀ (m : Nat) (job : J), s.started ≤ m → s.submitted[m]? = some job → ∀ a, asks job a → does next.job a) :
    ({ s with
        running := some next
        pending := none
        finished := s.finished ++ [run]
        started := next.index + 1 } : State J).Inv runs asks does := by
  obtain ⟨hahead, hwithin⟩ := h.ahead next hpending
  refine {
    idle := ?_, going := ?_, past := ?_, within := hwithin, ahead := ?_, last := ?_, none_waits := ?_, done := ?_ }
  · intro hnone
    cases hnone
  · rintro _ ⟨⟩
    exact Nat.lt_succ_self _
  · exact fun run' hrun => Nat.lt_of_lt_of_le (h.over hrunning run' hrun) (Nat.le_succ_of_le hahead)
  · intro run' hnone
    cases hnone
  · intro run' hnone
    cases hnone
  · intro _ m job hle hm
    exact h.last next hpending m job hle hm
  · intro m job hlt hm a ha
    by_cases hold : m < s.started
    · exact (h.done m job hold hm a ha).finish hrunning rfl
    · exact ⟨next, Or.inr rfl, Nat.lt_succ_iff.mp hlt, hcovers m job (by omega) hm a ha⟩

theorem step_ignored {job : J} (hruns : runs job = false) :
    step runs s (.submit job) = { s with submitted := s.submitted ++ [job] } := by
  simp [step, State.submit, hruns]

theorem step_waits {job : J} {run : Run J} (hruns : runs job = true) (hrunning : s.running = some run) :
    step runs s (.submit job) =
      { s with submitted := s.submitted ++ [job], pending := some ⟨s.submitted.length, job⟩ } := by
  simp [step, State.submit, hruns, hrunning]

theorem step_starts {job : J} (hruns : runs job = true) (hrunning : s.running = none) :
    step runs s (.submit job) =
      { s with
        submitted := s.submitted ++ [job]
        running := some ⟨s.submitted.length, job⟩
        started := s.submitted.length + 1 } := by
  simp [step, State.submit, hruns, hrunning]

theorem step_idle (hrunning : s.running = none) : step runs s .finish = s := by
  simp [step, State.finish, hrunning]

theorem step_last {run : Run J} (hrunning : s.running = some run) (hpending : s.pending = none) :
    step runs s .finish = { s with running := none, finished := s.finished ++ [run] } := by
  simp [step, State.finish, hrunning, hpending]

theorem step_next {run next : Run J} (hrunning : s.running = some run) (hpending : s.pending = some next) :
    step runs s .finish =
      { s with
        running := some next
        pending := none
        finished := s.finished ++ [run]
        started := next.index + 1 } := by
  simp [step, State.finish, hrunning, hpending]

theorem State.Inv.step (h : s.Inv runs asks does) {e : Event J}
    (hcovers : Covers runs asks does s e) : (Coalesce.step runs s e).Inv runs asks does := by
  cases e with
  | submit job =>
      cases hruns : runs job with
      | false =>
          rw [step_ignored hruns]
          exact h.submit_ignored hruns
      | true =>
          cases hrunning : s.running with
          | some run =>
              rw [step_waits hruns hrunning]
              exact h.submit_pending hrunning job
          | none =>
              have hstart : s.starting runs (.submit job) = some ⟨s.submitted.length, job⟩ := by
                simp [State.starting, hruns, hrunning]
              have hcovers := hcovers _ hstart
              rw [step_starts hruns hrunning] at hcovers ⊢
              exact h.submit_started hrunning hcovers
  | finish =>
      cases hrunning : s.running with
      | none =>
          rw [step_idle hrunning]
          exact h
      | some run =>
          cases hpending : s.pending with
          | none =>
              rw [step_last hrunning hpending]
              exact h.finish_last hrunning hpending
          | some next =>
              have hstart : s.starting runs .finish = some next := by
                simp [State.starting, hrunning, hpending]
              have hcovers := hcovers _ hstart
              rw [step_next hrunning hpending] at hcovers ⊢
              exact h.finish_next hrunning hpending hcovers

/-- After a start nothing waits, and all that is over is older than what was asked for since the last start. -/
theorem State.Inv.of_starting (h : s.Inv runs asks does) {e : Event J} {run : Run J}
    (hstart : s.starting runs e = some run) :
    (Coalesce.step runs s e).pending = none ∧ (Coalesce.step runs s e).running = some run ∧
      ∀ run' ∈ (Coalesce.step runs s e).finished, run'.index < s.started := by
  cases e with
  | submit job =>
      simp only [State.starting] at hstart
      split at hstart
      · rename_i hboth
        obtain ⟨hruns, hidle⟩ := hboth
        have hrunning : s.running = none := Option.isNone_iff_eq_none.mp hidle
        obtain rfl := Option.some.inj hstart
        rw [step_starts hruns hrunning]
        exact ⟨h.idle hrunning, rfl, h.past⟩
      · cases hstart
  | finish =>
      cases hrunning : s.running with
      | none => simp [State.starting, hrunning] at hstart
      | some run₀ =>
          have hpending : s.pending = some run := by simpa [State.starting, hrunning] using hstart
          rw [step_next hrunning hpending]
          exact ⟨rfl, rfl, h.over hrunning⟩

theorem State.Inv.covers (h : s.Inv runs asks does) {e : Event J}
    (hserved : (Coalesce.step runs s e).Served asks does) : Covers runs asks does s e := by
  intro run hstart m job hle hm a ha
  obtain ⟨hpending, hrunning, hover⟩ := h.of_starting hstart
  obtain ⟨run', hrun, hindex, hdoes⟩ := hserved hpending m job hm a ha
  rcases hrun with hrun | hrun
  · have := hover run' hrun
    omega
  · obtain rfl := Option.some.inj (hrunning.symm.trans hrun)
    exact hdoes

/-! ## Runs -/

end Coalesce
