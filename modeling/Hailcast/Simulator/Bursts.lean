import Hailcast.Lib.EventRun
import Hailcast.Simulator.Lemmas

/-!
# Bursts run to their end

The calls of k6 and of the bursts: each is counted when it starts and once more when it is answered, a burst never
has more calls in flight than its semaphore lets through, and it cannot get stuck.
-/

namespace Hailcast

namespace RelayState

variable {settings : SimulatorSettings} {s : RelayState} {e : RelayEvent}

/-- The calls that wait for the semaphore of their burst. -/
def waiting (s : RelayState) : Nat := (s.bursts.map BurstTask.waiting).sum

def generated (s : RelayState) : Nat := s.service.state.generatedRequestCount

def answered (s : RelayState) : Nat := s.service.state.successCount + s.service.state.failCount

/-- The steps that are left for the calls that have been asked for. -/
def remaining (s : RelayState) : Nat := 2 * s.waiting + s.inFlight

/-- The calls that an event asks for. -/
def asks (settings : SimulatorSettings) : RelayEvent → Nat
  | .relayCall _ => 1
  | .burst count => SimulatorService.burstCount settings count
  | _ => 0

def IsReset : RelayEvent → Prop
  | .control op _ => op = .reset
  | _ => False

/-- The event asks for no call and clears no counter: it answers a call or lets one pass the semaphore. -/
def Advances : RelayEvent → Prop
  | .relayAnswer _ => True
  | .burstCall _ _ => True
  | .burstAnswer _ _ => True
  | _ => False

/-! ## One event -/

/-- What an event does to the calls: it changes none of them, or calls wait, start or are answered. -/
inductive Moves (settings : SimulatorSettings) (s : RelayState) (e : RelayEvent) (s' : RelayState) : Prop where
  | kept (hsame : Advances e → s' = s) (hask : asks settings e = 0) (hgenerated : s'.generated = s.generated)
      (hanswered : s'.answered = s.answered) (hwaiting : s'.waiting = s.waiting) (hflight : s'.inFlight = s.inFlight)
  | asked (hnew : ¬ Advances e) (hgenerated : s'.generated = s.generated) (hanswered : s'.answered = s.answered)
      (hwaiting : s'.waiting = s.waiting + asks settings e) (hflight : s'.inFlight = s.inFlight)
  | called (hnew : ¬ Advances e) (hask : asks settings e = 1) (hgenerated : s'.generated = s.generated + 1)
      (hanswered : s'.answered = s.answered) (hwaiting : s'.waiting = s.waiting)
      (hflight : s'.inFlight = s.inFlight + 1)
  | passed (hask : asks settings e = 0) (hgenerated : s'.generated = s.generated + 1)
      (hanswered : s'.answered = s.answered) (hwaiting : s'.waiting + 1 = s.waiting)
      (hflight : s'.inFlight = s.inFlight + 1)
  | answered (hask : asks settings e = 0) (hgenerated : s'.generated = s.generated)
      (hanswered : s'.answered = s.answered + 1) (hwaiting : s'.waiting = s.waiting)
      (hflight : s'.inFlight + 1 = s.inFlight)

theorem relayAnswer_counts (reply : RelayReply) (service : SimulatorService) :
    (service.relayAnswer reply).2.state.generatedRequestCount = service.state.generatedRequestCount ∧
      (service.relayAnswer reply).2.state.successCount + (service.relayAnswer reply).2.state.failCount =
        service.state.successCount + service.state.failCount + 1 := by
  cases reply with
  | failed => exact ⟨rfl, rfl⟩
  | answered status content =>
      simp only [SimulatorService.relayAnswer]
      split
      · exact ⟨rfl, by simp only [SimulatorState.recordSuccess]; omega⟩
      · split
        · exact ⟨rfl, by simp only [SimulatorState.recordSuccess]; omega⟩
        · exact ⟨rfl, rfl⟩

theorem waiting_set {bursts : List BurstTask} {task : Nat} {burst : BurstTask} (h : bursts[task]? = some burst)
    (burst' : BurstTask) :
    ((bursts.set task burst').map BurstTask.waiting).sum + burst.waiting =
      (bursts.map BurstTask.waiting).sum + burst'.waiting := by
  rw [List.map_set]
  exact sum_set_add (by simp [h]) _

theorem step_moves (settings : SimulatorSettings) (s : RelayState) (he : ¬ IsReset e) :
    Moves settings s e (s.step settings e) := by
  cases e with
  | control op env =>
      have hcounters := SimulatorService.step_counters settings s.service env he
      simp only [SimulatorState.counters, Prod.mk.injEq] at hcounters
      exact .kept (fun h => h.elim) rfl hcounters.1 (by simp only [answered, RelayState.step]; omega) rfl rfl
  | relayCall now =>
      refine .called id rfl rfl rfl rfl ?_
      simp only [RelayState.step, inFlight]
      omega
  | relayAnswer reply =>
      simp only [RelayState.step]
      split
      · obtain ⟨hgenerated, hanswered⟩ := relayAnswer_counts reply s.service
        refine .answered rfl hgenerated hanswered rfl ?_
        simp only [inFlight]
        omega
      · exact .kept (fun _ => rfl) rfl rfl rfl rfl rfl
  | burst count =>
      simp only [RelayState.step]
      split
      · rename_i hzero
        exact .kept (fun _ => rfl) hzero rfl rfl rfl rfl
      · exact .asked id rfl rfl (by simp [waiting, asks]) (by simp [inFlight])
  | burstCall task now =>
      simp only [RelayState.step]
      cases hb : s.bursts[task]? with
      | none => exact .kept (fun _ => rfl) rfl rfl rfl rfl rfl
      | some burst =>
          dsimp only
          split
          · rename_i hfree
            have hwaiting := waiting_set hb ⟨burst.waiting - 1, burst.inFlight + 1⟩
            have hflight := inFlight_set hb ⟨burst.waiting - 1, burst.inFlight + 1⟩
            refine .passed rfl rfl rfl ?_ ?_
            · simp only [waiting] at hwaiting ⊢
              omega
            · simp only [inFlight] at hflight ⊢
              omega
          · exact .kept (fun _ => rfl) rfl rfl rfl rfl rfl
  | burstAnswer task reply =>
      simp only [RelayState.step]
      cases hb : s.bursts[task]? with
      | none => exact .kept (fun _ => rfl) rfl rfl rfl rfl rfl
      | some burst =>
          dsimp only
          split
          · obtain ⟨hgenerated, hanswered⟩ := relayAnswer_counts reply s.service
            have hwaiting := waiting_set hb ⟨burst.waiting, burst.inFlight - 1⟩
            have hflight := inFlight_set hb ⟨burst.waiting, burst.inFlight - 1⟩
            refine .answered rfl hgenerated hanswered ?_ ?_
            · simp only [waiting] at hwaiting ⊢
              omega
            · simp only [inFlight] at hflight ⊢
              omega
          · exact .kept (fun _ => rfl) rfl rfl rfl rfl rfl

/-! ## The semaphore -/

/-- No burst has more calls in flight than its semaphore lets through. -/
def Bounded (settings : SimulatorSettings) (s : RelayState) : Prop :=
  ∀ burst ∈ s.bursts, burst.inFlight ≤ settings.burstConcurrency

theorem Bounded.set (h : s.Bounded settings) (burst : BurstTask) (hburst : burst.inFlight ≤ settings.burstConcurrency)
    (task : Nat) : ∀ other ∈ s.bursts.set task burst, other.inFlight ≤ settings.burstConcurrency := by
  intro other hother
  rcases List.mem_or_eq_of_mem_set hother with hold | rfl
  · exact h other hold
  · exact hburst

theorem Bounded.step (h : s.Bounded settings) (e : RelayEvent) : (s.step settings e).Bounded settings := by
  cases e with
  | control op env => exact h
  | relayCall now => exact h
  | relayAnswer reply =>
      simp only [RelayState.step]
      split <;> exact h
  | burst count =>
      simp only [RelayState.step]
      split
      · exact h
      · intro burst hburst
        rcases List.mem_append.mp hburst with hold | hnew
        · exact h burst hold
        · rw [List.mem_singleton.mp hnew]
          exact Nat.zero_le _
  | burstCall task now =>
      simp only [RelayState.step]
      cases hb : s.bursts[task]? with
      | none => exact h
      | some burst =>
          dsimp only
          split
          · rename_i hfree
            exact h.set ⟨burst.waiting - 1, burst.inFlight + 1⟩ hfree.2 task
          · exact h
  | burstAnswer task reply =>
      simp only [RelayState.step]
      cases hb : s.bursts[task]? with
      | none => exact h
      | some burst =>
          dsimp only
          split
          · have hle := h burst (List.mem_of_getElem? hb)
            exact h.set ⟨burst.waiting, burst.inFlight - 1⟩ ((Nat.sub_le _ _).trans hle) task
          · exact h

theorem bounded_run (settings : SimulatorSettings) (es : List RelayEvent) :
    (EventRun.run (RelayState.step settings) {} es).Bounded settings :=
  EventRun.run_invariant (fun _ e h => h.step e) (s := ({} : RelayState)) (by simp [Bounded]) es

/-! ## Progress -/

theorem Advances.not_reset (he : Advances e) : ¬ IsReset e := by
  cases e <;> simp_all [Advances, IsReset]

/-- An answer, or a call that passes the semaphore, is one of the steps that are left. -/
theorem step_remaining (he : Advances e) (hchange : s.step settings e ≠ s) :
    (s.step settings e).remaining + 1 = s.remaining := by
  cases step_moves settings s he.not_reset with
  | kept hsame => exact absurd (hsame he) hchange
  | asked hnew => exact absurd he hnew
  | called hnew => exact absurd he hnew
  | passed _ _ _ hwaiting hflight => simp only [remaining]; omega
  | answered _ _ _ hwaiting hflight => simp only [remaining]; omega

theorem exists_open (hrelayed : s.relayed = 0) (hrest : 0 < s.remaining) :
    ∃ (task : Nat) (burst : BurstTask), s.bursts[task]? = some burst ∧ (0 < burst.waiting ∨ 0 < burst.inFlight) := by
  by_contra hnone
  push Not at hnone
  have hempty : ∀ burst ∈ s.bursts, burst.waiting = 0 ∧ burst.inFlight = 0 := by
    intro burst hburst
    obtain ⟨task, htask⟩ := List.mem_iff_getElem?.mp hburst
    have h := hnone task burst htask
    omega
  have hwaiting : s.waiting = 0 := List.sum_eq_zero (by simpa using fun burst hb => (hempty burst hb).1)
  have hflight : (s.bursts.map BurstTask.inFlight).sum = 0 :=
    List.sum_eq_zero (by simpa using fun burst hb => (hempty burst hb).2)
  simp only [remaining, inFlight] at hrest
  omega

/-- As long as a call waits or is in flight, a call can pass its semaphore or be answered. -/
theorem exists_advance (hpos : 0 < settings.burstConcurrency) (hrest : 0 < s.remaining) :
    ∃ e, Advances e ∧ s.step settings e ≠ s := by
  rcases Nat.eq_zero_or_pos s.relayed with hrelayed | hrelayed
  · obtain ⟨task, burst, hb, hopen⟩ := exists_open hrelayed hrest
    have htask : task < s.bursts.length := (List.getElem?_eq_some_iff.mp hb).1
    by_cases hflight : 0 < burst.inFlight
    · refine ⟨.burstAnswer task .failed, trivial, fun hsame => ?_⟩
      have hset := congrArg (fun s : RelayState => s.bursts[task]?.map BurstTask.inFlight) hsame
      simp only [RelayState.step, hb, if_pos hflight, List.getElem?_set_self htask, Option.map_some,
        Option.some.injEq] at hset
      omega
    · have hfree : 0 < burst.waiting ∧ burst.inFlight < settings.burstConcurrency := by omega
      refine ⟨.burstCall task 0, trivial, fun hsame => ?_⟩
      have hset := congrArg (fun s : RelayState => s.bursts[task]?.map BurstTask.inFlight) hsame
      simp only [RelayState.step, hb, if_pos hfree, List.getElem?_set_self htask, Option.map_some,
        Option.some.injEq] at hset
      omega
  · refine ⟨.relayAnswer .failed, trivial, fun hsame => ?_⟩
    have hset := congrArg RelayState.relayed hsame
    simp only [RelayState.step, if_pos hrelayed] at hset
    omega

/-! ## Whole runs -/

theorem calls_run (settings : SimulatorSettings) (s : RelayState) {es : List RelayEvent}
    (hes : ∀ e ∈ es, ¬ IsReset e) {s' : RelayState} (hs' : s' = EventRun.run (RelayState.step settings) s es) :
    s'.generated + s'.waiting = s.generated + s.waiting + (es.map (asks settings)).sum ∧
      s'.answered + s'.inFlight + s.generated = s.answered + s.inFlight + s'.generated := by
  induction es generalizing s with
  | nil => simp [hs']
  | cons e es ih =>
      obtain ⟨hgenerated, hanswered⟩ := ih (s.step settings e) (fun f hf => hes f (by simp [hf])) hs'
      simp only [List.map_cons, List.sum_cons]
      cases step_moves settings s (hes e (by simp)) <;> omega

theorem remaining_run {es : List RelayEvent} (hes : ∀ e ∈ es, Advances e)
    (hchange : EventRun.Along (RelayState.step settings) (fun s e => s.step settings e ≠ s) s es) :
    es.length + (EventRun.run (RelayState.step settings) s es).remaining = s.remaining := by
  induction es generalizing s with
  | nil => simp
  | cons e es ih =>
      have hrest := ih (fun f hf => hes f (by simp [hf])) hchange.2
      have hstep := step_remaining (hes e (by simp)) hchange.1
      simp only [EventRun.run_cons, List.length_cons]
      omega

/-- Until the next reset no call is lost or counted twice, whichever events come in between, and no burst has more
calls in flight than its semaphore lets through. -/
theorem burst_calls_conserved (settings : SimulatorSettings) (pre es : List RelayEvent) (hes : ∀ e ∈ es, ¬ IsReset e) :
    let s := EventRun.run (RelayState.step settings) {} pre
    let s' := EventRun.run (RelayState.step settings) {} (pre ++ es)
    s'.generated + s'.waiting = s.generated + s.waiting + (es.map (asks settings)).sum ∧
      s'.answered + s'.inFlight + s.generated = s.answered + s.inFlight + s'.generated ∧
        s'.Bounded settings := by
  intro s s'
  have hs' : s' = EventRun.run (RelayState.step settings) s es := EventRun.run_append _ _ _ _
  obtain ⟨hgenerated, hanswered⟩ := calls_run settings s hes hs'
  exact ⟨hgenerated, hanswered, bounded_run settings _⟩

/-- Two bursts beside each other, the second one cut to the maximum, and a request of k6. -/
theorem burst_calls_conserved_two :
    let es : List RelayEvent := [.burst 2, .burst 20000, .burstCall 1 0, .relayCall 1, .burstCall 0 2,
      .burstAnswer 1 .failed, .control .increase {}, .relayAnswer (.answered 202 "")]
    let s := EventRun.run (RelayState.step {}) {} []
    let s' := EventRun.run (RelayState.step {}) {} ([] ++ es)
    s'.generated + s'.waiting = s.generated + s.waiting + (es.map (asks {})).sum ∧
      s'.answered + s'.inFlight + s.generated = s.answered + s.inFlight + s'.generated ∧ s'.Bounded {} :=
  burst_calls_conserved {} [] _ (by simp [IsReset])

/-- Once no call is asked for, the answers and the calls that pass their semaphore lead to the end, in whichever order
they come: each is one of the steps that are left, there is one as long as any is left, and at the end each call that
waited has been made and each call has been answered. -/
theorem bursts_finish (settings : SimulatorSettings) (hpos : 0 < settings.burstConcurrency) (pre es : List RelayEvent)
    (hes : ∀ e ∈ es, Advances e)
    (hchange : EventRun.Along (RelayState.step settings) (fun s e => s.step settings e ≠ s)
      (EventRun.run (RelayState.step settings) {} pre) es) :
    let s := EventRun.run (RelayState.step settings) {} pre
    let s' := EventRun.run (RelayState.step settings) {} (pre ++ es)
    es.length + s'.remaining = s.remaining ∧ (0 < s'.remaining → ∃ e, Advances e ∧ s'.step settings e ≠ s') ∧
      (s'.remaining = 0 → s'.generated = s.generated + s.waiting ∧
        s'.answered = s.answered + s.inFlight + s.waiting) := by
  intro s s'
  have hs' : s' = EventRun.run (RelayState.step settings) s es := EventRun.run_append _ _ _ _
  have hasks : (es.map (asks settings)).sum = 0 := by
    refine List.sum_eq_zero ?_
    simp only [List.mem_map, forall_exists_index, and_imp, forall_apply_eq_imp_iff₂]
    intro e he
    have hadv := hes e he
    cases e <;> simp_all [Advances, asks]
  obtain ⟨hgenerated, hanswered⟩ := calls_run settings s (fun e he => (hes e he).not_reset) hs'
  have hlength := remaining_run hes hchange
  rw [← hs'] at hlength
  refine ⟨hlength, exists_advance hpos, fun hdone => ?_⟩
  simp only [remaining] at hdone
  omega

/-- A burst of two calls, through a semaphore for one. -/
theorem bursts_finish_two :
    let settings : SimulatorSettings := { burstConcurrency := 1 }
    let es : List RelayEvent :=
      [.burstCall 0 0, .burstAnswer 0 .failed, .burstCall 0 1, .burstAnswer 0 (.answered 202 "")]
    let s := EventRun.run (RelayState.step settings) {} [.burst 2]
    let s' := EventRun.run (RelayState.step settings) {} ([.burst 2] ++ es)
    es.length + s'.remaining = s.remaining ∧ (0 < s'.remaining → ∃ e, Advances e ∧ s'.step settings e ≠ s') ∧
      (s'.remaining = 0 → s'.generated = s.generated + s.waiting ∧
        s'.answered = s.answered + s.inFlight + s.waiting) := by
  have hchange : ∀ {s s' : RelayState}, s.remaining ≠ s'.remaining → s ≠ s' := fun h heq => h (congrArg remaining heq)
  exact bursts_finish { burstConcurrency := 1 } Nat.one_pos [.burst 2] _ (by simp [Advances])
    ⟨hchange (by decide), hchange (by decide), hchange (by decide), hchange (by decide), trivial⟩

end RelayState

end Hailcast
