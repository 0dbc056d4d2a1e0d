import Hailcast.Retrain.Runs

/-!
# How many records a training gets

`continue_train` begins with the request for the frame of its batch, so a run calls it with a batch exactly when
it makes that request.
-/

namespace Hailcast

variable {env : RetrainEnv} {settings : RetrainTriggerSettings} {s : RetrainState} {force yes : Bool}

/-! ## The run that gets to the training -/

/-- The run calls `continue_train` with the batch. -/
def RetrainState.Trains (settings : RetrainTriggerSettings) (s : RetrainState) (env : RetrainEnv) (force yes : Bool)
    (batch : List DynamoItem) : Prop :=
  .trainingFrame batch ∈
    Prog.requests (RetrainState.handler env) (retrainMain settings force yes) { s with requests := 0 }

/-- No run without `--force` trains on too few records. -/
def RetrainState.TrainsEnough (settings : RetrainTriggerSettings) (s : RetrainState) : RetrainEvent → Prop
  | .put _ _ => True
  | .run env force yes =>
      force = false → ∀ batch, s.Trains settings env force yes batch → minRecordsForTraining ≤ batch.length

/-- The run is let through to the training: nothing raises before it, and the question is answered with yes. -/
structure RetrainEnv.LetsThrough (env : RetrainEnv) (yes : Bool) : Prop where
  interactive : yes = true ∨ env.isatty = true
  passes : env.Passes 0 (.scanAll :: questions yes)
  confirmed : (yes || answersYes env.answer) = true

/-- There are enough untrained records, of which some can be used, but too few of them. -/
def DynamoTable.FewUsable (table : DynamoTable) : Prop :=
  ∃ untrained, filterUntrained table.items = .ok untrained ∧ minRecordsForTraining ≤ untrained.length ∧
    splitUsable untrained ≠ [] ∧ (splitUsable untrained).length < minRecordsForTraining

/-- The run without `--force` finds such a table and is let through. -/
def RetrainState.CountsUnusable (s : RetrainState) : RetrainEvent → Prop
  | .put _ _ => False
  | .run env force yes => force = false ∧ s.table.FewUsable ∧ env.LetsThrough yes

namespace RetrainState

variable {α : Type} {n : Nat}

theorem requests_request (o : RetrainRequest) (f : o.Answer → RetrainM α) :
    Prog.requests (handler env) (retrainRequest o >>= f) (s.after n) =
      o :: Prog.requestsAfter (handler env) f (handler env o (s.after n)) := by
  rw [Prog.requests_bind, retrainRequest, Prog.requests_perform, Prog.exec_perform]
  rfl

/-- After a request that leaves the state the program goes on, unless it raises. -/
theorem mem_requests_quiet {o x : RetrainRequest} {a : o.Answer} {f : o.Answer → RetrainM α}
    (ha : (s.after (n + 1)).answer env o = (.ok a, s.after (n + 1))) (hx : x ≠ o) :
    x ∈ Prog.requests (handler env) (retrainRequest o >>= f) (s.after n) ↔
      env.fault n o = none ∧ x ∈ Prog.requests (handler env) (f a) (s.after (n + 1)) := by
  rw [requests_request]
  cases hf : env.fault n o with
  | some exc =>
      have hanswer : handler env o (s.after n) = (.error exc, s.after (n + 1)) := by simp [handler, after, hf]
      simp [hanswer, Prog.requestsAfter, hx]
  | none =>
      have hanswer : handler env o (s.after n) = (.ok a, s.after (n + 1)) := by
        rw [← ha]
        simp [handler, after, hf]
      simp [hanswer, Prog.requestsAfter, hx]

theorem mem_requests_confirmed {x : RetrainRequest} {f : Bool → RetrainM α} (htty : x ≠ .isatty) (hinput : x ≠ .input) :
    x ∈ Prog.requests (handler env) (confirmed yes >>= f) (s.after n) ↔
      (yes = true ∨ env.isatty = true) ∧ env.Passes n (questions yes) ∧
        x ∈ Prog.requests (handler env) (f (yes || answersYes env.answer))
          (s.after (n + (questions yes).length)) := by
  cases yes with
  | true => simp [confirmed, questions, RetrainEnv.Passes]
  | false =>
      rw [confirmed, if_neg (by simp), Prog.bind_assoc, mem_requests_quiet rfl htty]
      cases hisatty : env.isatty with
      | false => simp
      | true =>
          rw [if_pos rfl, Prog.bind_assoc, mem_requests_quiet rfl hinput]
          simp [questions, RetrainEnv.Passes, and_assoc]

def NotFrame (o : RetrainRequest) : Prop := ∀ batch, o ≠ .trainingFrame batch

theorem notFrame_request {o : RetrainRequest} (ho : NotFrame o) : (retrainRequest o).All NotFrame := Prog.All.perform ho

theorem notFrame_uploadContinuedModel (model : Model) (report : FitReport) (count : Nat) :
    (uploadContinuedModel model report settings count).All NotFrame := by
  refine (notFrame_request (by simp [NotFrame])).bind fun _ => ?_
  split
  · refine (notFrame_request (by simp [NotFrame])).bind fun _ => ?_
    exact (notFrame_request (by simp [NotFrame])).bind fun _ => notFrame_request (by simp [NotFrame])
  · trivial

theorem notFrame_markUsedAsTrained (items : List DynamoItem) : (markUsedAsTrained items).All NotFrame := by
  refine Prog.All.forEach (fun item => ?_) items
  unfold markTrained
  split
  · exact notFrame_request (by simp [NotFrame])
  · trivial

/-- A training begins with the frame of its batch, and asks for no other one. -/
theorem retrain_eq (settings : RetrainTriggerSettings) (usable : List DynamoItem) :
    ∃ rest : Unit → RetrainM Unit, retrain settings usable = retrainRequest (.trainingFrame usable) >>= rest ∧
      ∀ u, (rest u).All NotFrame := by
  refine ⟨_, by rw [retrain, continueTrain, Prog.bind_assoc], fun _ => ?_⟩
  refine Prog.All.bind ?_ fun fitted => ?_
  · refine (notFrame_request (by simp [NotFrame])).bind fun base => ?_
    refine (notFrame_request (by simp [NotFrame])).bind fun report => ?_
    split <;> trivial
  · exact (notFrame_uploadContinuedModel _ _ _).bind fun _ => notFrame_markUsedAsTrained usable

theorem mem_requests_retrain {batch usable : List DynamoItem} :
    .trainingFrame batch ∈ Prog.requests (handler env) (retrain settings usable) s ↔ batch = usable := by
  obtain ⟨rest, heq, hrest⟩ := retrain_eq settings usable
  rw [heq, Prog.requests_bind, retrainRequest, Prog.requests_perform, List.singleton_append, List.mem_cons]
  constructor
  · rintro (hframe | hlater)
    · exact RetrainRequest.trainingFrame.inj hframe
    · rcases he : Prog.exec (handler env) (Prog.perform (.trainingFrame usable)) s with ⟨exc | u, s'⟩
      · rw [he] at hlater
        cases hlater
      · rw [he] at hlater
        exact absurd rfl ((hrest u).requests _ hlater batch)
  · rintro rfl
    exact Or.inl rfl

/-! ## The batch of a run -/

/-- Which batch a run trains on, if it gets to the training. -/
theorem trains_iff {batch : List DynamoItem} :
    s.Trains settings env force yes batch ↔
      ∃ untrained, filterUntrained s.table.items = .ok untrained ∧ batch = splitUsable untrained ∧
        (minRecordsForTraining ≤ untrained.length ∨ force = true) ∧ splitUsable untrained ≠ [] ∧
        env.LetsThrough yes := by
  unfold Trains retrainMain
  change _ ∈ Prog.requests (handler env) _ (s.after 0) ↔ _
  rw [mem_requests_quiet rfl (by simp)]
  change _ ∧ _ ∈ Prog.requests (handler env) (Prog.ofExcept (filterUntrained s.table.items) >>= _) _ ↔ _
  cases huntrained : filterUntrained s.table.items with
  | error exc => simp
  | ok untrained =>
      have honly : (∃ untrained', Except.ok (ε := PyError) untrained = .ok untrained' ∧ batch = splitUsable untrained' ∧
          (minRecordsForTraining ≤ untrained'.length ∨ force = true) ∧ splitUsable untrained' ≠ [] ∧
          env.LetsThrough yes) ↔ batch = splitUsable untrained ∧
          (minRecordsForTraining ≤ untrained.length ∨ force = true) ∧ splitUsable untrained ≠ [] ∧
          env.LetsThrough yes := by
        simp
      rw [honly, Prog.ofExcept_ok, Prog.ret_bind]
      by_cases hfew : untrained.length < minRecordsForTraining ∧ ¬ force = true
      · rw [if_pos hfew]
        simp only [Prog.pure_eq, Prog.requests_ret, List.not_mem_nil, and_false, false_iff]
        rintro ⟨_, hmany | hforce, _⟩
        · omega
        · exact hfew.2 hforce
      · have hmany : minRecordsForTraining ≤ untrained.length ∨ force = true := by
          by_contra hno
          rw [not_or] at hno
          exact hfew ⟨not_le.mp hno.1, hno.2⟩
        rw [if_neg hfew]
        by_cases hempty : splitUsable untrained = []
        · simp [hempty]
        · have hcheck : ¬ (splitUsable untrained).isEmpty = true := by simpa using hempty
          simp only [hcheck]
          rw [if_neg (by simp), mem_requests_confirmed (by simp) (by simp)]
          cases hgo : yes || answersYes env.answer with
          | false =>
              simp only [Bool.false_eq_true, ↓reduceIte, Prog.pure_eq, Prog.requests_ret, List.not_mem_nil, and_false,
                false_iff]
              rintro ⟨_, _, _, hlets⟩
              exact absurd (hgo.symm.trans hlets.confirmed) (by decide)
          | true =>
              rw [if_pos rfl, mem_requests_retrain]
              constructor
              · rintro ⟨hscan, htty, hquestions, rfl⟩
                exact ⟨rfl, hmany, hempty, htty, ⟨hscan, hquestions⟩, hgo⟩
              · rintro ⟨rfl, _, _, hlets⟩
                exact ⟨hlets.passes.1, hlets.interactive, hlets.passes.2, rfl⟩

/-- A run trains on enough records exactly if it does not count records that it cannot use. -/
theorem trainsEnough_iff (settings : RetrainTriggerSettings) (s : RetrainState) (e : RetrainEvent) :
    s.TrainsEnough settings e ↔ ¬ s.CountsUnusable e := by
  cases e with
  | put key attributes => simp [TrainsEnough, CountsUnusable]
  | run env force yes =>
      constructor
      · rintro h ⟨rfl, ⟨untrained, huntrained, hmany, hsome, hfew⟩, hlets⟩
        have htrains : s.Trains settings env false yes (splitUsable untrained) :=
          trains_iff.mpr ⟨untrained, huntrained, rfl, Or.inl hmany, hsome, hlets⟩
        exact absurd (h rfl _ htrains) (not_le.mpr hfew)
      · rintro h rfl batch htrains
        obtain ⟨untrained, huntrained, rfl, hmany, hsome, hlets⟩ := trains_iff.mp htrains
        by_contra hfew
        exact h ⟨rfl, ⟨untrained, huntrained, hmany.resolve_right (by simp), hsome, not_le.mp hfew⟩, hlets⟩

end RetrainState

end Hailcast
