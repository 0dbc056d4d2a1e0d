import Hailcast.Loader.Lemmas

/-!
# The model and its version

Over every interleaving of the loaders with the trainings, whose uploads may be aborted anywhere.
-/

namespace Hailcast

open Concurrent

/-- The state after a run over an empty bucket. -/
def modelRun (ι κ : Type) [DecidableEq ι] [DecidableEq κ] (modelPrefix cacheDir : ι → String) (jobs : κ → TrainJob)
    (events : List (Event (ModelThread ι κ) ModelChoice Empty)) : ModelState ι κ :=
  (EventRun.run (modelSystem ι κ modelPrefix cacheDir jobs).step (System.initial {}) events).shared

/-- Events that the threads can make, with undisturbed downloads and distinct versions. -/
def ModelRunAllowed (ι κ : Type) [DecidableEq ι] [DecidableEq κ] (modelPrefix cacheDir : ι → String)
    (jobs : κ → TrainJob) (events : List (Event (ModelThread ι κ) ModelChoice Empty)) : Prop :=
  EventRun.Along (modelSystem ι κ modelPrefix cacheDir jobs).step
    (modelSystem ι κ modelPrefix cacheDir jobs).Allowed (System.initial {}) events

instance (ι κ : Type) [DecidableEq ι] [DecidableEq κ] (modelPrefix cacheDir : ι → String) (jobs : κ → TrainJob)
    (events : List (Event (ModelThread ι κ) ModelChoice Empty)) :
    Decidable (ModelRunAllowed ι κ modelPrefix cacheDir jobs events) :=
  haveI (t : ModelThread ι κ) (o : ModelRequest) (c : ModelChoice) (s : ModelState ι κ) :
      Decidable ((modelSystem ι κ modelPrefix cacheDir jobs).allow t o c s) :=
    inferInstanceAs (Decidable (s.undisturbed t o = true))
  inferInstanceAs (Decidable (EventRun.Along _ _ _ _))

theorem modelState_inv (ι κ : Type) : ModelState.Inv ({} : ModelState ι κ) where
  models _ _ h := by cases h
  metadata _ _ h := by cases h
  files _ _ h := by cases h
  cached _ _ h := by cases h
  delivered _ h := by cases h
  unique _ h := by cases h

/-- If no download of a model comes after another model has been uploaded than the one that the metadata belongs
to, every pair that `load_latest` returns is of one upload, the only one with its version. -/
theorem loader_pairs_match (ι κ : Type) [DecidableEq ι] [DecidableEq κ] (modelPrefix cacheDir : ι → String)
    (jobs : κ → TrainJob) (events : List (Event (ModelThread ι κ) ModelChoice Empty))
    (h : ModelRunAllowed ι κ modelPrefix cacheDir jobs events) :
    let s := modelRun ι κ modelPrefix cacheDir jobs events
    ∀ pair ∈ s.delivered, ∃ model metadata, pair = (some model, some metadata) ∧
      ⟨metadata.version, model⟩ ∈ s.uploads ∧
      ∀ upload ∈ s.uploads, upload.version = metadata.version → upload.model = model := by
  intro s pair hpair
  have hgood : (modelSystem ι κ modelPrefix cacheDir jobs).Good (System.initial {}) :=
    System.good_initial (modelState_inv ι κ) fun _ _ _ _ => trivial
  have hinv : s.Inv := (System.good_run modelSystem_sound hgood h).1
  obtain ⟨model, metadata, hpair, hmem⟩ := hinv.delivered pair hpair
  exact ⟨model, metadata, hpair, hmem, fun upload hu hversion => hinv.unique upload hu _ hmem hversion⟩

/-- Two trainings, of different models. -/
def twoTrainings (k : Bool) : TrainJob :=
  .train (.scratch (.trained (if k then 2 else 1))) 1 1 { mlS3UploadEnabled := true }

/-- Training `k` starts and makes `steps` requests, at second `k`. -/
def trainerSteps (k : Bool) (steps : Nat) : List (Event (ModelThread Unit Bool) ModelChoice Empty) :=
  .start (.trainer k) :: List.replicate steps (.act (.trainer k) { time := if k then 2000000 else 1000000 })

def loaderSteps (steps : Nat) : List (Event (ModelThread Unit Bool) ModelChoice Empty) :=
  List.replicate steps (.act (.loader ()) {})

theorem loader_pairs_match_twice :
    let s := modelRun Unit Bool (fun _ => "models") (fun _ => "/tmp") twoTrainings
      (trainerSteps false 3 ++ .start (.loader ()) :: loaderSteps 8 ++ trainerSteps true 3 ++
        .start (.loader ()) :: loaderSteps 8)
    s.delivered.length = 2 ∧ ∀ pair ∈ s.delivered, ∃ model metadata, pair = (some model, some metadata) ∧
      ⟨metadata.version, model⟩ ∈ s.uploads ∧
      ∀ upload ∈ s.uploads, upload.version = metadata.version → upload.model = model := by
  refine ⟨rfl, loader_pairs_match Unit Bool (fun _ => "models") (fun _ => "/tmp") twoTrainings _ ?_⟩
  decide +kernel

/-- The second model is uploaded between the two downloads of a load, and its metadata afterwards: the load returns the
second model under the version of the first. -/
theorem loader_returns_other_model :
    let s := modelRun Unit Bool (fun _ => "models") (fun _ => "/tmp") twoTrainings
      (trainerSteps false 3 ++ .start (.loader ()) :: loaderSteps 1 ++ trainerSteps true 2 ++ loaderSteps 7 ++
        [.act (.trainer true) {}])
    s.uploads = [⟨.trained 1, .scratch (.trained 1)⟩, ⟨.trained 2, .scratch (.trained 2)⟩] ∧
      s.delivered = [(some (.scratch (.trained 2)), some (.trained ⟨.trained 1, 1, 1⟩))] ∧
      ¬ ∀ pair ∈ s.delivered, ∃ model metadata, pair = (some model, some metadata) ∧
        ⟨metadata.version, model⟩ ∈ s.uploads := by
  intro s
  have huploads : s.uploads = [⟨.trained 1, .scratch (.trained 1)⟩, ⟨.trained 2, .scratch (.trained 2)⟩] := rfl
  have hdelivered : s.delivered = [(some (.scratch (.trained 2)), some (.trained ⟨.trained 1, 1, 1⟩))] := rfl
  refine ⟨huploads, hdelivered, fun h => ?_⟩
  obtain ⟨model, metadata, hpair, hmem⟩ := h _ (by rw [hdelivered]; exact List.mem_singleton_self _)
  obtain ⟨hmodel, hmetadata⟩ := Prod.mk.inj hpair
  obtain rfl := Option.some.inj hmodel
  obtain rfl := Option.some.inj hmetadata
  rw [huploads] at hmem
  simp [StoredMetadata.version] at hmem

end Hailcast
