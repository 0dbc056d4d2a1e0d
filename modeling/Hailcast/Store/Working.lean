import Hailcast.Store.Lemmas

/-!
# A store whose requests all answer
-/

namespace Hailcast

/-- No request of the operation fails. -/
def StoreEnv.Working (env : StoreEnv) : Prop := ∀ o, env.fault o = none

variable {env : StoreEnv} {s : S3State} {key : String}

/-- The keys of the objects with the prefix, in their order; a listing is the first thousand of them. -/
def S3State.keysWith (s : S3State) (pfx : String) : List String :=
  (s.objects.keys.filter (fun key => pfx.toList.isPrefixOf key.toList)).mergeSort (fun a b => decide (a ≤ b))

theorem S3State.listObjects_eq_take (s : S3State) (pfx : String) : s.listObjects pfx = (s.keysWith pfx).take 1000 :=
  rfl

theorem S3State.mem_keysWith {key pfx : String} :
    key ∈ s.keysWith pfx ↔ key ∈ s.objects.keys ∧ pfx.toList.isPrefixOf key.toList = true := by
  simp [keysWith]

def loadBlob : Option Blob → Except PyError (Option Json)
  | some blob => blob.loads.map some
  | none => .ok none

namespace S3State

/-- The object holds a list; an absent one stands for the empty list. -/
def StoredList (s : S3State) (key : String) (entries : List Json) : Prop :=
  s.objects.get? key = some (.json (.arr entries)) ∨ s.objects.get? key = none ∧ entries = []

theorem StoredList.load {entries : List Json} (h : s.StoredList key entries) (exc : PyError) :
    ∃ body, loadBlob (s.objects.get? key) = .ok body ∧ listOrEmpty exc body = .ok entries := by
  rcases h with h | ⟨h, rfl⟩
  · refine ⟨some (.arr entries), by rw [h]; rfl, ?_⟩
    cases entries <;> rfl
  · exact ⟨none, by rw [h]; rfl, rfl⟩

theorem handler_working (h : env.Working) (o : StoreRequest) (s : S3State) :
    S3State.handler env o s = s.answer env o := by
  unfold handler
  rw [h o]

theorem exec_downloadText_answered (hget : env.fault (.getObject key) = none) {blob : Blob}
    (hb : s.objects.get? key = some blob) : s.exec env (S3Adapter.downloadText key) = (.ok blob, s) := by
  unfold exec S3Adapter.downloadText S3Adapter.wrap
  rw [Prog.tryCatch_eq, Prog.exec_tryCatch]
  unfold storeRequest
  rw [Prog.exec_perform, handler]
  simp [hget, answer, hb]

theorem exec_readText_answered (hhead : env.fault (.headObject key) = none) (hget : env.fault (.getObject key) = none)
    (s : S3State) : s.exec env (FileStore.readText key) = (.ok (s.objects.get? key), s) := by
  have hexists := exec_exists env key s
  rw [hhead] at hexists
  unfold exec at hexists
  unfold exec FileStore.readText
  rw [Prog.exec_bind, hexists]
  cases hb : s.objects.get? key with
  | none => rfl
  | some blob =>
      have hdown := exec_downloadText_answered hget hb
      unfold exec at hdown
      simp only [Option.isSome_some, ↓reduceIte, Prog.exec_bind, hdown]
      rfl

/-- A read needs an answer to its HEAD and to its GET. -/
theorem exec_readJson_answered (hhead : env.fault (.headObject key) = none) (hget : env.fault (.getObject key) = none)
    (s : S3State) : s.exec env (FileStore.readJson key) = (loadBlob (s.objects.get? key), s) := by
  have htext := exec_readText_answered hhead hget s
  unfold exec at htext
  unfold exec FileStore.readJson
  rw [Prog.exec_bind, htext]
  cases s.objects.get? key with
  | none => rfl
  | some blob =>
      simp only [Prog.exec_bind, Prog.exec_ofExcept, loadBlob]
      cases blob.loads <;> rfl

theorem exec_readJson_working (h : env.Working) (s : S3State) (key : String) :
    s.exec env (FileStore.readJson key) = (loadBlob (s.objects.get? key), s) :=
  exec_readJson_answered (h _) (h _) s

theorem exec_listKeys_working (h : env.Working) (s : S3State) (pfx : String) :
    s.exec env (S3Adapter.listKeys pfx) = (.ok (s.listObjects pfx), s) := by
  unfold exec S3Adapter.listKeys S3Adapter.wrap
  rw [Prog.tryCatch_eq, Prog.exec_tryCatch]
  unfold storeRequest
  rw [Prog.exec_perform, handler_working h]
  rfl

theorem exec_ensureBucket_working (h : env.Working) (autoCreate : Bool) (s : S3State) :
    ∃ b, s.exec env (S3Adapter.ensureBucket autoCreate) = (.ok (), { s with ensured := b }) := by
  obtain ⟨objects, ensured⟩ := s
  unfold exec S3Adapter.ensureBucket storeRequest
  cases autoCreate with
  | false => exact ⟨ensured, rfl⟩
  | true =>
      refine ⟨true, ?_⟩
      simp only [↓reduceIte, Prog.exec_bind, Prog.exec_perform, handler_working h, answer]
      cases ensured with
      | true => rfl
      | false =>
          simp only [Bool.false_eq_true, ↓reduceIte, Prog.tryCatch_eq, Prog.exec_bind, Prog.exec_tryCatch,
            Prog.exec_perform, handler_working h, answer]

theorem exec_uploadText_working (h : env.Working) (autoCreate : Bool) (key : String) (body : Blob) (s : S3State) :
    ∃ b, s.exec env (S3Adapter.uploadText autoCreate key body) = (.ok (), ⟨s.objects.set key body, b⟩) := by
  obtain ⟨b, hensure⟩ := exec_ensureBucket_working h autoCreate s
  refine ⟨b, ?_⟩
  unfold exec at hensure
  unfold exec S3Adapter.uploadText S3Adapter.wrap storeRequest
  rw [Prog.tryCatch_eq, Prog.exec_tryCatch, Prog.exec_bind, hensure]
  simp only [Prog.exec_perform, handler_working h, answer]

theorem exec_writeJson_working (h : env.Working) (autoCreate : Bool) (key : String) (data : Json) (s : S3State) :
    (s.exec env (FileStore.writeJson autoCreate key data)).1 = .ok () := by
  obtain ⟨b, hupload⟩ := exec_uploadText_working h autoCreate key (.json data) s
  exact congrArg Prod.fst hupload

end S3State

end Hailcast
