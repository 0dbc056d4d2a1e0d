import Mathlib.Data.List.Forall2
import Mathlib.Logic.Basic

/-!
# Programs over a signature of requests

A program is a tree of requests to its environment: a request `o : Op` is answered by a value of `Res o` or by
an exception, and the program goes on from the answer. Handlers give the requests a meaning, and `exec` runs a
program to its end.
-/

/-- Programs that make requests of `Op`, raise exceptions of `ε` and return a value of `α`. -/
inductive Prog (Op : Type) (Res : Op → Type) (ε α : Type) : Type where
  | ret (a : α)
  | raise (e : ε)
  | act (o : Op) (k : Except ε (Res o) → Prog Op Res ε α)

namespace Prog

variable {Op : Type} {Res : Op → Type} {ε α β γ σ : Type}

protected def bind : Prog Op Res ε α → (α → Prog Op Res ε β) → Prog Op Res ε β
  | .ret a, f => f a
  | .raise e, _ => .raise e
  | .act o k, f => .act o (fun r => (k r).bind f)

protected def tryCatch : Prog Op Res ε α → (ε → Prog Op Res ε α) → Prog Op Res ε α
  | .ret a, _ => .ret a
  | .raise e, h => h e
  | .act o k, h => .act o (fun r => (k r).tryCatch h)

instance : Monad (Prog Op Res ε) where
  pure := .ret
  bind := Prog.bind

instance : MonadExceptOf ε (Prog Op Res ε) where
  throw := .raise
  tryCatch := Prog.tryCatch

/-- One request; its exception, if any, is raised. -/
def perform (o : Op) : Prog Op Res ε (Res o) :=
  .act o (fun | .ok r => .ret r | .error e => .raise e)

def ofExcept : Except ε α → Prog Op Res ε α
  | .ok a => .ret a
  | .error e => .raise e

@[simp] theorem pure_eq (a : α) : (pure a : Prog Op Res ε α) = .ret a := rfl

@[simp] theorem throw_eq (e : ε) : (throw e : Prog Op Res ε α) = .raise e := rfl

@[simp] theorem ret_bind (a : α) (f : α → Prog Op Res ε β) : (.ret a >>= f) = f a := rfl

@[simp] theorem raise_bind (e : ε) (f : α → Prog Op Res ε β) : (.raise e >>= f) = .raise e := rfl

@[simp] theorem act_bind (o : Op) (k : Except ε (Res o) → Prog Op Res ε α) (f : α → Prog Op Res ε β) :
    (.act o k >>= f) = .act o (fun r => k r >>= f) := rfl

theorem bind_assoc (p : Prog Op Res ε α) (f : α → Prog Op Res ε β) (g : β → Prog Op Res ε γ) :
    (p >>= f) >>= g = p >>= fun a => f a >>= g := by
  induction p with
  | ret a => rfl
  | raise e => rfl
  | act o k ih => exact congrArg (Prog.act o) (funext ih)

@[simp] theorem tryCatch_eq (p : Prog Op Res ε α) (h : ε → Prog Op Res ε α) :
    tryCatch p h = Prog.tryCatch p h := rfl

@[simp] theorem ofExcept_ok (a : α) : (ofExcept (.ok a) : Prog Op Res ε α) = .ret a := rfl

@[simp] theorem ofExcept_error (e : ε) : (ofExcept (.error e) : Prog Op Res ε α) = .raise e := rfl

/-- The program over a larger signature. -/
def lift {Op' : Type} {Res' : Op' → Type} (f : Op → Op') (back : ∀ o, Res' (f o) → Res o) :
    Prog Op Res ε α → Prog Op' Res' ε α
  | .ret a => .ret a
  | .raise e => .raise e
  | .act o k => .act (f o) (fun r => lift f back (k (r.map (back o))))

section Lift

variable {Op' : Type} {Res' : Op' → Type} {f : Op → Op'} {back : ∀ o, Res' (f o) → Res o}

@[simp] theorem lift_ret (a : α) : lift f back (.ret a : Prog Op Res ε α) = .ret a := rfl

theorem lift_bind (p : Prog Op Res ε α) (g : α → Prog Op Res ε β) :
    lift f back (p >>= g) = lift f back p >>= fun a => lift f back (g a) := by
  induction p with
  | ret a => rfl
  | raise e => rfl
  | act o k ih => exact congrArg (Prog.act (f o)) (funext fun r => ih _)

theorem lift_perform (o : Op) :
    lift f back (perform o : Prog Op Res ε (Res o)) = perform (f o) >>= fun r => .ret (back o r) := by
  refine congrArg (Prog.act (f o)) (funext fun r => ?_)
  cases r <;> rfl

end Lift

def ended : Prog Op Res ε α → Bool
  | .act _ _ => false
  | _ => true

def returned : Prog Op Res ε α → Bool
  | .ret _ => true
  | _ => false

/-! ## Running a program -/

abbrev Handler (Op : Type) (Res : Op → Type) (ε σ : Type) := (o : Op) → σ → Except ε (Res o) × σ

def exec (h : Handler Op Res ε σ) : Prog Op Res ε α → σ → Except ε α × σ
  | .ret a, s => (.ok a, s)
  | .raise e, s => (.error e, s)
  | .act o k, s => exec h (k (h o s).1) (h o s).2

variable {h : Handler Op Res ε σ}

@[simp] theorem exec_ret (a : α) (s : σ) : exec h (.ret a : Prog Op Res ε α) s = (.ok a, s) := rfl

@[simp] theorem exec_raise (e : ε) (s : σ) : exec h (.raise e : Prog Op Res ε α) s = (.error e, s) := rfl

theorem exec_perform (o : Op) (s : σ) : exec h (perform o) s = h o s := by
  cases hr : h o s with
  | mk r s' => cases r <;> simp [perform, exec, hr]

theorem exec_ofExcept (r : Except ε α) (s : σ) : exec h (ofExcept r) s = (r, s) := by
  cases r <;> rfl

theorem exec_bind (p : Prog Op Res ε α) (f : α → Prog Op Res ε β) (s : σ) :
    exec h (p >>= f) s =
      match exec h p s with
      | (.ok a, s') => exec h (f a) s'
      | (.error e, s') => (.error e, s') := by
  induction p generalizing s with
  | ret a => rfl
  | raise e => rfl
  | act o k ih => exact ih _ _

theorem exec_tryCatch (p : Prog Op Res ε α) (g : ε → Prog Op Res ε α) (s : σ) :
    exec h (p.tryCatch g) s =
      match exec h p s with
      | (.ok a, s') => (.ok a, s')
      | (.error e, s') => exec h (g e) s' := by
  induction p generalizing s with
  | ret a => rfl
  | raise e => rfl
  | act o k ih => exact ih _ _

theorem exec_bind_ok {p : Prog Op Res ε α} {f : α → Prog Op Res ε β} {s s' : σ} {b : β}
    (hx : exec h (p >>= f) s = (.ok b, s')) :
    ∃ a s₁, exec h p s = (.ok a, s₁) ∧ exec h (f a) s₁ = (.ok b, s') := by
  rw [exec_bind] at hx
  split at hx
  · exact ⟨_, _, ‹_›, hx⟩
  · simp at hx

/-! ## Weakest preconditions -/

/-- From `s` the program returns with `P`, or raises with `Q`. -/
def wp (h : Handler Op Res ε σ) (p : Prog Op Res ε α) (P : α → σ → Prop) (Q : ε → σ → Prop) (s : σ) : Prop :=
  match exec h p s with
  | (.ok a, s') => P a s'
  | (.error e, s') => Q e s'

section WP

variable {P : α → σ → Prop} {Q : ε → σ → Prop} {s : σ}

@[simp] theorem wp_ret (a : α) : wp h (.ret a) P Q s ↔ P a s := Iff.rfl

@[simp] theorem wp_raise (e : ε) : wp h (.raise e) P Q s ↔ Q e s := Iff.rfl

theorem wp_bind (p : Prog Op Res ε β) (f : β → Prog Op Res ε α) :
    wp h (p >>= f) P Q s ↔ wp h p (fun b => wp h (f b) P Q) Q s := by
  unfold wp
  rw [exec_bind]
  rcases exec h p s with ⟨_ | _, _⟩ <;> rfl

theorem wp_tryCatch (p : Prog Op Res ε α) (g : ε → Prog Op Res ε α) :
    wp h (p.tryCatch g) P Q s ↔ wp h p P (fun e => wp h (g e) P Q) s := by
  unfold wp
  rw [exec_tryCatch]
  rcases exec h p s with ⟨_ | _, _⟩ <;> rfl

theorem wp_perform (o : Op) {P : Res o → σ → Prop} :
    wp h (perform o) P Q s ↔ match h o s with
      | (.ok r, s') => P r s'
      | (.error e, s') => Q e s' := by
  unfold wp
  rw [exec_perform]
  rcases h o s with ⟨_ | _, _⟩ <;> rfl

theorem wp_returns_iff (p : Prog Op Res ε α) :
    wp h p P (fun _ _ => False) s ↔ ∃ a s', exec h p s = (.ok a, s') ∧ P a s' := by
  unfold wp
  cases exec h p s with
  | mk r s' => cases r <;> simp

theorem wp_bind_ofExcept {r : Except ε β} {f : β → Prog Op Res ε α} :
    wp h (ofExcept r >>= f) P Q s ↔ (∀ b, r = .ok b → wp h (f b) P Q s) ∧ ∀ e, r = .error e → Q e s := by
  cases r <;> simp

theorem wp.mono {P' : α → σ → Prop} {Q' : ε → σ → Prop} {p : Prog Op Res ε α} (hp : wp h p P Q s)
    (hP : ∀ a s', P a s' → P' a s') (hQ : ∀ e s', Q e s' → Q' e s') : wp h p P' Q' s := by
  unfold wp at hp ⊢
  split at hp
  · exact hP _ _ hp
  · exact hQ _ _ hp

/-- The rest of a program from what its first part is known to return. -/
theorem wp.bind {p : Prog Op Res ε β} {f : β → Prog Op Res ε α} {P' : β → σ → Prop} (hp : wp h p P' Q s)
    (hf : ∀ b s', P' b s' → wp h (f b) P Q s') : wp h (p >>= f) P Q s :=
  (wp_bind p f).mpr (hp.mono hf fun _ _ he => he)

end WP

/-! ## Loops -/

/-- `for x in xs: f x`. -/
def forEach (f : α → Prog Op Res ε Unit) : List α → Prog Op Res ε Unit
  | [] => .ret ()
  | x :: xs => f x >>= fun _ => forEach f xs

def foldEach (f : β → α → Prog Op Res ε β) : β → List α → Prog Op Res ε β
  | b, [] => .ret b
  | b, x :: xs => f b x >>= fun b' => foldEach f b' xs

/-- A loop whose body only reads the state it starts from is a fold. -/
theorem exec_foldEach {f : β → α → Prog Op Res ε β} {g : β → α → Except ε β} {s : σ}
    (hf : ∀ b x, exec h (f b x) s = (g b x, s)) (xs : List α) (b : β) :
    exec h (foldEach f b xs) s = (xs.foldlM g b, s) := by
  induction xs generalizing b with
  | nil => rfl
  | cons x xs ih =>
      simp only [foldEach, exec_bind, hf, List.foldlM_cons]
      cases hg : g b x with
      | error e => rfl
      | ok b' => exact ih b'

/-- A loop that collects a result for each element has one for each of them, or stops at one that raises. -/
theorem exec_collect {f : α → Prog Op Res ε β} {g : α → Except ε β} {s : σ} (hf : ∀ x, exec h (f x) s = (g x, s))
    (xs : List α) (acc : List β) :
    (∃ ys, exec h (foldEach (fun acc x => f x >>= fun y => .ret (acc ++ [y])) acc xs) s = (.ok (acc ++ ys), s) ∧
        List.Forall₂ (fun x y => g x = .ok y) xs ys) ∨
      ∃ x ∈ xs, ∃ e, g x = .error e ∧
        exec h (foldEach (fun acc x => f x >>= fun y => .ret (acc ++ [y])) acc xs) s = (.error e, s) := by
  induction xs generalizing acc with
  | nil => exact Or.inl ⟨[], by simp [foldEach], .nil⟩
  | cons x xs ih =>
      simp only [foldEach, exec_bind, hf]
      cases hg : g x with
      | error e => exact Or.inr ⟨x, by simp, e, hg, rfl⟩
      | ok y =>
          rcases ih (acc ++ [y]) with ⟨ys, hexec, hall⟩ | ⟨x', hx', e, he, hexec⟩
          · refine Or.inl ⟨y :: ys, ?_, .cons hg hall⟩
            simpa using hexec
          · exact Or.inr ⟨x', List.mem_cons_of_mem _ hx', e, he, hexec⟩

/-! ## Programs that make only certain requests -/

/-- Every request that the program can make has `P`. -/
def All (P : Op → Prop) : Prog Op Res ε α → Prop
  | .ret _ => True
  | .raise _ => True
  | .act o k => P o ∧ ∀ r, (k r).All P

section All

variable {P Q : Op → Prop}

theorem All.bind {p : Prog Op Res ε α} {f : α → Prog Op Res ε β} (hp : p.All P) (hf : ∀ a, (f a).All P) :
    (p >>= f).All P := by
  induction p with
  | ret a => exact hf a
  | raise e => trivial
  | act o k ih => exact ⟨hp.1, fun r => ih r (hp.2 r)⟩

theorem All.tryCatch {p : Prog Op Res ε α} {g : ε → Prog Op Res ε α} (hp : p.All P) (hg : ∀ e, (g e).All P) :
    (p.tryCatch g).All P := by
  induction p with
  | ret a => trivial
  | raise e => exact hg e
  | act o k ih => exact ⟨hp.1, fun r => ih r (hp.2 r)⟩

theorem All.perform {o : Op} (ho : P o) : (perform o : Prog Op Res ε (Res o)).All P :=
  ⟨ho, fun r => by cases r <;> trivial⟩

theorem All.ofExcept (r : Except ε α) : (ofExcept r : Prog Op Res ε α).All P := by
  cases r <;> trivial

theorem All.foldEach {f : β → α → Prog Op Res ε β} (hf : ∀ b a, (f b a).All P) (xs : List α) (b : β) :
    (foldEach f b xs).All P := by
  induction xs generalizing b with
  | nil => trivial
  | cons x xs ih => exact (hf b x).bind fun b' => ih b'

theorem All.forEach {f : α → Prog Op Res ε Unit} (hf : ∀ a, (f a).All P) (xs : List α) : (forEach f xs).All P := by
  induction xs with
  | nil => trivial
  | cons x xs ih => exact (hf x).bind fun _ => ih

theorem All.lift {Op' : Type} {Res' : Op' → Type} {f : Op → Op'} {back : ∀ o, Res' (f o) → Res o} {P : Op' → Prop}
    (hP : ∀ o, P (f o)) (p : Prog Op Res ε α) : (lift f back p).All P := by
  induction p with
  | ret a => trivial
  | raise e => trivial
  | act o k ih => exact ⟨hP o, fun r => ih _⟩

theorem All.imp (hPQ : ∀ o, P o → Q o) {p : Prog Op Res ε α} (hp : p.All P) : p.All Q := by
  induction p with
  | ret a => trivial
  | raise e => trivial
  | act o k ih => exact ⟨hPQ o hp.1, fun r => ih r (hp.2 r)⟩

/-- What the handler keeps at each of the requests, the program keeps. -/
theorem All.exec {I : σ → Prop} (hI : ∀ o s, P o → I s → I (h o s).2) {p : Prog Op Res ε α} (hp : p.All P) {s : σ}
    (hs : I s) : I (Prog.exec h p s).2 := by
  induction p generalizing s with
  | ret a => exact hs
  | raise e => exact hs
  | act o k ih => exact ih _ (hp.2 _) (hI o s hp.1 hs)

end All

/-! ## The exceptions of a program -/

/-- If every request `o` raises only what `R o` allows, then the program raises only exceptions with `E`. -/
def RaisesOnly (R : Op → ε → Prop) (E : ε → Prop) : Prog Op Res ε α → Prop
  | .ret _ => True
  | .raise e => E e
  | .act o k => (∀ a, (k (.ok a)).RaisesOnly R E) ∧ ∀ e, R o e → (k (.error e)).RaisesOnly R E

section RaisesOnly

variable {R : Op → ε → Prop} {E E' : ε → Prop}

theorem RaisesOnly.perform {o : Op} (ho : ∀ e, R o e → E e) : (perform o : Prog Op Res ε (Res o)).RaisesOnly R E :=
  ⟨fun _ => trivial, ho⟩

theorem RaisesOnly.bind {p : Prog Op Res ε α} {f : α → Prog Op Res ε β} (hp : p.RaisesOnly R E)
    (hf : ∀ a, (f a).RaisesOnly R E) : (p >>= f).RaisesOnly R E := by
  induction p with
  | ret a => exact hf a
  | raise e => exact hp
  | act o k ih => exact ⟨fun a => ih _ (hp.1 a), fun e he => ih _ (hp.2 e he)⟩

theorem RaisesOnly.tryCatch {p : Prog Op Res ε α} {g : ε → Prog Op Res ε α} (hp : p.RaisesOnly R E')
    (hg : ∀ e, E' e → (g e).RaisesOnly R E) : (p.tryCatch g).RaisesOnly R E := by
  induction p with
  | ret a => trivial
  | raise e => exact hg e hp
  | act o k ih => exact ⟨fun a => ih _ (hp.1 a), fun e he => ih _ (hp.2 e he)⟩

theorem RaisesOnly.exec (hh : ∀ o s e, (h o s).1 = .error e → R o e) {p : Prog Op Res ε α} (hp : p.RaisesOnly R E)
    {s s' : σ} {e : ε} (he : Prog.exec h p s = (.error e, s')) : E e := by
  induction p generalizing s with
  | ret a => cases he
  | raise e' =>
      cases he
      exact hp
  | act o k ih =>
      unfold Prog.exec at he
      cases hr : (h o s).1 with
      | ok a =>
          rw [hr] at he
          exact ih _ (hp.1 a) he
      | error e' =>
          rw [hr] at he
          exact ih _ (hp.2 e' (hh o s e' hr)) he

end RaisesOnly

/-! ## The requests of a run -/

/-- The requests that a run of the program makes, in their order. -/
def requests (h : Handler Op Res ε σ) : Prog Op Res ε α → σ → List Op
  | .ret _, _ => []
  | .raise _, _ => []
  | .act o k, s => o :: requests h (k (h o s).1) (h o s).2

section Requests

variable {P : Op → Prop}

@[simp] theorem requests_ret (a : α) (s : σ) : requests h (.ret a : Prog Op Res ε α) s = [] := rfl

@[simp] theorem requests_raise (e : ε) (s : σ) : requests h (.raise e : Prog Op Res ε α) s = [] := rfl

/-- The requests of the rest of a program that has ended in this way. -/
def requestsAfter (h : Handler Op Res ε σ) (f : α → Prog Op Res ε β) : Except ε α × σ → List Op
  | (.ok a, s) => requests h (f a) s
  | (.error _, _) => []

theorem requests_bind (p : Prog Op Res ε α) (f : α → Prog Op Res ε β) (s : σ) :
    requests h (p >>= f) s = requests h p s ++ requestsAfter h f (exec h p s) := by
  induction p generalizing s with
  | ret a => rfl
  | raise e => rfl
  | act o k ih => exact congrArg (o :: ·) (ih _ _)

theorem requests_perform (o : Op) (s : σ) : requests h (perform o) s = [o] := by
  cases hr : h o s with
  | mk r s' => cases r <;> simp [perform, requests, hr]

theorem All.requests {p : Prog Op Res ε α} (hp : p.All P) {s : σ} : ∀ o ∈ requests h p s, P o := by
  induction p generalizing s with
  | ret a => simp
  | raise e => simp
  | act o k ih =>
      intro o' ho'
      rcases List.mem_cons.mp ho' with rfl | ho'
      · exact hp.1
      · exact ih _ (hp.2 _) o' ho'

end Requests

/-! ## The answers in a run -/

/-- The requests of a run, each with its answer. -/
def trace (h : Handler Op Res ε σ) : Prog Op Res ε α → σ → List ((o : Op) × Except ε (Res o))
  | .ret _, _ => []
  | .raise _, _ => []
  | .act o k, s => ⟨o, (h o s).1⟩ :: trace h (k (h o s).1) (h o s).2

section Trace

variable {P : Op → Prop}

@[simp] theorem trace_ret (a : α) (s : σ) : trace h (.ret a : Prog Op Res ε α) s = [] := rfl

@[simp] theorem trace_raise (e : ε) (s : σ) : trace h (.raise e : Prog Op Res ε α) s = [] := rfl

def traceAfter (h : Handler Op Res ε σ) (f : α → Prog Op Res ε β) : Except ε α × σ → List ((o : Op) × Except ε (Res o))
  | (.ok a, s) => trace h (f a) s
  | (.error _, _) => []

def traceCaught (h : Handler Op Res ε σ) (g : ε → Prog Op Res ε α) : Except ε α × σ → List ((o : Op) × Except ε (Res o))
  | (.ok _, _) => []
  | (.error e, s) => trace h (g e) s

theorem trace_bind (p : Prog Op Res ε α) (f : α → Prog Op Res ε β) (s : σ) :
    trace h (p >>= f) s = trace h p s ++ traceAfter h f (exec h p s) := by
  induction p generalizing s with
  | ret a => rfl
  | raise e => rfl
  | act o k ih => exact congrArg (_ :: ·) (ih _ _)

theorem trace_tryCatch (p : Prog Op Res ε α) (g : ε → Prog Op Res ε α) (s : σ) :
    trace h (p.tryCatch g) s = trace h p s ++ traceCaught h g (exec h p s) := by
  induction p generalizing s with
  | ret a => rfl
  | raise e => rfl
  | act o k ih => exact congrArg (_ :: ·) (ih _ _)

theorem trace_perform (o : Op) (s : σ) : trace h (perform o) s = [⟨o, (h o s).1⟩] := by
  cases hr : h o s with
  | mk r s' => cases r <;> simp [perform, trace, hr]

theorem All.trace {p : Prog Op Res ε α} (hp : p.All P) {s : σ} : ∀ x ∈ trace h p s, P x.1 := by
  induction p generalizing s with
  | ret a => simp
  | raise e => simp
  | act o k ih =>
      intro x hx
      rcases List.mem_cons.mp hx with rfl | hx
      · exact hp.1
      · exact ih _ (hp.2 _) x hx

end Trace

/-! ## The requests seen from inside -/

def next : Prog Op Res ε α → Option Op
  | .act o _ => some o
  | _ => none

section Follows

variable {τ : Type} {A : (o : Op) → Except ε (Res o) → τ → τ → Prop} {P : Op → τ → Prop} {Q Q' : α → τ → Prop}
  {E E' : ε → τ → Prop} {t : τ}

/-- From the view `t` on every request has `P`, and the end `Q` or `E`, where `A` says what a request may be answered
and what the answer makes of the view. -/
def Follows (A : (o : Op) → Except ε (Res o) → τ → τ → Prop) (P : Op → τ → Prop) (Q : α → τ → Prop)
    (E : ε → τ → Prop) : Prog Op Res ε α → τ → Prop
  | .ret a, t => Q a t
  | .raise e, t => E e t
  | .act o k, t => P o t ∧ ∀ r t', A o r t t' → Follows A P Q E (k r) t'

theorem Follows.mono {p : Prog Op Res ε α} (hp : p.Follows A P Q E t) (hQ : ∀ a t, Q a t → Q' a t)
    (hE : ∀ e t, E e t → E' e t) : p.Follows A P Q' E' t := by
  induction p generalizing t with
  | ret a => exact hQ a t hp
  | raise e => exact hE e t hp
  | act o k ih => exact ⟨hp.1, fun r t' ha => ih r (hp.2 r t' ha)⟩

theorem Follows.bind {p : Prog Op Res ε α} {f : α → Prog Op Res ε β} {R : β → τ → Prop}
    (hp : p.Follows A P (fun a t => (f a).Follows A P R E t) E t) : (p >>= f).Follows A P R E t := by
  induction p generalizing t with
  | ret a => exact hp
  | raise e => exact hp
  | act o k ih => exact ⟨hp.1, fun r t' ha => ih r (hp.2 r t' ha)⟩

theorem Follows.tryCatch {p : Prog Op Res ε α} {g : ε → Prog Op Res ε α}
    (hp : p.Follows A P Q (fun e t => (g e).Follows A P Q E t) t) : (p.tryCatch g).Follows A P Q E t := by
  induction p generalizing t with
  | ret a => exact hp
  | raise e => exact hp
  | act o k ih => exact ⟨hp.1, fun r t' ha => ih r (hp.2 r t' ha)⟩

theorem Follows.perform {o : Op} {Q : Res o → τ → Prop} (ho : P o t)
    (hok : ∀ a t', A o (.ok a) t t' → Q a t') (herror : ∀ e t', A o (.error e) t t' → E e t') :
    (perform o : Prog Op Res ε (Res o)).Follows A P Q E t := by
  refine ⟨ho, fun r t' ha => ?_⟩
  cases r with
  | ok a => exact hok a t' ha
  | error e => exact herror e t' ha

/-- Requests that leave the view alone. -/
theorem Follows.of_all {S : Op → Prop} (hS : ∀ o, S o → P o t ∧ ∀ r t', A o r t t' → t' = t) {p : Prog Op Res ε α}
    (hp : p.All S) (hQ : ∀ a, Q a t) (hE : ∀ e, E e t) : p.Follows A P Q E t := by
  induction p with
  | ret a => exact hQ a
  | raise e => exact hE e
  | act o k ih =>
      refine ⟨(hS o hp.1).1, fun r t' ha => ?_⟩
      obtain rfl := (hS o hp.1).2 r t' ha
      exact ih r (hp.2 r)

theorem Follows.foldEach {f : β → α → Prog Op Res ε β} {J : τ → Prop}
    (hf : ∀ b x t, J t → (f b x).Follows A P (fun _ => J) E t) {xs : List α} {b : β} (ht : J t) :
    (foldEach f b xs).Follows A P (fun _ => J) E t := by
  induction xs generalizing b t with
  | nil => exact ht
  | cons x xs ih => exact Follows.bind ((hf b x t ht).mono (fun _ _ ht' => ih ht') fun _ _ he => he)

end Follows

end Prog
