import DebugMonitor.Stop

/-!
# Runs in step

A program is handled in two worlds at once. If every request is answered alike in both, and the
worlds stay related, then so is the whole run (`InStep.handle`): both return the same result, or
both stop for the same reason. What one request does is therefore all that a comparison of two runs
has to look at.

A program that never waits cannot be given up. Where every request it may make is answered, it
returns (`Program.Within.returns`).
-/

namespace DebugMonitor

variable {I J : Interface} {α β ε σ τ : Type}

/-- Where a first run returns, the next one goes on from there. -/
theorem run_bind_ok {x : EStateM ε σ α} {f : α → EStateM ε σ β} {s t : σ} {a : α}
    (h : x s = .ok a t) : (x >>= f) s = f a t := by
  show EStateM.bind x f s = _
  rw [EStateM.bind, h]

/-- Where a first run is stopped, the next one is never reached. -/
theorem run_bind_error {x : EStateM ε σ α} {f : α → EStateM ε σ β} {s t : σ} {stop : ε}
    (h : x s = .error stop t) : (x >>= f) s = .error stop t := by
  show EStateM.bind x f s = _
  rw [EStateM.bind, h]

namespace Program

/-- Lowering twice is lowering by the lowered answers. -/
theorem handle_handle {m : Type → Type} [Monad m] [LawfulMonad m] [Stalls m] [LawfulStalls m]
    (h : Handler I (Program J)) (k : Handler J m) (p : Program I α) :
    (p.handle h).handle k = p.handle fun request => (h request).handle k := by
  induction p with
  | done a => rfl
  | stalled => rfl
  | call request next ih =>
    simp only [handle]
    rw [handle_bind]
    simp only [ih]

/-- The program that makes one request is answered by the handler's answer. -/
@[simp] theorem handle_ask {m : Type → Type} [Monad m] [LawfulMonad m] [Stalls m]
    (h : Handler I m) (request : I.Request) : (ask request).handle h = h request := by
  show (h request >>= fun answer => pure answer) = h request
  exact bind_pure _

@[simp] theorem handle_pure {m : Type → Type} [Monad m] [Stalls m] (h : Handler I m) (a : α) :
    (pure a : Program I α).handle h = pure a := rfl

/-- Where a first part returns, the rest goes on from there. -/
theorem handle_bind_ok {h : Handler I (EStateM Stop σ)} {p : Program I α} {f : α → Program I β}
    {s t : σ} {a : α} (hp : p.handle h s = .ok a t) :
    (p >>= f).handle h s = (f a).handle h t := by
  rw [handle_bind, run_bind_ok hp]

/-- Where a first part is stopped, the rest is never reached. -/
theorem handle_bind_error {h : Handler I (EStateM Stop σ)} {p : Program I α}
    {f : α → Program I β} {s t : σ} {stop : Stop} (hp : p.handle h s = .error stop t) :
    (p >>= f).handle h s = .error stop t := by
  rw [handle_bind, run_bind_error hp]

/-- A whole that returns is two parts that return. -/
theorem handle_bind_eq_ok {h : Handler I (EStateM Stop σ)} {p : Program I α}
    {f : α → Program I β} {s t : σ} {b : β} (hpf : (p >>= f).handle h s = .ok b t) :
    ∃ a middle, p.handle h s = .ok a middle ∧ (f a).handle h middle = .ok b t := by
  cases hp : p.handle h s with
  | ok a middle =>
    rw [handle_bind_ok hp] at hpf
    exact ⟨a, middle, rfl, hpf⟩
  | error stop middle =>
    rw [handle_bind_error hp] at hpf
    cases hpf

/-- First parts that end alike are followed by the same. -/
theorem handle_bind_congr {h : Handler I (EStateM Stop σ)} {p q : Program I α}
    {f : α → Program I β} {s t : σ} (hpq : p.handle h s = q.handle h t) :
    (p >>= f).handle h s = (q >>= f).handle h t := by
  rw [handle_bind, handle_bind]
  show EStateM.bind _ _ s = EStateM.bind _ _ t
  rw [EStateM.bind, EStateM.bind, hpq]

/-! ### Programs that never wait -/

/-- No branch of the program is a wait that was given up, and every request is an allowed one. -/
def Within (allowed : I.Request → Prop) : Program I α → Prop
  | done _ => True
  | stalled => False
  | call request next => allowed request ∧ ∀ answer, (next answer).Within allowed

namespace Within

variable {allowed : I.Request → Prop}

theorem ask {request : I.Request} (h : allowed request) : (Program.ask request).Within allowed :=
  ⟨h, fun _ => trivial⟩

theorem pure (a : α) : (Pure.pure a : Program I α).Within allowed := trivial

theorem bind {p : Program I α} {f : α → Program I β} (hp : p.Within allowed)
    (hf : ∀ a, (f a).Within allowed) : (p >>= f).Within allowed := by
  induction p with
  | done a => exact hf a
  | stalled => exact hp.elim
  | call request next ih => exact ⟨hp.1, fun answer => ih answer (hp.2 answer)⟩

theorem mapM {f : α → Program I β} (hf : ∀ a, (f a).Within allowed) (as : List α) :
    (as.mapM f).Within allowed := by
  induction as with
  | nil => exact .pure _
  | cons a as ih =>
    rw [List.mapM_cons]
    exact (hf a).bind fun b => ih.bind fun bs => .pure _

/-- What is asked for by the answers is asked for by the program that is handled. -/
theorem handle {h : Handler I (Program J)} {asked : J.Request → Prop}
    (hasked : ∀ request, allowed request → (h request).Within asked) {p : Program I α}
    (hp : p.Within allowed) : (p.handle h).Within asked := by
  induction p with
  | done a => trivial
  | stalled => exact hp.elim
  | call request next ih =>
    exact bind (hasked request hp.1) fun answer => ih answer (hp.2 answer)

/-- Where every allowed request is answered, the program returns. -/
theorem returns {h : Handler I (EStateM Stop σ)}
    (answers : ∀ request, allowed request → ∀ s, ∃ a s', h request s = .ok a s')
    {p : Program I α} (hp : p.Within allowed) (s : σ) : ∃ a s', p.handle h s = .ok a s' := by
  induction p generalizing s with
  | done a => exact ⟨a, s, rfl⟩
  | stalled => exact hp.elim
  | call request next ih =>
    obtain ⟨a, s₁, h₁⟩ := answers request hp.1 s
    obtain ⟨b, s₂, h₂⟩ := ih a (hp.2 a) s₁
    refine ⟨b, s₂, ?_⟩
    exact (run_bind_ok h₁).trans h₂

end Within

end Program

/-! ### Two worlds -/

/-- Two runs end alike if both return the same result, or both stop for the same reason, and leave
related states behind. -/
inductive Alike (R : σ → τ → Prop) : EStateM.Result ε σ α → EStateM.Result ε τ α → Prop
  | ok {a : α} {s : σ} {t : τ} : R s t → Alike R (.ok a s) (.ok a t)
  | error {e : ε} {s : σ} {t : τ} : R s t → Alike R (.error e s) (.error e t)

/-- From related states the two runs end alike. -/
def InStep (R : σ → τ → Prop) (x : EStateM ε σ α) (y : EStateM ε τ α) : Prop :=
  ∀ ⦃s t⦄, R s t → Alike R (x s) (y t)

namespace InStep

variable {R : σ → τ → Prop}

theorem pure (a : α) : InStep R (Pure.pure a : EStateM ε σ α) (Pure.pure a) :=
  fun _ _ hst => .ok hst

theorem bind {x : EStateM ε σ α} {y : EStateM ε τ α} {f : α → EStateM ε σ β}
    {g : α → EStateM ε τ β} (hxy : InStep R x y) (hfg : ∀ a, InStep R (f a) (g a)) :
    InStep R (x >>= f) (y >>= g) := by
  intro s t hst
  show Alike R (EStateM.bind x f s) (EStateM.bind y g t)
  rw [EStateM.bind, EStateM.bind]
  generalize hx : x s = x', hy : y t = y'
  have h := hxy hst
  rw [hx, hy] at h
  cases h with
  | ok hst' => exact hfg _ hst'
  | error hst' => exact .error hst'

/-- Requests answered alike make runs alike. -/
theorem handle {h : Handler I (EStateM Stop σ)} {k : Handler I (EStateM Stop τ)}
    (hhk : ∀ request, InStep R (h request) (k request)) (p : Program I α) :
    InStep R (p.handle h) (p.handle k) := by
  induction p with
  | done a => exact InStep.pure a
  | stalled => exact fun _ _ hst => .error hst
  | call request next ih => exact (hhk request).bind ih

/-- If the second run returns, so does the first. -/
theorem returns {x : EStateM ε σ α} {y : EStateM ε τ α} (hxy : InStep R x y) {s : σ} {t t' : τ}
    {a : α} (hst : R s t) (hy : y t = .ok a t') : ∃ s', x s = .ok a s' ∧ R s' t' := by
  have h := hxy hst
  rw [hy] at h
  generalize x s = x' at h
  cases h with
  | ok hst' => exact ⟨_, rfl, hst'⟩

end InStep

end DebugMonitor
