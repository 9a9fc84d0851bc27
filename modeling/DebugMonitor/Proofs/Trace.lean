import DebugMonitor.Proofs.Simulation

/-!
# What a run asks for

A program that is handled makes its requests one after another, and `Program.trace` lists them. It
says what a run did, however the run ended: a request that stops it is the last one in the list.

Whatever is true of a whole run is made up of what is true of its requests (`trace_induction`).
Where two runs stay together on some requests only, it is enough that one of them makes no others
(`mirrors_handle`).
-/

namespace DebugMonitor

variable {I J : Interface} {α β ε σ : Type}

/-- The state that a run leaves behind. -/
def finalState : EStateM.Result ε σ α → σ
  | .ok _ s => s
  | .error _ s => s

namespace Program

/-- The requests that a program makes from a state on, in order. -/
def trace (h : Handler I (EStateM Stop σ)) : Program I α → σ → List I.Request
  | done _, _ => []
  | stalled, _ => []
  | call request next, s =>
    request :: match h request s with
      | .ok answer t => (next answer).trace h t
      | .error _ _ => []

variable {h : Handler I (EStateM Stop σ)}

theorem handle_call (request : I.Request) (next : I.Answer request → Program I α) (s : σ) :
    (call request next).handle h s = match h request s with
      | .ok answer t => (next answer).handle h t
      | .error stop t => .error stop t := by
  show EStateM.bind (h request) _ s = _
  rw [EStateM.bind]
  cases h request s <;> rfl

@[simp] theorem trace_ask (request : I.Request) (s : σ) : (ask request).trace h s = [request] := by
  rw [ask, trace]
  cases h request s <;> rfl

/-- A property of runs that holds where nothing was asked, and goes on holding when one more request
is made before. -/
theorem trace_induction {motive : List I.Request → σ → σ → Prop} (nil : ∀ s, motive [] s s)
    (cons : ∀ request rest s t,
      motive rest (finalState (h request s)) t → motive (request :: rest) s t)
    (p : Program I α) (s : σ) : motive (p.trace h s) s (finalState (p.handle h s)) := by
  -- An error ends the run, so there the motive is only asked of a single request.
  induction p generalizing s with
  | done a => exact nil s
  | stalled => exact nil s
  | call request next ih =>
    rw [trace, handle_call]
    cases hrequest : h request s with
    | ok answer t =>
      apply cons
      rw [hrequest]
      exact ih answer t
    | error stop t =>
      apply cons
      rw [hrequest]
      exact nil t

/-- What is asked for by two parts is asked for by one after the other. -/
theorem trace_bind_ok {p : Program I α} {f : α → Program I β} {s t : σ} {a : α}
    (hp : p.handle h s = .ok a t) : (p >>= f).trace h s = p.trace h s ++ (f a).trace h t := by
  induction p generalizing s with
  | done result =>
    cases hp
    rfl
  | stalled => cases hp
  | call request next ih =>
    rw [handle_call] at hp
    show (call request fun answer => next answer >>= f).trace h s = _
    rw [trace, trace]
    cases hrequest : h request s with
    | ok answer middle =>
      rw [hrequest] at hp
      exact congrArg (request :: ·) (ih answer hp)
    | error stop middle =>
      rw [hrequest] at hp
      cases hp

/-- Behind a stop nothing is asked. -/
theorem trace_bind_error {p : Program I α} {f : α → Program I β} {s t : σ} {stop : Stop}
    (hp : p.handle h s = .error stop t) : (p >>= f).trace h s = p.trace h s := by
  induction p generalizing s with
  | done result => cases hp
  | stalled => rfl
  | call request next ih =>
    rw [handle_call] at hp
    show (call request fun answer => next answer >>= f).trace h s = _
    rw [trace, trace]
    cases hrequest : h request s with
    | ok answer middle =>
      rw [hrequest] at hp
      exact congrArg (request :: ·) (ih answer hp)
    | error stop middle => rfl

/-- What is made of the result asks for nothing. -/
theorem trace_bind_pure (p : Program I α) (f : α → β) (s : σ) :
    (p >>= fun a => pure (f a)).trace h s = p.trace h s := by
  cases hp : p.handle h s with
  | ok a t => rw [trace_bind_ok hp, show (pure (f a) : Program I β).trace h t = [] from rfl,
      List.append_nil]
  | error stop t => exact trace_bind_error hp

/-- A program asks for nothing but what it may. -/
theorem forall_mem_trace {allowed : I.Request → Prop} {p : Program I α} (hp : p.Within allowed)
    (s : σ) : ∀ request ∈ p.trace h s, allowed request := by
  induction p generalizing s with
  | done result => exact List.forall_mem_nil _
  | stalled => exact hp.elim
  | call request next ih =>
    rw [trace, List.forall_mem_cons]
    refine ⟨hp.1, ?_⟩
    cases h request s with
    | ok answer middle => exact ih answer (hp.2 answer) middle
    | error stop middle => exact List.forall_mem_nil _

end Program

/-! ### Runs that stop under another name -/

/-- The first run ends like the second, except that its stops go by other names. -/
inductive Mirrors {τ : Type} (name : ε → ε) (R : σ → τ → Prop) :
    EStateM.Result ε σ α → EStateM.Result ε τ α → Prop
  | ok {a : α} {s : σ} {t : τ} : R s t → Mirrors name R (.ok a s) (.ok a t)
  | error {e : ε} {s : σ} {t : τ} {e' : ε} : e' = name e → R s t →
    Mirrors name R (.error e' s) (.error e t)

/-- Two handlers that mirror one another on every request do so on every program. -/
theorem Program.mirrors_handle {τ : Type} {name : Stop → Stop} {R : σ → τ → Prop}
    {h : Handler I (EStateM Stop σ)} {k : Handler I (EStateM Stop τ)}
    {allowed : I.Request → Prop} (hstalled : name .stalled = .stalled)
    (hstep : ∀ request, allowed request → ∀ s t, R s t → Mirrors name R (h request s) (k request t))
    (p : Program I α) {s : σ} {t : τ} (hst : R s t)
    (hallowed : ∀ request ∈ p.trace k t, allowed request) :
    Mirrors name R (p.handle h s) (p.handle k t) := by
  induction p generalizing s t with
  | done a => exact .ok hst
  | stalled => exact .error hstalled.symm hst
  | call request next ih =>
    rw [trace, List.forall_mem_cons] at hallowed
    obtain ⟨hrequest, hrest⟩ := hallowed
    have hended := hstep request hrequest s t hst
    rw [handle_call, handle_call]
    generalize h request s = ended at hended
    generalize hk : k request t = finished at hended
    rw [hk] at hrest
    cases hended with
    | ok hnext => exact ih _ hnext hrest
    | error hname hstopped => exact .error hname hstopped

end DebugMonitor
