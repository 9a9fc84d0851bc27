import DebugMonitor.Proofs.Trace
import Mathlib.Data.List.Forall2

/-!
# Requests with their answers

A program does not know what it will be answered. What it does for all answers is a tree, and an
`Exchange` after the other is a path through it. `Program.Returns` says that a path leads to a
result, and that is what a program is to a device that may answer anything: a set of paths, which is
put together like the program (`returns_bind_iff`). A path that does not go to the end says what the
program asks for next (`Program.Asks`).

A run follows one of the paths, and `Program.transcript` writes it down. On a handler that runs
programs for its answers, it falls into the runs of these programs (`transcript_handle`).
-/

namespace DebugMonitor

/-- A request, and the answer it got. -/
abbrev Exchange (I : Interface) := (request : I.Request) × I.Answer request

namespace Program

variable {I J : Interface} {α β σ : Type}

/-! ### Paths -/

/-- Answered in this way, the program returns the result. -/
inductive Returns : Program I α → List (Exchange I) → α → Prop where
  | done (a : α) : Returns (done a) [] a
  | call {request : I.Request} {next : I.Answer request → Program I α} (answer : I.Answer request)
      {rest : List (Exchange I)} {a : α} (later : Returns (next answer) rest a) :
      Returns (call request next) (⟨request, answer⟩ :: rest) a

/-- Answered in this way so far, the program makes the request. -/
inductive Asks : Program I α → List (Exchange I) → I.Request → Prop where
  | now (request : I.Request) (next : I.Answer request → Program I α) :
      Asks (call request next) [] request
  | later {request asked : I.Request} {next : I.Answer request → Program I α}
      (answer : I.Answer request) {rest : List (Exchange I)} (h : Asks (next answer) rest asked) :
      Asks (call request next) (⟨request, answer⟩ :: rest) asked

variable {log : List (Exchange I)} {a : α} {b : β}

theorem not_asks_pure {asked : I.Request} : ¬ (pure a : Program I α).Asks log asked := nofun

theorem returns_pure_iff {result : α} : (pure a : Program I α).Returns log result ↔
    log = [] ∧ result = a := by
  constructor
  · intro h
    cases h
    exact ⟨rfl, rfl⟩
  · rintro ⟨rfl, rfl⟩
    exact .done _

/-- A program whose first request is answered goes on with the answer. -/
theorem returns_ask_bind_iff {request : I.Request} {next : I.Answer request → Program I α} :
    (ask request >>= next).Returns log a ↔
      ∃ answer rest, log = ⟨request, answer⟩ :: rest ∧ (next answer).Returns rest a := by
  constructor
  · intro h
    cases h with
    | call answer later => exact ⟨answer, _, rfl, later⟩
  · rintro ⟨answer, rest, rfl, h⟩
    exact .call answer h

theorem returns_ask_iff {request : I.Request} {answer : I.Answer request} :
    (ask request).Returns log answer ↔ log = [⟨request, answer⟩] := by
  constructor
  · intro h
    cases h with
    | call answer later =>
      cases later
      rfl
  · rintro rfl
    exact .call answer (.done answer)

theorem asks_ask_bind_iff {request asked : I.Request} {next : I.Answer request → Program I α} :
    (ask request >>= next).Asks log asked ↔ (log = [] ∧ asked = request) ∨
      ∃ answer rest, log = ⟨request, answer⟩ :: rest ∧ (next answer).Asks rest asked := by
  constructor
  · intro h
    cases h with
    | now => exact .inl ⟨rfl, rfl⟩
    | later answer h => exact .inr ⟨answer, _, rfl, h⟩
  · rintro (⟨rfl, rfl⟩ | ⟨answer, rest, rfl, h⟩)
    · exact .now _ _
    · exact .later answer h

theorem asks_ask_iff {request asked : I.Request} :
    (ask request).Asks log asked ↔ log = [] ∧ asked = request := by
  constructor
  · intro h
    cases h with
    | now => exact ⟨rfl, rfl⟩
    | later answer h => cases h
  · rintro ⟨rfl, rfl⟩
    exact .now _ _

/-- A path through two programs is one through the first and one through the second. -/
theorem returns_bind_iff {p : Program I α} {f : α → Program I β} :
    (p >>= f).Returns log b ↔
      ∃ first rest a, log = first ++ rest ∧ p.Returns first a ∧ (f a).Returns rest b := by
  constructor
  · intro h
    induction p generalizing log with
    | done a => exact ⟨[], log, a, rfl, .done a, h⟩
    | stalled => cases h
    | call request next ih =>
      obtain ⟨answer, rest, rfl, hlater⟩ := returns_ask_bind_iff.mp h
      obtain ⟨first, rest, a, rfl, hfirst, hrest⟩ := ih answer hlater
      exact ⟨⟨request, answer⟩ :: first, rest, a, rfl, .call answer hfirst, hrest⟩
  · rintro ⟨first, rest, a, rfl, hfirst, hrest⟩
    induction hfirst with
    | done a => exact hrest
    | call answer later ih => exact .call answer (ih hrest)

/-- The second program asks when the first one has returned. -/
theorem asks_bind_iff {p : Program I α} {f : α → Program I β} {asked : I.Request} :
    (p >>= f).Asks log asked ↔ p.Asks log asked ∨
      ∃ first rest a, log = first ++ rest ∧ p.Returns first a ∧ (f a).Asks rest asked := by
  constructor
  · intro h
    -- By induction on the program: the request is met on the way through it, or behind one of its
    -- leaves.
    induction p generalizing log with
    | done a => exact .inr ⟨[], log, a, rfl, .done a, h⟩
    | stalled => cases h
    | call request next ih =>
      rcases asks_ask_bind_iff.mp h with ⟨rfl, rfl⟩ | ⟨answer, rest, rfl, hlater⟩
      · exact .inl (.now _ _)
      · rcases ih answer hlater with hfirst | ⟨first, rest, a, rfl, hfirst, hrest⟩
        · exact .inl (.later answer hfirst)
        · exact .inr ⟨⟨request, answer⟩ :: first, rest, a, rfl, .call answer hfirst, hrest⟩
  · rintro (h | ⟨first, rest, a, rfl, hfirst, hrest⟩)
    · induction h with
      | now request next => exact .now _ _
      | later answer h ih => exact .later answer ih
    · induction hfirst with
      | done a => exact hrest
      | call answer later ih => exact .later answer (ih hrest)

/-! ### Requests that are never made -/

/-- Whatever it is answered, the program does not make the request. -/
def Never (asked : I.Request) (p : Program I α) : Prop := ∀ log, ¬ p.Asks log asked

namespace Never

variable {asked : I.Request}

/-- What a program is not allowed to ask it never asks. -/
theorem of_within {allowed : I.Request → Prop} {p : Program I α} (hp : p.Within allowed)
    (hasked : ¬ allowed asked) : Never asked p := by
  intro log h
  induction h with
  | now request next => exact hasked hp.1
  | later answer h ih => exact ih (hp.2 answer) hasked

theorem pure (a : α) : Never asked (Pure.pure a : Program I α) := fun _ => not_asks_pure

theorem stalled : Never asked (Program.stalled : Program I α) := fun _ => nofun

/-- What neither part asks the whole does not ask. -/
theorem bind {p : Program I α} {f : α → Program I β} (hp : Never asked p)
    (hf : ∀ a, Never asked (f a)) : Never asked (p >>= f) := by
  intro log h
  rcases asks_bind_iff.mp h with hfirst | ⟨_, rest, a, -, -, hrest⟩
  · exact hp log hfirst
  · exact hf a rest hrest

end Never

/-! ### Programs in a row -/

/-- The path of programs in a row falls into theirs. -/
theorem entries_of_returns_mapM {f : α → Program I β} {as : List α} {bs : List β}
    (h : (as.mapM f).Returns log bs) :
    ∃ (entries : List (α × β)) (chunks : List (List (Exchange I))),
      entries.map Prod.fst = as ∧ entries.map Prod.snd = bs ∧
        List.Forall₂ (fun entry chunk => (f entry.1).Returns chunk entry.2) entries chunks ∧
        log = chunks.flatten := by
  induction as generalizing log bs with
  | nil =>
    obtain ⟨rfl, rfl⟩ := returns_pure_iff.mp h
    exact ⟨[], [], rfl, rfl, .nil, rfl⟩
  | cons a as ih =>
    rw [List.mapM_cons] at h
    obtain ⟨chunk, _, b, rfl, hfirst, hrest⟩ := returns_bind_iff.mp h
    obtain ⟨rest, _, bs, rfl, hreturns, hpure⟩ := returns_bind_iff.mp hrest
    obtain ⟨rfl, rfl⟩ := returns_pure_iff.mp hpure
    obtain ⟨entries, chunks, rfl, rfl, hchunks, rfl⟩ := ih hreturns
    exact ⟨(a, b) :: entries, chunk :: chunks, rfl, rfl, .cons hfirst hchunks, by simp⟩

/-! ### Runs -/

/-- The exchanges of a run. A request that stops the run has got no answer. -/
def transcript (h : Handler I (EStateM Stop σ)) : Program I α → σ → List (Exchange I)
  | done _, _ => []
  | stalled, _ => []
  | call request next, s =>
    match h request s with
    | .ok answer t => ⟨request, answer⟩ :: (next answer).transcript h t
    | .error _ _ => []

variable {h : Handler I (EStateM Stop σ)} {s t : σ}

/-- A run that returns follows a path to its result. -/
theorem returns_transcript {p : Program I α} (hp : p.handle h s = .ok a t) :
    p.Returns (p.transcript h s) a := by
  induction p generalizing s with
  | done result =>
    cases hp
    exact .done _
  | stalled => cases hp
  | call request next ih =>
    rw [handle_call] at hp
    rw [transcript]
    cases hrequest : h request s with
    | ok answer middle =>
      rw [hrequest] at hp
      exact .call answer (ih answer hp)
    | error stop middle =>
      rw [hrequest] at hp
      cases hp

/-- A run that returns has got an answer to all that it asked for. -/
theorem trace_of_ok {p : Program I α} (hp : p.handle h s = .ok a t) :
    p.trace h s = (p.transcript h s).map Sigma.fst := by
  induction p generalizing s with
  | done result => rfl
  | stalled => cases hp
  | call request next ih =>
    rw [handle_call] at hp
    rw [trace, transcript]
    cases hrequest : h request s with
    | ok answer middle =>
      rw [hrequest] at hp
      exact congrArg (request :: ·) (ih answer hp)
    | error stop middle =>
      rw [hrequest] at hp
      cases hp

/-- A run that is stopped, and has not given up itself, was stopped by the last of its requests. -/
theorem trace_of_error {p : Program I α} {stop : Stop} (hp : p.handle h s = .error stop t)
    (hstop : stop ≠ .stalled) :
    ∃ asked middle, h asked middle = .error stop t ∧
      p.trace h s = (p.transcript h s).map Sigma.fst ++ [asked] := by
  -- The last request asked is the one that stopped, so it is missing from the transcript.
  induction p generalizing s with
  | done result => cases hp
  | stalled =>
    cases hp
    exact absurd rfl hstop
  | call request next ih =>
    rw [handle_call] at hp
    rw [trace, transcript]
    cases hrequest : h request s with
    | ok answer middle =>
      rw [hrequest] at hp
      obtain ⟨asked, last, hlast, htrace⟩ := ih answer hp
      exact ⟨asked, last, hlast, congrArg (request :: ·) htrace⟩
    | error found middle =>
      rw [hrequest] at hp
      cases hp
      exact ⟨request, s, hrequest, rfl⟩

/-- Whatever a run asks for, the program asks for behind the exchanges before. -/
theorem asks_of_trace {p : Program I α} {before after : List I.Request} {asked : I.Request}
    (htrace : p.trace h s = before ++ asked :: after) :
    p.Asks ((p.transcript h s).take before.length) asked := by
  -- The requests before the one in question are the path to it.
  induction p generalizing s before with
  | done result =>
    rw [trace] at htrace
    exact absurd htrace.symm (List.append_ne_nil_of_right_ne_nil _ (List.cons_ne_nil _ _))
  | stalled =>
    rw [trace] at htrace
    exact absurd htrace.symm (List.append_ne_nil_of_right_ne_nil _ (List.cons_ne_nil _ _))
  | call request next ih =>
    rw [trace] at htrace
    cases before with
    | nil =>
      obtain ⟨rfl, -⟩ := List.cons_eq_cons.mp htrace
      exact .now _ _
    | cons first before =>
      obtain ⟨-, hrest⟩ := List.cons_eq_cons.mp htrace
      rw [transcript]
      cases hrequest : h request s with
      | ok answer middle =>
        rw [hrequest] at hrest
        exact .later answer (ih answer hrest)
      | error stop middle =>
        rw [hrequest] at hrest
        exact absurd hrest.symm (List.append_ne_nil_of_right_ne_nil _ (List.cons_ne_nil _ _))

/-- A request that is never made is in no run. -/
theorem Never.not_mem_trace {p : Program I α} {asked : I.Request} (hp : Never asked p) (s : σ) :
    asked ∉ p.trace h s := by
  intro hmem
  obtain ⟨before, after, htrace⟩ := List.append_of_mem hmem
  exact hp _ (asks_of_trace htrace)

/-- The exchanges of two parts come one after the other. -/
theorem transcript_bind_ok {p : Program I α} {f : α → Program I β}
    (hp : p.handle h s = .ok a t) :
    (p >>= f).transcript h s = p.transcript h s ++ (f a).transcript h t := by
  induction p generalizing s with
  | done result =>
    cases hp
    rfl
  | stalled => cases hp
  | call request next ih =>
    rw [handle_call] at hp
    show (call request fun answer => next answer >>= f).transcript h s = _
    rw [transcript, transcript]
    cases hrequest : h request s with
    | ok answer middle =>
      rw [hrequest] at hp
      exact congrArg (⟨request, answer⟩ :: ·) (ih answer hp)
    | error stop middle =>
      rw [hrequest] at hp
      cases hp

/-- Where every request is answered by a program, a run is made of the runs of the answers, one
after the other. -/
theorem transcript_handle {h : Handler I (Program J)} {k : Handler J (EStateM Stop σ)}
    {p : Program I α} (hp : (p.handle h).handle k s = .ok a t) :
    ∃ groups : List (List (Exchange J)),
      List.Forall₂ (fun exchange group => (h exchange.1).Returns group exchange.2)
        (p.transcript (fun request => (h request).handle k) s) groups ∧
      (p.handle h).transcript k s = groups.flatten := by
  induction p generalizing s with
  | done result => exact ⟨[], .nil, rfl⟩
  | stalled => cases hp
  | call request next ih =>
    change (h request >>= fun answer => (next answer).handle h).handle k s = _ at hp
    obtain ⟨answer, middle, hfirst, hrest⟩ := handle_bind_eq_ok hp
    obtain ⟨groups, hgroups, htranscript⟩ := ih answer hrest
    refine ⟨(h request).transcript k s :: groups, ?_, ?_⟩
    · rw [transcript, hfirst]
      exact .cons (returns_transcript hfirst) hgroups
    · change (h request >>= fun answer => (next answer).handle h).transcript k s = _
      rw [transcript_bind_ok hfirst, htranscript]
      rfl

end Program

end DebugMonitor
