import Mathlib.Data.List.Basic
import Mathlib.Tactic.Common

/-!
# Runs of deterministic machines that may halt

A step takes a state and an action and either goes on or halts, and a halted
run keeps the state it had reached. A run is the fold of the step over a list
of actions. The rules below carry a fact from one step to every run: an
invariant indexed by the history, a latch (a flag that some steps set and none
resets), and a lockstep between a run and the same run without its silent
actions. `retry` is the loop that repeats a call while it answers `again`.
-/

namespace RtmpRelay.Machine

variable {ε ε' σ τ α β ρ : Type*}

inductive Outcome (ε σ : Type*)
  | ok (s : σ)
  | halt (e : ε) (s : σ)
  deriving DecidableEq, Repr

namespace Outcome

def state : Outcome ε σ → σ
  | ok s => s
  | halt _ s => s

def bind : Outcome ε σ → (σ → Outcome ε σ) → Outcome ε σ
  | ok s, f => f s
  | halt e s, _ => halt e s

@[simp] theorem state_ok (s : σ) : (ok s : Outcome ε σ).state = s := rfl
@[simp] theorem state_halt (e : ε) (s : σ) : (halt e s).state = s := rfl
@[simp] theorem bind_ok (s : σ) (f : σ → Outcome ε σ) : (ok s).bind f = f s := rfl
@[simp] theorem bind_halt (e : ε) (s : σ) (f : σ → Outcome ε σ) :
    (halt e s).bind f = halt e s := rfl

theorem bind_eq_ok {x : Outcome ε σ} {f : σ → Outcome ε σ} {t : σ} :
    x.bind f = ok t ↔ ∃ s, x = ok s ∧ f s = ok t := by
  cases x with
  | ok s => simp
  | halt e s => simp

def Rel (R : σ → τ → Prop) : Outcome ε σ → Outcome ε τ → Prop
  | ok s, ok t => R s t
  | halt e s, halt e' t => e = e' ∧ R s t
  | _, _ => False

theorem Rel.ok_left {R : σ → τ → Prop} {s : σ} {y : Outcome ε τ} (h : Rel R (ok s) y) :
    ∃ t, y = ok t ∧ R s t := by
  cases y with
  | ok t => exact ⟨t, rfl, h⟩
  | halt e t => exact h.elim

theorem Rel.imp {R S : σ → τ → Prop} {x : Outcome ε σ} {y : Outcome ε τ} (h : Rel R x y)
    (hRS : ∀ s t, R s t → S s t) : Rel S x y := by
  cases x with
  | ok s =>
    obtain ⟨t, rfl, hst⟩ := h.ok_left
    exact hRS s t hst
  | halt e s =>
    cases y with
    | ok t => exact h.elim
    | halt e' t => exact ⟨h.1, hRS s t h.2⟩

theorem Rel.bind {R : σ → τ → Prop} {x : Outcome ε σ} {y : Outcome ε τ}
    {f : σ → Outcome ε σ} {g : τ → Outcome ε τ} (h : Rel R x y)
    (hfg : ∀ s t, R s t → Rel R (f s) (g t)) : Rel R (x.bind f) (y.bind g) := by
  cases x with
  | ok s =>
    obtain ⟨t, rfl, hst⟩ := h.ok_left
    exact hfg s t hst
  | halt e s =>
    cases y with
    | ok t => exact h.elim
    | halt e' t => exact h

def Sat (P : σ → Prop) (E : ε → σ → Prop) : Outcome ε σ → Prop
  | ok s => P s
  | halt e s => E e s

theorem Sat.of_ok {P : σ → Prop} {E : ε → σ → Prop} {x : Outcome ε σ} {s : σ}
    (h : x.Sat P E) (hx : x = ok s) : P s := by
  subst hx
  exact h

theorem Sat.bind {P Q : σ → Prop} {E F : ε → σ → Prop} {x : Outcome ε σ}
    {f : σ → Outcome ε σ} (h : x.Sat P E) (hf : ∀ s, P s → (f s).Sat Q F)
    (hE : ∀ e s, E e s → F e s) : (x.bind f).Sat Q F := by
  cases x with
  | ok s => exact hf s h
  | halt e s => exact hE e s h

theorem Sat.imp {P Q : σ → Prop} {E F : ε → σ → Prop} {x : Outcome ε σ} (h : x.Sat P E)
    (hP : ∀ s, P s → Q s) (hE : ∀ e s, E e s → F e s) : x.Sat Q F := by
  cases x with
  | ok s => exact hP s h
  | halt e s => exact hE e s h

end Outcome

open Outcome

section Run
variable (step : σ → α → Outcome ε σ)

def run : σ → List α → Outcome ε σ
  | s, [] => ok s
  | s, a :: as => (step s a).bind fun t => run t as

@[simp] theorem run_nil (s : σ) : run step s [] = ok s := rfl

@[simp] theorem run_cons (s : σ) (a : α) (as : List α) :
    run step s (a :: as) = (step s a).bind fun t => run step t as := rfl

theorem run_append (s : σ) (as bs : List α) :
    run step s (as ++ bs) = (run step s as).bind fun t => run step t bs := by
  induction as generalizing s with
  | nil => rfl
  | cons a as ih =>
    simp only [List.cons_append, run_cons]
    cases step s a with
    | ok t => exact ih t
    | halt e t => rfl

variable {step}

theorem run_append_ok {s t : σ} {as bs : List α} :
    run step s (as ++ bs) = ok t ↔ ∃ m, run step s as = ok m ∧ run step m bs = ok t := by
  rw [run_append, bind_eq_ok]

theorem run_cons_ok {s t : σ} {a : α} {as : List α} :
    run step s (a :: as) = ok t ↔ ∃ m, step s a = ok m ∧ run step m as = ok t := by
  rw [run_cons, bind_eq_ok]

theorem run_concat_ok {s t : σ} {as : List α} {a : α} :
    run step s (as ++ [a]) = ok t ↔ ∃ m, run step s as = ok m ∧ step m a = ok t := by
  rw [run_append_ok]
  constructor
  · intro h
    obtain ⟨m, hm, ht⟩ := h
    obtain ⟨u, hu, hn⟩ := run_cons_ok.mp ht
    cases hn
    exact ⟨m, hm, hu⟩
  · intro h
    obtain ⟨m, hm, ht⟩ := h
    exact ⟨m, hm, run_cons_ok.mpr ⟨t, ht, rfl⟩⟩

/-- The invariant rule: `P h s` speaks of the state `s` reached by the actions
`h`. A side condition on the actions goes into `P`. -/
theorem run_history {P : List α → σ → Prop}
    (hstep : ∀ h s a t, P h s → step s a = ok t → P (h ++ [a]) t)
    {h as : List α} {s t : σ} (hs : P h s) (hrun : run step s as = ok t) :
    P (h ++ as) t := by
  induction as generalizing h s with
  | nil =>
    cases hrun
    simpa using hs
  | cons a as ih =>
    obtain ⟨m, hm, ht⟩ := run_cons_ok.mp hrun
    have hnext := ih (hstep h s a m hs hm) ht
    simpa using hnext

theorem run_sat {P : List α → σ → Prop} {E : ε → σ → Prop} {good : α → Prop}
    (hstep : ∀ h s a, good a → P h s → (step s a).Sat (P (h ++ [a])) E)
    {h as : List α} {s : σ} (has : ∀ a ∈ as, good a) (hs : P h s) :
    (run step s as).Sat (P (h ++ as)) E := by
  induction as generalizing h s with
  | nil => simpa [Outcome.Sat] using hs
  | cons a as ih =>
    have hfirst := hstep h s a (has a List.mem_cons_self) hs
    refine hfirst.bind ?_ fun _ _ he => he
    intro t ht
    have hrest := ih (fun b hb => has b (List.mem_cons_of_mem a hb)) ht
    simpa using hrest

/-- The invariant rule with a condition for the states the run halts in. -/
theorem run_sat_invariant {P : σ → Prop} {E : ε → σ → Prop}
    (hstep : ∀ s a, P s → (step s a).Sat P E) {s : σ} (hs : P s) (as : List α) :
    (run step s as).Sat P E := by
  have hall : ∀ a ∈ as, (fun _ : α => True) a := fun _ _ => trivial
  exact run_sat (P := fun _ => P) (h := []) (fun _ s a _ => hstep s a) hall hs

theorem run_invariant {P : σ → Prop} (hstep : ∀ s a t, P s → step s a = ok t → P t)
    {as : List α} {s t : σ} (hs : P s) (hrun : run step s as = ok t) : P t :=
  run_history (P := fun _ => P) (h := []) (fun _ => hstep) hs hrun

/-- The invariant rule under a condition that every step of the run meets. -/
theorem run_guarded {P : σ → Prop} {G : σ → α → Prop}
    (hstep : ∀ s a t, P s → G s a → step s a = ok t → P t) {as : List α} {s t : σ} (hs : P s)
    (hrun : run step s as = ok t)
    (hguard : ∀ pre a post m, as = pre ++ a :: post → run step s pre = ok m → G m a) : P t := by
  induction as generalizing s with
  | nil =>
    cases hrun
    exact hs
  | cons a as ih =>
    obtain ⟨m, hm, hrest⟩ := run_cons_ok.mp hrun
    have hnext := hstep s a m hs (hguard [] a as s rfl rfl) hm
    refine ih hnext hrest ?_
    intro pre b post u has hu
    exact hguard (a :: pre) b post u (by rw [has]; rfl) (run_cons_ok.mpr ⟨m, hm, hu⟩)

/-- The invariant rule for the state a run ends in, halted or not. -/
theorem run_state {P : σ → Prop} (hstep : ∀ s a, P s → P (step s a).state)
    {as : List α} {s : σ} (hs : P s) : P (run step s as).state := by
  induction as generalizing s with
  | nil => exact hs
  | cons a as ih =>
    have hnext := hstep s a hs
    rw [run_cons]
    cases hst : step s a with
    | ok t =>
      rw [hst] at hnext
      exact ih hnext
    | halt e t =>
      rw [hst] at hnext
      exact hnext

/-- The latch rule: a flag that a step keeps, or sets exactly when `sets`
holds, is up at the end if and only if it was up at the start or some step of
the run has set it. -/
theorem run_latch {flag : σ → Prop} {sets : σ → α → Prop}
    (hstep : ∀ s a t, step s a = ok t → (flag t ↔ flag s ∨ sets s a))
    {as : List α} {s t : σ} (hrun : run step s as = ok t) :
    flag t ↔ flag s ∨ ∃ pre a post m,
      as = pre ++ a :: post ∧ run step s pre = ok m ∧ sets m a := by
  induction as generalizing s with
  | nil =>
    cases hrun
    simp
  | cons a as ih =>
    obtain ⟨m, hm, ht⟩ := run_cons_ok.mp hrun
    rw [ih ht, hstep s a m hm]
    constructor
    · intro h
      rcases h with (hs | hs) | ⟨pre, b, post, u, rfl, hu, hset⟩
      · exact Or.inl hs
      · exact Or.inr ⟨[], a, as, s, rfl, rfl, hs⟩
      · exact Or.inr ⟨a :: pre, b, post, u, rfl, run_cons_ok.mpr ⟨m, hm, hu⟩, hset⟩
    · intro h
      rcases h with hs | ⟨pre, b, post, u, heq, hu, hset⟩
      · exact Or.inl (Or.inl hs)
      · cases pre with
        | nil =>
          obtain ⟨rfl, rfl⟩ := List.cons.inj heq
          cases hu
          exact Or.inl (Or.inr hset)
        | cons c pre =>
          obtain ⟨rfl, rfl⟩ := List.cons.inj heq
          obtain ⟨m', hm', hu'⟩ := run_cons_ok.mp hu
          cases hm.symm.trans hm'
          exact Or.inr ⟨pre, b, post, u, rfl, hu', hset⟩

def HaltsAt (step : σ → α → Outcome ε σ) (p : α → Bool) (s : σ) (as : List α) : Prop :=
  ∃ pre a post m e u, as = pre ++ a :: post ∧ p a = true ∧
    run step s pre = ok m ∧ step m a = halt e u

theorem HaltsAt.cons {p : α → Bool} {s m : σ} {a : α} {as : List α}
    (hm : step s a = ok m) (h : HaltsAt step p m as) : HaltsAt step p s (a :: as) := by
  obtain ⟨pre, b, post, u, e, v, rfl, hp, hu, hb⟩ := h
  exact ⟨a :: pre, b, post, u, e, v, rfl, hp, run_cons_ok.mpr ⟨m, hm, hu⟩, hb⟩

theorem HaltsAt.append {p : α → Bool} {s : σ} {as : List α} (h : HaltsAt step p s as)
    (bs : List α) : HaltsAt step p s (as ++ bs) := by
  obtain ⟨pre, a, post, m, e, u, rfl, hp, hm, ha⟩ := h
  exact ⟨pre, a, post ++ bs, m, e, u, by simp, hp, hm, ha⟩

theorem not_haltsAt_of_ok {p : α → Bool} {s t : σ} {as : List α}
    (h : run step s as = ok t) : ¬ HaltsAt step p s as := by
  intro hhalt
  obtain ⟨pre, a, post, m, e, u, rfl, _, hm, ha⟩ := hhalt
  obtain ⟨m', hm', hrest⟩ := run_append_ok.mp h
  cases hm.symm.trans hm'
  obtain ⟨u', hu', _⟩ := run_cons_ok.mp hrest
  cases ha.symm.trans hu'

/-- The lockstep rule: where a silent action leaves related states related and
every other action takes related states to related outcomes, the run and the
run without its silent actions have related outcomes, unless a silent action
halts the former. -/
theorem run_lockstep {step' : τ → α → Outcome ε τ} {R : σ → τ → Prop} {silent : α → Bool}
    (hsilent : ∀ s t a s', R s t → silent a = true → step s a = ok s' → R s' t)
    (hloud : ∀ s t a, R s t → silent a = false → Rel R (step s a) (step' t a))
    {s : σ} {t : τ} (hst : R s t) (as : List α) :
    HaltsAt step silent s as ∨
      Rel R (run step s as) (run step' t (as.filter fun a => !silent a)) := by
  induction as generalizing s t with
  | nil => exact Or.inr hst
  | cons a as ih =>
    cases ha : silent a with
    | true =>
      cases hs : step s a with
      | ok s' =>
        rcases ih (hsilent s t a s' hst ha hs) with h | h
        · exact Or.inl (h.cons hs)
        · exact Or.inr (by simpa [hs, ha] using h)
      | halt e s' => exact Or.inl ⟨[], a, as, s, e, s', rfl, ha, rfl, hs⟩
    | false =>
      have hrel := hloud s t a hst ha
      cases hs : step s a with
      | ok s' =>
        rw [hs] at hrel
        obtain ⟨t', ht', hst'⟩ := hrel.ok_left
        rcases ih hst' with h | h
        · exact Or.inl (h.cons hs)
        · exact Or.inr (by simpa [hs, ha, ht'] using h)
      | halt e s' =>
        right
        rw [hs] at hrel
        cases ht : step' t a with
        | ok t' => rw [ht] at hrel; exact hrel.elim
        | halt e' t' => simpa [hs, ha, ht] using (ht ▸ hrel : Rel R (halt e s') (halt e' t'))

/-! A component of a machine, and the calls a run makes on it. -/

def calls (step : σ → α → Outcome ε σ) (call : σ → α → Option β) : σ → List α → List β
  | _, [] => []
  | s, a :: as => (call s a).toList ++ calls step call (step s a).state as

/-- The projection rule: where every action makes at most one step of the
component, a run of the machine is a run of the component. -/
theorem run_project {step' : τ → β → Outcome ε' τ} {call : σ → α → Option β} {π : σ → τ}
    (hstep : ∀ s a t, step s a = ok t → (call s a = none ∧ π t = π s) ∨
      ∃ b, call s a = some b ∧ step' (π s) b = ok (π t))
    {as : List α} {s t : σ} (h : run step s as = ok t) :
    run step' (π s) (calls step call s as) = ok (π t) := by
  induction as generalizing s with
  | nil =>
    cases h
    rfl
  | cons a as ih =>
    obtain ⟨m, hm, hrest⟩ := run_cons_ok.mp h
    rw [calls, hm, state_ok]
    rcases hstep s a m hm with ⟨hnone, hkeep⟩ | ⟨b, hsome, hb⟩
    · rw [hnone, ← hkeep]
      exact ih hrest
    · rw [hsome]
      exact run_cons_ok.mpr ⟨π m, hb, ih hrest⟩

end Run

/-! Machines that never halt, and a property of every call of a run. -/

/-- `P` holds of every action in the state it meets. -/
def Along (P : σ → α → Prop) (next : σ → α → σ) (s : σ) (as : List α) : Prop :=
  ∀ pre a post, as = pre ++ a :: post → P (pre.foldl next s) a

theorem along_nil {P : σ → α → Prop} {next : σ → α → σ} {s : σ} : Along P next s [] := by
  intro pre a post heq
  simp at heq

theorem along_cons {P : σ → α → Prop} {next : σ → α → σ} {s : σ} {a : α} {as : List α} :
    Along P next s (a :: as) ↔ P s a ∧ Along P next (next s a) as := by
  constructor
  · intro h
    refine ⟨h [] a as rfl, ?_⟩
    rintro pre b post rfl
    exact h (a :: pre) b post rfl
  · intro h pre b post heq
    cases pre with
    | nil =>
      obtain ⟨rfl, rfl⟩ := List.cons.inj heq
      exact h.1
    | cons c pre =>
      obtain ⟨rfl, rfl⟩ := List.cons.inj heq
      exact h.2 pre b post rfl

/-- Two machines whose properties agree in related states, and whose states
stay related as long as they hold. -/
theorem along_iff {P : σ → α → Prop} {Q : τ → α → Prop} {next : σ → α → σ} {next' : τ → α → τ}
    {R : σ → τ → Prop} {good : α → Prop} (hPQ : ∀ s t a, good a → R s t → (P s a ↔ Q t a))
    (hR : ∀ s t a, good a → R s t → Q t a → R (next s a) (next' t a)) {s : σ} {t : τ}
    (hst : R s t) {as : List α} (has : ∀ a ∈ as, good a) :
    Along P next s as ↔ Along Q next' t as := by
  induction as generalizing s t with
  | nil => exact ⟨fun _ => along_nil, fun _ => along_nil⟩
  | cons a as ih =>
    have ha := has a List.mem_cons_self
    rw [along_cons, along_cons, hPQ s t a ha hst]
    apply and_congr_right
    intro hq
    exact ih (hR s t a ha hst hq) fun b hb => has b (List.mem_cons_of_mem a hb)

inductive Reply (ρ : Type*)
  | done
  | again
  | fail (r : ρ)
  deriving DecidableEq, Repr

/-- Repeat `call` while it answers `again`, with `onAgain` run in between, for
at most `fuel` calls. `none` is a loop that has not ended by then. -/
def retry (call : σ → Reply ρ × σ) (onAgain : σ → σ) : ℕ → σ → Option (Except ρ Unit × σ)
  | 0, _ => none
  | fuel + 1, s =>
    match call s with
    | (.done, t) => some (.ok (), t)
    | (.again, t) => retry call onAgain fuel (onAgain t)
    | (.fail r, t) => some (.error r, t)

end RtmpRelay.Machine
