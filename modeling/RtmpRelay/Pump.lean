import RtmpRelay.Machine
import Mathlib.Data.Nat.Find

/-!
# Loops with fuel and pumps

A loop that repeats a call while it answers `again` gives the same result with
more fuel, and a machine whose calls take fuel finishes a run if and only if
every call ends in the state the run has reached.

A pump takes inputs and gives outputs, both through calls that may answer
`again`. Its contract says when they do: a send while outputs must be taken
first, a receive while no output is pending. Two loops drive it. The send loop
only repeats the send, so it ends exactly when no output has to be taken first;
the receive loop sends the same input again, so it ends exactly when finitely
many copies of that input produce an output.
-/

namespace RtmpRelay.Machine

open Outcome

variable {ε σ τ α ι ο ρ : Type*}

section Retry
variable {call : σ → Reply ρ × σ} {onAgain : σ → σ}

/-- The result of a call that does not answer `again`. -/
def settle : Reply ρ × σ → Option (Except ρ Unit × σ)
  | (.done, t) => some (.ok (), t)
  | (.again, _) => none
  | (.fail r, t) => some (.error r, t)

theorem settle_done {x : Reply ρ × σ} (h : x.1 = .done) : settle x = some (.ok (), x.2) := by
  obtain ⟨reply, t⟩ := x
  cases h
  rfl

theorem retry_of_ne {s : σ} (h : (call s).1 ≠ .again) (fuel : ℕ) :
    retry call onAgain (fuel + 1) s = settle (call s) := by
  simp only [retry, settle]
  split <;> simp_all

theorem retry_of_again {s : σ} (h : (call s).1 = .again) (fuel : ℕ) :
    retry call onAgain (fuel + 1) s = retry call onAgain fuel (onAgain (call s).2) := by
  rw [retry]
  split <;> simp_all

theorem retry_invariant {P : σ → Prop} (hcall : ∀ s, P s → P (call s).2)
    (hagain : ∀ s, P s → P (onAgain s)) {fuel : ℕ} {s : σ} {x : Except ρ Unit × σ} (hs : P s)
    (h : retry call onAgain fuel s = some x) : P x.2 := by
  induction fuel generalizing s with
  | zero => cases h
  | succ fuel ih =>
    rw [retry] at h
    have hnext := hcall s hs
    split at h
    · next t ht =>
      rw [ht] at hnext
      cases h
      exact hnext
    · next t ht =>
      rw [ht] at hnext
      exact ih (hagain t hnext) h
    · next f t ht =>
      rw [ht] at hnext
      cases h
      exact hnext

theorem retry_done {fuel : ℕ} {s t : σ} (h : retry call onAgain fuel s = some (.ok (), t)) :
    ∃ u, call u = (.done, t) := by
  induction fuel generalizing s with
  | zero => cases h
  | succ fuel ih =>
    rw [retry] at h
    split at h
    · next ht =>
      cases h
      exact ⟨s, ht⟩
    · exact ih h
    · cases h

theorem retry_mono {fuel fuel' : ℕ} {s : σ} (hle : fuel ≤ fuel')
    (h : retry call onAgain fuel s ≠ none) :
    retry call onAgain fuel' s = retry call onAgain fuel s := by
  induction fuel generalizing s fuel' with
  | zero => exact absurd rfl h
  | succ fuel ih =>
    obtain ⟨k, rfl⟩ := Nat.exists_eq_add_of_le hle
    rw [Nat.succ_add]
    by_cases hagain : (call s).1 = .again
    · rw [retry_of_again hagain] at h ⊢
      rw [retry_of_again hagain]
      exact ih (Nat.le_add_right fuel k) h
    · rw [retry_of_ne hagain, retry_of_ne hagain]

end Retry

/-! Runs of a machine whose calls take fuel. -/

section Fuel
variable {step : ℕ → σ → α → Outcome ε σ} {stuck : ε → Prop}

/-- The outcome is not that of a call that has not ended. -/
def Ended (stuck : ε → Prop) : Outcome ε σ → Prop
  | ok _ => True
  | halt e _ => ¬ stuck e

theorem Ended.bind_left {x : Outcome ε σ} {f : σ → Outcome ε σ} (h : Ended stuck (x.bind f)) :
    Ended stuck x := by
  cases x with
  | ok s => trivial
  | halt e s => exact h

def FuelMono (stuck : ε → Prop) (step : ℕ → σ → α → Outcome ε σ) : Prop :=
  ∀ fuel fuel' s a, fuel ≤ fuel' → Ended stuck (step fuel s a) → step fuel' s a = step fuel s a

theorem FuelMono.run (h : FuelMono stuck step) {fuel fuel' : ℕ} (hle : fuel ≤ fuel') {s : σ}
    {as : List α} (hended : Ended stuck (run (step fuel) s as)) :
    run (step fuel') s as = run (step fuel) s as := by
  induction as generalizing s with
  | nil => rfl
  | cons a as ih =>
    rw [run_cons] at hended
    rw [run_cons, run_cons, h fuel fuel' s a hle hended.bind_left]
    cases hs : step fuel s a with
    | halt e t => rfl
    | ok t =>
      rw [hs] at hended
      exact ih hended

theorem FuelMono.run_ok (h : FuelMono stuck step) {fuel fuel' : ℕ} (hle : fuel ≤ fuel') {s t : σ}
    {as : List α} (hrun : Machine.run (step fuel) s as = ok t) :
    Machine.run (step fuel') s as = ok t := by
  rw [h.run hle (by rw [hrun]; trivial), hrun]

theorem run_ended_iff (h : FuelMono stuck step) {s : σ} {as : List α} :
    (∃ fuel, Ended stuck (run (step fuel) s as)) ↔
      ∀ pre a post fuel t, as = pre ++ a :: post → run (step fuel) s pre = ok t →
        ∃ fuel', Ended stuck (step fuel' t a) := by
  constructor
  · intro hends pre a post fuel₁ t has hpre
    obtain ⟨fuel₂, hrun⟩ := hends
    rw [has, run_append] at hrun
    have hmax₁ := h.run_ok (le_max_left fuel₁ fuel₂) hpre
    have hmax₂ := h.run (le_max_right fuel₁ fuel₂) hrun.bind_left
    rw [← hmax₂, hmax₁, bind_ok, run_cons] at hrun
    exact ⟨fuel₂, hrun.bind_left⟩
  · intro hall
    induction as generalizing s with
    | nil => exact ⟨0, trivial⟩
    | cons a as ih =>
      obtain ⟨fuel₁, hfirst⟩ := hall [] a as 0 s rfl rfl
      cases hs : step fuel₁ s a with
      | halt e t =>
        refine ⟨fuel₁, ?_⟩
        rw [run_cons, hs]
        rwa [hs] at hfirst
      | ok m =>
        have hrest : ∃ fuel, Ended stuck (run (step fuel) m as) := by
          apply ih
          intro pre b post fuel₂ t has hpre
          refine hall (a :: pre) b post (max fuel₁ fuel₂) t (by rw [has]; rfl) ?_
          refine run_cons_ok.mpr ⟨m, ?_, h.run_ok (le_max_right fuel₁ fuel₂) hpre⟩
          rw [h fuel₁ _ s a (le_max_left fuel₁ fuel₂) hfirst, hs]
        obtain ⟨fuel₂, hrun⟩ := hrest
        refine ⟨max fuel₁ fuel₂, ?_⟩
        rw [run_cons, h fuel₁ _ s a (le_max_left fuel₁ fuel₂) hfirst, hs, bind_ok,
          h.run (le_max_right fuel₁ fuel₂) hrun]
        exact hrun

end Fuel

structure Pump (σ ι ο ρ : Type*) where
  send : σ → ι → Reply ρ × σ
  receive : σ → Reply ρ × ο × σ

namespace Pump
variable (P : Pump σ ι ο ρ)

def sendLoop (x : ι) : ℕ → σ → Option (Except ρ Unit × σ) :=
  retry (fun c => P.send c x) id

def receiveLoop (x : ι) : ℕ → σ × ο → Option (Except ρ Unit × σ × ο) :=
  retry (fun s => ((P.receive s.1).1, (P.receive s.1).2.2, (P.receive s.1).2.1))
    (fun s => ((P.send s.1 x).2, s.2))

def resend (x : ι) : ℕ → σ → σ
  | 0, c => c
  | n + 1, c => resend x n (P.send c x).2

/-- A send answers `again` exactly when outputs must be taken first, a receive
exactly when none is pending, and neither changes the state then. A pump holds
a bounded number of outputs, and a receive takes one of them. -/
structure Contract where
  pending : σ → ℕ
  capacity : ℕ
  mustReceive : σ → Prop
  pending_le : ∀ c, pending c ≤ capacity
  pending_pos : ∀ c, mustReceive c → 0 < pending c
  send_again_iff : ∀ c x, (P.send c x).1 = .again ↔ mustReceive c
  send_again_keeps : ∀ c x, mustReceive c → (P.send c x).2 = c
  send_done_le : ∀ c x, (P.send c x).1 = .done → pending c ≤ pending (P.send c x).2
  receive_again_iff : ∀ c, (P.receive c).1 = .again ↔ pending c = 0
  receive_again_keeps : ∀ c, pending c = 0 → (P.receive c).2.2 = c
  receive_done_eq : ∀ c, (P.receive c).1 = .done → pending (P.receive c).2.2 + 1 = pending c

namespace Contract
variable {P} (C : P.Contract) {c : σ} {x : ι} {o : ο}

def Produces (x : ι) (c : σ) (n : ℕ) : Prop :=
  C.pending (P.resend x n c) ≠ 0 ∧ ∀ m < n, C.pending (P.resend x m c) = 0

/-- Nothing has to be taken first, and if the input is accepted then finitely
many copies of it produce an output. -/
def Ready (c : σ) (x : ι) : Prop :=
  ¬ C.mustReceive c ∧
    ((P.send c x).1 = .done → ∃ n, C.pending (P.resend x n (P.send c x).2) ≠ 0)

theorem produces_of_pending (h : ∃ n, C.pending (P.resend x n c) ≠ 0) : ∃ n, C.Produces x c n := by
  classical
  exact ⟨Nat.find h, Nat.find_spec h, fun m hm => not_not.mp (Nat.find_min h hm)⟩

theorem sendLoop_of_not (h : ¬ C.mustReceive c) (fuel : ℕ) :
    P.sendLoop x (fuel + 1) c = settle (P.send c x) :=
  retry_of_ne (fun hagain => h ((C.send_again_iff c x).mp hagain)) fuel

theorem sendLoop_of_must (h : C.mustReceive c) (fuel : ℕ) : P.sendLoop x fuel c = none := by
  induction fuel with
  | zero => rfl
  | succ fuel ih =>
    have hagain : (P.send c x).1 = .again := (C.send_again_iff c x).mpr h
    rw [sendLoop, retry_of_again hagain, C.send_again_keeps c x h]
    exact ih

theorem receiveLoop_add {n : ℕ} (h : ∀ m < n, C.pending (P.resend x m c) = 0) (fuel : ℕ) :
    ∃ o', P.receiveLoop x (n + fuel) (c, o) = P.receiveLoop x fuel (P.resend x n c, o') := by
  induction n generalizing c o with
  | zero =>
    rw [Nat.zero_add]
    exact ⟨o, rfl⟩
  | succ n ih =>
    have hzero : C.pending c = 0 := h 0 (Nat.succ_pos n)
    have hagain : (P.receive c).1 = .again := (C.receive_again_iff c).mpr hzero
    obtain ⟨o', ho'⟩ := ih (c := (P.send c x).2) (o := (P.receive c).2.1)
      fun m hm => h (m + 1) (Nat.succ_lt_succ hm)
    refine ⟨o', ?_⟩
    rw [Nat.succ_add, receiveLoop, retry_of_again hagain]
    dsimp only
    rw [C.receive_again_keeps c hzero]
    exact ho'

theorem receiveLoop_of_produces {n : ℕ} (h : C.Produces x c n) (fuel : ℕ) :
    P.receiveLoop x (n + (fuel + 1)) (c, o) =
      settle ((P.receive (P.resend x n c)).1, (P.receive (P.resend x n c)).2.2,
        (P.receive (P.resend x n c)).2.1) := by
  obtain ⟨o', ho'⟩ := C.receiveLoop_add (o := o) h.2 (fuel + 1)
  rw [ho', receiveLoop, retry_of_ne fun hagain => h.1 ((C.receive_again_iff _).mp hagain)]

theorem receiveLoop_of_none (h : ∀ n, C.pending (P.resend x n c) = 0) (fuel : ℕ) :
    P.receiveLoop x fuel (c, o) = none := by
  obtain ⟨o', ho'⟩ := C.receiveLoop_add (o := o) (n := fuel) (fun m _ => h m) 0
  rw [Nat.add_zero] at ho'
  exact ho'

def Yields (c : σ) (x : ι) (c' : σ) (o : ο) : Prop :=
  (P.send c x).1 = .done ∧
    ∃ n, C.Produces x (P.send c x).2 n ∧
      P.receive (P.resend x n (P.send c x).2) = (.done, o, c')

end Contract

/-- One round through a pump: both loops, the exits of each, and what is done
with the output. -/
def drive (x : ι) (o : ο) (stuck : τ) (onSend onReceive : ρ → σ → τ) (k : ℕ → σ → ο → τ)
    (fuel : ℕ) (c : σ) : τ :=
  match P.sendLoop x fuel c with
  | none => stuck
  | some (.error f, c) => onSend f c
  | some (.ok (), c) =>
    match P.receiveLoop x fuel (c, o) with
    | none => stuck
    | some (.error f, c, _) => onReceive f c
    | some (.ok (), c, o) => k fuel c o

section Drive
variable {P} {x : ι} {o : ο} {stuck : τ} {onSend onReceive : ρ → σ → τ} {k : ℕ → σ → ο → τ} {c : σ}

theorem drive_mono (hk : ∀ fuel fuel' c o, fuel ≤ fuel' → k fuel c o ≠ stuck →
    k fuel' c o = k fuel c o) {fuel fuel' : ℕ} (hle : fuel ≤ fuel')
    (h : P.drive x o stuck onSend onReceive k fuel c ≠ stuck) :
    P.drive x o stuck onSend onReceive k fuel' c = P.drive x o stuck onSend onReceive k fuel c := by
  have hsend : P.sendLoop x fuel c ≠ none := by
    intro hnone
    exact h (by rw [drive, hnone])
  rw [drive] at h ⊢
  rw [drive, sendLoop, retry_mono hle hsend, ← sendLoop]
  cases hs : P.sendLoop x fuel c with
  | none => exact absurd hs hsend
  | some r =>
    obtain ⟨f | u, c₁⟩ := r
    · rfl
    · rw [hs] at h
      dsimp only at h ⊢
      have hreceive : P.receiveLoop x fuel (c₁, o) ≠ none := by
        intro hnone
        exact h (by rw [hnone])
      rw [receiveLoop, retry_mono hle hreceive, ← receiveLoop]
      cases hr : P.receiveLoop x fuel (c₁, o) with
      | none => exact absurd hr hreceive
      | some r =>
        obtain ⟨f | u, c₂, o₂⟩ := r
        · rfl
        · rw [hr] at h
          exact hk fuel fuel' c₂ o₂ hle h

/-- A round ends if and only if the pump is ready for its input and, where an
output comes of it, what is done with the output ends. -/
theorem Contract.drive_ends_iff (C : P.Contract) (hsend : ∀ f c, onSend f c ≠ stuck)
    (hreceive : ∀ f c, onReceive f c ≠ stuck)
    (hk : ∀ fuel fuel' c o, fuel ≤ fuel' → k fuel c o ≠ stuck → k fuel' c o = k fuel c o) :
    (∃ fuel, P.drive x o stuck onSend onReceive k fuel c ≠ stuck) ↔
      C.Ready c x ∧ ∀ c' o', C.Yields c x c' o' → ∃ fuel, k fuel c' o' ≠ stuck := by
  constructor
  · intro hends
    obtain ⟨fuel, h⟩ := hends
    have hmust : ¬ C.mustReceive c := by
      intro hmust
      exact h (by rw [drive, C.sendLoop_of_must hmust])
    obtain ⟨fuel, rfl⟩ : ∃ m, fuel = m + 1 := by
      cases fuel with
      | zero => exact absurd rfl h
      | succ m => exact ⟨m, rfl⟩
    refine ⟨⟨hmust, fun hdone => ?_⟩, ?_⟩
    · by_contra hnone
      push Not at hnone
      apply h
      rw [drive, C.sendLoop_of_not hmust, settle_done hdone]
      dsimp only
      rw [C.receiveLoop_of_none hnone]
    · intro c' o' hyields
      obtain ⟨hdone, n, hproduces, hout⟩ := hyields
      have hmore := drive_mono hk (Nat.le_add_left (fuel + 1) n) h
      rw [← hmore, drive, ← Nat.add_assoc, C.sendLoop_of_not hmust, settle_done hdone] at h
      dsimp only at h
      rw [Nat.add_assoc, C.receiveLoop_of_produces hproduces, hout] at h
      exact ⟨n + (fuel + 1), h⟩
  · intro hready
    obtain ⟨⟨hmust, hnext⟩, hyields⟩ := hready
    cases hs : P.send c x with
    | mk reply c₁ =>
      cases reply with
      | again => exact absurd ((C.send_again_iff c x).mp (by rw [hs])) hmust
      | fail f =>
        refine ⟨1, ?_⟩
        rw [drive, C.sendLoop_of_not hmust, hs]
        exact hsend f c₁
      | done =>
        have hdone : (P.send c x).1 = .done := by rw [hs]
        obtain ⟨n, hproduces⟩ := C.produces_of_pending (hnext hdone)
        cases hr : P.receive (P.resend x n (P.send c x).2) with
        | mk reply r =>
          obtain ⟨o₂, c₂⟩ := r
          cases reply with
          | again =>
            exact absurd ((C.receive_again_iff _).mp (by rw [hr])) hproduces.1
          | fail f =>
            refine ⟨n + (0 + 1), ?_⟩
            rw [drive, ← Nat.add_assoc, C.sendLoop_of_not hmust, settle_done hdone]
            dsimp only
            rw [Nat.add_assoc, C.receiveLoop_of_produces hproduces, hr]
            exact hreceive f c₂
          | done =>
            obtain ⟨fuel, hfuel⟩ := hyields c₂ o₂ ⟨hdone, n, hproduces, hr⟩
            refine ⟨n + (fuel + 1), ?_⟩
            rw [drive, ← Nat.add_assoc, C.sendLoop_of_not hmust, settle_done hdone]
            dsimp only
            rw [Nat.add_assoc, C.receiveLoop_of_produces hproduces, hr]
            change k (n + (fuel + 1)) c₂ o₂ ≠ stuck
            rw [hk fuel _ c₂ o₂ (by omega) hfuel]
            exact hfuel

end Drive

end Pump

end RtmpRelay.Machine
