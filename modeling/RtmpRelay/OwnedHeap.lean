import Mathlib.Data.List.Basic
import Mathlib.Data.List.Nodup
import Mathlib.Logic.Function.Basic
import Mathlib.Tactic.Common

/-!
# A heap and who owns it

Objects live at addresses that are given out once, so that an address freed
is never valid again. `Owned h ps` says that the pairs of `ps` are all there
is: every address once, with its object. A program is then safe when each of
its accesses is to a pair it owns, and leaks nothing when it owns nothing in
the end.
-/

namespace RtmpRelay.OwnedHeap

open Function

variable {α : Type*}

structure Heap (α : Type*) where
  cells : ℕ → Option α
  next : ℕ
  fresh : ∀ a, next ≤ a → cells a = none

namespace Heap

def empty : Heap α := ⟨fun _ => none, 0, fun _ _ => rfl⟩

def load (h : Heap α) (a : ℕ) : Option α := h.cells a

def alloc (h : Heap α) (x : α) : ℕ × Heap α :=
  (h.next, ⟨update h.cells h.next (some x), h.next + 1, fun a ha => by
    have hne : a ≠ h.next := by omega
    rw [update_of_ne hne]
    exact h.fresh a (by omega)⟩)

theorem load_lt {h : Heap α} {a : ℕ} (hl : (h.load a).isSome) : a < h.next := by
  by_contra hn
  have hnone : h.load a = none := h.fresh a (Nat.le_of_not_lt hn)
  rw [hnone] at hl
  cases hl

/-- The heap with another content at an address that is in use. -/
def set (h : Heap α) (a : ℕ) (ha : (h.load a).isSome) (o : Option α) : Heap α :=
  ⟨update h.cells a o, h.next, fun b hb => by
    have hne : b ≠ a := fun he => absurd (he ▸ load_lt ha) (Nat.not_lt_of_le hb)
    rw [update_of_ne hne]
    exact h.fresh b hb⟩

def store (h : Heap α) (a : ℕ) (x : α) : Option (Heap α) :=
  if ha : (h.load a).isSome then some (h.set a ha (some x)) else none

def free (h : Heap α) (a : ℕ) : Option (Heap α) :=
  if ha : (h.load a).isSome then some (h.set a ha none) else none

end Heap

structure Owned (h : Heap α) (ps : List (ℕ × α)) : Prop where
  nodup : (ps.map Prod.fst).Nodup
  load_iff : ∀ a x, h.load a = some x ↔ (a, x) ∈ ps

variable {h : Heap α} {ps qs : List (ℕ × α)} {a : ℕ} {x y : α}

theorem owned_empty : Owned (Heap.empty : Heap α) [] :=
  ⟨List.nodup_nil, fun _ _ => ⟨fun hf => (by cases hf), fun hf => absurd hf List.not_mem_nil⟩⟩

theorem Owned.perm (ho : Owned h ps) (hp : ps.Perm qs) : Owned h qs :=
  ⟨(hp.map Prod.fst).nodup_iff.mp ho.nodup, fun a x => (ho.load_iff a x).trans hp.mem_iff⟩

theorem Owned.load (ho : Owned h ps) (hm : (a, x) ∈ ps) : h.load a = some x :=
  (ho.load_iff a x).mpr hm

theorem Owned.head (ho : Owned h ((a, x) :: ps)) : h.load a = some x :=
  ho.load List.mem_cons_self

theorem Owned.not_mem (ho : Owned h ((a, x) :: ps)) (y : α) : (a, y) ∉ ps := by
  intro hm
  exact (List.nodup_cons.mp ho.nodup).1 (List.mem_map.mpr ⟨(a, y), hm, rfl⟩)

/-- Nothing owned, nothing left. -/
theorem Owned.nothing (ho : Owned h []) (a : ℕ) : h.load a = none := by
  cases hl : h.load a with
  | none => rfl
  | some x => exact absurd ((ho.load_iff a x).mp hl) List.not_mem_nil

theorem Owned.alloc (ho : Owned h ps) (x : α) :
    Owned (h.alloc x).2 (((h.alloc x).1, x) :: ps) := by
  have hnew : h.next ∉ ps.map Prod.fst := by
    intro hm
    obtain ⟨⟨b, y⟩, hp, rfl⟩ := List.mem_map.mp hm
    have hlt := Heap.load_lt (Option.isSome_of_eq_some (ho.load hp))
    exact absurd hlt (Nat.lt_irrefl _)
  refine ⟨List.nodup_cons.mpr ⟨hnew, ho.nodup⟩, fun b y => ?_⟩
  show update h.cells h.next (some x) b = some y ↔ (b, y) ∈ (h.next, x) :: ps
  rw [List.mem_cons]
  by_cases hb : b = h.next
  · subst hb
    rw [update_self]
    constructor
    · intro he
      cases he
      exact Or.inl rfl
    · rintro (he | hm)
      · cases he
        rfl
      · exact absurd (List.mem_map.mpr ⟨_, hm, rfl⟩) hnew
  · rw [update_of_ne hb]
    refine (ho.load_iff b y).trans ⟨Or.inr, fun hm => hm.resolve_left fun he => hb ?_⟩
    exact congrArg Prod.fst he

theorem Owned.store (ho : Owned h ((a, x) :: ps)) (y : α) :
    ∃ h', h.store a y = some h' ∧ Owned h' ((a, y) :: ps) := by
  have ha := Option.isSome_of_eq_some ho.head
  refine ⟨h.set a ha (some y), dif_pos ha, ho.nodup, fun b z => ?_⟩
  show update h.cells a (some y) b = some z ↔ (b, z) ∈ (a, y) :: ps
  rw [List.mem_cons]
  by_cases hb : b = a
  · subst hb
    rw [update_self]
    constructor
    · intro he
      cases he
      exact Or.inl rfl
    · rintro (he | hm)
      · cases he
        rfl
      · exact absurd hm (ho.not_mem z)
  · rw [update_of_ne hb]
    refine (ho.load_iff b z).trans ?_
    rw [List.mem_cons]
    constructor
    · rintro (he | hm)
      · exact absurd (congrArg Prod.fst he) hb
      · exact Or.inr hm
    · rintro (he | hm)
      · exact absurd (congrArg Prod.fst he) hb
      · exact Or.inr hm

theorem Owned.free (ho : Owned h ((a, x) :: ps)) :
    ∃ h', h.free a = some h' ∧ Owned h' ps := by
  have ha := Option.isSome_of_eq_some ho.head
  refine ⟨h.set a ha none, dif_pos ha, (List.nodup_cons.mp ho.nodup).2, fun b z => ?_⟩
  show update h.cells a none b = some z ↔ (b, z) ∈ ps
  by_cases hb : b = a
  · subst hb
    rw [update_self]
    exact ⟨fun he => (by cases he), fun hm => absurd hm (ho.not_mem z)⟩
  · rw [update_of_ne hb]
    refine (ho.load_iff b z).trans ?_
    rw [List.mem_cons]
    exact ⟨fun hm => hm.resolve_left fun he => hb (congrArg Prod.fst he), Or.inr⟩

end RtmpRelay.OwnedHeap
