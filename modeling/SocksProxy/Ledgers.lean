import Mathlib.Data.List.Nodup
import Mathlib.Logic.Function.Basic

/-!
A ledger of resources that are handed out and given back. It lists what was
issued and what was settled; the balance says that the resources still live are
those that were issued and not settled, and that nothing was issued or settled
twice.
-/
namespace SocksProxy.Ledgers

variable {α : Type*}

structure Ledger (α : Type*) where
  issued : List α
  settled : List α

namespace Ledger

def empty : Ledger α := { issued := [], settled := [] }

def issue (l : Ledger α) (x : α) : Ledger α := { l with issued := x :: l.issued }

def settle (l : Ledger α) (x : α) : Ledger α := { l with settled := x :: l.settled }

/-- The resources for which `live` holds are the ones not given back. -/
structure Balanced (l : Ledger α) (live : α → Prop) : Prop where
  issued_nodup : l.issued.Nodup
  settled_nodup : l.settled.Nodup
  mem_issued : ∀ x, x ∈ l.issued ↔ live x ∨ x ∈ l.settled
  unsettled : ∀ x, live x → x ∉ l.settled

variable {l : Ledger α} {live live' : α → Prop} {x : α}

theorem balanced_empty (h : ∀ x, ¬ live x) : (empty : Ledger α).Balanced live where
  issued_nodup := List.nodup_nil
  settled_nodup := List.nodup_nil
  mem_issued := by
    intro x
    simp [empty, h x]
  unsettled := by
    intro x hx
    exact absurd hx (h x)

namespace Balanced

theorem congr (h : l.Balanced live) (hlive : ∀ x, live' x ↔ live x) : l.Balanced live' where
  issued_nodup := h.issued_nodup
  settled_nodup := h.settled_nodup
  mem_issued := by
    intro x
    rw [hlive]
    exact h.mem_issued x
  unsettled := by
    intro x hx
    exact h.unsettled x ((hlive x).mp hx)

/-- A new resource is handed out. -/
theorem issue (h : l.Balanced live) (hx : x ∉ l.issued)
    (hlive : ∀ y, live' y ↔ live y ∨ y = x) : (l.issue x).Balanced live' where
  issued_nodup := List.nodup_cons.mpr ⟨hx, h.issued_nodup⟩
  settled_nodup := h.settled_nodup
  mem_issued := by
    intro y
    have hy := h.mem_issued y
    rw [hlive]
    simp only [Ledger.issue, List.mem_cons]
    constructor
    · rintro (rfl | hmem)
      · exact Or.inl (Or.inr rfl)
      · exact (hy.mp hmem).imp_left Or.inl
    · rintro ((hl | rfl) | hs)
      · exact Or.inr (hy.mpr (Or.inl hl))
      · exact Or.inl rfl
      · exact Or.inr (hy.mpr (Or.inr hs))
  unsettled := by
    intro y hy hmem
    rcases (hlive y).mp hy with hl | rfl
    · exact h.unsettled y hl hmem
    · exact hx ((h.mem_issued y).mpr (Or.inr hmem))

/-- A live resource is given back. -/
theorem settle (h : l.Balanced live) (hx : live x)
    (hlive : ∀ y, live' y ↔ live y ∧ y ≠ x) : (l.settle x).Balanced live' where
  issued_nodup := h.issued_nodup
  settled_nodup := List.nodup_cons.mpr ⟨h.unsettled x hx, h.settled_nodup⟩
  mem_issued := by
    intro y
    have hy := h.mem_issued y
    rw [hlive]
    simp only [Ledger.settle, List.mem_cons]
    constructor
    · intro hmem
      by_cases hyx : y = x
      · exact Or.inr (Or.inl hyx)
      · exact (hy.mp hmem).imp (fun hl => ⟨hl, hyx⟩) Or.inr
    · rintro (⟨hl, -⟩ | rfl | hs)
      · exact hy.mpr (Or.inl hl)
      · exact hy.mpr (Or.inl hx)
      · exact hy.mpr (Or.inr hs)
  unsettled := by
    intro y hy hmem
    obtain ⟨hl, hyx⟩ := (hlive y).mp hy
    rcases List.mem_cons.mp hmem with rfl | hmem
    · exact hyx rfl
    · exact h.unsettled y hl hmem

theorem mem_of_live (h : l.Balanced live) (hx : live x) : x ∈ l.issued :=
  (h.mem_issued x).mpr (Or.inl hx)

theorem settled_iff (h : l.Balanced live) (hx : x ∈ l.issued) : x ∈ l.settled ↔ ¬ live x := by
  constructor
  · intro hmem hl
    exact h.unsettled x hl hmem
  · intro hl
    exact ((h.mem_issued x).mp hx).resolve_left hl

/-- What was handed out and is no longer live was given back exactly once. -/
theorem count_settled [BEq α] [LawfulBEq α] (h : l.Balanced live) (hx : x ∈ l.issued)
    (hdead : ¬ live x) : l.settled.count x = 1 :=
  List.count_eq_one_of_mem h.settled_nodup ((h.settled_iff hx).mpr hdead)

/-- When nothing is live any more, everything was given back. -/
theorem settled_perm (h : l.Balanced live) (hdead : ∀ x, ¬ live x) : l.settled.Perm l.issued := by
  rw [List.perm_ext_iff_of_nodup h.settled_nodup h.issued_nodup]
  intro x
  rw [h.mem_issued x, or_iff_right (hdead x)]

end Balanced

/-! Resources that have one holder each. -/

section Held

variable {ι : Type*} [DecidableEq ι] {f f' : ι → Option α} {i : ι}

/-- `f` says what each holder has; what is live has exactly one holder. -/
structure Held (l : Ledger α) (f : ι → Option α) : Prop where
  holder_unique : ∀ i j x, f i = some x → f j = some x → i = j
  balanced : l.Balanced fun x => ∃ i, f i = some x

theorem update_eq_some {y : Option α} {j : ι} (h : Function.update f i y j = some x) :
    j = i ∧ y = some x ∨ j ≠ i ∧ f j = some x := by
  by_cases hj : j = i
  · subst hj
    rw [Function.update_self] at h
    exact Or.inl ⟨rfl, h⟩
  · rw [Function.update_of_ne hj] at h
    exact Or.inr ⟨hj, h⟩

omit [DecidableEq ι] in
theorem held_empty (h : ∀ i, f i = none) : (empty : Ledger α).Held f where
  holder_unique := by
    intro i j x hi
    rw [h i] at hi
    exact absurd hi (by simp)
  balanced := by
    apply balanced_empty
    rintro x ⟨i, hi⟩
    rw [h i] at hi
    exact absurd hi (by simp)

namespace Held

omit [DecidableEq ι] in
theorem congr (h : l.Held f) (hf : ∀ i, f' i = f i) : l.Held f' := by
  have heq : f' = f := funext hf
  rw [heq]
  exact h

/-- A holder without resource gets a new one. -/
theorem gain (h : l.Held f) (hx : x ∉ l.issued) (hi : f i = none) :
    (l.issue x).Held (Function.update f i (some x)) where
  holder_unique := by
    intro j k y hj hk
    have hold : ∀ j, f j ≠ some x := fun j hj => hx (h.balanced.mem_of_live ⟨j, hj⟩)
    rcases update_eq_some hj with ⟨hji, hy⟩ | ⟨-, hj'⟩ <;>
      rcases update_eq_some hk with ⟨hki, hy'⟩ | ⟨-, hk'⟩
    · rw [hji, hki]
    · exact absurd (hk'.trans hy.symm) (hold k)
    · exact absurd (hj'.trans hy'.symm) (hold j)
    · exact h.holder_unique j k y hj' hk'
  balanced := by
    apply h.balanced.issue hx
    intro y
    constructor
    · rintro ⟨j, hj⟩
      rcases update_eq_some hj with ⟨-, hy⟩ | ⟨-, hj⟩
      · exact Or.inr (Option.some.inj hy).symm
      · exact Or.inl ⟨j, hj⟩
    · rintro (⟨j, hj⟩ | rfl)
      · have hne : j ≠ i := by
          rintro rfl
          rw [hi] at hj
          exact absurd hj (by simp)
        exact ⟨j, by rw [Function.update_of_ne hne]; exact hj⟩
      · exact ⟨i, Function.update_self _ _ _⟩

/-- A holder gives its resource back. -/
theorem lose (h : l.Held f) (hi : f i = some x) :
    (l.settle x).Held (Function.update f i none) where
  holder_unique := by
    intro j k y hj hk
    rcases update_eq_some hj with ⟨-, hy⟩ | ⟨-, hj⟩
    · exact absurd hy (by simp)
    rcases update_eq_some hk with ⟨-, hy⟩ | ⟨-, hk⟩
    · exact absurd hy (by simp)
    exact h.holder_unique j k y hj hk
  balanced := by
    apply h.balanced.settle ⟨i, hi⟩
    intro y
    constructor
    · rintro ⟨j, hj⟩
      rcases update_eq_some hj with ⟨-, hy⟩ | ⟨hne, hj⟩
      · exact absurd hy (by simp)
      · refine ⟨⟨j, hj⟩, ?_⟩
        rintro rfl
        exact hne (h.holder_unique j i y hj hi)
    · rintro ⟨⟨j, hj⟩, hne⟩
      have hji : j ≠ i := by
        rintro rfl
        rw [hi, Option.some.injEq] at hj
        exact hne hj.symm
      exact ⟨j, by rw [Function.update_of_ne hji]; exact hj⟩

end Held

end Held

/-! Resources that carry the number under which they were issued. -/

/-- Every resource issued so far has a number below `n`. -/
def Below (l : Ledger α) (num : α → ℕ) (n : ℕ) : Prop := ∀ x ∈ l.issued, num x < n

variable {num : α → ℕ} {n : ℕ}

theorem Below.not_mem (h : l.Below num n) (hx : num x = n) : x ∉ l.issued := by
  intro hmem
  have hlt := h x hmem
  omega

theorem Below.issue (h : l.Below num n) (hx : num x = n) : (l.issue x).Below num (n + 1) := by
  intro y hmem
  rcases List.mem_cons.mp hmem with rfl | hmem
  · omega
  · have hlt := h y hmem
    omega

theorem Below.settle (h : l.Below num n) (x : α) : (l.settle x).Below num n := h

end Ledger

end SocksProxy.Ledgers
