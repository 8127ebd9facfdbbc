import Mathlib.Algebra.Ring.Nat
import Mathlib.Data.List.DropRight
import Mathlib.Data.List.Induction
import Mathlib.Data.List.OfFn
import Mathlib.Tactic.Common

/-!
Circular arrays that keep the last values written, and the longest suffix of a
list whose weight stays below a bound. An array that is not full has its oldest
value in its first cell; a full one has it in the cell that is written next.
-/
namespace SocksProxy.Circular

section Cells

variable {α : Type*} {n : ℕ}

/-- `count` cells are in use and `next` is written next. -/
structure CircularArray (α : Type*) (n : ℕ) where
  entries : Vector α n
  count : ℕ
  next : ℕ
  count_le : count ≤ n
  next_lt : next < n
  next_eq : count < n → next = count

namespace CircularArray

def empty (x : α) (h : 0 < n) : CircularArray α n where
  entries := Vector.replicate n x
  count := 0
  next := 0
  count_le := Nat.zero_le n
  next_lt := h
  next_eq := fun _ => rfl

theorem pos (r : CircularArray α n) : 0 < n := Nat.lt_of_le_of_lt (Nat.zero_le _) r.next_lt

def push (r : CircularArray α n) (x : α) : CircularArray α n where
  entries := r.entries.set r.next x r.next_lt
  count := if r.count < n then r.count + 1 else r.count
  next := (r.next + 1) % n
  count_le := by
    have hle := r.count_le
    split <;> omega
  next_lt := Nat.mod_lt _ r.pos
  next_eq := by
    intro h
    split at h
    next hlt =>
      rw [if_pos hlt, r.next_eq hlt]
      exact Nat.mod_eq_of_lt h
    next hge => exact absurd h hge

/-- The cell of the oldest value. -/
def oldest (r : CircularArray α n) : ℕ := if r.count < n then 0 else r.next

/-- The value at index `j % n`. -/
def cell (r : CircularArray α n) (j : ℕ) : α :=
  have h := Nat.mod_lt j r.pos
  r.entries[j % n]

theorem cell_congr (r : CircularArray α n) {j k : ℕ} (h : j % n = k % n) : r.cell j = r.cell k := by
  simp only [cell, h]

/-- The value that is `i` places after the oldest. -/
def entry (r : CircularArray α n) (i : ℕ) : α := r.cell (r.oldest + i)

/-- The values in use, oldest first. -/
def contents (r : CircularArray α n) : List α := List.ofFn fun i : Fin r.count => r.entry i

@[simp] theorem contents_length (r : CircularArray α n) : r.contents.length = r.count := by
  simp [contents]

theorem contents_getElem? (r : CircularArray α n) {i : ℕ} (h : i < r.count) :
    r.contents[i]? = some (r.entry i) := by
  rw [contents, List.getElem?_ofFn, dif_pos h]

theorem contents_empty (x : α) (h : 0 < n) : (empty x h).contents = [] := by
  simp [contents, empty]

private theorem entries_push (r : CircularArray α n) (x : α) :
    (r.push x).entries = r.entries.set r.next x r.next_lt := rfl

/-- While there is room the values stay where they are. -/
private theorem entry_push_room (r : CircularArray α n) (x : α) (hroom : r.count < n) {i : ℕ}
    (h : i ≤ r.count) : (r.push x).entry i = if i = r.count then x else r.entry i := by
  have hnext := r.next_eq hroom
  have hold : r.oldest = 0 := if_pos hroom
  have hold' : (r.push x).oldest = 0 := by
    unfold oldest
    split
    · rfl
    next hfull =>
      have hn : r.count + 1 = n := by
        simp only [push, if_pos hroom] at hfull
        omega
      simp [push, hnext, hn]
  have hmod : i % n = i := Nat.mod_eq_of_lt (by omega)
  simp only [entry, cell, hold, hold', Nat.zero_add, hmod, entries_push, Vector.getElem_set, hnext]
  by_cases hi : i = r.count
  · rw [if_pos hi.symm, if_pos hi]
  · rw [if_neg (Ne.symm hi), if_neg hi]

/-- In a full array the oldest value makes place for the new one. -/
private theorem entry_push_full (r : CircularArray α n) (x : α) (hfull : r.count = n) {i : ℕ}
    (h : i < n) : (r.push x).entry i = if i + 1 = n then x else r.entry (i + 1) := by
  have hlt := r.next_lt
  have hnot : ¬ r.count < n := by omega
  have hcount : (r.push x).count = r.count := if_neg hnot
  have hold : r.oldest = r.next := if_neg hnot
  have hold' : (r.push x).oldest = (r.next + 1) % n := if_neg (by rw [hcount]; exact hnot)
  have hindex : ((r.next + 1) % n + i) % n = (r.next + (i + 1)) % n := by
    rw [Nat.mod_add_mod]
    congr 1
    omega
  simp only [entry, cell, hold, hold', hindex, entries_push, Vector.getElem_set]
  by_cases hlast : i + 1 = n
  · rw [if_pos (by rw [hlast, Nat.add_mod_right, Nat.mod_eq_of_lt hlt]), if_pos hlast]
  · have hne : r.next ≠ (r.next + (i + 1)) % n := by
      intro heq
      by_cases hwrap : r.next + (i + 1) < n
      · rw [Nat.mod_eq_of_lt hwrap] at heq
        omega
      · rw [Nat.mod_eq_sub_mod (by omega), Nat.mod_eq_of_lt (by omega)] at heq
        omega
    rw [if_neg hne, if_neg hlast]

theorem contents_push (r : CircularArray α n) (x : α) :
    (r.push x).contents = (r.contents ++ [x]).rtake n := by
  have hle := r.count_le
  apply List.ext_getElem?
  intro i
  by_cases hroom : r.count < n
  · have hcount : (r.push x).count = r.count + 1 := if_pos hroom
    have hdrop : r.count + 1 - n = 0 := by omega
    rw [List.rtake, List.length_append, contents_length, List.length_singleton, hdrop,
      List.drop_zero]
    by_cases hi : i < r.count + 1
    · rw [contents_getElem? _ (by omega), entry_push_room r x hroom (by omega)]
      by_cases hlast : i = r.count
      · rw [if_pos hlast, List.getElem?_append_right (by rw [contents_length]; omega),
          contents_length, hlast, Nat.sub_self]
        rfl
      · rw [if_neg hlast, List.getElem?_append_left (by rw [contents_length]; omega),
          contents_getElem? r (by omega)]
    · rw [List.getElem?_eq_none (by rw [contents_length]; omega), List.getElem?_eq_none]
      rw [List.length_append, contents_length, List.length_singleton]
      omega
  · have hfull : r.count = n := by omega
    have hcount : (r.push x).count = n := (if_neg hroom).trans hfull
    have hdrop : r.count + 1 - n = 1 := by omega
    rw [List.rtake, List.length_append, contents_length, List.length_singleton, hdrop,
      List.getElem?_drop, Nat.add_comm 1 i]
    by_cases hi : i < n
    · rw [contents_getElem? _ (by omega), entry_push_full r x hfull hi]
      by_cases hlast : i + 1 = n
      · rw [if_pos hlast, List.getElem?_append_right (by rw [contents_length]; omega),
          contents_length, hlast, hfull, Nat.sub_self]
        rfl
      · rw [if_neg hlast, List.getElem?_append_left (by rw [contents_length]; omega),
          contents_getElem? r (by omega)]
    · rw [List.getElem?_eq_none (by rw [contents_length]; omega), List.getElem?_eq_none]
      rw [List.length_append, contents_length, List.length_singleton]
      omega

theorem rtake_rtake_concat (l : List α) (x : α) : (l.rtake n ++ [x]).rtake n = (l ++ [x]).rtake n := by
  unfold List.rtake
  by_cases h : l.length ≤ n
  · rw [Nat.sub_eq_zero_of_le h, List.drop_zero]
  · rw [← List.drop_append_of_le_length (by omega), List.drop_drop]
    congr 1
    simp only [List.length_drop, List.length_append, List.length_singleton]
    omega

/-- After any number of writes the array holds the last `n`. -/
theorem contents_foldl_push (l : List α) (r : CircularArray α n) (old : List α)
    (hr : r.contents = old.rtake n) : (l.foldl push r).contents = (old ++ l).rtake n := by
  induction l generalizing r old with
  | nil => rw [List.append_nil, List.foldl_nil, hr]
  | cons x l ih =>
    have hpush : (r.push x).contents = (old ++ [x]).rtake n := by
      rw [contents_push, hr, rtake_rtake_concat]
    rw [List.foldl_cons, ih _ _ hpush, List.append_assoc, List.singleton_append]

/-- Counted back from the cell behind the newest, as from the oldest. -/
theorem back_index (r : CircularArray α n) {i : ℕ} (h : i < r.count) :
    ((r.oldest + r.count) % n + n - 1 - i) % n = (r.oldest + (r.count - 1 - i)) % n := by
  have hle := r.count_le
  have hsplit : (r.oldest + r.count) % n + n - 1 - i = (r.oldest + r.count) % n + (n - 1 - i) := by
    omega
  have hback : r.oldest + r.count + (n - 1 - i) = r.oldest + (r.count - 1 - i) + n := by omega
  rw [hsplit, Nat.mod_add_mod, hback, Nat.add_mod_right]

theorem cell_back (r : CircularArray α n) {i : ℕ} (h : i < r.count) :
    r.cell ((r.oldest + r.count) % n + n - 1 - i) = r.entry (r.count - 1 - i) :=
  r.cell_congr (r.back_index h)

/-- The last values from the `k + 1`-th newest on. -/
theorem rtake_succ (r : CircularArray α n) {k : ℕ} (h : k < r.count) :
    r.contents.rtake (k + 1) = r.entry (r.count - 1 - k) :: r.contents.rtake k := by
  have hlen := r.contents_length
  have hlt : r.count - 1 - k < r.contents.length := by omega
  have hget : r.contents[r.count - 1 - k] = r.entry (r.count - 1 - k) := by
    have hentry := r.contents_getElem? (i := r.count - 1 - k) (by omega)
    rw [List.getElem?_eq_getElem hlt] at hentry
    exact Option.some.inj hentry
  rw [List.rtake, List.rtake, hlen, show r.count - (k + 1) = r.count - 1 - k by omega,
    List.drop_eq_getElem_cons hlt, hget]
  congr 2
  omega

end CircularArray

end Cells

section Suffix

variable {α : Type*} (weight : α → ℕ)

/-- `kept` is the longest suffix of `l` that weighs at most `cap`. -/
structure LongestSuffix (cap : ℕ) (l kept : List α) : Prop where
  suffix : kept <:+ l
  fits : (kept.map weight).sum ≤ cap
  longest : ∀ other, other <:+ l → (other.map weight).sum ≤ cap → other <:+ kept

variable {weight}

/-- Only what the elements of `l` weigh counts. -/
theorem LongestSuffix.congr {weight' : α → ℕ} {cap : ℕ} {l kept : List α}
    (h : LongestSuffix weight cap l kept) (hweight : ∀ a ∈ l, weight a = weight' a) :
    LongestSuffix weight' cap l kept := by
  have hsame : ∀ other, other <:+ l → other.map weight = other.map weight' :=
    fun other hother => List.map_congr_left fun a ha => hweight a (hother.subset ha)
  refine ⟨h.suffix, hsame kept h.suffix ▸ h.fits, fun other hother hfits => ?_⟩
  exact h.longest other hother (hsame other hother ▸ hfits)

/-- Taken from the back while it fits: nothing is left, or the next does not fit. -/
theorem longestSuffix_of_stop {cap : ℕ} {l kept : List α} (hsuffix : kept <:+ l)
    (hfits : (kept.map weight).sum ≤ cap)
    (hstop : ∀ pre x, l = pre ++ x :: kept → cap < weight x + (kept.map weight).sum) :
    LongestSuffix weight cap l kept := by
  refine ⟨hsuffix, hfits, ?_⟩
  intro other hother hweight
  rcases List.suffix_or_suffix_of_suffix hother hsuffix with h | ⟨more, rfl⟩
  · exact h
  · cases more using List.reverseRecOn with
    | nil => exact List.suffix_refl kept
    | append_singleton more x =>
      obtain ⟨pre, hpre⟩ := hother
      have hover := hstop (pre ++ more) x (by rw [← hpre]; simp)
      simp only [List.map_append, List.map_cons, List.sum_append, List.sum_cons,
        List.append_assoc, List.singleton_append] at hweight
      omega

end Suffix

end SocksProxy.Circular
