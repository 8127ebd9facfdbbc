import SocksProxy.SelectorMachine

/-!
The views that selector.c keeps of its registrations: the table, the two master
sets and max_fd. Every call either halts or leaves them in agreement, and what
halts a call on the table is an index beyond its end.
-/
namespace SocksProxy.SelectorTable

open Ledgers Runs Selector SelectorMachine
open ConnState (FdInterest OP_NOOP OP_READ)

section Views

variable {s s' : FdSelector} {item : Item} {i j k n : ℕ} {alloc : Bool}

/-- The entry of descriptor `i` is used, by `item`. -/
def Uses (s : FdSelector) (i : ℕ) (item : Item) : Prop :=
  s.fds[i]? = some item ∧ item.used = true

/-- The views agree. An entry out of use has been blanked. -/
structure Views (s : FdSelector) : Prop where
  maxFd_lt : s.maxFd < s.fdSize
  fd_eq : ∀ i item, Uses s i item → item.fd = i
  le_maxFd : ∀ i item, Uses s i item → i ≤ s.maxFd
  maxFd_used : s.maxFd = 0 ∨ ∃ item, Uses s s.maxFd item
  lt_setsize : ∀ i item, Uses s i item → i < ITEMS_MAX_SIZE
  handler_isSome : ∀ i item, Uses s i item → item.handler.isSome
  read_iff : ∀ i, i ∈ s.masterR ↔ ∃ item, Uses s i item ∧ item.interest.read = true
  write_iff : ∀ i, i ∈ s.masterW ↔ ∃ item, Uses s i item ∧ item.interest.write = true
  blank : ∀ (i : ℕ) (item : Item), s.fds[i]? = some item → item.used = false →
    item.interest = OP_NOOP

theorem uses_lt (h : Uses s i item) : i < s.fdSize := (List.getElem?_eq_some_iff.mp h.1).1

theorem uses_unique {item' : Item} (h : Uses s i item) (h' : Uses s i item') : item = item' :=
  Option.some.inj (h.1.symm.trans h'.1)

/-- An item that stands for a descriptor is used. -/
theorem used_of_fd (h : item.fd = i) : item.used = true := by
  rw [Item.used, h, FD_UNUSED]
  simp

theorem itemAt_nat (h : s.fds[i]? = some item) : itemAt s i = .ok item := by
  simp only [itemAt, h]

/-- A non-negative index of the table. -/
theorem itemAt_cases (s : FdSelector) (index : ℤ) :
    (∃ i item, index = (i : ℕ) ∧ s.fds[i]? = some item ∧ itemAt s index = .ok item) ∨
      ((index < 0 ∨ (s.fdSize : ℤ) ≤ index) ∧ itemAt s index = .error (.outOfBounds index)) := by
  cases index with
  | negSucc k => exact Or.inr ⟨Or.inl (Int.negSucc_lt_zero k), rfl⟩
  | ofNat i =>
    cases hget : s.fds[i]? with
    | some item => exact Or.inl ⟨i, item, rfl, hget, itemAt_nat hget⟩
    | none =>
      have hle : s.fdSize ≤ i := List.getElem?_eq_none_iff.mp hget
      refine Or.inr ⟨Or.inr (Int.ofNat_le.mpr hle), ?_⟩
      simp only [itemAt, hget]

/-- The selector after an entry was written and its descriptor updated. -/
def put (s : FdSelector) (i : ℕ) (item : Item) : FdSelector :=
  { s with
    fds := s.fds.set i item
    maxFd := max s.maxFd i
    masterR := if item.interest.read then insert i (s.masterR.erase i) else s.masterR.erase i
    masterW := if item.interest.write then insert i (s.masterW.erase i) else s.masterW.erase i }

theorem fdSize_put (s : FdSelector) (i : ℕ) (item : Item) : (put s i item).fdSize = s.fdSize :=
  List.length_set

theorem uses_put {item' : Item} (hi : i < s.fdSize) (hused : item.used = true) :
    Uses (put s i item) j item' ↔ (j = i ∧ item' = item) ∨ (j ≠ i ∧ Uses s j item') := by
  unfold Uses put
  dsimp only
  rw [List.getElem?_set]
  by_cases hij : i = j
  · subst hij
    rw [if_pos rfl, if_pos hi]
    constructor
    · rintro ⟨heq, -⟩
      exact Or.inl ⟨rfl, (Option.some.inj heq).symm⟩
    · rintro (⟨-, rfl⟩ | ⟨hne, -⟩)
      · exact ⟨rfl, hused⟩
      · exact absurd rfl hne
  · rw [if_neg hij]
    constructor
    · exact fun h => Or.inr ⟨fun h => hij h.symm, h⟩
    · rintro (⟨rfl, -⟩ | ⟨-, h⟩)
      · exact absurd rfl hij
      · exact h

/-- One of the two master sets after an entry was written. -/
private theorem mem_put {master : Finset ℕ} {wanted : FdInterest → Bool}
    (h : ∀ j, j ∈ master ↔ ∃ item, Uses s j item ∧ wanted item.interest = true)
    (hi : i < s.fdSize) (hused : item.used = true) (j : ℕ) :
    (j ∈ if wanted item.interest then insert i (master.erase i) else master.erase i) ↔
      ∃ item', Uses (put s i item) j item' ∧ wanted item'.interest = true := by
  have hrest : (∃ item', Uses (put s i item) j item' ∧ wanted item'.interest = true) ↔
      (j = i ∧ wanted item.interest = true) ∨ (j ≠ i ∧ j ∈ master) := by
    rw [h]
    constructor
    · rintro ⟨item', huses, hw⟩
      rcases (uses_put hi hused).mp huses with ⟨rfl, rfl⟩ | ⟨hne, huses⟩
      · exact Or.inl ⟨rfl, hw⟩
      · exact Or.inr ⟨hne, item', huses, hw⟩
    · rintro (⟨rfl, hw⟩ | ⟨hne, item', huses, hw⟩)
      · exact ⟨item, (uses_put hi hused).mpr (Or.inl ⟨rfl, rfl⟩), hw⟩
      · exact ⟨item', (uses_put hi hused).mpr (Or.inr ⟨hne, huses⟩), hw⟩
  rw [hrest]
  split
  next hw =>
    rw [Finset.mem_insert, Finset.mem_erase]
    simp [hw]
  next hw =>
    rw [Finset.mem_erase]
    simp [hw]

theorem views_put (h : Views s) (hi : i < s.fdSize) (hfd : item.fd = i) (hlt : i < ITEMS_MAX_SIZE)
    (hhandler : item.handler.isSome) : Views (put s i item) := by
  have hused : item.used = true := used_of_fd hfd
  exact
    { maxFd_lt := by
        rw [fdSize_put]
        exact max_lt h.maxFd_lt hi
      fd_eq := by
        intro j item' huses
        rcases (uses_put hi hused).mp huses with ⟨rfl, rfl⟩ | ⟨-, huses⟩
        · exact hfd
        · exact h.fd_eq j item' huses
      le_maxFd := by
        intro j item' huses
        rcases (uses_put hi hused).mp huses with ⟨rfl, -⟩ | ⟨-, huses⟩
        · exact le_max_right _ _
        · exact (h.le_maxFd j item' huses).trans (le_max_left _ _)
      maxFd_used := by
        show max s.maxFd i = 0 ∨ ∃ item', Uses (put s i item) (max s.maxFd i) item'
        by_cases hmax : s.maxFd ≤ i
        · rw [max_eq_right hmax]
          exact Or.inr ⟨item, (uses_put hi hused).mpr (Or.inl ⟨rfl, rfl⟩)⟩
        · rw [max_eq_left (Nat.le_of_not_le hmax)]
          obtain ⟨item', huses⟩ := h.maxFd_used.resolve_left (by omega)
          exact Or.inr ⟨item', (uses_put hi hused).mpr (Or.inr ⟨by omega, huses⟩)⟩
      lt_setsize := by
        intro j item' huses
        rcases (uses_put hi hused).mp huses with ⟨rfl, -⟩ | ⟨-, huses⟩
        · exact hlt
        · exact h.lt_setsize j item' huses
      handler_isSome := by
        intro j item' huses
        rcases (uses_put hi hused).mp huses with ⟨-, rfl⟩ | ⟨-, huses⟩
        · exact hhandler
        · exact h.handler_isSome j item' huses
      read_iff := mem_put h.read_iff hi hused
      write_iff := mem_put h.write_iff hi hused
      blank := by
        intro j item' hget hunused
        have hset : (s.fds.set i item)[j]? = some item' := hget
        rw [List.getElem?_set] at hset
        split at hset
        · rw [← Option.some.inj hset, hused] at hunused
          exact absurd hunused (by decide)
        · exact h.blank j item' hset hunused }

/-- A longer table whose new entries are blank. -/
def Grown (s s' : FdSelector) : Prop :=
  ∃ k, s' = { s with fds := s.fds ++ List.replicate k itemInit }

theorem grown_refl (s : FdSelector) : Grown s s := ⟨0, by simp⟩

theorem grown_get? (h : Grown s s') (hget : s'.fds[i]? = some item) :
    s.fds[i]? = some item ∨ item = itemInit := by
  obtain ⟨k, rfl⟩ := h
  rcases lt_or_ge i s.fds.length with hlt | hle
  · rw [List.getElem?_append_left hlt] at hget
    exact Or.inl hget
  · rw [List.getElem?_append_right hle] at hget
    exact Or.inr (List.eq_of_mem_replicate (List.mem_of_getElem? hget))

theorem uses_grown (h : Grown s s') : Uses s' i item ↔ Uses s i item := by
  constructor
  · rintro ⟨hget, hused⟩
    rcases grown_get? h hget with hget | rfl
    · exact ⟨hget, hused⟩
    · exact absurd hused (by decide)
  · rintro ⟨hget, hused⟩
    obtain ⟨k, rfl⟩ := h
    refine ⟨?_, hused⟩
    rw [List.getElem?_append_left (List.getElem?_eq_some_iff.mp hget).1]
    exact hget

theorem grown_fdSize (h : Grown s s') : s.fdSize ≤ s'.fdSize := by
  obtain ⟨k, rfl⟩ := h
  simp [FdSelector.fdSize]

theorem Views.congr (h : Views s) (hfds : s'.fds = s.fds) (hmax : s'.maxFd = s.maxFd)
    (hr : s'.masterR = s.masterR) (hw : s'.masterW = s.masterW) : Views s' := by
  cases s
  cases s'
  obtain rfl : _ = _ := hfds
  obtain rfl : _ = _ := hmax
  obtain rfl : _ = _ := hr
  obtain rfl : _ = _ := hw
  exact
    { maxFd_lt := h.maxFd_lt
      fd_eq := h.fd_eq
      le_maxFd := h.le_maxFd
      maxFd_used := h.maxFd_used
      lt_setsize := h.lt_setsize
      handler_isSome := h.handler_isSome
      read_iff := h.read_iff
      write_iff := h.write_iff
      blank := h.blank }

theorem views_grown (hgrown : Grown s s') (h : Views s) : Views s' := by
  have huses : ∀ i item, Uses s' i item ↔ Uses s i item := fun i item => uses_grown hgrown
  have hsize := grown_fdSize hgrown
  have hblank : ∀ (i : ℕ) (item : Item), s'.fds[i]? = some item → item.used = false →
      item.interest = OP_NOOP := by
    intro i item hget hunused
    rcases grown_get? hgrown hget with hget | rfl
    · exact h.blank i item hget hunused
    · rfl
  obtain ⟨k, rfl⟩ := hgrown
  exact
    { maxFd_lt := lt_of_lt_of_le h.maxFd_lt hsize
      fd_eq := fun i item hi => h.fd_eq i item ((huses i item).mp hi)
      le_maxFd := fun i item hi => h.le_maxFd i item ((huses i item).mp hi)
      maxFd_used := h.maxFd_used.imp_right fun ⟨item, hi⟩ => ⟨item, (huses _ item).mpr hi⟩
      lt_setsize := fun i item hi => h.lt_setsize i item ((huses i item).mp hi)
      handler_isSome := fun i item hi => h.handler_isSome i item ((huses i item).mp hi)
      read_iff := fun i => by simp only [huses]; exact h.read_iff i
      write_iff := fun i => by simp only [huses]; exact h.write_iff i
      blank := hblank }

/-- The fold of items_max_fd. -/
private def maxUsed (l : List Item) (k : ℕ) : ℕ :=
  l.foldl (fun max item =>
    if item.used then if item.fd > max then item.fd.toNat else max else max) k

private theorem maxUsed_spec (l : List Item) (k : ℕ) :
    k ≤ maxUsed l k ∧ (∀ item ∈ l, item.used = true → item.fd ≤ maxUsed l k) ∧
      (maxUsed l k = k ∨ ∃ item ∈ l, item.used = true ∧ item.fd = maxUsed l k) := by
  induction l generalizing k with
  | nil => exact ⟨le_rfl, by simp, Or.inl rfl⟩
  | cons item l ih =>
    have hstep : maxUsed (item :: l) k = maxUsed l (if item.used then
        if item.fd > k then item.fd.toNat else k else k) := rfl
    rw [hstep]
    split
    next hused =>
      split
      next hgt =>
        obtain ⟨hle, hall, hmax⟩ := ih item.fd.toNat
        have hfd : (item.fd.toNat : ℤ) = item.fd := Int.toNat_of_nonneg (by omega)
        refine ⟨by omega, ?_, ?_⟩
        · intro item' hmem hused'
          rcases List.mem_cons.mp hmem with rfl | hmem
          · omega
          · exact hall item' hmem hused'
        · rcases hmax with heq | ⟨item', hmem, hused', hfd'⟩
          · exact Or.inr ⟨item, List.mem_cons_self, hused, by omega⟩
          · exact Or.inr ⟨item', List.mem_cons_of_mem _ hmem, hused', hfd'⟩
      next hle' =>
        obtain ⟨hle, hall, hmax⟩ := ih k
        refine ⟨hle, ?_, hmax.imp_right fun ⟨item', hmem, h⟩ =>
          ⟨item', List.mem_cons_of_mem _ hmem, h⟩⟩
        intro item' hmem hused'
        rcases List.mem_cons.mp hmem with rfl | hmem
        · omega
        · exact hall item' hmem hused'
    next hunused =>
      obtain ⟨hle, hall, hmax⟩ := ih k
      refine ⟨hle, ?_, hmax.imp_right fun ⟨item', hmem, h⟩ =>
        ⟨item', List.mem_cons_of_mem _ hmem, h⟩⟩
      intro item' hmem hused'
      rcases List.mem_cons.mp hmem with rfl | hmem
      · exact absurd hused' hunused
      · exact hall item' hmem hused'

/-- items_max_fd of a table whose old max_fd still covers it. -/
theorem itemsMaxFd_spec (hmax : s.maxFd < s.fdSize)
    (hfd : ∀ i item, Uses s i item → item.fd = i)
    (hle : ∀ i item, Uses s i item → i ≤ s.maxFd) :
    ∃ k, itemsMaxFd s = .ok k ∧ k < s.fdSize ∧ (∀ i item, Uses s i item → i ≤ k) ∧
      (k = 0 ∨ ∃ item, Uses s k item) := by
  obtain ⟨-, hall, hsome⟩ := maxUsed_spec (s.fds.take (s.maxFd + 1)) 0
  have hok : itemsMaxFd s = .ok (maxUsed (s.fds.take (s.maxFd + 1)) 0) := if_pos hmax
  have hused : maxUsed (s.fds.take (s.maxFd + 1)) 0 = 0 ∨
      ∃ item, Uses s (maxUsed (s.fds.take (s.maxFd + 1)) 0) item := by
    refine hsome.imp_right ?_
    rintro ⟨item, hmem, hused, heq⟩
    obtain ⟨i, hi⟩ := List.mem_iff_getElem?.mp (List.mem_of_mem_take hmem)
    have huses : Uses s i item := ⟨hi, hused⟩
    have hsame : i = maxUsed (s.fds.take (s.maxFd + 1)) 0 := by
      have hfd' := hfd i item huses
      omega
    exact ⟨item, hsame ▸ huses⟩
  refine ⟨_, hok, ?_, ?_, hused⟩
  · rcases hused with hzero | ⟨item, huses⟩
    · omega
    · exact uses_lt huses
  · intro i item huses
    have hmem : item ∈ s.fds.take (s.maxFd + 1) := by
      apply List.mem_of_getElem? (i := i)
      rw [List.getElem?_take_of_lt (Nat.lt_succ_of_le (hle i item huses))]
      exact huses.1
    have hbound := hall item hmem huses.2
    rw [hfd i item huses] at hbound
    exact_mod_cast hbound

/-- The selector after an entry was blanked. -/
def remove (s : FdSelector) (i k : ℕ) : FdSelector :=
  { s with
    fds := s.fds.set i itemInit
    maxFd := k, masterR := s.masterR.erase i, masterW := s.masterW.erase i }

theorem fdSize_remove (s : FdSelector) (i k : ℕ) : (remove s i k).fdSize = s.fdSize :=
  List.length_set

theorem get?_remove {item' : Item} (h : (remove s i k).fds[j]? = some item') :
    (j = i ∧ item' = itemInit) ∨ (j ≠ i ∧ s.fds[j]? = some item') := by
  have hset : (s.fds.set i itemInit)[j]? = some item' := h
  rw [List.getElem?_set] at hset
  split at hset
  next hij =>
    split at hset
    · exact Or.inl ⟨hij.symm, (Option.some.inj hset).symm⟩
    · exact absurd hset (by simp)
  next hij => exact Or.inr ⟨fun h => hij h.symm, hset⟩

theorem uses_remove : Uses (remove s i k) j item ↔ j ≠ i ∧ Uses s j item := by
  constructor
  · rintro ⟨hget, hused⟩
    rcases get?_remove hget with ⟨-, rfl⟩ | ⟨hne, hget⟩
    · exact absurd hused (by decide)
    · exact ⟨hne, hget, hused⟩
  · rintro ⟨hne, hget, hused⟩
    refine ⟨?_, hused⟩
    show (s.fds.set i itemInit)[j]? = some item
    rw [List.getElem?_set, if_neg fun h => hne h.symm]
    exact hget

theorem views_remove (h : Views s) (hk : k < s.fdSize)
    (hle : ∀ j item, Uses (remove s i s.maxFd) j item → j ≤ k)
    (hmax : k = 0 ∨ ∃ item, Uses (remove s i s.maxFd) k item) : Views (remove s i k) := by
  have huses : ∀ j item, Uses (remove s i k) j item → Uses s j item := fun j item hj =>
    (uses_remove.mp hj).2
  have hmem : ∀ (master : Finset ℕ) (wanted : FdInterest → Bool),
      (∀ j, j ∈ master ↔ ∃ item, Uses s j item ∧ wanted item.interest = true) →
      ∀ j, j ∈ master.erase i ↔
        ∃ item, Uses (remove s i k) j item ∧ wanted item.interest = true := by
    intro master wanted hmaster j
    rw [Finset.mem_erase, hmaster]
    constructor
    · rintro ⟨hne, item, hj, hw⟩
      exact ⟨item, uses_remove.mpr ⟨hne, hj⟩, hw⟩
    · rintro ⟨item, hj, hw⟩
      obtain ⟨hne, hj⟩ := uses_remove.mp hj
      exact ⟨hne, item, hj, hw⟩
  exact
    { maxFd_lt := by
        rw [fdSize_remove]
        exact hk
      fd_eq := fun j item hj => h.fd_eq j item (huses j item hj)
      le_maxFd := hle
      maxFd_used := hmax
      lt_setsize := fun j item hj => h.lt_setsize j item (huses j item hj)
      handler_isSome := fun j item hj => h.handler_isSome j item (huses j item hj)
      read_iff := hmem s.masterR FdInterest.read h.read_iff
      write_iff := hmem s.masterW FdInterest.write h.write_iff
      blank := by
        intro j item' hget hunused
        rcases get?_remove hget with ⟨-, rfl⟩ | ⟨-, hget⟩
        · rfl
        · exact h.blank j item' hget hunused }

end Views

section Calls

/-! What each function of the selector can do to a table whose views agree. -/

variable {s s' : FdSelector} {item : Item} {i k n serial data : ℕ} {alloc : Bool} {fd : ℤ}
  {handler : Option FdHandler} {interest : FdInterest}

theorem lt_two_pow_bitsLoop (fuel n : ℕ) (h : n < 2 ^ fuel) : n < 2 ^ bitsLoop fuel n := by
  induction fuel generalizing n with
  | zero => exact h
  | succ fuel ih =>
    unfold bitsLoop
    split
    next hzero =>
      rw [hzero]
      exact Nat.one_pos
    next =>
      have hhalf : n / 2 < 2 ^ fuel := by
        rw [Nat.pow_succ] at h
        omega
      have hlt := ih (n / 2) hhalf
      rw [Nat.pow_succ]
      omega

/-- The rounded capacity has room for the index `n`. -/
theorem lt_nextCapacity (h : n ≤ ITEMS_MAX_SIZE) : n < nextCapacity n := by
  have hfuel : n < 2 ^ 64 := lt_of_le_of_lt h (by decide)
  have hlt := lt_two_pow_bitsLoop 64 n hfuel
  unfold nextCapacity
  dsimp only
  split <;> omega

theorem ensureCapacity_cases (alloc : Bool) (hne : s.fds ≠ []) (n : ℕ) :
    (∃ status, status ≠ .success ∧ ensureCapacity alloc s n = (status, s)) ∨
      ∃ s', ensureCapacity alloc s n = (.success, s') ∧ Grown s s' ∧ n < s'.fdSize ∧
        (s.fdSize ≤ n → alloc = true) := by
  unfold ensureCapacity
  split
  next hlt => exact Or.inr ⟨s, rfl, grown_refl s, hlt, fun hle => absurd hlt (not_lt.mpr hle)⟩
  next hle =>
  split
  next => exact Or.inl ⟨.maxfd, by simp, rfl⟩
  next hmax =>
  split
  next halloc =>
    refine Or.inr ⟨_, rfl, ⟨_, rfl⟩, ?_, fun _ => halloc⟩
    have hlt := lt_nextCapacity (Nat.le_of_not_lt hmax)
    simp only [FdSelector.fdSize, List.length_append, List.length_replicate] at hle ⊢
    omega
  next => exact Or.inl ⟨.enomem, by simp, rfl⟩

theorem Views.fds_ne_nil (h : Views s) : s.fds ≠ [] := by
  intro hnil
  have hlt := h.maxFd_lt
  rw [FdSelector.fdSize, hnil] at hlt
  exact absurd hlt (Nat.not_lt_zero _)

theorem toNat_of_valid (h : invalidFd fd = false) :
    ∃ i : ℕ, fd = i ∧ i < ITEMS_MAX_SIZE := by
  simp only [invalidFd, Bool.or_eq_false_iff, decide_eq_false_iff_not] at h
  exact ⟨fd.toNat, by omega, by omega⟩

theorem update_put (s : FdSelector) (i : ℕ) (item : Item) (hfd : item.fd = i) :
    itemsUpdateFdsetForFd { setItem s i item with maxFd := max s.maxFd i } item =
      .ok (put s i item) := by
  have hused := used_of_fd hfd
  unfold itemsUpdateFdsetForFd
  rw [hfd]
  simp [put, setItem, hused]

theorem registerItem_used (handler : Option FdHandler) (interest : FdInterest) (data : ℕ)
    (h : Uses s i item) : registerItem serial s i handler interest data = .ok (.fdinuse, s) := by
  unfold registerItem
  rw [itemAt_nat h.1]
  show (if item.used = true then _ else _) = _
  rw [if_pos h.2]

theorem registerItem_unused (serial : ℕ) (handler : Option FdHandler) (interest : FdInterest) (data : ℕ)
    (hget : s.fds[i]? = some item) (hunused : item.used = false) :
    registerItem serial s i handler interest data =
      .ok (.success, put s i ⟨i, interest, handler, data, serial⟩) := by
  have hmax : (if i > s.maxFd then { setItem s i ⟨i, interest, handler, data, serial⟩ with
      maxFd := i } else setItem s i ⟨i, interest, handler, data, serial⟩) =
      { setItem s i ⟨i, interest, handler, data, serial⟩ with maxFd := max s.maxFd i } := by
    split
    next hgt => rw [max_eq_right (Nat.le_of_lt hgt)]
    next hle => rw [max_eq_left (Nat.le_of_not_lt hle)]; rfl
  have hupdate := update_put s i ⟨i, interest, handler, data, serial⟩ rfl
  unfold registerItem
  rw [itemAt_nat hget]
  show (if item.used = true then _ else _) = _
  rw [hunused, if_neg Bool.false_ne_true]
  show ((itemsUpdateFdsetForFd (if i > s.maxFd then _ else _) _) >>= _) = _
  rw [hmax, hupdate]
  rfl

theorem selectorRegister_cases (h : Views s) (alloc : Bool) (serial : ℕ) (fd : ℤ)
    (handler : Option FdHandler) (interest : FdInterest) (data : ℕ) :
    (∃ status, status ≠ .success ∧
        selectorRegister alloc serial s fd handler interest data = .ok (status, s) ∧
        (invalidFd fd = false → handler.isSome → fd ≠ s.fdSize)) ∨
      (invalidFd fd = false ∧ handler.isSome ∧ fd = s.fdSize ∧
        selectorRegister alloc serial s fd handler interest data = .error (.outOfBounds fd)) ∨
      ∃ (i : ℕ) (s₁ : FdSelector) (old : Item), fd = i ∧ i < ITEMS_MAX_SIZE ∧
        (s₁.fdSize = s.fdSize ∧ i < s.fdSize ∨ s.fdSize < i ∧ alloc = true) ∧
        handler.isSome ∧ Grown s s₁ ∧ s₁.fds[i]? = some old ∧ old.used = false ∧
        selectorRegister alloc serial s fd handler interest data =
          .ok (.success, put s₁ i ⟨fd, interest, handler, data, serial⟩) := by
  unfold selectorRegister
  split
  next hargs =>
    refine Or.inl ⟨.iargs, by simp, rfl, ?_⟩
    intro hvalid hhandler
    rw [hvalid, Bool.false_or, Option.isNone_iff_eq_none] at hargs
    rw [hargs] at hhandler
    exact absurd hhandler (by decide)
  next hargs =>
  rw [Bool.or_eq_true, not_or, Bool.not_eq_true, Bool.not_eq_true, Option.isNone_eq_false_iff]
    at hargs
  obtain ⟨hvalid, hhandler⟩ := hargs
  obtain ⟨i, rfl, hlt⟩ := toNat_of_valid hvalid
  simp only [Int.toNat_natCast]
  by_cases hroom : i > s.fdSize
  · rw [if_pos hroom]
    rcases ensureCapacity_cases alloc h.fds_ne_nil i with ⟨status, hne, heq⟩ |
      ⟨s₁, heq, hgrown, hi, halloc⟩
    · rw [heq]
      refine Or.inl ⟨status, hne, if_pos hne, ?_⟩
      intro _ _ heq
      omega
    · rw [heq]
      obtain ⟨old, hold⟩ : ∃ old, s₁.fds[i]? = some old := ⟨s₁.fds[i], List.getElem?_eq_getElem hi⟩
      have hunused : old.used = false := by
        -- beyond the old end every entry is new
        by_contra hused
        have huses : Uses s₁ i old := ⟨hold, by simpa using hused⟩
        have hlt' := uses_lt ((uses_grown hgrown).mp huses)
        omega
      have hreg := registerItem_unused serial handler interest data hold hunused
      exact Or.inr (Or.inr ⟨i, s₁, old, rfl, hlt, Or.inr ⟨hroom, halloc (Nat.le_of_lt hroom)⟩,
        hhandler, hgrown, hold, hunused, hreg⟩)
  · rw [if_neg hroom]
    rcases itemAt_cases s (i : ℕ) with ⟨j, old, hj, hold, hitem⟩ | ⟨hout, hitem⟩
    · obtain rfl : i = j := by exact_mod_cast hj
      have hlt' := (List.getElem?_eq_some_iff.mp hold).1
      have hne : i ≠ s.fdSize := by
        simp only [FdSelector.fdSize]
        omega
      cases hused : old.used with
      | true =>
        refine Or.inl ⟨.fdinuse, by simp, registerItem_used handler interest data ⟨hold, hused⟩, ?_⟩
        intro _ _ heq
        exact hne (by exact_mod_cast heq)
      | false =>
        exact Or.inr (Or.inr ⟨i, s, old, rfl, hlt, Or.inl ⟨rfl, hlt'⟩, hhandler, grown_refl s, hold,
          hused, registerItem_unused serial handler interest data hold hused⟩)
    · refine Or.inr (Or.inl ⟨hvalid, hhandler, by omega, ?_⟩)
      show registerItem serial s i handler interest data = _
      unfold registerItem
      rw [hitem]
      rfl

theorem valid_of_lt (h : i < ITEMS_MAX_SIZE) : invalidFd i = false := by
  simp only [invalidFd, Bool.or_eq_false_iff, decide_eq_false_iff_not]
  omega

theorem unregisterStart_uses (h : Views s) (hi : Uses s i item) :
    unregisterStart s i = .ok (.ok item) := by
  unfold unregisterStart
  rw [valid_of_lt (h.lt_setsize i item hi), if_neg Bool.false_ne_true, itemAt_nat hi.1]
  show (if (!item.used) = true then _ else _) = _
  rw [hi.2]
  rfl

theorem unregisterStart_cases (s : FdSelector) (fd : ℤ) :
    ((invalidFd fd = false → fd < s.fdSize) ∧ unregisterStart s fd = .ok (.error .iargs)) ∨
      (invalidFd fd = false ∧ (s.fdSize : ℤ) ≤ fd ∧
        unregisterStart s fd = .error (.outOfBounds fd)) ∨
      ∃ (i : ℕ) (item : Item), fd = i ∧ i < ITEMS_MAX_SIZE ∧ Uses s i item ∧
        unregisterStart s fd = .ok (.ok item) := by
  unfold unregisterStart
  split
  next hinvalid => exact Or.inl ⟨fun hvalid => absurd hinvalid (by simp [hvalid]), rfl⟩
  next hvalid =>
  obtain ⟨i, rfl, hlt⟩ := toNat_of_valid (Bool.eq_false_of_not_eq_true hvalid)
  rcases itemAt_cases s (i : ℕ) with ⟨j, item, hj, hget, hitem⟩ | ⟨hout, hitem⟩
  · obtain rfl : i = j := by exact_mod_cast hj
    rw [hitem]
    cases hused : item.used with
    | true =>
      refine Or.inr (Or.inr ⟨i, item, rfl, hlt, ⟨hget, hused⟩, ?_⟩)
      simp [bind, Except.bind, hused]
    | false =>
      have hlt' := (List.getElem?_eq_some_iff.mp hget).1
      exact Or.inl ⟨fun _ => Int.ofNat_lt.mpr hlt', by simp [bind, Except.bind, hused]⟩
  · rw [hitem]
    exact Or.inr (Or.inl ⟨Bool.eq_false_of_not_eq_true hvalid, by omega, rfl⟩)

/-- After handle_close the entry is blanked, if it is still in use. -/
theorem unregisterEnd_uses (h : Views s) (huses : Uses s i item) :
    ∃ k, unregisterEnd s i = .ok (remove s i k) ∧ Views (remove s i k) := by
  have hfd : item.fd = i := h.fd_eq i item huses
  have hupdate : itemsUpdateFdsetForFd (setItem s i { item with interest := OP_NOOP })
      { item with interest := OP_NOOP } = .ok { setItem s i { item with interest := OP_NOOP } with
        masterR := s.masterR.erase i, masterW := s.masterW.erase i } := by
    unfold itemsUpdateFdsetForFd
    rw [show ({ item with interest := OP_NOOP } : Item).fd = i from hfd]
    simp [setItem, OP_NOOP]
  have hset : (setItem { setItem s i { item with interest := OP_NOOP } with
      masterR := s.masterR.erase i, masterW := s.masterW.erase i } i itemInit) =
      remove s i s.maxFd := by
    simp [setItem, remove]
  obtain ⟨k, hok, hk, hle, hmax⟩ := itemsMaxFd_spec (s := remove s i s.maxFd)
    (by rw [fdSize_remove]; exact h.maxFd_lt)
    (fun j item hj => h.fd_eq j item (uses_remove.mp hj).2)
    (fun j item hj => h.le_maxFd j item (uses_remove.mp hj).2)
  rw [fdSize_remove] at hk
  refine ⟨k, ?_, views_remove h hk hle hmax⟩
  unfold unregisterEnd
  rw [itemAt_nat huses.1]
  show (itemsUpdateFdsetForFd _ _ >>= _) = _
  rw [hupdate]
  show (itemsMaxFd (setItem _ i itemInit) >>= _) = _
  rw [hset, hok]
  rfl

/-- A second unregistration that came in between leaves descriptor -1 there. -/
theorem unregisterEnd_unused (hget : s.fds[i]? = some item) (hunused : item.used = false) :
    unregisterEnd s i = .error .badFdSet := by
  have hfd : item.fd = FD_UNUSED := by simpa [Item.used] using hunused
  have hupdate : itemsUpdateFdsetForFd (setItem s i { item with interest := OP_NOOP })
      { item with interest := OP_NOOP } = .error .badFdSet := by
    unfold itemsUpdateFdsetForFd
    rw [show ({ item with interest := OP_NOOP } : Item).fd = FD_UNUSED from hfd]
    rfl
  unfold unregisterEnd
  rw [itemAt_nat hget]
  show (itemsUpdateFdsetForFd _ _ >>= _) = _
  rw [hupdate]
  rfl

theorem selectorSetInterest_cases (h : Views s) (fd : ℤ) (interest : FdInterest) :
    ((invalidFd fd = false → fd < s.fdSize) ∧
        selectorSetInterest s fd interest = .ok (.iargs, s)) ∨
      (invalidFd fd = false ∧ (s.fdSize : ℤ) ≤ fd ∧
        selectorSetInterest s fd interest = .error (.outOfBounds fd)) ∨
      ∃ (i : ℕ) (item : Item), fd = i ∧ i < ITEMS_MAX_SIZE ∧ Uses s i item ∧
        selectorSetInterest s fd interest =
          .ok (.success, put s i { item with interest := interest }) := by
  unfold selectorSetInterest
  split
  next hinvalid => exact Or.inl ⟨fun hvalid => absurd hinvalid (by simp [hvalid]), rfl⟩
  next hvalid =>
  obtain ⟨i, rfl, hlt⟩ := toNat_of_valid (Bool.eq_false_of_not_eq_true hvalid)
  rcases itemAt_cases s (i : ℕ) with ⟨j, item, hj, hget, hitem⟩ | ⟨hout, hitem⟩
  · obtain rfl : i = j := by exact_mod_cast hj
    rw [hitem]
    cases hused : item.used with
    | true =>
      refine Or.inr (Or.inr ⟨i, item, rfl, hlt, ⟨hget, hused⟩, ?_⟩)
      have hfd : ({ item with interest := interest } : Item).fd = i := h.fd_eq i item ⟨hget, hused⟩
      have hmax : max s.maxFd i = s.maxFd := max_eq_left (h.le_maxFd i item ⟨hget, hused⟩)
      have hupdate := update_put s i { item with interest := interest } hfd
      rw [hmax] at hupdate
      show (if (!item.used) = true then _ else _) = _
      rw [hused]
      show (itemsUpdateFdsetForFd (setItem s i _) _ >>= _) = _
      rw [show setItem s i { item with interest := interest } =
        { setItem s i { item with interest := interest } with maxFd := s.maxFd } from rfl, hupdate]
      rfl
    | false =>
      have hlt' := (List.getElem?_eq_some_iff.mp hget).1
      exact Or.inl ⟨fun _ => Int.ofNat_lt.mpr hlt', by simp [bind, Except.bind, hused]⟩
  · rw [hitem]
    exact Or.inr (Or.inl ⟨Bool.eq_false_of_not_eq_true hvalid, by omega, rfl⟩)

theorem selectorSetInterestKey_eq (s : FdSelector) (fd : ℤ) (interest : FdInterest) :
    selectorSetInterestKey s fd interest = selectorSetInterest s fd interest := by
  unfold selectorSetInterestKey
  split
  next h =>
    unfold selectorSetInterest
    rw [if_pos h]
  next => rfl

end Calls

end SocksProxy.SelectorTable
