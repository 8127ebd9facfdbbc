import SocksProxy.SelectorBounds

/-!
The selector when handle_close comes back to it. Between the start and the end of
selector_unregister_fd the entry is still in use, and other entries may be
unregistered; what is due, and given once, is the call of handle_close.
-/
namespace SocksProxy.SelectorViews

open Ledgers Runs Selector SelectorMachine SelectorTable SelectorBounds
open ConnState (FdInterest OP_NOOP OP_READ)

variable {m m' : Machine} {s s' : FdSelector} {f : Frame} {stack rest : List Frame}
  {item item' : Item} {i j k n size x : ℕ} {fd : ℤ} {handler : Option FdHandler}
  {interest : FdInterest} {data : ℕ} {alloc : Bool} {e : Event} {es : List Event}
  {status : Option SelectorStatus}

section Closings

/-- The unregistrations in progress. -/
def closings (stack : List Frame) : List (ℕ × ℕ) :=
  stack.filterMap fun
    | .closing fd size => some (fd, size)
    | _ => none

def closingFds (stack : List Frame) : List ℕ := (closings stack).map Prod.fst

/-- The registrations whose handle_close is still to be called. -/
def Due (m : Machine) (x : ℕ) : Prop :=
  ∃ i item, Uses m.sel i item ∧ handleClose item = true ∧ i ∉ closingFds m.stack ∧
    item.serial = x

/-- Each unregistration in progress has its own entry, still in use and in place;
each registration is due, or was given its handle_close. -/
structure Kept (m : Machine) : Prop where
  closing_used : ∀ p ∈ closings m.stack, p.2 = m.sel.fdSize ∧ ∃ item, Uses m.sel p.1 item
  closing_nodup : (closingFds m.stack).Nodup
  serial_unique : ∀ i j item item', Uses m.sel i item → Uses m.sel j item' →
    item.serial = item'.serial → i = j
  serial_lt : ∀ i item, Uses m.sel i item → item.serial < m.issued
  issued_lt : m.registrations.Below id m.issued
  balanced : m.registrations.Balanced (Due m)

/-- The entries that the loop of selector_destroy has passed are out of use, or
their unregistration is in progress. -/
def Swept (m : Machine) : Prop :=
  ∀ i, .destroying i ∈ m.stack → ∀ j item, Uses m.sel j item → i ≤ j ∨ j ∈ closingFds m.stack

theorem uses_congr (hfds : s'.fds = s.fds) : Uses s' i item ↔ Uses s i item := by
  unfold Uses
  rw [hfds]

theorem due_congr (hfds : m'.sel.fds = m.sel.fds) (hstack : closings m'.stack = closings m.stack) :
    Due m' x ↔ Due m x := by
  unfold Due closingFds
  rw [hstack]
  simp only [uses_congr hfds]

theorem Kept.congr (h : Kept m) (hfds : m'.sel.fds = m.sel.fds)
    (hstack : closings m'.stack = closings m.stack) (hissued : m'.issued = m.issued)
    (hreg : m'.registrations = m.registrations) : Kept m' where
  closing_used := by
    intro p hp
    rw [hstack] at hp
    simp only [FdSelector.fdSize, uses_congr hfds, hfds]
    exact h.closing_used p hp
  closing_nodup := by
    unfold closingFds
    rw [hstack]
    exact h.closing_nodup
  serial_unique := by
    intro i j item item' hi hj
    exact h.serial_unique i j item item' ((uses_congr hfds).mp hi) ((uses_congr hfds).mp hj)
  serial_lt := by
    intro i item hi
    rw [hissued]
    exact h.serial_lt i item ((uses_congr hfds).mp hi)
  issued_lt := by
    rw [hissued, hreg]
    exact h.issued_lt
  balanced := by
    rw [hreg]
    exact h.balanced.congr fun x => due_congr hfds hstack

theorem mem_closingFds (h : (i, size) ∈ closings stack) : i ∈ closingFds stack :=
  List.mem_map_of_mem h

/-- An entry that keeps its place and its serial, under a new interest. -/
theorem Kept.put (h : Kept m) (hi : Uses m.sel i item) (hitem : item'.used = true)
    (hserial : item'.serial = item.serial) (hclose : handleClose item' = handleClose item) :
    Kept { m with sel := SelectorTable.put m.sel i item' } := by
  have huses : ∀ j new, Uses (SelectorTable.put m.sel i item') j new ↔
      (j = i ∧ new = item') ∨ (j ≠ i ∧ Uses m.sel j new) := fun j new =>
    uses_put (uses_lt hi) hitem
  have hold : ∀ j new, Uses (SelectorTable.put m.sel i item') j new →
      ∃ old, Uses m.sel j old ∧ old.serial = new.serial ∧ handleClose old = handleClose new := by
    intro j new hj
    rcases (huses j new).mp hj with ⟨rfl, rfl⟩ | ⟨-, hj⟩
    · exact ⟨item, hi, hserial.symm, hclose.symm⟩
    · exact ⟨new, hj, rfl, rfl⟩
  have hnew : ∀ j old, Uses m.sel j old → ∃ new, Uses (SelectorTable.put m.sel i item') j new ∧
      new.serial = old.serial ∧ handleClose new = handleClose old := by
    intro j old hj
    by_cases hji : j = i
    · subst hji
      obtain rfl := uses_unique hj hi
      exact ⟨item', (huses j item').mpr (Or.inl ⟨rfl, rfl⟩), hserial, hclose⟩
    · exact ⟨old, (huses j old).mpr (Or.inr ⟨hji, hj⟩), rfl, rfl⟩
  exact
    { closing_used := by
        intro p hp
        obtain ⟨hsize, old, hp⟩ := h.closing_used p hp
        obtain ⟨new, hp, -⟩ := hnew p.1 old hp
        exact ⟨by rw [fdSize_put]; exact hsize, new, hp⟩
      closing_nodup := h.closing_nodup
      serial_unique := by
        intro j k new new' hj hk heq
        obtain ⟨old, hj, hs, -⟩ := hold j new hj
        obtain ⟨old', hk, hs', -⟩ := hold k new' hk
        exact h.serial_unique j k old old' hj hk (by omega)
      serial_lt := by
        intro j new hj
        obtain ⟨old, hj, hs, -⟩ := hold j new hj
        rw [← hs]
        exact h.serial_lt j old hj
      issued_lt := h.issued_lt
      balanced := by
        apply h.balanced.congr
        intro x
        constructor
        · rintro ⟨j, new, hj, hc, hout, rfl⟩
          obtain ⟨old, hj, hs, hc'⟩ := hold j new hj
          exact ⟨j, old, hj, hc'.trans hc, hout, hs⟩
        · rintro ⟨j, old, hj, hc, hout, rfl⟩
          obtain ⟨new, hj, hs, hc'⟩ := hnew j old hj
          exact ⟨j, new, hj, hc'.trans hc, hout, hs⟩ }

/-- A registration, while no unregistration is in progress. -/
theorem kept_registered (h : Kept m) (hnone : closings m.stack = []) (hgrown : Grown m.sel s)
    (hold : s.fds[i]? = some item) (hunused : item.used = false) :
    Kept (registered m s i handler interest data) := by
  have hnew : (⟨i, interest, handler, data, m.issued⟩ : Item).used = true := used_of_fd rfl
  have huses : ∀ j new, Uses (registered m s i handler interest data).sel j new ↔
      (j = i ∧ new = ⟨i, interest, handler, data, m.issued⟩) ∨ (j ≠ i ∧ Uses m.sel j new) := by
    intro j new
    rw [← uses_grown hgrown]
    exact uses_put (List.getElem?_eq_some_iff.mp hold).1 hnew
  have hempty : ∀ new, ¬ Uses m.sel i new := by
    intro new hi
    have hi := (uses_grown hgrown).mpr hi
    rw [Option.some.inj (hold.symm.trans hi.1)] at hunused
    exact absurd hi.2 (by simp [hunused])
  have hout : ∀ j, j ∉ closingFds m.stack := by
    intro j
    unfold closingFds
    rw [hnone]
    exact List.not_mem_nil
  have hdue : ∀ y, Due (registered m s i handler interest data) y ↔
      Due m y ∨ ((handler.map FdHandler.handleClose).getD false = true ∧ y = m.issued) := by
    intro y
    constructor
    · rintro ⟨j, new, hj, hc, -, rfl⟩
      rcases (huses j new).mp hj with ⟨rfl, rfl⟩ | ⟨-, hj⟩
      · exact Or.inr ⟨hc, rfl⟩
      · exact Or.inl ⟨j, new, hj, hc, hout j, rfl⟩
    · rintro (⟨j, old, hj, hc, -, rfl⟩ | ⟨hc, rfl⟩)
      · have hne : j ≠ i := by
          rintro rfl
          exact hempty old hj
        exact ⟨j, old, (huses j old).mpr (Or.inr ⟨hne, hj⟩), hc, hout j, rfl⟩
      · exact ⟨i, _, (huses i _).mpr (Or.inl ⟨rfl, rfl⟩), hc, hout i, rfl⟩
  exact
    { closing_used := by
        intro p hp
        have hp : p ∈ closings m.stack := hp
        rw [hnone] at hp
        exact absurd hp List.not_mem_nil
      closing_nodup := h.closing_nodup
      serial_unique := by
        intro j k new new' hj hk heq
        rcases (huses j new).mp hj with ⟨hji, hnew⟩ | ⟨-, hj'⟩ <;>
          rcases (huses k new').mp hk with ⟨hki, hnew'⟩ | ⟨-, hk'⟩
        · rw [hji, hki]
        · rw [hnew] at heq
          exact absurd heq (h.serial_lt k new' hk').ne'
        · rw [hnew'] at heq
          exact absurd heq (h.serial_lt j new hj').ne
        · exact h.serial_unique j k new new' hj' hk' heq
      serial_lt := by
        intro j new hj
        show new.serial < m.issued + 1
        rcases (huses j new).mp hj with ⟨-, rfl⟩ | ⟨-, hj⟩
        · exact Nat.lt_succ_self _
        · exact Nat.lt_succ_of_lt (h.serial_lt j new hj)
      issued_lt := by
        show (if _ then _ else _ : Ledger ℕ).Below id (m.issued + 1)
        split
        · exact h.issued_lt.issue rfl
        · exact fun y hy => Nat.lt_succ_of_lt (h.issued_lt y hy)
      balanced := by
        show (if _ then _ else _ : Ledger ℕ).Balanced _
        split
        next hc =>
          apply h.balanced.issue (h.issued_lt.not_mem rfl)
          intro y
          rw [hdue, hc]
          simp
        next hc =>
          apply h.balanced.congr
          intro y
          rw [hdue, Bool.eq_false_of_not_eq_true hc]
          simp }

/-- handle_close begins. -/
theorem kept_closing (h : Kept m) (hi : Uses m.sel i item) (hclose : handleClose item = true)
    (hout : i ∉ closingFds m.stack) : Kept (closing m i item) where
  closing_used := by
    intro p hp
    rcases List.mem_cons.mp (show p ∈ (i, m.sel.fdSize) :: closings m.stack from hp) with rfl | hp
    · exact ⟨rfl, item, hi⟩
    · exact h.closing_used p hp
  closing_nodup := List.nodup_cons.mpr ⟨hout, h.closing_nodup⟩
  serial_unique := h.serial_unique
  serial_lt := h.serial_lt
  issued_lt := h.issued_lt
  balanced := by
    apply h.balanced.settle ⟨i, item, hi, hclose, hout, rfl⟩
    intro y
    constructor
    · rintro ⟨j, item', hj, hc, hnot, rfl⟩
      obtain ⟨hne, hnot⟩ := not_or.mp fun h => hnot (List.mem_cons.mpr h)
      refine ⟨⟨j, item', hj, hc, hnot, rfl⟩, ?_⟩
      intro heq
      exact hne (h.serial_unique j i item' item hj hi heq)
    · rintro ⟨⟨j, item', hj, hc, hnot, rfl⟩, hne⟩
      refine ⟨j, item', hj, hc, ?_, rfl⟩
      intro hmem
      rcases List.mem_cons.mp (show j ∈ i :: closingFds m.stack from hmem) with rfl | hmem
      · rw [uses_unique hj hi] at hne
        exact hne rfl
      · exact hnot hmem

/-- An entry is blanked that no other unregistration is about, and that is not due. -/
theorem kept_removed (h : Kept m) (hsel : m'.sel = remove m.sel i k)
    (hstack : ∀ p, p ∈ closings m'.stack ↔ p ∈ closings m.stack ∧ p.1 ≠ i)
    (hnodup : (closingFds m'.stack).Nodup) (hissued : m'.issued = m.issued)
    (hreg : m'.registrations = m.registrations)
    (hnot : ∀ item, Uses m.sel i item → handleClose item = true → i ∈ closingFds m.stack) :
    Kept m' := by
  have huses : ∀ j new, Uses m'.sel j new ↔ j ≠ i ∧ Uses m.sel j new := by
    intro j new
    rw [hsel]
    exact uses_remove
  have hfds : ∀ j, j ≠ i → (j ∈ closingFds m'.stack ↔ j ∈ closingFds m.stack) := by
    intro j hj
    unfold closingFds
    simp only [List.mem_map, hstack]
    constructor
    · rintro ⟨p, ⟨hp, -⟩, rfl⟩
      exact ⟨p, hp, rfl⟩
    · rintro ⟨p, hp, rfl⟩
      exact ⟨p, ⟨hp, hj⟩, rfl⟩
  exact
    { closing_used := by
        intro p hp
        obtain ⟨hp, hne⟩ := (hstack p).mp hp
        obtain ⟨hsize, item, huse⟩ := h.closing_used p hp
        exact ⟨by rw [hsel, fdSize_remove]; exact hsize, item, (huses _ _).mpr ⟨hne, huse⟩⟩
      closing_nodup := hnodup
      serial_unique := fun j k item item' hj hk =>
        h.serial_unique j k item item' ((huses _ _).mp hj).2 ((huses _ _).mp hk).2
      serial_lt := by
        intro j item hj
        rw [hissued]
        exact h.serial_lt j item ((huses _ _).mp hj).2
      issued_lt := by
        rw [hissued, hreg]
        exact h.issued_lt
      balanced := by
        rw [hreg]
        apply h.balanced.congr
        intro y
        constructor
        · rintro ⟨j, item, hj, hc, hout, rfl⟩
          obtain ⟨hne, hj⟩ := (huses _ _).mp hj
          exact ⟨j, item, hj, hc, fun hmem => hout ((hfds j hne).mpr hmem), rfl⟩
        · rintro ⟨j, item, hj, hc, hout, rfl⟩
          have hne : j ≠ i := by
            rintro rfl
            exact hout (hnot item hj hc)
          exact ⟨j, item, (huses _ _).mpr ⟨hne, hj⟩, hc,
            fun hmem => hout ((hfds j hne).mp hmem), rfl⟩ }

end Closings

section Steps

/-- What is assumed of the caller: descriptors in the table; no registration from
handle_close, which leaves alone the entries whose unregistration is in progress. -/
def Polite (m : Machine) (e : Event) : Prop :=
  InTable m e ∧
    match e with
    | .register _ _ _ _ _ => closings m.stack = []
    | .unregister fd | .setInterest fd _ | .setInterestKey fd _ =>
      ∀ i ∈ closingFds m.stack, fd ≠ i
    | _ => True

instance (m : Machine) : (e : Event) → Decidable (Polite m e)
  | .register _ _ _ _ _ => inferInstanceAs (Decidable (InTable m _ ∧ _))
  | .unregister _ => inferInstanceAs (Decidable (InTable m _ ∧ _))
  | .setInterest _ _ => inferInstanceAs (Decidable (InTable m _ ∧ _))
  | .setInterestKey _ _ => inferInstanceAs (Decidable (InTable m _ ∧ _))
  | .next => inferInstanceAs (Decidable (InTable m .next ∧ True))
  | .notifyBlockDone _ _ _ => isTrue ⟨trivial, trivial⟩
  | .select _ => isTrue ⟨trivial, trivial⟩
  | .destroy => isTrue ⟨trivial, trivial⟩

/-- Polite calls, replayed. -/
theorem polite_run (h : es.foldlM (fun m e =>
    if decide (Polite m e) then advance m e else none) m = some m') :
    Run (Guarded Step Polite) m es m' :=
  (Run.of_foldlM_guarded step_of_advance h).mono fun hstep =>
    ⟨of_decide_eq_true hstep.1, hstep.2⟩

/-- The invariant of the polite runs; at the end every registration was closed. -/
structure Orderly (m : Machine) : Prop where
  kept : Kept m
  swept : Swept m
  dead : m.alive = false → ∀ x, ¬ Due m x

theorem swept_of_none (h : ∀ i, .destroying i ∉ m.stack) : Swept m :=
  fun i hi => absurd hi (h i)

theorem Swept.congr (h : Swept m) (hstack : m'.stack = m.stack)
    (huses : ∀ j item, Uses m'.sel j item → ∃ item', Uses m.sel j item') : Swept m' := by
  intro i hi j item hj
  rw [hstack] at hi ⊢
  obtain ⟨item', hj⟩ := huses j item hj
  exact h i hi j item' hj

/-- In a callback of the selector that is not handle_close, nothing is destroyed. -/
theorem not_destroying (h : Live m) (hnone : closings m.stack = []) (hout : m.outside = true) :
    ∀ i, .destroying i ∉ m.stack := by
  intro i hmem
  cases hstack : m.stack with
  | nil =>
    rw [hstack] at hmem
    exact absurd hmem List.not_mem_nil
  | cons f rest =>
    rw [hstack] at hmem hnone
    have hf : ∀ fd size, f ≠ .closing fd size := by
      rintro fd size rfl
      exact absurd hnone (by simp [closings])
    obtain rfl := h.base hstack hf
    obtain rfl := List.mem_singleton.mp hmem
    unfold Machine.outside at hout
    rw [hstack] at hout
    exact absurd hout Bool.false_ne_true

theorem orderly_register (hlive : Live m) (h : Orderly m) (hout : m.outside = true)
    (hpolite : Polite m (.register fd handler interest data alloc))
    (hcall : register m fd handler interest data alloc = .ok (m', status)) : Orderly m' := by
  have hidle : ∀ i, .destroying i ∉ m.stack := not_destroying hlive hpolite.2 hout
  rcases register_cases hlive.views fd handler interest data alloc with
    ⟨status, -, heq, -⟩ | ⟨-, -, -, heq⟩ |
      ⟨i, s, old, -, -, -, -, hgrown, hold, hunused, heq⟩ <;> rw [hcall] at heq
  · cases heq
    exact h
  · cases heq
  · cases heq
    exact
      { kept := kept_registered h.kept hpolite.2 hgrown hold hunused
        swept := swept_of_none hidle
        dead := fun hdead => absurd (hlive.alive.symm.trans hdead) (by simp) }

/-- selector_unregister_fd of an entry in use, from a caller or from the loop of
selector_destroy, which is about to pass the entry. -/
theorem orderly_unregister_uses (hlive : Live m) (hkept : Kept m) (hi : Uses m.sel i item)
    (hswept : ∀ k, .destroying k ∈ m.stack → ∀ j item, Uses m.sel j item →
      k ≤ j ∨ j ∈ closingFds m.stack ∨ j = i)
    (hout : i ∉ closingFds m.stack) (hcall : unregister m i = .ok (m', status)) : Orderly m' := by
  have halive : ∀ {x}, m.alive = false → ¬ Due m' x := fun hdead =>
    absurd (hlive.alive.symm.trans hdead) (by simp)
  rcases unregister_uses hlive.views hi with ⟨hclose, heq⟩ | ⟨hclose, k, -, heq⟩ <;>
    rw [hcall] at heq
  · cases heq
    refine ⟨kept_closing hkept hi hclose hout, ?_, fun hdead _ => halive hdead⟩
    intro k hk j new hj
    rcases List.mem_cons.mp hk with hk | hk
    · cases hk
    · rcases hswept k hk j new hj with hle | hmem | rfl
      · exact Or.inl hle
      · exact Or.inr (List.mem_cons_of_mem _ hmem)
      · exact Or.inr List.mem_cons_self
  · cases heq
    refine ⟨?_, ?_, fun hdead _ => halive hdead⟩
    · refine kept_removed hkept (by rfl) ?_ hkept.closing_nodup (by rfl) (by rfl) ?_
      · intro p
        refine ⟨fun hp => ⟨hp, ?_⟩, And.left⟩
        rintro rfl
        exact hout (mem_closingFds hp)
      · intro new hnew hc
        rw [uses_unique hnew hi, hclose] at hc
        exact absurd hc Bool.false_ne_true
    · intro k hk j new hj
      obtain ⟨hne, hj⟩ := uses_remove.mp hj
      rcases hswept k hk j new hj with hle | hmem | heq
      · exact Or.inl hle
      · exact Or.inr hmem
      · exact absurd heq hne

theorem orderly_unregister (hlive : Live m) (h : Orderly m) (hpolite : Polite m (.unregister fd))
    (hcall : unregister m fd = .ok (m', status)) : Orderly m' := by
  rcases unregister_cases m fd with ⟨-, heq⟩ | ⟨-, -, heq⟩ | ⟨i, item, rfl, hi⟩
  · rw [hcall] at heq
    cases heq
    exact h
  · rw [hcall] at heq
    cases heq
  · refine orderly_unregister_uses hlive h.kept hi ?_ ?_ hcall
    · intro k hk j new hj
      exact (h.swept k hk j new hj).imp_right Or.inl
    · intro hmem
      exact hpolite.2 i hmem rfl

theorem orderly_setInterest (hlive : Live m) (h : Orderly m)
    (hcall : call m (.setInterest fd interest) = .ok (m', status)) : Orderly m' := by
  rcases setInterest_cases hlive.views fd interest with ⟨-, heq⟩ | ⟨-, -, heq⟩ |
    ⟨i, item, -, -, hi, heq⟩ <;> rw [hcall] at heq
  · cases heq
    exact h
  · cases heq
  · cases heq
    have hused : ({ item with interest := interest } : Item).used = true := hi.2
    refine ⟨h.kept.put hi hused rfl rfl, h.swept.congr (by rfl) ?_, ?_⟩
    · intro j new hj
      rcases (uses_put (uses_lt hi) hused).mp hj with ⟨rfl, -⟩ | ⟨-, hj⟩
      · exact ⟨item, hi⟩
      · exact ⟨new, hj⟩
    · exact fun hdead => absurd (hlive.alive.symm.trans hdead) (by simp)

/-- Functions of the selector that neither register nor unregister. -/
theorem Orderly.congr (h : Orderly m) (hlive : Live m) (hnone : closings m.stack = [])
    (hfds : m'.sel.fds = m.sel.fds) (hissued : m'.issued = m.issued)
    (hreg : m'.registrations = m.registrations) (halive : m'.alive = m.alive)
    (hstack : closings m'.stack = []) (hidle : ∀ i, .destroying i ∉ m'.stack) : Orderly m' where
  kept := h.kept.congr hfds (hstack.trans hnone.symm) hissued hreg
  swept := swept_of_none hidle
  dead := fun hdead => absurd ((halive.trans hlive.alive).symm.trans hdead) (by simp)

theorem orderly_next (hlive : Live m) (h : Orderly m) (hcall : next m = .ok (m', status)) :
    Orderly m' := by
  have halive : m.alive = false → ∀ x, ¬ Due m' x := fun hdead =>
    absurd (hlive.alive.symm.trans hdead) (by simp)
  cases hstack : m.stack with
  | nil =>
    unfold next at hcall
    rw [hstack] at hcall
    cases hcall
  | cons f rest =>
    cases f with
    | closing i size =>
      rcases next_closing hlive hstack with ⟨-, heq⟩ | ⟨-, -, heq⟩ | ⟨item, k, -, hi, -, heq⟩ <;>
        rw [hcall] at heq
      · cases heq
      · cases heq
      · cases heq
        have hclosings : closings m.stack = (i, size) :: closings rest := by
          rw [hstack]
          rfl
        have hnodup : (i :: closingFds rest).Nodup := by
          have hall := h.kept.closing_nodup
          unfold closingFds at hall
          rw [hclosings] at hall
          exact hall
        have hout := (List.nodup_cons.mp hnodup).1
        refine ⟨kept_removed h.kept (i := i) (k := k) (by rfl) ?_ (List.nodup_cons.mp hnodup).2
          (by rfl) (by rfl) ?_, ?_, halive⟩
        · intro p
          rw [hclosings]
          constructor
          · intro hp
            refine ⟨List.mem_cons_of_mem _ hp, ?_⟩
            rintro rfl
            exact hout (mem_closingFds hp)
          · rintro ⟨hp, hne⟩
            rcases List.mem_cons.mp hp with rfl | hp
            · exact absurd rfl hne
            · exact hp
        · intro _ _ _
          unfold closingFds
          rw [hclosings]
          exact List.mem_cons_self
        · intro k hk j new hj
          obtain ⟨hne, hj⟩ := uses_remove.mp hj
          have hk' : .destroying k ∈ m.stack := by
            rw [hstack]
            exact List.mem_cons_of_mem _ hk
          refine (h.swept k hk' j new hj).imp_right ?_
          unfold closingFds
          rw [hclosings]
          intro hmem
          exact (List.mem_cons.mp hmem).resolve_left hne
    | destroying i =>
      obtain ⟨hrest, hcases⟩ := next_destroying hlive hstack
      have hnone : closings m.stack = [] := by
        rw [hstack, hrest]
        rfl
      have hsweep : ∀ j item, Uses m.sel j item → i ≤ j := by
        intro j item hj
        refine (h.swept i (hstack ▸ List.mem_cons_self) j item hj).resolve_right ?_
        unfold closingFds
        rw [hnone]
        exact List.not_mem_nil
      have hkept : Kept { m with stack := [.destroying (i + 1)] } :=
        h.kept.congr (by rfl) hnone.symm (by rfl) (by rfl)
      have hlive' := hlive.destroying (i + 1)
      rcases hcases with ⟨item, hget, hunused, heq⟩ | ⟨item, hi, heq⟩ | ⟨hle, heq⟩ <;>
        rw [hcall] at heq
      · cases heq
        refine ⟨hkept, ?_, halive⟩
        intro k hk j new hj
        cases List.mem_singleton.mp hk
        refine Or.inl (lt_of_le_of_ne (hsweep j new hj) ?_)
        rintro rfl
        rw [Option.some.inj (hget.symm.trans hj.1)] at hunused
        exact absurd hj.2 (by simp [hunused])
      · refine orderly_unregister_uses hlive' hkept hi ?_ List.not_mem_nil heq.symm
        intro k hk j new hj
        cases List.mem_singleton.mp hk
        rcases Nat.lt_or_eq_of_le (hsweep j new hj) with hlt | heq
        · exact Or.inl hlt
        · exact Or.inr (Or.inr heq.symm)
      · cases heq
        have hnothing : ∀ j item, ¬ Uses m.sel j item := by
          intro j item hj
          have hlt := uses_lt hj
          have hge := hsweep j item hj
          omega
        have hgone : ∀ j item, ¬ Uses { m.sel with fds := [], resolutionJobs := [] } j item :=
          fun j item hj => absurd (uses_lt hj) (Nat.not_lt_zero j)
        exact
          { kept :=
              { closing_used := fun p hp => absurd hp List.not_mem_nil
                closing_nodup := List.nodup_nil
                serial_unique := fun j k item item' hj => absurd hj (hgone j item)
                serial_lt := fun j item hj => absurd hj (hgone j item)
                issued_lt := h.kept.issued_lt
                balanced := h.kept.balanced.congr fun x =>
                  iff_of_false (fun ⟨j, item, hj, _⟩ => hgone j item hj)
                    fun ⟨j, item, hj, _⟩ => hnothing j item hj }
            swept := fun k hk => absurd hk List.not_mem_nil
            dead := fun _ x ⟨j, item, hj, _⟩ => hgone j item hj }
    | iteration i n busy =>
      have hnone : closings m.stack = [] := by
        rw [hstack, hlive.base hstack fun fd size heq => by cases heq]
        rfl
      rcases next_iteration hlive hstack with ⟨-, ⟨-, heq⟩ | ⟨-, item, -, -, heq⟩ |
        ⟨-, item, -, ⟨-, -, heq | ⟨handler, -, heq⟩⟩ | heq⟩⟩ <;> rw [hcall] at heq
      · cases heq
        exact h.congr hlive hnone (by rfl) (by rfl) (by rfl) (by rfl) (by rfl) (by simp)
      · cases heq
        exact h.congr hlive hnone (by rfl) (by rfl) (by rfl) (by rfl) (by rfl) (by simp)
      · cases heq
      · cases heq
        exact h.congr hlive hnone (by rfl) (by rfl) (by rfl) (by rfl) (by rfl) (by simp [called])
      · cases heq
        exact h.congr hlive hnone (by rfl) (by rfl) (by rfl) (by rfl) (by rfl) (by simp)
    | writing i n data size busy =>
      have hnone : closings m.stack = [] := by
        rw [hstack, hlive.base hstack fun fd size heq => by cases heq]
        rfl
      rcases next_writing hlive hstack with ⟨-, ⟨-, -, heq⟩ |
        ⟨item, -, -, -, -, heq | ⟨handler, -, heq⟩⟩ | ⟨-, heq⟩⟩ <;> rw [hcall] at heq
      · cases heq
      · cases heq
      · cases heq
        exact h.congr hlive hnone (by rfl) (by rfl) (by rfl) (by rfl) (by rfl) (by simp [called])
      · cases heq
        exact h.congr hlive hnone (by rfl) (by rfl) (by rfl) (by rfl) (by rfl) (by simp)
    | notifications jobs busy =>
      have hnone : closings m.stack = [] := by
        rw [hstack, hlive.base hstack fun fd size heq => by cases heq]
        rfl
      rcases next_notifications hlive hstack with ⟨-, ⟨-, heq⟩ |
        ⟨j, jobs', -, ⟨busy', -, -, heq⟩ | ⟨-, heq⟩⟩⟩ <;> rw [hcall] at heq
      · cases heq
        exact h.congr hlive hnone (by rfl) (by rfl) (by rfl) (by rfl) (by rfl) (by simp)
      · cases heq
        exact h.congr hlive hnone (by rfl) (by rfl) (by rfl) (by rfl) (by rfl) (by simp)
      · cases heq

theorem orderly_step (hlive : Live m) (h : Orderly m)
    (hstep : Guarded Step Polite m e m') : Orderly m' := by
  obtain ⟨hpolite, hen, status, hcall⟩ := hstep
  cases e with
  | register fd handler interest data alloc =>
    exact orderly_register hlive h hen.2 hpolite hcall
  | unregister fd => exact orderly_unregister hlive h hpolite hcall
  | setInterest fd i => exact orderly_setInterest hlive h hcall
  | setInterestKey fd i =>
    rw [setInterestKey_eq] at hcall
    exact orderly_setInterest hlive h hcall
  | notifyBlockDone fd data alloc =>
    have hcall : (if alloc then _ else _) = _ := hcall
    split at hcall
    · cases hcall
      exact
        { kept := h.kept.congr (by rfl) (by rfl) (by rfl) (by rfl)
          swept := h.swept.congr (by rfl) fun j item hj => ⟨item, hj⟩
          dead := fun hdead => absurd (hlive.alive.symm.trans hdead) (by simp) }
    · cases hcall
      exact h
  | select answer =>
    have hnone : closings m.stack = [] := by
      rw [hen.2]
      rfl
    cases answer <;> cases hcall <;>
      exact h.congr hlive hnone (by rfl) (by rfl) (by rfl) (by rfl)
        (by first | exact hnone | rfl) (by simp [hen.2])
  | destroy =>
    cases hcall
    refine ⟨h.kept.congr (by rfl) (by rw [hen.2]; rfl) (by rfl) (by rfl), ?_, ?_⟩
    · intro k hk j item hj
      cases List.mem_singleton.mp hk
      exact Or.inl (Nat.zero_le j)
    · exact fun hdead => absurd (hlive.alive.symm.trans hdead) (by simp)
  | next => exact orderly_next hlive h hcall

theorem orderly_start {initialElements : ℕ} (hnew : selectorNew initialElements alloc = some s) :
    Orderly (start s) where
  kept :=
    { closing_used := fun p hp => absurd hp List.not_mem_nil
      closing_nodup := List.nodup_nil
      serial_unique := fun i j item item' hi => absurd hi (new_unused hnew)
      serial_lt := fun i item hi => absurd hi (new_unused hnew)
      issued_lt := fun x hx => absurd hx List.not_mem_nil
      balanced := Ledger.balanced_empty fun x ⟨i, item, hi, _⟩ => new_unused hnew hi }
  swept := swept_of_none fun i => List.not_mem_nil
  dead := fun hdead => absurd hdead (by simp [start])

theorem orderly_run {initialElements : ℕ} (hnew : selectorNew initialElements alloc = some s)
    (hrun : Run (Guarded Step Polite) (start s) es m) : Sound m ∧ Orderly m := by
  apply hrun.invariant (I := fun m => Sound m ∧ Orderly m)
  · exact ⟨sound_start hnew, orderly_start hnew⟩
  · rintro a b e ⟨hsound, horderly⟩ hstep
    exact ⟨sound_step hsound hstep.2,
      orderly_step (live_of_enabled hsound hstep.2.1) horderly hstep⟩

end Steps

section Consistency

/-- The four views of the registrations agree, and a registration in the way of
another one is left alone. -/
structure Consistent (m : Machine) : Prop where
  read_iff : ∀ fd, fd ∈ m.sel.masterR ↔ ∃ item, Uses m.sel fd item ∧ item.interest.read = true
  write_iff : ∀ fd, fd ∈ m.sel.masterW ↔ ∃ item, Uses m.sel fd item ∧ item.interest.write = true
  fd_eq : ∀ fd item, Uses m.sel fd item → item.fd = fd
  maxFd : IsGreatest {fd | ∃ item, Uses m.sel fd item} m.sel.maxFd ∨
    ((∀ fd item, ¬ Uses m.sel fd item) ∧ m.sel.maxFd = 0)
  fdinuse : ∀ (fd : ℕ) (item : Item) (handler : Option FdHandler) (interest : FdInterest)
    (data : ℕ) (alloc : Bool), Uses m.sel fd item → handler.isSome →
    call m (.register fd handler interest data alloc) = .ok (m, some .fdinuse)

/-- The table holds registration `x`, which has a handle_close. -/
def Registered (m : Machine) (x : ℕ) : Prop :=
  ∃ fd item, Uses m.sel fd item ∧ handleClose item = true ∧ item.serial = x

/-- handle_close was called once for what was unregistered, never for what is in
the table, and nothing is left in the table of a selector that was destroyed. -/
structure Accounted (m : Machine) : Prop where
  once : ∀ x ∈ m.registrations.issued, ¬ Registered m x → m.registrations.settled.count x = 1
  never : ∀ x, Registered m x → x ∈ m.registrations.issued ∧ m.registrations.settled.count x = 0
  only : ∀ x ∈ m.registrations.settled, x ∈ m.registrations.issued
  destroyed : m.alive = false → ∀ x, ¬ Registered m x

/-- The functions that the runs are about, which is all but those of selector_select. -/
def Own (m : Machine) : Event → Prop
  | .select _ => False
  | .next =>
    match m.stack with
    | .closing _ _ :: _ | .destroying _ :: _ => True
    | _ => False
  | _ => True

theorem consistent (h : Live m) : Consistent m where
  read_iff := h.views.read_iff
  write_iff := h.views.write_iff
  fd_eq := h.views.fd_eq
  maxFd := by
    have hupper : m.sel.maxFd ∈ upperBounds {fd | ∃ item, Uses m.sel fd item} := by
      rintro fd ⟨item, hfd⟩
      exact h.views.le_maxFd fd item hfd
    by_cases hsome : ∃ fd item, Uses m.sel fd item
    · refine Or.inl ⟨?_, hupper⟩
      rcases h.views.maxFd_used with hzero | hused
      · obtain ⟨fd, item, hfd⟩ := hsome
        have hle := h.views.le_maxFd fd item hfd
        obtain rfl : fd = m.sel.maxFd := by omega
        exact ⟨item, hfd⟩
      · exact hused
    · have hnone : ∀ fd item, ¬ Uses m.sel fd item := fun fd item hfd => hsome ⟨fd, item, hfd⟩
      refine Or.inr ⟨hnone, h.views.maxFd_used.resolve_right ?_⟩
      rintro ⟨item, hmax⟩
      exact hnone _ item hmax
  fdinuse := by
    intro fd item handler interest data alloc hfd hhandler
    have hroom : ¬ (fd : ℤ).toNat > m.sel.fdSize := by
      rw [Int.toNat_natCast]
      exact not_lt.mpr (Nat.le_of_lt (uses_lt hfd))
    have hreg : selectorRegister alloc m.issued m.sel fd handler interest data =
        .ok (.fdinuse, m.sel) := by
      unfold selectorRegister
      rw [valid_of_lt (h.views.lt_setsize fd item hfd), Option.isNone_eq_false_iff.mpr hhandler,
        Bool.or_self, if_neg Bool.false_ne_true]
      dsimp only
      rw [if_neg hroom]
      exact registerItem_used handler interest data hfd
    show register m fd handler interest data alloc = _
    unfold register
    rw [hreg]
    rfl

theorem accounted (h : Orderly m) (hnone : closings m.stack = []) : Accounted m := by
  have hdue : ∀ x, Due m x ↔ Registered m x := by
    intro x
    unfold Due Registered closingFds
    rw [hnone]
    simp
  have hbalanced : m.registrations.Balanced (Registered m) :=
    h.kept.balanced.congr fun x => (hdue x).symm
  exact
    { once := fun x hx hnot => hbalanced.count_settled hx hnot
      never := fun x hx =>
        ⟨hbalanced.mem_of_live hx, List.count_eq_zero.mpr (hbalanced.unsettled x hx)⟩
      only := fun x hx => (hbalanced.mem_issued x).mpr (Or.inr hx)
      destroyed := fun hdead x hx => h.dead hdead x ((hdue x).mpr hx) }

/-- A polite call does not stop the selector. -/
theorem returns (hlive : Live m) (h : Orderly m) (hen : Enabled m e) (hpolite : Polite m e)
    (hown : Own m e) : ∃ r, call m e = .ok r := by
  cases e with
  | register fd handler interest data alloc =>
    rcases register_cases hlive.views fd handler interest data alloc with
      ⟨status, -, heq, -⟩ | ⟨hvalid, hhandler, hfd, -⟩ | ⟨i, s, old, -, -, -, -, -, -, -, heq⟩
    · exact ⟨_, heq⟩
    · exact absurd hfd (hpolite.1 hvalid hhandler)
    · exact ⟨_, heq⟩
  | unregister fd =>
    rcases unregister_cases m fd with ⟨-, heq⟩ | ⟨hvalid, hle, -⟩ | ⟨i, item, rfl, hi⟩
    · exact ⟨_, heq⟩
    · exact absurd (hpolite.1 hvalid) (not_lt.mpr hle)
    · rcases unregister_uses hlive.views hi with ⟨-, heq⟩ | ⟨-, k, -, heq⟩
      · exact ⟨_, heq⟩
      · exact ⟨_, heq⟩
  | setInterest fd interest =>
    rcases setInterest_cases hlive.views fd interest with ⟨-, heq⟩ | ⟨hvalid, hle, -⟩ |
      ⟨i, item, -, -, -, heq⟩
    · exact ⟨_, heq⟩
    · exact absurd (hpolite.1 hvalid) (not_lt.mpr hle)
    · exact ⟨_, heq⟩
  | setInterestKey fd interest =>
    rw [setInterestKey_eq]
    rcases setInterest_cases hlive.views fd interest with ⟨-, heq⟩ | ⟨hvalid, hle, -⟩ |
      ⟨i, item, -, -, -, heq⟩
    · exact ⟨_, heq⟩
    · exact absurd (hpolite.1 hvalid) (not_lt.mpr hle)
    · exact ⟨_, heq⟩
  | notifyBlockDone fd data alloc => cases alloc <;> exact ⟨_, rfl⟩
  | select answer => exact absurd hown not_false
  | destroy => exact ⟨_, rfl⟩
  | next =>
    cases hstack : m.stack with
    | nil => exact absurd hstack hen
    | cons f rest =>
      unfold Own at hown
      rw [hstack] at hown
      cases f with
      | closing i size =>
        have hmem : (i, size) ∈ closings m.stack := by
          rw [hstack]
          exact List.mem_cons_self
        obtain ⟨hsize, item, hi⟩ := h.kept.closing_used (i, size) hmem
        rcases next_closing hlive hstack with ⟨hne, -⟩ | ⟨-, hnot, -⟩ | ⟨item, k, -, -, -, heq⟩
        · exact absurd hsize.symm hne
        · exact absurd hi (hnot item)
        · exact ⟨_, heq⟩
      | destroying i =>
        rcases next_destroying hlive hstack with ⟨-, ⟨item, -, -, heq⟩ | ⟨item, hi, heq⟩ | ⟨-, heq⟩⟩
        · exact ⟨_, heq⟩
        · have hlive' := hlive.destroying (i + 1)
          rcases unregister_uses hlive'.views hi with ⟨-, heq'⟩ | ⟨-, k, -, heq'⟩
          · exact ⟨_, heq.trans heq'⟩
          · exact ⟨_, heq.trans heq'⟩
        · exact ⟨_, heq⟩
      | iteration i n busy => exact absurd hown not_false
      | writing i n data size busy => exact absurd hown not_false
      | notifications jobs busy => exact absurd hown not_false

/-- In every run of calls on descriptors of the table, where handle_close may come
back for other entries, the calls return, the views agree, and each registration
has its handle_close called once, when it ends. -/
theorem selector_consistent {initialElements : ℕ}
    (hnew : selectorNew initialElements alloc = some s)
    (hrun : Run (Guarded Step Polite) (start s) es m) :
    (m.alive = true → Consistent m) ∧ (closings m.stack = [] → Accounted m) ∧
      ∀ e, Enabled m e → Polite m e → Own m e → ∃ r, call m e = .ok r := by
  obtain ⟨hsound, horderly⟩ := orderly_run hnew hrun
  refine ⟨fun halive => ?_, accounted horderly, fun e hen hpolite hown => ?_⟩
  · rcases hsound with hlive | ⟨hdead, -⟩
    · exact consistent hlive
    · exact absurd (halive.symm.trans hdead) (by simp)
  · exact returns (live_of_enabled hsound hen) horderly hen hpolite hown

/-- A pair of descriptors, where the handle_close of the first unregisters the second. -/
theorem selector_consistent_pair : ∃ s m, selectorNew 4 true = some s ∧
    Run (Guarded Step Polite) (start s)
      [.register 1 (some readHandler) OP_READ 7 true, .register 3 (some readHandler) OP_READ 7 true,
        .unregister 1, .unregister 3, .next, .next] m ∧
    m.registrations.issued = [1, 0] ∧ m.alive = true ∧ Consistent m ∧ Accounted m := by
  have hrun : Run (Guarded Step Polite)
      (start { selectorZero with fds := List.replicate 9 itemInit })
      [.register 1 (some readHandler) OP_READ 7 true, .register 3 (some readHandler) OP_READ 7 true,
        .unregister 1, .unregister 3, .next, .next] _ := polite_run rfl
  have hnew : selectorNew 4 true =
      some { selectorZero with fds := List.replicate 9 itemInit } := rfl
  obtain ⟨hviews, hclosed, -⟩ := selector_consistent hnew hrun
  exact ⟨_, _, hnew, hrun, rfl, rfl, hviews rfl, hclosed rfl⟩

end Consistency

end SocksProxy.SelectorViews
