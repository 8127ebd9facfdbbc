import SocksProxy.SelectorTable

/-!
Whether the selector stays inside its table. The table grows in one function
only, and the calls compare a descriptor with FD_SETSIZE rather than with
fd_size: what is asked for inside the table is answered inside it, and what is
beyond it is read there all the same.
-/
namespace SocksProxy.SelectorBounds

open Ledgers Runs Selector SelectorMachine SelectorTable
open ConnState (FdInterest OP_NOOP OP_READ)

variable {m m' : Machine} {s s' : FdSelector} {f g : Frame} {rest : List Frame}
  {i n size size' : ℕ} {fd : ℤ} {handler : Option FdHandler} {interest : FdInterest}
  {data : ℕ} {alloc : Bool} {e : Event} {es : List Event} {status : Option SelectorStatus}

section Calls

/-! The calls, as functions of the machine. -/

/-- A registration in the entry `i` of `s`, the table with room for it. -/
def registered (m : Machine) (s : FdSelector) (i : ℕ) (handler : Option FdHandler)
    (interest : FdInterest) (data : ℕ) : Machine :=
  { m with
    sel := put s i ⟨i, interest, handler, data, m.issued⟩
    issued := m.issued + 1
    registrations :=
      if (handler.map FdHandler.handleClose).getD false then m.registrations.issue m.issued
      else m.registrations }

theorem register_cases (h : Views m.sel) (fd : ℤ) (handler : Option FdHandler)
    (interest : FdInterest) (data : ℕ) (alloc : Bool) :
    (∃ status, status ≠ .success ∧
        register m fd handler interest data alloc = .ok (m, some status) ∧
        (invalidFd fd = false → handler.isSome → fd ≠ m.sel.fdSize)) ∨
      (invalidFd fd = false ∧ handler.isSome ∧ fd = m.sel.fdSize ∧
        register m fd handler interest data alloc = .error (.outOfBounds fd)) ∨
      ∃ (i : ℕ) (s : FdSelector) (old : Item), fd = i ∧ i < ITEMS_MAX_SIZE ∧
        (s.fdSize = m.sel.fdSize ∧ i < m.sel.fdSize ∨ m.sel.fdSize < i ∧ alloc = true) ∧
        handler.isSome ∧ Grown m.sel s ∧ s.fds[i]? = some old ∧
        old.used = false ∧ register m fd handler interest data alloc =
          .ok (registered m s i handler interest data, some .success) := by
  unfold register
  rcases selectorRegister_cases h alloc m.issued fd handler interest data with
    ⟨status, hne, heq, hroom⟩ | ⟨hvalid, hhandler, hfd, heq⟩ |
      ⟨i, s, old, rfl, hlt, hsize, hhandler, hgrown, hold, hunused, heq⟩
  · rw [heq]
    exact Or.inl ⟨status, hne, if_neg hne, hroom⟩
  · rw [heq]
    exact Or.inr (Or.inl ⟨hvalid, hhandler, hfd, rfl⟩)
  · rw [heq]
    exact Or.inr (Or.inr ⟨i, s, old, rfl, hlt, hsize, hhandler, hgrown, hold, hunused, rfl⟩)

/-- handle_close of the item at `i` begins. -/
def closing (m : Machine) (i : ℕ) (item : Item) : Machine :=
  { m with
    stack := .closing i m.sel.fdSize :: m.stack
    registrations := m.registrations.settle item.serial }

/-- selector_unregister_fd of an entry in use: handle_close is called, or there is none. -/
theorem unregister_uses {item : Item} (h : Views m.sel) (hi : Uses m.sel i item) :
    (handleClose item = true ∧ unregister m i = .ok (closing m i item, none)) ∨
      (handleClose item = false ∧ ∃ k, Views (remove m.sel i k) ∧
        unregister m i = .ok ({ m with sel := remove m.sel i k }, some .success)) := by
  unfold unregister
  rw [unregisterStart_uses h hi]
  show (_ ∧ (if handleClose item = true then _ else _) = _) ∨
    (_ ∧ ∃ k, _ ∧ (if handleClose item = true then _ else _) = _)
  cases hclose : handleClose item with
  | true => exact Or.inl ⟨rfl, rfl⟩
  | false =>
    obtain ⟨k, hend, hviews⟩ := unregisterEnd_uses h hi
    refine Or.inr ⟨rfl, k, hviews, ?_⟩
    show (unregisterEnd m.sel i >>= _) = _
    rw [hend]
    rfl

theorem unregister_cases (m : Machine) (fd : ℤ) :
    ((invalidFd fd = false → fd < m.sel.fdSize) ∧ unregister m fd = .ok (m, some .iargs)) ∨
      (invalidFd fd = false ∧ m.sel.fdSize ≤ fd ∧
        unregister m fd = .error (.outOfBounds fd)) ∨
      ∃ (i : ℕ) (item : Item), fd = i ∧ Uses m.sel i item := by
  rcases unregisterStart_cases m.sel fd with ⟨hin, heq⟩ | ⟨hvalid, hfd, heq⟩ |
    ⟨i, item, rfl, -, huses, -⟩
  · refine Or.inl ⟨hin, ?_⟩
    unfold unregister
    rw [heq]
    rfl
  · refine Or.inr (Or.inl ⟨hvalid, hfd, ?_⟩)
    unfold unregister
    rw [heq]
    rfl
  · exact Or.inr (Or.inr ⟨i, item, rfl, huses⟩)

theorem setInterest_cases (h : Views m.sel) (fd : ℤ) (interest : FdInterest) :
    ((invalidFd fd = false → fd < m.sel.fdSize) ∧
        call m (.setInterest fd interest) = .ok (m, some .iargs)) ∨
      (invalidFd fd = false ∧ m.sel.fdSize ≤ fd ∧
        call m (.setInterest fd interest) = .error (.outOfBounds fd)) ∨
      ∃ (i : ℕ) (item : Item), fd = i ∧ i < ITEMS_MAX_SIZE ∧ Uses m.sel i item ∧
        call m (.setInterest fd interest) = .ok ({ m with
          sel := put m.sel i { item with interest := interest } }, some .success) := by
  show (_ ∧ (selectorSetInterest m.sel fd interest >>= _) = _) ∨ (_ ∧ _ ∧
    ((selectorSetInterest m.sel fd interest) >>= _) = _) ∨ ∃ i item, _ ∧ _ ∧ _ ∧
      ((selectorSetInterest m.sel fd interest) >>= _) = _
  rcases selectorSetInterest_cases h fd interest with ⟨hin, heq⟩ | ⟨hvalid, hfd, heq⟩ |
    ⟨i, item, rfl, hlt, huses, heq⟩
  · rw [heq]
    exact Or.inl ⟨hin, rfl⟩
  · rw [heq]
    exact Or.inr (Or.inl ⟨hvalid, hfd, rfl⟩)
  · rw [heq]
    exact Or.inr (Or.inr ⟨i, item, rfl, hlt, huses, rfl⟩)

theorem setInterestKey_eq (m : Machine) (fd : ℤ) (interest : FdInterest) :
    call m (.setInterestKey fd interest) = call m (.setInterest fd interest) := by
  show ((selectorSetInterestKey m.sel fd interest) >>= _) = _
  rw [selectorSetInterestKey_eq]
  rfl

end Calls

section Live

/-! What holds of a selector and the functions under way, until it is destroyed. -/

/-- The indices that a function goes on with are in a table of this size. -/
def Within (size : ℕ) : Frame → Prop
  | .closing fd size' => fd < size ∧ size' ≤ size
  | .destroying _ => True
  | .iteration _ n _ => n < size
  | .writing i n _ size' _ => i ≤ n ∧ n < size ∧ size' ≤ size
  | .notifications _ _ => True

theorem within_mono (hle : size ≤ size') (h : Within size f) : Within size' f := by
  cases f with
  | closing fd size₁ => exact ⟨lt_of_lt_of_le h.1 hle, h.2.trans hle⟩
  | destroying i => trivial
  | iteration i n busy => exact lt_of_lt_of_le (show n < size from h) hle
  | writing i n data size₁ busy => exact ⟨h.1, lt_of_lt_of_le h.2.1 hle, h.2.2.trans hle⟩
  | notifications jobs busy => trivial

/-- Only selector_unregister_fd runs inside another function of the selector. -/
structure Live (m : Machine) : Prop where
  alive : m.alive = true
  views : Views m.sel
  within : ∀ f ∈ m.stack, Within m.sel.fdSize f
  nested : ∀ f ∈ m.stack.dropLast, ∃ fd size, f = .closing fd size

def Sound (m : Machine) : Prop := Live m ∨ (m.alive = false ∧ m.stack = [])

theorem Live.congr (h : Live m) (halive : m'.alive = m.alive) (hstack : m'.stack = m.stack)
    (hviews : Views m'.sel) (hsize : m.sel.fdSize ≤ m'.sel.fdSize) : Live m' where
  alive := halive.trans h.alive
  views := hviews
  within := by
    intro f hf
    rw [hstack] at hf
    exact within_mono hsize (h.within f hf)
  nested := by
    rw [hstack]
    exact h.nested

/-- A selector_unregister_fd begins. -/
theorem Live.push (h : Live m) (hf : f = .closing i size) (hwithin : Within m.sel.fdSize f)
    (halive : m'.alive = m.alive) (hsel : m'.sel = m.sel) (hstack : m'.stack = f :: m.stack) :
    Live m' where
  alive := halive.trans h.alive
  views := by
    rw [hsel]
    exact h.views
  within := by
    intro f' hmem
    rw [hstack] at hmem
    rw [hsel]
    rcases List.mem_cons.mp hmem with rfl | hmem
    · exact hwithin
    · exact h.within f' hmem
  nested := by
    intro f' hmem
    rw [hstack] at hmem
    cases hm : m.stack with
    | nil =>
      rw [hm] at hmem
      exact absurd hmem List.not_mem_nil
    | cons g rest =>
      rw [hm, List.dropLast_cons_cons, ← hm] at hmem
      rcases List.mem_cons.mp hmem with rfl | hmem
      · exact ⟨i, size, hf⟩
      · exact h.nested f' hmem

/-- The function on top ends. -/
theorem Live.pop (h : Live m) (hstack : m.stack = f :: rest) (halive : m'.alive = m.alive)
    (hrest : m'.stack = rest) (hviews : Views m'.sel) (hsize : m.sel.fdSize ≤ m'.sel.fdSize) :
    Live m' where
  alive := halive.trans h.alive
  views := hviews
  within := by
    intro f' hmem
    rw [hrest] at hmem
    exact within_mono hsize (h.within f' (hstack ▸ List.mem_cons_of_mem _ hmem))
  nested := by
    intro f' hmem
    rw [hrest] at hmem
    apply h.nested f'
    rw [hstack]
    cases rest with
    | nil => exact absurd hmem List.not_mem_nil
    | cons g rest =>
      rw [List.dropLast_cons_cons]
      exact List.mem_cons_of_mem _ hmem

/-- Every other function of the selector runs alone. -/
theorem Live.base (h : Live m) (hstack : m.stack = f :: rest)
    (hf : ∀ fd size, f ≠ .closing fd size) : rest = [] := by
  cases rest with
  | nil => rfl
  | cons g rest =>
    obtain ⟨fd, size, heq⟩ := h.nested f (by
      rw [hstack, List.dropLast_cons_cons]
      exact List.mem_cons_self)
    exact absurd heq (hf fd size)

/-- The function at the bottom goes on as `g`. -/
theorem Live.goOn (h : Live m) (hwithin : Within m.sel.fdSize g) (halive : m'.alive = m.alive)
    (hstack : m'.stack = [g]) (hviews : Views m'.sel) (hsize : m.sel.fdSize ≤ m'.sel.fdSize) :
    Live m' where
  alive := halive.trans h.alive
  views := hviews
  within := by
    intro f hmem
    rw [hstack, List.mem_singleton] at hmem
    rw [hmem]
    exact within_mono hsize hwithin
  nested := by
    rw [hstack]
    intro f hmem
    exact absurd hmem List.not_mem_nil

/-- selector_destroy goes on with the entry `i`. -/
theorem Live.destroying (h : Live m) (i : ℕ) : Live { m with stack := [.destroying i] } :=
  h.goOn (g := .destroying i) trivial (by rfl) (by rfl) h.views (by rfl)

end Live

section Next

/-! What each function can do when it goes on. -/

theorem get_of_lt (hi : i < s.fdSize) : ∃ item, s.fds[i]? = some item :=
  ⟨s.fds[i], List.getElem?_eq_getElem hi⟩

theorem next_closing (h : Live m) (hstack : m.stack = .closing i size :: rest) :
    (m.sel.fdSize ≠ size ∧ next m = .error .dangling) ∨
      (m.sel.fdSize = size ∧ (∀ item, ¬ Uses m.sel i item) ∧ next m = .error .badFdSet) ∨
      ∃ item k, m.sel.fdSize = size ∧ Uses m.sel i item ∧ Views (remove m.sel i k) ∧
        next m = .ok ({ m with sel := remove m.sel i k, stack := rest }, some .success) := by
  unfold next
  rw [hstack]
  dsimp only
  split
  next hne => exact Or.inl ⟨hne, rfl⟩
  next heq =>
  have hwithin := h.within _ (hstack ▸ List.mem_cons_self)
  obtain ⟨item, hget⟩ := get_of_lt hwithin.1
  cases hused : item.used with
  | false =>
    rw [unregisterEnd_unused hget hused]
    refine Or.inr (Or.inl ⟨not_not.mp heq, ?_, rfl⟩)
    rintro item' ⟨hget', hused'⟩
    rw [Option.some.inj (hget.symm.trans hget'), hused'] at hused
    exact absurd hused (by simp)
  | true =>
    obtain ⟨k, hend, hviews⟩ := unregisterEnd_uses h.views ⟨hget, hused⟩
    rw [hend]
    exact Or.inr (Or.inr ⟨item, k, not_not.mp heq, ⟨hget, hused⟩, hviews, rfl⟩)

theorem next_destroying (h : Live m) (hstack : m.stack = .destroying i :: rest) :
    rest = [] ∧
      ((∃ item, m.sel.fds[i]? = some item ∧ item.used = false ∧
          next m = .ok ({ m with stack := [.destroying (i + 1)] }, none)) ∨
        (∃ item, Uses m.sel i item ∧
          next m = unregister { m with stack := [.destroying (i + 1)] } i) ∨
        (m.sel.fdSize ≤ i ∧ next m = .ok ({ m with
          sel := { m.sel with fds := [], resolutionJobs := [] }
          stack := [], alive := false }, none))) := by
  have hrest : rest = [] := h.base hstack fun fd size heq => by cases heq
  refine ⟨hrest, ?_⟩
  unfold next
  rw [hstack, hrest]
  dsimp only
  split
  next hlt =>
    obtain ⟨item, hget⟩ := get_of_lt hlt
    rw [itemAt_nat hget]
    cases hused : item.used with
    | false => exact Or.inl ⟨item, hget, hused, by simp [bind, Except.bind, hused]⟩
    | true =>
      exact Or.inr (Or.inl ⟨item, ⟨hget, hused⟩, by simp [bind, Except.bind, hused]⟩)
  next hle => exact Or.inr (Or.inr ⟨Nat.le_of_not_lt hle, rfl⟩)

/-- The machine after a callback of `item` was called. -/
def called (m : Machine) (i : ℕ) (op : Op) (item : Item) (handler : FdHandler) (data : ℕ)
    (f : Frame) : Machine :=
  { m with
    stack := [f]
    dispatched :=
      { fd := i, op := op, handler := handler, data := data, serial := item.serial } ::
        m.dispatched }

theorem dispatch_cases (m : Machine) (i : ℕ) (op : Op) (item : Item) (data : ℕ) (f : Frame) :
    dispatch m i op item data f [] = .error .assertion ∨
      ∃ handler, item.handler = some handler ∧
        dispatch m i op item data f [] = .ok (called m i op item handler data f, none) := by
  unfold dispatch
  split
  next => exact Or.inl rfl
  next handler hhandler =>
    split
    · exact Or.inr ⟨handler, hhandler, rfl⟩
    · exact Or.inl rfl

theorem next_iteration {busy : Bool} (h : Live m) (hstack : m.stack = .iteration i n busy :: rest) :
    rest = [] ∧
      ((n < i ∧ next m = .ok ({ m with
          stack := [.notifications m.sel.resolutionJobs false] }, none)) ∨
        (i ≤ n ∧ ∃ item, m.sel.fds[i]? = some item ∧ item.used = false ∧
          next m = .ok ({ m with stack := [.iteration (i + 1) n false] }, none)) ∨
        (i ≤ n ∧ ∃ item, Uses m.sel i item ∧
          ((i ∈ m.sel.slaveR ∧ item.interest.read = true ∧ (next m = .error .assertion ∨
              ∃ handler, item.handler = some handler ∧ next m = .ok (called m i .read item handler
                item.data (.writing i n item.data m.sel.fdSize true), none))) ∨
            next m = .ok ({ m with
              stack := [.writing i n item.data m.sel.fdSize false] }, none)))) := by
  have hrest : rest = [] := h.base hstack fun fd size heq => by cases heq
  refine ⟨hrest, ?_⟩
  have hwithin : n < m.sel.fdSize :=
    h.within (.iteration i n busy) (hstack ▸ List.mem_cons_self)
  have hnext : next m = iterate m i n [] := by
    unfold next
    rw [hstack, hrest]
  rw [hnext]
  unfold iterate
  split
  next hend => exact Or.inl ⟨hend, rfl⟩
  next hle =>
  have hle : i ≤ n := Nat.le_of_not_lt hle
  obtain ⟨item, hget⟩ := get_of_lt (lt_of_le_of_lt hle hwithin)
  rw [itemAt_nat hget]
  show _ ∨ (_ ∧ ∃ item', _ ∧ _ ∧ (if (!item.used) = true then _ else _) = _) ∨ (_ ∧ ∃ item', _ ∧
    ((_ ∧ _ ∧ ((if (!item.used) = true then _ else _) = _ ∨ ∃ handler, _ ∧
      (if (!item.used) = true then _ else _) = _)) ∨ (if (!item.used) = true then _ else _) = _))
  cases hused : item.used with
  | false => exact Or.inr (Or.inl ⟨hle, item, hget, hused, rfl⟩)
  | true =>
    have huses : Uses m.sel i item := ⟨hget, hused⟩
    refine Or.inr (Or.inr ⟨hle, item, huses, ?_⟩)
    rw [h.views.fd_eq i item huses, Int.toNat_natCast, Bool.not_true, if_neg Bool.false_ne_true]
    split
    next hready =>
      exact Or.inl ⟨hready.1, hready.2, dispatch_cases m i .read item item.data _⟩
    next => exact Or.inr rfl

theorem next_writing {busy : Bool}
    (h : Live m) (hstack : m.stack = .writing i n data size busy :: rest) :
    rest = [] ∧
      ((i ∈ m.sel.slaveW ∧ m.sel.fdSize ≠ size ∧ next m = .error .dangling) ∨
        (∃ item, i ∈ m.sel.slaveW ∧ m.sel.fdSize = size ∧ Uses m.sel i item ∧
          item.interest.write = true ∧ (next m = .error .assertion ∨
            ∃ handler, item.handler = some handler ∧ next m = .ok (called m i .write item handler
              data (.iteration (i + 1) n true), none))) ∨
        ((i ∈ m.sel.slaveW → m.sel.fdSize = size) ∧
          next m = .ok ({ m with stack := [.iteration (i + 1) n false] }, none))) := by
  have hrest : rest = [] := h.base hstack fun fd size heq => by cases heq
  refine ⟨hrest, ?_⟩
  have hwithin : Within m.sel.fdSize (.writing i n data size busy) :=
    h.within _ (hstack ▸ List.mem_cons_self)
  have hnext : next m = iterateWrite m i n data size [] := by
    unfold next
    rw [hstack, hrest]
  rw [hnext]
  unfold iterateWrite
  split
  next hset =>
    split
    next hne => exact Or.inl ⟨hset, hne, rfl⟩
    next heq =>
    have heq := not_not.mp heq
    obtain ⟨item, hget⟩ := get_of_lt (lt_of_le_of_lt hwithin.1 hwithin.2.1)
    rw [itemAt_nat hget]
    refine Or.inr ?_
    cases hwrite : item.interest.write with
    | false =>
      refine Or.inr ⟨fun _ => heq, ?_⟩
      show (if item.interest.write = true then _ else _) = _
      rw [hwrite, if_neg Bool.false_ne_true]
    | true =>
      have hcall : (Except.ok item >>= fun item => if item.interest.write = true then
          dispatch m i .write item data (.iteration (i + 1) n true) []
          else .ok ({ m with stack := [.iteration (i + 1) n false] }, none)) =
          dispatch m i .write item data (.iteration (i + 1) n true) [] := by
        show (if item.interest.write = true then _ else _) = _
        rw [if_pos hwrite]
      rw [hcall]
      refine Or.inl ⟨item, hset, heq, ⟨hget, ?_⟩, hwrite, dispatch_cases m i .write item data _⟩
      -- a blanked entry has no interest left
      by_contra hunused
      have hblank := h.views.blank i item hget (Bool.eq_false_of_not_eq_true hunused)
      rw [hblank] at hwrite
      exact absurd hwrite (by decide)
  next hset => exact Or.inr (Or.inr ⟨fun h => absurd h hset, rfl⟩)

theorem next_notifications {jobs : List BlockingJob} {busy : Bool}
    (h : Live m) (hstack : m.stack = .notifications jobs busy :: rest) :
    rest = [] ∧
      ((jobs = [] ∧ next m = .ok ({ m with
          sel := { m.sel with resolutionJobs := [] }, stack := [] }, some .success)) ∨
        ∃ j jobs', jobs = j :: jobs' ∧
          ((∃ busy', 0 ≤ j.fd ∧ j.fd < m.sel.fdSize ∧
              next m = .ok ({ m with stack := [.notifications jobs' busy'] }, none)) ∨
            ((j.fd < 0 ∨ m.sel.fdSize ≤ j.fd) ∧ next m = .error (.outOfBounds j.fd)))) := by
  have hrest : rest = [] := h.base hstack fun fd size heq => by cases heq
  refine ⟨hrest, ?_⟩
  cases jobs with
  | nil =>
    refine Or.inl ⟨rfl, ?_⟩
    unfold next
    rw [hstack, hrest]
  | cons j jobs =>
    refine Or.inr ⟨j, jobs, rfl, ?_⟩
    have hnext : next m = notify m j jobs [] := by
      unfold next
      rw [hstack, hrest]
    rw [hnext]
    unfold notify
    rcases itemAt_cases m.sel j.fd with ⟨k, item, hfd, hget, hitem⟩ | ⟨hout, hitem⟩
    · have hlt := (List.getElem?_eq_some_iff.mp hget).1
      rw [hitem, hfd]
      exact Or.inl ⟨_, Int.natCast_nonneg k, Int.ofNat_lt.mpr hlt, rfl⟩
    · rw [hitem]
      exact Or.inr ⟨hout, rfl⟩

end Next

section Steps

theorem live_register (h : Live m)
    (hcall : register m fd handler interest data alloc = .ok (m', status)) : Live m' := by
  rcases register_cases h.views fd handler interest data alloc with
    ⟨status, -, heq, -⟩ | ⟨-, -, -, heq⟩ |
      ⟨i, s, old, -, hlt, -, hhandler, hgrown, hold, -, heq⟩ <;> rw [hcall] at heq
  · cases heq
    exact h
  · cases heq
  · cases heq
    have hsize : m.sel.fdSize ≤ (put s i ⟨i, interest, handler, data, m.issued⟩).fdSize := by
      rw [fdSize_put]
      exact grown_fdSize hgrown
    refine h.congr (by rfl) (by rfl) ?_ hsize
    exact views_put (views_grown hgrown h.views) (List.getElem?_eq_some_iff.mp hold).1 rfl hlt
      hhandler

theorem live_unregister (h : Live m) (hcall : unregister m fd = .ok (m', status)) : Live m' := by
  rcases unregister_cases m fd with ⟨-, heq⟩ | ⟨-, -, heq⟩ | ⟨i, item, rfl, hi⟩
  · rw [hcall] at heq
    cases heq
    exact h
  · rw [hcall] at heq
    cases heq
  · rcases unregister_uses h.views hi with ⟨-, heq⟩ | ⟨-, k, hviews, heq⟩ <;> rw [hcall] at heq
    · cases heq
      exact h.push (f := .closing i m.sel.fdSize) (by rfl) ⟨uses_lt hi, le_rfl⟩ (by rfl) (by rfl)
        (by rfl)
    · cases heq
      exact h.congr (by rfl) (by rfl) hviews (fdSize_remove _ _ _).ge

theorem live_setInterest (h : Live m)
    (hcall : call m (.setInterest fd interest) = .ok (m', status)) : Live m' := by
  rcases setInterest_cases h.views fd interest with ⟨-, heq⟩ | ⟨-, -, heq⟩ |
    ⟨i, item, -, hlt, huses, heq⟩ <;> rw [hcall] at heq
  · cases heq
    exact h
  · cases heq
  · cases heq
    refine h.congr (by rfl) (by rfl) ?_ (fdSize_put _ _ _).ge
    exact views_put h.views (uses_lt huses) (h.views.fd_eq i item huses) hlt
      (h.views.handler_isSome i item huses)

theorem live_select {answer : Pselect} (h : Live m)
    (hcall : select m answer = .ok (m', status)) : Live m' := by
  have hviews : ∀ r w : Finset ℕ, Views { m.sel with slaveR := r, slaveW := w } := fun r w =>
    h.views.congr rfl rfl rfl rfl
  cases answer with
  | ready r w =>
    cases hcall
    exact h.goOn (g := .iteration 0 m.sel.maxFd false) h.views.maxFd_lt (by rfl) (by rfl)
      (hviews _ _) (by rfl)
  | interrupted =>
    cases hcall
    exact h.goOn (g := .notifications m.sel.resolutionJobs false) trivial (by rfl) (by rfl)
      (hviews _ _) (by rfl)
  | badf =>
    cases hcall
    exact h.congr (by rfl) (by rfl) (hviews _ _) (by rfl)
  | failed =>
    cases hcall
    exact h.congr (by rfl) (by rfl) (hviews _ _) (by rfl)

theorem sound_next (h : Live m) (hcall : next m = .ok (m', status)) : Sound m' := by
  cases hstack : m.stack with
  | nil =>
    unfold next at hcall
    rw [hstack] at hcall
    cases hcall
  | cons f rest =>
    have hwithin := h.within f (hstack ▸ List.mem_cons_self)
    cases f with
    | closing i size =>
      rcases next_closing h hstack with ⟨-, heq⟩ | ⟨-, -, heq⟩ | ⟨item, k, -, -, hviews, heq⟩ <;>
        rw [hcall] at heq
      · cases heq
      · cases heq
      · cases heq
        exact Or.inl (h.pop hstack (by rfl) (by rfl) hviews (fdSize_remove _ _ _).ge)
    | destroying i =>
      have hgoOn : Live { m with stack := [.destroying (i + 1)] } := h.destroying (i + 1)
      rcases next_destroying h hstack with ⟨-, ⟨item, -, -, heq⟩ | ⟨item, -, heq⟩ | ⟨-, heq⟩⟩ <;>
        rw [hcall] at heq
      · cases heq
        exact Or.inl hgoOn
      · exact Or.inl (live_unregister hgoOn heq.symm)
      · cases heq
        exact Or.inr ⟨rfl, rfl⟩
    | iteration i n busy =>
      rcases next_iteration h hstack with ⟨-, ⟨-, heq⟩ | ⟨-, item, -, -, heq⟩ |
        ⟨hle, item, -, ⟨-, -, heq | ⟨handler, -, heq⟩⟩ | heq⟩⟩ <;> rw [hcall] at heq
      · cases heq
        exact Or.inl (h.goOn (g := .notifications m.sel.resolutionJobs false) trivial (by rfl)
          (by rfl) h.views (by rfl))
      · cases heq
        exact Or.inl (h.goOn (g := .iteration (i + 1) n false) hwithin (by rfl) (by rfl) h.views
          (by rfl))
      · cases heq
      · cases heq
        exact Or.inl (h.goOn (g := .writing i n item.data m.sel.fdSize true)
          ⟨hle, hwithin, le_rfl⟩ (by rfl) (by rfl) h.views (by rfl))
      · cases heq
        exact Or.inl (h.goOn (g := .writing i n item.data m.sel.fdSize false)
          ⟨hle, hwithin, le_rfl⟩ (by rfl) (by rfl) h.views (by rfl))
    | writing i n data size busy =>
      rcases next_writing h hstack with ⟨-, ⟨-, -, heq⟩ |
        ⟨item, -, -, -, -, heq | ⟨handler, -, heq⟩⟩ | ⟨-, heq⟩⟩ <;> rw [hcall] at heq
      · cases heq
      · cases heq
      · cases heq
        exact Or.inl (h.goOn (g := .iteration (i + 1) n true) hwithin.2.1 (by rfl) (by rfl)
          h.views (by rfl))
      · cases heq
        exact Or.inl (h.goOn (g := .iteration (i + 1) n false) hwithin.2.1 (by rfl) (by rfl)
          h.views (by rfl))
    | notifications jobs busy =>
      rcases next_notifications h hstack with ⟨hrest, ⟨-, heq⟩ |
        ⟨j, jobs', -, ⟨busy', -, -, heq⟩ | ⟨-, heq⟩⟩⟩ <;> rw [hcall] at heq
      · cases heq
        exact Or.inl (h.pop hstack (by rfl) hrest.symm (h.views.congr rfl rfl rfl rfl) (by rfl))
      · cases heq
        exact Or.inl (h.goOn (g := .notifications jobs' busy') trivial (by rfl) (by rfl) h.views
          (by rfl))
      · cases heq

/-- Nothing is called of a selector that was destroyed. -/
theorem live_of_enabled (h : Sound m) (hen : Enabled m e) : Live m := by
  rcases h with h | ⟨hdead, hstack⟩
  · exact h
  have hboth : m.alive = true ∨ m.stack ≠ [] := by
    cases e with
    | next => exact Or.inr hen
    | _ => exact Or.inl hen.1
  rcases hboth with halive | hne
  · rw [hdead] at halive
    exact absurd halive Bool.false_ne_true
  · exact absurd hstack hne

theorem sound_step (h : Sound m) (hstep : Step m e m') : Sound m' := by
  obtain ⟨hen, status, hcall⟩ := hstep
  have h := live_of_enabled h hen
  cases e with
  | register fd handler interest data alloc => exact Or.inl (live_register h hcall)
  | unregister fd => exact Or.inl (live_unregister h hcall)
  | setInterest fd i => exact Or.inl (live_setInterest h hcall)
  | setInterestKey fd i =>
    rw [setInterestKey_eq] at hcall
    exact Or.inl (live_setInterest h hcall)
  | notifyBlockDone fd data alloc =>
    have hcall : (if alloc then _ else _) = _ := hcall
    split at hcall
    · cases hcall
      exact Or.inl (h.congr (by rfl) (by rfl) (h.views.congr rfl rfl rfl rfl) (by rfl))
    · cases hcall
      exact Or.inl h
  | select answer => exact Or.inl (live_select h hcall)
  | destroy =>
    cases hcall
    exact Or.inl (h.destroying 0)
  | next => exact sound_next h hcall

theorem selectorNew_some {initialElements : ℕ}
    (hnew : selectorNew initialElements alloc = some s) :
    s = { selectorZero with fds := List.replicate (nextCapacity initialElements) itemInit } := by
  have hensure : ensureCapacity alloc selectorZero initialElements = (.success, s) := by
    unfold selectorNew at hnew
    split at hnew
    next heq =>
      cases hnew
      exact heq
    next => cases hnew
  have hfirst : ¬ initialElements < selectorZero.fdSize := Nat.not_lt_zero initialElements
  unfold ensureCapacity at hensure
  rw [if_neg hfirst] at hensure
  split at hensure
  · cases hensure
  · rw [if_pos (by rfl)] at hensure
    split at hensure
    · cases hensure
      rfl
    · cases hensure

/-- The table of a new selector is blank. -/
theorem new_unused {initialElements : ℕ} {item : Item}
    (hnew : selectorNew initialElements alloc = some s) : ¬ Uses s i item := by
  rintro ⟨hget, hused⟩
  rw [selectorNew_some hnew] at hget
  rw [List.eq_of_mem_replicate (List.mem_of_getElem? hget)] at hused
  exact absurd hused (by decide)

theorem sound_start {initialElements : ℕ} (hnew : selectorNew initialElements alloc = some s) :
    Sound (start s) := by
  have huses : ∀ i item, ¬ Uses s i item := fun i item => new_unused hnew
  obtain ⟨k, rfl⟩ : ∃ k, s = { selectorZero with fds := List.replicate (k + 1) itemInit } :=
    ⟨_, selectorNew_some hnew⟩
  refine Or.inl
    { alive := rfl
      views :=
        { maxFd_lt := by simp [FdSelector.fdSize, selectorZero, start]
          fd_eq := fun i item h => absurd h (huses i item)
          le_maxFd := fun i item h => absurd h (huses i item)
          maxFd_used := Or.inl rfl
          lt_setsize := fun i item h => absurd h (huses i item)
          handler_isSome := fun i item h => absurd h (huses i item)
          read_iff := ?_
          write_iff := ?_
          blank := ?_ }
      within := fun f hf => absurd hf List.not_mem_nil
      nested := fun f hf => absurd hf List.not_mem_nil }
  · intro i
    exact ⟨fun h => absurd h (Finset.notMem_empty i), fun ⟨item, h, _⟩ => absurd h (huses i item)⟩
  · intro i
    exact ⟨fun h => absurd h (Finset.notMem_empty i), fun ⟨item, h, _⟩ => absurd h (huses i item)⟩
  · intro i item hget _
    rw [List.eq_of_mem_replicate (List.mem_of_getElem? hget)]
    rfl

/-- Whatever is called, and whatever comes in between. -/
theorem sound_run {initialElements : ℕ} (hnew : selectorNew initialElements alloc = some s)
    (hrun : Run Step (start s) es m) : Sound m :=
  hrun.invariant (sound_start hnew) fun h hstep => sound_step h hstep

end Steps

section Bounds

/-- An access to an entry that the table does not have, or no longer has. -/
def Strays : Halt → Prop
  | .outOfBounds _ => True
  | .dangling => True
  | _ => False

/-- What a call owes: it stays inside the table; a registration fits, or the table
is as before; the other calls reject what is beyond the table. -/
def Bounded (m : Machine) (e : Event) : Prop :=
  (∀ halt, Strays halt → call m e ≠ .error halt) ∧
    match e with
    | .register fd _ _ _ _ => ∃ m' status, call m e = .ok (m', some status) ∧
        (status = .success → 0 ≤ fd ∧ fd < m'.sel.fdSize) ∧
        (status ≠ .success → m'.sel = m.sel)
    | .unregister fd | .setInterest fd _ | .setInterestKey fd _ =>
        m.sel.fdSize ≤ fd → ∃ status, status ≠ .success ∧ call m e = .ok (m, some status)
    | _ => True

/-- What a function of the selector finds in the table when it goes on: the entry that
it has taken and reads again, or the one that the next job names. -/
def Finds (s : FdSelector) : Frame → Prop
  | .closing _ size => s.fdSize = size
  | .writing i _ _ size _ => i ∈ s.slaveW → s.fdSize = size
  | .notifications (j :: _) _ => 0 ≤ j.fd ∧ j.fd < s.fdSize
  | _ => True

instance (s : FdSelector) : (f : Frame) → Decidable (Finds s f)
  | .closing _ _ => inferInstanceAs (Decidable (_ = _))
  | .writing _ _ _ _ _ => inferInstanceAs (Decidable (_ → _))
  | .notifications (_ :: _) _ => inferInstanceAs (Decidable (_ ∧ _))
  | .notifications [] _ => isTrue trivial
  | .destroying _ => isTrue trivial
  | .iteration _ _ _ => isTrue trivial

/-- A valid descriptor to register is not the first one beyond the table; one to
unregister or change, and one that a notification names, is in the table; and the
table has not grown while a function that reads its entry again waited for a callback. -/
def InTable (m : Machine) : Event → Prop
  | .register fd handler _ _ _ => invalidFd fd = false → handler.isSome → fd ≠ m.sel.fdSize
  | .unregister fd | .setInterest fd _ | .setInterestKey fd _ =>
    invalidFd fd = false → fd < m.sel.fdSize
  | .next => ∀ f ∈ m.stack.head?, Finds m.sel f
  | _ => True

instance (m : Machine) : (e : Event) → Decidable (InTable m e)
  | .register _ _ _ _ _ => inferInstanceAs (Decidable (_ → _ → _))
  | .unregister _ => inferInstanceAs (Decidable (_ → _))
  | .setInterest _ _ => inferInstanceAs (Decidable (_ → _))
  | .setInterestKey _ _ => inferInstanceAs (Decidable (_ → _))
  | .next => inferInstanceAs (Decidable (∀ f ∈ m.stack.head?, _))
  | .notifyBlockDone _ _ _ => isTrue trivial
  | .select _ => isTrue trivial
  | .destroy => isTrue trivial

/-- A call that returns has met no such access. -/
private theorem not_strays_of_ok {r : Machine × Option SelectorStatus} (heq : call m e = .ok r)
    (halt : Halt) (_ : Strays halt) : call m e ≠ .error halt := by
  rw [heq]
  exact fun h => nomatch h

theorem bounded_register (h : Live m) (fd : ℤ) (handler : Option FdHandler)
    (interest : FdInterest) (data : ℕ) (alloc : Bool) :
    Bounded m (.register fd handler interest data alloc) ↔
      InTable m (.register fd handler interest data alloc) := by
  rcases register_cases h.views fd handler interest data alloc with
    ⟨status, hne, heq, hroom⟩ | ⟨hvalid, hhandler, hfd, heq⟩ |
      ⟨i, s, old, rfl, hlt, hsize, hhandler, hgrown, hold, -, heq⟩
  · refine iff_of_true ⟨?_, m, status, heq, fun hs => absurd hs hne, fun _ => rfl⟩ hroom
    exact not_strays_of_ok heq
  · refine iff_of_false ?_ fun hin => hin hvalid hhandler hfd
    intro hbounded
    exact hbounded.1 (.outOfBounds fd) trivial heq
  · refine iff_of_true ⟨?_, _, _, heq, ?_, fun hs => absurd rfl hs⟩ ?_
    · exact not_strays_of_ok heq
    · intro _
      have hi := (List.getElem?_eq_some_iff.mp hold).1
      refine ⟨Int.natCast_nonneg i, Int.ofNat_lt.mpr ?_⟩
      show i < (put s i _).fdSize
      rw [fdSize_put]
      exact hi
    · intro _ _ hfd
      have hfd : i = m.sel.fdSize := by exact_mod_cast hfd
      omega

/-- A call that is rejected, that reads beyond the table, or that finds its entry. -/
private theorem bounded_iff
    (hcases : ((invalidFd fd = false → fd < m.sel.fdSize) ∧ call m e = .ok (m, some .iargs)) ∨
      (invalidFd fd = false ∧ m.sel.fdSize ≤ fd ∧ call m e = .error (.outOfBounds fd)) ∨
      (fd < m.sel.fdSize ∧ ∃ r, call m e = .ok r)) :
    ((∀ halt, Strays halt → call m e ≠ .error halt) ∧
        (m.sel.fdSize ≤ fd → ∃ status, status ≠ .success ∧ call m e = .ok (m, some status))) ↔
      (invalidFd fd = false → fd < m.sel.fdSize) := by
  rcases hcases with ⟨hin, heq⟩ | ⟨hvalid, hfd, heq⟩ | ⟨hlt, r, heq⟩
  · exact iff_of_true ⟨not_strays_of_ok heq, fun _ => ⟨.iargs, by simp, heq⟩⟩ hin
  · refine iff_of_false (fun hbounded => hbounded.1 (.outOfBounds fd) trivial heq) ?_
    intro hin
    exact absurd (hin hvalid) (not_lt.mpr hfd)
  · exact iff_of_true ⟨not_strays_of_ok heq, fun hle => absurd hlt (not_lt.mpr hle)⟩ fun _ => hlt

theorem bounded_unregister (h : Live m) (fd : ℤ) :
    Bounded m (.unregister fd) ↔ InTable m (.unregister fd) := by
  apply bounded_iff
  rcases unregister_cases m fd with hin | hout | ⟨i, item, rfl, hi⟩
  · exact Or.inl hin
  · exact Or.inr (Or.inl hout)
  · refine Or.inr (Or.inr ⟨Int.ofNat_lt.mpr (uses_lt hi), ?_⟩)
    rcases unregister_uses h.views hi with ⟨-, heq⟩ | ⟨-, k, -, heq⟩
    · exact ⟨_, heq⟩
    · exact ⟨_, heq⟩

theorem bounded_setInterest (h : Live m) (fd : ℤ) (interest : FdInterest) :
    Bounded m (.setInterest fd interest) ↔ InTable m (.setInterest fd interest) := by
  apply bounded_iff
  rcases setInterest_cases h.views fd interest with hin | hout | ⟨i, item, rfl, -, huses, heq⟩
  · exact Or.inl hin
  · exact Or.inr (Or.inl hout)
  · exact Or.inr (Or.inr ⟨Int.ofNat_lt.mpr (uses_lt huses), _, heq⟩)

theorem bounded_setInterestKey (h : Live m) (fd : ℤ) (interest : FdInterest) :
    Bounded m (.setInterestKey fd interest) ↔ InTable m (.setInterestKey fd interest) := by
  have hkey : Bounded m (.setInterestKey fd interest) ↔ Bounded m (.setInterest fd interest) := by
    unfold Bounded
    rw [setInterestKey_eq]
  rw [hkey]
  exact bounded_setInterest h fd interest

/-- The functions of the selector go on inside the table, but for the entries that a
callback has made them lose and the descriptors of the jobs. -/
theorem bounded_next (h : Live m) : Bounded m .next ↔ InTable m .next := by
  have hreturns : ∀ r, next m = .ok r → Bounded m .next :=
    fun r heq => ⟨not_strays_of_ok heq, trivial⟩
  have hfails : ∀ halt, next m = .error halt → (Bounded m .next ↔ ¬ Strays halt) := by
    intro halt heq
    refine ⟨fun hb hstrays => hb.1 halt hstrays heq, fun hnot => ⟨?_, trivial⟩⟩
    intro halt' hstrays hcall
    cases heq.symm.trans hcall
    exact hnot hstrays
  cases hstack : m.stack with
  | nil =>
    have hnext : next m = .error .unreal := by
      unfold next
      rw [hstack]
    refine iff_of_true ((hfails _ hnext).mpr not_false) fun f hf => ?_
    rw [hstack] at hf
    cases hf
  | cons f rest =>
    have hin : InTable m .next ↔ Finds m.sel f := by
      show (∀ f ∈ m.stack.head?, Finds m.sel f) ↔ Finds m.sel f
      rw [hstack]
      exact ⟨fun h => h f rfl, fun h g hg => Option.some.inj hg ▸ h⟩
    rw [hin]
    cases f with
    | closing i size =>
      rcases next_closing h hstack with ⟨hne, heq⟩ | ⟨hsize, -, heq⟩ | ⟨item, k, hsize, -, -, heq⟩
      · exact iff_of_false (fun hb => (hfails _ heq).mp hb trivial) hne
      · exact iff_of_true ((hfails _ heq).mpr not_false) hsize
      · exact iff_of_true (hreturns _ heq) hsize
    | destroying i =>
      refine iff_of_true ?_ trivial
      rcases next_destroying h hstack with ⟨-, ⟨item, -, -, heq⟩ | ⟨item, huses, heq⟩ | ⟨-, heq⟩⟩
      · exact hreturns _ heq
      · rcases unregister_uses (m := { m with stack := [.destroying (i + 1)] }) h.views huses with
          ⟨-, heq'⟩ | ⟨-, k, -, heq'⟩ <;> exact hreturns _ (heq.trans heq')
      · exact hreturns _ heq
    | iteration i n busy =>
      refine iff_of_true ?_ trivial
      rcases next_iteration h hstack with ⟨-, ⟨-, heq⟩ | ⟨-, item, -, -, heq⟩ |
        ⟨-, item, -, ⟨-, -, heq | ⟨handler, -, heq⟩⟩ | heq⟩⟩
      · exact hreturns _ heq
      · exact hreturns _ heq
      · exact (hfails _ heq).mpr not_false
      · exact hreturns _ heq
      · exact hreturns _ heq
    | writing i n data size busy =>
      rcases next_writing h hstack with ⟨-, ⟨hset, hne, heq⟩ |
        ⟨item, -, hsize, -, -, heq | ⟨handler, -, heq⟩⟩ | ⟨hsize, heq⟩⟩
      · exact iff_of_false (fun hb => (hfails _ heq).mp hb trivial) fun hfinds => hne (hfinds hset)
      · exact iff_of_true ((hfails _ heq).mpr not_false) fun _ => hsize
      · exact iff_of_true (hreturns _ heq) fun _ => hsize
      · exact iff_of_true (hreturns _ heq) hsize
    | notifications jobs busy =>
      rcases next_notifications h hstack with ⟨-, ⟨rfl, heq⟩ |
        ⟨j, jobs', rfl, ⟨busy', hpos, hlt, heq⟩ | ⟨hout, heq⟩⟩⟩
      · exact iff_of_true (hreturns _ heq) trivial
      · exact iff_of_true (hreturns _ heq) ⟨hpos, hlt⟩
      · refine iff_of_false (fun hb => (hfails _ heq).mp hb trivial) ?_
        rintro ⟨hpos, hlt⟩
        omega

/-- In every state that a new selector can reach, the next call meets its bounds
exactly when the descriptor it works on is in the table (for a registration: is not the
one next to its end), and the entry it has taken is still there. -/
theorem table_bounds {initialElements : ℕ} (hnew : selectorNew initialElements alloc = some s)
    (hrun : Run Step (start s) es m) (hen : Enabled m e) : Bounded m e ↔ InTable m e := by
  have h : Live m := live_of_enabled (sound_run hnew hrun) hen
  cases e with
  | register fd handler interest data alloc =>
    exact bounded_register h fd handler interest data alloc
  | unregister fd => exact bounded_unregister h fd
  | setInterest fd interest => exact bounded_setInterest h fd interest
  | setInterestKey fd interest => exact bounded_setInterestKey h fd interest
  | notifyBlockDone fd data alloc =>
    refine iff_of_true ⟨?_, trivial⟩ trivial
    intro halt _ hcall
    cases alloc <;> cases hcall
  | select answer =>
    refine iff_of_true ⟨?_, trivial⟩ trivial
    intro halt _ hcall
    cases answer <;> cases hcall
  | destroy =>
    refine iff_of_true ⟨?_, trivial⟩ trivial
    intro halt _ hcall
    cases hcall
  | next => exact bounded_next h

/-- The handler table of a socket that can be read and closed. -/
def readHandler : FdHandler where
  handleRead := true
  handleWrite := false
  handleBlockDone := false
  handleClose := true

/-- selector_new(0), where entry 1 was registered: its interest can be changed. -/
theorem table_bounds_one : ∃ s m, selectorNew 0 true = some s ∧
    Run Step (start s) [.register 1 (some readHandler) OP_READ 7 true] m ∧
    Bounded m (.setInterest 1 OP_NOOP) := by
  have hrun : Run Step (start { selectorZero with fds := [itemInit, itemInit] })
      [.register 1 (some readHandler) OP_READ 7 true] _ := replay_run rfl
  have hnew : selectorNew 0 true = some { selectorZero with fds := [itemInit, itemInit] } := rfl
  refine ⟨_, _, hnew, hrun, (table_bounds hnew hrun ?_).mpr ?_⟩
  · decide
  · intro _
    decide

/-- The same selector has two entries: descriptor 2 is registered beyond them, a
descriptor that was never registered is looked up there, and so is that of a job. And
when handle_close of entry 1 registers descriptor 5, the table grows, and
selector_unregister_fd goes on with the entry that it took from the old one. -/
theorem beyond_table : ∃ s m m', selectorNew 0 true = some s ∧ s.fdSize = 2 ∧
    call (start s) (.register 2 (some readHandler) OP_READ 7 true) = .error (.outOfBounds 2) ∧
    call (start s) (.unregister 5) = .error (.outOfBounds 5) ∧
    call (start s) (.setInterest 5 OP_NOOP) = .error (.outOfBounds 5) ∧
    Run Step (start s) [.notifyBlockDone 5 7 true, .select .interrupted] m ∧
    call m .next = .error (.outOfBounds 5) ∧ ¬ Bounded m .next ∧
    Run Step (start s) [.register 1 (some readHandler) OP_READ 7 true, .unregister 1,
      .register 5 (some readHandler) OP_READ 8 true] m' ∧
    call m' .next = .error .dangling ∧ ¬ Bounded m' .next := by
  have hrun : Run Step (start { selectorZero with fds := [itemInit, itemInit] })
      [.notifyBlockDone 5 7 true, .select .interrupted] _ := replay_run rfl
  have hgrown : Run Step (start { selectorZero with fds := [itemInit, itemInit] })
      [.register 1 (some readHandler) OP_READ 7 true, .unregister 1,
        .register 5 (some readHandler) OP_READ 8 true] _ := replay_run rfl
  refine ⟨_, _, _, rfl, rfl, rfl, rfl, rfl, hrun, rfl, ?_, hgrown, rfl, ?_⟩
  · exact fun hbounded => hbounded.1 (.outOfBounds 5) trivial rfl
  · exact fun hbounded => hbounded.1 .dangling trivial rfl

end Bounds

end SocksProxy.SelectorBounds
