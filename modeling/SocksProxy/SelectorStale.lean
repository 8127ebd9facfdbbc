import SocksProxy.Lifetime
import SocksProxy.SelectorBounds

/-!
Which registration handle_iteration calls. It takes the readiness of a descriptor
from the sets that pselect has left, and the registration from the table as it is
when the loop gets there; a handler of the same pass may have closed the one and
registered another under its number.
-/
namespace SocksProxy.SelectorStale

open Runs Selector SelectorMachine SelectorTable SelectorBounds
open ConnState (FdInterest OP_NOOP OP_READ OP_WRITE Conn)
open Connection (originWrite)
open Kernel Connect

variable {m m' : Machine} {s s' : FdSelector} {f : Frame} {rest : List Frame} {item item' : Item}
  {i j k n : ℕ} {fd : ℤ} {handler : Option FdHandler} {interest : FdInterest} {data : ℕ}
  {alloc : Bool} {e : Event} {es : List Event} {status : Option SelectorStatus} {op : Op}

section Pending

/-- A call to a registration that was in the table at pselect, for an interest it
had then, so that the readiness is its own. -/
def Fresh (before : List Item) (d : Dispatch) : Prop :=
  ∃ item, before[d.fd]? = some item ∧ item.used = true ∧ item.serial = d.serial ∧
    item.handler = some d.handler ∧ item.data = d.data ∧ wants item.interest d.op = true

/-- The bits that the loop has still to look at. -/
def Pending : Frame → Op → ℕ → Prop
  | .iteration i n _, _, fd => i ≤ fd ∧ fd ≤ n
  | .writing i n _ _ _, op, fd => i < fd ∧ fd ≤ n ∨ fd = i ∧ op = .write
  | _, _, _ => False

/-- The bit of `op` for `fd` is set and the pass will come to it. -/
def Awaits (m : Machine) (op : Op) (fd : ℕ) : Prop :=
  fd ∈ slave m.sel op ∧ ∃ f ∈ m.stack.getLast?, Pending f op fd

/-- The registration needs a larger table, and gets it. -/
def Grows (m : Machine) (fd : ℤ) (handler : Option FdHandler) (alloc : Bool) : Prop :=
  invalidFd fd = false ∧ handler.isSome ∧ m.sel.fdSize < fd ∧ alloc = true

/-- The function reads the entry again that it has taken. -/
def ReadsAgain (s : FdSelector) : Frame → Prop
  | .closing _ _ => True
  | .writing i _ _ _ _ => i ∈ s.slaveW
  | _ => False

/-- A callback does not make the table grow under an entry that is read again, and one
of the pass does not give a new registration an interest for which the pass will find
the bit of its descriptor set. -/
def Prudent (m : Machine) : Event → Prop
  | .register fd handler interest _ alloc =>
      (Grows m fd handler alloc → ∀ f ∈ m.stack, ¬ ReadsAgain m.sel f) ∧
      ∀ (i : ℕ) (op : Op), fd = i → (∀ item, ¬ Uses m.sel i item) →
        Awaits m op i → wants interest op = false
  | .setInterest fd interest | .setInterestKey fd interest => ∀ (i : ℕ) (item : Item) (op : Op),
      fd = i → Uses m.sel i item → m.mark ≤ item.serial → Awaits m op i →
      wants interest op = false
  | _ => True

/-- `item` is what a registration known at pselect has become. -/
def Known (before : List Item) (fd : ℕ) (item : Item) : Prop :=
  ∃ old, before[fd]? = some old ∧ old.used = true ∧ old.serial = item.serial ∧
    old.handler = item.handler ∧ old.data = item.data

/-- The registrations older than the pass are the ones that pselect saw; the bits
still to be looked at are theirs, and so is what those bits can call. -/
structure Steady (m : Machine) : Prop where
  serial_lt : ∀ i item, Uses m.sel i item → item.serial < m.issued
  mark_le : m.mark ≤ m.issued
  known : ∀ i item, Uses m.sel i item → item.serial < m.mark → Known m.before i item
  bits : ∀ op i, Awaits m op i →
    ∃ old, m.before[i]? = some old ∧ old.used = true ∧ wants old.interest op = true
  armed : ∀ op i item, Awaits m op i → Uses m.sel i item → wants item.interest op = true →
    item.serial < m.mark
  key : ∀ i n data size busy, m.stack.getLast? = some (.writing i n data size busy) →
    ∀ item, Uses m.sel i item → item.serial < m.mark → item.data = data

theorem Known.congr (h : Known m.before i item) (hserial : item'.serial = item.serial)
    (hhandler : item'.handler = item.handler) (hdata : item'.data = item.data) :
    Known m.before i item' := by
  obtain ⟨old, hget, hused, hs, hh, hd⟩ := h
  exact ⟨old, hget, hused, hs.trans hserial.symm, hh.trans hhandler.symm, hd.trans hdata.symm⟩

/-- Steps that put nothing into the table, and nothing in the way of the loop. -/
theorem Steady.shrink (h : Steady m) (huses : ∀ i item, Uses m'.sel i item → Uses m.sel i item)
    (hissued : m'.issued = m.issued) (hmark : m'.mark = m.mark) (hbefore : m'.before = m.before)
    (hawaits : ∀ op i, Awaits m' op i → Awaits m op i)
    (hkey : ∀ i n data size busy, m'.stack.getLast? = some (.writing i n data size busy) →
      ∀ item, Uses m.sel i item → item.serial < m.mark → item.data = data) : Steady m' where
  serial_lt := by
    intro i item hi
    rw [hissued]
    exact h.serial_lt i item (huses i item hi)
  mark_le := by
    rw [hissued, hmark]
    exact h.mark_le
  known := by
    intro i item hi hlt
    rw [hmark] at hlt
    rw [hbefore]
    exact h.known i item (huses i item hi) hlt
  bits := by
    intro op i hop
    rw [hbefore]
    exact h.bits op i (hawaits op i hop)
  armed := by
    intro op i item hop hi hw
    rw [hmark]
    exact h.armed op i item (hawaits op i hop) (huses i item hi) hw
  key := by
    intro i n data size busy hlast item hi hlt
    rw [hmark] at hlt
    exact hkey i n data size busy hlast item (huses i item hi) hlt

/-- The same, where the stack keeps its bottom frame. -/
theorem Steady.keep (h : Steady m) (huses : ∀ i item, Uses m'.sel i item → Uses m.sel i item)
    (hissued : m'.issued = m.issued) (hmark : m'.mark = m.mark) (hbefore : m'.before = m.before)
    (hslave : ∀ op, slave m'.sel op = slave m.sel op)
    (hlast : ∀ f, m'.stack.getLast? = some f → m.stack.getLast? = some f ∨
      ∀ op i, ¬ Pending f op i) : Steady m' := by
  apply h.shrink huses hissued hmark hbefore
  · rintro op i ⟨hmem, f, hf, hp⟩
    rw [hslave] at hmem
    exact ⟨hmem, f, (hlast f hf).resolve_right fun hnot => hnot op i hp, hp⟩
  · intro i n data size busy hf
    rcases hlast _ hf with hf | hnot
    · exact h.key i n data size busy hf
    · exact absurd (Or.inr ⟨rfl, rfl⟩) (hnot .write i)

/-- The same, where no pass is under way any more. -/
theorem Steady.idle (h : Steady m) (huses : ∀ i item, Uses m'.sel i item → Uses m.sel i item)
    (hissued : m'.issued = m.issued) (hmark : m'.mark = m.mark) (hbefore : m'.before = m.before)
    (hlast : ∀ f, m'.stack.getLast? = some f → ∀ op i, ¬ Pending f op i) : Steady m' := by
  apply h.shrink huses hissued hmark hbefore
  · rintro op i ⟨-, f, hf, hp⟩
    exact absurd hp (hlast f hf op i)
  · intro i n data size busy hf
    exact absurd (Or.inr ⟨rfl, rfl⟩) (hlast _ hf .write i)

/-- The loop goes on, from frame `f` to frame `g`. -/
theorem Steady.goOn {g : Frame} (h : Steady m) (hlast : m.stack.getLast? = some f)
    (hsel : m'.sel = m.sel) (hstack : m'.stack = [g])
    (hissued : m'.issued = m.issued) (hmark : m'.mark = m.mark) (hbefore : m'.before = m.before)
    (hpending : ∀ op i, Pending g op i → Pending f op i)
    (hkey : ∀ i n data size busy, g = .writing i n data size busy →
      ∀ item, Uses m.sel i item → item.data = data) : Steady m' := by
  apply h.shrink _ hissued hmark hbefore
  · rintro op i ⟨hmem, f₂, hf, hp⟩
    rw [hstack] at hf
    rw [hsel] at hmem
    obtain rfl : g = f₂ := Option.some.inj hf
    exact ⟨hmem, f, hlast, hpending op i hp⟩
  · intro i n data size busy hf item hi _
    rw [hstack] at hf
    exact hkey i n data size busy (Option.some.inj hf) item hi
  · intro i item hi
    rw [hsel] at hi
    exact hi

end Pending

section Steps

theorem awaits_of_last (hlast : m'.stack.getLast? = m.stack.getLast?)
    (hslave : ∀ op, slave m'.sel op = slave m.sel op) (h : Awaits m' op i) : Awaits m op i := by
  obtain ⟨hmem, f, hf, hp⟩ := h
  rw [hslave] at hmem
  rw [hlast] at hf
  exact ⟨hmem, f, hf, hp⟩

/-- A registration, of an entry that is not awaited for what it wants. -/
theorem steady_registered (h : Steady m) (hgrown : Grown m.sel s)
    (hold : s.fds[i]? = some item)
    (hprudent : ∀ op, Awaits m op i → wants interest op = false) :
    Steady (registered m s i handler interest data) := by
  have hnew : (⟨i, interest, handler, data, m.issued⟩ : Item).used = true := used_of_fd rfl
  have huses : ∀ j new, Uses (registered m s i handler interest data).sel j new →
      (j = i ∧ new = ⟨i, interest, handler, data, m.issued⟩) ∨ Uses m.sel j new := by
    intro j new hj
    rcases (uses_put (List.getElem?_eq_some_iff.mp hold).1 hnew).mp hj with hj | ⟨-, hj⟩
    · exact Or.inl hj
    · exact Or.inr ((uses_grown hgrown).mp hj)
  have hawaits : ∀ op j, Awaits (registered m s i handler interest data) op j → Awaits m op j :=
    fun op j => awaits_of_last (by rfl) (by
      obtain ⟨k, rfl⟩ := hgrown
      intro op
      cases op <;> rfl)
  exact
    { serial_lt := by
        intro j new hj
        show new.serial < m.issued + 1
        rcases huses j new hj with ⟨-, rfl⟩ | hj
        · exact Nat.lt_succ_self _
        · exact Nat.lt_succ_of_lt (h.serial_lt j new hj)
      mark_le := Nat.le_succ_of_le h.mark_le
      known := by
        intro j new hj hlt
        rcases huses j new hj with ⟨-, rfl⟩ | hj
        · exact absurd h.mark_le (not_le.mpr hlt)
        · exact h.known j new hj hlt
      bits := fun op j hop => h.bits op j (hawaits op j hop)
      armed := by
        intro op j new hop hj hw
        rcases huses j new hj with ⟨rfl, rfl⟩ | hj
        · rw [hprudent op (hawaits op j hop)] at hw
          exact absurd hw Bool.false_ne_true
        · exact h.armed op j new (hawaits op j hop) hj hw
      key := by
        intro j n data' size busy hlast new hj hlt
        rcases huses j new hj with ⟨-, rfl⟩ | hj
        · exact absurd h.mark_le (not_le.mpr hlt)
        · exact h.key j n data' size busy hlast new hj hlt }

/-- An entry keeps its registration under a new interest. -/
theorem steady_put (h : Steady m) (hi : Uses m.sel i item)
    (hprudent : ∀ op, m.mark ≤ item.serial → Awaits m op i → wants interest op = false) :
    Steady { m with sel := put m.sel i { item with interest := interest } } := by
  have hnew : ({ item with interest := interest } : Item).used = true := hi.2
  have huses : ∀ j new, Uses (put m.sel i { item with interest := interest }) j new →
      ∃ old, Uses m.sel j old ∧ old.serial = new.serial ∧ old.handler = new.handler ∧
        old.data = new.data ∧ (old.interest = new.interest ∨
          j = i ∧ old = item ∧ new.interest = interest) := by
    intro j new hj
    rcases (uses_put (uses_lt hi) hnew).mp hj with ⟨rfl, rfl⟩ | ⟨-, hj⟩
    · exact ⟨item, hi, rfl, rfl, rfl, Or.inr ⟨rfl, rfl, rfl⟩⟩
    · exact ⟨new, hj, rfl, rfl, rfl, Or.inl rfl⟩
  have hawaits : ∀ op j,
      Awaits { m with sel := put m.sel i { item with interest := interest } } op j →
        Awaits m op j := fun op j => awaits_of_last (by rfl) (by intro op; cases op <;> rfl)
  exact
    { serial_lt := by
        intro j new hj
        obtain ⟨old, hj, hs, -⟩ := huses j new hj
        rw [← hs]
        exact h.serial_lt j old hj
      mark_le := h.mark_le
      known := by
        intro j new hj hlt
        obtain ⟨old, hj, hs, hh, hd, -⟩ := huses j new hj
        rw [← hs] at hlt
        exact (h.known j old hj hlt).congr hs.symm hh.symm hd.symm
      bits := fun op j hop => h.bits op j (hawaits op j hop)
      armed := by
        intro op j new hop hj hw
        have hop := hawaits op j hop
        obtain ⟨old, hj, hs, -, -, hsame | ⟨rfl, rfl, hwant⟩⟩ := huses j new hj
        · rw [← hs]
          rw [← hsame] at hw
          exact h.armed op j old hop hj hw
        · rw [← hs]
          by_contra hge
          rw [hwant, hprudent op (not_lt.mp hge) hop] at hw
          exact absurd hw Bool.false_ne_true
      key := by
        intro j n data size busy hlast new hj hlt
        obtain ⟨old, hj, hs, -, hd, -⟩ := huses j new hj
        rw [← hs] at hlt
        rw [← hd]
        exact h.key j n data size busy hlast old hj hlt }

theorem steady_register (hlive : Live m) (h : Steady m)
    (hprudent : Prudent m (.register fd handler interest data alloc))
    (hcall : register m fd handler interest data alloc = .ok (m', status)) : Steady m' := by
  rcases register_cases hlive.views fd handler interest data alloc with
    ⟨status, -, heq, -⟩ | ⟨-, -, -, heq⟩ |
      ⟨i, s, old, rfl, -, -, -, hgrown, hold, hunused, heq⟩ <;> rw [hcall] at heq
  · cases heq
    exact h
  · cases heq
  · cases heq
    refine steady_registered h hgrown hold fun op hop => hprudent.2 i op rfl ?_ hop
    intro new hi
    have hi := (uses_grown hgrown).mpr hi
    rw [Option.some.inj (hold.symm.trans hi.1), hi.2] at hunused
    exact absurd hunused (by simp)

/-- A frame on top of the stack leaves its bottom, or is alone. -/
theorem getLast?_cons (f : Frame) (stack : List Frame) :
    (f :: stack).getLast? = stack.getLast? ∨ (stack = [] ∧ (f :: stack).getLast? = some f) := by
  cases stack with
  | nil => exact Or.inr ⟨rfl, rfl⟩
  | cons g stack => exact Or.inl (List.getLast?_cons_cons)

theorem steady_unregister (hlive : Live m) (h : Steady m)
    (hcall : unregister m fd = .ok (m', status)) : Steady m' := by
  rcases unregister_cases m fd with ⟨-, heq⟩ | ⟨-, -, heq⟩ | ⟨i, item, rfl, hi⟩
  · rw [hcall] at heq
    cases heq
    exact h
  · rw [hcall] at heq
    cases heq
  · rcases unregister_uses hlive.views hi with ⟨-, heq⟩ | ⟨-, k, -, heq⟩ <;> rw [hcall] at heq
    · cases heq
      refine h.keep (fun j new hj => hj) (by rfl) (by rfl) (by rfl) (fun op => by rfl) ?_
      intro f hf
      have hf : (Frame.closing i m.sel.fdSize :: m.stack).getLast? = some f := hf
      rcases getLast?_cons (.closing i m.sel.fdSize) m.stack with heq | ⟨-, heq⟩ <;> rw [heq] at hf
      · exact Or.inl hf
      · cases hf
        exact Or.inr fun op i => not_false
    · cases heq
      exact h.keep (fun j new hj => (uses_remove.mp hj).2) (by rfl) (by rfl) (by rfl)
        (fun op => by cases op <;> rfl) fun f hf => Or.inl hf

theorem steady_setInterest (hlive : Live m) (h : Steady m)
    (hprudent : Prudent m (.setInterest fd interest))
    (hcall : call m (.setInterest fd interest) = .ok (m', status)) : Steady m' := by
  rcases setInterest_cases hlive.views fd interest with ⟨-, heq⟩ | ⟨-, -, heq⟩ |
    ⟨i, item, rfl, -, hi, heq⟩ <;> rw [hcall] at heq
  · cases heq
    exact h
  · cases heq
  · cases heq
    exact steady_put h hi fun op hge hop => hprudent i item op rfl hi hge hop

/-- pselect leaves bits of registrations that want them. -/
theorem steady_select {answer : Pselect} (hlive : Live m) (h : Steady m)
    (hcall : select m answer = .ok (m', status)) (hstack : m.stack = []) : Steady m' := by
  have hnone : ∀ f, m.stack.getLast? = some f → False := by
    intro f hf
    rw [hstack] at hf
    cases hf
  cases answer with
  | ready r w =>
    cases hcall
    have hmaster : ∀ op fd, Awaits { m with
        sel := { m.sel with slaveR := m.sel.masterR ∩ r, slaveW := m.sel.masterW ∩ w }
        stack := [.iteration 0 m.sel.maxFd false], before := m.sel.fds, mark := m.issued } op fd →
        ∃ item, Uses m.sel fd item ∧ wants item.interest op = true := by
      rintro op fd ⟨hmem, -⟩
      cases op with
      | read => exact (hlive.views.read_iff fd).mp (Finset.mem_inter.mp hmem).1
      | write => exact (hlive.views.write_iff fd).mp (Finset.mem_inter.mp hmem).1
    exact
      { serial_lt := h.serial_lt
        mark_le := le_rfl
        known := fun fd item hfd _ => ⟨item, hfd.1, hfd.2, rfl, rfl, rfl⟩
        bits := by
          intro op fd hop
          obtain ⟨item, hfd, hw⟩ := hmaster op fd hop
          exact ⟨item, hfd.1, hfd.2, hw⟩
        armed := fun op fd item _ hfd _ => h.serial_lt fd item hfd
        key := by
          intro i n data size busy hlast
          cases hlast }
  | interrupted =>
    cases hcall
    refine h.idle (fun i item hi => hi) (by rfl) (by rfl) (by rfl) ?_
    intro f hf op i hp
    cases hf
    exact hp
  | badf =>
    cases hcall
    exact h.idle (fun i item hi => hi) (by rfl) (by rfl) (by rfl)
      fun f hf => absurd (hnone f hf) not_false
  | failed =>
    cases hcall
    exact h.idle (fun i item hi => hi) (by rfl) (by rfl) (by rfl)
      fun f hf => absurd (hnone f hf) not_false

theorem steady_next (hlive : Live m) (h : Steady m) (hcall : next m = .ok (m', status)) :
    Steady m' := by
  cases hstack : m.stack with
  | nil =>
    unfold next at hcall
    rw [hstack] at hcall
    cases hcall
  | cons f rest =>
    cases f with
    | closing i size =>
      rcases next_closing hlive hstack with ⟨-, heq⟩ | ⟨-, -, heq⟩ | ⟨item, k, -, hi, -, heq⟩ <;>
        rw [hcall] at heq
      · cases heq
      · cases heq
      · cases heq
        refine h.keep (fun j new hj => (uses_remove.mp hj).2) (by rfl) (by rfl) (by rfl)
          (fun op => by cases op <;> rfl) ?_
        intro f hf
        have hf : rest.getLast? = some f := hf
        rw [hstack]
        rcases getLast?_cons (.closing i size) rest with heq | ⟨hnil, -⟩
        · exact Or.inl (heq.trans hf)
        · rw [hnil] at hf
          cases hf
    | destroying i =>
      have hgoOn : Steady { m with stack := [.destroying (i + 1)] } := by
        refine h.idle (fun i item hi => hi) (by rfl) (by rfl) (by rfl) ?_
        intro f hf op i hp
        cases hf
        exact hp
      have hlive' := hlive.destroying (i + 1)
      rcases next_destroying hlive hstack with
        ⟨-, ⟨item, -, -, heq⟩ | ⟨item, -, heq⟩ | ⟨-, heq⟩⟩ <;> rw [hcall] at heq
      · cases heq
        exact hgoOn
      · exact steady_unregister hlive' hgoOn heq.symm
      · cases heq
        refine h.idle (fun j new hj => absurd (uses_lt hj) (Nat.not_lt_zero j)) (by rfl) (by rfl)
          (by rfl) ?_
        intro f hf
        cases hf
    | iteration i n busy =>
      obtain ⟨hrest, hcases⟩ := next_iteration hlive hstack
      have hlast : m.stack.getLast? = some (.iteration i n busy) := by
        rw [hstack, hrest]
        rfl
      have hpassed : i ≤ n → ∀ op j, Pending (.iteration (i + 1) n false) op j →
          Pending (.iteration i n busy) op j := fun _ _ _ hp => ⟨by have := hp.1; omega, hp.2⟩
      have hwriting : i ≤ n → ∀ data size busy' op j, Pending (.writing i n data size busy') op j →
          Pending (.iteration i n busy) op j := by
        intro hle data size busy' op j hp
        rcases hp with hp | ⟨rfl, -⟩
        · exact ⟨Nat.le_of_lt hp.1, hp.2⟩
        · exact ⟨le_rfl, hle⟩
      rcases hcases with ⟨-, heq⟩ | ⟨hle, item, -, -, heq⟩ |
        ⟨hle, item, hi, ⟨-, -, heq | ⟨handler, -, heq⟩⟩ | heq⟩ <;> rw [hcall] at heq
      · cases heq
        exact h.goOn hlast (by rfl) (g := .notifications m.sel.resolutionJobs false) (by rfl)
          (by rfl) (by rfl) (by rfl) (fun op j hp => absurd hp not_false) (by simp)
      · cases heq
        exact h.goOn hlast (by rfl) (g := .iteration (i + 1) n false) (by rfl)
          (by rfl) (by rfl) (by rfl) (hpassed hle) (by simp)
      · cases heq
      · cases heq
        refine h.goOn hlast (by rfl) (g := .writing i n item.data m.sel.fdSize true) (by rfl)
          (by rfl) (by rfl) (by rfl) (hwriting hle _ _ _) ?_
        intro _ _ _ _ _ hf item' hi'
        cases hf
        rw [uses_unique hi' hi]
      · cases heq
        refine h.goOn hlast (by rfl) (g := .writing i n item.data m.sel.fdSize false) (by rfl)
          (by rfl) (by rfl) (by rfl) (hwriting hle _ _ _) ?_
        intro _ _ _ _ _ hf item' hi'
        cases hf
        rw [uses_unique hi' hi]
    | writing i n data size busy =>
      obtain ⟨hrest, hcases⟩ := next_writing hlive hstack
      have hlast : m.stack.getLast? = some (.writing i n data size busy) := by
        rw [hstack, hrest]
        rfl
      have hpassed : ∀ busy' op j, Pending (.iteration (i + 1) n busy') op j →
          Pending (.writing i n data size busy) op j := fun _ _ _ hp => Or.inl hp
      rcases hcases with ⟨-, -, heq⟩ | ⟨item, -, -, -, -, heq | ⟨handler, -, heq⟩⟩ | ⟨-, heq⟩ <;>
        rw [hcall] at heq
      · cases heq
      · cases heq
      · cases heq
        exact h.goOn hlast (by rfl) (g := .iteration (i + 1) n true) (by rfl)
          (by rfl) (by rfl) (by rfl) (hpassed true) (by simp)
      · cases heq
        exact h.goOn hlast (by rfl) (g := .iteration (i + 1) n false) (by rfl)
          (by rfl) (by rfl) (by rfl) (hpassed false) (by simp)
    | notifications jobs busy =>
      obtain ⟨hrest, hcases⟩ := next_notifications hlive hstack
      have hlast : m.stack.getLast? = some (.notifications jobs busy) := by
        rw [hstack, hrest]
        rfl
      rcases hcases with ⟨-, heq⟩ | ⟨j, jobs', -, ⟨busy', -, -, heq⟩ | ⟨-, heq⟩⟩ <;>
        rw [hcall] at heq
      · cases heq
        refine h.idle (fun i item hi => hi) (by rfl) (by rfl) (by rfl) ?_
        intro f hf
        cases hf
      · cases heq
        exact h.goOn hlast (by rfl) (g := .notifications jobs' busy') (by rfl)
          (by rfl) (by rfl) (by rfl) (fun op j hp => absurd hp not_false) (by simp)
      · cases heq

theorem steady_step (hlive : Live m) (h : Steady m) (hstep : Guarded Step Prudent m e m') :
    Steady m' := by
  obtain ⟨hprudent, hen, status, hcall⟩ := hstep
  cases e with
  | register fd handler interest data alloc => exact steady_register hlive h hprudent hcall
  | unregister fd => exact steady_unregister hlive h hcall
  | setInterest fd i => exact steady_setInterest hlive h hprudent hcall
  | setInterestKey fd i =>
    rw [setInterestKey_eq] at hcall
    exact steady_setInterest hlive h hprudent hcall
  | notifyBlockDone fd data alloc =>
    have hcall : (if alloc then _ else _) = _ := hcall
    split at hcall
    · cases hcall
      exact h.keep (fun i item hi => hi) (by rfl) (by rfl) (by rfl) (fun op => by cases op <;> rfl)
        fun f hf => Or.inl hf
    · cases hcall
      exact h
  | select answer => exact steady_select hlive h hcall hen.2
  | destroy =>
    cases hcall
    refine h.idle (fun i item hi => hi) (by rfl) (by rfl) (by rfl) ?_
    intro f hf op i hp
    cases hf
    exact hp
  | next => exact steady_next hlive h hcall

theorem steady_start {initialElements : ℕ} (hnew : selectorNew initialElements alloc = some s) :
    Steady (start s) where
  serial_lt := fun i item hi => absurd hi (new_unused hnew)
  mark_le := le_rfl
  known := fun i item hi => absurd hi (new_unused hnew)
  bits := by
    rintro op i ⟨-, f, hf, -⟩
    cases hf
  armed := fun op i item _ hi => absurd hi (new_unused hnew)
  key := by
    intro i n data size busy hlast
    cases hlast

theorem steady_run {initialElements : ℕ} (hnew : selectorNew initialElements alloc = some s)
    (hrun : Run (Guarded Step Prudent) (start s) es m) : Sound m ∧ Steady m := by
  apply hrun.invariant (I := fun m => Sound m ∧ Steady m)
  · exact ⟨sound_start hnew, steady_start hnew⟩
  · rintro a b e ⟨hsound, hsteady⟩ hstep
    exact ⟨sound_step hsound hstep.2,
      steady_step (live_of_enabled hsound hstep.2.1) hsteady hstep⟩

end Steps

section Holding

/-- The entries that are read again are still in the table. -/
def Holding (m : Machine) : Prop :=
  ∀ f ∈ m.stack, ReadsAgain m.sel f → Finds m.sel f

/-- The size of the table stays, and a new function on the stack finds its entry. -/
theorem Holding.keep (h : Holding m) (hsize : m'.sel.fdSize = m.sel.fdSize)
    (hslave : m'.sel.slaveW = m.sel.slaveW)
    (hstack : ∀ f ∈ m'.stack, f ∈ m.stack ∨ (ReadsAgain m'.sel f → Finds m'.sel f)) :
    Holding m' := by
  intro f hf hreads
  rcases hstack f hf with hold | hnew
  · have hfinds := h f hold
    cases f with
    | closing i size => exact hsize.trans (hfinds trivial)
    | writing i n data size busy =>
      intro hset
      rw [hslave] at hset
      exact hsize.trans (hfinds hset hset)
    | destroying i => trivial
    | iteration i n busy => trivial
    | notifications jobs busy => exact absurd hreads not_false
  · exact hnew hreads

/-- The stack has no function that reads an entry again. -/
theorem holding_of_none (h : ∀ f ∈ m.stack, ¬ ReadsAgain m.sel f) : Holding m :=
  fun f hf hreads => absurd hreads (h f hf)

theorem holding_single (hstack : m.stack = [f]) (hf : ¬ ReadsAgain m.sel f) : Holding m := by
  apply holding_of_none
  rw [hstack]
  exact List.forall_mem_singleton.mpr hf

theorem holding_register (hlive : Live m) (h : Holding m)
    (hprudent : Prudent m (.register fd handler interest data alloc))
    (hcall : register m fd handler interest data alloc = .ok (m', status)) : Holding m' := by
  rcases register_cases hlive.views fd handler interest data alloc with
    ⟨status, -, heq, -⟩ | ⟨-, -, -, heq⟩ |
      ⟨i, s, old, rfl, hlt, hsize, hhandler, hgrown, -, -, heq⟩ <;> rw [hcall] at heq
  · cases heq
    exact h
  · cases heq
  · cases heq
    have hslave : s.slaveW = m.sel.slaveW := by
      obtain ⟨k, rfl⟩ := hgrown
      rfl
    rcases hsize with ⟨hsize, -⟩ | ⟨hlarge, halloc⟩
    · refine h.keep ?_ hslave fun f hf => Or.inl hf
      exact (fdSize_put _ _ _).trans hsize
    · have hgrows : Grows m i handler alloc :=
        ⟨valid_of_lt hlt, hhandler, Int.ofNat_lt.mpr hlarge, halloc⟩
      apply holding_of_none
      intro f hf hreads
      apply hprudent.1 hgrows f hf
      cases f with
      | writing j n data' size busy =>
        have hset : j ∈ s.slaveW := hreads
        rw [hslave] at hset
        exact hset
      | closing j size => trivial
      | destroying j => exact hreads
      | iteration j n busy => exact hreads
      | notifications jobs busy => exact hreads

theorem holding_unregister (hlive : Live m) (h : Holding m)
    (hcall : unregister m fd = .ok (m', status)) : Holding m' := by
  rcases unregister_cases m fd with ⟨-, heq⟩ | ⟨-, -, heq⟩ | ⟨i, item, rfl, hi⟩
  · rw [hcall] at heq
    cases heq
    exact h
  · rw [hcall] at heq
    cases heq
  · rcases unregister_uses hlive.views hi with ⟨-, heq⟩ | ⟨-, k, -, heq⟩ <;> rw [hcall] at heq
    · cases heq
      refine h.keep rfl rfl fun f hf => ?_
      rcases List.mem_cons.mp hf with rfl | hf
      · exact Or.inr fun _ => rfl
      · exact Or.inl hf
    · cases heq
      exact h.keep (fdSize_remove _ _ _) rfl fun f hf => Or.inl hf

/-- The function on top goes on; a round that waits for handle_read has just taken
its entry. -/
theorem holding_next (hlive : Live m) (h : Holding m) (hcall : next m = .ok (m', status)) :
    Holding m' := by
  have hone : ∀ g, m'.stack = [g] → (ReadsAgain m'.sel g → Finds m'.sel g) → Holding m' := by
    intro g hstack hg f hf
    rw [hstack, List.mem_singleton] at hf
    exact hf ▸ hg
  cases hstack : m.stack with
  | nil =>
    unfold next at hcall
    rw [hstack] at hcall
    cases hcall
  | cons f rest =>
    cases f with
    | closing i size =>
      rcases next_closing hlive hstack with ⟨-, heq⟩ | ⟨-, -, heq⟩ | ⟨item, k, -, -, -, heq⟩ <;>
        cases heq.symm.trans hcall
      refine h.keep (fdSize_remove _ _ _) rfl fun f hf => Or.inl ?_
      rw [hstack]
      exact List.mem_cons_of_mem _ hf
    | destroying i =>
      have hgoOn : Holding { m with stack := [.destroying (i + 1)] } := holding_single rfl id
      have hlive' := hlive.destroying (i + 1)
      rcases next_destroying hlive hstack with
        ⟨-, ⟨item, -, -, heq⟩ | ⟨item, -, heq⟩ | ⟨-, heq⟩⟩ <;> rw [hcall] at heq
      · cases heq
        exact hgoOn
      · exact holding_unregister hlive' hgoOn heq.symm
      · cases heq
        exact holding_of_none fun f hf => absurd hf List.not_mem_nil
    | iteration i n busy =>
      rcases next_iteration hlive hstack with ⟨-, ⟨-, heq⟩ | ⟨-, item, -, -, heq⟩ |
        ⟨-, item, -, ⟨-, -, heq | ⟨handler, -, heq⟩⟩ | heq⟩⟩ <;> cases heq.symm.trans hcall
      · exact hone _ rfl fun hreads => absurd hreads not_false
      · exact hone _ rfl fun hreads => absurd hreads not_false
      · exact hone _ rfl fun _ _ => rfl
      · exact hone _ rfl fun _ _ => rfl
    | writing i n data size busy =>
      rcases next_writing hlive hstack with ⟨-, ⟨-, -, heq⟩ |
        ⟨item, -, -, -, -, heq | ⟨handler, -, heq⟩⟩ | ⟨-, heq⟩⟩ <;> cases heq.symm.trans hcall
      · exact hone _ rfl fun hreads => absurd hreads not_false
      · exact hone _ rfl fun hreads => absurd hreads not_false
    | notifications jobs busy =>
      rcases next_notifications hlive hstack with ⟨-, ⟨-, heq⟩ |
        ⟨j, jobs', -, ⟨busy', -, -, heq⟩ | ⟨-, heq⟩⟩⟩ <;> cases heq.symm.trans hcall
      · exact holding_of_none fun f hf => absurd hf List.not_mem_nil
      · exact hone _ rfl fun hreads => absurd hreads not_false

theorem holding_step (hlive : Live m) (h : Holding m) (hstep : Guarded Step Prudent m e m') :
    Holding m' := by
  obtain ⟨hprudent, hen, status, hcall⟩ := hstep
  have hset : ∀ fd interest, call m (.setInterest fd interest) = .ok (m', status) →
      Holding m' := by
    intro fd interest hcall
    rcases setInterest_cases hlive.views fd interest with ⟨-, heq⟩ | ⟨-, -, heq⟩ |
      ⟨i, item, -, -, -, heq⟩ <;> cases heq.symm.trans hcall
    · exact h
    · exact h.keep (fdSize_put _ _ _) rfl fun f hf => Or.inl hf
  cases e with
  | register fd handler interest data alloc => exact holding_register hlive h hprudent hcall
  | unregister fd => exact holding_unregister hlive h hcall
  | setInterest fd i => exact hset fd i hcall
  | setInterestKey fd i => exact hset fd i (setInterestKey_eq m fd i ▸ hcall)
  | notifyBlockDone fd data alloc =>
    cases alloc <;> cases hcall
    · exact h
    · exact h.keep rfl rfl fun f hf => Or.inl hf
  | select answer =>
    have hempty := hen.2
    cases answer <;> cases hcall
    · exact holding_single rfl id
    · exact holding_single rfl id
    · exact holding_of_none fun f hf => absurd (hempty ▸ hf) List.not_mem_nil
    · exact holding_of_none fun f hf => absurd (hempty ▸ hf) List.not_mem_nil
  | destroy =>
    cases hcall
    exact holding_single rfl id
  | next => exact holding_next hlive h hcall

theorem holding_run {initialElements : ℕ} (hnew : selectorNew initialElements alloc = some s)
    (hrun : Run (Guarded Step Prudent) (start s) es m) : Sound m ∧ Holding m := by
  apply hrun.invariant (I := fun m => Sound m ∧ Holding m)
  · exact ⟨sound_start hnew, holding_of_none fun f hf => absurd hf List.not_mem_nil⟩
  · rintro a b e ⟨hsound, hholding⟩ hstep
    exact ⟨sound_step hsound hstep.2,
      holding_step (live_of_enabled hsound hstep.2.1) hholding hstep⟩

theorem unregister_not_dangling (hlive : Live m) : unregister m fd ≠ .error .dangling := by
  intro hcall
  rcases unregister_cases m fd with ⟨-, heq⟩ | ⟨-, -, heq⟩ | ⟨i, item, rfl, hi⟩
  · cases heq.symm.trans hcall
  · cases heq.symm.trans hcall
  · rcases unregister_uses hlive.views hi with ⟨-, heq⟩ | ⟨-, k, -, heq⟩ <;>
      cases heq.symm.trans hcall

theorem setInterest_not_dangling (hlive : Live m) :
    call m (.setInterest fd interest) ≠ .error .dangling := by
  intro hcall
  rcases setInterest_cases hlive.views fd interest with ⟨-, heq⟩ | ⟨-, -, heq⟩ |
    ⟨i, item, -, -, -, heq⟩ <;> cases heq.symm.trans hcall

theorem next_not_dangling (hlive : Live m) (h : Holding m) : next m ≠ .error .dangling := by
  intro hcall
  cases hstack : m.stack with
  | nil =>
    unfold next at hcall
    rw [hstack] at hcall
    cases hcall
  | cons f rest =>
    have htop : ReadsAgain m.sel f → Finds m.sel f := h f (hstack ▸ List.mem_cons_self)
    cases f with
    | closing i size =>
      rcases next_closing hlive hstack with ⟨hne, -⟩ | ⟨-, -, heq⟩ | ⟨item, k, -, -, -, heq⟩
      · exact hne (htop trivial)
      · cases heq.symm.trans hcall
      · cases heq.symm.trans hcall
    | destroying i =>
      have hlive' := hlive.destroying (i + 1)
      rcases next_destroying hlive hstack with
        ⟨-, ⟨item, -, -, heq⟩ | ⟨item, -, heq⟩ | ⟨-, heq⟩⟩
      · cases heq.symm.trans hcall
      · exact unregister_not_dangling hlive' (heq.symm.trans hcall)
      · cases heq.symm.trans hcall
    | iteration i n busy =>
      rcases next_iteration hlive hstack with ⟨-, ⟨-, heq⟩ | ⟨-, item, -, -, heq⟩ |
        ⟨-, item, -, ⟨-, -, heq | ⟨handler, -, heq⟩⟩ | heq⟩⟩ <;> cases heq.symm.trans hcall
    | writing i n data size busy =>
      rcases next_writing hlive hstack with ⟨-, ⟨hset, hne, -⟩ |
        ⟨item, -, -, -, -, heq | ⟨handler, -, heq⟩⟩ | ⟨-, heq⟩⟩
      · exact hne (htop hset hset)
      · cases heq.symm.trans hcall
      · cases heq.symm.trans hcall
      · cases heq.symm.trans hcall
    | notifications jobs busy =>
      rcases next_notifications hlive hstack with ⟨-, ⟨-, heq⟩ |
        ⟨j, jobs', -, ⟨busy', -, -, heq⟩ | ⟨-, heq⟩⟩⟩ <;> cases heq.symm.trans hcall

/-- Only a function that goes on could read an entry of the table before it grew. -/
theorem not_dangling (hlive : Live m) (h : Holding m) : call m e ≠ .error .dangling := by
  cases e with
  | register fd handler interest data alloc =>
    intro hcall
    rcases register_cases hlive.views fd handler interest data alloc with
      ⟨status, -, heq, -⟩ | ⟨-, -, -, heq⟩ | ⟨i, s, old, -, -, -, -, -, -, -, heq⟩ <;>
      cases heq.symm.trans hcall
  | unregister fd => exact unregister_not_dangling hlive
  | setInterest fd i => exact setInterest_not_dangling hlive
  | setInterestKey fd i =>
    rw [setInterestKey_eq]
    exact setInterest_not_dangling hlive
  | notifyBlockDone fd data alloc => cases alloc <;> exact fun hcall => nomatch hcall
  | select answer => cases answer <;> exact fun hcall => nomatch hcall
  | destroy => exact fun hcall => nomatch hcall
  | next => exact next_not_dangling hlive h

end Holding

section Dispatches

/-- The handler table of a socket that can be written and closed. -/
def writeHandler : FdHandler where
  handleRead := false
  handleWrite := true
  handleBlockDone := false
  handleClose := true

/-- What the loop calls, when the bit it has come to is set. -/
theorem fresh_of_awaits {handler : FdHandler} (h : Steady m) (hop : Awaits m op i)
    (hi : Uses m.sel i item) (hw : wants item.interest op = true)
    (hhandler : item.handler = some handler) (hdata : item.data = data) :
    Fresh m.before ⟨i, op, handler, data, item.serial⟩ := by
  have hlt := h.armed op i item hop hi hw
  obtain ⟨old, hget, hused, hserial, hh, hd⟩ := h.known i item hi hlt
  obtain ⟨old', hget', -, hw'⟩ := h.bits op i hop
  obtain rfl := Option.some.inj (hget'.symm.trans hget)
  exact ⟨old', hget, hused, hserial, hh.trans hhandler, hd.trans hdata, hw'⟩

theorem dispatched_unregister (hlive : Live m) (hcall : unregister m fd = .ok (m', status)) :
    m'.dispatched = m.dispatched := by
  rcases unregister_cases m fd with ⟨-, heq⟩ | ⟨-, -, heq⟩ | ⟨i, item, rfl, hi⟩
  · rw [hcall] at heq
    cases heq
    rfl
  · rw [hcall] at heq
    cases heq
  · rcases unregister_uses hlive.views hi with ⟨-, heq⟩ | ⟨-, k, -, heq⟩ <;> rw [hcall] at heq
    · cases heq
      rfl
    · cases heq
      rfl

/-- What one step adds to the calls of the loop. -/
def Adds (m m' : Machine) : Prop :=
  m'.dispatched = m.dispatched ∨
    ∃ d, m'.dispatched = d :: m.dispatched ∧ Fresh m.before d

theorem adds_next (hlive : Live m) (h : Steady m) (hcall : next m = .ok (m', status)) :
    Adds m m' := by
  cases hstack : m.stack with
  | nil =>
    unfold next at hcall
    rw [hstack] at hcall
    cases hcall
  | cons f rest =>
    cases f with
    | closing i size =>
      rcases next_closing hlive hstack with ⟨-, heq⟩ | ⟨-, -, heq⟩ | ⟨item, k, -, -, -, heq⟩ <;>
        rw [hcall] at heq <;> cases heq
      exact Or.inl rfl
    | destroying i =>
      have hlive' := hlive.destroying (i + 1)
      rcases next_destroying hlive hstack with
        ⟨-, ⟨item, -, -, heq⟩ | ⟨item, -, heq⟩ | ⟨-, heq⟩⟩ <;> rw [hcall] at heq
      · cases heq
        exact Or.inl rfl
      · have hsame := dispatched_unregister hlive' heq.symm
        exact Or.inl hsame
      · cases heq
        exact Or.inl rfl
    | iteration i n busy =>
      obtain ⟨hrest, hcases⟩ := next_iteration hlive hstack
      have hlast : m.stack.getLast? = some (.iteration i n busy) := by
        rw [hstack, hrest]
        rfl
      rcases hcases with ⟨-, heq⟩ | ⟨-, item, -, -, heq⟩ |
        ⟨hle, item, hi, ⟨hmem, hw, heq | ⟨handler, hhandler, heq⟩⟩ | heq⟩ <;> rw [hcall] at heq <;>
        cases heq
      · exact Or.inl rfl
      · exact Or.inl rfl
      · have hop : Awaits m .read i := ⟨hmem, _, hlast, le_rfl, hle⟩
        exact Or.inr ⟨_, rfl, fresh_of_awaits h hop hi hw hhandler rfl⟩
      · exact Or.inl rfl
    | writing i n data size busy =>
      obtain ⟨hrest, hcases⟩ := next_writing hlive hstack
      have hlast : m.stack.getLast? = some (.writing i n data size busy) := by
        rw [hstack, hrest]
        rfl
      rcases hcases with ⟨-, -, heq⟩ |
        ⟨item, hmem, -, hi, hw, heq | ⟨handler, hhandler, heq⟩⟩ | ⟨-, heq⟩ <;>
        rw [hcall] at heq <;> cases heq
      · have hop : Awaits m .write i := ⟨hmem, _, hlast, Or.inr ⟨rfl, rfl⟩⟩
        have hdata := h.key i n data size busy hlast item hi (h.armed .write i item hop hi hw)
        exact Or.inr ⟨_, rfl, fresh_of_awaits h hop hi hw hhandler hdata⟩
      · exact Or.inl rfl
    | notifications jobs busy =>
      rcases next_notifications hlive hstack with ⟨-, ⟨-, heq⟩ |
        ⟨j, jobs', -, ⟨busy', -, -, heq⟩ | ⟨-, heq⟩⟩⟩ <;> rw [hcall] at heq <;> cases heq
      · exact Or.inl rfl
      · exact Or.inl rfl

/-- What one step adds to the calls of the loop, whatever it is. -/
theorem adds_step (hlive : Live m) (h : Steady m) (hstep : Step m e m') : Adds m m' := by
  obtain ⟨-, status, hcall⟩ := hstep
  cases e with
  | register fd handler interest data alloc =>
    rcases register_cases hlive.views fd handler interest data alloc with
      ⟨status, -, heq, -⟩ | ⟨-, -, -, heq⟩ | ⟨i, s, old, -, -, -, -, -, -, -, heq⟩ <;>
      cases heq.symm.trans hcall
    · exact Or.inl rfl
    · exact Or.inl rfl
  | unregister fd => exact Or.inl (dispatched_unregister hlive hcall)
  | setInterest fd i =>
    rcases setInterest_cases hlive.views fd i with ⟨-, heq⟩ | ⟨-, -, heq⟩ |
      ⟨k, item, -, -, -, heq⟩ <;> cases heq.symm.trans hcall
    · exact Or.inl rfl
    · exact Or.inl rfl
  | setInterestKey fd i =>
    rw [setInterestKey_eq] at hcall
    rcases setInterest_cases hlive.views fd i with ⟨-, heq⟩ | ⟨-, -, heq⟩ |
      ⟨k, item, -, -, -, heq⟩ <;> cases heq.symm.trans hcall
    · exact Or.inl rfl
    · exact Or.inl rfl
  | notifyBlockDone fd data alloc => cases alloc <;> cases hcall <;> exact Or.inl rfl
  | select answer => cases answer <;> cases hcall <;> exact Or.inl rfl
  | destroy =>
    cases hcall
    exact Or.inl rfl
  | next => exact adds_next hlive h hcall

/-- As long as no callback makes the table grow under an entry that is read again, and
none of a pass makes a registration for which the pass finds an older readiness, no
entry is read that realloc has freed, and every call of handle_read and handle_write is
to a registration that was there at pselect, with the interest and the readiness it is
called for. -/
theorem dispatch_fresh {initialElements : ℕ}
    (hnew : selectorNew initialElements alloc = some s)
    (hrun : Run (Guarded Step Prudent) (start s) es m) (hen : Enabled m e) :
    call m e ≠ .error .dangling ∧ ∀ m', Step m e m' →
      m'.dispatched = m.dispatched ∨
        ∃ d, m'.dispatched = d :: m.dispatched ∧ Fresh m.before d := by
  obtain ⟨hsound, hsteady⟩ := steady_run hnew hrun
  have hlive := live_of_enabled hsound hen
  exact ⟨not_dangling hlive (holding_run hnew hrun).2,
    fun m' hstep => adds_step hlive hsteady hstep⟩

/-- A pass in which one socket can be read, with no other call in between. -/
theorem dispatch_fresh_one : ∃ s m m', selectorNew 1 true = some s ∧
    Run (Guarded Step Prudent) (start s)
      [.register 1 (some readHandler) OP_READ 7 true, .select (.ready {1} ∅), .next] m ∧
    Step m .next m' ∧ m'.dispatched = [⟨1, .read, readHandler, 7, 0⟩] ∧
    Fresh m.before ⟨1, .read, readHandler, 7, 0⟩ := by
  have hprudent : Prudent (start { selectorZero with fds := List.replicate 3 itemInit })
      (.register 1 (some readHandler) OP_READ 7 true) := by
    refine ⟨fun _ f hf => absurd hf List.not_mem_nil, ?_⟩
    rintro i op - - ⟨-, f, hf, -⟩
    cases hf
  have hfirst : Run (Guarded Step Prudent)
      (start { selectorZero with fds := List.replicate 3 itemInit })
      [.register 1 (some readHandler) OP_READ 7 true] _ :=
    .single ⟨hprudent, step_of_advance rfl⟩
  have hselect := hfirst.snoc (e := Event.select (.ready {1} ∅)) ⟨trivial, step_of_advance rfl⟩
  have hrun := hselect.snoc (e := Event.next) ⟨trivial, step_of_advance rfl⟩
  obtain ⟨m, hrun, m', hadvance, hnone, hcalled⟩ : ∃ m, Run (Guarded Step Prudent)
      (start { selectorZero with fds := List.replicate 3 itemInit })
      [.register 1 (some readHandler) OP_READ 7 true, .select (.ready {1} ∅), .next] m ∧
      ∃ m', advance m .next = some m' ∧ m.dispatched = [] ∧
        m'.dispatched = [⟨1, .read, readHandler, 7, 0⟩] := ⟨_, hrun, _, rfl, rfl, rfl⟩
  have hnew : selectorNew 1 true =
      some { selectorZero with fds := List.replicate 3 itemInit } := rfl
  have hstep := step_of_advance hadvance
  refine ⟨_, m, m', hnew, hrun, hstep, hcalled, ?_⟩
  rcases (dispatch_fresh hnew hrun hstep.1).2 m' hstep with hsame | ⟨d, hd, hfresh⟩
  · rw [hnone, hcalled] at hsame
    exact absurd hsame (by decide)
  · rw [hnone, hcalled] at hd
    obtain rfl := (List.cons.inj hd).1
    exact hfresh

theorem originConnectReply_keeps (sys : Sys) (c : Conn) :
    (originConnectReply sys c).requestReply = c.requestReply ∧
      (originConnectReply sys c).originSock = c.originSock := by
  have hmarshall : (connectMarshallReply sys c).2.requestReply = c.requestReply ∧
      (connectMarshallReply sys c).2.originSock = c.originSock := by
    unfold connectMarshallReply
    dsimp only
    split <;> exact ⟨rfl, rfl⟩
  unfold originConnectReply
  split
  next k heq =>
    rw [heq] at hmarshall
    exact hmarshall
  next k heq =>
    rw [heq] at hmarshall
    exact hmarshall

/-- origin_write asks for the error of a socket that is still connecting, finds none,
and takes the connection for established. -/
theorem originWrite_inProgress (sys : Sys) (c : Conn) (hrelay : c.relayStarted = false)
    (hsock : c.originSock = .inProgress) (hopt : sys.getsockopt = none) :
    (originWrite sys c).requestReply = Request.SOCKS5_REPLY_SUCCEEDED ∧
      (originWrite sys c).originSock = .inProgress := by
  have herror : originConnectError sys c = .ok := by
    unfold originConnectError
    rw [hopt, hsock]
    rfl
  have hwrite : originWrite sys c = originConnectReply sys
      (ConnState.selectorSetInterest { c with requestReply := Request.SOCKS5_REPLY_SUCCEEDED }
        .origin OP_NOOP) := by
    unfold originWrite
    rw [if_pos hrelay]
    unfold originConnectWriteHandler
    rw [herror]
    rfl
  obtain ⟨hreply, hkept⟩ := originConnectReply_keeps sys
    (ConnState.selectorSetInterest { c with requestReply := Request.SOCKS5_REPLY_SUCCEEDED }
      .origin OP_NOOP)
  rw [hwrite]
  exact ⟨hreply, hkept.trans hsock⟩

/-- Entries 5 and 8 are the client and the origin of one connection, 6 and 7 are the
clients of two others. The readable 5 closes both of its own; the readable 6 connects,
and its socket gets the free number 5; the readable 7 connects, and its socket gets
number 8 and waits for OP_WRITE. The pass comes to 8 with the bit of the closed socket,
and calls the new one; origin_write then believes it connected. -/
theorem stale_dispatch : ∃ s m m' d, selectorNew 8 true = some s ∧
    Run Step (start s)
      [.register 5 (some readHandler) OP_READ 50 true,
        .register 6 (some readHandler) OP_READ 60 true,
        .register 7 (some readHandler) OP_READ 70 true,
        .register 8 (some writeHandler) OP_WRITE 50 true,
        .select (.ready {5, 6, 7} {8}), .next, .next, .next, .next, .next, .next,
        .unregister 5, .unregister 8, .next, .next, .next, .next,
        .register 5 (some writeHandler) OP_WRITE 60 true, .next, .next,
        .register 8 (some writeHandler) OP_WRITE 70 true, .next, .next] m ∧
    Step m .next m' ∧ m'.dispatched = d :: m.dispatched ∧ d = ⟨8, .write, writeHandler, 70, 5⟩ ∧
    ¬ Fresh m.before d ∧
    (originWrite (Lifetime.granting .again 8)
      { Lifetime.accepted with originSock := .inProgress }).requestReply =
        Request.SOCKS5_REPLY_SUCCEEDED := by
  obtain ⟨m, hrun, m', hadvance, hcalled, hold⟩ : ∃ m, replay
      (start { selectorZero with fds := List.replicate 17 itemInit })
      [.register 5 (some readHandler) OP_READ 50 true,
        .register 6 (some readHandler) OP_READ 60 true,
        .register 7 (some readHandler) OP_READ 70 true,
        .register 8 (some writeHandler) OP_WRITE 50 true,
        .select (.ready {5, 6, 7} {8}), .next, .next, .next, .next, .next, .next,
        .unregister 5, .unregister 8, .next, .next, .next, .next,
        .register 5 (some writeHandler) OP_WRITE 60 true, .next, .next,
        .register 8 (some writeHandler) OP_WRITE 70 true, .next, .next] = some m ∧
      ∃ m', advance m .next = some m' ∧
        m'.dispatched = ⟨8, .write, writeHandler, 70, 5⟩ :: m.dispatched ∧
        m.before[8]?.map Item.serial = some 3 := ⟨_, rfl, _, rfl, rfl, rfl⟩
  refine ⟨_, m, m', _, rfl, replay_run hrun, step_of_advance hadvance, hcalled, rfl, ?_, ?_⟩
  · rintro ⟨item, hget, -, hserial, -⟩
    rw [hget, Option.map_some, hserial] at hold
    exact absurd hold (by decide)
  · exact (originWrite_inProgress _ _ rfl rfl rfl).1

end Dispatches

end SocksProxy.SelectorStale
