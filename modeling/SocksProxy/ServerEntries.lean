import SocksProxy.ServerSockets

/-!
What the entries of the selector refer to. An entry with one of the two handlers
of a connection names a connection that knows itself registered there, unless
selector_unregister_fd is on its way to clear it; and what a connection believes
to be registered is.
-/
namespace SocksProxy.ServerEntries

open Kernel Ledgers ServerState ServerSteps ServerRefs ServerSockets

variable {heap : ℕ → Option Socks5} {fds : ℕ → Option Socket} {items : ℕ → Option Item}
variable {regs : Ledger Registration} {clearing : List ℕ} {a b fd : ℕ} {o o' : Socks5} {it : Item}
variable {side : Side} {sk : Socket}

def sideRegistered (side : Side) (o : Socks5) : Bool :=
  match side with
  | .client => o.clientRegistered
  | .origin => o.originRegistered

def handlerOf : Side → Handler
  | .client => .socksv5
  | .origin => .origin

/-- The registration in an entry whose handle_close was not called yet. -/
def registrationOf (items : ℕ → Option Item) (clearing : List ℕ) (fd : ℕ) : Option Registration :=
  if fd ∈ clearing then none else (items fd).map Item.registration

/-- `clearing` are the entries that selector_unregister_fd has still to clear. -/
structure EntriesOk (heap : ℕ → Option Socks5) (fds : ℕ → Option Socket) (items : ℕ → Option Item)
    (regs : Ledger Registration) (clearing : List ℕ) : Prop where
  entry : ∀ fd it, items fd = some it → fd ∉ clearing → it.handler ≠ .other →
    ∃ side a o, it.handler = handlerOf side ∧ it.data = some a ∧ heap a = some o ∧
      sideRegistered side o = true ∧ sideFd side o = some fd ∧
      it.registration.owner = some o.serial
  other : ∀ fd it, items fd = some it → fd ∉ clearing → it.handler = .other →
    it.registration.owner = none ∧ ∃ sk, fds fd = some sk ∧ sk.owner = none
  registered : ∀ a o side, heap a = some o → sideRegistered side o = true →
    ∃ fd it, sideFd side o = some fd ∧ items fd = some it ∧ fd ∉ clearing ∧
      it.handler = handlerOf side ∧ it.data = some a
  fd_lt : ∀ fd it, items fd = some it → fd < ITEMS_MAX_SIZE
  held : regs.Held (registrationOf items clearing)
  below : regs.Below Registration.n regs.issued.length

theorem handlerOf_ne_other (side : Side) : handlerOf side ≠ .other := by
  cases side <;> simp [handlerOf]

theorem handlerOf_injective {side side' : Side} (h : handlerOf side = handlerOf side') :
    side = side' := by
  cases side <;> cases side' <;> simp_all [handlerOf]

theorem update_item {it' : Option Item} {e : ℕ}
    (h : Function.update items fd it' e = some it) :
    e = fd ∧ it' = some it ∨ e ≠ fd ∧ items e = some it := Ledger.update_eq_some h

namespace EntriesOk

/-- `o'` is registered where `o` is, under the same descriptors. -/
def Alike (o o' : Socks5) : Prop :=
  o'.serial = o.serial ∧ ∀ side, sideRegistered side o' = sideRegistered side o ∧
    (sideRegistered side o = true → sideFd side o' = sideFd side o)

theorem alike_of_eq (hs : o'.serial = o.serial) (hcfd : o'.clientFd = o.clientFd)
    (hofd : o'.originFd = o.originFd) (hcr : o'.clientRegistered = o.clientRegistered)
    (hor : o'.originRegistered = o.originRegistered) : Alike o o' := by
  refine ⟨hs, ?_⟩
  intro side
  cases side with
  | client => exact ⟨hcr, fun _ => hcfd⟩
  | origin => exact ⟨hor, fun _ => hofd⟩

/-- A connection changes, but not what it has registered. -/
theorem set (h : EntriesOk heap fds items regs clearing) (ho : heap a = some o)
    (halike : Alike o o') :
    EntriesOk (Function.update heap a (some o')) fds items regs clearing where
  entry := by
    intro fd it hit hclear hne
    obtain ⟨side, b, p, hh, hd, hp, hreg, hfd, hown⟩ := h.entry fd it hit hclear hne
    refine ⟨side, b, _, hh, hd, some_update hp, ?_⟩
    by_cases hb : b = a
    · subst hb
      obtain rfl := Option.some.inj (ho.symm.trans hp)
      obtain ⟨hr, hf⟩ := halike.2 side
      rw [if_pos rfl]
      exact ⟨hr.trans hreg, (hf hreg).trans hfd, hown.trans (by rw [halike.1])⟩
    · rw [if_neg hb]
      exact ⟨hreg, hfd, hown⟩
  other := h.other
  registered := by
    intro b p side hp hreg
    rcases update_some hp with ⟨rfl, rfl⟩ | ⟨-, hp⟩
    · obtain ⟨hr, hf⟩ := halike.2 side
      rw [hr] at hreg
      obtain ⟨fd, it, hfd, hrest⟩ := h.registered b o side ho hreg
      exact ⟨fd, it, (hf hreg).trans hfd, hrest⟩
    · exact h.registered b p side hp hreg
  fd_lt := h.fd_lt
  held := h.held
  below := h.below

/-- A connection comes or goes that has nothing registered. -/
theorem heap_change {heap' : ℕ → Option Socks5} (h : EntriesOk heap fds items regs clearing)
    (hkeep : ∀ b p side, heap b = some p → sideRegistered side p = true → heap' b = some p)
    (hfrom : ∀ b p side, heap' b = some p → sideRegistered side p = true → heap b = some p) :
    EntriesOk heap' fds items regs clearing where
  entry := by
    intro fd it hit hclear hne
    obtain ⟨side, b, p, hh, hd, hp, hreg, hrest⟩ := h.entry fd it hit hclear hne
    exact ⟨side, b, p, hh, hd, hkeep b p side hp hreg, hreg, hrest⟩
  other := h.other
  registered := fun b p side hp hreg => h.registered b p side (hfrom b p side hp hreg) hreg
  fd_lt := h.fd_lt
  held := h.held
  below := h.below

/-- Sockets of connections are opened and closed. -/
theorem fds_change {fds' : ℕ → Option Socket} (h : EntriesOk heap fds items regs clearing)
    (hkeep : ∀ fd it sk, items fd = some it → fd ∉ clearing → fds fd = some sk →
      sk.owner = none → fds' fd = some sk) :
    EntriesOk heap fds' items regs clearing where
  entry := h.entry
  other := by
    intro fd it hit hclear hother
    obtain ⟨hown, sk, hsk, hnone⟩ := h.other fd it hit hclear hother
    exact ⟨hown, sk, hkeep fd it sk hit hclear hsk hnone, hnone⟩
  registered := h.registered
  fd_lt := h.fd_lt
  held := h.held
  below := h.below

/-- selector_set_interest. -/
theorem interest (h : EntriesOk heap fds items regs clearing) (fd : ℕ) (i : ConnState.FdInterest) :
    EntriesOk heap fds
      (Function.update items fd ((items fd).map fun it => { it with interest := i })) regs
      clearing := by
  have hview : ∀ e it', Function.update items fd
      ((items fd).map fun it => { it with interest := i }) e = some it' →
      ∃ it, items e = some it ∧ it'.handler = it.handler ∧ it'.data = it.data ∧
        it'.registration = it.registration := by
    intro e it' he
    rcases update_item he with ⟨rfl, hmap⟩ | ⟨-, he⟩
    · obtain ⟨it, hit, rfl⟩ := Option.map_eq_some_iff.mp hmap
      exact ⟨it, hit, rfl, rfl, rfl⟩
    · exact ⟨it', he, rfl, rfl, rfl⟩
  have hback : ∀ e it, items e = some it → ∃ it', Function.update items fd
      ((items fd).map fun it => { it with interest := i }) e = some it' ∧
        it'.handler = it.handler ∧ it'.data = it.data := by
    intro e it he
    by_cases hfd : e = fd
    · subst hfd
      rw [Function.update_self, he]
      exact ⟨_, rfl, rfl, rfl⟩
    · exact ⟨it, by rw [Function.update_of_ne hfd]; exact he, rfl, rfl⟩
  exact
    { entry := by
        intro e it' he hclear hne
        obtain ⟨it, hit, hh, hd, hr⟩ := hview e it' he
        rw [hh, hd, hr]
        rw [hh] at hne
        exact h.entry e it hit hclear hne
      other := by
        intro e it' he hclear hother
        obtain ⟨it, hit, hh, hd, hr⟩ := hview e it' he
        rw [hh] at hother
        rw [hr]
        exact h.other e it hit hclear hother
      registered := by
        intro b p side hp hreg
        obtain ⟨e, it, hfd, hit, hclear, hh, hd⟩ := h.registered b p side hp hreg
        obtain ⟨it', hit', hh', hd'⟩ := hback e it hit
        exact ⟨e, it', hfd, hit', hclear, hh'.trans hh, hd'.trans hd⟩
      fd_lt := by
        intro e it' he
        obtain ⟨it, hit, -⟩ := hview e it' he
        exact h.fd_lt e it hit
      held := by
        apply h.held.congr
        intro e
        unfold registrationOf
        split
        · rfl
        · by_cases hfd : e = fd
          · subst hfd
            rw [Function.update_self, Option.map_map]
            rfl
          · rw [Function.update_of_ne hfd]
      below := h.below }

theorem registrationOf_update (hclear : fd ∉ clearing) (it : Item) (e : ℕ) :
    registrationOf (Function.update items fd (some it)) clearing e =
      Function.update (registrationOf items clearing) fd (some it.registration) e := by
  unfold registrationOf
  by_cases hfd : e = fd
  · subst hfd
    rw [if_neg hclear, Function.update_self, Function.update_self]
    rfl
  · rw [Function.update_of_ne hfd, Function.update_of_ne hfd]

/-- selector_register for a connection: `o` becomes `o'`, which is registered on `side`. -/
theorem register (h : EntriesOk heap fds items regs clearing) (hlt : fd < ITEMS_MAX_SIZE)
    (hfree : items fd = none) (hclear : fd ∉ clearing) (ho : heap a = some o)
    (hhandler : it.handler = handlerOf side) (hdata : it.data = some a)
    (howner : it.registration.owner = some o.serial)
    (hn : it.registration.n = regs.issued.length) (hserial : o'.serial = o.serial)
    (hreg : sideRegistered side o' = true) (hfd : sideFd side o' = some fd)
    (hold : sideRegistered side o = false)
    (hrest : ∀ d, d ≠ side → sideRegistered d o' = sideRegistered d o ∧
      sideFd d o' = sideFd d o) :
    EntriesOk (Function.update heap a (some o')) fds (Function.update items fd (some it))
      (regs.issue it.registration) clearing where
  entry := by
    intro e it' he hnot hne
    rcases update_item he with ⟨rfl, heq⟩ | ⟨-, he⟩
    · cases heq
      exact ⟨side, a, o', hhandler, hdata, Function.update_self _ _ _, hreg, hfd,
        howner.trans (by rw [hserial])⟩
    · obtain ⟨d, b, p, hh, hd, hp, hr, hf, hown⟩ := h.entry e it' he hnot hne
      refine ⟨d, b, _, hh, hd, some_update hp, ?_⟩
      by_cases hb : b = a
      · subst hb
        obtain rfl := Option.some.inj (ho.symm.trans hp)
        have hds : d ≠ side := by
          rintro rfl
          rw [hold] at hr
          exact absurd hr (by simp)
        obtain ⟨hr', hf'⟩ := hrest d hds
        rw [if_pos rfl]
        exact ⟨hr'.trans hr, hf'.trans hf, hown.trans (by rw [hserial])⟩
      · rw [if_neg hb]
        exact ⟨hr, hf, hown⟩
  other := by
    intro e it' he hnot hother
    rcases update_item he with ⟨rfl, heq⟩ | ⟨-, he⟩
    · cases heq
      exact absurd (hhandler.symm.trans hother) (handlerOf_ne_other side)
    · exact h.other e it' he hnot hother
  registered := by
    have hkeep : ∀ e it', items e = some it' →
        Function.update items fd (some it) e = some it' := by
      intro e it' he
      have hne : e ≠ fd := by
        rintro rfl
        rw [hfree] at he
        exact absurd he (by simp)
      rw [Function.update_of_ne hne]
      exact he
    intro b p d hp hr
    rcases update_some hp with ⟨rfl, rfl⟩ | ⟨-, hp⟩
    · by_cases hds : d = side
      · subst hds
        exact ⟨fd, it, hfd, Function.update_self _ _ _, hclear, hhandler, hdata⟩
      · obtain ⟨hr', hf'⟩ := hrest d hds
        rw [hr'] at hr
        obtain ⟨e, it', he, hit, hnot, hh⟩ := h.registered b o d ho hr
        exact ⟨e, it', hf'.trans he, hkeep e it' hit, hnot, hh⟩
    · obtain ⟨e, it', he, hit, hnot, hh⟩ := h.registered b p d hp hr
      exact ⟨e, it', he, hkeep e it' hit, hnot, hh⟩
  fd_lt := by
    intro e it' he
    rcases update_item he with ⟨rfl, -⟩ | ⟨-, he⟩
    · exact hlt
    · exact h.fd_lt e it' he
  held := by
    apply (h.held.gain (h.below.not_mem hn) _).congr (registrationOf_update hclear it)
    unfold registrationOf
    rw [if_neg hclear, hfree]
    rfl
  below := h.below.issue hn

/-- selector_register for a listener or a monitoring connection. -/
theorem register_other (h : EntriesOk heap fds items regs clearing) (hlt : fd < ITEMS_MAX_SIZE)
    (hfree : items fd = none) (hclear : fd ∉ clearing) (hhandler : it.handler = .other)
    (howner : it.registration.owner = none) (hn : it.registration.n = regs.issued.length)
    (hsk : fds fd = some sk) (hsock : sk.owner = none) :
    EntriesOk heap fds (Function.update items fd (some it)) (regs.issue it.registration)
      clearing where
  entry := by
    intro e it' he hnot hne
    rcases update_item he with ⟨rfl, heq⟩ | ⟨-, he⟩
    · cases heq
      exact absurd hhandler hne
    · exact h.entry e it' he hnot hne
  other := by
    intro e it' he hnot hother
    rcases update_item he with ⟨rfl, heq⟩ | ⟨-, he⟩
    · cases heq
      exact ⟨howner, sk, hsk, hsock⟩
    · exact h.other e it' he hnot hother
  registered := by
    intro b p d hp hr
    obtain ⟨e, it', he, hit, hnot, hh⟩ := h.registered b p d hp hr
    have hne : e ≠ fd := by
      rintro rfl
      rw [hfree] at hit
      exact absurd hit (by simp)
    exact ⟨e, it', he, by rw [Function.update_of_ne hne]; exact hit, hnot, hh⟩
  fd_lt := by
    intro e it' he
    rcases update_item he with ⟨rfl, -⟩ | ⟨-, he⟩
    · exact hlt
    · exact h.fd_lt e it' he
  held := by
    apply (h.held.gain (h.below.not_mem hn) _).congr (registrationOf_update hclear it)
    unfold registrationOf
    rw [if_neg hclear, hfree]
    rfl
  below := h.below.issue hn

theorem registrationOf_cons (fd e : ℕ) :
    registrationOf items (fd :: clearing) e =
      Function.update (registrationOf items clearing) fd none e := by
  unfold registrationOf
  by_cases hfd : e = fd
  · subst hfd
    rw [if_pos List.mem_cons_self, Function.update_self]
  · rw [Function.update_of_ne hfd]
    simp [hfd]

theorem held_cons (h : EntriesOk heap fds items regs clearing) (hit : items fd = some it)
    (hclear : fd ∉ clearing) :
    (regs.settle it.registration).Held (registrationOf items (fd :: clearing)) := by
  apply (h.held.lose (i := fd) _).congr (registrationOf_cons fd)
  unfold registrationOf
  rw [if_neg hclear, hit]
  rfl

/-- An entry that names a connection is where the connection has it. -/
theorem belongs (h : EntriesOk heap fds items regs clearing) (hit : items fd = some it)
    (hclear : fd ∉ clearing) (hhandler : it.handler = handlerOf side) (hdata : it.data = some a) :
    ∃ o, heap a = some o ∧ sideRegistered side o = true ∧ sideFd side o = some fd ∧
      it.registration.owner = some o.serial := by
  obtain ⟨d, b, o, hh, hd, ho, hrest⟩ :=
    h.entry fd it hit hclear (by rw [hhandler]; exact handlerOf_ne_other side)
  obtain rfl := handlerOf_injective (hh.symm.trans hhandler)
  obtain rfl := Option.some.inj (hd.symm.trans hdata)
  exact ⟨o, ho, hrest⟩

/-- handle_close of a connection's entry: `o'` knows that it is registered no more. -/
theorem unregister (h : EntriesOk heap fds items regs clearing) (hit : items fd = some it)
    (hclear : fd ∉ clearing) (ho : heap a = some o) (hhandler : it.handler = handlerOf side)
    (hdata : it.data = some a) (hserial : o'.serial = o.serial)
    (hreg : sideRegistered side o' = false)
    (hrest : ∀ d, d ≠ side → sideRegistered d o' = sideRegistered d o ∧
      sideFd d o' = sideFd d o) :
    EntriesOk (Function.update heap a (some o')) fds items (regs.settle it.registration)
      (fd :: clearing) where
  entry := by
    intro e it' he hnot hne
    rw [List.mem_cons, not_or] at hnot
    obtain ⟨d, b, p, hh, hd, hp, hr, hf, hown⟩ := h.entry e it' he hnot.2 hne
    refine ⟨d, b, _, hh, hd, some_update hp, ?_⟩
    by_cases hb : b = a
    · subst hb
      obtain rfl := Option.some.inj (ho.symm.trans hp)
      have hds : d ≠ side := by
        -- on this side the connection has the one descriptor
        rintro rfl
        obtain ⟨p, hp, -, hfd, -⟩ := h.belongs hit hclear hhandler hdata
        obtain rfl := Option.some.inj (ho.symm.trans hp)
        exact hnot.1 (Option.some.inj (hf.symm.trans hfd))
      obtain ⟨hr', hf'⟩ := hrest d hds
      rw [if_pos rfl]
      exact ⟨hr'.trans hr, hf'.trans hf, hown.trans (by rw [hserial])⟩
    · rw [if_neg hb]
      exact ⟨hr, hf, hown⟩
  other := fun e it' he hnot => h.other e it' he fun hmem => hnot (List.mem_cons_of_mem _ hmem)
  registered := by
    have hother : ∀ b p d, heap b = some p → sideRegistered d p = true → (b = a → d ≠ side) →
        ∃ e it', sideFd d p = some e ∧ items e = some it' ∧ e ∉ fd :: clearing ∧
          it'.handler = handlerOf d ∧ it'.data = some b := by
      intro b p d hp hr hne
      obtain ⟨e, it', he, hit', hnot, hh, hd⟩ := h.registered b p d hp hr
      refine ⟨e, it', he, hit', ?_, hh, hd⟩
      rw [List.mem_cons, not_or]
      refine ⟨?_, hnot⟩
      rintro rfl
      obtain rfl := Option.some.inj (hit'.symm.trans hit)
      exact hne (Option.some.inj (hd.symm.trans hdata))
        (handlerOf_injective (hh.symm.trans hhandler))
    intro b p d hp hr
    rcases update_some hp with ⟨rfl, rfl⟩ | ⟨hba, hp⟩
    · have hds : d ≠ side := by
        rintro rfl
        rw [hreg] at hr
        exact absurd hr (by simp)
      obtain ⟨hr', hf'⟩ := hrest d hds
      rw [hr'] at hr
      rw [hf']
      exact hother b o d ho hr fun _ => hds
    · exact hother b p d hp hr fun hab => absurd hab hba
  fd_lt := h.fd_lt
  held := h.held_cons hit hclear
  below := h.below.settle _

/-- handle_close of another entry, or none. -/
theorem unregister_other (h : EntriesOk heap fds items regs clearing) (hit : items fd = some it)
    (hclear : fd ∉ clearing) (hhandler : it.handler = .other) :
    EntriesOk heap fds items (regs.settle it.registration) (fd :: clearing) where
  entry := fun e it' he hnot => h.entry e it' he fun hmem => hnot (List.mem_cons_of_mem _ hmem)
  other := fun e it' he hnot => h.other e it' he fun hmem => hnot (List.mem_cons_of_mem _ hmem)
  registered := by
    intro b p d hp hr
    obtain ⟨e, it', he, hit', hnot, hh, hd⟩ := h.registered b p d hp hr
    refine ⟨e, it', he, hit', ?_, hh, hd⟩
    rw [List.mem_cons, not_or]
    refine ⟨?_, hnot⟩
    rintro rfl
    obtain rfl := Option.some.inj (hit'.symm.trans hit)
    exact handlerOf_ne_other d (hh.symm.trans hhandler)
  fd_lt := h.fd_lt
  held := h.held_cons hit hclear
  below := h.below.settle _

/-- handle_close has returned. -/
theorem clear (h : EntriesOk heap fds items regs (fd :: clearing)) (hclear : fd ∉ clearing) :
    EntriesOk heap fds (Function.update items fd none) regs clearing := by
  have hfrom : ∀ e it, Function.update items fd none e = some it →
      e ≠ fd ∧ items e = some it := by
    intro e it he
    rcases update_item he with ⟨-, hnone⟩ | ⟨hne, he⟩
    · exact absurd hnone (by simp)
    · exact ⟨hne, he⟩
  have hnot : ∀ e, e ≠ fd → e ∉ clearing → e ∉ fd :: clearing := by
    intro e hne hnot hmem
    exact (List.mem_cons.mp hmem).elim hne hnot
  exact
    { entry := by
        intro e it he hmem
        obtain ⟨hne, he⟩ := hfrom e it he
        exact h.entry e it he (hnot e hne hmem)
      other := by
        intro e it he hmem
        obtain ⟨hne, he⟩ := hfrom e it he
        exact h.other e it he (hnot e hne hmem)
      registered := by
        intro b p d hp hr
        obtain ⟨e, it, he, hit, hmem, hh⟩ := h.registered b p d hp hr
        rw [List.mem_cons, not_or] at hmem
        exact ⟨e, it, he, by rw [Function.update_of_ne hmem.1]; exact hit, hmem.2, hh⟩
      fd_lt := by
        intro e it he
        exact h.fd_lt e it (hfrom e it he).2
      held := by
        apply h.held.congr
        intro e
        unfold registrationOf
        by_cases hfd : e = fd
        · subst hfd
          rw [if_neg hclear, if_pos List.mem_cons_self, Function.update_self]
          rfl
        · rw [Function.update_of_ne hfd]
          simp [hfd]
      below := h.below }

end EntriesOk

end SocksProxy.ServerEntries
