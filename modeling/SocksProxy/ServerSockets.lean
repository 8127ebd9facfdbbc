import SocksProxy.ServerRefs

/-!
Whose sockets the open descriptors are. Every descriptor of a connection is
open and was opened for it, on the side it is stored for, and every socket that
was opened for a connection is stored in it. Inside a step one descriptor may be
open that is not stored yet, or no longer.
-/
namespace SocksProxy.ServerSockets

open Kernel Ledgers ServerState ServerSteps ServerRefs

variable {heap : ℕ → Option Socks5} {fds : ℕ → Option Socket} {sockets : Ledger Socket}
variable {loose : Option ℕ} {a b fd : ℕ} {o o' : Socks5} {sk : Socket} {side : Side}

def sideFd (side : Side) (o : Socks5) : Option ℕ :=
  match side with
  | .client => o.clientFd
  | .origin => o.originFd

structure SocketsOk (loose : Option ℕ) (heap : ℕ → Option Socks5) (fds : ℕ → Option Socket)
    (sockets : Ledger Socket) : Prop where
  stored_open : ∀ a o side fd, heap a = some o → sideFd side o = some fd →
    ∃ sk, fds fd = some sk ∧ sk.owner = some o.serial ∧ sk.side = side
  open_stored : ∀ fd sk k, fds fd = some sk → sk.owner = some k → loose ≠ some fd →
    ∃ a o, heap a = some o ∧ o.serial = k ∧ sideFd sk.side o = some fd
  loose_open : ∀ fd, loose = some fd → ∃ sk, fds fd = some sk
  loose_free : ∀ fd a o side, loose = some fd → heap a = some o → sideFd side o ≠ some fd
  held : sockets.Held fds
  below : sockets.Below Socket.n sockets.issued.length

namespace SocketsOk

/-- What the books of sockets look at. -/
def key (o : Socks5) : ℕ × Option ℕ × Option ℕ := (o.serial, o.clientFd, o.originFd)

theorem sideFd_of_key (h : key o' = key o) (side : Side) : sideFd side o' = sideFd side o := by
  simp only [key, Prod.mk.injEq] at h
  cases side with
  | client => exact h.2.1
  | origin => exact h.2.2

theorem congr {heap' : ℕ → Option Socks5} (h : SocketsOk loose heap fds sockets)
    (hkey : Agree key heap heap') : SocketsOk loose heap' fds sockets := by
  refine ⟨?_, ?_, h.loose_open, ?_, h.held, h.below⟩
  · intro a o' side fd ho' hfd
    obtain ⟨o, ho, hf⟩ := hkey.view ho'
    rw [sideFd_of_key hf] at hfd
    obtain ⟨sk, hsk, howner, hside⟩ := h.stored_open a o side fd ho hfd
    have hs : o'.serial = o.serial := congrArg Prod.fst hf
    exact ⟨sk, hsk, hs ▸ howner, hside⟩
  · intro fd sk k hsk howner hloose
    obtain ⟨a, o, ho, hk, hfd⟩ := h.open_stored fd sk k hsk howner hloose
    obtain ⟨o', ho', hf⟩ := hkey.symm.view ho
    have hs : o.serial = o'.serial := congrArg Prod.fst hf
    exact ⟨a, o', ho', hs ▸ hk, (sideFd_of_key hf sk.side) ▸ hfd⟩
  · intro fd a o' side hloose ho' hfd
    obtain ⟨o, ho, hf⟩ := hkey.view ho'
    rw [sideFd_of_key hf] at hfd
    exact h.loose_free fd a o side hloose ho hfd

theorem set (h : SocketsOk loose heap fds sockets) (ho : heap a = some o) (hkey : key o' = key o) :
    SocketsOk loose (Function.update heap a (some o')) fds sockets :=
  h.congr (agree_set ho hkey)

/-- The kernel opens a descriptor, which nobody has stored yet. -/
theorem opens (h : SocketsOk none heap fds sockets) (hfd : fds fd = none)
    (hn : sk.n = sockets.issued.length) :
    SocketsOk (some fd) heap (Function.update fds fd (some sk)) (sockets.issue sk) := by
  have hkeep : ∀ e sk', fds e = some sk' → Function.update fds fd (some sk) e = some sk' := by
    intro e sk' he
    have hne : e ≠ fd := by
      rintro rfl
      rw [hfd] at he
      exact absurd he (by simp)
    rw [Function.update_of_ne hne]
    exact he
  have hfrom : ∀ e sk', Function.update fds fd (some sk) e = some sk' →
      e = fd ∧ sk' = sk ∨ fds e = some sk' := by
    intro e sk' he
    by_cases hne : e = fd
    · subst hne
      rw [Function.update_self, Option.some.injEq] at he
      exact Or.inl ⟨rfl, he.symm⟩
    · rw [Function.update_of_ne hne] at he
      exact Or.inr he
  refine ⟨?_, ?_, ?_, ?_, h.held.gain (h.below.not_mem hn) hfd, h.below.issue hn⟩
  · intro a o side e ho he
    obtain ⟨sk', hsk, howner, hside⟩ := h.stored_open a o side e ho he
    exact ⟨sk', hkeep e sk' hsk, howner, hside⟩
  · intro e sk' k hsk howner hloose
    rcases hfrom e sk' hsk with ⟨rfl, -⟩ | hsk
    · exact absurd rfl hloose
    · exact h.open_stored e sk' k hsk howner (by simp)
  · rintro e ⟨⟩
    exact ⟨sk, Function.update_self _ _ _⟩
  · rintro e a o side ⟨⟩ ho he
    obtain ⟨sk', hsk, -⟩ := h.stored_open a o side _ ho he
    rw [hfd] at hsk
    exact absurd hsk (by simp)

/-- A descriptor that no connection has stored is closed. -/
theorem closes (h : SocketsOk (some fd) heap fds sockets) (hfd : fds fd = some sk) :
    SocketsOk none heap (Function.update fds fd none) (sockets.settle sk) := by
  have hfrom : ∀ e sk', Function.update fds fd none e = some sk' → e ≠ fd ∧ fds e = some sk' := by
    intro e sk' he
    by_cases hne : e = fd
    · subst hne
      rw [Function.update_self] at he
      exact absurd he (by simp)
    · rw [Function.update_of_ne hne] at he
      exact ⟨hne, he⟩
  refine ⟨?_, ?_, by simp, by simp, h.held.lose hfd, h.below.settle sk⟩
  · intro a o side e ho he
    have hne : e ≠ fd := by
      rintro rfl
      exact h.loose_free e a o side rfl ho he
    obtain ⟨sk', hsk, howner, hside⟩ := h.stored_open a o side e ho he
    exact ⟨sk', by rw [Function.update_of_ne hne]; exact hsk, howner, hside⟩
  · intro e sk' k hsk howner _
    obtain ⟨hne, hsk⟩ := hfrom e sk' hsk
    exact h.open_stored e sk' k hsk howner (by simpa using Ne.symm hne)

/-- A descriptor that was not opened for a connection need not be stored. -/
theorem forget (h : SocketsOk (some fd) heap fds sockets) (hfd : fds fd = some sk)
    (howner : sk.owner = none) : SocketsOk none heap fds sockets :=
  { h with
    open_stored := by
      intro e sk' k hsk hk _
      apply h.open_stored e sk' k hsk hk
      intro heq
      rw [Option.some.injEq] at heq
      subst heq
      rw [hfd, Option.some.injEq] at hsk
      rw [← hsk, howner] at hk
      exact absurd hk (by simp)
    loose_open := by simp
    loose_free := by simp }

/-- A descriptor of nobody is about to be closed. -/
theorem take_back (h : SocketsOk none heap fds sockets) (hfd : fds fd = some sk)
    (howner : sk.owner = none) : SocketsOk (some fd) heap fds sockets :=
  { h with
    open_stored := fun e sk' k hsk hk _ => h.open_stored e sk' k hsk hk (by simp)
    loose_open := by
      rintro e ⟨⟩
      exact ⟨sk, hfd⟩
    loose_free := by
      rintro e a o side ⟨⟩ ho he
      obtain ⟨sk', hsk, hk, -⟩ := h.stored_open a o side _ ho he
      rw [hfd, Option.some.injEq] at hsk
      rw [← hsk, howner] at hk
      exact absurd hk (by simp) }

/-- The open descriptor is stored in the connection it was opened for. -/
theorem store (h : SocketsOk (some fd) heap fds sockets) (hfd : fds fd = some sk)
    (howner : sk.owner = some o'.serial) (hside : sk.side = side)
    (hnew : sideFd side o' = some fd)
    (hold : heap a = none ∧ (∀ d, d ≠ side → sideFd d o' = none) ∨
      ∃ o, heap a = some o ∧ o'.serial = o.serial ∧ sideFd side o = none ∧
        ∀ d, d ≠ side → sideFd d o' = sideFd d o) :
    SocketsOk none (Function.update heap a (some o')) fds sockets := by
  refine ⟨?_, ?_, by simp, by simp, h.held, h.below⟩
  · intro b p d e hp he
    rcases update_some hp with ⟨rfl, rfl⟩ | ⟨-, hp⟩
    · by_cases hd : d = side
      · subst hd
        rw [hnew, Option.some.injEq] at he
        subst he
        exact ⟨sk, hfd, howner, hside⟩
      · rcases hold with ⟨-, hnone⟩ | ⟨o, ho, hs, -, hsame⟩
        · rw [hnone d hd] at he
          exact absurd he (by simp)
        · rw [hsame d hd] at he
          rw [hs]
          exact h.stored_open b o d e ho he
    · exact h.stored_open b p d e hp he
  · intro e sk' k hsk hk _
    by_cases he : e = fd
    · subst he
      rw [hfd, Option.some.injEq] at hsk
      subst hsk
      rw [howner, Option.some.injEq] at hk
      exact ⟨a, o', Function.update_self _ _ _, hk, hside ▸ hnew⟩
    · obtain ⟨b, p, hp, hs, hb⟩ := h.open_stored e sk' k hsk hk (by simpa using Ne.symm he)
      by_cases hba : b = a
      · subst hba
        rcases hold with ⟨hnone, -⟩ | ⟨o, ho, hs', hnone, hsame⟩
        · rw [hnone] at hp
          exact absurd hp (by simp)
        · rw [ho, Option.some.injEq] at hp
          subst hp
          have hd : sk'.side ≠ side := by
            intro heq
            rw [heq, hnone] at hb
            exact absurd hb (by simp)
          exact ⟨b, o', Function.update_self _ _ _, hs'.trans hs, (hsame _ hd).trans hb⟩
      · exact ⟨b, p, by rw [Function.update_of_ne hba]; exact hp, hs, hb⟩

/-- A stored descriptor is taken out of its connection. -/
theorem unstore (h : SocketsOk none heap fds sockets)
    (hinj : ∀ a b o o', heap a = some o → heap b = some o' → o.serial = o'.serial → a = b)
    (ho : heap a = some o) (hfd : sideFd side o = some fd) (hserial : o'.serial = o.serial)
    (hnone : sideFd side o' = none) (hsame : ∀ d, d ≠ side → sideFd d o' = sideFd d o) :
    SocketsOk (some fd) (Function.update heap a (some o')) fds sockets := by
  obtain ⟨sk, hsk, howner, hside⟩ := h.stored_open a o side fd ho hfd
  refine ⟨?_, ?_, ?_, ?_, h.held, h.below⟩
  · intro b p d e hp he
    rcases update_some hp with ⟨rfl, rfl⟩ | ⟨-, hp⟩
    · by_cases hd : d = side
      · rw [hd, hnone] at he
        exact absurd he (by simp)
      · rw [hsame d hd] at he
        rw [hserial]
        exact h.stored_open b o d e ho he
    · exact h.stored_open b p d e hp he
  · intro e sk' k hsk' hk hloose
    obtain ⟨b, p, hp, hs, hb⟩ := h.open_stored e sk' k hsk' hk (by simp)
    by_cases hba : b = a
    · subst hba
      rw [ho, Option.some.injEq] at hp
      subst hp
      have hd : sk'.side ≠ side := by
        intro heq
        rw [heq, hfd] at hb
        exact hloose hb
      exact ⟨b, o', Function.update_self _ _ _, hserial.trans hs, (hsame _ hd).trans hb⟩
    · exact ⟨b, p, by rw [Function.update_of_ne hba]; exact hp, hs, hb⟩
  · rintro e ⟨⟩
    exact ⟨sk, hsk⟩
  · rintro e b p d ⟨⟩ hp he
    rcases update_some hp with ⟨rfl, rfl⟩ | ⟨hba, hp⟩
    · by_cases hd : d = side
      · rw [hd, hnone] at he
        exact absurd he (by simp)
      · rw [hsame d hd] at he
        obtain ⟨sk', hsk', -, hd'⟩ := h.stored_open b o d _ ho he
        rw [hsk, Option.some.injEq] at hsk'
        exact hd (by rw [← hd', ← hsk', hside])
    · obtain ⟨sk', hsk', howner', -⟩ := h.stored_open b p d _ hp he
      rw [hsk, Option.some.injEq] at hsk'
      rw [← hsk', howner, Option.some.injEq] at howner'
      exact hba (hinj b a p o hp ho howner'.symm)

/-- A connection without descriptors is freed. -/
theorem free (h : SocketsOk none heap fds sockets) (ho : heap a = some o)
    (hnone : ∀ side, sideFd side o = none) :
    SocketsOk none (Function.update heap a none) fds sockets := by
  refine ⟨?_, ?_, by simp, by simp, h.held, h.below⟩
  · intro b p d e hp he
    exact h.stored_open b p d e (update_none hp).2 he
  · intro e sk' k hsk hk _
    obtain ⟨b, p, hp, hs, hb⟩ := h.open_stored e sk' k hsk hk (by simp)
    have hba : b ≠ a := by
      rintro rfl
      rw [ho, Option.some.injEq] at hp
      rw [← hp, hnone] at hb
      exact absurd hb (by simp)
    exact ⟨b, p, by rw [Function.update_of_ne hba]; exact hp, hs, hb⟩

end SocketsOk

end SocksProxy.ServerSockets
