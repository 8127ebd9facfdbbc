import SocksProxy.ServerStages

/-!
The end of a connection, call by call: socks5_connection_close, socks5_cancel,
client_close with the call back through socksv5_close, origin_close, and the
release of the initial reference.
-/
namespace SocksProxy.ServerClosing

open Kernel Ledgers ServerState ServerSteps ServerRefs ServerSockets ServerLookups
open ServerEntries ServerPool ServerParts ServerStages

variable {s : Server} {b : Bottom} {a fd : ℕ}

/-- `a` goes to `o'`, and the work on it to `d`. -/
theorem set_good {d : Doing} {t : Server} {fs : List Frame} {cs : List ℕ} {o' : Socks5}
    (h : Ground s b fs cs (some a)) (hb : b.closes = true) (hd : d.subject = some a)
    (hallowed : Allowed b d)
    (hparts : Parts none t s.jobs (b.pending s.jobs) (d.clearing ++ b.clearing))
    (hstack : t.stack = d.frames ++ b.frames) (hnodup : (d.clearing ++ b.clearing).Nodup)
    (hheap : t.heap = Function.update s.heap a (some o')) (hworkers : t.workers = s.workers)
    (hjobs : t.jobs = s.jobs)
    (hitems : b.serves = true ∨ ∀ e, s.items e = none → t.items e = none)
    (hopen : o'.released = false)
    (hstage : d.Stage b (flying s.workers (b.pending s.jobs) a) o') : Good (.ok t) := by
  refine ⟨d, b, ?_, hallowed, ?_⟩
  · rw [hd]
    apply h.advance hb hparts hstack hnodup _ hworkers hjobs hitems
    intro c hca
    rw [hheap, Function.update_of_ne hca]
  · intro c hc
    obtain rfl := Option.some.inj (hd.symm.trans hc)
    refine ⟨o', ?_, hopen, ?_⟩
    · rw [hheap, Function.update_self]
    · rw [hworkers, hjobs]
      exact hstage

theorem close_good (h : Ok s (.close a) b) :
    Good (socks5ConnectionClose { s with stack := b.frames } a) := by
  obtain ⟨o, ho, hopen, hclosing, hfd, hidle⟩ := h.stage a rfl
  let u : Server := { s with stack := b.frames }
  let o' : Socks5 := { o with closing := true }
  have hclose : socks5ConnectionClose u a = .ok ((u.set a o').push
      [.cancel a, .clientClose a, .originClose a, .release a]) := by
    unfold socks5ConnectionClose
    rw [owned_eq (s := u) ho hopen, if_neg (by simp [hclosing])]
  have hparts : Parts none (u.set a o') s.jobs (b.pending s.jobs) ([] ++ b.clearing) :=
    (h.ground.parts.stack b.frames).set ho ⟨rfl, rfl, rfl, rfl, rfl, rfl, rfl⟩ rfl (Or.inl rfl)
      (by simp)
  show Good (socks5ConnectionClose u a)
  rw [hclose]
  exact set_good (d := .cancel a) h.ground h.allowed rfl h.allowed (hparts.stack _) rfl
    h.ground.clearing_nodup rfl rfl rfl (Or.inr fun _ he => he) hopen ⟨rfl, hfd, hidle⟩

/-- Called back through socksv5_close, socks5_connection_close does nothing. -/
theorem reenter_good (h : Ok s (.reenter a fd) b) :
    Good (socks5ConnectionClose
      { s with stack := (Doing.clearClient a fd).frames ++ b.frames } a) := by
  obtain ⟨o, ho, hopen, hending, hrest⟩ := h.stage a rfl
  let u : Server := { s with stack := (Doing.clearClient a fd).frames ++ b.frames }
  have hclose : socks5ConnectionClose u a = .ok u := by
    unfold socks5ConnectionClose
    rw [owned_eq (s := u) ho hopen, if_pos hending.closing]
  show Good (socks5ConnectionClose u a)
  rw [hclose]
  refine ⟨.clearClient a fd, b, ?_, h.allowed, ?_⟩
  · exact h.ground.advance h.allowed (h.ground.parts.stack _) rfl h.ground.clearing_nodup
      (fun _ _ => rfl) rfl rfl (Or.inr fun _ he => he)
  · rintro c ⟨⟩
    exact ⟨o, ho, hopen, hending, hrest⟩

theorem cancel_good (h : Ok s (.cancel a) b) :
    Good (socks5Cancel { s with stack := (Doing.clientClose a).frames ++ b.frames } a) := by
  obtain ⟨o, ho, hopen, hclosing, hfd, -⟩ := h.stage a rfl
  let u : Server := { s with stack := (Doing.clientClose a).frames ++ b.frames }
  let o' : Socks5 := { o with cancelled := true }
  show Good (socks5Cancel u a)
  unfold socks5Cancel
  by_cases hlocked : u.locked a = true
  · rw [if_pos hlocked]
    exact good_unreal
  · rw [if_neg hlocked, owned_eq (s := u) ho hopen]
    have hparts : Parts none (u.set a o') s.jobs (b.pending s.jobs) ([] ++ b.clearing) :=
      (h.ground.parts.stack _).set ho ⟨rfl, rfl, rfl, rfl, rfl, rfl, rfl⟩ rfl
        (Or.inr ⟨rfl, by simpa using hlocked⟩) (fun hclosing => hclosing)
    exact set_good (d := .clientClose a) h.ground h.allowed rfl h.allowed hparts rfl
      h.ground.clearing_nodup rfl rfl rfl (Or.inr fun _ he => he) hopen ⟨⟨hclosing, rfl⟩, hfd⟩

/-- The entries that are being cleared are not those of a connection that
believes to be registered. -/
theorem registered_entry {o : Socks5} {side : Side} {cs : List ℕ} {jobs pending : List BlockingJob}
    (h : Parts none s jobs pending cs) (ho : s.heap a = some o)
    (hreg : sideRegistered side o = true) (hfd : sideFd side o = some fd) :
    ∃ it, s.items fd = some it ∧ fd ∉ cs ∧ it.handler = handlerOf side ∧ it.data = some a := by
  obtain ⟨e, it, he, hit, hclear, hhandler, hdata⟩ := h.entries.registered a o side ho hreg
  obtain rfl := Option.some.inj (he.symm.trans hfd)
  exact ⟨it, hit, hclear, hhandler, hdata⟩

theorem clientClose_good (h : Ok s (.clientClose a) b) :
    Good (clientClose { s with stack := (Doing.originClose a).frames ++ b.frames } a) := by
  obtain ⟨o, ho, hopen, hending, fd, hfd⟩ := h.stage a rfl
  let u : Server := { s with stack := (Doing.originClose a).frames ++ b.frames }
  have hu : Parts none u s.jobs (b.pending s.jobs) b.clearing := h.ground.parts.stack _
  show Good (clientClose u a)
  unfold clientClose
  rw [owned_eq (s := u) ho hopen]
  split
  next hnone => exact absurd (hnone.symm.trans hfd) (by simp)
  next e he =>
    obtain rfl := Option.some.inj (he.symm.trans hfd)
    by_cases hreg : o.clientRegistered = true
    · rw [if_pos hreg]
      have hreg' : sideRegistered .client o = true := hreg
      have hfd' : sideFd .client o = some e := hfd
      obtain ⟨it, hit, hclear, hhandler, hdata⟩ := registered_entry hu ho hreg' hfd'
      have hsame : ({ { o with clientRegistered := false } with clientRegistered := false } :
          Socks5) = { o with clientRegistered := false } := rfl
      obtain ⟨t, ht, hparts, hheap, hitems, hworkers, hjobs, hstack⟩ :=
        hu.unregister_client hit hclear hhandler hdata ho hopen [.clientCloseFd a e] hsame
      rw [ht]
      apply set_good (d := .reenter a e) h.ground h.allowed rfl h.allowed hparts hstack _ hheap
        hworkers hjobs _ hopen ⟨⟨hending.closing, hending.cancelled⟩, rfl, hfd⟩
      · exact List.nodup_cons.mpr ⟨hclear, h.ground.clearing_nodup⟩
      · right
        intro c hc
        rw [hitems]
        exact hc
    · rw [if_neg hreg]
      refine ⟨.clientCloseFd a e, b, ?_, h.allowed, ?_⟩
      · exact h.ground.advance h.allowed (h.ground.parts.stack _) rfl h.ground.clearing_nodup
          (fun _ _ => rfl) rfl rfl (Or.inr fun _ he => he)
      · rintro c ⟨⟩
        exact ⟨o, ho, hopen, hending, by simpa using hreg, hfd⟩

/-- An entry of the work on `a` is cleared. -/
theorem clear_good {d : Doing} (d' : Doing) (h : Ok s d b) (hd : d.subject = some a)
    (hd' : d'.subject = some a) (hallowed : Allowed b d') (hb : b.closes = true)
    (hcs : d.clearing = [fd]) (hcs' : d'.clearing = [])
    (hstage : ∀ n o, d.Stage b n o → d'.Stage b n o) :
    Good (.ok (Server.setItem { s with stack := d'.frames ++ b.frames } fd none)) := by
  obtain ⟨o, ho, hopen, hst⟩ := h.stage a hd
  have hground := h.ground
  rw [hd] at hground
  have hnodup := hground.clearing_nodup
  have hparts := hground.parts
  rw [hcs] at hnodup hparts
  obtain ⟨hclear, hnodup⟩ := List.nodup_cons.mp hnodup
  refine ⟨d', b, ?_, hallowed, ?_⟩
  · rw [hd', hcs']
    apply hground.advance hb ((hparts.stack (d'.frames ++ b.frames)).clear hclear) rfl hnodup
      (fun _ _ => rfl) rfl rfl
    right
    intro e he
    show Function.update s.items fd none e = none
    by_cases hfd : e = fd
    · rw [hfd, Function.update_self]
    · rw [Function.update_of_ne hfd]
      exact he
  · intro c hc
    obtain rfl := Option.some.inj (hd'.symm.trans hc)
    exact ⟨o, ho, hopen, hstage _ o hst⟩

theorem clientCloseFd_good (h : Ok s (.clientCloseFd a fd) b) :
    Good (clientCloseFd { s with stack := (Doing.originClose a).frames ++ b.frames } a fd) := by
  obtain ⟨o, ho, hopen, hending, hunreg, hfd⟩ := h.stage a rfl
  let u : Server := { s with stack := (Doing.originClose a).frames ++ b.frames }
  have hu : Parts none u s.jobs (b.pending s.jobs) b.clearing := h.ground.parts.stack _
  have hunreg' : sideRegistered .client o = false := hunreg
  have hfd' : sideFd .client o = some fd := hfd
  obtain ⟨t, ht, hparts, hheap, hitems, hcalm⟩ :=
    hu.close_side ho hopen hfd' hunreg' (Or.inl hending.closing)
  show Good (clientCloseFd u a fd)
  unfold clientCloseFd
  rw [owned_eq (s := u) ho hopen, ht]
  show Good (.ok (t.set a (if o.clientFd = some fd then { o with clientFd := none } else o)))
  rw [if_pos hfd]
  have hstack : t.stack = (Doing.originClose a).frames ++ b.frames := hcalm.stack
  have hheap' : (t.set a { o with clientFd := none }).heap =
      Function.update s.heap a (some { o with clientFd := none }) := by
    show Function.update t.heap a _ = _
    rw [hheap]
  apply set_good (d := .originClose a) h.ground h.allowed rfl h.allowed hparts hstack
    h.ground.clearing_nodup hheap' hcalm.workers hcalm.jobs _ hopen
    ⟨⟨hending.closing, hending.cancelled⟩, hunreg, rfl⟩
  exact Or.inr fun e he => (congrFun hitems e).trans he

theorem originClose_good (h : Ok s (.originClose a) b) :
    Good (originClose { s with stack := (Doing.release a).frames ++ b.frames } a) := by
  obtain ⟨o, ho, hopen, hending, hunreg, hnone⟩ := h.stage a rfl
  let u : Server := { s with stack := (Doing.release a).frames ++ b.frames }
  have hu : Parts none u s.jobs (b.pending s.jobs) b.clearing := h.ground.parts.stack _
  show Good (originClose u a)
  unfold originClose
  rw [owned_eq (s := u) ho hopen]
  split
  next fd hreg hfd =>
    have hreg' : sideRegistered .origin o = true := hreg
    have hfd' : sideFd .origin o = some fd := hfd
    obtain ⟨it, hit, hclear, hhandler, hdata⟩ := registered_entry hu ho hreg' hfd'
    have hsame : ({ { o with originRegistered := false } with originRegistered := false } :
        Socks5) = { o with originRegistered := false } := rfl
    obtain ⟨t, ht, hparts, hheap, hitems, hworkers, hjobs, hstack⟩ :=
      hu.unregister_origin hit hclear hhandler hdata ho hopen [.originCloseFd a] hsame
    rw [ht]
    apply set_good (d := .clearOrigin a fd) h.ground h.allowed rfl h.allowed hparts hstack _ hheap
      hworkers hjobs _ hopen ⟨⟨hending.closing, hending.cancelled⟩, hunreg, hnone, rfl⟩
    · exact List.nodup_cons.mpr ⟨hclear, h.ground.clearing_nodup⟩
    · exact Or.inr fun e he => (congrFun hitems e).trans he
  next hother =>
    -- what is registered has a descriptor
    have hreg : o.originRegistered = false := by
      by_contra hreg
      have hreg' : o.originRegistered = true := by simpa using hreg
      obtain ⟨fd, it, hfd, -⟩ := hu.entries.registered a o .origin ho hreg'
      exact hother fd hreg' hfd
    refine ⟨.originCloseFd a, b, ?_, h.allowed, ?_⟩
    · exact h.ground.advance h.allowed (h.ground.parts.stack _) rfl h.ground.clearing_nodup
        (fun _ _ => rfl) rfl rfl (Or.inr fun _ he => he)
    · rintro c ⟨⟩
      exact ⟨o, ho, hopen, hending, hunreg, hnone, hreg⟩

theorem originCloseFd_good (h : Ok s (.originCloseFd a) b) :
    Good (originCloseFd { s with stack := (Doing.release a).frames ++ b.frames } a) := by
  obtain ⟨o, ho, hopen, hending, hunreg, hnone, hreg⟩ := h.stage a rfl
  let u : Server := { s with stack := (Doing.release a).frames ++ b.frames }
  have hu : Parts none u s.jobs (b.pending s.jobs) b.clearing := h.ground.parts.stack _
  have hunregistered : ∀ side, sideRegistered side o = false := by
    intro side
    cases side with
    | client => exact hunreg
    | origin => exact hreg
  show Good (originCloseFd u a)
  unfold originCloseFd
  rw [owned_eq (s := u) ho hopen]
  split
  next hfd =>
    refine ⟨.release a, b, ?_, h.allowed, ?_⟩
    · exact h.ground.advance h.allowed (h.ground.parts.stack _) rfl h.ground.clearing_nodup
        (fun _ _ => rfl) rfl rfl (Or.inr fun _ he => he)
    · rintro c ⟨⟩
      refine ⟨o, ho, hopen, hending.closing, hending.cancelled, ?_, hunregistered⟩
      intro side
      cases side with
      | client => exact hnone
      | origin => exact hfd
  next fd hfd =>
    have hfd' : sideFd .origin o = some fd := hfd
    obtain ⟨t, ht, hparts, hheap, hitems, hcalm⟩ :=
      hu.close_side ho hopen hfd' (hunregistered .origin) (Or.inl hending.closing)
    rw [ht]
    have hstack : t.stack = (Doing.release a).frames ++ b.frames := hcalm.stack
    have hheap' : (t.set a { o with originFd := none }).heap =
        Function.update s.heap a (some { o with originFd := none }) := by
      show Function.update t.heap a _ = _
      rw [hheap]
    have hgone : Gone { o with originFd := none } := by
      refine ⟨hending.closing, hending.cancelled, ?_, ?_⟩
      · intro side
        cases side with
        | client => exact hnone
        | origin => rfl
      · intro side
        have hside := hunregistered side
        cases side <;> exact hside
    exact set_good (d := .release a) h.ground h.allowed rfl h.allowed hparts hstack
      h.ground.clearing_nodup hheap' hcalm.workers hcalm.jobs
      (Or.inr fun e he => (congrFun hitems e).trans he) hopen hgone

theorem release_good (h : Ok s (.release a) b) :
    Good (ownerRelease { s with stack := b.frames } a) := by
  obtain ⟨o, ho, hopen, hgone⟩ := h.stage a rfl
  let u : Server := { s with stack := b.frames }
  have hu : Parts none u s.jobs (b.pending s.jobs) b.clearing := h.ground.parts.stack _
  obtain ⟨t, ht, hparts, hcalm, hitems, hheap, hreleased⟩ := hu.owner_release ho hopen hgone
  show Good (ownerRelease u a)
  rw [ht]
  have hground : Ground t b [] [] (some a) :=
    h.ground.advance h.allowed hparts hcalm.stack h.ground.clearing_nodup hheap hcalm.workers
      hcalm.jobs (Or.inr fun e he => (congrFun hitems e).trans he)
  refine ⟨.nothing, b, hground.drop h.allowed ?_, trivial, ?_⟩
  · intro p hp hrel
    exact absurd (hrel.symm.trans (hreleased p hp)) (by simp)
  · rintro c ⟨⟩

end SocksProxy.ServerClosing
