import SocksProxy.FallbackWalk

/-!
Fallback over the addresses of a domain name, from the result of its lookup on:
what was attempted, what became of the sockets, and what the client is told.
-/
namespace SocksProxy.Fallback

open ByteBuffer Hello Auth Request UserTable Kernel Stm ConnState Connect Connection
open Stages Dialing OriginStages RelayHandlers Lifetime Pending Runs
open Attempts DialFrames FallbackWalk

section Main

variable {error : ℤ} {ais : List AddrInfo} {queued : Bool} {t₀ : List Call} {a b c : Conn}
  {tries : List Try}

/-- The lookup returned `error` and `ais`, the calls until then were `t₀`, and the
attempts made since are `tries`. -/
structure FallsBack (error : ℤ) (ais : List AddrInfo) (queued : Bool) (t₀ : List Call) (c : Conn)
    (tries : List Try) : Prop where
  /-- The addresses in the order of the list, each at most once, none skipped. -/
  in_order : tries.map Try.addr <+: ais.map AddrInfo.addr
  /-- None is tried after a success. -/
  after_failures : ∀ t ∈ tries.dropLast, t.Failed
  /-- Once the result was reported, the first address has been tried. -/
  begun : error = 0 → c.closing = false → queued = true → c.dnsJob = .idle → tries ≠ []
  /-- While all fail, none is left out. -/
  exhausted : tries ≠ [] → (∀ t ∈ tries, t.Failed) → tries.map Try.addr = ais.map AddrInfo.addr
  /-- The sockets of failed attempts are closed, one after the other. -/
  sockets : ∃ v, dialCalls c.trace = dialCalls t₀ ++ tries.flatMap Try.calls ++ v ∧
    (c.closing = false → v = [])
  unregistered : (∀ t ∈ tries, t.Failed) → c.originItem = none ∧ (c.closing = false → NoOrigin c)
  /-- The socket of the attempt that did not fail is the origin's. -/
  registered : c.closing = false → ∀ t, tries.getLast? = some t → ¬ t.Failed →
    c.originFd = t.fd ∧ t.fd.isSome ∧ c.originItem.isSome ∧ c.originRegistered = true
  /-- A reply is stored once the lookup was reported and no attempt is under way. -/
  reply : c.closing = false →
    replyCode c = if queued = true ∧ c.dnsJob = .idle then answer tries else none
  sent : ∀ code, codeOf (sent .client c.trace) = some code →
    answer tries = some code ∧ (error = 0 → tries ≠ [])
  succeeds_iff : answer tries = some SOCKS5_REPLY_SUCCEEDED ↔ ∃ t ∈ tries, t.status = .ok
  unresolved : error ≠ 0 → tries = [] ∧ answer tries = some SOCKS5_REPLY_HOST_UNREACHABLE

/-- The last attempt, when it has not failed, against the origin socket. -/
theorem registered_of_fd {t : Try} (ht : tries.getLast? = some t) (hnot : ¬ t.Failed)
    (hfd : isFailed (latest tries) = false → c.originFd = latestFd tries) :
    c.originFd = t.fd ∧ t.fd.isSome := by
  have hlatest : latest tries = t.status := by rw [latest, latestOr, ht]; rfl
  have hstatus : isFailed t.status = false := by
    rw [← Bool.not_eq_true, ← Try.failed_iff]
    exact hnot
  have hlast : latestFd tries = t.fd := by rw [latestFd, ht]; rfl
  exact ⟨(hfd (hlatest ▸ hstatus)).trans hlast, Try.fd_isSome hstatus⟩

theorem not_all_failed (h : isFailed (latest tries) = false) : ¬ ∀ t ∈ tries, t.Failed := by
  intro hall
  rw [latest_failed hall] at h
  cases h

theorem walk_fallsBack (h : Walk error ais queued t₀ c tries) :
    FallsBack error ais queued t₀ c tries := by
  cases h with
  | waiting hfits hnone hlookup hnext hjob htries hcalls =>
    subst htries
    have hrec := record_nil error ais
    have hcode : replyCode c = none := by
      rw [replyCode, hfits.sent_eq]
      rfl
    refine ⟨hrec.in_list, hrec.failed, ?_, hrec.all, ⟨[], by simp [hcalls], fun _ => rfl⟩,
      fun _ => ⟨hnone.2.1, fun _ => hnone⟩, by simp, ?_, ?_, hrec.succeeds_iff,
      hrec.unresolved_answer⟩
    · intro _ _ hqueued hidle
      rw [hjob, if_pos hqueued] at hidle
      exact absurd hidle (by decide)
    · intro _
      rw [hcode, if_neg]
      rintro ⟨rfl, hidle⟩
      rw [hjob] at hidle
      exact absurd hidle (by decide)
    · exact fun code hsent => (connecting_sent hfits rfl hsent).elim
  | dialing hfits hhas hjob hlookup herror hnext hrec hlatest hfd hqueued hcalls =>
    have hcode : replyCode c = none := by
      rw [replyCode, hfits.sent_eq]
      rfl
    refine ⟨hrec.in_list, hrec.failed, fun _ _ _ _ => ne_nil_of_inProgress hlatest, hrec.all,
      ⟨[], by simp [hcalls], fun _ => rfl⟩, ?_, ?_, ?_, ?_, hrec.succeeds_iff,
      hrec.unresolved_answer⟩
    · exact fun hall => (not_all_failed (by rw [hlatest]; rfl) hall).elim
    · intro _ t ht hnot
      obtain ⟨heq, hsome⟩ := registered_of_fd ht hnot fun _ => hfd
      exact ⟨heq, hsome, by rw [hhas.2.1]; rfl, hhas.2.2⟩
    · intro _
      rw [hcode, if_pos ⟨hqueued, hjob⟩, answer, hlatest]
    · exact fun code hsent => (connecting_sent hfits rfl hsent).elim
  | @answered l message code bind hfits hrec hbegun hlatest hcode hfd hqueued hcalls =>
    obtain ⟨-, -, -, hjob, horigin⟩ := hfits.parsed
    have hanswer : answer tries = some code := by rw [answer_of_ne hlatest, hcode]
    refine ⟨hrec.in_list, hrec.failed, fun herror _ _ _ => hbegun herror, hrec.all,
      ⟨[], by simp [hcalls], fun _ => rfl⟩, ?_, ?_, ?_, ?_, hrec.succeeds_iff,
      hrec.unresolved_answer⟩
    · intro hall
      have hne : code ≠ SOCKS5_REPLY_SUCCEEDED := by
        rw [hcode, ne_eq, connectReplyFromErrno_eq_succeeded]
        exact fun hok => not_all_failed (by rw [hok]; rfl) hall
      rw [if_neg hne] at horigin
      exact ⟨horigin.2.1, fun _ => horigin⟩
    · intro _ t ht hnot
      obtain ⟨heq, hsome⟩ := registered_of_fd ht hnot hfd
      split at horigin
      · exact ⟨heq, hsome, by rw [horigin.1.2.1]; rfl, horigin.1.2.2⟩
      · rw [horigin.1] at heq
        rw [← heq] at hsome
        exact absurd hsome (by decide)
    · intro _
      rw [if_pos ⟨hqueued, hjob⟩, hanswer, replyCode, hfits.sent_eq, codeOf_reply]
    · intro code' hsent
      have hwhole := codeOf_append hsent (bufferReadPtr c.writeBuffer)
      rw [hfits.sent_eq, codeOf_reply] at hwhole
      exact ⟨hanswer.trans hwhole, hbegun⟩
  | relaying hrel hsent hrec hlatest hfd hqueued hcalls =>
    have hrun := hrel.running
    have hanswer : answer tries = some SOCKS5_REPLY_SUCCEEDED := by
      rw [answer, hlatest]
      rfl
    refine ⟨hrec.in_list, hrec.failed, fun _ _ _ _ => ne_nil_of_ok hlatest, hrec.all,
      ⟨[], by simp [hcalls], fun _ => rfl⟩, ?_, ?_, ?_, ?_, hrec.succeeds_iff,
      hrec.unresolved_answer⟩
    · exact fun hall => (not_all_failed (by rw [hlatest]; rfl) hall).elim
    · intro _ t ht hnot
      obtain ⟨heq, hsome⟩ := registered_of_fd ht hnot fun _ => hfd
      exact ⟨heq, hsome, hrun.originItem_isSome, hrun.originRegistered_eq⟩
    · intro _
      rw [if_pos ⟨hqueued, hrun.job_eq⟩, hanswer]
      exact codeOf_append hsent _
    · intro code hcode
      exact ⟨hanswer.trans (hsent.symm.trans hcode), fun _ => ne_nil_of_ok hlatest⟩
  | closed hclosed hrec hcalls hsent =>
    have hclosing : c.closing = false → False := fun hopen =>
      absurd (hclosed.closing_eq.symm.trans hopen) (by decide)
    obtain ⟨v, hv⟩ := hcalls
    refine ⟨hrec.in_list, hrec.failed, fun _ hopen => (hclosing hopen).elim, hrec.all,
      ⟨v, hv.symm, fun hopen => (hclosing hopen).elim⟩,
      fun _ => ⟨hclosed.originItem_eq, fun hopen => (hclosing hopen).elim⟩,
      fun hopen => (hclosing hopen).elim, fun hopen => (hclosing hopen).elim, ?_,
      hrec.succeeds_iff, hrec.unresolved_answer⟩
    intro code hcode
    obtain ⟨hbegun, hne, rfl⟩ := hsent code hcode
    exact ⟨answer_of_ne hne, hbegun⟩

/-- A worker stores what getaddrinfo returned in an open connection. -/
theorem walk_start {error : ℤ} {ais : List AddrInfo} {queued : Bool} (h : Phase True a)
    (hasks : Asks a) (hopen : a.closing = false) (hstep : Step a (.dnsFinished error ais queued) b) :
    Walk error ais queued b.trace b [] := by
  obtain ⟨hen, heq⟩ := hstep
  have hres : a.dnsJob = .resolving := hen
  have hrelay : a.relayStarted = false := by
    by_contra hrelay
    obtain ⟨t, -, hrel⟩ := relaying_of_open h hopen (by simpa using hrelay)
    exact absurd (hrel.running.job_eq.symm.trans hres) (by decide)
  obtain ⟨s, hfits, -⟩ := fits_of_open h hopen hrelay
  obtain ⟨l, atyp, address, port, rfl, hnone⟩ := queued_connecting hfits (by rw [hres]; decide)
  obtain rfl := Option.some.inj heq
  have hatyp : atyp = SOCKS5_ATYP_DOMAINNAME :=
    hfits.parsed.2.2.1.atyp_eq.symm.trans (hasks hres)
  subst hatyp
  have hstore : dnsWorkerStore error ais queued a = { a with
      dnsPending := false, dnsError := error, dnsResult := ais, dnsNext := ais
      dnsJob := if queued then .queued else .idle } := by
    simp [dnsWorkerStore, hfits.cancelled_eq]
  rw [hstore]
  obtain ⟨hcur, hvalid, hread, huname, -⟩ := hfits.parsed
  exact .waiting { hfits with parsed := ⟨hcur, hvalid, hread, huname, Or.inr hnone⟩ } hnone rfl rfl
    rfl rfl rfl

/-- A chronicled step as a partial function. -/
def chronicle (a : Conn × List Try) (e : Event) : Option (Conn × List Try) :=
  (dispatch a.1 e).map fun c => (c, observe a.1 c e a.2)

theorem chronicled_of_chronicle {a b : Conn × List Try} {e : Event} (h : chronicle a e = some b) :
    Chronicled a e b := by
  obtain ⟨c, hc, rfl⟩ := Option.map_eq_some_iff.mp h
  exact ⟨step_of_dispatch hc, rfl⟩

/-- Two addresses for the name. -/
def twoAddresses : List AddrInfo :=
  [⟨true, .inet #v[10, 0, 0, 1] #v[0, 80]⟩, ⟨true, .inet #v[10, 0, 0, 2] #v[0, 80]⟩]

/-- A kernel whose connect() answers `status` on socket `fd`. -/
def connecting (fd : ℕ) (status : Status) : Sys :=
  { granting .eof 6 with
    attempt := fun _ => { socket := .ok fd, setNio := none, connect := status, register := true } }

/-- The first address refuses the connection after a while, the second takes it. -/
def fallingBack : List Event :=
  [.blockDone (connecting 6 .inProgress), .connectFinished (some .ECONNREFUSED),
    .originWrite (connecting 7 .ok)]

end Main

end SocksProxy.Fallback
