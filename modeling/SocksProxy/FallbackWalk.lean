import SocksProxy.DialFrames

/-!
The walk over the addresses of a domain name. It is split between the loop of
start_resolved_connect and the write handler of the origin; the invariant says
where it stands after each event, and what is left of the list.
-/
namespace SocksProxy.FallbackWalk

open ByteBuffer Hello Auth Request UserTable Kernel Stm ConnState Connect Connection
open Stages Dialing Reading RequestReads OriginStages Turns RelayHandlers Lifetime Pending Runs
open Attempts DialFrames

section Walk

variable {error : ℤ} {ais : List AddrInfo} {queued : Bool} {t₀ u : List Call} {c c' k : Conn}
  {ts tries : List Try} {e : Event} {sys : Sys} {r : Status × Conn} {n : ℕ}

/-- Five bytes come before the code of the reply. -/
def codeOf (bytes : List UInt8) : Option UInt8 := bytes[5]?

/-- The reply code that the client has got, or that is stored for it. -/
def replyCode (c : Conn) : Option UInt8 :=
  codeOf (sent .client c.trace ++ bufferReadPtr c.writeBuffer)

/-- Where the walk over `ais` stands: its result is still queued, an attempt is
under way, the reply is stored, the relay runs, or the connection is closed. -/
inductive Walk (error : ℤ) (ais : List AddrInfo) (queued : Bool) (t₀ : List Call) (c : Conn)
    (tries : List Try) : Prop
  | waiting {l : Login} {address : List UInt8} {port : UInt8 × UInt8}
      (hfits : Fits (.connecting l SOCKS5_ATYP_DOMAINNAME address port) c) (hnone : NoOrigin c)
      (hlookup : lookupOf c = (error, ais)) (hnext : c.dnsNext = ais)
      (hjob : c.dnsJob = if queued then .queued else .idle) (htries : tries = [])
      (hcalls : dialCalls c.trace = dialCalls t₀)
  | dialing {l : Login} {address : List UInt8} {port : UInt8 × UInt8}
      (hfits : Fits (.connecting l SOCKS5_ATYP_DOMAINNAME address port) c)
      (hhas : HasOrigin OP_WRITE c) (hjob : c.dnsJob = .idle) (hlookup : lookupOf c = (error, ais))
      (herror : error = 0) (hnext : c.dnsNext = ais.drop tries.length)
      (hrec : Record error ais tries) (hlatest : latest tries = .inProgress)
      (hfd : c.originFd = latestFd tries) (hqueued : queued = true)
      (hcalls : dialCalls c.trace = dialCalls t₀ ++ tries.flatMap Try.calls)
  | answered {l : Login} {message : List UInt8} {code : UInt8} {bind : Option (SockAddr × ℕ)}
      (hfits : Fits (.reply l message code bind) c) (hrec : Record error ais tries)
      (hbegun : error = 0 → tries ≠ [])
      (hlatest : latest tries ≠ .inProgress) (hcode : code = connectReplyFromErrno (latest tries))
      (hfd : isFailed (latest tries) = false → c.originFd = latestFd tries)
      (hqueued : queued = true)
      (hcalls : dialCalls c.trace = dialCalls t₀ ++ tries.flatMap Try.calls)
  | relaying {t : List Call} (hrel : Relaying t c)
      (hsent : codeOf (sent .client c.trace) = some SOCKS5_REPLY_SUCCEEDED)
      (hrec : Record error ais tries) (hlatest : latest tries = .ok)
      (hfd : c.originFd = latestFd tries) (hqueued : queued = true)
      (hcalls : dialCalls c.trace = dialCalls t₀ ++ tries.flatMap Try.calls)
  | closed (hclosed : Closed c) (hrec : Record error ais tries)
      (hcalls : dialCalls t₀ ++ tries.flatMap Try.calls <+: dialCalls c.trace)
      (hsent : ∀ code, codeOf (sent .client c.trace) = some code →
        (error = 0 → tries ≠ []) ∧ latest tries ≠ .inProgress ∧
          code = connectReplyFromErrno (latest tries))

theorem codeOf_append {bytes : List UInt8} {code : UInt8} (h : codeOf bytes = some code)
    (more : List UInt8) : codeOf (bytes ++ more) = some code := by
  obtain ⟨hlt, -⟩ := List.getElem?_eq_some_iff.mp h
  rw [codeOf, List.getElem?_append_left hlt]
  exact h

/-- The byte of a beginning is the byte of the whole. -/
theorem codeOf_prefix {bytes whole : List UInt8} {code : UInt8} (h : bytes <+: whole)
    (hcode : codeOf bytes = some code) : codeOf whole = some code := by
  obtain ⟨more, rfl⟩ := h
  exact codeOf_append hcode more

theorem codeOf_reply (l : Login) (message : List UInt8) (code : UInt8)
    (bind : Option (SockAddr × ℕ)) :
    codeOf (Stage.reply l message code bind).output = some code := by
  obtain ⟨atyp, addr, port, heq, -⟩ := replyMessage_cases code bind
  rw [Stage.output, heq]
  rfl

theorem codeOf_connecting (l : Login) (atyp : UInt8) (address : List UInt8)
    (port : UInt8 × UInt8) : codeOf (Stage.connecting l atyp address port).output = none := rfl

theorem ne_nil_of_ok (h : latest tries = .ok) : tries ≠ [] := by
  rintro rfl
  exact absurd h (by simp [latest, latestOr])

theorem ne_nil_of_inProgress (h : latest tries = .inProgress) : tries ≠ [] := by
  rintro rfl
  exact absurd h (by simp [latest, latestOr])

/-- The loop has tried an address, unless there was none left. -/
theorem walked_ne_nil {err : Errno} (hw : Walked sys 0 err (ais.drop ts.length) k r n)
    (hne : ais ≠ []) : ts ++ tryAll sys 0 (((ais.drop ts.length).take n).map AddrInfo.addr) ≠ [] := by
  intro hnil
  obtain ⟨rfl, htry⟩ := List.append_eq_nil_iff.mp hnil
  have hstatus := hw.status_eq
  rw [htry] at hstatus
  have hall : n = ais.length := hw.all_of_failed (by rw [hstatus]; rfl)
  have hlen := congrArg List.length htry
  rw [tryAll_length, List.length_map, List.length_take, hall] at hlen
  simp [hne] at hlen

/-- The walk after a connect function has made its attempts. -/
theorem walk_of_follows (ts : List Try) {l : Login} {address : List UInt8} {port : UInt8 × UInt8}
    {err : Errno}
    (hne : ais ≠ [])
    (hfol : Follows r c') (hw : Walked sys 0 err (ais.drop ts.length) k r n)
    (hts : AllFailed ais ts) (hlast : n = 0 → latest ts = .failed err)
    (hlookup : lookupOf k = (error, ais)) (herror : error = 0) (hqueued : queued = true)
    (hcalls : dialCalls k.trace = dialCalls t₀ ++ ts.flatMap Try.calls)
    (hfits : Fits (.connecting l SOCKS5_ATYP_DOMAINNAME address port) c' ∨
      ∃ message code bind, Fits (.reply l message code bind) c') :
    Walk error ais queued t₀ c'
      (ts ++ tryAll sys 0 (((ais.drop ts.length).take n).map AddrInfo.addr)) := by
  obtain ⟨hrec, hlatest⟩ := hw.record hts hlast herror
  have hcalls' : dialCalls c'.trace = dialCalls t₀ ++
      (ts ++ tryAll sys 0 (((ais.drop ts.length).take n).map AddrInfo.addr)).flatMap Try.calls := by
    rw [hfol.trace_eq, hw.trace_eq, dialCalls_append, hcalls, dialCalls_flatMap,
      List.flatMap_append, List.append_assoc]
  have hlookup' : lookupOf c' = (error, ais) := hfol.lookup_eq.trans (hw.lookup_eq.trans hlookup)
  have hfd : isFailed r.1 = false → c'.originFd =
      latestFd (ts ++ tryAll sys 0 (((ais.drop ts.length).take n).map AddrInfo.addr)) := by
    intro hnot
    have hne : tryAll sys 0 (((ais.drop ts.length).take n).map AddrInfo.addr) ≠ [] := by
      intro hnil
      have hst := hw.status_eq
      rw [hnil] at hst
      rw [hst] at hnot
      exact absurd hnot (by simp [latestOr, isFailed])
    rw [hfol.fd_eq, hw.fd_eq hnot, latestFd_append _ hne]
  rcases hfits with hfits | ⟨message, code, bind, hfits⟩
  · have hcur : c'.current = some .connecting := hfits.parsed.1
    obtain ⟨hprog, -⟩ : r.1 = .inProgress ∧ c'.current = some .connecting := by
      rcases hfol.state with h | ⟨-, hcur', -⟩
      · exact h
      · exact absurd (hcur'.symm.trans hcur) (by decide)
    rw [hprog] at hlatest hfd
    have hnot : isFailed (latest (ts ++
        tryAll sys 0 (((ais.drop ts.length).take n).map AddrInfo.addr))) = false := by
      rw [hlatest]
      rfl
    have hsome := latestFd_isSome hnot
    rw [← hfd rfl] at hsome
    obtain ⟨hhas, hjob⟩ : HasOrigin OP_WRITE c' ∧ c'.dnsJob = .idle := by
      rcases hfits.parsed.2.2.2.2 with h | hnone
      · exact h
      · rw [hnone.1] at hsome
        exact absurd hsome (by decide)
    refine .dialing hfits hhas hjob hlookup' herror ?_ hrec hlatest (hfd rfl) hqueued hcalls'
    rw [hfol.next_eq, hw.next_eq, List.drop_drop, List.length_append, tryAll_length,
      List.length_map, List.length_take, Nat.min_eq_left hw.le]
  · have hcur : c'.current = some .requestWrite := hfits.parsed.1
    obtain ⟨hdone, -, hreply⟩ : r.1 ≠ .inProgress ∧ c'.current = some .requestWrite ∧
        c'.requestReply = connectReplyFromErrno r.1 := by
      rcases hfol.state with ⟨-, hcur'⟩ | h
      · exact absurd (hcur'.symm.trans hcur) (by decide)
      · exact h
    refine .answered hfits hrec (fun _ => walked_ne_nil hw hne) ?_ ?_ ?_ hqueued hcalls'
    · rw [hlatest]
      exact hdone
    · rw [hlatest, ← hreply]
      exact hfits.parsed.2.1.symm
    · rw [hlatest]
      exact hfd

/-- What getaddrinfo returns: an error, or at least one address, all for streams
since the hints ask for them. -/
structure Resolved (error : ℤ) (ais : List AddrInfo) : Prop where
  nonempty : error = 0 → ais ≠ []
  stream : ∀ ai ∈ ais, ai.stream = true

theorem startResolvedConnect_eq {left : List AddrInfo} (hlookup : lookupOf c = (error, ais))
    (herror : error = 0) (hne : ais ≠ []) (hnext : c.dnsNext = left) (sys : Sys) :
    startResolvedConnect sys c = resolvedLoop sys 0 .EHOSTUNREACH left c := by
  obtain ⟨herr, hres⟩ := Prod.mk.inj hlookup
  unfold startResolvedConnect
  rw [if_neg]
  · rw [hnext]
  · rw [herr, hres, herror]
    simp [hne]

/-- The stages a walk can be in after an event of CONNECTING. -/
theorem fits_of_answered {l : Login} {address : List UInt8} {port : UInt8 × UInt8}
    (h : Answered c c' l SOCKS5_ATYP_DOMAINNAME address port) :
    Fits (.connecting l SOCKS5_ATYP_DOMAINNAME address port) c' ∨
      ∃ message code bind, Fits (.reply l message code bind) c' := by
  obtain ⟨-, -, hfits | ⟨code, bind, hfits, -⟩⟩ := h
  · exact Or.inl hfits
  · exact Or.inr ⟨_, code, bind, hfits⟩

theorem open_of_answered {l : Login} {address : List UInt8} {port : UInt8 × UInt8}
    (h : Answered c c' l SOCKS5_ATYP_DOMAINNAME address port) :
    c'.closing = false ∧ c'.current ≠ some .error := by
  rcases fits_of_answered h with hfits | ⟨message, code, bind, hfits⟩
  · exact ⟨hfits.closing_eq, by rw [hfits.parsed.1]; simp⟩
  · exact ⟨hfits.closing_eq, by rw [hfits.parsed.1]; simp⟩

/-- The lookup is reported: the walk starts, or there is nothing to walk over. -/
theorem waiting_blockDone {l : Login} {address : List UInt8} {port : UInt8 × UInt8}
    (hais : Resolved error ais)
    (hfits : Fits (.connecting l SOCKS5_ATYP_DOMAINNAME address port) c) (hnone : NoOrigin c)
    (hlookup : lookupOf c = (error, ais)) (hnext : c.dnsNext = ais) (hqueued : queued = true)
    (hcalls : dialCalls c.trace = dialCalls t₀) (sys : Sys) :
    Walk error ais queued t₀ (socksv5BlockDone sys { c with dnsJob := .idle })
      (observe c (socksv5BlockDone sys { c with dnsJob := .idle }) (.blockDone sys) []) := by
  have hans := blockDone_spec sys hfits hnone
  have hfol := blockDone_follows sys { c with dnsJob := .idle } (open_of_answered hans).1
  have hconn : connectToOrigin sys { c with dnsJob := .idle, dnsPending := false } =
      startResolvedConnect sys { c with dnsJob := .idle, dnsPending := false } := by
    obtain ⟨herr, hres⟩ := Prod.mk.inj hlookup
    have hatyp : c.request.atyp = SOCKS5_ATYP_DOMAINNAME := hfits.parsed.2.2.1.atyp_eq
    have hresult : c.dnsResult ≠ [] ∨ c.dnsError ≠ 0 := by
      by_cases herror : error = 0
      · exact Or.inl (hres ▸ hais.nonempty herror)
      · exact Or.inr (herr ▸ herror)
    simp [connectToOrigin, hatyp, hresult, SOCKS5_ATYP_IPV4, SOCKS5_ATYP_IPV6,
      SOCKS5_ATYP_DOMAINNAME]
  replace hfol : Follows (startResolvedConnect sys { c with dnsJob := .idle, dnsPending := false })
      (socksv5BlockDone sys { c with dnsJob := .idle }) := by
    rw [← hconn]
    exact hfol
  by_cases herror : error = 0
  · rw [startResolvedConnect_eq (c := { c with dnsJob := .idle, dnsPending := false }) hlookup
      herror (hais.nonempty herror) hnext] at hfol
    obtain ⟨n, hw⟩ := resolvedLoop_walked (c := { c with dnsJob := .idle, dnsPending := false })
      sys 0 .EHOSTUNREACH ais hais.stream hnext
    have hstages := fits_of_answered hans
    generalize socksv5BlockDone sys { c with dnsJob := .idle } = c' at hfol hstages ⊢
    have hobs : observe c c' (.blockDone sys) [] = tryAll sys 0 ((ais.take n).map AddrInfo.addr) := by
      have hdrop : c'.trace.drop c.trace.length =
          (tryAll sys 0 ((ais.take n).map AddrInfo.addr)).flatMap Try.calls := by
        rw [hfol.trace_eq, hw.trace_eq]
        exact List.drop_left ..
      simp only [observe, hdrop, made_calls, List.nil_append]
    rw [hobs]
    have hcalls' : dialCalls c.trace = dialCalls t₀ ++ ([] : List Try).flatMap Try.calls := by
      simpa using hcalls
    exact walk_of_follows [] (hais.nonempty herror) hfol hw (allFailed_nil ais) (fun _ => rfl) hlookup
      herror hqueued hcalls'
      hstages
  · have hst : startResolvedConnect sys { c with dnsJob := .idle, dnsPending := false } =
        (.failed .EHOSTUNREACH, { c with dnsJob := .idle, dnsPending := false }) := by
      obtain ⟨herr, -⟩ := Prod.mk.inj hlookup
      have hne : c.dnsError ≠ 0 := by
        rw [herr]
        exact herror
      simp [startResolvedConnect, hne]
    rw [hst] at hfol
    have hobs : observe c (socksv5BlockDone sys { c with dnsJob := .idle }) (.blockDone sys) [] =
        [] := by
      simp [observe, hfol.trace_eq, made, tryAll]
    rw [hobs]
    rcases fits_of_answered hans with hfits' | ⟨message, code, bind, hfits'⟩
    · rcases hfol.state with ⟨hprog, -⟩ | ⟨-, hcur, -⟩
      · exact absurd hprog (by simp)
      · exact absurd (hcur.symm.trans hfits'.parsed.1) (by decide)
    · refine .answered hfits' (record_nil error ais) (fun h => absurd h herror)
        (by simp [latest, latestOr]) ?_ ?_ hqueued ?_
      · rcases hfol.state with ⟨hprog, -⟩ | ⟨-, -, hreply⟩
        · exact absurd hprog (by simp)
        · exact hfits'.parsed.2.1.symm.trans hreply
      · exact fun hnot => absurd hnot (by simp [latest, latestOr, isFailed])
      · rw [hfol.trace_eq]
        simpa using hcalls

/-- The calls of an attempt that failed late: its socket is closed. -/
theorem settle_calls {t : Try} {err : Errno} (ht : t.status = .inProgress) :
    t.calls ++ [.close .origin] = (t.settle (.failed err)).calls := by
  have hfd : t.fd.isSome := Try.fd_isSome (by rw [ht]; rfl)
  simp [Try.calls, settle_status ht, ht, isFailed, hfd]

/-- The attempts known after the last one, still under way, turned out `status`. -/
theorem map_settle_snoc {t : Try} (hrec : Record error ais (ts ++ [t])) (status : Status) :
    (ts ++ [t]).map (Try.settle status) = ts ++ [t.settle status] := by
  have hts : ∀ t' ∈ ts, t'.status ≠ .inProgress := fun t' hmem =>
    (hrec.failed t' (by simpa using hmem)).ne
  rw [List.map_append, map_settle hts]
  rfl

theorem originConnectDrop_lookup (c : Conn) : lookupOf (originConnectDrop c) = lookupOf c ∧
    (originConnectDrop c).dnsNext = c.dnsNext := by
  unfold originConnectDrop
  dsimp only
  split <;> split <;> exact ⟨rfl, rfl⟩

/-- The fallback of the write handler, once the failed socket is closed. -/
theorem dropped_follows {k : Conn} {err : Errno} (sys : Sys) (hais : Resolved error ais)
    (herror : error = 0) (hlatest : latest ts = .failed err) (hnone : NoOrigin k)
    (hatyp : k.request.atyp = SOCKS5_ATYP_DOMAINNAME)
    (hcur : k.current = some .connecting) (hlookup : lookupOf k = (error, ais))
    (hnext : k.dnsNext = ais.drop ts.length)
    (hreply : k.requestReply = connectReplyFromErrno (.failed err))
    (hstored : (if k.request.atyp = SOCKS5_ATYP_DOMAINNAME ∧ k.dnsNext ≠ [] then
      originConnectNext sys k else originConnectReply sys k).current ≠ some .error) :
    ∃ lastError r n, Walked sys 0 lastError (ais.drop ts.length) k r n ∧
      (n = 0 → latest ts = .failed lastError) ∧
      Follows r (if k.request.atyp = SOCKS5_ATYP_DOMAINNAME ∧ k.dnsNext ≠ [] then
        originConnectNext sys k else originConnectReply sys k) := by
  have hstream : ∀ ai ∈ ais.drop ts.length, ai.stream = true := fun ai hmem =>
    hais.stream ai (List.mem_of_mem_drop hmem)
  by_cases hleft : k.dnsNext = []
  · -- no address is left: the error of the socket is the answer
    rw [if_neg (by simp [hleft])] at hstored ⊢
    have heq : { k with requestReply := connectReplyFromErrno (.failed err) } = k := by
      rw [← hreply]
    have hfol := originConnectReply_follows (.failed err) sys k (by simp)
      (by rw [heq]; exact hstored)
    rw [heq] at hfol
    rw [hnext] at hleft
    obtain ⟨n, hw⟩ := resolvedLoop_walked sys 0 err (ais.drop ts.length) hstream hnext
    have hloop : resolvedLoop sys 0 err (ais.drop ts.length) k = (.failed err, k) := by
      rw [hleft]
      rfl
    rw [hloop] at hw
    exact ⟨err, _, n, hw, fun _ => hlatest, hfol⟩
  · rw [if_pos ⟨hatyp, hleft⟩] at hstored ⊢
    have hst := startResolvedConnect_eq hlookup herror (hais.nonempty herror) hnext sys
    have hcur' : (startResolvedConnect sys k).2.current = some .connecting :=
      (field_of_core (fun x => x.current) (fun _ => rfl)
        (startResolvedConnect_spec sys hnone).1.core_eq).trans hcur
    have hfol := originConnectNext_follows sys k hcur' hstored
    obtain ⟨n, hw⟩ := resolvedLoop_walked sys 0 .EHOSTUNREACH (ais.drop ts.length) hstream hnext
    rw [hst] at hfol
    refine ⟨_, _, n, hw, ?_, hfol⟩
    rintro rfl
    -- at least one address is tried
    have hzero := hw.all_of_failed (by rw [hw.status_eq]; rfl)
    rw [hnext] at hleft
    exact absurd (List.length_eq_zero_iff.mp hzero.symm) hleft

/-- The socket of the last attempt is writable: it is connected, or the walk goes on. -/
theorem dialing_originWrite {l : Login} {address : List UInt8} {port : UInt8 × UInt8}
    (hais : Resolved error ais)
    (hfits : Fits (.connecting l SOCKS5_ATYP_DOMAINNAME address port) c)
    (hhas : HasOrigin OP_WRITE c) (hjob : c.dnsJob = .idle) (hlookup : lookupOf c = (error, ais))
    (herror : error = 0) (hnext : c.dnsNext = ais.drop tries.length)
    (hrec : Record error ais tries) (hlatest : latest tries = .inProgress)
    (hfd : c.originFd = latestFd tries) (hqueued : queued = true)
    (hcalls : dialCalls c.trace = dialCalls t₀ ++ tries.flatMap Try.calls) (sys : Sys) :
    Walk error ais queued t₀ (originWrite sys c)
      (observe c (originWrite sys c) (.originWrite sys) tries) := by
  have hans := originWrite_spec sys hfits hhas hjob
  have hstored := (open_of_answered hans).2
  have hstages := fits_of_answered hans
  have hhandler : originWrite sys c = originConnectWriteHandler sys c := by
    simp [originWrite, hfits.relay_eq]
  obtain ⟨ts, t, rfl⟩ : ∃ ts t, tries = ts ++ [t] := by
    rcases List.eq_nil_or_concat' tries with rfl | ⟨ts, t, rfl⟩
    · exact absurd hlatest (by simp [latest, latestOr])
    · exact ⟨ts, t, rfl⟩
  rw [latest_snoc] at hlatest
  rw [hhandler] at hstored hstages ⊢
  unfold originConnectWriteHandler at hstored hstages ⊢
  cases herr : originConnectError sys c with
  | inProgress =>
    -- SO_ERROR is 0 or an error
    unfold originConnectError at herr
    split at herr
    · exact absurd herr (by simp)
    · unfold soError at herr
      split at herr <;> exact absurd herr (by simp)
  | ok =>
    rw [herr] at hstored hstages
    simp only [ne_eq, not_true_eq_false, if_false] at hstored hstages ⊢
    have hfol : Follows (.ok, selectorSetInterest c .origin OP_NOOP) (originConnectReply sys
        (selectorSetInterest { c with requestReply := connectReplyFromErrno .ok } .origin OP_NOOP)) :=
      originConnectReply_follows .ok sys _ (by simp) hstored
    generalize originConnectReply sys (selectorSetInterest
      { c with requestReply := connectReplyFromErrno .ok } .origin OP_NOOP) = c' at hfol hstages ⊢
    have htrace : c'.trace = c.trace := hfol.trace_eq
    have hobs : observe c c' (.originWrite sys) (ts ++ [t]) = ts ++ [t.settle .ok] := by
      simp only [observe, htrace, List.drop_length, herr, map_settle_snoc hrec]
      simp [made, tryAll]
    rw [hobs]
    rcases hstages with hfits' | ⟨message, code, bind, hfits'⟩
    · rcases hfol.state with ⟨hprog, -⟩ | ⟨-, hcur, -⟩
      · exact absurd hprog (by simp)
      · exact absurd (hcur.symm.trans hfits'.parsed.1) (by decide)
    · have hlast : latest (ts ++ [t.settle .ok]) = .ok := by
        rw [latest_snoc, settle_status hlatest]
      have hreply : code = connectReplyFromErrno .ok := by
        rcases hfol.state with ⟨hprog, -⟩ | ⟨-, -, hreply⟩
        · exact absurd hprog (by simp)
        · exact hfits'.parsed.2.1.symm.trans hreply
      refine .answered hfits' (hrec.settle_ok hlatest) (fun _ => by simp) ?_ ?_ ?_ hqueued ?_
      · rw [hlast]
        simp
      · rw [hlast]
        exact hreply
      · intro _
        rw [latestFd_append _ (List.cons_ne_nil _ _)] at hfd ⊢
        exact hfol.fd_eq.trans (hfd.trans (settle_fd .ok t).symm)
      · have hcalls' : (t.settle .ok).calls = t.calls := by
          simp [Try.calls, settle_status hlatest, hlatest, isFailed]
        rw [htrace, List.flatMap_append, List.flatMap_singleton, hcalls', ← List.flatMap_singleton
          Try.calls t, ← List.flatMap_append]
        exact hcalls
  | failed err =>
    rw [herr] at hstored hstages
    simp only [ne_eq, reduceCtorEq, not_false_eq_true, if_true] at hstored hstages ⊢
    obtain ⟨hnone, hcore, -, hreply, htrace⟩ := originConnectDrop_spec
      (c := { c with requestReply := connectReplyFromErrno (.failed err) }) hhas
    obtain ⟨hlook, hnext'⟩ :=
      originConnectDrop_lookup { c with requestReply := connectReplyFromErrno (.failed err) }
    have hatyp := (congrArg RequestParser.atyp (request_of_core hcore)).trans
      hfits.parsed.2.2.1.atyp_eq
    have hcur := (field_of_core (fun x => x.current) (fun _ => rfl) hcore).trans hfits.parsed.1
    generalize originConnectDrop { c with requestReply := connectReplyFromErrno (.failed err) } = k
      at hnone hreply htrace hlook hnext' hatyp hcur hstored hstages ⊢
    have hts := hrec.settle_failed (e := err) hlatest
    have hlen : (ts ++ [t.settle (.failed err)]).length = (ts ++ [t]).length := by simp
    have hlast : latest (ts ++ [t.settle (.failed err)]) = .failed err := by
      rw [latest_snoc, settle_status hlatest]
    obtain ⟨lastError, r, n, hw, hfirst, hfol⟩ := dropped_follows sys hais herror hlast hnone
      hatyp hcur (hlook.trans hlookup) (by rw [hlen]; exact hnext'.trans hnext) hreply hstored
    have hcalls' : dialCalls k.trace =
        dialCalls t₀ ++ (ts ++ [t.settle (.failed err)]).flatMap Try.calls := by
      rw [htrace, dialCalls_append, hcalls, List.flatMap_append, List.flatMap_append,
        List.flatMap_singleton, List.flatMap_singleton, ← settle_calls hlatest]
      simp [dialCalls, isDial]
    have hwalk := walk_of_follows _ (hais.nonempty herror) hfol hw hts hfirst (hlook.trans hlookup)
      herror hqueued hcalls'
      hstages
    have hdrop := hfol.trace_eq.trans hw.trace_eq
    rw [htrace, List.append_assoc] at hdrop
    have hobs : ∀ c', c'.trace = c.trace ++ ([.close .origin] ++ (tryAll sys 0
          (((ais.drop (ts ++ [t.settle (.failed err)]).length).take n).map AddrInfo.addr)).flatMap
            Try.calls) →
        observe c c' (.originWrite sys) (ts ++ [t]) = ts ++ [t.settle (.failed err)] ++ tryAll sys 0
          (((ais.drop (ts ++ [t.settle (.failed err)]).length).take n).map AddrInfo.addr) := by
      intro c' hc'
      simp only [observe, hc', List.drop_left, herr, map_settle_snoc hrec]
      rw [made, dialled_append, dialled_flatMap, tryAll_addrs]
      rfl
    rw [hobs _ hdrop]
    exact hwalk

/-- A walk whose connection is closed by an event that does not dial. -/
theorem walk_closed (hkeeps : Keeps c c') (hclosed : Closed c') (hrec : Record error ais tries)
    (hcalls : dialCalls t₀ ++ tries.flatMap Try.calls <+: dialCalls c.trace)
    (hsent : ∀ code, codeOf (sent .client c'.trace) = some code →
      (error = 0 → tries ≠ []) ∧ latest tries ≠ .inProgress ∧
        code = connectReplyFromErrno (latest tries)) :
    Walk error ais queued t₀ c' tries :=
  .closed hclosed hrec (hcalls.trans hkeeps.dialCalls_prefix) hsent

/-- Nothing of a reply is out before there is one. -/
theorem connecting_sent {l : Login} {atyp : UInt8} {address : List UInt8} {port : UInt8 × UInt8}
    (hfits : Fits (.connecting l atyp address port) c)
    (hsent : sent .client c'.trace = sent .client c.trace)
    {code : UInt8} (hcode : codeOf (sent .client c'.trace) = some code) : False := by
  rw [hsent] at hcode
  have hwhole := codeOf_append hcode (bufferReadPtr c.writeBuffer)
  rw [hfits.sent_eq, codeOf_connecting] at hwhole
  exact absurd hwhole (by simp)

theorem closed_sent (c : Conn) : sent .client (closed c).trace = sent .client c.trace := by
  obtain ⟨v, hv, hclose⟩ := closed_calls c
  have hnil : sent .client v = [] := by
    refine List.flatMap_eq_nil_iff.mpr fun call hmem => ?_
    obtain ⟨side, rfl⟩ := hclose call hmem
    rfl
  rw [hv, sent_append, hnil, List.append_nil]

/-- The events that can reach a connection in CONNECTING besides those of the walk. -/
theorem waiting_step {l : Login} {address : List UInt8} {port : UInt8 × UInt8}
    (hais : Resolved error ais)
    (hfits : Fits (.connecting l SOCKS5_ATYP_DOMAINNAME address port) c) (hnone : NoOrigin c)
    (hlookup : lookupOf c = (error, ais)) (hnext : c.dnsNext = ais)
    (hjob : c.dnsJob = if queued then .queued else .idle)
    (hcalls : dialCalls c.trace = dialCalls t₀) (hstep : Step c e c') :
    Walk error ais queued t₀ c' (observe c c' e []) := by
  obtain ⟨hen, heq⟩ := hstep
  have hitem : c.clientItem = some OP_NOOP := hfits.clientItem_eq
  have horigin : ∀ op, ¬ armed c.originItem op := by
    rintro op ⟨i, hi, -⟩
    exact absurd (hnone.2.1.symm.trans hi) (by simp)
  cases e with
  | clientRead sys => exact absurd hen (not_armed_noop hitem rfl)
  | clientWrite sys => exact absurd hen (not_armed_noop hitem rfl)
  | originRead sys => exact absurd hen (horigin _)
  | originWrite sys => exact absurd hen (horigin _)
  | blockDone sys =>
    obtain rfl := Option.some.inj heq
    have hqueued : queued = true := by
      by_contra hqueued
      have hqueue := hen.1
      rw [hjob, if_neg hqueued] at hqueue
      exact absurd hqueue (by decide)
    exact waiting_blockDone hais hfits hnone hlookup hnext hqueued hcalls sys
  | dnsFinished error result queued' =>
    have hres : c.dnsJob = .resolving := hen
    rw [hjob] at hres
    split at hres <;> exact absurd hres (by decide)
  | connectFinished outcome =>
    obtain rfl := Option.some.inj heq
    exact .waiting { hfits with parsed := hfits.parsed } hnone hlookup hnext hjob rfl hcalls
  | addUser name pass =>
    obtain rfl := Option.some.inj heq
    exact .waiting { hfits with parsed := hfits.parsed } hnone hlookup hnext hjob rfl hcalls
  | removeUser name =>
    obtain rfl := Option.some.inj heq
    exact .waiting { hfits with parsed := hfits.parsed } hnone hlookup hnext hjob rfl hcalls
  | forceClose =>
    have hkeeps := keeps_close c
    obtain rfl := Option.some.inj heq
    show Walk error ais queued t₀ (socks5ConnectionClose c) []
    refine walk_closed hkeeps ?_ (record_nil error ais) (by simp [hcalls]) ?_
    · rw [fits_close_eq hfits]
      exact closed_spec c
    · intro code hcode
      rw [fits_close_eq hfits] at hcode
      exact (connecting_sent hfits (closed_sent c) hcode).elim

theorem dialing_step {l : Login} {address : List UInt8} {port : UInt8 × UInt8}
    (hais : Resolved error ais)
    (hfits : Fits (.connecting l SOCKS5_ATYP_DOMAINNAME address port) c)
    (hhas : HasOrigin OP_WRITE c) (hjob : c.dnsJob = .idle) (hlookup : lookupOf c = (error, ais))
    (herror : error = 0) (hnext : c.dnsNext = ais.drop tries.length)
    (hrec : Record error ais tries) (hlatest : latest tries = .inProgress)
    (hfd : c.originFd = latestFd tries) (hqueued : queued = true)
    (hcalls : dialCalls c.trace = dialCalls t₀ ++ tries.flatMap Try.calls) (hstep : Step c e c') :
    Walk error ais queued t₀ c' (observe c c' e tries) := by
  obtain ⟨hen, heq⟩ := hstep
  have hitem : c.clientItem = some OP_NOOP := hfits.clientItem_eq
  cases e with
  | clientRead sys => exact absurd hen (not_armed_noop hitem rfl)
  | clientWrite sys => exact absurd hen (not_armed_noop hitem rfl)
  | originRead sys =>
    obtain ⟨i, hi, hread⟩ := hen
    obtain rfl := Option.some.inj (hhas.2.1.symm.trans hi)
    exact absurd hread (by decide)
  | originWrite sys =>
    obtain rfl := Option.some.inj heq
    exact dialing_originWrite hais hfits hhas hjob hlookup herror hnext hrec hlatest hfd hqueued
      hcalls sys
  | blockDone sys => exact absurd (hjob.symm.trans hen.1) (by decide)
  | dnsFinished error result queued' => exact absurd (hjob.symm.trans hen) (by decide)
  | connectFinished outcome =>
    obtain rfl := Option.some.inj heq
    exact .dialing { hfits with parsed := hfits.parsed } hhas hjob hlookup herror hnext hrec hlatest
      hfd hqueued hcalls
  | addUser name pass =>
    obtain rfl := Option.some.inj heq
    exact .dialing { hfits with parsed := hfits.parsed } hhas hjob hlookup herror hnext hrec hlatest
      hfd hqueued hcalls
  | removeUser name =>
    obtain rfl := Option.some.inj heq
    exact .dialing { hfits with parsed := hfits.parsed } hhas hjob hlookup herror hnext hrec hlatest
      hfd hqueued hcalls
  | forceClose =>
    have hkeeps := keeps_close c
    obtain rfl := Option.some.inj heq
    show Walk error ais queued t₀ (socks5ConnectionClose c) tries
    refine walk_closed hkeeps ?_ hrec (hcalls ▸ List.prefix_rfl) ?_
    · rw [fits_close_eq hfits]
      exact closed_spec c
    · intro code hcode
      rw [fits_close_eq hfits] at hcode
      exact (connecting_sent hfits (closed_sent c) hcode).elim

/-- Once the reply is stored, no event dials. -/
theorem keeps_reply {l : Login} {message : List UInt8} {code : UInt8} {bind : Option (SockAddr × ℕ)}
    (hfits : Fits (.reply l message code bind) c) (hstep : Step c e c') :
    Keeps c c' ∧ ∀ sys, e ≠ .originWrite sys := by
  obtain ⟨hen, heq⟩ := hstep
  have hjob : c.dnsJob = .idle := hfits.parsed.2.2.2.1
  have horigin : ∀ op, op OP_NOOP = false → ¬ armed c.originItem op := by
    intro op hop
    have hrest := hfits.parsed.2.2.2.2
    split at hrest
    · exact not_armed_noop hrest.1.2.1 hop
    · rintro ⟨i, hi, -⟩
      exact absurd (hrest.2.1.symm.trans hi) (by simp)
  cases e with
  | clientRead sys =>
    obtain ⟨i, hi, hread⟩ := hen
    obtain rfl := Option.some.inj (hfits.clientItem_eq.symm.trans hi)
    exact absurd hread (by simp [Stage.interest, OP_WRITE])
  | clientWrite sys =>
    exact ⟨keeps_socksv5Write sys (Or.inr hfits.parsed.1) heq, by simp⟩
  | originRead sys => exact absurd hen (horigin _ rfl)
  | originWrite sys => exact absurd hen (horigin _ rfl)
  | blockDone sys => exact absurd (hjob.symm.trans hen.1) (by decide)
  | dnsFinished error result queued' => exact absurd (hjob.symm.trans hen) (by decide)
  | connectFinished outcome =>
    obtain rfl := Option.some.inj heq
    exact ⟨keeps_of_eq rfl rfl rfl, by simp⟩
  | addUser name pass =>
    obtain rfl := Option.some.inj heq
    exact ⟨keeps_of_eq rfl rfl rfl, by simp⟩
  | removeUser name =>
    obtain rfl := Option.some.inj heq
    exact ⟨keeps_of_eq rfl rfl rfl, by simp⟩
  | forceClose =>
    obtain rfl := Option.some.inj heq
    exact ⟨keeps_close c, by simp⟩

theorem answered_step {l : Login} {message : List UInt8} {code : UInt8}
    {bind : Option (SockAddr × ℕ)} (hfits : Fits (.reply l message code bind) c)
    (hrec : Record error ais tries) (hbegun : error = 0 → tries ≠ [])
    (hlatest : latest tries ≠ .inProgress) (hcode : code = connectReplyFromErrno (latest tries))
    (hfd : isFailed (latest tries) = false → c.originFd = latestFd tries) (hqueued : queued = true)
    (hcalls : dialCalls c.trace = dialCalls t₀ ++ tries.flatMap Try.calls) (hstep : Step c e c') :
    Walk error ais queued t₀ c' (observe c c' e tries) := by
  obtain ⟨hkeeps, hevent⟩ := keeps_reply hfits hstep
  rw [observe_keeps hkeeps fun ⟨sys, he⟩ => absurd he (hevent sys)]
  obtain ⟨k, u, hk, hu, hout⟩ := negotiation_step hfits hstep.1
  rw [hstep.2, Option.some.injEq] at hk
  subst hk
  cases hout with
  | turn hfits' hturn =>
    cases hturn with
    | wait hbuffer hsock =>
      obtain ⟨hdial, hfd'⟩ := hkeeps.dialCalls_eq hfits'.closing_eq
      exact .answered hfits' hrec hbegun hlatest hcode (fun h => hfd'.trans (hfd h)) hqueued
        (hdial.trans hcalls)
  | ended hended =>
    refine walk_closed hkeeps hended.closed_spec hrec (hcalls ▸ List.prefix_rfl) ?_
    intro code' hcode'
    have hwhole := codeOf_prefix hended.sent_prefix hcode'
    rw [codeOf_reply, Option.some.injEq] at hwhole
    exact ⟨hbegun, hlatest, hwhole ▸ hcode⟩
  | begins hbegins =>
    have hok : latest tries = .ok := (connectReplyFromErrno_eq_succeeded _).mp hcode.symm
    obtain ⟨hdial, hfd'⟩ := hkeeps.dialCalls_eq hbegins.relaying.running.closing_eq
    refine .relaying hbegins.relaying ?_ hrec hok (hfd'.trans (hfd (by rw [hok]; rfl))) hqueued
      (hdial.trans hcalls)
    obtain ⟨atyp, address, port, -, -, dest, rfl⟩ := hbegins.request
    have hsent := hbegins.sent_eq
    rw [hu.trace_eq, ← List.singleton_append, ← List.append_assoc, sent_append, hsent]
    exact codeOf_append (codeOf_reply _ _ _ _) _

theorem relaying_step {t : List Call} (hrel : Relaying t c)
    (hsent : codeOf (sent .client c.trace) = some SOCKS5_REPLY_SUCCEEDED)
    (hrec : Record error ais tries) (hlatest : latest tries = .ok)
    (hfd : c.originFd = latestFd tries) (hqueued : queued = true)
    (hcalls : dialCalls c.trace = dialCalls t₀ ++ tries.flatMap Try.calls) (hstep : Step c e c') :
    Walk error ais queued t₀ c' (observe c c' e tries) := by
  have hkeeps := keeps_relay hrel.running.relay_eq hrel.running.job_eq hstep
  have hsettled := hrec.settled (by rw [hlatest]; simp)
  rw [observe_keeps hkeeps fun _ => hsettled]
  obtain ⟨k, u, hk, hu⟩ := relay_step hrel hstep.1 (fun _ => True.intro)
  rw [hstep.2, Option.some.injEq] at hk
  subst hk
  have hsent' : codeOf (sent .client c'.trace) = some SOCKS5_REPLY_SUCCEEDED := by
    rw [hu.trace_eq, sent_append]
    exact codeOf_append hsent _
  rcases hu.goes with hrel' | ⟨hclosed, -⟩
  · obtain ⟨hdial, hfd'⟩ := hkeeps.dialCalls_eq hrel'.running.closing_eq
    exact .relaying hrel' hsent' hrec hlatest (hfd'.trans hfd) hqueued (hdial.trans hcalls)
  · refine walk_closed hkeeps hclosed hrec (hcalls ▸ List.prefix_rfl) ?_
    intro code hcode
    rw [hsent', Option.some.injEq] at hcode
    rw [← hcode, hlatest]
    exact ⟨fun _ => ne_nil_of_ok hlatest, by simp, rfl⟩

/-- The step lemma of the walk. -/
theorem walk_step (hais : Resolved error ais) (h : Walk error ais queued t₀ c tries)
    (hstep : Step c e c') : Walk error ais queued t₀ c' (observe c c' e tries) := by
  cases h with
  | waiting hfits hnone hlookup hnext hjob htries hcalls =>
    subst htries
    exact waiting_step hais hfits hnone hlookup hnext hjob hcalls hstep
  | dialing hfits hhas hjob hlookup herror hnext hrec hlatest hfd hqueued hcalls =>
    exact dialing_step hais hfits hhas hjob hlookup herror hnext hrec hlatest hfd hqueued hcalls hstep
  | answered hfits hrec hbegun hlatest hcode hfd hqueued hcalls =>
    exact answered_step hfits hrec hbegun hlatest hcode hfd hqueued hcalls hstep
  | relaying hrel hsent hrec hlatest hfd hqueued hcalls =>
    exact relaying_step hrel hsent hrec hlatest hfd hqueued hcalls hstep
  | closed hclosed hrec hcalls hsent =>
    obtain ⟨k, hk, hstill⟩ := closed_step hclosed hstep.1
    rw [hstep.2, Option.some.injEq] at hk
    subst hk
    have hkeeps : Keeps c c' := by
      refine ⟨[], by rw [hstill.trace_eq, List.append_nil], rfl, fun hopen => ?_⟩
      exact absurd (hstill.closed_spec.closing_eq.symm.trans hopen) (by decide)
    rw [observe_keeps hkeeps]
    · refine walk_closed hkeeps hstill.closed_spec hrec hcalls ?_
      rw [hstill.trace_eq]
      exact hsent
    · rintro ⟨sys, rfl⟩
      obtain ⟨i, hi, -⟩ := hstep.1
      exact absurd (hclosed.originItem_eq.symm.trans hi) (by simp)

end Walk

end SocksProxy.FallbackWalk
