import SocksProxy.MonServer

/-!
Every request of an authenticated monitor gets one response, which the client
decodes whole: the names of LIST_USERS and the counters of GET_METRICS are the
server's.
-/
namespace SocksProxy.ResponseFrames

open ByteBuffer ByteScan BigEndian UserTable MonProtocol MonFormat MonParsing AccessReport MonServer

/-- A parser that has read a message holds its request. -/
theorem parsed_of_done {p : MonParser} {l : List UInt8}
    (hends : Ends monParserFeed (fun p => monParserIsDone p.state) (monParserInit p) l)
    (hdone : (feedAll monParserFeed (monParserInit p) l).state = .done) :
    ∃ args, Parsed (feedAll monParserFeed (monParserInit p) l).request.cmd args
      (feedAll monParserFeed (monParserInit p) l) := by
  rcases mon_ends_cases hends with herror | ⟨cmd, args, hcount, hargs, rfl⟩
  · rw [hdone] at herror
    exact absurd herror (by decide)
  · have hparsed := (mon_ends_message p cmd hcount hargs).2
    exact ⟨args, by rw [hparsed.cmd_eq]; exact hparsed⟩

/-- The frame in the write buffer is decoded to the answer. -/
theorem responded_decode {a : Answer} {conn : MonConn} {r : Server × MonConn}
    (h : Responded a conn r) :
    ∃ out, monResponseDecode (bufferReadPtr r.2.writeBuffer) =
        .ok out (bufferReadPtr r.2.writeBuffer).length ∧
      out.status = a.status ∧ out.bytes = a.payload := by
  obtain ⟨wb, rfl, hread, hlimit⟩ := h
  have hfit := bufferReadPtr_length_add_le wb
  rw [hread, hlimit, monFrame_length] at hfit
  have hlen : a.payload.length < 65536 := by
    unfold MON_IO_BUF_SIZE at hfit
    omega
  obtain ⟨out, hout, -, hstatus, -, hbytes, -⟩ := monResponseDecode_frame hlen a.status []
  rw [List.append_nil] at hout
  exact ⟨out, by rw [hread]; exact hout, hstatus, hbytes⟩

theorem answer_list {s : Server} {args : List (List UInt8)} :
    answer s true MON_CMD_LIST_USERS args = ⟨s, true, MON_STATUS_OK, usersPayload s.users⟩ := by
  simp [answer, MON_CMD_LIST_USERS, MON_CMD_AUTH, MON_CMD_ADD_USER, MON_CMD_DEL_USER]

theorem answer_metrics {s : Server} {args : List (List UInt8)} :
    answer s true MON_CMD_GET_METRICS args =
      ⟨s, true, MON_STATUS_OK, metricsPayload s.metrics⟩ := by
  simp [answer, MON_CMD_GET_METRICS, MON_CMD_LIST_USERS, MON_CMD_AUTH, MON_CMD_ADD_USER,
    MON_CMD_DEL_USER]

theorem answer_log {s : Server} {args : List (List UInt8)} :
    answer s true MON_CMD_GET_ACCESS_LOG args = ⟨s, true, MON_STATUS_OK, logPayload s⟩ := by
  simp [answer, MON_CMD_GET_ACCESS_LOG, MON_CMD_GET_METRICS, MON_CMD_LIST_USERS, MON_CMD_AUTH,
    MON_CMD_ADD_USER, MON_CMD_DEL_USER]

theorem usersPayload_format {s : Server} (hs : s.Sound) :
    monFormatUsers (some (usersPayload s.users)) = (userNames s.users, true) := by
  have hcount := userNames_length s.users
  unfold MAX_USERS at hcount
  exact monFormatUsers_names (by omega) hs.names.length_le

/-- The payload of GET_ACCESS_LOG is well formed, and it is not empty. -/
theorem logPayload_format {s : Server} (hs : s.Sound) :
    logPayload s ≠ [] ∧ ∃ rows, monFormatAccessLog (some (logPayload s)) = (rows, true) := by
  obtain ⟨kept, payload, hle, hpayload, ⟨-, hoff, htake⟩, -⟩ :=
    @accessLogPayload_spec _ hs.log s.stack.toList Vector.length_toList
  have hlog : logPayload s = putBe (UInt64.ofNat kept) 2 ++
      ((s.log.contents.rtake kept).map entryRow).flatMap LogRow.bytes := by
    rw [logPayload, hpayload]
    exact htake
  have hrows : ((s.log.contents.rtake kept).map entryRow).length = kept := by
    rw [List.length_map, List.rtake, List.length_drop, Circular.CircularArray.contents_length]
    omega
  have hcount := s.log.count_le
  unfold AccessLog.MAX_LOG_ENTRIES at hcount
  have hfield : ∀ r ∈ (s.log.contents.rtake kept).map entryRow,
      r.user.length ≤ 255 ∧ r.addr.length ≤ 255 := by
    intro r hr
    obtain ⟨e, he, rfl⟩ := List.mem_map.mp hr
    exact hs.log e (List.drop_subset _ _ he)
  have hformat := monFormatAccessLog_rows (by omega) hfield
  rw [hrows, ← hlog] at hformat
  refine ⟨?_, _, hformat⟩
  rw [hlog]
  have hlen := putBe_length (UInt64.ofNat kept) 2
  intro hnil
  rw [(List.append_eq_nil_iff.mp hnil).1] at hlen
  exact absurd hlen (by simp)

/-- Every request that the parser delivers to an authenticated connection leaves
one frame in the write buffer; a listing holds the active names in table order
and the metrics are the current counters. -/
theorem every_request_answered {s : Server} (hs : s.Reachable) {conn : MonConn}
    (hauth : conn.authenticated = true) (hready : Ready conn.writeBuffer) {p : MonParser}
    {l : List UInt8}
    (hends : Ends monParserFeed (fun p => monParserIsDone p.state) (monParserInit p) l)
    (hparser : conn.parser = feedAll monParserFeed (monParserInit p) l)
    (hdone : conn.parser.state = .done) :
    ∃ out, monResponseDecode (bufferReadPtr (monProcessRequest s conn).2.writeBuffer) =
        .ok out (bufferReadPtr (monProcessRequest s conn).2.writeBuffer).length ∧
      (conn.parser.request.cmd = MON_CMD_LIST_USERS →
        out.status = MON_STATUS_OK ∧ monFormatUsers out.slice = (userNames s.users, true)) ∧
      (conn.parser.request.cmd = MON_CMD_GET_METRICS →
        out.status = MON_STATUS_OK ∧ monFormatMetrics out.slice =
          some (s.metrics.historicConnections, s.metrics.currentConnections,
            s.metrics.bytesTransferred)) := by
  rw [hparser] at hdone
  obtain ⟨args, hparsed⟩ := parsed_of_done hends hdone
  rw [← hparser] at hparsed
  have hresponded := monProcessRequest_answer hs.sound hready hparsed
  obtain ⟨out, hout, hstatus, hbytes⟩ := responded_decode hresponded
  rw [hauth] at hstatus hbytes
  refine ⟨out, hout, ?_, ?_⟩
  · intro hcmd
    rw [hcmd, answer_list] at hstatus hbytes
    have hslice := MonResponse.slice_eq (r := out) (by rw [hbytes]; simp [usersPayload])
    refine ⟨hstatus, ?_⟩
    rw [hslice, hbytes]
    exact usersPayload_format hs.sound
  · intro hcmd
    rw [hcmd, answer_metrics] at hstatus hbytes
    have hpos : 0 < (metricsPayload s.metrics).length := by
      simp only [metricsPayload, List.length_append, putBe_length]
      omega
    have hslice := MonResponse.slice_eq (r := out) (by
      rw [hbytes]
      exact List.length_pos_iff.mp hpos)
    refine ⟨hstatus, ?_⟩
    rw [hslice, hbytes]
    exact monFormatMetrics_counters _ _ _

/-- A listing of the table after one user was added. -/
theorem every_request_answered_list :
    let s := ServerCall.run serverInit (.addUser [97, 98] [99])
    let conn : MonConn :=
      { monConnInit with
        authenticated := true
        parser := feedAll monParserFeed (monParserInit monParserZero) [1, 3, 0] }
    ∃ out, monResponseDecode (bufferReadPtr (monProcessRequest s conn).2.writeBuffer) =
        .ok out (bufferReadPtr (monProcessRequest s conn).2.writeBuffer).length ∧
      monFormatUsers out.slice = (userNames s.users, true) := by
  intro s conn
  obtain ⟨out, hout, hlist, -⟩ := @every_request_answered s
    ⟨[.addUser [97, 98] [99]], rfl⟩ conn rfl ⟨bufferReadPtr_init _, bufferWritePtr_init _,
      bufferLimit_init _⟩ monParserZero [1, 3, 0] (by decide) rfl (by decide)
  exact ⟨out, hout, (hlist (by decide)).2⟩

end SocksProxy.ResponseFrames
