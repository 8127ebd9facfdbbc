import SocksProxy.MonParsing

/-!
The two ends of a monitor request: what mon_request_encode writes and what
mon_parser_consume reads, from chunks of any size. A parser that finishes has
read the encoding of its own request and nothing more.
-/
namespace SocksProxy.RequestCodec

open ByteBuffer ByteScan Hello Auth MonProtocol MonParsing

/-- Chunks are stored and consumed one by one until the parser is done; the
later ones are left. One that does not fit is left too. -/
def monParserDeliver : List (List UInt8) → Buffer → MonParser →
    Buffer × MonParser × Bool × List (List UInt8)
  | [], b, p => (b, p, false, [])
  | chunk :: chunks, b, p =>
    if h : chunk.length ≤ bufferWritePtr b then
      let (b', p', errored) := monParserConsume (bufferPut b chunk h) p
      if monParserIsDone p'.state then (b', p', errored, chunks)
      else monParserDeliver chunks b' p'
    else (b, p, false, chunk :: chunks)

section Chunks

private abbrev MonPartial (p : MonParser) (l : List UInt8) : Prop :=
  Partial monParserFeed (fun p => monParserIsDone p.state) p l

private theorem consume_nothing {b : Buffer} (h : bufferReadPtr b = []) (p : MonParser) :
    monParserConsume b p = (b, p, false) := by
  rw [monParserConsume, consume, h]
  rfl

private theorem init_unfinished (p : MonParser) {seen : List UInt8}
    (h : MonPartial (monParserInit p) seen) :
    monParserIsDone (feedAll monParserFeed (monParserInit p) seen).state = false := by
  by_cases hnil : seen = []
  · rw [hnil]
    rfl
  · exact h.unfinished hnil

/-- A buffer that is empty has its whole array free. -/
private def Drained (b : Buffer) : Prop := bufferReadPtr b = [] ∧ bufferWritePtr b = bufferLimit b

/-- One chunk: a drained buffer is drained again, or the message has ended. -/
private theorem deliver_step (p : MonParser) {seen : List UInt8}
    (hseen : MonPartial (monParserInit p) seen) {b : Buffer} (hb : Drained b) (chunk : List UInt8)
    (h : chunk.length ≤ bufferWritePtr b) :
    (MonPartial (monParserInit p) (seen ++ chunk) ∧
      ∃ b', monParserConsume (bufferPut b chunk h) (feedAll monParserFeed (monParserInit p) seen) =
          (b', feedAll monParserFeed (monParserInit p) (seen ++ chunk), false) ∧
        Drained b' ∧ bufferLimit b' = bufferLimit b) ∨
    ∃ m r, seen ++ chunk = m ++ r ∧
      Ends monParserFeed (fun p => monParserIsDone p.state) (monParserInit p) m ∧
      ∃ b', monParserConsume (bufferPut b chunk h) (feedAll monParserFeed (monParserInit p) seen) =
          (b', feedAll monParserFeed (monParserInit p) m,
            monParserIsErrored (feedAll monParserFeed (monParserInit p) m).state) ∧
        bufferReadPtr b' = r := by
  have hput : bufferReadPtr (bufferPut b chunk h) = chunk := by
    rw [bufferReadPtr_put, hb.1, List.nil_append]
  by_cases hnil : chunk = []
  · left
    subst hnil
    rw [List.append_nil]
    refine ⟨hseen, bufferPut b [] h, consume_nothing hput _, ⟨hput, ?_⟩, bufferLimit_put b [] h⟩
    rw [bufferWritePtr_put, bufferLimit_put, hb.2]
    rfl
  · rcases consume_cases monParserErrored_done hseen (by rw [hput]; exact hnil) with
      ⟨hpart, b', heq, hrest⟩ | ⟨m, r, hsplit, hends, b', heq, hrest⟩
    · left
      rw [hput] at hpart heq
      refine ⟨hpart, b', heq, ⟨hrest.contents_eq, ?_⟩, ?_⟩
      · rw [hrest.room_eq, hrest.limit_eq, if_pos rfl]
      · rw [hrest.limit_eq, bufferLimit_put]
    · right
      rw [hput] at hsplit
      exact ⟨m, r, hsplit, hends, b', heq, hrest.contents_eq⟩

/-- All the chunks: none ended the message, or it ended in one of them and what
follows its last byte is in the buffer and in the chunks that are left. -/
private theorem deliver_cases (p : MonParser) (chunks : List (List UInt8)) (seen : List UInt8)
    (hseen : MonPartial (monParserInit p) seen) {b : Buffer} (hb : Drained b)
    (hfit : ∀ chunk ∈ chunks, chunk.length ≤ bufferLimit b) :
    (MonPartial (monParserInit p) (seen ++ chunks.flatten) ∧
      ∃ b', monParserDeliver chunks b (feedAll monParserFeed (monParserInit p) seen) =
          (b', feedAll monParserFeed (monParserInit p) (seen ++ chunks.flatten), false, [])) ∨
    ∃ m r, seen ++ chunks.flatten = m ++ r ∧
      Ends monParserFeed (fun p => monParserIsDone p.state) (monParserInit p) m ∧
      ∃ b' later, monParserDeliver chunks b (feedAll monParserFeed (monParserInit p) seen) =
          (b', feedAll monParserFeed (monParserInit p) m,
            monParserIsErrored (feedAll monParserFeed (monParserInit p) m).state, later) ∧
        bufferReadPtr b' ++ later.flatten = r := by
  induction chunks generalizing seen b with
  | nil =>
    left
    rw [List.flatten_nil, List.append_nil]
    exact ⟨hseen, b, rfl⟩
  | cons chunk chunks ih =>
    have hroom : chunk.length ≤ bufferWritePtr b := by
      rw [hb.2]
      exact hfit chunk List.mem_cons_self
    rw [List.flatten_cons, ← List.append_assoc, monParserDeliver, dif_pos hroom]
    rcases deliver_step p hseen hb chunk hroom with
      ⟨hpart, b', heq, hb', hlimit⟩ | ⟨m, r, hsplit, hends, b', heq, hrest⟩
    · rw [heq]
      dsimp only
      rw [init_unfinished p hpart, if_neg Bool.false_ne_true]
      apply ih (seen ++ chunk) hpart hb'
      intro c hc
      rw [hlimit]
      exact hfit c (List.mem_cons_of_mem _ hc)
    · right
      rw [heq]
      dsimp only
      rw [if_pos hends.finished]
      refine ⟨m, r ++ chunks.flatten, ?_, hends, b', chunks, rfl, by rw [hrest]⟩
      rw [hsplit, List.append_assoc]

end Chunks

/-- The fields that the two requests share, and the arguments of one stored in
the other with a NUL behind each. -/
structure SameRequest (sent read : MonRequest) : Prop where
  version_eq : read.version = sent.version
  cmd_eq : read.cmd = sent.cmd
  nargs_eq : read.nargs = sent.nargs
  lens_eq : read.lens = sent.lens
  args_eq : ∀ (i : ℕ) (a : List UInt8), sent.data[i]? = some a →
    ∃ v : Vector UInt8 256, read.args[i]? = some v ∧ Holds v (a ++ [0])

private theorem sameRequest_of_parsed {r : MonRequest} (hv : r.version = MON_VERSION) {p : MonParser}
    (h : Parsed r.cmd r.data p) : SameRequest r p.request where
  version_eq := h.version_eq.trans hv.symm
  cmd_eq := h.cmd_eq
  nargs_eq := UInt8.toNat_inj.mp (h.nargs_eq.trans r.data_length)
  lens_eq := h.lens_eq.trans r.data_ofNat
  args_eq := by
    intro i a ha
    obtain ⟨-, v, -, -, hv, hw⟩ := h.stored i a ha
    exact ⟨v, hv, hw⟩

theorem data_le (r : MonRequest) : ∀ a ∈ r.data, a.length ≤ 255 := by
  intro a ha
  have hmem : a.length ∈ r.lens.map UInt8.toNat := by
    rw [← r.data_lens]
    exact List.mem_map_of_mem ha
  obtain ⟨n, -, hn⟩ := List.mem_map.mp hmem
  have := n.toNat_lt
  omega

/-- Request codec: the encoding of a request, cut anywhere and followed by
anything, is consumed to its last byte and parsed back, whatever the parser held
before; every index stays in the arrays; and a parser that is done has consumed
the encoding of the request it holds. -/
theorem request_codec :
    (∀ r : MonRequest, r.version = MON_VERSION → ∀ bufLen,
      3 + r.nargs.toNat + (r.lens.map UInt8.toNat).sum ≤ bufLen →
      ∃ frame, monRequestEncode r bufLen = some frame ∧
        ∀ (p : MonParser) (b : Buffer) (chunks : List (List UInt8)) (rest : List UInt8),
          bufferReadPtr b = [] → bufferWritePtr b = bufferLimit b →
          (∀ chunk ∈ chunks, chunk.length ≤ bufferLimit b) → chunks.flatten = frame ++ rest →
          ∃ b' p' later, monParserDeliver chunks b (monParserInit p) = (b', p', false, later) ∧
            p'.state = .done ∧ bufferReadPtr b' ++ later.flatten = rest ∧
            SameRequest r p'.request) ∧
    (∀ (p : MonParser) (l : List UInt8),
      let p' := feedAll monParserFeed (monParserInit p) l
      p'.request.nargs.toNat ≤ MON_MAX_ARGS ∧
        (p'.state = .argLen ∨ p'.state = .argData → p'.currentArg < MON_MAX_ARGS)) ∧
    ∀ (p : MonParser) (b : Buffer) (chunks : List (List UInt8)),
      bufferReadPtr b = [] → bufferWritePtr b = bufferLimit b →
      (∀ chunk ∈ chunks, chunk.length ≤ bufferLimit b) →
      ∀ b' p' errored later,
        monParserDeliver chunks b (monParserInit p) = (b', p', errored, later) → p'.state = .done →
        ∃ frame, chunks.flatten = frame ++ (bufferReadPtr b' ++ later.flatten) ∧
          ∀ bufLen, frame.length ≤ bufLen → monRequestEncode p'.request bufLen = some frame := by
  refine ⟨?_, ?_, ?_⟩
  · intro r hv bufLen hfit
    have hdata := data_le r
    have hcount : r.data.length ≤ MON_MAX_ARGS := r.data_length ▸ r.nargs_le
    have hlen : (monMessage r.cmd r.data).length ≤ bufLen := by
      refine Nat.le_trans (Nat.le_of_eq ?_) hfit
      rw [monMessage, r.data_ofNat, ← r.data_lens]
      simp only [List.length_append, List.length_flatten, r.lens_length, List.length_cons,
        List.length_nil]
    refine ⟨monMessage r.cmd r.data, (monRequestEncode_eq r hv bufLen).trans (if_pos hlen), ?_⟩
    intro p b chunks rest hempty hfree hchunks hsplit
    obtain ⟨hends, hparsed⟩ := mon_ends_message p r.cmd hcount hdata
    rcases deliver_cases p chunks [] trivial ⟨hempty, hfree⟩ hchunks with
      ⟨hpart, -⟩ | ⟨m, rest', hsplit', hends', b', later, heq, hrest⟩
    · rw [List.nil_append, hsplit] at hpart
      exact absurd hends hpart.not_ends
    · rw [List.nil_append, hsplit] at hsplit'
      obtain ⟨rfl, rfl⟩ := hends.unique hends' hsplit'
      rw [hparsed.state_eq] at heq
      exact ⟨b', _, later, heq, hparsed.state_eq, hrest, sameRequest_of_parsed hv hparsed⟩
  · intro p l p'
    have hle := p'.request.nargs_le
    exact ⟨hle, fun hs => Nat.lt_of_lt_of_le (p'.currentArg_lt hs) hle⟩
  · intro p b chunks hempty hfree hchunks b' p' errored later heq hdone
    rcases deliver_cases p chunks [] trivial ⟨hempty, hfree⟩ hchunks with
      ⟨hpart, b'', heq'⟩ | ⟨m, rest, hsplit, hends, b'', later', heq', hrest⟩
    · have hp := congrArg (fun r => r.2.1) (heq.symm.trans heq')
      dsimp only at hp
      have hnot := init_unfinished p hpart
      rw [← hp, hdone] at hnot
      exact absurd hnot (by decide)
    · obtain ⟨rfl, rfl, rfl, rfl⟩ : b' = b'' ∧ p' = _ ∧ errored = _ ∧ later = later' := by
        simpa using heq.symm.trans heq'
      refine ⟨m, by rw [hrest]; exact hsplit, ?_⟩
      intro bufLen hfit
      rcases mon_ends_cases hends with herror | ⟨cmd, args, hcount, hargs, rfl⟩
      · rw [hdone] at herror
        exact absurd herror (by decide)
      · have hparsed := (mon_ends_message p cmd hcount hargs).2
        rw [monRequestEncode_eq _ hparsed.version_eq, hparsed.cmd_eq, hparsed.data_eq,
          if_pos hfit]

/-- An empty argument and one of three bytes, in three chunks, with a byte of
the next request behind them. -/
theorem request_codec_split :
    monRequestEncode ⟨MON_VERSION, MON_CMD_ADD_USER, 2, #v[0, 3],
      #v[Vector.replicate 256 0, Vector.replicate 256 65], by decide⟩ 1024 =
        some [1, 1, 2, 0, 3, 65, 65, 65] ∧
      ∃ b' p' later, monParserDeliver [[1, 1], [2, 0, 3, 65], [65, 65, 1]] (bufferInit 4096)
          (monParserInit monParserZero) = (b', p', false, later) ∧
        bufferReadPtr b' ++ later.flatten = [1] ∧ p'.request.cmd = MON_CMD_ADD_USER := by
  obtain ⟨frame, hframe, hdeliver⟩ := request_codec.1 ⟨MON_VERSION, MON_CMD_ADD_USER, 2, #v[0, 3],
    #v[Vector.replicate 256 0, Vector.replicate 256 65], by decide⟩ rfl 1024 (by decide)
  have heq : monRequestEncode ⟨MON_VERSION, MON_CMD_ADD_USER, 2, #v[0, 3],
      #v[Vector.replicate 256 0, Vector.replicate 256 65], by decide⟩ 1024 =
        some [1, 1, 2, 0, 3, 65, 65, 65] := by decide
  obtain rfl := Option.some.inj (hframe.symm.trans heq)
  obtain ⟨b', p', later, hrun, -, hrest, hsame⟩ := hdeliver monParserZero (bufferInit 4096)
    [[1, 1], [2, 0, 3, 65], [65, 65, 1]] [1] (by simp) (by simp) (by simp) (by decide)
  exact ⟨heq, b', p', later, hrun, hrest, hsame.cmd_eq⟩

end SocksProxy.RequestCodec
