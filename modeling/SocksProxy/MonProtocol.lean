import SocksProxy.BigEndian

/-!
mon_protocol.c: the frames of the monitoring protocol. A request is VER CMD
NARGS, the lengths of the arguments and then the arguments; a response is VER
STATUS, a 16-bit big-endian length and a payload.
-/
namespace SocksProxy.MonProtocol

open BigEndian

def MON_VERSION : UInt8 := 0x01

def MON_CMD_AUTH : UInt8 := 0x00
def MON_CMD_ADD_USER : UInt8 := 0x01
def MON_CMD_DEL_USER : UInt8 := 0x02
def MON_CMD_LIST_USERS : UInt8 := 0x03
def MON_CMD_GET_METRICS : UInt8 := 0x04
def MON_CMD_GET_ACCESS_LOG : UInt8 := 0x05

def MON_STATUS_OK : UInt8 := 0x00
def MON_STATUS_AUTH_FAIL : UInt8 := 0x01
def MON_STATUS_UNKNOWN_CMD : UInt8 := 0x02
def MON_STATUS_USER_EXISTS : UInt8 := 0x03
def MON_STATUS_USER_NOT_FOUND : UInt8 := 0x04
def MON_STATUS_INTERNAL_ERROR : UInt8 := 0x05

def MON_MAX_ARG_LEN : ℕ := 255
def MON_MAX_ARGS : ℕ := 2
def MON_RESPONSE_HEADER_LEN : ℕ := 4
def MON_METRICS_PAYLOAD_LEN : UInt16 := 24

section Request

/-- `struct mon_request`. Every writer of `nargs` keeps it in the arrays. -/
structure MonRequest where
  version : UInt8
  cmd : UInt8
  nargs : UInt8
  argLens : Vector UInt8 MON_MAX_ARGS
  args : Vector (Vector UInt8 256) MON_MAX_ARGS
  nargs_le : nargs.toNat ≤ MON_MAX_ARGS
  deriving DecidableEq

/-- The lengths of the arguments that are there. -/
def MonRequest.lens (r : MonRequest) : List UInt8 := r.argLens.toList.take r.nargs.toNat

/-- The bytes of each of them. -/
def MonRequest.data (r : MonRequest) : List (List UInt8) :=
  List.zipWith (fun a n => a.toList.take n.toNat) r.args.toList r.lens

/-- mon_request_encode: the bytes written; -1 when the buffer is too small. -/
def monRequestEncode (r : MonRequest) (bufLen : ℕ) : Option (List UInt8) :=
  let total := 3 + r.nargs.toNat + (r.lens.map UInt8.toNat).sum
  if bufLen < total then none
  else some ([r.version, r.cmd, r.nargs] ++ r.lens ++ r.data.flatten)

theorem MonRequest.lens_length (r : MonRequest) : r.lens.length = r.nargs.toNat := by
  have h := r.nargs_le
  simp only [lens, List.length_take, Vector.length_toList]
  omega

theorem MonRequest.data_length (r : MonRequest) : r.data.length = r.nargs.toNat := by
  have h := r.nargs_le
  simp only [data, List.length_zipWith, Vector.length_toList, r.lens_length]
  omega

/-- Each argument is as long as its length byte says. -/
theorem MonRequest.data_lens (r : MonRequest) :
    r.data.map List.length = r.lens.map UInt8.toNat := by
  have h := r.nargs_le
  apply List.ext_getElem?
  intro i
  rw [List.getElem?_map, List.getElem?_map, data, List.getElem?_zipWith]
  cases hlen : r.lens[i]? with
  | none => cases r.args.toList[i]? <;> rfl
  | some n =>
    have hi : i < r.args.toList.length := by
      have hlt := (List.getElem?_eq_some_iff.mp hlen).1
      rw [r.lens_length] at hlt
      rw [Vector.length_toList]
      omega
    have hn := n.toNat_lt
    rw [List.getElem?_eq_getElem hi]
    simp only [Option.map_some, Option.some.injEq, List.length_take, Vector.length_toList]
    omega

/-- A request with the arguments `args` on the wire. -/
def monMessage (cmd : UInt8) (args : List (List UInt8)) : List UInt8 :=
  [MON_VERSION, cmd, UInt8.ofNat args.length] ++ args.map (fun a => UInt8.ofNat a.length) ++
    args.flatten

theorem MonRequest.data_ofNat (r : MonRequest) :
    r.data.map (fun a => UInt8.ofNat a.length) = r.lens := by
  have hlens : (r.data.map List.length).map UInt8.ofNat = r.lens := by
    rw [r.data_lens, List.map_map]
    refine (List.map_congr_left fun n _ => ?_).trans (List.map_id _)
    simp
  rw [← hlens, List.map_map]
  rfl

/-- A request that fits is written as the message of its arguments. -/
theorem monRequestEncode_eq (r : MonRequest) (hv : r.version = MON_VERSION) (bufLen : ℕ) :
    monRequestEncode r bufLen =
      if (monMessage r.cmd r.data).length ≤ bufLen then some (monMessage r.cmd r.data) else none := by
  have hbytes : [r.version, r.cmd, r.nargs] ++ r.lens ++ r.data.flatten =
      monMessage r.cmd r.data := by
    rw [monMessage, r.data_ofNat, r.data_length, hv, UInt8.ofNat_toNat]
  have htotal : 3 + r.nargs.toNat + (r.lens.map UInt8.toNat).sum =
      (monMessage r.cmd r.data).length := by
    rw [← hbytes, ← r.data_lens]
    simp only [List.length_append, List.length_flatten, r.lens_length, List.length_cons,
      List.length_nil]
  unfold monRequestEncode
  rw [htotal, hbytes]
  by_cases h : bufLen < (monMessage r.cmd r.data).length
  · rw [if_pos h, if_neg (by omega)]
  · rw [if_neg h, if_pos (by omega)]

end Request

section Response

/-- `struct mon_response`; `payload` is the memory its pointer leads to, `none`
for NULL. -/
structure MonResponse where
  version : UInt8
  status : UInt8
  payloadLen : UInt16
  payload : Option (List UInt8)
  deriving DecidableEq

/-- The payload bytes that are sent. -/
def MonResponse.bytes (r : MonResponse) : List UInt8 :=
  match r.payload with
  | some memory => memory.take r.payloadLen.toNat
  | none => []

/-- The payload as its pointer and its length give it, `none` for NULL. -/
def MonResponse.slice (r : MonResponse) : Option (List UInt8) :=
  r.payload.map fun memory => memory.take r.payloadLen.toNat

theorem MonResponse.slice_eq {r : MonResponse} (h : r.bytes ≠ []) : r.slice = some r.bytes := by
  cases hp : r.payload with
  | none => exact absurd (by rw [bytes, hp]) h
  | some memory => rw [slice, bytes, hp, Option.map_some]

/-- A positive length comes with a pointer to as many bytes. -/
def MonResponse.Backed (r : MonResponse) : Prop :=
  0 < r.payloadLen.toNat → ∃ memory, r.payload = some memory ∧ r.payloadLen.toNat ≤ memory.length

/-- mon_response_encode: the bytes written; -1 when the buffer is too small. -/
def monResponseEncode (r : MonResponse) (bufLen : ℕ) : Option (List UInt8) :=
  let total := MON_RESPONSE_HEADER_LEN + r.payloadLen.toNat
  if bufLen < total then none
  else
    let header := [r.version, r.status, ((r.payloadLen >>> 8) &&& 0xFF).toUInt8,
      (r.payloadLen &&& 0xFF).toUInt8]
    some (header ++ if 0 < r.payloadLen.toNat then r.bytes else [])

theorem monResponseEncode_le {r : MonResponse} {bufLen : ℕ} {l : List UInt8}
    (h : monResponseEncode r bufLen = some l) : l.length ≤ bufLen := by
  unfold monResponseEncode at h
  dsimp only at h
  have hbytes : r.bytes.length ≤ r.payloadLen.toNat := by
    unfold MonResponse.bytes
    split
    · rw [List.length_take]
      exact Nat.min_le_left _ _
    · exact Nat.zero_le _
  split at h
  · exact absurd h (by simp)
  next hfit =>
    obtain rfl := Option.some.inj h
    unfold MON_RESPONSE_HEADER_LEN at hfit
    split <;> simp only [List.length_append, List.length_cons, List.length_nil] <;> omega

/-- `mon_decode_status` with what MON_DECODE_OK stores. -/
inductive MonDecode
  | ok (out : MonResponse) (consumed : ℕ)
  | needMore
  | error
  deriving DecidableEq

/-- mon_response_decode; the payload points into `buf`. -/
def monResponseDecode : List UInt8 → MonDecode
  | version :: status :: hi :: lo :: rest =>
    if version ≠ MON_VERSION then .error
    else
      let payloadLen := beU16 hi lo
      let total := MON_RESPONSE_HEADER_LEN + payloadLen.toNat
      if MON_RESPONSE_HEADER_LEN + rest.length < total then .needMore
      else
        .ok { version := version, status := status, payloadLen := payloadLen
              payload := if 0 < payloadLen.toNat then some rest else none } total
  | _ => .needMore

/-- A response on the wire. -/
def monFrame (status : UInt8) (payload : List UInt8) : List UInt8 :=
  [MON_VERSION, status, UInt8.ofNat (payload.length / 256), UInt8.ofNat payload.length] ++ payload

theorem MonResponse.bytes_length {r : MonResponse} (h : r.Backed) :
    r.bytes.length = r.payloadLen.toNat := by
  by_cases hlen : 0 < r.payloadLen.toNat
  · obtain ⟨memory, hmemory, hle⟩ := h hlen
    simp only [bytes, hmemory, List.length_take]
    omega
  · have hzero : r.payloadLen.toNat = 0 := by omega
    rw [bytes, hzero]
    cases r.payload <;> rfl

theorem length_bytes (n : UInt16) :
    ((n >>> 8) &&& 0xFF).toUInt8 = UInt8.ofNat (n.toNat / 256) ∧
      (n &&& 0xFF).toUInt8 = UInt8.ofNat n.toNat := by
  have hmask : ∀ m : UInt16, (m &&& 0xFF).toNat = m.toNat % 256 := fun m => by
    rw [UInt16.toNat_and, show (0xFF : UInt16).toNat = 2 ^ 8 - 1 from rfl,
      Nat.and_two_pow_sub_one_eq_mod]
  constructor
  · apply UInt8.toNat_inj.mp
    rw [UInt16.toNat_toUInt8, hmask, UInt16.toNat_shiftRight, UInt8.toNat_ofNat',
      show (8 : UInt16).toNat % 16 = 8 from rfl, Nat.shiftRight_eq_div_pow]
    omega
  · apply UInt8.toNat_inj.mp
    rw [UInt16.toNat_toUInt8, hmask, UInt8.toNat_ofNat']
    omega

theorem beU16_length_bytes {n : ℕ} (h : n < 65536) :
    (beU16 (UInt8.ofNat (n / 256)) (UInt8.ofNat n)).toNat = n := by
  rw [beU16_toNat, UInt8.toNat_ofNat', UInt8.toNat_ofNat']
  omega

/-- A response that fits is written as the frame of its payload. -/
theorem monResponseEncode_eq {r : MonResponse} (h : r.Backed) (hv : r.version = MON_VERSION)
    (bufLen : ℕ) : monResponseEncode r bufLen =
      if MON_RESPONSE_HEADER_LEN + r.payloadLen.toNat ≤ bufLen then
        some (monFrame r.status r.bytes)
      else none := by
  unfold monResponseEncode
  dsimp only
  by_cases hfit : MON_RESPONSE_HEADER_LEN + r.payloadLen.toNat ≤ bufLen
  · rw [if_neg (Nat.not_lt.mpr hfit), if_pos hfit, (length_bytes _).1, (length_bytes _).2, hv]
    have hbytes := r.bytes_length h
    by_cases hlen : 0 < r.payloadLen.toNat
    · rw [if_pos hlen, monFrame, hbytes]
    · have hnil : r.bytes = [] := List.length_eq_zero_iff.mp (by omega)
      rw [if_neg hlen, monFrame, hnil, ← hbytes, hnil]
  · rw [if_pos (Nat.not_le.mp hfit), if_neg hfit]

theorem monFrame_length (status : UInt8) (payload : List UInt8) :
    (monFrame status payload).length = MON_RESPONSE_HEADER_LEN + payload.length := by
  simp only [monFrame, MON_RESPONSE_HEADER_LEN, List.length_append, List.length_cons,
    List.length_nil]

theorem monResponseDecode_cons (version status hi lo : UInt8) (rest : List UInt8) :
    monResponseDecode (version :: status :: hi :: lo :: rest) =
      if version ≠ MON_VERSION then .error
      else if MON_RESPONSE_HEADER_LEN + rest.length <
          MON_RESPONSE_HEADER_LEN + (beU16 hi lo).toNat then .needMore
      else
        .ok { version := version, status := status, payloadLen := beU16 hi lo
              payload := if 0 < (beU16 hi lo).toNat then some rest else none }
          (MON_RESPONSE_HEADER_LEN + (beU16 hi lo).toNat) := rfl

/-- A frame is decoded whatever follows it. -/
theorem monResponseDecode_frame {payload : List UInt8} (h : payload.length < 65536)
    (status : UInt8) (rest : List UInt8) :
    ∃ out, monResponseDecode (monFrame status payload ++ rest) =
        .ok out (monFrame status payload).length ∧
      out.version = MON_VERSION ∧ out.status = status ∧ out.payloadLen.toNat = payload.length ∧
      out.bytes = payload ∧ out.Backed := by
  have hlen := beU16_length_bytes h
  refine ⟨{ version := MON_VERSION, status := status
            payloadLen := beU16 (UInt8.ofNat (payload.length / 256)) (UInt8.ofNat payload.length)
            payload := if 0 < payload.length then some (payload ++ rest) else none },
    ?_, rfl, rfl, hlen, ?_, ?_⟩
  · rw [monFrame_length]
    simp [monFrame, monResponseDecode, hlen]
  · by_cases hpos : 0 < payload.length
    · simp [MonResponse.bytes, hpos, hlen]
    · have hnil : payload = [] := List.length_eq_zero_iff.mp (by omega)
      simp [MonResponse.bytes, hnil]
  · intro hpos
    rw [hlen] at hpos
    exact ⟨payload ++ rest, if_pos hpos, by simp [hlen]⟩

/-- No strict prefix of a frame is decoded. -/
theorem monResponseDecode_prefix {payload : List UInt8} (h : payload.length < 65536)
    {status : UInt8} {q r : List UInt8} (hsplit : q ++ r = monFrame status payload) (hr : r ≠ []) :
    monResponseDecode q = .needMore := by
  have hlen := beU16_length_bytes h
  have hpos := List.length_pos_iff.mpr hr
  match q, hsplit with
  | [], _ => rfl
  | [_], _ => rfl
  | [_, _], _ => rfl
  | [_, _, _], _ => rfl
  | v :: s :: hi :: lo :: rest, hsplit =>
    simp only [monFrame, List.cons_append, List.nil_append, List.cons.injEq] at hsplit
    obtain ⟨rfl, rfl, rfl, rfl, hpayload⟩ := hsplit
    have htotal := congrArg List.length hpayload
    rw [List.length_append] at htotal
    rw [monResponseDecode_cons, hlen, if_neg (by simp), if_pos (by omega)]

/-- What is decoded was a frame. -/
theorem monResponseDecode_ok {buf : List UInt8} {out : MonResponse} {consumed : ℕ}
    (h : monResponseDecode buf = .ok out consumed) :
    out.version = MON_VERSION ∧ out.Backed ∧ out.bytes.length = out.payloadLen.toNat ∧
      consumed = MON_RESPONSE_HEADER_LEN + out.payloadLen.toNat ∧ consumed ≤ buf.length ∧
      buf.take consumed = monFrame out.status out.bytes := by
  match buf, h with
  | v :: s :: hi :: lo :: rest, h =>
    rw [monResponseDecode_cons] at h
    split at h
    · exact absurd h (by simp)
    next hv =>
    have hv : v = MON_VERSION := by simpa using hv
    split at h
    · exact absurd h (by simp)
    next hfit =>
    simp only [MonDecode.ok.injEq] at h
    obtain ⟨rfl, rfl⟩ := h
    have hle : (beU16 hi lo).toNat ≤ rest.length := by omega
    have hbytes : MonResponse.bytes ⟨v, s, beU16 hi lo,
        if 0 < (beU16 hi lo).toNat then some rest else none⟩ = rest.take (beU16 hi lo).toNat := by
      by_cases hpos : 0 < (beU16 hi lo).toNat
      · simp [MonResponse.bytes, hpos]
      · have hzero : (beU16 hi lo).toNat = 0 := by omega
        simp [MonResponse.bytes, hzero]
    have hlen : (rest.take (beU16 hi lo).toNat).length = (beU16 hi lo).toNat := by
      rw [List.length_take]
      omega
    have hhi : UInt8.ofNat ((beU16 hi lo).toNat / 256) = hi := by
      have hlo := lo.toNat_lt
      apply UInt8.toNat_inj.mp
      have hhi := hi.toNat_lt
      rw [UInt8.toNat_ofNat', beU16_toNat]
      omega
    have hlo : UInt8.ofNat (beU16 hi lo).toNat = lo := by
      have hlo := lo.toNat_lt
      apply UInt8.toNat_inj.mp
      rw [UInt8.toNat_ofNat', beU16_toNat]
      omega
    refine ⟨hv, fun hpos => ⟨rest, if_pos hpos, hle⟩, ?_, rfl, ?_, ?_⟩
    · rw [hbytes, hlen]
    · simp only [MON_RESPONSE_HEADER_LEN, List.length_cons]
      omega
    · rw [hbytes, monFrame, hlen, hhi, hlo, hv, Nat.add_comm]
      rfl

/-- The response codec: encoding fits any buffer that is large enough, decoding
inverts it before any other bytes, asks for more on every strict prefix, and
accepts nothing else. -/
theorem response_codec :
    (∀ r : MonResponse, r.version = MON_VERSION → r.Backed → ∀ bufLen,
      MON_RESPONSE_HEADER_LEN + r.payloadLen.toNat ≤ bufLen →
      ∃ frame, monResponseEncode r bufLen = some frame ∧
        frame.length = MON_RESPONSE_HEADER_LEN + r.payloadLen.toNat ∧
        (∀ rest, ∃ out, monResponseDecode (frame ++ rest) = .ok out frame.length ∧
          out.version = r.version ∧ out.status = r.status ∧ out.payloadLen = r.payloadLen ∧
          out.bytes = r.bytes ∧ out.Backed) ∧
        ∀ q, q <+: frame → q ≠ frame → monResponseDecode q = .needMore) ∧
    ∀ buf out consumed, monResponseDecode buf = .ok out consumed →
      consumed ≤ buf.length ∧ ∀ bufLen, consumed ≤ bufLen →
        monResponseEncode out bufLen = some (buf.take consumed) := by
  constructor
  · intro r hv hback bufLen hfit
    have hlen := r.bytes_length hback
    have hlt : r.bytes.length < 65536 := by
      rw [hlen]
      exact r.payloadLen.toNat_lt
    refine ⟨monFrame r.status r.bytes, (monResponseEncode_eq hback hv bufLen).trans (if_pos hfit),
      by rw [monFrame_length, hlen], fun rest => ?_, ?_⟩
    · obtain ⟨out, hout, hversion, hstatus, hplen, hbytes, hback'⟩ :=
        monResponseDecode_frame hlt r.status rest
      exact ⟨out, hout, hversion.trans hv.symm, hstatus, UInt16.toNat_inj.mp (hplen.trans hlen),
        hbytes, hback'⟩
    · rintro q ⟨s, hs⟩ hne
      refine monResponseDecode_prefix hlt hs ?_
      rintro rfl
      rw [List.append_nil] at hs
      exact hne hs
  · intro buf out consumed hok
    obtain ⟨hv, hback, -, rfl, hle, htake⟩ := monResponseDecode_ok hok
    refine ⟨hle, fun bufLen hfit => ?_⟩
    rw [monResponseEncode_eq hback hv, if_pos hfit, htake]

/-- A response of two bytes, and what is left of a third. -/
theorem response_codec_two :
    monResponseEncode ⟨MON_VERSION, MON_STATUS_OK, 2, some [7, 8]⟩ 4096 = some [1, 0, 0, 2, 7, 8] ∧
      ∃ out, monResponseDecode ([1, 0, 0, 2, 7, 8] ++ [9]) = .ok out 6 ∧
        out.status = MON_STATUS_OK := by
  have hback : MonResponse.Backed ⟨MON_VERSION, MON_STATUS_OK, 2, some [7, 8]⟩ :=
    fun _ => ⟨[7, 8], rfl, by decide⟩
  obtain ⟨frame, hframe, -, hdecode, -⟩ := response_codec.1
    ⟨MON_VERSION, MON_STATUS_OK, 2, some [7, 8]⟩ rfl hback 4096 (by decide)
  have heq : monResponseEncode ⟨MON_VERSION, MON_STATUS_OK, 2, some [7, 8]⟩ 4096 =
      some [1, 0, 0, 2, 7, 8] := by decide
  obtain rfl := Option.some.inj (hframe.symm.trans heq)
  obtain ⟨out, hout, -, hstatus, -⟩ := hdecode [9]
  exact ⟨heq, out, hout, hstatus⟩

end Response

end SocksProxy.MonProtocol
