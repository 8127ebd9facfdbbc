import SocksProxy.Auth
import SocksProxy.MonProtocol

/-!
mon_parser.c: the request parser of the monitoring server. It stores lengths
first and arguments later, and skips empty arguments wherever they stand. What
an earlier request left in the arrays stays there.
-/
namespace SocksProxy.MonParsing

open ByteBuffer ByteScan Hello Auth MonProtocol

/-- `enum mon_parser_state`. -/
inductive MonParserState
  | version
  | cmd
  | nargs
  | argLen
  | argData
  | done
  | error
  deriving DecidableEq

/-- `struct mon_parser`. Where `current_arg` is used as an index it is in range. -/
structure MonParser where
  state : MonParserState
  request : MonRequest
  currentArg : ℕ
  currentArgOffset : UInt8
  currentArg_lt : state = .argLen ∨ state = .argData → currentArg < request.nargs.toNat
  deriving DecidableEq

def monParserInit (p : MonParser) : MonParser where
  state := .version
  currentArg := 0
  currentArgOffset := 0
  request := { p.request with version := 0, cmd := 0, nargs := 0, nargs_le := Nat.zero_le _ }
  currentArg_lt := by simp

/-- The zeroed parser of a fresh connection. -/
def monParserZero : MonParser where
  state := .version
  currentArg := 0
  currentArgOffset := 0
  request :=
    { version := 0, cmd := 0, nargs := 0, argLens := Vector.replicate _ 0
      args := Vector.replicate _ (Vector.replicate _ 0), nargs_le := Nat.zero_le _ }
  currentArg_lt := by simp

/-- The loop over empty arguments from index `i`; `k` of them are left. -/
def skipEmpty (lens : Vector UInt8 MON_MAX_ARGS) : (k i : ℕ) → i + k ≤ MON_MAX_ARGS →
    Vector (Vector UInt8 256) MON_MAX_ARGS → Vector (Vector UInt8 256) MON_MAX_ARGS × ℕ
  | 0, i, _, args => (args, i)
  | k + 1, i, h, args =>
    if lens[i] = 0 then skipEmpty lens k (i + 1) (by omega) (args.set i (setAt args[i] 0 0))
    else (args, i)

/-- The state once the arguments before `j` are stored. -/
def afterSkip (nargs : UInt8) (j : ℕ) : MonParserState :=
  if j ≥ nargs.toNat then .done else .argData

theorem afterSkip_lt {nargs : UInt8} {j : ℕ}
    (h : afterSkip nargs j = .argLen ∨ afterSkip nargs j = .argData) : j < nargs.toNat := by
  unfold afterSkip at h
  split at h
  · simp at h
  · omega

def monParserFeed (p : MonParser) (b : UInt8) : MonParser :=
  match hs : p.state with
  | .version =>
    if b ≠ MON_VERSION then { p with state := .error, currentArg_lt := by simp }
    else
      { p with
        request := { p.request with version := b }, state := .cmd, currentArg_lt := by simp }
  | .cmd =>
    { p with request := { p.request with cmd := b }, state := .nargs, currentArg_lt := by simp }
  | .nargs =>
    if h : b.toNat > MON_MAX_ARGS then { p with state := .error, currentArg_lt := by simp }
    else
      { p with
        request := { p.request with nargs := b, nargs_le := Nat.le_of_not_gt h }, currentArg := 0
        state := if b = 0 then .done else .argLen
        currentArg_lt := by
          intro hb
          by_cases hzero : b = 0
          · simp [hzero] at hb
          · exact Nat.pos_of_ne_zero fun h0 => hzero (UInt8.toNat_inj.mp h0) }
  | .argLen =>
    if b.toNat > MON_MAX_ARG_LEN then { p with state := .error, currentArg_lt := by simp }
    else
      have hlt := p.currentArg_lt (Or.inl hs)
      have hle := p.request.nargs_le
      let lens := p.request.argLens.set p.currentArg b (Nat.lt_of_lt_of_le hlt hle)
      let i := p.currentArg + 1
      if h : i ≥ p.request.nargs.toNat then
        let (args, j) := skipEmpty lens p.request.nargs.toNat 0 (by omega) p.request.args
        { request := { p.request with argLens := lens, args := args }
          currentArg := j, currentArgOffset := 0, state := afterSkip p.request.nargs j
          currentArg_lt := afterSkip_lt }
      else
        { p with
          request := { p.request with argLens := lens }, currentArg := i
          currentArg_lt := fun _ => Nat.lt_of_not_ge h }
  | .argData =>
    have hlt := p.currentArg_lt (Or.inr hs)
    have hle := p.request.nargs_le
    have hi : p.currentArg < MON_MAX_ARGS := Nat.lt_of_lt_of_le hlt hle
    let args := p.request.args.set p.currentArg
      (setAt p.request.args[p.currentArg] p.currentArgOffset b)
    let offset := p.currentArgOffset + 1
    if offset ≥ p.request.argLens[p.currentArg] then
      let args := args.set p.currentArg (setAt args[p.currentArg] offset 0)
      let (args, j) := skipEmpty p.request.argLens (p.request.nargs.toNat - (p.currentArg + 1))
        (p.currentArg + 1) (by omega) args
      { request := { p.request with args := args }
        currentArg := j, currentArgOffset := 0, state := afterSkip p.request.nargs j
        currentArg_lt := afterSkip_lt }
    else
      { p with
        request := { p.request with args := args }, currentArgOffset := offset
        currentArg_lt := fun _ => hlt }
  | .done => p
  | .error => p

def monParserIsDone : MonParserState → Bool
  | .error => true
  | .done => true
  | _ => false

/-- What mon_parser_is_done stores through its `errored` argument. -/
def monParserIsErrored : MonParserState → Bool
  | .error => true
  | _ => false

def monParserConsume (b : Buffer) (p : MonParser) : Buffer × MonParser × Bool :=
  consume monParserFeed (fun p => monParserIsDone p.state) (fun p => monParserIsErrored p.state) b p

theorem monParserErrored_done (p : MonParser) (h : monParserIsErrored p.state = true) :
    monParserIsDone p.state = true := by
  cases hs : p.state <;> simp_all [monParserIsErrored, monParserIsDone]

section Stored

/-- The arrays hold `args` from the first on, each with its length and a NUL. -/
def Stored (lens : Vector UInt8 MON_MAX_ARGS) (arrays : Vector (Vector UInt8 256) MON_MAX_ARGS)
    (args : List (List UInt8)) : Prop :=
  ∀ (i : ℕ) (a : List UInt8), args[i]? = some a → ∃ (n : UInt8) (v : Vector UInt8 256),
    lens[i]? = some n ∧ n.toNat = a.length ∧ arrays[i]? = some v ∧ Holds v (a ++ [0])

variable {lens : Vector UInt8 MON_MAX_ARGS} {arrays : Vector (Vector UInt8 256) MON_MAX_ARGS}
  {args : List (List UInt8)}

theorem Stored.nil : Stored lens arrays [] := by
  intro i a h
  simp at h

theorem Stored.snoc (h : Stored lens arrays args) {i : ℕ} (hi : i < MON_MAX_ARGS)
    (hlen : args.length = i) {a : List UInt8} {v : Vector UInt8 256}
    (hn : lens[i].toNat = a.length) (hv : Holds v (a ++ [0])) :
    Stored lens (arrays.set i v) (args ++ [a]) := by
  intro j b hb
  by_cases hj : j < args.length
  · rw [List.getElem?_append_left hj] at hb
    obtain ⟨n, w, hlens, hnat, harr, hw⟩ := h j b hb
    refine ⟨n, w, hlens, hnat, ?_, hw⟩
    rw [Vector.getElem?_set_ne hi (by omega)]
    exact harr
  · rw [List.getElem?_append_right (by omega), List.getElem?_singleton] at hb
    split at hb
    · obtain rfl : a = b := by simpa using hb
      obtain rfl : j = i := by omega
      exact ⟨lens[j], v, Vector.getElem?_eq_getElem hi, hn, Vector.getElem?_set_self hi, hv⟩
    · exact absurd hb (by simp)

/-- The arrays beyond the stored arguments are free to change. -/
theorem Stored.set (h : Stored lens arrays args) {i : ℕ} (hi : i < MON_MAX_ARGS)
    (hlen : args.length ≤ i) (v : Vector UInt8 256) : Stored lens (arrays.set i v) args := by
  intro j a ha
  obtain ⟨n, w, hlens, hnat, harr, hw⟩ := h j a ha
  have hj := (List.getElem?_eq_some_iff.mp ha).1
  refine ⟨n, w, hlens, hnat, ?_, hw⟩
  rw [Vector.getElem?_set_ne hi (by omega)]
  exact harr

/-- The bytes of the arguments from index `i` to `n`. -/
def restLen (lens : Vector UInt8 MON_MAX_ARGS) (n i : ℕ) : ℕ :=
  (((lens.toList.take n).drop i).map UInt8.toNat).sum

theorem restLen_end (n : ℕ) : restLen lens n n = 0 := by
  simp [restLen]

theorem restLen_step {n i : ℕ} (hi : i < n) (hn : n ≤ MON_MAX_ARGS) :
    restLen lens n i = lens[i].toNat + restLen lens n (i + 1) := by
  have hlt : i < (lens.toList.take n).length := by
    rw [List.length_take, Vector.length_toList]
    omega
  rw [restLen, List.drop_eq_getElem_cons hlt, List.map_cons, List.sum_cons]
  simp [restLen]

/-- The loop over empty arguments stores them and stops at the next with data. -/
theorem skipEmpty_spec {n : ℕ} (k i : ℕ) (h : i + k ≤ MON_MAX_ARGS) (hn : i + k = n)
    (hlen : args.length = i) (hst : Stored lens arrays args) :
    ∃ args', args'.length = (skipEmpty lens k i h arrays).2 ∧ args'.flatten = args.flatten ∧
      Stored lens (skipEmpty lens k i h arrays).1 args' ∧
      (skipEmpty lens k i h arrays).2 ≤ n ∧
      restLen lens n (skipEmpty lens k i h arrays).2 = restLen lens n i ∧
      ((skipEmpty lens k i h arrays).2 < n → ∃ len : UInt8,
        lens[(skipEmpty lens k i h arrays).2]? = some len ∧ 0 < len.toNat) := by
  induction k generalizing i arrays args with
  | zero =>
    exact ⟨args, hlen, rfl, hst, Nat.le_of_eq hn, rfl, fun hlt => absurd hlt (by
      simp only [skipEmpty]
      omega)⟩
  | succ k ih =>
    have hi : i < MON_MAX_ARGS := by omega
    by_cases hzero : lens[i] = 0
    · have hnul : Holds (setAt arrays[i] 0 0) ([] ++ [0]) := (Holds.nil _).snoc 0 rfl
      have hput := hst.snoc hi hlen (a := []) (by rw [hzero]; rfl) hnul
      obtain ⟨args', hl, hfl, hst', hle, hrest, hstop⟩ := ih (i + 1) (by omega) (by omega)
        (by rw [List.length_append, hlen, List.length_singleton]) hput
      rw [skipEmpty, if_pos hzero]
      refine ⟨args', hl, ?_, hst', hle, ?_, hstop⟩
      · rw [hfl, List.flatten_append]
        simp
      · rw [hrest, restLen_step (i := i) (by omega) (by omega), hzero]
        simp
    · rw [skipEmpty, if_neg hzero]
      refine ⟨args, hlen, rfl, hst, by omega, rfl, fun _ => ⟨lens[i], ?_, ?_⟩⟩
      · exact Vector.getElem?_eq_getElem hi
      · exact Nat.pos_of_ne_zero fun h0 => hzero (UInt8.toNat_inj.mp h0)

end Stored

section Grammar

private abbrev MonEnds (p : MonParser) (l : List UInt8) : Prop :=
  Ends monParserFeed (fun p => monParserIsDone p.state) p l

private abbrev MonPartial (p : MonParser) (l : List UInt8) : Prop :=
  Partial monParserFeed (fun p => monParserIsDone p.state) p l

/-- The request carries this header. -/
private def Header (cmd nargs : UInt8) (r : MonRequest) : Prop :=
  r.version = MON_VERSION ∧ r.cmd = cmd ∧ r.nargs = nargs

/-- `k` bytes of the arguments are missing and `w` was read of them. -/
private def DataLeft (cmd nargs : UInt8) (lens : Vector UInt8 MON_MAX_ARGS) (k : ℕ)
    (w : List UInt8) (p : MonParser) : Prop :=
  Header cmd nargs p.request ∧ p.request.argLens = lens ∧
    ∃ args cur, w = args.flatten ++ cur ∧ args.length = p.currentArg ∧
      Stored lens p.request.args args ∧ p.currentArg ≤ nargs.toNat ∧
      if k = 0 then p.state = .done ∧ cur = [] ∧ p.currentArg = nargs.toNat
      else p.state = .argData ∧ p.currentArgOffset.toNat = cur.length ∧
        cur.length + k = restLen lens nargs.toNat p.currentArg ∧
        ∃ n v, lens[p.currentArg]? = some n ∧ cur.length < n.toNat ∧
          p.request.args[p.currentArg]? = some v ∧ Holds v cur

private theorem dataLeft_done {cmd nargs : UInt8} {lens : Vector UInt8 MON_MAX_ARGS} {k : ℕ}
    {w : List UInt8} {p : MonParser} (h : DataLeft cmd nargs lens k w p) :
    monParserIsDone p.state = decide (k = 0) := by
  obtain ⟨-, -, args, cur, -, -, -, -, h⟩ := h
  by_cases hk : k = 0
  · rw [if_pos hk] at h
    simp [h.1, monParserIsDone, hk]
  · rw [if_neg hk] at h
    simp [h.1, monParserIsDone, hk]

/-- After an argument, or after the lengths, the parser moves to the next one
with data. -/
private theorem dataLeft_skip {cmd : UInt8} {r : MonRequest} (hr : Header cmd r.nargs r)
    {args : List (List UInt8)} {i k : ℕ} (hk : i + k = r.nargs.toNat)
    (h : i + k ≤ MON_MAX_ARGS) (hlen : args.length = i)
    {arrays : Vector (Vector UInt8 256) MON_MAX_ARGS} (hst : Stored r.argLens arrays args) :
    DataLeft cmd r.nargs r.argLens (restLen r.argLens r.nargs.toNat i) args.flatten
      { request := { r with args := (skipEmpty r.argLens k i h arrays).1 }
        currentArg := (skipEmpty r.argLens k i h arrays).2, currentArgOffset := 0
        state := afterSkip r.nargs (skipEmpty r.argLens k i h arrays).2
        currentArg_lt := afterSkip_lt } := by
  obtain ⟨args', hl, hfl, hst', hle, hrest, hstop⟩ := skipEmpty_spec k i h hk hlen hst
  generalize skipEmpty r.argLens k i h arrays = skipped at hl hst' hle hrest hstop ⊢
  obtain ⟨arrays', j⟩ := skipped
  refine ⟨hr, rfl, args', [], by rw [hfl, List.append_nil], hl, hst', hle, ?_⟩
  by_cases hj : j < r.nargs.toNat
  · obtain ⟨n, hn, hpos⟩ := hstop hj
    have hjlt : j < MON_MAX_ARGS := by omega
    have hsum : restLen r.argLens r.nargs.toNat i ≠ 0 := by
      rw [Vector.getElem?_eq_getElem hjlt] at hn
      rw [← hrest, restLen_step hj (by omega), Option.some.inj hn]
      omega
    rw [if_neg hsum]
    refine ⟨by simp [afterSkip, hj], rfl, ?_, n, arrays'[j], hn, hpos,
      Vector.getElem?_eq_getElem hjlt, Holds.nil _⟩
    dsimp only at hrest ⊢
    rw [hrest, List.length_nil, Nat.zero_add]
  · have hend : j = r.nargs.toNat := by omega
    rw [if_pos (by rw [← hrest, hend]; exact restLen_end _)]
    exact ⟨by simp [afterSkip, hend], rfl, hend⟩

private theorem dataLeft_step {cmd nargs : UInt8} {lens : Vector UInt8 MON_MAX_ARGS} {k : ℕ}
    {w : List UInt8} {p : MonParser} (c : UInt8) (h : DataLeft cmd nargs lens (k + 1) w p) :
    DataLeft cmd nargs lens k (w ++ [c]) (monParserFeed p c) := by
  obtain ⟨hhead, hlens, args, cur, rfl, hlen, hst, hle, hs, hoff, hleft, n, v, hn, hcur, hv,
    hw⟩ := h
  obtain ⟨state, request, i, offset, hlt⟩ := p
  simp only at hhead hlens hlen hst hle hs hoff hleft hn hv
  subst hs hlens
  have hnargs := hhead.2.2
  have hi : i < request.nargs.toNat := hlt (Or.inr rfl)
  have hmax := request.nargs_le
  have hi' : i < MON_MAX_ARGS := by omega
  rw [Vector.getElem?_eq_getElem hi', Option.some.injEq] at hn hv
  subst hn hv
  obtain ⟨m, hm⟩ : ∃ m, offset.toNat + (m + 1) = request.argLens[i].toNat :=
    ⟨request.argLens[i].toNat - offset.toNat - 1, by omega⟩
  have hnext := add_one_toNat hm
  have hput := hw.snoc c hoff
  subst hnargs
  simp only [monParserFeed]
  by_cases hlast : offset + 1 ≥ request.argLens[i]
  · rw [if_pos hlast]
    have hnat : (offset + 1).toNat = request.argLens[i].toNat := by
      have := UInt8.le_iff_toNat_le.mp hlast
      omega
    have hterm : Holds (setAt (setAt request.args[i] offset c) (offset + 1) 0)
        (cur ++ [c] ++ [0]) := by
      apply hput.snoc
      rw [hnext, hoff, List.length_append, List.length_singleton]
    have hst' := (hst.set hi' (Nat.le_of_eq hlen) (setAt request.args[i] offset c)).snoc hi' hlen
      (a := cur ++ [c]) (by rw [List.length_append, List.length_singleton]; omega) hterm
    have hk : restLen request.argLens request.nargs.toNat (i + 1) = k := by
      rw [restLen_step hi hmax] at hleft
      omega
    have hskip := dataLeft_skip hhead (i := i + 1) (k := request.nargs.toNat - (i + 1))
      (by omega) (by omega) (by rw [List.length_append, List.length_singleton, hlen]) hst'
    rw [hk] at hskip
    simpa using hskip
  · rw [if_neg hlast]
    have hnat : (offset + 1).toNat < request.argLens[i].toNat := by
      by_contra hge
      exact hlast (UInt8.le_iff_toNat_le.mpr (Nat.le_of_not_lt hge))
    have hk : k ≠ 0 := by
      rintro rfl
      rw [restLen_step hi hmax] at hleft
      omega
    have hgrow : (cur ++ [c]).length = cur.length + 1 := by
      rw [List.length_append, List.length_singleton]
    refine ⟨hhead, rfl, args, cur ++ [c], by rw [List.append_assoc], hlen,
      hst.set hi' (Nat.le_of_eq hlen) _, hle, ?_⟩
    rw [if_neg hk]
    refine ⟨rfl, ?_, ?_, request.argLens[i], setAt request.args[i] offset c,
      Vector.getElem?_eq_getElem hi', by omega, Vector.getElem?_set_self hi', hput⟩
    · dsimp only
      omega
    · dsimp only
      omega

/-- `k + 1` lengths are missing and `w` are stored. -/
private def LensLeft (cmd nargs : UInt8) (k : ℕ) (w : List UInt8) (p : MonParser) : Prop :=
  Header cmd nargs p.request ∧ p.state = .argLen ∧ p.currentArg = w.length ∧
    w.length + (k + 1) = nargs.toNat ∧ p.request.argLens.toList.take w.length = w

private theorem take_set_succ (lens : Vector UInt8 MON_MAX_ARGS) {i : ℕ} (hi : i < MON_MAX_ARGS)
    (c : UInt8) : (lens.set i c).toList.take (i + 1) = lens.toList.take i ++ [c] := by
  have hlt : i < lens.toList.length := by
    rw [Vector.length_toList]
    exact hi
  rw [Vector.toList_set, List.take_add_one, List.take_set_of_le (Nat.le_refl i),
    List.getElem?_set_self hlt]
  rfl

private theorem lensLeft_step {cmd nargs : UInt8} {k : ℕ} {w : List UInt8} {p : MonParser}
    (c : UInt8) (h : LensLeft cmd nargs (k + 1) w p) :
    LensLeft cmd nargs k (w ++ [c]) (monParserFeed p c) := by
  obtain ⟨hhead, hs, hcur, hleft, hlens⟩ := h
  obtain ⟨state, request, i, offset, hlt⟩ := p
  simp only at hhead hs hcur hlens
  subst hs hcur
  obtain rfl := hhead.2.2
  have hi := hlt (Or.inl rfl)
  have hmax := request.nargs_le
  have hc : ¬ c.toNat > MON_MAX_ARG_LEN := by
    have := c.toNat_lt
    unfold MON_MAX_ARG_LEN
    omega
  have hmore : ¬ w.length + 1 ≥ request.nargs.toNat := by omega
  simp only [monParserFeed, if_neg hc, dif_neg hmore]
  have hgrow : (w ++ [c]).length = w.length + 1 := by
    rw [List.length_append, List.length_singleton]
  refine ⟨hhead, rfl, hgrow.symm, by omega, ?_⟩
  rw [hgrow]
  exact (take_set_succ request.argLens (by omega) c).trans (by rw [hlens])

private theorem lensLeft_done {cmd nargs : UInt8} {k : ℕ} {w : List UInt8} {p : MonParser}
    (h : LensLeft cmd nargs k w p) : monParserIsDone p.state = false := by
  rw [h.2.1]
  rfl

/-- The last length starts the data: as many bytes as all the lengths say. -/
private theorem lensLeft_last {cmd nargs : UInt8} {w : List UInt8} {p : MonParser} (c : UInt8)
    (h : LensLeft cmd nargs 0 w p) :
    ∃ lens : Vector UInt8 MON_MAX_ARGS, lens.toList.take nargs.toNat = w ++ [c] ∧
      DataLeft cmd nargs lens (((w ++ [c]).map UInt8.toNat).sum) [] (monParserFeed p c) := by
  obtain ⟨hhead, hs, hcur, hleft, hlens⟩ := h
  obtain ⟨state, request, i, offset, hlt⟩ := p
  simp only at hhead hs hcur hlens
  subst hs hcur
  obtain rfl := hhead.2.2
  have hi := hlt (Or.inl rfl)
  have hmax := request.nargs_le
  have hc : ¬ c.toNat > MON_MAX_ARG_LEN := by
    have := c.toNat_lt
    unfold MON_MAX_ARG_LEN
    omega
  have hlast : w.length + 1 ≥ request.nargs.toNat := by omega
  have hw : w.length < MON_MAX_ARGS := by omega
  have htake : (request.argLens.set w.length c).toList.take request.nargs.toNat = w ++ [c] := by
    rw [← hleft]
    exact (take_set_succ request.argLens hw c).trans (by rw [hlens])
  refine ⟨request.argLens.set w.length c, htake, ?_⟩
  have hskip := dataLeft_skip (r := { request with argLens := request.argLens.set w.length c })
    hhead (i := 0) (k := request.nargs.toNat) (by simp) (by simpa using hmax) rfl
    (show Stored _ request.args [] from Stored.nil)
  have hsum : restLen (request.argLens.set w.length c) request.nargs.toNat 0 =
      ((w ++ [c]).map UInt8.toNat).sum := by
    rw [restLen, htake, List.drop_zero]
  simp only [monParserFeed, if_neg hc, dif_pos hlast]
  simpa [hsum] using hskip

private theorem lensLeft_ends {cmd nargs : UInt8} {w : List UInt8} {p : MonParser}
    (h : LensLeft cmd nargs 0 w p) (c : UInt8) (r : List UInt8) :
    (MonEnds p (c :: r) ↔ r.length = ((w ++ [c]).map UInt8.toNat).sum) ∧
      (r.length = ((w ++ [c]).map UInt8.toNat).sum →
        ∃ lens : Vector UInt8 MON_MAX_ARGS, lens.toList.take nargs.toNat = w ++ [c] ∧
          DataLeft cmd nargs lens 0 r (feedAll monParserFeed p (c :: r))) := by
  obtain ⟨lens, hlens, hdata⟩ := lensLeft_last c h
  constructor
  · have hdone := dataLeft_done hdata
    generalize ((w ++ [c]).map UInt8.toNat).sum = total at hdone hdata ⊢
    cases total with
    | zero => simp [Ends, hdone, List.length_eq_zero_iff]
    | succ k =>
      have hmore : MonEnds p (c :: r) ↔ MonEnds (monParserFeed p c) r := by
        simp [Ends, hdone]
      exact hmore.trans (ends_iff_of_last dataLeft_step (fun h => by simpa using dataLeft_done h)
        (fun h => by simpa using dataLeft_done h) hdata r)
  · intro hr
    refine ⟨lens, hlens, ?_⟩
    have hall := feedAll_phase (k := 0) dataLeft_step r (w := []) (p := monParserFeed p c)
      (by simpa [hr] using hdata)
    simpa using hall

/-- A finished parser that holds this request. -/
structure Parsed (cmd : UInt8) (args : List (List UInt8)) (p : MonParser) : Prop where
  state_eq : p.state = .done
  version_eq : p.request.version = MON_VERSION
  cmd_eq : p.request.cmd = cmd
  nargs_eq : p.request.nargs.toNat = args.length
  stored : Stored p.request.argLens p.request.args args

theorem Parsed.lens_eq {cmd : UInt8} {args : List (List UInt8)} {p : MonParser}
    (h : Parsed cmd args p) : p.request.lens = args.map (fun a => UInt8.ofNat a.length) := by
  apply List.ext_getElem?
  intro i
  rw [MonRequest.lens, h.nargs_eq, List.getElem?_map]
  by_cases hi : i < args.length
  · obtain ⟨n, -, hn, hnat, -⟩ := h.stored i args[i] (List.getElem?_eq_getElem hi)
    rw [List.getElem?_take_of_lt hi, Vector.getElem?_toList, hn, List.getElem?_eq_getElem hi,
      Option.map_some, ← hnat, UInt8.ofNat_toNat]
  · rw [List.getElem?_eq_none (l := args) (by omega), List.getElem?_eq_none, Option.map_none]
    rw [List.length_take]
    omega

theorem Parsed.data_eq {cmd : UInt8} {args : List (List UInt8)} {p : MonParser}
    (h : Parsed cmd args p) : p.request.data = args := by
  apply List.ext_getElem?
  intro i
  rw [MonRequest.data, List.getElem?_zipWith, h.lens_eq, List.getElem?_map]
  by_cases hi : i < args.length
  · obtain ⟨n, v, hn, hnat, hv, rest, hw⟩ := h.stored i args[i] (List.getElem?_eq_getElem hi)
    have hlt := n.toNat_lt
    have hlen : (UInt8.ofNat args[i].length).toNat = args[i].length := by
      rw [← hnat, UInt8.ofNat_toNat]
    rw [Vector.getElem?_toList, hv, List.getElem?_eq_getElem hi]
    simp only [Option.map_some, Option.some.injEq, hlen, ← hw, List.append_assoc]
    exact List.take_left
  · rw [List.getElem?_eq_none (l := args) (by omega)]
    cases p.request.args.toList[i]? <;> rfl

/-- The parser after VER, CMD and a nonzero NARGS. -/
private theorem header_start (p : MonParser) (cmd : UInt8) {n : UInt8} {k : ℕ}
    (hk : n.toNat = k + 1) (hn : n.toNat ≤ MON_MAX_ARGS) :
    MonPartial (monParserInit p) [MON_VERSION, cmd, n] ∧
      LensLeft cmd n k [] (feedAll monParserFeed (monParserInit p) [MON_VERSION, cmd, n]) := by
  have hzero : n ≠ 0 := by
    rintro rfl
    simp at hk
  have hmax : ¬ n.toNat > MON_MAX_ARGS := Nat.not_lt.mpr hn
  constructor
  · simp [Partial, monParserFeed, monParserInit, monParserIsDone, hmax, hzero]
  · simp [monParserFeed, monParserInit, LensLeft, Header, hmax, hzero]
    omega

private theorem header_zero (p : MonParser) (cmd : UInt8) :
    MonEnds (monParserInit p) [MON_VERSION, cmd, 0] ∧
      Parsed cmd [] (feedAll monParserFeed (monParserInit p) [MON_VERSION, cmd, 0]) := by
  constructor
  · simp [Ends, monParserFeed, monParserInit, monParserIsDone]
  · constructor
    all_goals simp [monParserFeed, monParserInit, Stored.nil]

/-- Lengths that were read and data that was stored are a parsed request. -/
private theorem parsed_of_dataLeft {cmd nargs : UInt8} {lens : Vector UInt8 MON_MAX_ARGS}
    {w : List UInt8} {p : MonParser} (h : DataLeft cmd nargs lens 0 w p) :
    ∃ args, w = args.flatten ∧ args.length = nargs.toNat ∧
      args.map List.length = (lens.toList.take nargs.toNat).map UInt8.toNat ∧
      Parsed cmd args p := by
  obtain ⟨⟨hv, hcmd, rfl⟩, rfl, args, cur, rfl, hlen, hst, -, hlast⟩ := h
  rw [if_pos rfl] at hlast
  obtain ⟨hs, rfl, hcur⟩ := hlast
  have hargs : args.length = p.request.nargs.toNat := hlen.trans hcur
  have hparsed : Parsed cmd args p := ⟨hs, hv, hcmd, hargs.symm, hst⟩
  refine ⟨args, List.append_nil _, hargs, ?_, hparsed⟩
  rw [← hparsed.data_eq, MonRequest.data_lens]
  rfl

private theorem feedAll_finished {q : MonParser} {cmd nargs : UInt8} {k : ℕ}
    (hleft : LensLeft cmd nargs k [] q) {ls : List UInt8} (hls : ls.length = k + 1)
    (r : List UInt8) :
    (MonEnds q (ls ++ r) ↔ r.length = (ls.map UInt8.toNat).sum) ∧
      (r.length = (ls.map UInt8.toNat).sum →
        ∃ args, r = args.flatten ∧ args.map List.length = ls.map UInt8.toNat ∧
          Parsed cmd args (feedAll monParserFeed q (ls ++ r))) := by
  obtain ⟨w, c, rfl⟩ : ∃ w c, ls = w ++ [c] :=
    ⟨ls.dropLast, _, (List.dropLast_append_getLast (List.ne_nil_of_length_eq_add_one hls)).symm⟩
  have hw : w.length = k := by
    rw [List.length_append, List.length_singleton] at hls
    omega
  subst hw
  have hpart := partial_through lensLeft_step lensLeft_done w hleft
  have hlast := feedAll_phase (k := 0) lensLeft_step w (by simpa using hleft)
  obtain ⟨hiff, hdata⟩ := lensLeft_ends (by simpa using hlast) c r
  rw [List.append_assoc, List.singleton_append]
  refine ⟨(ends_append_of_unfinished hpart _).trans hiff, fun hr => ?_⟩
  obtain ⟨lens, hlens, hfinal⟩ := hdata hr
  obtain ⟨args, hflat, -, hmap, hparsed⟩ := parsed_of_dataLeft hfinal
  rw [hlens] at hmap
  rw [feedAll_append]
  exact ⟨args, hflat, hmap, hparsed⟩

private theorem monMessage_cons (cmd : UInt8) (args : List (List UInt8)) :
    monMessage cmd args = [MON_VERSION, cmd, UInt8.ofNat args.length] ++
      (args.map (fun a => UInt8.ofNat a.length) ++ args.flatten) := by
  rw [monMessage, List.append_assoc]

private theorem map_toNat_lens {args : List (List UInt8)} (h : ∀ a ∈ args, a.length ≤ 255) :
    (args.map (fun a => UInt8.ofNat a.length)).map UInt8.toNat = args.map List.length := by
  rw [List.map_map]
  apply List.map_congr_left
  intro a ha
  have hle := h a ha
  rw [Function.comp_apply, UInt8.toNat_ofNat']
  omega

/-- Every message of at most two arguments finishes the parser, which then holds
its request. -/
theorem mon_ends_message (p : MonParser) (cmd : UInt8) {args : List (List UInt8)}
    (hargs : args.length ≤ MON_MAX_ARGS) (hlen : ∀ a ∈ args, a.length ≤ 255) :
    Ends monParserFeed (fun p => monParserIsDone p.state) (monParserInit p) (monMessage cmd args) ∧
      Parsed cmd args (feedAll monParserFeed (monParserInit p) (monMessage cmd args)) := by
  cases hk : args.length with
  | zero =>
    obtain rfl := List.length_eq_zero_iff.mp hk
    exact header_zero p cmd
  | succ k =>
    have hnat : (UInt8.ofNat args.length).toNat = k + 1 := by
      rw [UInt8.toNat_ofNat', hk]
      unfold MON_MAX_ARGS at hargs
      omega
    obtain ⟨hpart, hleft⟩ := header_start p cmd hnat (by omega)
    have hlens := map_toNat_lens hlen
    have hsum : args.flatten.length =
        ((args.map (fun a => UInt8.ofNat a.length)).map UInt8.toNat).sum := by
      rw [hlens, List.length_flatten]
    have hcount : (args.map (fun a => UInt8.ofNat a.length)).length = k + 1 := by
      rw [List.length_map, hk]
    obtain ⟨hiff, hparsed⟩ := feedAll_finished hleft hcount args.flatten
    obtain ⟨args', hflat, hmap, hall⟩ := hparsed hsum
    obtain rfl : args = args' :=
      List.eq_iff_flatten_eq.mpr ⟨hflat, by rw [hmap, hlens]⟩
    rw [monMessage_cons]
    refine ⟨(ends_append_of_unfinished hpart _).mpr (hiff.mpr hsum), ?_⟩
    rw [feedAll_append]
    exact hall

/-- No message starts with another. -/
theorem monMessage_unique {cmd cmd' : UInt8} {args args' : List (List UInt8)}
    (hargs : args.length ≤ MON_MAX_ARGS) (hlen : ∀ a ∈ args, a.length ≤ 255)
    (hargs' : args'.length ≤ MON_MAX_ARGS) (hlen' : ∀ a ∈ args', a.length ≤ 255)
    {rest rest' : List UInt8} (h : monMessage cmd args ++ rest = monMessage cmd' args' ++ rest') :
    cmd = cmd' ∧ args = args' ∧ rest = rest' := by
  obtain ⟨hends, hparsed⟩ := mon_ends_message monParserZero cmd hargs hlen
  obtain ⟨hends', hparsed'⟩ := mon_ends_message monParserZero cmd' hargs' hlen'
  obtain ⟨heq, hrest⟩ := hends.unique hends' h
  rw [← heq] at hparsed'
  exact ⟨hparsed.cmd_eq.symm.trans hparsed'.cmd_eq, hparsed.data_eq.symm.trans hparsed'.data_eq,
    hrest⟩

/-- A finished parser rejected its header or read a whole message. -/
theorem mon_ends_cases {p : MonParser} {m : List UInt8}
    (h : Ends monParserFeed (fun p => monParserIsDone p.state) (monParserInit p) m) :
    (feedAll monParserFeed (monParserInit p) m).state = .error ∨
    ∃ cmd args, args.length ≤ MON_MAX_ARGS ∧ (∀ a ∈ args, a.length ≤ 255) ∧
      m = monMessage cmd args := by
  match m, h with
  | [], h => exact h.elim
  | [v], h =>
    left
    by_cases hv : v = MON_VERSION
    · simp [Ends, monParserFeed, monParserInit, monParserIsDone, hv] at h
    · simp [monParserFeed, monParserInit, hv]
  | [v, cmd], h =>
    by_cases hv : v = MON_VERSION
    · subst hv
      simp [Ends, monParserFeed, monParserInit, monParserIsDone] at h
    · simp [Ends, monParserFeed, monParserInit, monParserIsDone, hv] at h
  | v :: cmd :: n :: l, h =>
    obtain rfl : v = MON_VERSION := by
      by_contra hv
      simp [Ends, monParserFeed, monParserInit, monParserIsDone, hv] at h
    by_cases hmax : n.toNat > MON_MAX_ARGS
    · obtain rfl : l = [] := by
        simpa [Ends, monParserFeed, monParserInit, monParserIsDone, hmax] using h
      left
      simp [monParserFeed, monParserInit, hmax]
    · right
      cases hk : n.toNat with
      | zero =>
        obtain rfl : n = 0 := UInt8.toNat_inj.mp hk
        have hsplit : (MON_VERSION :: cmd :: 0 :: l) ++ [] = [MON_VERSION, cmd, 0] ++ l := by simp
        obtain ⟨hm, -⟩ := h.unique (header_zero p cmd).1 hsplit
        exact ⟨cmd, [], by simp, by simp, by rw [hm]; rfl⟩
      | succ k =>
        obtain ⟨hpart, hleft⟩ := header_start p cmd hk (by omega)
        have hends := (ends_append_of_unfinished hpart l).mp h
        obtain ⟨w, r, rfl, hw, -, hr⟩ := ends_through lensLeft_step lensLeft_done hleft hends
        cases r with
        | nil => exact hr.elim
        | cons c r =>
          have hls : (w ++ [c]).length = k + 1 := by
            rw [List.length_append, List.length_singleton, hw]
          obtain ⟨hiff, hparsed⟩ := feedAll_finished hleft hls r
          rw [List.append_assoc, List.singleton_append] at hiff
          obtain ⟨args, rfl, hmap, -⟩ := hparsed (hiff.mp hends)
          have hcount : args.length = k + 1 := by
            have hmapped := congrArg List.length hmap
            rw [List.length_map, List.length_map] at hmapped
            exact hmapped.trans hls
          have hlens : args.map (fun a => UInt8.ofNat a.length) = w ++ [c] := by
            rw [show (fun a : List UInt8 => UInt8.ofNat a.length) = UInt8.ofNat ∘ List.length
              from rfl, ← List.map_map, hmap, List.map_map]
            exact (List.map_congr_left fun b _ => by simp).trans (List.map_id _)
          refine ⟨cmd, args, by omega, ?_, ?_⟩
          · intro a ha
            have hmem : a.length ∈ (w ++ [c]).map UInt8.toNat := by
              rw [← hmap]
              exact List.mem_map_of_mem ha
            obtain ⟨b, -, hb⟩ := List.mem_map.mp hmem
            have := b.toNat_lt
            omega
          · rw [monMessage_cons, hlens, hcount, ← hk, UInt8.ofNat_toNat]
            simp

end Grammar

end SocksProxy.MonParsing
