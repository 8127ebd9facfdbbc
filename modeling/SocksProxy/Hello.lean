import SocksProxy.ByteBuffer
import SocksProxy.ByteScan

/-!
The consume loop shared by the three SOCKS message parsers, and hello.c: method
negotiation, RFC 1928 section 3. A hello parser either rejects the first byte
or finishes on a complete message, having reported every method in order.
-/
namespace SocksProxy.Hello

open ByteBuffer ByteScan

section Consume

variable {σ : Type*} (feed : σ → UInt8 → σ) (isDone isError : σ → Bool)

/-- The loop of hello_consume, auth_consume and request_consume. The first
argument bounds the bytes left to read. -/
def consumeLoop : ℕ → Buffer → σ → Bool → Buffer × σ × Bool
  | 0, b, p, errored => (b, p, errored)
  | n + 1, b, p, errored =>
    if bufferCanRead b then
      let p' := feed p (bufferRead b).1
      let errored' := errored || isError p'
      if isDone p' then ((bufferRead b).2, p', errored')
      else consumeLoop n (bufferRead b).2 p' errored'
    else (b, p, errored)

def consume (b : Buffer) (p : σ) : Buffer × σ × Bool :=
  consumeLoop feed isDone isError (bufferReadPtr b).length b p false

variable {feed isDone isError}

private theorem consumeLoop_cons {c : UInt8} {l : List UInt8} {b : Buffer}
    (hl : bufferReadPtr b = c :: l) (p : σ) (n : ℕ) :
    consumeLoop feed isDone isError (n + 1) b p false =
      if isDone (feed p c) then ((bufferRead b).2, feed p c, isError (feed p c))
      else consumeLoop feed isDone isError n (bufferRead b).2 (feed p c) (isError (feed p c)) := by
  have hcan : bufferCanRead b = true := by simp [bufferCanRead_iff, hl]
  simp only [consumeLoop, hcan, if_true, (bufferRead_cons hl).1, Bool.false_or]

private theorem consumeLoop_unfinished (herr : ∀ p, isError p = true → isDone p = true)
    {l : List UInt8} {b : Buffer} {p : σ} (hl : bufferReadPtr b = l) (hne : l ≠ [])
    (h : Partial feed isDone p l) :
    ∃ b', consumeLoop feed isDone isError l.length b p false = (b', feedAll feed p l, false) ∧
      bufferReadPtr b' = [] ∧ bufferLimit b' = bufferLimit b ∧
      bufferWritePtr b' = bufferLimit b := by
  induction l generalizing b p with
  | nil => exact absurd rfl hne
  | cons c l ih =>
    obtain ⟨hc, htail⟩ := h
    obtain ⟨-, hrest, hlimit, hroom⟩ := bufferRead_cons hl
    have hnoerr : isError (feed p c) = false := by
      by_contra he
      exact absurd (herr _ (by simpa using he)) (by simpa using hc)
    rw [List.length_cons, consumeLoop_cons hl, hc, hnoerr]
    by_cases hnil : l = []
    · subst hnil
      exact ⟨_, rfl, hrest, hlimit, by simpa using hroom⟩
    · obtain ⟨b', heq, hread, hlim, hfree⟩ := ih hrest hnil htail
      exact ⟨b', heq, hread, hlim.trans hlimit, hfree.trans hlimit⟩

private theorem consumeLoop_ends (herr : ∀ p, isError p = true → isDone p = true)
    {m r : List UInt8} {b : Buffer} {p : σ} (hl : bufferReadPtr b = m ++ r)
    (h : Ends feed isDone p m) (n : ℕ) :
    ∃ b', consumeLoop feed isDone isError (m.length + n) b p false =
        (b', feedAll feed p m, isError (feedAll feed p m)) ∧
      bufferReadPtr b' = r ∧ bufferLimit b' = bufferLimit b ∧
      bufferWritePtr b' = if r = [] then bufferLimit b else bufferWritePtr b := by
  induction m generalizing b p with
  | nil => exact h.elim
  | cons c m ih =>
    obtain ⟨-, hrest, hlimit, hroom⟩ := bufferRead_cons (l := m ++ r) hl
    have hlen : (c :: m).length + n = (m.length + n) + 1 := by
      rw [List.length_cons]
      omega
    rw [hlen, consumeLoop_cons (l := m ++ r) hl]
    by_cases hc : isDone (feed p c) = true
    · have hm : m = [] := by simpa [Ends, hc] using h
      subst hm
      rw [if_pos hc]
      exact ⟨_, rfl, hrest, hlimit, by simpa using hroom⟩
    · have hnoerr : isError (feed p c) = false := by
        by_contra he
        exact hc (herr _ (by simpa using he))
      have hm : Ends feed isDone (feed p c) m := by simpa [Ends, hc] using h
      obtain ⟨b', heq, hread, hlim, hfree⟩ := ih hrest hm
      have hmr : ¬ m ++ r = [] := by simp [hm.ne_nil]
      rw [if_neg hc, hnoerr]
      exact ⟨b', heq, hread, hlim.trans hlimit, by rw [hfree, hlimit, hroom, if_neg hmr]⟩

/-- Bytes that do not finish a message are all read; the array is free again. -/
theorem consume_unfinished (herr : ∀ p, isError p = true → isDone p = true) {b : Buffer} {p : σ}
    (hne : bufferReadPtr b ≠ []) (h : Partial feed isDone p (bufferReadPtr b)) :
    ∃ b', consume feed isDone isError b p = (b', feedAll feed p (bufferReadPtr b), false) ∧
      bufferReadPtr b' = [] ∧ bufferLimit b' = bufferLimit b ∧
      bufferWritePtr b' = bufferLimit b :=
  consumeLoop_unfinished herr rfl hne h

/-- A finished message is read to its last byte and what follows stays put. -/
theorem consume_ends (herr : ∀ p, isError p = true → isDone p = true) {b : Buffer} {p : σ}
    {m r : List UInt8} (hl : bufferReadPtr b = m ++ r) (h : Ends feed isDone p m) :
    ∃ b', consume feed isDone isError b p =
        (b', feedAll feed p m, isError (feedAll feed p m)) ∧
      bufferReadPtr b' = r ∧ bufferLimit b' = bufferLimit b ∧
      bufferWritePtr b' = if r = [] then bufferLimit b else bufferWritePtr b := by
  have hlen : (bufferReadPtr b).length = m.length + r.length := by rw [hl, List.length_append]
  unfold consume
  rw [hlen]
  exact consumeLoop_ends herr hl h r.length

/-- `b'` is `b` after everything but `r` was read from it. -/
structure Rest (b b' : Buffer) (r : List UInt8) : Prop where
  contents_eq : bufferReadPtr b' = r
  limit_eq : bufferLimit b' = bufferLimit b
  room_eq : bufferWritePtr b' = if r = [] then bufferLimit b else bufferWritePtr b

/-- A consume call on an unfinished parser: either the buffered bytes leave it
unfinished and are all read, or a finishing word ends among them. -/
theorem consume_cases (herr : ∀ p, isError p = true → isDone p = true) {b : Buffer} {p : σ}
    {seen : List UInt8} (hseen : Partial feed isDone p seen) (hne : bufferReadPtr b ≠ []) :
    (Partial feed isDone p (seen ++ bufferReadPtr b) ∧
      ∃ b', consume feed isDone isError b (feedAll feed p seen) =
          (b', feedAll feed p (seen ++ bufferReadPtr b), false) ∧ Rest b b' []) ∨
    ∃ m r, seen ++ bufferReadPtr b = m ++ r ∧ Ends feed isDone p m ∧
      ∃ b', consume feed isDone isError b (feedAll feed p seen) =
          (b', feedAll feed p m, isError (feedAll feed p m)) ∧ Rest b b' r := by
  have hcases : Partial feed isDone (feedAll feed p seen) (bufferReadPtr b) ∨
      ∃ m r, bufferReadPtr b = m ++ r ∧ Ends feed isDone (feedAll feed p seen) m :=
    partial_or_ends _ _
  rcases hcases with hrest | ⟨m, r, hl, hm⟩
  · left
    obtain ⟨b', heq, hread, hlimit, hroom⟩ := consume_unfinished herr hne hrest
    refine ⟨(partial_append p seen _).mpr ⟨hseen, hrest⟩, b', ?_, hread, hlimit, ?_⟩
    · rw [feedAll_append]
      exact heq
    · rw [if_pos rfl]
      exact hroom
  · right
    obtain ⟨b', heq, hread, hlimit, hroom⟩ := consume_ends herr hl hm
    refine ⟨seen ++ m, r, by rw [hl, List.append_assoc],
      (ends_append_of_unfinished hseen m).mpr hm, b', ?_, hread, hlimit, hroom⟩
    rw [feedAll_append]
    exact heq

end Consume

/-- `enum hello_state`. -/
inductive HelloState
  | helloVersion
  | helloNmethods
  | helloMethods
  | helloDone
  | helloErrorUnsupportedVersion
  deriving DecidableEq

/-- `struct hello_parser`; `data` is what the C pointer of that name points to,
the argument of the method callback. -/
structure HelloParser (δ : Type*) where
  data : δ
  state : HelloState
  remaining : UInt8

variable {δ : Type*}

def helloParserInit (p : HelloParser δ) : HelloParser δ :=
  { p with state := .helloVersion, remaining := 0 }

/-- hello_parser_feed; `onMethod` is the on_authentication_method callback. -/
def helloParserFeed (onMethod : Option (δ → UInt8 → δ)) (p : HelloParser δ) (b : UInt8) :
    HelloParser δ :=
  match p.state with
  | .helloVersion =>
    if b = 0x05 then { p with state := .helloNmethods }
    else { p with state := .helloErrorUnsupportedVersion }
  | .helloNmethods =>
    { p with remaining := b, state := if b = 0 then .helloDone else .helloMethods }
  | .helloMethods =>
    let data := match onMethod with
      | some f => f p.data b
      | none => p.data
    let remaining := p.remaining - 1
    { data := data, remaining := remaining,
      state := if remaining = 0 then .helloDone else p.state }
  | .helloDone => p
  | .helloErrorUnsupportedVersion => p

def helloIsDone : HelloState → Bool
  | .helloErrorUnsupportedVersion => true
  | .helloDone => true
  | _ => false

/-- What hello_is_done stores through its `errored` argument. -/
def helloIsErrored : HelloState → Bool
  | .helloErrorUnsupportedVersion => true
  | _ => false

def helloConsume (onMethod : Option (δ → UInt8 → δ)) (b : Buffer) (p : HelloParser δ) :
    Buffer × HelloParser δ × Bool :=
  consume (helloParserFeed onMethod) (fun p => helloIsDone p.state)
    (fun p => helloIsErrored p.state) b p

theorem helloErrored_done (p : HelloParser δ) (h : helloIsErrored p.state = true) :
    helloIsDone p.state = true := by
  cases hs : p.state <;> simp_all [helloIsErrored, helloIsDone]

/-- VER NMETHODS METHODS. -/
def helloMessage (methods : List UInt8) : List UInt8 :=
  0x05 :: UInt8.ofNat methods.length :: methods

section Grammar

variable (f : δ → UInt8 → δ)

private abbrev HelloEnds (p : HelloParser δ) (l : List UInt8) : Prop :=
  Ends (helloParserFeed (some f)) (fun p => helloIsDone p.state) p l

private theorem pred_toNat {n : UInt8} {k : ℕ} (h : n.toNat = k + 1) : (n - 1).toNat = k := by
  have h1 : (1 : UInt8).toNat = 1 := rfl
  rw [UInt8.toNat_sub_of_le _ _ (by rw [UInt8.le_iff_toNat_le]; omega)]
  omega

private theorem eq_zero_of_toNat {n : UInt8} (h : n.toNat = 0) : n = 0 := UInt8.toNat_inj.mp h

private theorem ne_zero_of_toNat {n : UInt8} {k : ℕ} (h : n.toNat = k + 1) : n ≠ 0 := by
  rintro rfl
  simp at h

/-- `k` methods are missing; `d` folded over those read so far is stored. -/
private def MethodsLeft (d : δ) (k : ℕ) (w : List UInt8) (p : HelloParser δ) : Prop :=
  p.remaining.toNat = k ∧ p.data = w.foldl f d ∧
    p.state = if k = 0 then .helloDone else .helloMethods

private theorem methodsLeft_step {d : δ} {k : ℕ} {w : List UInt8} {p : HelloParser δ} (c : UInt8)
    (h : MethodsLeft f d (k + 1) w p) :
    MethodsLeft f d k (w ++ [c]) (helloParserFeed (some f) p c) := by
  obtain ⟨hr, hd, hs⟩ := h
  have hpred := pred_toNat hr
  have hzero : p.remaining - 1 = 0 ↔ k = 0 := by
    rw [← UInt8.toNat_inj, hpred]
    rfl
  rw [if_neg (by omega)] at hs
  simp [helloParserFeed, MethodsLeft, hs, hpred, hd, hzero]

private theorem methodsLeft_done {d : δ} {k : ℕ} {w : List UInt8} {p : HelloParser δ}
    (h : MethodsLeft f d k w p) : helloIsDone p.state = decide (k = 0) := by
  rw [h.2.2]
  split
  next hk => simp [helloIsDone, hk]
  next hk => simp [helloIsDone, hk]

private theorem methods_ends {d : δ} {k : ℕ} {p : HelloParser δ}
    (h : MethodsLeft f d (k + 1) [] p) (l : List UInt8) :
    HelloEnds f p l ↔ l.length = k + 1 :=
  ends_iff_of_last (methodsLeft_step f) (fun h => by simpa using methodsLeft_done f h)
    (fun h => by simpa using methodsLeft_done f h) h l

private theorem methodsLeft_zero {d : δ} {w : List UInt8} {p : HelloParser δ}
    (h : MethodsLeft f d 0 w p) :
    p = { data := w.foldl f d, state := .helloDone, remaining := 0 } := by
  obtain ⟨hr, hd, hs⟩ := h
  cases p
  simp only [HelloParser.mk.injEq]
  exact ⟨hd, hs, eq_zero_of_toNat hr⟩

/-- The parser after VER and a nonzero NMETHODS. -/
private def afterCount (p : HelloParser δ) (n : UInt8) : HelloParser δ :=
  { data := p.data, state := .helloMethods, remaining := n }

private theorem feedAll_count (p : HelloParser δ) {n : UInt8} (hn : n ≠ 0) :
    feedAll (helloParserFeed (some f)) (helloParserInit p) [0x05, n] = afterCount p n := by
  simp [helloParserFeed, helloParserInit, afterCount, hn]

private theorem helloEnds_iff_methods (p : HelloParser δ) {n : UInt8} (hn : n ≠ 0)
    (l : List UInt8) :
    HelloEnds f (helloParserInit p) (0x05 :: n :: l) ↔ HelloEnds f (afterCount p n) l := by
  have hpart : Partial (helloParserFeed (some f)) (fun p => helloIsDone p.state)
      (helloParserInit p) [0x05, n] := by
    simp [Partial, helloParserFeed, helloParserInit, helloIsDone, hn]
  rw [← feedAll_count f p hn]
  exact ends_append_of_unfinished hpart l

private theorem feedAll_message (p : HelloParser δ) {n : UInt8} {k : ℕ} (hk : n.toNat = k + 1)
    {l : List UInt8} (hl : l.length = k + 1) :
    feedAll (helloParserFeed (some f)) (helloParserInit p) (0x05 :: n :: l) =
      { data := l.foldl f p.data, state := .helloDone, remaining := 0 } := by
  have hleft : MethodsLeft f p.data (0 + l.length) [] (afterCount p n) :=
    ⟨by simp [afterCount, hk, hl], rfl, by simp [afterCount, hl]⟩
  have hall := methodsLeft_zero f (feedAll_phase (methodsLeft_step f) l hleft)
  rw [← feedAll_count f p (ne_zero_of_toNat hk), ← feedAll_append] at hall
  exact hall

/-- A finished hello is a rejected version byte or a complete message; then
every method, and nothing else, went through the callback. -/
theorem hello_ends_cases {p : HelloParser δ} {m : List UInt8}
    (h : Ends (helloParserFeed (some f)) (fun p => helloIsDone p.state) (helloParserInit p) m) :
    (∃ c, c ≠ 0x05 ∧ m = [c] ∧
      (feedAll (helloParserFeed (some f)) (helloParserInit p) m).state =
        .helloErrorUnsupportedVersion) ∨
    ∃ methods, methods.length ≤ 255 ∧ m = helloMessage methods ∧
      feedAll (helloParserFeed (some f)) (helloParserInit p) m =
        { data := methods.foldl f p.data, state := .helloDone, remaining := 0 } := by
  cases m with
  | nil => exact h.elim
  | cons v m =>
    by_cases hv : v = 0x05
    · subst hv
      right
      cases m with
      | nil => simp [Ends, helloParserFeed, helloParserInit, helloIsDone] at h
      | cons n l =>
        by_cases hn : n = 0
        · subst hn
          have hl : l = [] := by
            simpa [Ends, helloParserFeed, helloParserInit, helloIsDone] using h
          exact ⟨[], by simp, by simp [helloMessage, hl],
            by simp [hl, helloParserFeed, helloParserInit]⟩
        · obtain ⟨k, hk⟩ : ∃ k, n.toNat = k + 1 :=
            Nat.exists_eq_succ_of_ne_zero (fun h0 => hn (eq_zero_of_toNat h0))
          have hleft : MethodsLeft f p.data (k + 1) [] (afterCount p n) := ⟨hk, rfl, rfl⟩
          have hlen : l.length = k + 1 :=
            (methods_ends f hleft l).mp ((helloEnds_iff_methods f p hn l).mp h)
          have hlt := n.toNat_lt
          refine ⟨l, by omega, ?_, feedAll_message f p hk hlen⟩
          rw [helloMessage, hlen, ← hk, UInt8.ofNat_toNat]
    · left
      have hm : m = [] := by
        simpa [Ends, helloParserFeed, helloParserInit, helloIsDone, hv] using h
      exact ⟨v, hv, by rw [hm], by simp [hm, helloParserFeed, helloParserInit, hv]⟩

/-- Every message of at most 255 methods finishes the parser. -/
theorem hello_ends_message (p : HelloParser δ) {methods : List UInt8}
    (h : methods.length ≤ 255) :
    Ends (helloParserFeed (some f)) (fun p => helloIsDone p.state) (helloParserInit p)
      (helloMessage methods) := by
  cases hk : methods.length with
  | zero =>
    have hm : methods = [] := List.length_eq_zero_iff.mp hk
    simp [hm, helloMessage, Ends, helloParserFeed, helloParserInit, helloIsDone]
  | succ k =>
    have hnat : (UInt8.ofNat (k + 1)).toNat = k + 1 := by
      rw [UInt8.toNat_ofNat']
      omega
    have hleft : MethodsLeft f p.data (k + 1) [] (afterCount p (UInt8.ofNat (k + 1))) :=
      ⟨hnat, rfl, rfl⟩
    rw [helloMessage, hk]
    apply (helloEnds_iff_methods f p (ne_zero_of_toNat hnat) methods).mpr
    exact (methods_ends f hleft methods).mpr hk

end Grammar

/-- hello_marshall: -1 when the buffer has no room for two bytes. -/
def helloMarshall (b : Buffer) (method : UInt8) : Option Buffer :=
  if h : 2 ≤ bufferWritePtr b then some (bufferPut b [0x05, method] h) else none

end SocksProxy.Hello
