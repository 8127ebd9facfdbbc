import SocksProxy.Request

/-!
The three client messages as a grammar. A reference parser looks at a whole
stream at once; the parsers of the source are fed the stream in chunks, with a
consume call after each chunk until one of the calls is done. Both come to the
same end: the same fields, the same bytes left over, the same first bad byte.
-/
namespace SocksProxy.MessageGrammar

open ByteBuffer ByteScan Hello Auth Request

section Chunks

/-- One chunk is appended to the buffer, and consumed unless the message is
done. `none` when the chunk does not fit. -/
def feedChunk {σ : Type*} (consume : Buffer → σ → Buffer × σ × Bool) (isDone : σ → Bool) :
    Buffer × σ × Bool → List UInt8 → Option (Buffer × σ × Bool)
  | (b, p, errored), chunk =>
    if h : chunk.length ≤ bufferWritePtr b then
      if isDone p then some (bufferPut b chunk h, p, errored)
      else some (consume (bufferPut b chunk h) p)
    else none

/-- The chunks in turn, into an empty buffer of `n` bytes. -/
def feedChunks {σ : Type*} (consume : Buffer → σ → Buffer × σ × Bool) (isDone : σ → Bool) (n : ℕ)
    (p : σ) (chunks : List (List UInt8)) : Option (Buffer × σ × Bool) :=
  chunks.foldlM (feedChunk consume isDone) (bufferInit n, p, false)

variable {σ : Type*} {feed : σ → UInt8 → σ} {isDone isError : σ → Bool} {p₀ : σ}

/-- Where an automaton is after the stream `l`, and what it left in the buffer. -/
inductive Fed (feed : σ → UInt8 → σ) (isDone isError : σ → Bool) (p₀ : σ) (l : List UInt8)
    (b : Buffer) : σ → Bool → Prop
  | unfinished : Partial feed isDone p₀ l → bufferReadPtr b = [] →
      Fed feed isDone isError p₀ l b (feedAll feed p₀ l) false
  | finished {m r : List UInt8} : l = m ++ r → Ends feed isDone p₀ m → bufferReadPtr b = r →
      Fed feed isDone isError p₀ l b (feedAll feed p₀ m) (isError (feedAll feed p₀ m))

/-- One more chunk, whatever came before it. -/
private theorem fed_chunk (herr : ∀ p, isError p = true → isDone p = true)
    (hstart : isDone p₀ = false) {l chunk : List UInt8} {b b' : Buffer} {p p' : σ}
    {errored errored' : Bool} (h : Fed feed isDone isError p₀ l b p errored)
    (hnext : feedChunk (consume feed isDone isError) isDone (b, p, errored) chunk =
      some (b', p', errored')) : Fed feed isDone isError p₀ (l ++ chunk) b' p' errored' := by
  simp only [feedChunk] at hnext
  by_cases hroom : chunk.length ≤ bufferWritePtr b
  swap
  · rw [dif_neg hroom] at hnext
    exact absurd hnext (by simp)
  rw [dif_pos hroom] at hnext
  cases h with
  | unfinished hpart hempty =>
    have hopen : isDone (feedAll feed p₀ l) = false := by
      by_cases hl : l = []
      · rw [hl]
        exact hstart
      · exact hpart.unfinished hl
    rw [hopen] at hnext
    have hput : bufferReadPtr (bufferPut b chunk hroom) = chunk := by
      rw [bufferReadPtr_put, hempty, List.nil_append]
    by_cases hchunk : chunk = []
    · -- an empty chunk leaves nothing to read
      subst hchunk
      have hsame : consume feed isDone isError (bufferPut b [] hroom) (feedAll feed p₀ l) =
          (bufferPut b [] hroom, feedAll feed p₀ l, false) := by
        rw [consume, hput]
        rfl
      simp only [hsame, Bool.false_eq_true, if_false, Option.some.injEq, Prod.mk.injEq] at hnext
      obtain ⟨rfl, rfl, rfl⟩ := hnext
      rw [List.append_nil]
      exact .unfinished hpart hput
    · have hne : bufferReadPtr (bufferPut b chunk hroom) ≠ [] := by
        rw [hput]
        exact hchunk
      rcases consume_cases herr hpart hne with ⟨hall, b₁, hcons, hrest⟩ |
        ⟨m, r, hsplit, hends, b₁, hcons, hrest⟩
      · rw [hput] at hall hcons
        simp only [hcons, Bool.false_eq_true, if_false, Option.some.injEq, Prod.mk.injEq] at hnext
        obtain ⟨rfl, rfl, rfl⟩ := hnext
        exact .unfinished hall hrest.contents_eq
      · rw [hput] at hsplit
        simp only [hcons, Bool.false_eq_true, if_false, Option.some.injEq, Prod.mk.injEq] at hnext
        obtain ⟨rfl, rfl, rfl⟩ := hnext
        exact .finished hsplit hends hrest.contents_eq
  | @finished m r hsplit hends hrest =>
    have hdone := hends.finished
    rw [hdone] at hnext
    simp only [if_true, Option.some.injEq, Prod.mk.injEq] at hnext
    obtain ⟨rfl, rfl, rfl⟩ := hnext
    refine .finished (r := r ++ chunk) ?_ hends ?_
    · rw [hsplit, List.append_assoc]
    · rw [bufferReadPtr_put, hrest]

/-- However the stream is cut, what counts is the stream. -/
theorem fed_chunks (herr : ∀ p, isError p = true → isDone p = true) (hstart : isDone p₀ = false)
    {n : ℕ} {chunks : List (List UInt8)} {b : Buffer} {p : σ} {errored : Bool}
    (h : feedChunks (consume feed isDone isError) isDone n p₀ chunks = some (b, p, errored)) :
    Fed feed isDone isError p₀ chunks.flatten b p errored := by
  have hmain : ∀ (chunks : List (List UInt8)) (l : List UInt8) (b₁ : Buffer) (p₁ : σ) (e₁ : Bool),
      Fed feed isDone isError p₀ l b₁ p₁ e₁ →
      chunks.foldlM (feedChunk (consume feed isDone isError) isDone) (b₁, p₁, e₁) =
        some (b, p, errored) → Fed feed isDone isError p₀ (l ++ chunks.flatten) b p errored := by
    intro chunks
    induction chunks with
    | nil =>
      intro l b₁ p₁ e₁ hfed hfold
      rw [List.foldlM_nil] at hfold
      obtain ⟨rfl, rfl, rfl⟩ : b₁ = b ∧ p₁ = p ∧ e₁ = errored := by
        simpa using Option.some.inj hfold
      rw [List.flatten_nil, List.append_nil]
      exact hfed
    | cons chunk chunks ih =>
      intro l b₁ p₁ e₁ hfed hfold
      rw [List.foldlM_cons] at hfold
      obtain ⟨⟨b₂, p₂, e₂⟩, hnext, hfold⟩ := Option.bind_eq_some_iff.mp hfold
      rw [List.flatten_cons, ← List.append_assoc]
      exact ih _ _ _ _ (fed_chunk herr hstart hfed hnext) hfold
  have hinit : Fed feed isDone isError p₀ [] (bufferInit n) p₀ false :=
    .unfinished trivial (bufferReadPtr_init n)
  exact hmain chunks [] _ _ _ hinit h

end Chunks

section Reference

/-- What the reference parser says of a stream: there is no complete message
yet, `bad` ends with the first byte that no message has there, or a message and
what follows it. -/
inductive Parse (μ : Type*)
  | more
  | reject (bad rest : List UInt8)
  | accept (message : μ) (rest : List UInt8)
  deriving DecidableEq

/-- 05, the number of methods, the methods. -/
def parseHello : List UInt8 → Parse (List UInt8)
  | [] => .more
  | v :: l =>
    if v ≠ 0x05 then .reject [v] l
    else match l with
      | [] => .more
      | n :: l =>
        if l.length < n.toNat then .more else .accept (l.take n.toNat) (l.drop n.toNat)

/-- 01, two fields that each follow their length. -/
def parseAuth : List UInt8 → Parse (List UInt8 × List UInt8)
  | [] => .more
  | v :: l =>
    if v ≠ 0x01 then .reject [v] l
    else match l with
      | [] => .more
      | n :: l =>
        match l.drop n.toNat with
        | [] => .more
        | k :: rest =>
          if rest.length < k.toNat then .more
          else .accept (l.take n.toNat, rest.take k.toNat) (rest.drop k.toNat)

/-- The fields of a request. -/
structure Fields where
  command : UInt8
  atyp : UInt8
  address : List UInt8
  port : UInt8 × UInt8
  deriving DecidableEq

/-- `n` bytes of address and two of port. -/
def parseAddress (command atyp : UInt8) (n : ℕ) (l : List UInt8) : Parse Fields :=
  match l.drop n with
  | hi :: lo :: rest => .accept ⟨command, atyp, l.take n, (hi, lo)⟩ rest
  | _ => .more

def parseRequest : List UInt8 → Parse Fields
  | [] => .more
  | v :: l =>
    if v ≠ 0x05 then .reject [v] l
    else match l with
      | [] => .more
      | [_] => .more
      | c :: r :: l =>
        if r ≠ 0x00 then .reject [0x05, c, r] l
        else match l with
          | [] => .more
          | a :: l =>
            if a = SOCKS5_ATYP_IPV4 then parseAddress c a 4 l
            else if a = SOCKS5_ATYP_IPV6 then parseAddress c a 16 l
            else if a = SOCKS5_ATYP_DOMAINNAME then
              match l with
              | [] => .more
              | n :: l =>
                if n = 0 then .reject [0x05, c, 0x00, a, 0] l else parseAddress c a n.toNat l
            else .reject [0x05, c, 0x00, a] l

/-- `m` are the bytes of a hello with these methods. -/
def HelloBytes (methods m : List UInt8) : Prop :=
  methods.length ≤ 255 ∧ m = helloMessage methods

def AuthBytes (fields : List UInt8 × List UInt8) (m : List UInt8) : Prop :=
  fields.1.length ≤ 255 ∧ fields.2.length ≤ 255 ∧ m = authMessage fields.1 fields.2

def RequestBytes (f : Fields) (m : List UInt8) : Prop :=
  ValidAddress f.atyp f.address ∧ m = requestMessage f.command f.atyp f.address f.port

/-- `bad` begins no message, but does without its last byte. -/
def FirstBad {μ : Type*} (bytes : μ → List UInt8 → Prop) (bad : List UInt8) : Prop :=
  (∀ f m, bytes f m → ¬ bad <+: m) ∧ bad ≠ [] ∧ ∃ f m, bytes f m ∧ bad.dropLast <+: m

/-- A one-shot parser of the messages `bytes`. -/
structure Parses {μ : Type*} (bytes : μ → List UInt8 → Prop) (parse : List UInt8 → Parse μ) :
    Prop where
  accept_iff : ∀ l f rest, parse l = .accept f rest ↔ ∃ m, bytes f m ∧ l = m ++ rest
  reject_bad : ∀ l bad rest, parse l = .reject bad rest → l = bad ++ rest ∧ FirstBad bytes bad

/-- The calls that follow the chunks of a stream end as the reference parser of
the whole stream says; `holds` is what the parser then keeps of the message. -/
def Agrees {σ μ : Type*} (consume : Buffer → σ → Buffer × σ × Bool) (isDone : σ → Bool) (p₀ : σ)
    (parse : List UInt8 → Parse μ) (holds : μ → σ → Prop) : Prop :=
  ∀ n chunks b p errored, feedChunks consume isDone n p₀ chunks = some (b, p, errored) →
    match parse chunks.flatten with
    | .more => isDone p = false ∧ errored = false ∧ bufferReadPtr b = []
    | .reject _ rest => isDone p = true ∧ errored = true ∧ bufferReadPtr b = rest
    | .accept f rest => isDone p = true ∧ errored = false ∧ bufferReadPtr b = rest ∧ holds f p

end Reference

section Agreement

variable {σ μ : Type*} {feed : σ → UInt8 → σ} {isDone isError : σ → Bool} {p₀ : σ}
  {bytes : μ → List UInt8 → Prop} {rejected : List UInt8 → Prop} {holds : μ → σ → Prop}
  {parse : List UInt8 → Parse μ}

/-- The words that finish an automaton: messages and rejected words. -/
structure Recognises (feed : σ → UInt8 → σ) (isDone isError : σ → Bool) (p₀ : σ)
    (bytes : μ → List UInt8 → Prop) (rejected : List UInt8 → Prop) (holds : μ → σ → Prop) :
    Prop where
  start : isDone p₀ = false
  message : ∀ {f m}, bytes f m → Ends feed isDone p₀ m ∧
    isError (feedAll feed p₀ m) = false ∧ holds f (feedAll feed p₀ m)
  bad : ∀ {m}, rejected m → Ends feed isDone p₀ m ∧ isError (feedAll feed p₀ m) = true
  cases : ∀ {m}, Ends feed isDone p₀ m → (∃ f, bytes f m) ∨ rejected m

/-- A rejected word begins no message. -/
theorem Recognises.not_prefix (h : Recognises feed isDone isError p₀ bytes rejected holds)
    {bad m : List UInt8} {f : μ} (hbad : rejected bad) (hm : bytes f m) : ¬ bad <+: m := by
  rintro ⟨r, hr⟩
  obtain ⟨hends, herror⟩ := h.bad hbad
  obtain ⟨hends', hgood, -⟩ := h.message hm
  have hwhole : bad ++ r = m ++ [] := by rw [hr, List.append_nil]
  have hsame : bad = m := (hends.unique hends' hwhole).1
  rw [hsame, hgood] at herror
  exact absurd herror (by decide)

/-- An automaton and a reference parser with the same messages and the same
rejected words agree on every stream and every cut. -/
theorem Recognises.agrees (h : Recognises feed isDone isError p₀ bytes rejected holds)
    (herr : ∀ p, isError p = true → isDone p = true)
    (haccept : ∀ l f rest, parse l = .accept f rest ↔ ∃ m, bytes f m ∧ l = m ++ rest)
    (hreject : ∀ l bad rest, parse l = .reject bad rest ↔ rejected bad ∧ l = bad ++ rest) :
    Agrees (consume feed isDone isError) isDone p₀ parse holds := by
  intro n chunks b p errored hfeed
  cases fed_chunks herr h.start hfeed with
  | unfinished hpart hempty =>
    have hmore : parse chunks.flatten = .more := by
      cases hparse : parse chunks.flatten with
      | more => rfl
      | reject bad rest =>
        obtain ⟨hbad, hl⟩ := (hreject _ _ _).mp hparse
        rw [hl] at hpart
        exact absurd (h.bad hbad).1 hpart.not_ends
      | accept f rest =>
        obtain ⟨m, hm, hl⟩ := (haccept _ _ _).mp hparse
        rw [hl] at hpart
        exact absurd (h.message hm).1 hpart.not_ends
    rw [hmore]
    refine ⟨?_, rfl, hempty⟩
    by_cases hl : chunks.flatten = []
    · rw [hl]
      exact h.start
    · exact hpart.unfinished hl
  | @finished m r hsplit hends hrest =>
    rcases h.cases hends with ⟨f, hm⟩ | hbad
    · rw [(haccept _ f r).mpr ⟨m, hm, hsplit⟩]
      obtain ⟨-, hgood, hholds⟩ := h.message hm
      exact ⟨hends.finished, hgood, hrest, hholds⟩
    · rw [(hreject _ m r).mpr ⟨hbad, hsplit⟩]
      exact ⟨hends.finished, (h.bad hbad).2, hrest⟩

theorem Recognises.parses (h : Recognises feed isDone isError p₀ bytes rejected holds)
    (haccept : ∀ l f rest, parse l = .accept f rest ↔ ∃ m, bytes f m ∧ l = m ++ rest)
    (hreject : ∀ l bad rest, parse l = .reject bad rest ↔ rejected bad ∧ l = bad ++ rest)
    (hviable : ∀ bad, rejected bad → ∃ f m, bytes f m ∧ bad.dropLast <+: m) :
    Parses bytes parse where
  accept_iff := haccept
  reject_bad := by
    intro l bad rest hparse
    obtain ⟨hbad, hl⟩ := (hreject l bad rest).mp hparse
    exact ⟨hl, fun f m hm => h.not_prefix hbad hm, (h.bad hbad).1.ne_nil, hviable bad hbad⟩

end Agreement

section HelloGrammar

variable {δ : Type*}

/-- What a missing callback does. -/
def reported (onMethod : Option (δ → UInt8 → δ)) : δ → UInt8 → δ := onMethod.getD fun d _ => d

theorem helloParserFeed_reported (onMethod : Option (δ → UInt8 → δ)) :
    helloParserFeed onMethod = helloParserFeed (some (reported onMethod)) := by
  cases onMethod with
  | some f => rfl
  | none =>
    funext p b
    cases hs : p.state <;> simp [helloParserFeed, hs, reported]

/-- A finished hello parser has reported the methods, in order. -/
def HelloHolds (f : δ → UInt8 → δ) (d : δ) (methods : List UInt8) (p : HelloParser δ) : Prop :=
  p.state = .helloDone ∧ p.data = methods.foldl f d

def HelloRejected (m : List UInt8) : Prop := ∃ c, c ≠ 0x05 ∧ m = [c]

private theorem toNat_ofNat_length {l : List UInt8} (h : l.length ≤ 255) :
    (UInt8.ofNat l.length).toNat = l.length := by
  rw [UInt8.toNat_ofNat']
  omega

theorem hello_recognises (f : δ → UInt8 → δ) (p : HelloParser δ) :
    Recognises (helloParserFeed (some f)) (fun p => helloIsDone p.state)
      (fun p => helloIsErrored p.state) (helloParserInit p) HelloBytes HelloRejected
      (HelloHolds f p.data) where
  start := rfl
  message := by
    rintro methods m ⟨hlen, rfl⟩
    have hends := hello_ends_message f p hlen
    refine ⟨hends, ?_⟩
    rcases hello_ends_cases f hends with ⟨c, hc, hbad, -⟩ | ⟨methods', hlen', hsame, hstate⟩
    · exact absurd hbad (by simp [helloMessage])
    · rw [hstate]
      refine ⟨rfl, rfl, ?_⟩
      simp only [helloMessage, List.cons.injEq, true_and] at hsame
      rw [hsame.2]
  bad := by
    rintro m ⟨c, hc, rfl⟩
    have hstate : helloParserFeed (some f) (helloParserInit p) c =
        { helloParserInit p with state := .helloErrorUnsupportedVersion } := by
      simp [helloParserFeed, helloParserInit, hc]
    refine ⟨?_, ?_⟩
    · simp [Ends, hstate, helloIsDone]
    · rw [feedAll_cons, feedAll_nil, hstate]
      rfl
  cases := by
    intro m hends
    rcases hello_ends_cases f hends with ⟨c, hc, hm, -⟩ | ⟨methods, hlen, hm, -⟩
    · exact Or.inr ⟨c, hc, hm⟩
    · exact Or.inl ⟨methods, hlen, hm⟩

theorem parseHello_accept (l methods rest : List UInt8) :
    parseHello l = .accept methods rest ↔ ∃ m, HelloBytes methods m ∧ l = m ++ rest := by
  constructor
  · intro h
    match l, h with
    | v :: n :: l, h =>
      by_cases hv : v = 0x05
      swap
      · simp [parseHello, hv] at h
      by_cases hlen : l.length < n.toNat
      · simp [parseHello, hv, hlen] at h
      simp only [parseHello, hv, ne_eq, not_true_eq_false, if_false, hlen, Parse.accept.injEq] at h
      obtain ⟨rfl, rfl⟩ := h
      have hn := n.toNat_lt
      have htake : (l.take n.toNat).length = n.toNat := by
        rw [List.length_take]
        omega
      refine ⟨0x05 :: n :: l.take n.toNat, ⟨by omega, ?_⟩, ?_⟩
      · rw [helloMessage, htake, UInt8.ofNat_toNat]
      · rw [hv, List.cons_append, List.cons_append, List.take_append_drop]
    | [v], h =>
      by_cases hv : v = 0x05 <;> simp [parseHello, hv] at h
  · rintro ⟨m, ⟨hlen, rfl⟩, rfl⟩
    have hn := toNat_ofNat_length hlen
    have hroom : ¬ (methods ++ rest).length < methods.length := by simp
    simp only [helloMessage, List.cons_append, parseHello, ne_eq, not_true_eq_false, if_false, hn,
      hroom, List.take_left, List.drop_left]

theorem parseHello_reject (l bad rest : List UInt8) :
    parseHello l = .reject bad rest ↔ HelloRejected bad ∧ l = bad ++ rest := by
  constructor
  · intro h
    match l, h with
    | v :: l, h =>
      by_cases hv : v = 0x05
      · match l, h with
        | [], h => simp [parseHello, hv] at h
        | n :: l, h =>
          by_cases hlen : l.length < n.toNat <;> simp [parseHello, hv, hlen] at h
      · simp only [parseHello, ne_eq, hv, not_false_eq_true, if_true, Parse.reject.injEq] at h
        obtain ⟨rfl, rfl⟩ := h
        exact ⟨⟨v, hv, rfl⟩, rfl⟩
  · rintro ⟨⟨c, hc, rfl⟩, rfl⟩
    simp [parseHello, hc]

theorem hello_viable (bad : List UInt8) (h : HelloRejected bad) :
    ∃ f m, HelloBytes f m ∧ bad.dropLast <+: m := by
  obtain ⟨c, -, rfl⟩ := h
  exact ⟨[], helloMessage [], ⟨Nat.zero_le _, rfl⟩, List.nil_prefix⟩

end HelloGrammar

section AuthGrammar

/-- A finished auth parser has both fields at the start of their arrays, each
followed by a NUL. -/
def AuthHolds (fields : List UInt8 × List UInt8) (p : AuthParser) : Prop :=
  p.state = .authDone ∧ Holds p.uname (fields.1 ++ [0]) ∧ Holds p.passwd (fields.2 ++ [0])

def AuthRejected (m : List UInt8) : Prop := ∃ c, c ≠ 0x01 ∧ m = [c]

theorem auth_recognises (p : AuthParser) :
    Recognises authParserFeed (fun p => authIsDone p.state) (fun p => authIsErrored p.state)
      (authParserInit p) AuthBytes AuthRejected AuthHolds where
  start := rfl
  message := by
    rintro ⟨u, w⟩ m ⟨hu, hw, rfl⟩
    obtain ⟨hends, hstate, huname, hpasswd⟩ := auth_ends_message p hu hw
    exact ⟨hends, by rw [hstate]; rfl, hstate, huname, hpasswd⟩
  bad := by
    rintro m ⟨c, hc, rfl⟩
    have hstate : authParserFeed (authParserInit p) c =
        { authParserInit p with state := .authErrorUnsupportedVersion } := by
      simp [authParserFeed, authParserInit, hc]
    refine ⟨?_, ?_⟩
    · simp [Ends, hstate, authIsDone]
    · rw [feedAll_cons, feedAll_nil, hstate]
      rfl
  cases := by
    intro m hends
    rcases auth_ends_cases hends with ⟨c, hc, hm, -⟩ | ⟨u, w, hu, hw, hm⟩
    · exact Or.inr ⟨c, hc, hm⟩
    · exact Or.inl ⟨(u, w), hu, hw, hm⟩

theorem parseAuth_accept (l : List UInt8) (fields : List UInt8 × List UInt8) (rest : List UInt8) :
    parseAuth l = .accept fields rest ↔ ∃ m, AuthBytes fields m ∧ l = m ++ rest := by
  constructor
  · intro h
    match l, h with
    | v :: n :: l, h =>
      by_cases hv : v = 0x01
      swap
      · simp [parseAuth, hv] at h
      cases hdrop : l.drop n.toNat with
      | nil => simp [parseAuth, hv, hdrop] at h
      | cons k tail =>
        by_cases hlen : tail.length < k.toNat
        · simp [parseAuth, hv, hdrop, hlen] at h
        simp only [parseAuth, hv, ne_eq, not_true_eq_false, if_false, hdrop, hlen,
          Parse.accept.injEq] at h
        obtain ⟨rfl, rfl⟩ := h
        have hn := n.toNat_lt
        have hk := k.toNat_lt
        have hdropLen := congrArg List.length hdrop
        simp only [List.length_drop, List.length_cons] at hdropLen
        have huname : (l.take n.toNat).length = n.toNat := by
          rw [List.length_take]
          omega
        have hpasswd : (tail.take k.toNat).length = k.toNat := by
          rw [List.length_take]
          omega
        refine ⟨_, ⟨by dsimp only; omega, by dsimp only; omega, rfl⟩, ?_⟩
        simp only [authMessage, huname, hpasswd, UInt8.ofNat_toNat, List.cons_append,
          List.append_assoc, List.take_append_drop]
        rw [← hdrop, List.take_append_drop, hv]
    | [v], h =>
      by_cases hv : v = 0x01 <;> simp [parseAuth, hv] at h
  · rintro ⟨m, ⟨hu, hw, rfl⟩, rfl⟩
    obtain ⟨u, w⟩ := fields
    have hn := toNat_ofNat_length hu
    have hk := toNat_ofNat_length hw
    have hroom : ¬ (w ++ rest).length < w.length := by simp
    simp only [authMessage, List.cons_append, List.append_assoc, parseAuth, ne_eq,
      not_true_eq_false, if_false, hn, hk, List.drop_left, hroom, List.take_left]

theorem parseAuth_reject (l bad rest : List UInt8) :
    parseAuth l = .reject bad rest ↔ AuthRejected bad ∧ l = bad ++ rest := by
  constructor
  · intro h
    match l, h with
    | v :: l, h =>
      by_cases hv : v = 0x01
      · match l, h with
        | [], h => simp [parseAuth, hv] at h
        | n :: l, h =>
          cases hdrop : l.drop n.toNat with
          | nil => simp [parseAuth, hv, hdrop] at h
          | cons k tail =>
            by_cases hlen : tail.length < k.toNat <;> simp [parseAuth, hv, hdrop, hlen] at h
      · simp only [parseAuth, ne_eq, hv, not_false_eq_true, if_true, Parse.reject.injEq] at h
        obtain ⟨rfl, rfl⟩ := h
        exact ⟨⟨v, hv, rfl⟩, rfl⟩
  · rintro ⟨⟨c, hc, rfl⟩, rfl⟩
    simp [parseAuth, hc]

theorem auth_viable (bad : List UInt8) (h : AuthRejected bad) :
    ∃ f m, AuthBytes f m ∧ bad.dropLast <+: m := by
  obtain ⟨c, -, rfl⟩ := h
  exact ⟨([], []), authMessage [] [], ⟨Nat.zero_le _, Nat.zero_le _, rfl⟩, List.nil_prefix⟩

/-- The index of the field being read is below its length, so that the byte and
the NUL after it stay inside the 256 bytes of the array. -/
def AuthInBounds (p : AuthParser) : Prop :=
  (p.state = .authUname → p.i.toNat < p.ulen.toNat) ∧
    (p.state = .authPasswd → p.i.toNat < p.plen.toNat)

private theorem next_lt {i len : UInt8} (h : i.toNat < len.toNat) (hne : i + 1 ≠ len) :
    (i + 1).toNat < len.toNat := by
  have hlt := len.toNat_lt
  have hone : (1 : UInt8).toNat = 1 := rfl
  have hnat : (i + 1).toNat = i.toNat + 1 := by
    rw [UInt8.toNat_add, hone]
    omega
  have hother : (i + 1).toNat ≠ len.toNat := fun heq => hne (UInt8.toNat_inj.mp heq)
  omega

private theorem zero_lt_of_ne {b : UInt8} (h : b ≠ 0) : (0 : UInt8).toNat < b.toNat := by
  have hne : b.toNat ≠ 0 := fun heq => h (UInt8.toNat_inj.mp heq)
  rw [UInt8.toNat_zero]
  omega

theorem AuthInBounds.feed {p : AuthParser} (h : AuthInBounds p) (b : UInt8) :
    AuthInBounds (authParserFeed p b) := by
  obtain ⟨huname, hpasswd⟩ := h
  unfold authParserFeed
  cases hs : p.state with
  | authVersion =>
    dsimp only
    split <;> exact ⟨nofun, nofun⟩
  | authUlen =>
    by_cases hb : b = 0
    · simp [AuthInBounds, hb]
    · simpa [AuthInBounds, hb] using zero_lt_of_ne hb
  | authUname =>
    dsimp only
    split
    · exact ⟨nofun, nofun⟩
    next hmore =>
      refine ⟨fun _ => next_lt (huname hs) hmore, fun hpass => ?_⟩
      simp at hpass
  | authPlen =>
    by_cases hb : b = 0
    · simp [AuthInBounds, hb]
    · simpa [AuthInBounds, hb] using zero_lt_of_ne hb
  | authPasswd =>
    dsimp only
    split
    · exact ⟨nofun, nofun⟩
    next hmore =>
      refine ⟨fun hname => ?_, fun _ => next_lt (hpasswd hs) hmore⟩
      simp at hname
  | authDone => exact ⟨huname, hpasswd⟩
  | authErrorUnsupportedVersion => exact ⟨huname, hpasswd⟩

/-- At every byte of every stream. -/
theorem auth_in_bounds (p : AuthParser) (l : List UInt8) :
    AuthInBounds (feedAll authParserFeed (authParserInit p) l) := by
  have hall : ∀ (l : List UInt8) (q : AuthParser), AuthInBounds q →
      AuthInBounds (feedAll authParserFeed q l) := by
    intro l
    induction l with
    | nil => exact fun q hq => hq
    | cons b l ih => exact fun q hq => ih _ (hq.feed b)
  exact hall l _ ⟨nofun, nofun⟩

end AuthGrammar

section RequestGrammar

def RequestHolds (f : Fields) (p : RequestParser) : Prop :=
  Read f.command f.atyp f.address f.port p

theorem request_recognises (p : RequestParser) :
    Recognises requestParserFeed (fun p => requestIsDone p.state)
      (fun p => requestIsErrored p.state) (requestParserInit p) RequestBytes RequestRejected
      RequestHolds where
  start := rfl
  message := by
    rintro ⟨command, atyp, address, port⟩ m ⟨hvalid, rfl⟩
    obtain ⟨hends, hread⟩ := request_ends_message p command port hvalid
    exact ⟨hends, by rw [hread.state_eq]; rfl, hread⟩
  bad := by
    intro m hbad
    rcases hbad with ⟨c, hc, rfl⟩ | ⟨c, r, hr, rfl⟩ | ⟨c, a, h4, h6, hd, rfl⟩ | ⟨c, rfl⟩
    · simp [Ends, requestParserFeed, requestParserInit, requestIsDone, requestIsErrored, hc]
    · simp [Ends, requestParserFeed, requestParserInit, requestIsDone, requestIsErrored, hr]
    · simp [Ends, requestParserFeed, requestParserInit, requestIsDone, requestIsErrored, h4, h6,
        hd]
    · simp [Ends, requestParserFeed, requestParserInit, requestIsDone, requestIsErrored,
        SOCKS5_ATYP_IPV4, SOCKS5_ATYP_IPV6, SOCKS5_ATYP_DOMAINNAME]
  cases := by
    intro m hends
    rcases request_ends_cases hends with ⟨hbad, -⟩ | ⟨command, atyp, address, port, hvalid, hm, -⟩
    · exact Or.inr hbad
    · exact Or.inl ⟨⟨command, atyp, address, port⟩, hvalid, hm⟩

theorem parseAddress_accept (command atyp : UInt8) (n : ℕ) (l : List UInt8) (f : Fields)
    (rest : List UInt8) :
    parseAddress command atyp n l = .accept f rest ↔ f.command = command ∧ f.atyp = atyp ∧
      f.address.length = n ∧ l = f.address ++ [f.port.1, f.port.2] ++ rest := by
  constructor
  · intro h
    match hdrop : l.drop n with
    | [] => simp [parseAddress, hdrop] at h
    | [x] => simp [parseAddress, hdrop] at h
    | hi :: lo :: tail =>
      simp only [parseAddress, hdrop, Parse.accept.injEq] at h
      obtain ⟨rfl, rfl⟩ := h
      have hlen := congrArg List.length hdrop
      simp only [List.length_drop, List.length_cons] at hlen
      refine ⟨rfl, rfl, ?_, ?_⟩
      · rw [List.length_take]
        omega
      · have hsplit := (List.take_append_drop n l).symm
        rw [hdrop] at hsplit
        simpa using hsplit
  · rintro ⟨rfl, rfl, rfl, rfl⟩
    simp [parseAddress]

theorem parseAddress_ne_reject (command atyp : UInt8) (n : ℕ) (l bad rest : List UInt8) :
    parseAddress command atyp n l ≠ .reject bad rest := by
  unfold parseAddress
  split <;> simp

/-- Past the fixed bytes of a request: what decides on the rest of the stream. -/
private theorem parseRequest_body (c a : UInt8) (l : List UInt8) :
    parseRequest (0x05 :: c :: 0x00 :: a :: l) =
      if a = SOCKS5_ATYP_IPV4 then parseAddress c a 4 l
      else if a = SOCKS5_ATYP_IPV6 then parseAddress c a 16 l
      else if a = SOCKS5_ATYP_DOMAINNAME then
        match l with
        | [] => .more
        | n :: l =>
          if n = 0 then .reject [0x05, c, 0x00, a, 0] l else parseAddress c a n.toNat l
      else .reject [0x05, c, 0x00, a] l := by
  simp [parseRequest]

/-- The bytes of a stream that the parser neither waits for nor rejects at once. -/
private theorem parseRequest_head {l : List UInt8} (hmore : parseRequest l ≠ .more)
    (hreject : ∀ bad rest, parseRequest l = .reject bad rest → 4 ≤ bad.length) :
    ∃ c a body, l = 0x05 :: c :: 0x00 :: a :: body := by
  match l, hmore, hreject with
  | [], hmore, _ => exact absurd rfl hmore
  | v :: l, hmore, hreject =>
    by_cases hv : v = 0x05
    swap
    · have hlen := hreject [v] l (by simp [parseRequest, hv])
      exact absurd hlen (by simp)
    subst hv
    match l, hmore, hreject with
    | [], hmore, _ => exact absurd (by simp [parseRequest]) hmore
    | [c], hmore, _ => exact absurd (by simp [parseRequest]) hmore
    | c :: r :: l, hmore, hreject =>
      by_cases hr : r = 0x00
      swap
      · have hlen := hreject [0x05, c, r] l (by simp [parseRequest, hr])
        exact absurd hlen (by simp)
      subst hr
      match l, hmore with
      | [], hmore => exact absurd (by simp [parseRequest]) hmore
      | a :: body, _ => exact ⟨c, a, body, rfl⟩

private theorem requestBytes_of_address {f : Fields} {l rest : List UInt8}
    (hvalid : ValidAddress f.atyp f.address)
    (hl : l = (if f.atyp = SOCKS5_ATYP_DOMAINNAME then [UInt8.ofNat f.address.length] else []) ++
      (f.address ++ [f.port.1, f.port.2] ++ rest)) :
    ∃ m, RequestBytes f m ∧ 0x05 :: f.command :: 0x00 :: f.atyp :: l = m ++ rest := by
  refine ⟨_, ⟨hvalid, rfl⟩, ?_⟩
  rw [hl, requestMessage]
  simp

theorem parseRequest_accept (l : List UInt8) (f : Fields) (rest : List UInt8) :
    parseRequest l = .accept f rest ↔ ∃ m, RequestBytes f m ∧ l = m ++ rest := by
  constructor
  · intro h
    obtain ⟨c, a, body, rfl⟩ := parseRequest_head (l := l) (by simp [h]) (by simp [h])
    rw [parseRequest_body] at h
    by_cases h4 : a = SOCKS5_ATYP_IPV4
    · rw [if_pos h4] at h
      obtain ⟨rfl, rfl, hlen, hbody⟩ := (parseAddress_accept _ _ _ _ _ _).mp h
      apply requestBytes_of_address (Or.inl ⟨h4, hlen⟩)
      rw [if_neg (by rw [h4]; decide), List.nil_append]
      exact hbody
    rw [if_neg h4] at h
    by_cases h6 : a = SOCKS5_ATYP_IPV6
    · rw [if_pos h6] at h
      obtain ⟨rfl, rfl, hlen, hbody⟩ := (parseAddress_accept _ _ _ _ _ _).mp h
      apply requestBytes_of_address (Or.inr (Or.inl ⟨h6, hlen⟩))
      rw [if_neg (by rw [h6]; decide), List.nil_append]
      exact hbody
    rw [if_neg h6] at h
    by_cases hd : a = SOCKS5_ATYP_DOMAINNAME
    · rw [if_pos hd] at h
      match body, h with
      | n :: body, h =>
        by_cases hn : n = 0
        · simp [hn] at h
        simp only [hn, if_false] at h
        obtain ⟨rfl, rfl, hlen, hbody⟩ := (parseAddress_accept _ _ _ _ _ _).mp h
        have hpos : n.toNat ≠ 0 := fun h0 => hn (UInt8.toNat_inj.mp h0)
        have hlt := n.toNat_lt
        apply requestBytes_of_address (Or.inr (Or.inr ⟨hd, by omega, by omega⟩))
        rw [if_pos hd, hlen, UInt8.ofNat_toNat, hbody]
        rfl
    · rw [if_neg hd] at h
      exact absurd h (by simp)
  · rintro ⟨m, ⟨hvalid, rfl⟩, rfl⟩
    obtain ⟨c, a, address, port⟩ := f
    have haddress : ∀ n, address.length = n →
        parseAddress c a n (address ++ [port.1, port.2] ++ rest) =
          .accept ⟨c, a, address, port⟩ rest := by
      intro n hn
      exact (parseAddress_accept _ _ _ _ _ _).mpr ⟨rfl, rfl, hn, rfl⟩
    simp only [requestMessage, List.cons_append]
    rw [parseRequest_body]
    rcases hvalid with ⟨ha, hlen⟩ | ⟨ha, hlen⟩ | ⟨ha, hlo, hhi⟩
    · have ha : a = SOCKS5_ATYP_IPV4 := ha
      have hd : a ≠ SOCKS5_ATYP_DOMAINNAME := by rw [ha]; decide
      rw [if_pos ha, if_neg hd, List.nil_append]
      exact haddress 4 hlen
    · have ha : a = SOCKS5_ATYP_IPV6 := ha
      have h4 : a ≠ SOCKS5_ATYP_IPV4 := by rw [ha]; decide
      have hd : a ≠ SOCKS5_ATYP_DOMAINNAME := by rw [ha]; decide
      rw [if_neg h4, if_pos ha, if_neg hd, List.nil_append]
      exact haddress 16 hlen
    · have ha : a = SOCKS5_ATYP_DOMAINNAME := ha
      have h4 : a ≠ SOCKS5_ATYP_IPV4 := by rw [ha]; decide
      have h6 : a ≠ SOCKS5_ATYP_IPV6 := by rw [ha]; decide
      have hnat : (UInt8.ofNat address.length).toNat = address.length := toNat_ofNat_length hhi
      have hn : UInt8.ofNat address.length ≠ 0 := by
        intro h0
        have hzero := congrArg UInt8.toNat h0
        rw [hnat, UInt8.toNat_zero] at hzero
        have hlo : 1 ≤ address.length := hlo
        omega
      rw [if_neg h4, if_neg h6, if_pos ha, if_pos ha]
      simp only [List.cons_append, hn, if_false, hnat]
      exact haddress _ rfl

theorem parseRequest_reject (l bad rest : List UInt8) :
    parseRequest l = .reject bad rest ↔ RequestRejected bad ∧ l = bad ++ rest := by
  constructor
  · intro h
    match l, h with
    | v :: l, h =>
      by_cases hv : v = 0x05
      swap
      · simp only [parseRequest, ne_eq, hv, not_false_eq_true, if_true, Parse.reject.injEq] at h
        obtain ⟨rfl, rfl⟩ := h
        exact ⟨Or.inl ⟨v, hv, rfl⟩, rfl⟩
      subst hv
      match l, h with
      | [], h => simp [parseRequest] at h
      | [c], h => simp [parseRequest] at h
      | c :: r :: l, h =>
        by_cases hr : r = 0x00
        swap
        · simp only [parseRequest, ne_eq, hr, not_true_eq_false, not_false_eq_true, if_false,
            if_true, Parse.reject.injEq] at h
          obtain ⟨rfl, rfl⟩ := h
          exact ⟨Or.inr (Or.inl ⟨c, r, hr, rfl⟩), rfl⟩
        subst hr
        match l, h with
        | [], h => simp [parseRequest] at h
        | a :: l, h =>
          rw [parseRequest_body] at h
          by_cases h4 : a = SOCKS5_ATYP_IPV4
          · rw [if_pos h4] at h
            exact absurd h (parseAddress_ne_reject _ _ _ _ _ _)
          rw [if_neg h4] at h
          by_cases h6 : a = SOCKS5_ATYP_IPV6
          · rw [if_pos h6] at h
            exact absurd h (parseAddress_ne_reject _ _ _ _ _ _)
          rw [if_neg h6] at h
          by_cases hd : a = SOCKS5_ATYP_DOMAINNAME
          · rw [if_pos hd] at h
            match l, h with
            | n :: l, h =>
              by_cases hn : n = 0
              · simp only [hn, if_true, Parse.reject.injEq] at h
                obtain ⟨rfl, rfl⟩ := h
                exact ⟨Or.inr (Or.inr (Or.inr ⟨c, by rw [hd]⟩)), by rw [hn]; rfl⟩
              · simp only [hn, if_false] at h
                exact absurd h (parseAddress_ne_reject _ _ _ _ _ _)
          · simp only [hd, if_false, Parse.reject.injEq] at h
            obtain ⟨rfl, rfl⟩ := h
            exact ⟨Or.inr (Or.inr (Or.inl ⟨c, a, h4, h6, hd, rfl⟩)), rfl⟩
  · rintro ⟨hbad, rfl⟩
    rcases hbad with ⟨c, hc, rfl⟩ | ⟨c, r, hr, rfl⟩ | ⟨c, a, h4, h6, hd, rfl⟩ | ⟨c, rfl⟩
    · simp [parseRequest, hc]
    · simp [parseRequest, hr]
    · simp [parseRequest, h4, h6, hd]
    · simp [parseRequest, SOCKS5_ATYP_IPV4, SOCKS5_ATYP_IPV6, SOCKS5_ATYP_DOMAINNAME]

theorem request_viable (bad : List UInt8) (h : RequestRejected bad) :
    ∃ f m, RequestBytes f m ∧ bad.dropLast <+: m := by
  rcases h with ⟨c, -, rfl⟩ | ⟨c, r, -, rfl⟩ | ⟨c, a, -, -, -, rfl⟩ | ⟨c, rfl⟩
  · exact ⟨⟨c, SOCKS5_ATYP_IPV4, [0, 0, 0, 0], (0, 0)⟩, _, ⟨Or.inl ⟨rfl, rfl⟩, rfl⟩,
      List.nil_prefix⟩
  · exact ⟨⟨c, SOCKS5_ATYP_IPV4, [0, 0, 0, 0], (0, 0)⟩, _, ⟨Or.inl ⟨rfl, rfl⟩, rfl⟩,
      ⟨_, rfl⟩⟩
  · exact ⟨⟨c, SOCKS5_ATYP_IPV4, [0, 0, 0, 0], (0, 0)⟩, _, ⟨Or.inl ⟨rfl, rfl⟩, rfl⟩,
      ⟨_, rfl⟩⟩
  · exact ⟨⟨c, SOCKS5_ATYP_DOMAINNAME, [0], (0, 0)⟩, _,
      ⟨Or.inr (Or.inr ⟨rfl, Nat.le_refl 1, by simp⟩), rfl⟩, ⟨_, rfl⟩⟩

/-- The indices into the address and the port are below the number of bytes
that the address type, or the length byte of a domain name, asks for. -/
def RequestInBounds (p : RequestParser) : Prop :=
  (p.state = .requestDstAddr → p.addressIndex.toNat < p.addressLen.toNat ∨
    p.atyp = SOCKS5_ATYP_DOMAINNAME ∧ p.addressLen = 0 ∧ p.addressIndex = 0) ∧
  (p.state = .requestDstPort → p.portIndex.toNat < 2)

theorem RequestInBounds.feed {p : RequestParser} (h : RequestInBounds p) (b : UInt8) :
    RequestInBounds (requestParserFeed p b) := by
  obtain ⟨haddress, hport⟩ := h
  unfold requestParserFeed
  cases hs : p.state with
  | requestVersion =>
    dsimp only
    split <;> exact ⟨nofun, nofun⟩
  | requestCommand => exact ⟨nofun, nofun⟩
  | requestReserved =>
    dsimp only
    split <;> exact ⟨nofun, nofun⟩
  | requestAtyp =>
    dsimp only
    split
    · exact ⟨fun _ => Or.inl (by simp), nofun⟩
    split
    · exact ⟨fun _ => Or.inl (by simp), nofun⟩
    split
    next hd => exact ⟨fun _ => Or.inr ⟨hd, rfl, rfl⟩, nofun⟩
    · exact ⟨nofun, nofun⟩
  | requestDstAddr =>
    have hindex := haddress hs
    dsimp only
    split
    next hlength =>
      have hzero : p.addressIndex = 0 := by
        rcases hindex with hlt | hwait
        · rw [hlength.2, UInt8.toNat_zero] at hlt
          omega
        · exact hwait.2.2
      by_cases hb : b = 0
      · simp [RequestInBounds, hb]
      · simpa [RequestInBounds, hb, hs, hzero] using zero_lt_of_ne hb
    next hread =>
      have hlt : p.addressIndex.toNat < p.addressLen.toNat := by
        rcases hindex with hlt | hwait
        · exact hlt
        · exact absurd ⟨hwait.1, hwait.2.1⟩ hread
      split
      · exact ⟨nofun, fun _ => by simp⟩
      next hmore =>
        refine ⟨fun _ => Or.inl (next_lt hlt hmore), fun hp => ?_⟩
        simp at hp
  | requestDstPort =>
    have hindex := hport hs
    dsimp only
    split
    · exact ⟨nofun, nofun⟩
    next hmore =>
      refine ⟨fun hp => ?_, fun _ => ?_⟩
      · simp at hp
      · exact @next_lt _ 2 hindex hmore
  | requestDone => exact ⟨haddress, hport⟩
  | requestErrorUnsupportedVersion => exact ⟨haddress, hport⟩
  | requestErrorUnsupportedAtyp => exact ⟨haddress, hport⟩

theorem request_in_bounds (p : RequestParser) (l : List UInt8) :
    RequestInBounds (feedAll requestParserFeed (requestParserInit p) l) := by
  have hall : ∀ (l : List UInt8) (q : RequestParser), RequestInBounds q →
      RequestInBounds (feedAll requestParserFeed q l) := by
    intro l
    induction l with
    | nil => exact fun q hq => hq
    | cons b l ih => exact fun q hq => ih _ (hq.feed b)
  exact hall l _ ⟨nofun, nofun⟩

end RequestGrammar

section Main

variable {δ : Type*}

/-- The three parsers of the source against their grammars, on every stream and
every cut, with every index inside its array. -/
theorem parsers_accept_grammar :
    (Parses HelloBytes parseHello ∧
      ∀ (onMethod : Option (δ → UInt8 → δ)) (p : HelloParser δ),
        Agrees (helloConsume onMethod) (fun p => helloIsDone p.state) (helloParserInit p)
          parseHello (HelloHolds (reported onMethod) p.data)) ∧
    (Parses AuthBytes parseAuth ∧
      ∀ p : AuthParser,
        Agrees authConsume (fun p => authIsDone p.state) (authParserInit p) parseAuth AuthHolds ∧
          ∀ l, AuthInBounds (feedAll authParserFeed (authParserInit p) l)) ∧
    (Parses RequestBytes parseRequest ∧
      ∀ p : RequestParser,
        Agrees requestConsume (fun p => requestIsDone p.state) (requestParserInit p) parseRequest
          RequestHolds ∧
          ∀ l, RequestInBounds (feedAll requestParserFeed (requestParserInit p) l)) := by
  refine ⟨⟨?_, ?_⟩, ⟨?_, ?_⟩, ?_, ?_⟩
  · let p : HelloParser Unit := { data := (), state := .helloVersion, remaining := 0 }
    exact (hello_recognises (fun d _ => d) p).parses parseHello_accept parseHello_reject
      hello_viable
  · intro onMethod p
    have hconsume : helloConsume onMethod = helloConsume (some (reported onMethod)) := by
      funext b q
      unfold helloConsume
      rw [helloParserFeed_reported]
    rw [hconsume]
    exact (hello_recognises (reported onMethod) p).agrees helloErrored_done parseHello_accept
      parseHello_reject
  · exact (auth_recognises authParserZero).parses parseAuth_accept parseAuth_reject auth_viable
  · intro p
    exact ⟨(auth_recognises p).agrees authErrored_done parseAuth_accept parseAuth_reject,
      auth_in_bounds p⟩
  · exact (request_recognises requestParserZero).parses parseRequest_accept parseRequest_reject
      request_viable
  · intro p
    exact ⟨(request_recognises p).agrees requestErrored_done parseRequest_accept
      parseRequest_reject, request_in_bounds p⟩

/-- A hello cut inside its methods, with the next message behind it. -/
example : (feedChunks (helloConsume (some fun l m => l ++ [m])) (fun p => helloIsDone p.state) 8
      (helloParserInit { data := [], state := .helloVersion, remaining := 0 })
      [[5, 2], [0], [], [2, 1, 1]]).map (fun r => (r.2.1.data, bufferReadPtr r.1)) =
    some ([0, 2], [1, 1]) := by decide +kernel

end Main

end SocksProxy.MessageGrammar
