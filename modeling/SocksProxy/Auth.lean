import SocksProxy.Hello

/-!
auth.c: the username and password subnegotiation, RFC 1929, and the C strings
it leaves behind. The received fields are length-prefixed; the parser stores
them into `char[256]` arrays and terminates each with a NUL, so what later
string functions see is the field up to its first zero byte.
-/
namespace SocksProxy.Auth

open ByteBuffer ByteScan Hello

/-- The C string in a character array: the bytes before the first NUL. -/
def cString (bytes : List UInt8) : List UInt8 := bytes.takeWhile (· ≠ 0)

theorem cString_append_zero (u rest : List UInt8) : cString (u ++ 0 :: rest) = cString u := by
  induction u with
  | nil => simp [cString]
  | cons c u ih =>
    by_cases hc : c = 0
    · simp [cString, hc]
    · simpa [cString, hc] using ih

theorem cString_eq_self {u : List UInt8} (h : 0 ∉ u) : cString u = u := by
  induction u with
  | nil => rfl
  | cons c u ih =>
    simp only [List.mem_cons, not_or] at h
    have hc : c ≠ 0 := Ne.symm h.1
    simpa [cString, hc] using ih h.2

/-- `enum auth_state`. -/
inductive AuthState
  | authVersion
  | authUlen
  | authUname
  | authPlen
  | authPasswd
  | authDone
  | authErrorUnsupportedVersion
  deriving DecidableEq

/-- `struct auth_parser`. The arrays have 256 elements and are indexed by a
`uint8_t`, so no index can leave them. -/
structure AuthParser where
  state : AuthState
  ulen : UInt8
  plen : UInt8
  i : UInt8
  uname : Vector UInt8 256
  passwd : Vector UInt8 256

def setAt (a : Vector UInt8 256) (i b : UInt8) : Vector UInt8 256 := a.set i.toNat b i.toNat_lt

def authParserInit (p : AuthParser) : AuthParser :=
  { state := .authVersion, ulen := 0, plen := 0, i := 0,
    uname := setAt p.uname 0 0, passwd := setAt p.passwd 0 0 }

/-- The zeroed parser of a fresh connection. -/
def authParserZero : AuthParser :=
  { state := .authVersion, ulen := 0, plen := 0, i := 0,
    uname := Vector.replicate 256 0, passwd := Vector.replicate 256 0 }

def authParserFeed (p : AuthParser) (b : UInt8) : AuthParser :=
  match p.state with
  | .authVersion =>
    if b = 0x01 then { p with state := .authUlen }
    else { p with state := .authErrorUnsupportedVersion }
  | .authUlen =>
    { p with ulen := b, i := 0, state := if b = 0 then .authPlen else .authUname }
  | .authUname =>
    let uname := setAt p.uname p.i b
    let i := p.i + 1
    if i = p.ulen then { p with i := i, uname := setAt uname i 0, state := .authPlen }
    else { p with i := i, uname := uname }
  | .authPlen =>
    if b = 0 then { p with plen := b, i := 0, passwd := setAt p.passwd 0 0, state := .authDone }
    else { p with plen := b, i := 0, state := .authPasswd }
  | .authPasswd =>
    let passwd := setAt p.passwd p.i b
    let i := p.i + 1
    if i = p.plen then { p with i := i, passwd := setAt passwd i 0, state := .authDone }
    else { p with i := i, passwd := passwd }
  | .authDone => p
  | .authErrorUnsupportedVersion => p

def authIsDone : AuthState → Bool
  | .authErrorUnsupportedVersion => true
  | .authDone => true
  | _ => false

/-- What auth_is_done stores through its `errored` argument. -/
def authIsErrored : AuthState → Bool
  | .authErrorUnsupportedVersion => true
  | _ => false

def authConsume (b : Buffer) (p : AuthParser) : Buffer × AuthParser × Bool :=
  consume authParserFeed (fun p => authIsDone p.state) (fun p => authIsErrored p.state) b p

theorem authErrored_done (p : AuthParser) (h : authIsErrored p.state = true) :
    authIsDone p.state = true := by
  cases hs : p.state <;> simp_all [authIsErrored, authIsDone]

/-- auth_marshall: -1 when the buffer has no room for two bytes. -/
def authMarshall (b : Buffer) (status : UInt8) : Option Buffer :=
  if h : 2 ≤ bufferWritePtr b then some (bufferPut b [0x01, status] h) else none

/-- VER ULEN UNAME PLEN PASSWD. -/
def authMessage (uname passwd : List UInt8) : List UInt8 :=
  0x01 :: UInt8.ofNat uname.length :: (uname ++ UInt8.ofNat passwd.length :: passwd)

section Fill

/-- The array holds `w` from its start, and then anything. -/
def Holds (a : Vector UInt8 256) (w : List UInt8) : Prop := w <+: a.toList

theorem Holds.nil (a : Vector UInt8 256) : Holds a [] := List.nil_prefix

theorem Holds.snoc {a : Vector UInt8 256} {w : List UInt8} {i : UInt8} (b : UInt8)
    (h : Holds a w) (hi : i.toNat = w.length) : Holds (setAt a i b) (w ++ [b]) := by
  obtain ⟨rest, hrest⟩ := h
  have hlt := i.toNat_lt
  have hlen := congrArg List.length hrest
  simp only [List.length_append, Vector.length_toList] at hlen
  cases rest with
  | nil =>
    simp only [List.length_nil] at hlen
    omega
  | cons x rest =>
    refine ⟨rest, ?_⟩
    simp [setAt, Vector.toList_set, ← hrest, hi]

/-- A terminated field reads back as the field's own C string. -/
theorem Holds.cString_eq {a : Vector UInt8 256} {w : List UInt8} (h : Holds a (w ++ [0])) :
    cString a.toList = cString w := by
  obtain ⟨rest, hrest⟩ := h
  rw [← hrest, List.append_assoc]
  exact cString_append_zero w rest

theorem add_one_toNat {i len : UInt8} {k : ℕ} (h : i.toNat + (k + 1) = len.toNat) :
    (i + 1).toNat = i.toNat + 1 := by
  have hlt := len.toNat_lt
  have h1 : (1 : UInt8).toNat = 1 := rfl
  rw [UInt8.toNat_add, h1]
  omega

end Fill

section Grammar

private abbrev AuthEnds (p : AuthParser) (l : List UInt8) : Prop :=
  Ends authParserFeed (fun p => authIsDone p.state) p l

private abbrev AuthPartial (p : AuthParser) (l : List UInt8) : Prop :=
  Partial authParserFeed (fun p => authIsDone p.state) p l

/-- `k` bytes of UNAME are missing; with none missing PLEN comes next. -/
private def UnameLeft (k : ℕ) (w : List UInt8) (p : AuthParser) : Prop :=
  if k = 0 then p.state = .authPlen ∧ Holds p.uname (w ++ [0])
  else p.state = .authUname ∧ p.i.toNat = w.length ∧ p.i.toNat + k = p.ulen.toNat ∧
    Holds p.uname w

private theorem unameLeft_step {k : ℕ} {w : List UInt8} {p : AuthParser} (c : UInt8)
    (h : UnameLeft (k + 1) w p) : UnameLeft k (w ++ [c]) (authParserFeed p c) := by
  obtain ⟨hs, hi, hleft, hw⟩ := h
  have hnext := add_one_toNat hleft
  have hput := hw.snoc c hi
  by_cases hk : k = 0
  · subst hk
    have hlast : p.i + 1 = p.ulen := UInt8.toNat_inj.mp (by rw [hnext]; omega)
    have hterm := hput.snoc (i := p.i + 1) 0 (by rw [hnext, hi, List.length_append]; rfl)
    rw [hlast] at hterm
    simpa [authParserFeed, hs, hlast, UnameLeft] using hterm
  · have hmore : p.i + 1 ≠ p.ulen := by
      intro h
      have := congrArg UInt8.toNat h
      omega
    simp only [UnameLeft, hk, if_false, authParserFeed, hs, hmore, List.length_append,
      List.length_singleton]
    exact ⟨trivial, by omega, by omega, hput⟩

private theorem unameLeft_done {k : ℕ} {w : List UInt8} {p : AuthParser}
    (h : UnameLeft k w p) : authIsDone p.state = false := by
  by_cases hk : k = 0
  · simp only [UnameLeft, hk, if_true] at h
    simp [h.1, authIsDone]
  · simp only [UnameLeft, hk, if_false] at h
    simp [h.1, authIsDone]

/-- `k` bytes of PASSWD are missing; with none missing the message is complete.
The user name array is not touched any more. -/
private def PasswdLeft (uname : Vector UInt8 256) (k : ℕ) (w : List UInt8) (p : AuthParser) :
    Prop :=
  p.uname = uname ∧
    if k = 0 then p.state = .authDone ∧ Holds p.passwd (w ++ [0])
    else p.state = .authPasswd ∧ p.i.toNat = w.length ∧ p.i.toNat + k = p.plen.toNat ∧
      Holds p.passwd w

private theorem passwdLeft_step {uname : Vector UInt8 256} {k : ℕ} {w : List UInt8}
    {p : AuthParser} (c : UInt8) (h : PasswdLeft uname (k + 1) w p) :
    PasswdLeft uname k (w ++ [c]) (authParserFeed p c) := by
  obtain ⟨huname, hs, hi, hleft, hw⟩ := h
  have hnext := add_one_toNat hleft
  have hput := hw.snoc c hi
  by_cases hk : k = 0
  · subst hk
    have hlast : p.i + 1 = p.plen := UInt8.toNat_inj.mp (by rw [hnext]; omega)
    have hterm := hput.snoc (i := p.i + 1) 0 (by rw [hnext, hi, List.length_append]; rfl)
    rw [hlast] at hterm
    simpa [authParserFeed, hs, hlast, PasswdLeft, huname] using hterm
  · have hmore : p.i + 1 ≠ p.plen := by
      intro h
      have := congrArg UInt8.toNat h
      omega
    simp only [PasswdLeft, hk, if_false, authParserFeed, hs, hmore, List.length_append,
      List.length_singleton]
    exact ⟨huname, trivial, by omega, by omega, hput⟩

private theorem passwdLeft_done {uname : Vector UInt8 256} {k : ℕ} {w : List UInt8}
    {p : AuthParser} (h : PasswdLeft uname k w p) : authIsDone p.state = decide (k = 0) := by
  obtain ⟨-, h⟩ := h
  by_cases hk : k = 0
  · simp only [hk, if_true] at h
    simp [h.1, authIsDone, hk]
  · simp only [hk, if_false] at h
    simp [h.1, authIsDone, hk]

/-- A parser that expects PLEN and holds `u` as its user name. -/
private def PlenNext (u : List UInt8) (p : AuthParser) : Prop :=
  p.state = .authPlen ∧ Holds p.uname (u ++ [0])

/-- Before UNAME: the version and the length byte `n` were read. -/
private theorem uname_start (p : AuthParser) (n : UInt8) :
    AuthPartial (authParserInit p) [0x01, n] ∧
      UnameLeft n.toNat [] (feedAll authParserFeed (authParserInit p) [0x01, n]) := by
  by_cases hn : n = 0
  · subst hn
    have hnul : Holds (authParserInit p).uname ([] ++ [0]) := (Holds.nil p.uname).snoc 0 rfl
    simpa [Partial, authParserFeed, authParserInit, authIsDone, UnameLeft] using hnul
  · have hpos : n.toNat ≠ 0 := fun h => hn (UInt8.toNat_inj.mp h)
    simp [Partial, authParserFeed, authParserInit, authIsDone, UnameLeft, hn, hpos, Holds.nil]

private theorem passwd_zero {u : List UInt8} {q : AuthParser} (h : PlenNext u q) :
    AuthEnds q [0] ∧ (authParserFeed q 0).state = .authDone ∧
      Holds (authParserFeed q 0).uname (u ++ [0]) ∧
      Holds (authParserFeed q 0).passwd ([] ++ [0]) := by
  obtain ⟨hs, hu⟩ := h
  have hnul : Holds (setAt q.passwd 0 0) ([] ++ [0]) := (Holds.nil q.passwd).snoc 0 rfl
  simpa [Ends, authParserFeed, hs, authIsDone, hu] using hnul

private theorem passwd_start {u : List UInt8} {q : AuthParser} (h : PlenNext u q) {n : UInt8}
    (hn : n ≠ 0) :
    AuthPartial q [n] ∧ PasswdLeft q.uname n.toNat [] (authParserFeed q n) := by
  have hpos : n.toNat ≠ 0 := fun h => hn (UInt8.toNat_inj.mp h)
  simp [Partial, authParserFeed, h.1, authIsDone, PasswdLeft, hn, hpos, Holds.nil]

/-- After PLEN `q` finishes on exactly PLEN more bytes. -/
private theorem passwd_ends {u : List UInt8} {q : AuthParser} (h : PlenNext u q)
    {n : UInt8} {w : List UInt8} (hw : w.length = n.toNat) :
    AuthEnds q (n :: w) ∧ (feedAll authParserFeed q (n :: w)).state = .authDone ∧
      Holds (feedAll authParserFeed q (n :: w)).uname (u ++ [0]) ∧
      Holds (feedAll authParserFeed q (n :: w)).passwd (w ++ [0]) := by
  by_cases hn : n = 0
  · subst hn
    have hnil : w = [] := List.length_eq_zero_iff.mp hw
    subst hnil
    exact passwd_zero h
  · obtain ⟨hpart, hleft⟩ := passwd_start h hn
    obtain ⟨k, hk⟩ : ∃ k, n.toNat = k + 1 :=
      Nat.exists_eq_succ_of_ne_zero (fun h0 => hn (UInt8.toNat_inj.mp h0))
    have hall := feedAll_phase (k := 0) passwdLeft_step w (by simpa [hw] using hleft)
    obtain ⟨huname, hdone, hpass⟩ := hall
    rw [hk] at hleft
    have hends : AuthEnds (authParserFeed q n) w :=
      (ends_iff_of_last passwdLeft_step (fun h => by simpa using passwdLeft_done h)
        (fun h => by simpa using passwdLeft_done h) hleft w).mpr (by omega)
    refine ⟨(ends_append_of_unfinished hpart w).mpr hends, hdone, ?_, by simpa using hpass⟩
    rw [feedAll_cons, huname]
    exact h.2

private theorem passwd_ends_length {u : List UInt8} {q : AuthParser} (h : PlenNext u q)
    {n : UInt8} {w : List UInt8} (hends : AuthEnds q (n :: w)) : w.length = n.toNat := by
  by_cases hn : n = 0
  · subst hn
    have hsplit : (0 :: w) ++ [] = [0] ++ w := by simp
    have hw : [] = w := (hends.unique (passwd_zero h).1 hsplit).2
    simp [← hw]
  · obtain ⟨hpart, hleft⟩ := passwd_start h hn
    obtain ⟨k, hk⟩ : ∃ k, n.toNat = k + 1 :=
      Nat.exists_eq_succ_of_ne_zero (fun h0 => hn (UInt8.toNat_inj.mp h0))
    rw [hk] at hleft ⊢
    exact (ends_iff_of_last passwdLeft_step (fun h => by simpa using passwdLeft_done h)
      (fun h => by simpa using passwdLeft_done h) hleft w).mp
        ((ends_append_of_unfinished hpart w).mp hends)

private theorem authMessage_eq (u w : List UInt8) : authMessage u w =
    [0x01, UInt8.ofNat u.length] ++ (u ++ (UInt8.ofNat w.length :: w)) := rfl

private theorem toNat_ofNat_length {u : List UInt8} (h : u.length ≤ 255) :
    (UInt8.ofNat u.length).toNat = u.length := by
  rw [UInt8.toNat_ofNat']
  omega

/-- A complete message finishes the parser, which then holds both fields,
terminated. -/
theorem auth_ends_message (p : AuthParser) {u w : List UInt8} (hu : u.length ≤ 255)
    (hw : w.length ≤ 255) :
    Ends authParserFeed (fun p => authIsDone p.state) (authParserInit p) (authMessage u w) ∧
      (feedAll authParserFeed (authParserInit p) (authMessage u w)).state = .authDone ∧
      Holds (feedAll authParserFeed (authParserInit p) (authMessage u w)).uname (u ++ [0]) ∧
      Holds (feedAll authParserFeed (authParserInit p) (authMessage u w)).passwd (w ++ [0]) := by
  obtain ⟨hpart, hleft⟩ := uname_start p (UInt8.ofNat u.length)
  rw [toNat_ofNat_length hu] at hleft
  have hmid := partial_through unameLeft_step unameLeft_done u hleft
  have hplen := feedAll_phase (k := 0) unameLeft_step u (by simpa using hleft)
  have hnext : PlenNext u (feedAll authParserFeed
      (feedAll authParserFeed (authParserInit p) [0x01, UInt8.ofNat u.length]) u) := hplen
  obtain ⟨hends, hdone, huname, hpasswd⟩ := passwd_ends hnext (toNat_ofNat_length hw).symm
  rw [authMessage_eq, feedAll_append, feedAll_append]
  refine ⟨?_, hdone, huname, hpasswd⟩
  exact (ends_append_of_unfinished hpart _).mpr ((ends_append_of_unfinished hmid _).mpr hends)

/-- A finished subnegotiation is a rejected version byte or a complete message. -/
theorem auth_ends_cases {p : AuthParser} {m : List UInt8}
    (h : Ends authParserFeed (fun p => authIsDone p.state) (authParserInit p) m) :
    (∃ c, c ≠ 0x01 ∧ m = [c] ∧
      (feedAll authParserFeed (authParserInit p) m).state = .authErrorUnsupportedVersion) ∨
    ∃ u w, u.length ≤ 255 ∧ w.length ≤ 255 ∧ m = authMessage u w := by
  cases m with
  | nil => exact h.elim
  | cons v m =>
    by_cases hv : v = 0x01
    · subst hv
      right
      cases m with
      | nil => simp [Ends, authParserFeed, authParserInit, authIsDone] at h
      | cons n l =>
        obtain ⟨hpart, hleft⟩ := uname_start p n
        obtain ⟨u, r, rfl, hlen, hplen, hr⟩ := ends_through unameLeft_step unameLeft_done hleft
          ((ends_append_of_unfinished hpart l).mp h)
        have hnext : PlenNext u _ := hplen
        have hn := n.toNat_lt
        cases r with
        | nil => exact hr.elim
        | cons k w =>
          have hw := passwd_ends_length hnext hr
          have hk := k.toNat_lt
          refine ⟨u, w, by omega, by omega, ?_⟩
          rw [authMessage, hlen, hw, UInt8.ofNat_toNat, UInt8.ofNat_toNat]
    · left
      have hm : m = [] := by
        simpa [Ends, authParserFeed, authParserInit, authIsDone, hv] using h
      exact ⟨v, hv, by rw [hm], by simp [hm, authParserFeed, authParserInit, hv]⟩

end Grammar

end SocksProxy.Auth
