import Mathlib.Algebra.Ring.Nat
import Mathlib.Data.List.Induction
import Mathlib.Tactic.Common

/-!
Unsigned numbers as byte strings of a fixed length, most significant byte first,
and the shift-and-mask loops in which C programs write and read them.
-/
namespace SocksProxy.BigEndian

/-- The low `n` bytes of `v`. -/
def toBytes : ℕ → ℕ → List UInt8
  | 0, _ => []
  | n + 1, v => toBytes n (v / 256) ++ [UInt8.ofNat v]

def ofBytes (l : List UInt8) : ℕ := l.foldl (fun v b => v * 256 + b.toNat) 0

theorem ofBytes_snoc (l : List UInt8) (b : UInt8) :
    ofBytes (l ++ [b]) = ofBytes l * 256 + b.toNat := by
  simp only [ofBytes, List.foldl_append, List.foldl_cons, List.foldl_nil]

theorem ofBytes_lt (l : List UInt8) : ofBytes l < 256 ^ l.length := by
  induction l using List.reverseRecOn with
  | nil => simp [ofBytes]
  | append_singleton l b ih =>
    have hb := b.toNat_lt
    rw [ofBytes_snoc, List.length_append, List.length_singleton, Nat.pow_succ]
    omega

theorem ofBytes_toBytes {n v : ℕ} (h : v < 256 ^ n) : ofBytes (toBytes n v) = v := by
  induction n generalizing v with
  | zero =>
    have hv : v = 0 := by simpa using h
    rw [hv]
    rfl
  | succ n ih =>
    have hdiv : v / 256 < 256 ^ n := by
      rw [Nat.pow_succ] at h
      omega
    rw [toBytes, ofBytes_snoc, ih hdiv, UInt8.toNat_ofNat']
    omega

theorem toBytes_ofBytes (l : List UInt8) : toBytes l.length (ofBytes l) = l := by
  induction l using List.reverseRecOn with
  | nil => rfl
  | append_singleton l b ih =>
    have hb := b.toNat_lt
    have hdiv : (ofBytes l * 256 + b.toNat) / 256 = ofBytes l := by omega
    have hlow : UInt8.ofNat (ofBytes l * 256 + b.toNat) = b := by
      apply UInt8.toNat_inj.mp
      rw [UInt8.toNat_ofNat']
      omega
    rw [List.length_append, List.length_singleton, toBytes, ofBytes_snoc, hdiv, ih, hlow]

section Loops

/-- put_be: writes the low `nbytes` bytes of `v`. -/
def putBe (v : UInt64) (nbytes : ℕ) : List UInt8 :=
  (List.range nbytes).map fun i => ((v >>> UInt64.ofNat (8 * (nbytes - 1 - i))) &&& 0xFF).toUInt8

def beU16 (hi lo : UInt8) : UInt16 := (hi.toUInt16 <<< 8) ||| lo.toUInt16

/-- be_u64 on the eight bytes of `l`. -/
def beU64 (l : List UInt8) : UInt64 := l.foldl (fun v b => (v <<< 8) ||| b.toUInt64) 0

@[simp] theorem putBe_length (v : UInt64) (n : ℕ) : (putBe v n).length = n := by simp [putBe]

private theorem shift_byte (v : UInt64) {k : ℕ} (hk : k < 8) :
    ((v >>> UInt64.ofNat (8 * k)) &&& 0xFF).toUInt8 = UInt8.ofNat (v.toNat / 256 ^ k) := by
  have hshift : (UInt64.ofNat (8 * k)).toNat % 64 = 8 * k := by
    rw [UInt64.toNat_ofNat']
    omega
  have hpow : (2 : ℕ) ^ (8 * k) = 256 ^ k := by
    rw [Nat.pow_mul]
  apply UInt8.toNat_inj.mp
  rw [UInt64.toNat_toUInt8, UInt64.toNat_and, UInt64.toNat_shiftRight, hshift,
    Nat.shiftRight_eq_div_pow, hpow, UInt8.toNat_ofNat',
    show (0xFF : UInt64).toNat = 2 ^ 8 - 1 from rfl,
    Nat.and_two_pow_sub_one_eq_mod]
  omega

theorem toBytes_eq_map (n v : ℕ) :
    toBytes n v = (List.range n).map fun i => UInt8.ofNat (v / 256 ^ (n - 1 - i)) := by
  induction n generalizing v with
  | zero => rfl
  | succ n ih =>
    rw [toBytes, ih, List.range_succ, List.map_append, List.map_singleton]
    congr 1
    · refine List.map_congr_left fun i hi => ?_
      have hlt := List.mem_range.mp hi
      rw [Nat.div_div_eq_div_mul, ← Nat.pow_succ', show n + 1 - 1 - i = n - 1 - i + 1 by omega]
    · simp

theorem putBe_eq (v : UInt64) {n : ℕ} (h : n ≤ 8) : putBe v n = toBytes n v.toNat := by
  rw [putBe, toBytes_eq_map]
  refine List.map_congr_left fun i hi => ?_
  have hlt := List.mem_range.mp hi
  exact shift_byte v (by omega)

theorem beU16_toNat (hi lo : UInt8) : (beU16 hi lo).toNat = hi.toNat * 256 + lo.toNat := by
  have hhi := hi.toNat_lt
  have hlo := lo.toNat_lt
  rw [beU16, UInt16.toNat_or, UInt16.toNat_shiftLeft, UInt8.toNat_toUInt16, UInt8.toNat_toUInt16]
  rw [show (8 : UInt16).toNat % 16 = 8 from rfl, Nat.shiftLeft_eq, Nat.mod_eq_of_lt (by omega),
    ← Nat.shiftLeft_eq, ← Nat.shiftLeft_add_eq_or_of_lt (by omega), Nat.shiftLeft_eq]

theorem beU64_toNat {l : List UInt8} (h : l.length ≤ 8) : (beU64 l).toNat = ofBytes l := by
  induction l using List.reverseRecOn with
  | nil => rfl
  | append_singleton l b ih =>
    have hb := b.toNat_lt
    simp only [List.length_append, List.length_singleton] at h
    have hlt := ofBytes_lt l
    have hpow : 256 ^ l.length ≤ 256 ^ 7 := Nat.pow_le_pow_right (by decide) (by omega)
    have hv : beU64 (l ++ [b]) = (beU64 l <<< 8) ||| b.toUInt64 := by
      simp only [beU64, List.foldl_append, List.foldl_cons, List.foldl_nil]
    rw [hv, ofBytes_snoc, ← ih (by omega), UInt64.toNat_or, UInt64.toNat_shiftLeft,
      UInt8.toNat_toUInt64, show (8 : UInt64).toNat % 64 = 8 from rfl, Nat.shiftLeft_eq,
      Nat.mod_eq_of_lt (by rw [ih (by omega)]; omega), ← Nat.shiftLeft_eq,
      ← Nat.shiftLeft_add_eq_or_of_lt (by omega), Nat.shiftLeft_eq]

/-- What put_be writes, be_u64 reads. -/
theorem beU64_putBe (v : UInt64) : beU64 (putBe v 8) = v := by
  apply UInt64.toNat_inj.mp
  rw [beU64_toNat (by simp), putBe_eq v (by decide), ofBytes_toBytes]
  exact v.toNat_lt

theorem putBe_two (v : UInt64) :
    ∃ hi lo, putBe v 2 = [hi, lo] ∧ (beU16 hi lo).toNat = v.toNat % 65536 := by
  have heq : putBe v 2 = [UInt8.ofNat (v.toNat / 256), UInt8.ofNat v.toNat] := putBe_eq v (by decide)
  refine ⟨_, _, heq, ?_⟩
  rw [beU16_toNat, UInt8.toNat_ofNat', UInt8.toNat_ofNat']
  omega

end Loops

end SocksProxy.BigEndian
