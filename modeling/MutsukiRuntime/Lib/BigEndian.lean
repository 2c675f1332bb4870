/-
  BIG-ENDIAN FIELDS.  A number as a fixed count of bytes, most significant first.

  * `toBytes width n` writes the low `width` bytes of `n`, `ofBytes` reads bytes; each
    undoes the other (`ofBytes_toBytes`, `toBytes_ofBytes`).
  * Fixed-width words: `u16`, `u32`, `u64` and their readers.
-/
import Mathlib.Tactic

namespace BigEndian

open List

/-- A byte string. -/
abbrev Bytes := List UInt8

def toBytes : Nat → Nat → Bytes
  | 0, _ => []
  | width + 1, n => UInt8.ofNat (n / 256 ^ width) :: toBytes width n

def ofBytes : Bytes → Nat
  | [] => 0
  | b :: bs => b.toNat * 256 ^ bs.length + ofBytes bs

@[simp] theorem length_toBytes (width n : Nat) : (toBytes width n).length = width := by
  induction width with
  | zero => rfl
  | succ width ih => rw [toBytes, length_cons, ih]

theorem ofBytes_toBytes (width n : Nat) : ofBytes (toBytes width n) = n % 256 ^ width := by
  induction width with
  | zero => simp [toBytes, ofBytes, Nat.mod_one]
  | succ width ih =>
    have hbyte : (UInt8.ofNat (n / 256 ^ width)).toNat = n / 256 ^ width % 256 := by simp
    rw [toBytes, ofBytes, length_toBytes, ih, hbyte, Nat.mod_pow_succ, Nat.mul_comm, Nat.add_comm]

theorem ofBytes_lt (bs : Bytes) : ofBytes bs < 256 ^ bs.length := by
  induction bs with
  | nil => exact Nat.one_pos
  | cons b bs ih =>
    have hb : b.toNat + 1 ≤ 256 := b.toNat_lt
    calc ofBytes (b :: bs) < b.toNat * 256 ^ bs.length + 256 ^ bs.length := Nat.add_lt_add_left ih _
      _ = (b.toNat + 1) * 256 ^ bs.length := by ring
      _ ≤ 256 * 256 ^ bs.length := Nat.mul_le_mul_right _ hb
      _ = 256 ^ (b :: bs).length := by rw [length_cons]; ring

/-- What stands above the bytes written does not matter. -/
theorem toBytes_add_mul (width n k : Nat) :
    toBytes width (n + k * 256 ^ width) = toBytes width n := by
  induction width generalizing k with
  | zero => rfl
  | succ width ih =>
    have hsplit : n + k * 256 ^ (width + 1) = n + k * 256 * 256 ^ width := by ring
    have hdiv : (n + k * 256 * 256 ^ width) / 256 ^ width = n / 256 ^ width + k * 256 :=
      Nat.add_mul_div_right _ _ (by positivity)
    have hbyte : UInt8.ofNat (n / 256 ^ width + k * 256) = UInt8.ofNat (n / 256 ^ width) := by
      apply UInt8.toNat_inj.1
      simp
    rw [toBytes, toBytes, hsplit, ih, hdiv, hbyte]

theorem toBytes_ofBytes (bs : Bytes) : toBytes bs.length (ofBytes bs) = bs := by
  induction bs with
  | nil => rfl
  | cons b bs ih =>
    have hcomm : ofBytes (b :: bs) = ofBytes bs + b.toNat * 256 ^ bs.length := Nat.add_comm _ _
    have hdiv : ofBytes (b :: bs) / 256 ^ bs.length = b.toNat := by
      rw [hcomm, Nat.add_mul_div_right _ _ (by positivity),
        Nat.div_eq_of_lt (ofBytes_lt bs), Nat.zero_add]
    rw [length_cons, toBytes, hdiv, hcomm, toBytes_add_mul, ih, UInt8.ofNat_toNat]

/-! ## Words -/

def u16 (x : UInt16) : Bytes := toBytes 2 x.toNat
def u32 (x : UInt32) : Bytes := toBytes 4 x.toNat
def u64 (x : UInt64) : Bytes := toBytes 8 x.toNat

def readU16 (bs : Bytes) : UInt16 := UInt16.ofNat (ofBytes bs)
def readU32 (bs : Bytes) : UInt32 := UInt32.ofNat (ofBytes bs)
def readU64 (bs : Bytes) : UInt64 := UInt64.ofNat (ofBytes bs)

@[simp] theorem length_u16 (x : UInt16) : (u16 x).length = 2 := length_toBytes _ _
@[simp] theorem length_u32 (x : UInt32) : (u32 x).length = 4 := length_toBytes _ _
@[simp] theorem length_u64 (x : UInt64) : (u64 x).length = 8 := length_toBytes _ _

theorem ofBytes_u16 (x : UInt16) : ofBytes (u16 x) = x.toNat := by
  rw [u16, ofBytes_toBytes]
  exact Nat.mod_eq_of_lt x.toNat_lt

theorem ofBytes_u32 (x : UInt32) : ofBytes (u32 x) = x.toNat := by
  rw [u32, ofBytes_toBytes]
  exact Nat.mod_eq_of_lt x.toNat_lt

theorem ofBytes_u64 (x : UInt64) : ofBytes (u64 x) = x.toNat := by
  rw [u64, ofBytes_toBytes]
  exact Nat.mod_eq_of_lt x.toNat_lt

@[simp] theorem readU16_u16 (x : UInt16) : readU16 (u16 x) = x := by
  rw [readU16, ofBytes_u16, UInt16.ofNat_toNat]

@[simp] theorem readU32_u32 (x : UInt32) : readU32 (u32 x) = x := by
  rw [readU32, ofBytes_u32, UInt32.ofNat_toNat]

@[simp] theorem readU64_u64 (x : UInt64) : readU64 (u64 x) = x := by
  rw [readU64, ofBytes_u64, UInt64.ofNat_toNat]

variable {bs field rest : Bytes} {stop start : Nat}

theorem u16_readU16 (h : bs.length = 2) : u16 (readU16 bs) = bs := by
  have hlt := ofBytes_lt bs
  rw [h] at hlt
  rw [u16, readU16, UInt16.toNat_ofNat_of_lt' hlt, ← h, toBytes_ofBytes]

theorem u32_readU32 (h : bs.length = 4) : u32 (readU32 bs) = bs := by
  have hlt := ofBytes_lt bs
  rw [h] at hlt
  rw [u32, readU32, UInt32.toNat_ofNat_of_lt' hlt, ← h, toBytes_ofBytes]

theorem u64_readU64 (h : bs.length = 8) : u64 (readU64 bs) = bs := by
  have hlt := ofBytes_lt bs
  rw [h] at hlt
  rw [u64, readU64, UInt64.toNat_ofNat_of_lt' hlt, ← h, toBytes_ofBytes]

/-! ## Slices -/

/-- `bytes[start..stop]`. -/
def slice (bytes : Bytes) (start stop : Nat) : Bytes := (bytes.drop start).take (stop - start)

theorem slice_append_eq (h : field.length = stop) : slice (field ++ rest) 0 stop = field := by
  subst h
  exact take_left

theorem slice_append_skip (h : field.length ≤ start) :
    slice (field ++ rest) start stop = slice rest (start - field.length) (stop - field.length) := by
  have hdrop : (field ++ rest).drop start = rest.drop (start - field.length) := by
    rw [drop_append, drop_eq_nil_of_le h, nil_append]
  have hwidth : stop - start = stop - field.length - (start - field.length) := by omega
  rw [slice, slice, hdrop, hwidth]

theorem length_slice {bytes : Bytes} (h : start ≤ stop)
    (hstop : stop ≤ bytes.length) : (slice bytes start stop).length = stop - start := by
  rw [slice, length_take, length_drop]
  omega

/-- A slice, and what follows it. -/
theorem slice_append_drop (bytes : Bytes) (h : start ≤ stop) :
    slice bytes start stop ++ bytes.drop stop = bytes.drop start := by
  have hdrop : bytes.drop stop = (bytes.drop start).drop (stop - start) := by
    rw [drop_drop, Nat.add_sub_cancel' h]
  rw [slice, hdrop, take_append_drop]

end BigEndian
