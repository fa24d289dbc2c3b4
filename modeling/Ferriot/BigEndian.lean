import Mathlib.Tactic.Common
import Mathlib.Tactic.Ring

/-!
# Big-endian numbers

A number written as a string of bytes, the most significant byte first: the
value of a string, the string of a value, and the shift-and-or loop that
machine code reads such a string with.
-/
namespace Ferriot.BigEndian

/-- The number that a byte string spells, most significant byte first. -/
def value (bytes : List UInt8) : Nat := bytes.foldl (fun acc b => acc * 256 + b.toNat) 0

/-- The last `width` base-256 digits of a number, most significant first. -/
def digits : Nat → Nat → List UInt8
  | 0, _ => []
  | width+1, n => UInt8.ofNat (n / 256 ^ width) :: digits width n

@[simp] theorem value_nil : value [] = 0 := rfl

theorem foldl_value (bytes : List UInt8) (start : Nat) :
    bytes.foldl (fun acc b => acc * 256 + b.toNat) start = start * 256 ^ bytes.length + value bytes := by
  induction bytes generalizing start with
  | nil => simp
  | cons b rest ih =>
    simp only [value, List.foldl_cons, List.length_cons]
    rw [ih, ih (0 * 256 + b.toNat)]
    ring

theorem value_cons (b : UInt8) (rest : List UInt8) :
    value (b :: rest) = b.toNat * 256 ^ rest.length + value rest := by
  simp only [value, List.foldl_cons]
  rw [foldl_value]
  simp [value]

@[simp] theorem value_singleton (b : UInt8) : value [b] = b.toNat := by simp [value]

@[simp] theorem value_pair (hi lo : UInt8) : value [hi, lo] = hi.toNat * 256 + lo.toNat := by simp [value]

@[simp] theorem value_triple (hi mid lo : UInt8) :
    value [hi, mid, lo] = (hi.toNat * 256 + mid.toNat) * 256 + lo.toNat := by simp [value]

theorem value_lt (bytes : List UInt8) : value bytes < 256 ^ bytes.length := by
  induction bytes with
  | nil => simp
  | cons b rest ih =>
    have digit := b.toNat_lt
    rw [value_cons, List.length_cons, Nat.pow_succ]
    calc b.toNat * 256 ^ rest.length + value rest
        < b.toNat * 256 ^ rest.length + 256 ^ rest.length := by omega
      _ = (b.toNat + 1) * 256 ^ rest.length := by ring
      _ ≤ 256 * 256 ^ rest.length := Nat.mul_le_mul_right _ (by omega)
      _ = 256 ^ rest.length * 256 := Nat.mul_comm ..

@[simp] theorem digits_length (width n : Nat) : (digits width n).length = width := by
  induction width with
  | zero => rfl
  | succ width ih => simp [digits, ih]

/-- Reading the digits back gives the number again, as far as they reach. -/
theorem value_digits (width n : Nat) : value (digits width n) = n % 256 ^ width := by
  induction width with
  | zero => simp [digits, Nat.mod_one]
  | succ width ih =>
    rw [digits, value_cons, ih, digits_length, UInt8.toNat_ofNat']
    have split : n % (256 ^ width * 256) = n % 256 ^ width + 256 ^ width * (n / 256 ^ width % 256) := Nat.mod_mul
    rw [← Nat.pow_succ] at split
    rw [split, Nat.add_comm, Nat.mul_comm]

theorem value_digits_of_lt {width n : Nat} (fits : n < 256 ^ width) : value (digits width n) = n := by
  rw [value_digits, Nat.mod_eq_of_lt fits]

/-- The number that a byte string spells in two's complement. -/
def signed (bytes : List UInt8) : Int :=
  if 2 * value bytes < 256 ^ bytes.length then value bytes else value bytes - (256 ^ bytes.length : Nat)

/-- The sign is the top bit of the first byte. -/
theorem signed_head (b : UInt8) (rest : List UInt8) :
    256 ^ (rest.length+1) ≤ 2 * value (b :: rest) ↔ 128 ≤ b.toNat := by
  have low := value_lt rest
  rw [value_cons, Nat.pow_succ]
  constructor
  · intro top
    by_contra small
    have scaled : b.toNat * 256 ^ rest.length ≤ 127 * 256 ^ rest.length := Nat.mul_le_mul_right _ (by omega)
    omega
  · intro large
    have scaled : 128 * 256 ^ rest.length ≤ b.toNat * 256 ^ rest.length := Nat.mul_le_mul_right _ large
    omega

/-- The digits of a number spell every number that is the same up to their width and fits it. -/
theorem signed_digits {width n : Nat} {v : Int} (same : v % (256 ^ width : Nat) = (n % 256 ^ width : Nat))
    (low : -(256 ^ width : Nat) ≤ 2 * v) (high : 2 * v < (256 ^ width : Nat)) : signed (digits width n) = v := by
  rw [signed, value_digits, digits_length]
  generalize 256 ^ width = m at same low high ⊢
  by_cases negative : v < 0
  · have shifted : v % m = v + m := by
      rw [← Int.add_emod_right, Int.emod_eq_of_lt (by omega) (by omega)]
    rw [if_neg (by omega)]
    omega
  · have whole : v % m = v := Int.emod_eq_of_lt (by omega) (by omega)
    rw [if_pos (by omega)]
    omega

/-- One turn of `value = (value << 8) | byte` on a 64-bit word. -/
def shiftIn (word : UInt64) (b : UInt8) : UInt64 := (word <<< 8) ||| b.toUInt64

theorem shiftIn_toNat (word : UInt64) (b : UInt8) :
    (shiftIn word b).toNat = (word.toNat * 256 + b.toNat) % 2 ^ 64 := by
  have digit := b.toNat_lt
  have shifted : word.toNat <<< 8 % 2 ^ 64 = (word.toNat % 2 ^ 56) <<< 8 := by
    rw [Nat.shiftLeft_eq, Nat.shiftLeft_eq]
    omega
  simp only [shiftIn, UInt64.toNat_or, UInt64.toNat_shiftLeft, UInt8.toNat_toUInt64]
  show word.toNat <<< 8 % 2 ^ 64 ||| b.toNat = _
  rw [shifted, ← Nat.shiftLeft_add_eq_or_of_lt (by simpa using digit), Nat.shiftLeft_eq]
  omega

/-- The loop reads the number, as far as the word holds it. -/
theorem foldl_shiftIn (bytes : List UInt8) (word : UInt64) :
    (bytes.foldl shiftIn word).toNat = (word.toNat * 256 ^ bytes.length + value bytes) % 2 ^ 64 := by
  induction bytes generalizing word with
  | nil =>
    have bound := word.toNat_lt
    simp [Nat.mod_eq_of_lt bound]
  | cons b rest ih =>
    rw [List.foldl_cons, ih, shiftIn_toNat, value_cons, List.length_cons]
    have expand : (word.toNat * 256 + b.toNat) * 256 ^ rest.length + value rest =
        word.toNat * 256 ^ (rest.length + 1) + (b.toNat * 256 ^ rest.length + value rest) := by ring
    rw [← expand, Nat.add_mod, Nat.mod_mul_mod, ← Nat.add_mod]

/-- On at most eight bytes nothing is lost. -/
theorem foldl_shiftIn_exact {bytes : List UInt8} (short : bytes.length ≤ 8) :
    (bytes.foldl shiftIn 0).toNat = value bytes := by
  have bound := value_lt bytes
  have room : 256 ^ bytes.length ≤ 2 ^ 64 := by
    calc 256 ^ bytes.length ≤ 256 ^ 8 := Nat.pow_le_pow_right (by decide) short
      _ = 2 ^ 64 := by decide
  rw [foldl_shiftIn, UInt64.toNat_zero, Nat.zero_mul, Nat.zero_add]
  exact Nat.mod_eq_of_lt (Nat.lt_of_lt_of_le bound room)

end Ferriot.BigEndian
