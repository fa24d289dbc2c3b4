import Ferriot.TlvValues

/-!
# Integers on the wire

How wide an integer is written, what every step of reading one back does to the
64-bit word, and which numbers of seconds the clock can hold.
-/
namespace Ferriot.Tlv

/-- The least of the four widths, in bytes, that the number fits into. -/
def Shortest (fits : Nat → Prop) (width : Nat) : Prop :=
  width ∈ [1,2,4,8] ∧ fits width ∧ ∀ other ∈ [1,2,4,8], fits other → width ≤ other

/-- The number fits into so many bytes in two's complement. -/
def FitsSigned (value : Int) (width : Nat) : Prop :=
  -(256 ^ width : Nat) ≤ 2 * value ∧ 2 * value < (256 ^ width : Nat)

/-- The number fits into so many bytes. -/
def FitsUnsigned (value width : Nat) : Prop := value < 256 ^ width

/-- What a width from 1, 2, 4 and 8 has to fit into, and what not, to be the shortest. -/
theorem shortest_iff {fits : Nat → Prop} {width : Nat} (known : width ∈ [1,2,4,8]) :
    Shortest fits width ↔
      fits width ∧ (fits 1 → width ≤ 1) ∧ (fits 2 → width ≤ 2) ∧ (fits 4 → width ≤ 4) ∧ (fits 8 → width ≤ 8) := by
  simp only [Shortest, known, true_and, List.forall_mem_cons, List.not_mem_nil, false_implies, implies_true, and_true]

theorem intWidth_known (value : Int64) : intWidth value ∈ [1,2,4,8] := by
  unfold intWidth
  split_ifs <;> decide

theorem uintWidth_known (value : UInt64) : uintWidth value ∈ [1,2,4,8] := by
  unfold uintWidth
  split_ifs <;> decide

/-- The bounds of three bytes stand before the form of four: the numbers between
    them and the bounds of four take eight. -/
theorem serializeInt_shortest (value : Int64) :
    Shortest (FitsSigned value.toInt) (serializeInt value).length ↔
      ¬ (8388608 ≤ value.toInt ∧ value.toInt ≤ 2147483647) ∧ ¬ (-2147483648 ≤ value.toInt ∧ value.toInt ≤ -8388609) := by
  have low := value.le_toInt
  have high := value.toInt_lt
  rw [serializeInt_eq, BigEndian.digits_length, shortest_iff (intWidth_known value), intWidth_eq]
  simp only [FitsSigned]
  split_ifs <;> omega

theorem serializeUint_shortest (value : UInt64) :
    Shortest (FitsUnsigned value.toNat) (serializeUint value).length ↔
      ¬ (16777216 ≤ value.toNat ∧ value.toNat ≤ 4294967295) := by
  have high := value.toNat_lt
  have one : (255 : UInt64).toNat = 255 := rfl
  have two : (65535 : UInt64).toNat = 65535 := rfl
  have four : (16777215 : UInt64).toNat = 16777215 := rfl
  rw [serializeUint_eq, BigEndian.digits_length, shortest_iff (uintWidth_known value)]
  simp only [uintWidth, FitsUnsigned, UInt64.le_iff_toNat_le, one, two, four]
  split_ifs <;> omega

/-- The integers that are written in the least width. -/
theorem integers_shortest (value : Int64) (word : UInt64) :
    (Shortest (FitsSigned value.toInt) (serializeInt value).length ↔
      ¬ (8388608 ≤ value.toInt ∧ value.toInt ≤ 2147483647) ∧ ¬ (-2147483648 ≤ value.toInt ∧ value.toInt ≤ -8388609)) ∧
    (Shortest (FitsUnsigned word.toNat) (serializeUint word).length ↔ ¬ (16777216 ≤ word.toNat ∧ word.toNat ≤ 4294967295)) :=
  ⟨serializeInt_shortest value,serializeUint_shortest word⟩

/-- One above the largest number of three bytes fits into four, and is written in eight. -/
theorem eight_bytes_for_four :
    ¬ ((∀ value : Int64, Shortest (FitsSigned value.toInt) (serializeInt value).length) ∧
      ∀ value : UInt64, Shortest (FitsUnsigned value.toNat) (serializeUint value).length) := by
  rintro ⟨shortest,-⟩
  have least := (shortest 8388608).2.2 4 (by decide)
  have wide : (serializeInt 8388608).length = 8 := rfl
  have number : (8388608 : Int64).toInt = 8388608 := by decide
  rw [wide, number] at least
  exact absurd (least ⟨by decide,by decide⟩) (by decide)

/-- `value << shift` of a signed word: undefined for a negative value, for a shift by
    the width or more, and for a product that has no place in 64 bits. -/
def shiftLeft (value : Int64) (shift : Nat) : Option Int64 :=
  if 0 ≤ value.toInt ∧ shift < 64 ∧ value.toInt * 2 ^ shift < 2 ^ 64 then some (value <<< Int64.ofNat shift) else none

/-- `left - right` of signed words, undefined past their range. -/
def subtract (left right : Int64) : Option Int64 :=
  if -2 ^ 63 ≤ left.toInt - right.toInt ∧ left.toInt - right.toInt < 2 ^ 63 then some (left - right) else none

/-- One turn of the loop in `deserialize_int`. -/
def shiftInInt (value : Int64) (b : UInt8) : Option Int64 := do
  let shifted ← shiftLeft value 8
  some (shifted ||| b.toUInt64.toInt64)

/-- The mask of the bits above the bytes read. -/
def signMask (len : Nat) : Option Int64 := do
  let bit ← shiftLeft 1 (len * 8)
  let low ← subtract bit 1
  some (~~~low)

/-- `deserialize_int` on its signed word; nothing if a step of it is undefined. -/
def deserializeIntSteps (data : Bytes) : Option (Result Int64) :=
  if data.length = 0 ∨ 8 < data.length then some (err .DecodingError "Invalid integer length")
  else do
    let negative := (data.headD 0 &&& 0x80) != 0
    let value ← data.foldlM shiftInInt 0
    if negative && data.length < 8 then do
      let mask ← signMask data.length
      some (.ok (value ||| mask))
    else some (.ok value)

/-- One turn of the loop in `deserialize_uint`; nothing if it shifts a bit out of the word. -/
def shiftInUint (value : UInt64) (b : UInt8) : Option UInt64 :=
  if value.toNat * 2 ^ 8 < 2 ^ 64 then some (BigEndian.shiftIn value b) else none

/-- `deserialize_uint`; nothing if a step of it loses a bit. -/
def deserializeUintSteps (data : Bytes) : Option (Result UInt64) :=
  if data.length = 0 ∨ 8 < data.length then some (err .DecodingError "Invalid integer length")
  else do
    let value ← data.foldlM shiftInUint 0
    some (.ok value)

/-- A word below 2^56 takes one more byte. -/
theorem shiftInInt_eq {word : UInt64} (room : word.toNat < 2 ^ 56) (b : UInt8) :
    shiftInInt word.toInt64 b = some (BigEndian.shiftIn word b).toInt64 := by
  have number : word.toInt64.toInt = word.toNat := by
    rw [toInt_of_bits, if_pos (by omega)]
  have defined : 0 ≤ word.toInt64.toInt ∧ 8 < 64 ∧ word.toInt64.toInt * 2 ^ 8 < 2 ^ 64 := by
    rw [number]
    omega
  unfold shiftInInt shiftLeft
  rw [if_pos defined]
  rfl

theorem shiftInUint_eq {word : UInt64} (room : word.toNat < 2 ^ 56) (b : UInt8) :
    shiftInUint word b = some (BigEndian.shiftIn word b) := by
  unfold shiftInUint
  rw [if_pos (by omega)]

/-- A loop whose every turn on a word below 2^56 shifts one byte in shifts in as many bytes as
    there is room for: its word stays below what the bytes so far can spell. -/
theorem foldlM_shiftIn {σ : Type} {turn : σ → UInt8 → Option σ} {of : UInt64 → σ}
    (each : ∀ word b, word.toNat < 2 ^ 56 → turn (of word) b = some (of (BigEndian.shiftIn word b))) {data : Bytes}
    {word : UInt64} (room : word.toNat * 256 ^ data.length + 256 ^ data.length ≤ 2 ^ 64) :
    data.foldlM turn (of word) = some (of (data.foldl BigEndian.shiftIn word)) := by
  induction data generalizing word with
  | nil => rfl
  | cons b rest ih =>
    have digit := b.toNat_lt
    have positive : 0 < 256 ^ rest.length := Nat.pow_pos (by decide)
    have scaled : (word.toNat + 1) * 256 * 256 ^ rest.length ≤ 2 ^ 64 := by
      calc (word.toNat + 1) * 256 * 256 ^ rest.length
          = word.toNat * 256 ^ (rest.length + 1) + 256 ^ (rest.length + 1) := by ring
        _ ≤ 2 ^ 64 := room
    have small : word.toNat < 2 ^ 56 := by
      have whole : (word.toNat + 1) * 256 ≤ 2 ^ 64 := le_trans (Nat.le_mul_of_pos_right _ positive) scaled
      omega
    have next : (BigEndian.shiftIn word b).toNat = word.toNat * 256 + b.toNat := by
      rw [BigEndian.shiftIn_toNat, Nat.mod_eq_of_lt (by omega)]
    rw [List.foldlM_cons, each word b small]
    refine ih ?_
    calc (BigEndian.shiftIn word b).toNat * 256 ^ rest.length + 256 ^ rest.length
        = (word.toNat * 256 + b.toNat + 1) * 256 ^ rest.length := by rw [next]; ring
      _ ≤ (word.toNat + 1) * 256 * 256 ^ rest.length := Nat.mul_le_mul_right _ (by omega)
      _ ≤ 2 ^ 64 := scaled

theorem signMask_eq {n : Nat} (some : n ≠ 0) (short : n < 8) :
    signMask n = .some (~~~((1 <<< UInt64.ofNat (n * 8)) - 1) : UInt64).toInt64 := by
  have cases : n = 1 ∨ n = 2 ∨ n = 3 ∨ n = 4 ∨ n = 5 ∨ n = 6 ∨ n = 7 := by omega
  rcases cases with rfl | rfl | rfl | rfl | rfl | rfl | rfl <;> rfl

/-- From zero, there is room for eight bytes. -/
theorem room_for_eight {data : Bytes} (short : data.length ≤ 8) :
    (0 : UInt64).toNat * 256 ^ data.length + 256 ^ data.length ≤ 2 ^ 64 := by
  rw [UInt64.toNat_zero, Nat.zero_mul, Nat.zero_add]
  calc 256 ^ data.length ≤ 256 ^ 8 := Nat.pow_le_pow_right (by decide) short
    _ = 2 ^ 64 := by decide

/-- Every step of `deserialize_int` is defined. -/
theorem deserializeIntSteps_eq (data : Bytes) : deserializeIntSteps data = some (deserializeInt data) := by
  unfold deserializeIntSteps deserializeInt
  by_cases length : data.length = 0 ∨ 8 < data.length
  · rw [if_pos length, if_pos length]
  · have loop : data.foldlM shiftInInt 0 = some (data.foldl BigEndian.shiftIn 0).toInt64 :=
      foldlM_shiftIn (fun word b small => shiftInInt_eq small b) (room_for_eight (by omega))
    rw [if_neg length, if_neg length, loop]
    dsimp only [Option.bind_eq_bind, Option.bind_some]
    split_ifs with extended
    · have short : data.length < 8 := of_decide_eq_true (Bool.and_eq_true_iff.mp extended).2
      rw [signMask_eq (by omega) short]
      rfl
    · rfl

/-- No step of `deserialize_uint` loses a bit. -/
theorem deserializeUintSteps_eq (data : Bytes) : deserializeUintSteps data = some (deserializeUint data) := by
  unfold deserializeUintSteps deserializeUint
  by_cases length : data.length = 0 ∨ 8 < data.length
  · rw [if_pos length, if_pos length]
  · have each : ∀ word b, word.toNat < 2 ^ 56 → shiftInUint (id word) b = some (id (BigEndian.shiftIn word b)) :=
      fun word b small => shiftInUint_eq small b
    have loop : data.foldlM shiftInUint 0 = some (data.foldl BigEndian.shiftIn 0) :=
      foldlM_shiftIn each (room_for_eight (by omega))
    rw [if_neg length, if_neg length, loop]
    rfl

theorem deserializeUint_value {data : Bytes} (some : data.length ≠ 0) (short : data.length ≤ 8) :
    ∃ v, deserializeUint data = .ok v ∧ v.toNat = BigEndian.value data := by
  unfold deserializeUint
  rw [if_neg (by omega)]
  exact ⟨_,rfl,BigEndian.foldl_shiftIn_exact short⟩

/-- One to eight bytes are read as the number they spell, signed or unsigned, each step on
    the way within 64 bits; any other length is an error. -/
theorem integers_exact (data : Bytes) :
    if data.length = 0 ∨ 8 < data.length then
      (∃ e, deserializeInt data = .error e) ∧ ∃ e, deserializeUint data = .error e
    else
      (∃ v, deserializeInt data = .ok v ∧ deserializeIntSteps data = some (.ok v) ∧ v.toInt = BigEndian.signed data) ∧
      ∃ v, deserializeUint data = .ok v ∧ deserializeUintSteps data = some (.ok v) ∧ v.toNat = BigEndian.value data := by
  split_ifs with length
  · unfold deserializeInt deserializeUint
    rw [if_pos length, if_pos length]
    exact ⟨⟨_,rfl⟩,⟨_,rfl⟩⟩
  · obtain ⟨some,short⟩ : data.length ≠ 0 ∧ data.length ≤ 8 := by omega
    obtain ⟨v,read,signed⟩ := deserializeInt_signed some short
    obtain ⟨u,readUint,unsigned⟩ := deserializeUint_value some short
    refine ⟨⟨v,read,?_,signed⟩,⟨u,readUint,?_,unsigned⟩⟩
    · rw [deserializeIntSteps_eq, read]
    · rw [deserializeUintSteps_eq, readUint]

/-! ### Seconds -/

/-- A time is refused, or its whole seconds are the number encoded, and the clock's
    nanoseconds are exactly so many seconds. -/
def TimeExact (data : Bytes) : Prop :=
  (∃ e, decodeResource data .Time = .error e) ∨
    ∃ t, decodeResource data .Time = .ok (.time t) ∧ (t.ns / nsPerSecond).toInt = BigEndian.signed data ∧
      t.ns.toInt = BigEndian.signed data * 1000000000

theorem decodeTime_signed {data : Bytes} (some : data.length ≠ 0) (short : data.length ≤ 8) :
    ∃ v : Int64, decodeResource data .Time = .ok (.time ⟨v * nsPerSecond⟩) ∧ v.toInt = BigEndian.signed data := by
  obtain ⟨v,read,signed⟩ := deserializeInt_signed some short
  refine ⟨v,?_,signed⟩
  simp only [decodeResource, deserializeTime, read]
  rfl

/-- A number of seconds that the clock can hold comes back whole. -/
theorem nanoseconds_exact {v : Int64} (low : -9223372036 ≤ v.toInt) (high : v.toInt ≤ 9223372036) :
    (v * nsPerSecond).toInt = v.toInt * 1000000000 ∧ (v * nsPerSecond / nsPerSecond).toInt = v.toInt := by
  have unit : nsPerSecond.toInt = 1000000000 := by decide
  have product : (v * nsPerSecond).toInt = v.toInt * 1000000000 := by
    rw [Int64.toInt_mul, unit]
    exact Int.bmod_eq_of_le (by omega) (by omega)
  refine ⟨product,?_⟩
  rw [seconds_toInt, product]
  exact Int.mul_tdiv_cancel _ (by decide)

/-- Times are exact up to 9223372036 seconds either way; past that the nanoseconds
    leave the 64-bit range. -/
theorem timeExact_iff (data : Bytes) :
    TimeExact data ↔ data.length = 0 ∨ 8 < data.length ∨
      (-9223372036 ≤ BigEndian.signed data ∧ BigEndian.signed data ≤ 9223372036) := by
  by_cases length : data.length = 0 ∨ 8 < data.length
  · refine iff_of_true (.inl ?_) (length.imp_right .inl)
    simp only [decodeResource, deserializeTime, deserializeInt]
    rw [if_pos length]
    exact ⟨_,rfl⟩
  · obtain ⟨some,short⟩ : data.length ≠ 0 ∧ data.length ≤ 8 := by omega
    obtain ⟨v,decoded,signed⟩ := decodeTime_signed some short
    constructor
    · rintro (⟨e,failed⟩ | ⟨t,done,-,nanoseconds⟩)
      · rw [decoded] at failed
        cases failed
      · have low := t.ns.le_toInt
        have high := t.ns.toInt_lt
        omega
    · intro bounds
      obtain ⟨product,seconds⟩ := nanoseconds_exact (v := v) (by omega) (by omega)
      rw [signed] at product seconds
      exact .inr ⟨_,decoded,seconds,product⟩

/-- 9223372037 seconds are accepted and become a time before the epoch. -/
theorem time_overflows : ¬ TimeExact [0x02,0x25,0xC1,0x7D,0x05] := by
  rintro (⟨e,failed⟩ | ⟨t,done,seconds,-⟩)
  · cases failed
  · cases done
    revert seconds
    decide

end Ferriot.Tlv
