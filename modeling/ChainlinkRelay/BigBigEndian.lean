import Mathlib.Data.List.Basic
import Mathlib.Tactic.NormNum
import Mathlib.Tactic.Positivity
import Mathlib.Tactic.Ring
import Mathlib.Tactic.Zify

/-!
# Fixed-width signed words

The on-chain config codec stores each integer with libocr's `bigbigendian` package: `size`
bytes of big-endian two's complement, refused when the value does not fit. The package lives
outside this repository; the definitions follow the word format the spec gives for the config.
-/

namespace ChainlinkRelay.BigBigEndian

/-! ## Unsigned words -/

/-- `SetBytes`: the natural number whose big-endian bytes these are. -/
def ofBytes (bs : List UInt8) : Nat := bs.foldl (fun acc b => 256 * acc + b.toNat) 0

/-- The low `size` bytes of `n`, most significant first. -/
def toBytes : Nat → Nat → List UInt8
  | 0, _ => []
  | size + 1, n => toBytes size (n / 256) ++ [UInt8.ofNat (n % 256)]

@[simp] theorem ofBytes_nil : ofBytes [] = 0 := rfl

@[simp] theorem ofBytes_append_singleton (bs : List UInt8) (b : UInt8) :
    ofBytes (bs ++ [b]) = 256 * ofBytes bs + b.toNat := by
  simp [ofBytes, List.foldl_append]

@[simp] theorem toBytes_zero (n : Nat) : toBytes 0 n = [] := rfl

@[simp] theorem toBytes_succ (size n : Nat) :
    toBytes (size + 1) n = toBytes size (n / 256) ++ [UInt8.ofNat (n % 256)] := rfl

@[simp] theorem length_toBytes (size n : Nat) : (toBytes size n).length = size := by
  induction size generalizing n with
  | zero => rfl
  | succ size ih => simp [ih]

private theorem toNat_ofNat_mod (n : Nat) : (UInt8.ofNat (n % 256)).toNat = n % 256 :=
  UInt8.toNat_ofNat_of_lt (Nat.mod_lt _ (by decide))

private theorem ofNat_toNat (b : UInt8) : UInt8.ofNat b.toNat = b :=
  UInt8.toNat.inj (UInt8.toNat_ofNat_of_lt b.toNat_lt_size)

theorem ofBytes_toBytes (size n : Nat) : ofBytes (toBytes size n) = n % 256 ^ size := by
  induction size generalizing n with
  | zero => simp [Nat.mod_one]
  | succ size ih =>
    rw [toBytes_succ, ofBytes_append_singleton, ih, toNat_ofNat_mod, pow_succ', Nat.mod_mul]
    ring

theorem toBytes_ofBytes (bs : List UInt8) : toBytes bs.length (ofBytes bs) = bs := by
  induction bs using List.reverseRecOn with
  | nil => rfl
  | append_singleton bs b ih =>
    have hb : b.toNat < 256 := b.toNat_lt_size
    have hdiv : (256 * ofBytes bs + b.toNat) / 256 = ofBytes bs := by omega
    have hmod : (256 * ofBytes bs + b.toNat) % 256 = b.toNat := by omega
    rw [List.length_append, List.length_singleton, toBytes_succ, ofBytes_append_singleton, hdiv,
      hmod, ih, ofNat_toNat]

theorem ofBytes_lt (bs : List UInt8) : ofBytes bs < 256 ^ bs.length := by
  induction bs using List.reverseRecOn with
  | nil => simp
  | append_singleton bs b ih =>
    have hb : b.toNat < 256 := b.toNat_lt_size
    rw [ofBytes_append_singleton, List.length_append, List.length_singleton, pow_succ']
    omega

/-! ## Two's complement -/

/-- The signed range of a `size`-byte word, `[-2^(8 size - 1), 2^(8 size - 1))`. -/
def InRange (size : Nat) (i : Int) : Prop := -2 ^ (8 * size - 1) ≤ i ∧ i < 2 ^ (8 * size - 1)

instance (size : Nat) (i : Int) : Decidable (InRange size i) :=
  inferInstanceAs (Decidable (_ ∧ _))

/-- The unsigned word of `i`: `i` itself, or `i + 2^(8 size)` when negative. -/
def twosComplement (size : Nat) (i : Int) : Nat :=
  if i < 0 then (i + 2 ^ (8 * size)).toNat else i.toNat

/-- The signed value of an unsigned word: words with the top bit set are negative. -/
def signedValue (size : Nat) (u : Nat) : Int :=
  if u < 2 ^ (8 * size - 1) then u else u - 2 ^ (8 * size)

/-- `SerializeSigned(size, i)`. -/
def serializeSigned (size : Nat) (i : Int) : Except String (List UInt8) :=
  if size = 0 then .error "size must be positive"
  else if InRange size i then .ok (toBytes size (twosComplement size i))
  else .error ("integer " ++ toString i ++ " does not fit in " ++ toString size ++ " bytes")

/-- `DeserializeSigned(size, buf)`. -/
def deserializeSigned (size : Nat) (buf : List UInt8) : Except String Int :=
  if size = 0 then .error "size must be positive"
  else if buf.length = size then .ok (signedValue size (ofBytes buf))
  else .error ("buffer has length " ++ toString buf.length ++ ", expected " ++ toString size)

section Signed

variable {size : Nat}

private theorem word_eq (hsize : 0 < size) :
    (2 : Int) ^ (8 * size) = 2 * 2 ^ (8 * size - 1) := by
  rw [← pow_succ']
  congr 1
  omega

private theorem bytes_eq_bits : (256 : Int) ^ size = 2 ^ (8 * size) := by
  rw [pow_mul]
  norm_num

theorem signedValue_twosComplement (hsize : 0 < size) {i : Int} (hi : InRange size i) :
    signedValue size (twosComplement size i) = i := by
  have hW := word_eq hsize
  obtain ⟨hlo, hhi⟩ := hi
  unfold signedValue twosComplement
  split_ifs <;> zify at * <;> omega

theorem twosComplement_lt (hsize : 0 < size) {i : Int} (hi : InRange size i) :
    twosComplement size i < 256 ^ size := by
  have hW := word_eq hsize
  obtain ⟨hlo, hhi⟩ := hi
  unfold twosComplement
  split_ifs <;> zify <;> rw [bytes_eq_bits] <;> omega

theorem twosComplement_signedValue (hsize : 0 < size) {u : Nat} (hu : u < 256 ^ size) :
    twosComplement size (signedValue size u) = u := by
  have hW := word_eq hsize
  zify at hu
  rw [bytes_eq_bits] at hu
  unfold signedValue twosComplement
  split_ifs <;> zify at * <;> omega

theorem signedValue_inRange (hsize : 0 < size) {u : Nat} (hu : u < 256 ^ size) :
    InRange size (signedValue size u) := by
  have hW := word_eq hsize
  zify at hu
  rw [bytes_eq_bits] at hu
  unfold InRange signedValue
  split_ifs <;> zify at * <;> omega

end Signed

theorem serializeSigned_eq_ok_iff {size : Nat} {i : Int} {b : List UInt8} :
    serializeSigned size i = .ok b ↔
      0 < size ∧ InRange size i ∧ b = toBytes size (twosComplement size i) := by
  unfold serializeSigned
  split_ifs with h0 hi <;> simp [Nat.pos_iff_ne_zero, *, eq_comm]

theorem deserializeSigned_eq_ok_iff {size : Nat} {buf : List UInt8} {i : Int} :
    deserializeSigned size buf = .ok i ↔
      0 < size ∧ buf.length = size ∧ i = signedValue size (ofBytes buf) := by
  unfold deserializeSigned
  split_ifs with h0 hl <;> simp [Nat.pos_iff_ne_zero, *, eq_comm]
  exact fun h => absurd h.symm hl

/-- A serialized word deserializes to the value it was made from. -/
theorem deserializeSigned_of_serializeSigned {size : Nat} {i : Int} {b : List UInt8}
    (h : serializeSigned size i = .ok b) : deserializeSigned size b = .ok i := by
  obtain ⟨hsize, hi, rfl⟩ := serializeSigned_eq_ok_iff.mp h
  refine deserializeSigned_eq_ok_iff.mpr ⟨hsize, length_toBytes _ _, ?_⟩
  rw [ofBytes_toBytes, Nat.mod_eq_of_lt (twosComplement_lt hsize hi),
    signedValue_twosComplement hsize hi]

/-- A deserialized word serializes back to exactly the same bytes. -/
theorem serializeSigned_of_deserializeSigned {size : Nat} {buf : List UInt8} {i : Int}
    (h : deserializeSigned size buf = .ok i) : serializeSigned size i = .ok buf := by
  obtain ⟨hsize, hlen, rfl⟩ := deserializeSigned_eq_ok_iff.mp h
  have hlt : ofBytes buf < 256 ^ size := hlen ▸ ofBytes_lt buf
  refine serializeSigned_eq_ok_iff.mpr ⟨hsize, signedValue_inRange hsize hlt, ?_⟩
  rw [twosComplement_signedValue hsize hlt, ← hlen, toBytes_ofBytes]

end ChainlinkRelay.BigBigEndian
