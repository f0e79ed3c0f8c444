import ChainlinkRelay.BigBigEndian

/-!
# Mercury on-chain config codec

`StandardOnchainConfigCodec` lays `{Min, Max}` out as three 32-byte signed words: the version,
then `Min`, then `Max`. `Decode` checks the length, the version and `Min ≤ Max`; `Encode` checks
only that each word fits.
-/

namespace ChainlinkRelay.Mercury
open BigBigEndian

def onchainConfigVersion : Int := 1

/-- Three 32-byte words: version, min, max. -/
def onchainConfigEncodedLength : Nat := 96

/-- `OnchainConfig`, with its two bounds. -/
structure OnchainConfig where
  min : Int
  max : Int
  deriving DecidableEq, Repr

/-- Go's `b[lo:hi]`. -/
def slice (b : List UInt8) (lo hi : Nat) : List UInt8 := (b.drop lo).take (hi - lo)

namespace StandardOnchainConfigCodec

def decode (b : List UInt8) : Except String OnchainConfig :=
  if b.length ≠ onchainConfigEncodedLength then
    .error ("unexpected length of OnchainConfig, expected " ++
      toString onchainConfigEncodedLength ++ ", got " ++ toString b.length)
  else do
    let v ← deserializeSigned 32 (slice b 0 32)
    if v ≠ onchainConfigVersion then
      throw ("unexpected version of OnchainConfig, expected " ++
        toString onchainConfigVersion ++ ", got " ++ toString v)
    else do
      let min ← deserializeSigned 32 (slice b 32 64)
      let max ← deserializeSigned 32 (slice b 64 96)
      if ¬min ≤ max then
        throw ("OnchainConfig min (" ++ toString min ++ ") should not be greater than max(" ++
          toString max ++ ")")
      else pure ⟨min, max⟩

def encode (c : OnchainConfig) : Except String (List UInt8) := do
  let verBytes ← serializeSigned 32 onchainConfigVersion
  let minBytes ← serializeSigned 32 c.min
  let maxBytes ← serializeSigned 32 c.max
  pure (verBytes ++ minBytes ++ maxBytes)

/-! ## Words and slices -/

/-- The 32 bytes `SerializeSigned(32, i)` returns for a value that fits. -/
def word (i : Int) : List UInt8 := toBytes 32 (twosComplement 32 i)

@[simp] theorem length_word (i : Int) : (word i).length = 32 := length_toBytes _ _

theorem inRange_iff (i : Int) : InRange 32 i ↔ -2 ^ 255 ≤ i ∧ i ≤ 2 ^ 255 - 1 := by
  unfold InRange
  norm_num
  omega

private theorem bind_eq_ok {α β : Type} {x : Except String α} {f : α → Except String β} {b : β} :
    x >>= f = .ok b ↔ ∃ a, x = .ok a ∧ f a = .ok b := by
  cases x <;> simp [bind, Except.bind]

private theorem serialize_eq_ok_iff {i : Int} {b : List UInt8} :
    serializeSigned 32 i = .ok b ↔ InRange 32 i ∧ word i = b := by
  rw [serializeSigned_eq_ok_iff]
  exact ⟨fun h => ⟨h.2.1, h.2.2.symm⟩, fun h => ⟨by norm_num, h.1, h.2.symm⟩⟩

private theorem serialize_version : serializeSigned 32 onchainConfigVersion = .ok (word 1) :=
  serialize_eq_ok_iff.mpr ⟨(inRange_iff 1).mpr (by norm_num), rfl⟩

private theorem slice_words {w₀ w₁ w₂ : List UInt8} (h₀ : w₀.length = 32) (h₁ : w₁.length = 32)
    (h₂ : w₂.length = 32) :
    slice (w₀ ++ w₁ ++ w₂) 0 32 = w₀ ∧ slice (w₀ ++ w₁ ++ w₂) 32 64 = w₁ ∧
      slice (w₀ ++ w₁ ++ w₂) 64 96 = w₂ := by
  have h₀₁ : (w₀ ++ w₁).length = 64 := by simp [h₀, h₁]
  refine ⟨?_, ?_, ?_⟩
  · simp only [slice, List.drop_zero, List.append_assoc]
    exact List.take_left' h₀
  · simp only [slice, List.append_assoc, List.drop_left' h₀]
    exact List.take_left' h₁
  · simp only [slice, List.drop_left' h₀₁]
    exact List.take_of_length_le (by simp [h₂])

private theorem eq_slices {b : List UInt8} (hb : b.length = 96) :
    b = slice b 0 32 ++ slice b 32 64 ++ slice b 64 96 := by
  have h₂ : (b.drop 64).take 32 = b.drop 64 := List.take_of_length_le (by simp [hb])
  calc b = b.take 32 ++ b.drop 32 := (List.take_append_drop 32 b).symm
    _ = b.take 32 ++ ((b.drop 32).take 32 ++ (b.drop 32).drop 32) := by
      rw [List.take_append_drop 32 (b.drop 32)]
    _ = _ := by simp [slice, List.drop_drop, h₂]

/-! ## Spec lemmas -/

theorem encode_eq_ok_iff {c : OnchainConfig} {b : List UInt8} :
    encode c = .ok b ↔ InRange 32 c.min ∧ InRange 32 c.max ∧ b = word 1 ++ word c.min ++ word c.max := by
  simp only [encode, serialize_version, bind_eq_ok, serialize_eq_ok_iff, pure, Except.pure,
    Except.ok.injEq]
  constructor
  · rintro ⟨_, rfl, _, ⟨hmin, rfl⟩, _, ⟨hmax, rfl⟩, rfl⟩
    exact ⟨hmin, hmax, rfl⟩
  · rintro ⟨hmin, hmax, rfl⟩
    exact ⟨_, rfl, _, ⟨hmin, rfl⟩, _, ⟨hmax, rfl⟩, rfl⟩

private theorem check_eq_ok {α : Type} {p : Prop} [Decidable p] {e : String}
    {x : Except String α} {a : α} : (if p then throw e else x) = .ok a ↔ ¬p ∧ x = .ok a := by
  split_ifs with h <;> simp [h, throw, throwThe, MonadExceptOf.throw]

theorem decode_eq_ok_iff {b : List UInt8} {c : OnchainConfig} :
    decode b = .ok c ↔ b.length = 96 ∧ deserializeSigned 32 (slice b 0 32) = .ok 1 ∧
      deserializeSigned 32 (slice b 32 64) = .ok c.min ∧
      deserializeSigned 32 (slice b 64 96) = .ok c.max ∧ c.min ≤ c.max := by
  unfold decode
  by_cases hl : b.length = 96
  · simp only [onchainConfigEncodedLength, hl, ne_eq, not_true_eq_false, if_false, bind_eq_ok,
      check_eq_ok, not_not, onchainConfigVersion, pure, Except.pure, Except.ok.injEq, true_and]
    constructor
    · rintro ⟨v, hv, rfl, min, hmin, max, hmax, hle, rfl⟩
      exact ⟨hv, hmin, hmax, hle⟩
    · rintro ⟨hv, hmin, hmax, hle⟩
      exact ⟨1, hv, rfl, c.min, hmin, c.max, hmax, hle, rfl⟩
  · simp [onchainConfigEncodedLength, hl]

private theorem deserialize_slice {b : List UInt8} (hb : b.length = 96) {lo hi : Nat}
    (hhi : hi ≤ 96) (hw : hi - lo = 32) :
    deserializeSigned 32 (slice b lo hi) = .ok (signedValue 32 (ofBytes (slice b lo hi))) :=
  deserializeSigned_eq_ok_iff.mpr ⟨by norm_num,
    by simp only [slice, List.length_take, List.length_drop, hb]; omega, rfl⟩

/-- `Decode` fails in exactly three ways, each with its own message: a length other than 96, a
version word other than 1, or a min word above the max word. The words of a 96-byte buffer always
deserialize. -/
theorem decode_eq_error_iff (b : List UInt8) (e : String) :
    decode b = .error e ↔
      (b.length ≠ 96 ∧ e = "unexpected length of OnchainConfig, expected " ++
        toString onchainConfigEncodedLength ++ ", got " ++ toString b.length) ∨
      ∃ v min max, b.length = 96 ∧ deserializeSigned 32 (slice b 0 32) = .ok v ∧
        deserializeSigned 32 (slice b 32 64) = .ok min ∧
        deserializeSigned 32 (slice b 64 96) = .ok max ∧
        ((v ≠ 1 ∧ e = "unexpected version of OnchainConfig, expected " ++
            toString onchainConfigVersion ++ ", got " ++ toString v) ∨
          (v = 1 ∧ max < min ∧ e = "OnchainConfig min (" ++ toString min ++
            ") should not be greater than max(" ++ toString max ++ ")")) := by
  unfold decode
  by_cases hl : b.length = 96
  · rw [deserialize_slice hl (by norm_num : 32 ≤ 96) (by norm_num : 32 - 0 = 32),
      deserialize_slice hl (by norm_num : 64 ≤ 96) (by norm_num : 64 - 32 = 32),
      deserialize_slice hl (by norm_num : 96 ≤ 96) (by norm_num : 96 - 64 = 32)]
    simp only [onchainConfigEncodedLength, hl, ne_eq, not_true_eq_false, if_false, false_and,
      false_or, true_and, onchainConfigVersion, bind, Except.bind, Except.ok.injEq, exists_eq_left']
    split_ifs with hv hle
    · simp [pure, Except.pure, hv, not_lt.mpr hle]
    · simp [throw, throwThe, MonadExceptOf.throw, hv, eq_comm, not_le.mp hle]
    · simp [throw, throwThe, MonadExceptOf.throw, hv, eq_comm]
  · simp [onchainConfigEncodedLength, hl, eq_comm]

/-! ## Round trips -/

theorem decode_of_encode {c : OnchainConfig} {b : List UInt8} (hle : c.min ≤ c.max)
    (h : encode c = .ok b) : decode b = .ok c := by
  obtain ⟨hmin, hmax, rfl⟩ := encode_eq_ok_iff.mp h
  obtain ⟨h₀, h₁, h₂⟩ := slice_words (length_word 1) (length_word c.min) (length_word c.max)
  refine decode_eq_ok_iff.mpr ⟨by simp, ?_, ?_, ?_, hle⟩
  · rw [h₀]
    exact deserializeSigned_of_serializeSigned serialize_version
  · rw [h₁]
    exact deserializeSigned_of_serializeSigned (serialize_eq_ok_iff.mpr ⟨hmin, rfl⟩)
  · rw [h₂]
    exact deserializeSigned_of_serializeSigned (serialize_eq_ok_iff.mpr ⟨hmax, rfl⟩)

theorem encode_of_decode {b : List UInt8} {c : OnchainConfig} (h : decode b = .ok c) :
    encode c = .ok b := by
  obtain ⟨hl, hv, hmin, hmax, -⟩ := decode_eq_ok_iff.mp h
  obtain ⟨-, w₀⟩ := serialize_eq_ok_iff.mp (serializeSigned_of_deserializeSigned hv)
  obtain ⟨i₁, w₁⟩ := serialize_eq_ok_iff.mp (serializeSigned_of_deserializeSigned hmin)
  obtain ⟨i₂, w₂⟩ := serialize_eq_ok_iff.mp (serializeSigned_of_deserializeSigned hmax)
  refine encode_eq_ok_iff.mpr ⟨i₁, i₂, ?_⟩
  rw [w₀, w₁, w₂]
  exact eq_slices hl

/-- `Encode` succeeds exactly on bounds that fit a signed 256-bit word, always returns 96 bytes,
and an ordered config decodes back to itself. -/
theorem encode_fits_length_roundtrip (c : OnchainConfig) :
    ((∃ b, encode c = .ok b) ↔
      (-2 ^ 255 ≤ c.min ∧ c.min ≤ 2 ^ 255 - 1) ∧ (-2 ^ 255 ≤ c.max ∧ c.max ≤ 2 ^ 255 - 1)) ∧
    (∀ b, encode c = .ok b → b.length = 96) ∧
    (c.min ≤ c.max → ∀ b, encode c = .ok b → decode b = .ok c) := by
  refine ⟨?_, fun b hb => ?_, fun hle _ => decode_of_encode hle⟩
  · simp only [encode_eq_ok_iff, ← inRange_iff, exists_and_left, exists_eq, and_true]
  · obtain ⟨-, -, rfl⟩ := encode_eq_ok_iff.mp hb
    simp

/-- `Decode` accepts exactly the encodings of ordered configs within the signed 256-bit range,
and re-encoding what it returns gives back the very same bytes: one buffer per config. -/
theorem decode_accepts_exactly_encodings (b : List UInt8) :
    ((∃ c, decode b = .ok c) ↔ ∃ c : OnchainConfig,
        -2 ^ 255 ≤ c.min ∧ c.min ≤ c.max ∧ c.max ≤ 2 ^ 255 - 1 ∧ encode c = .ok b) ∧
    (∀ c, decode b = .ok c → encode c = .ok b) ∧
    (∀ c b', decode b = .ok c → decode b' = .ok c → b' = b) := by
  refine ⟨⟨fun ⟨c, h⟩ => ?_, fun ⟨c, _, hle, _, he⟩ => ⟨c, decode_of_encode hle he⟩⟩,
    fun c => encode_of_decode, fun c b' h h' => ?_⟩
  · have he := encode_of_decode h
    obtain ⟨hmin, hmax, -⟩ := encode_eq_ok_iff.mp he
    obtain ⟨-, -, -, -, hle⟩ := decode_eq_ok_iff.mp h
    exact ⟨c, ((inRange_iff _).mp hmin).1, hle, ((inRange_iff _).mp hmax).2, he⟩
  · simpa using (encode_of_decode h').symm.trans (encode_of_decode h)

end StandardOnchainConfigCodec
end ChainlinkRelay.Mercury
