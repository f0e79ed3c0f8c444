import ChainlinkRelay.Broker
import ChainlinkRelay.BigBigEndian
import Mathlib.Data.Nat.Log

/-!
# Values of the median services and their wire messages

The libocr values the median sub-services exchange, the protobuf messages that carry them, and
the conversions between the two that the stubs in `median.go` call: `pb.NewBigIntFromInt` and
`(*pb.BigInt).Int` for integers (not among the repository's files, so a parameter here, with one
model of them from the spec), `timestamppb.New` and `AsTime` for instants.
-/

namespace ChainlinkRelay.Loop

/-! ## Instants -/

/-- `time.Time`: seconds since the Unix epoch, nanoseconds within the second, and the location
it is read in. -/
structure Time where
  unix : Int
  nsec : Nat
  nsec_lt : nsec < 1000000000
  loc : String
  deriving DecidableEq

/-- `t.Equal(u)`: the two denote the same instant. -/
def Time.Equal (t u : Time) : Prop := t.unix = u.unix ∧ t.nsec = u.nsec

def Time.utc (t : Time) : Time := { t with loc := "UTC" }

structure Timestamp where
  seconds : Int
  nanos : Int
  deriving DecidableEq, Repr

def Timestamp.new (t : Time) : Timestamp := ⟨t.unix, t.nsec⟩

/-- `time.Unix(sec, nsec)`, which carries whole seconds of `nsec` into `sec`. -/
def Time.ofUnix (sec nsec : Int) : Time :=
  ⟨sec + nsec / 1000000000, (nsec % 1000000000).toNat, by omega, "Local"⟩

def Timestamp.asTime (ts : Timestamp) : Time := (Time.ofUnix ts.seconds ts.nanos).utc

theorem Timestamp.asTime_new (t : Time) : (Timestamp.new t).asTime = t.utc := by
  have h := t.nsec_lt
  simp only [asTime, new, Time.ofUnix, Time.utc, Time.mk.injEq, and_true]
  omega

/-! ## Values -/

/-- `types.ConfigDigest`, a `[32]byte`. -/
structure ConfigDigest where
  bytes : List UInt8
  length_eq : bytes.length = 32
  deriving DecidableEq

/-- `median.ParsedAttributedObservation`; a nil `*big.Int` is `none`. -/
structure ParsedAttributedObservation where
  timestamp : UInt32
  value : Option Int
  juelsPerFeeCoin : Option Int
  observer : UInt8
  deriving DecidableEq, Repr

/-- `median.OnchainConfig`. -/
structure OnchainConfig where
  min : Option Int
  max : Option Int
  deriving DecidableEq, Repr

/-! ## Wire messages -/

namespace pb

/-- Modelled from the spec: `pb.BigInt`, an arbitrary-precision signed integer sent as a sign
and the bytes of its magnitude. -/
structure BigInt where
  negative : Bool
  value : List UInt8
  deriving DecidableEq, Repr

structure ParsedAttributedObservation where
  timestamp : UInt32
  value : Option BigInt
  julesPerFeeCoin : Option BigInt
  observer : UInt32
  deriving DecidableEq, Repr

structure BuildReportRequest where
  observations : List ParsedAttributedObservation
  deriving DecidableEq, Repr

structure BuildReportReply where
  report : List UInt8
  deriving DecidableEq, Repr

structure MedianFromReportRequest where
  report : List UInt8
  deriving DecidableEq, Repr

structure MedianFromReportReply where
  median : Option BigInt
  deriving DecidableEq, Repr

structure MaxReportLengthRequest where
  n : Int
  deriving DecidableEq, Repr

structure MaxReportLengthReply where
  max : Int
  deriving DecidableEq, Repr

structure LatestTransmissionDetailsRequest where
  deriving DecidableEq, Repr

structure LatestTransmissionDetailsReply where
  configDigest : List UInt8
  epoch : UInt32
  round : UInt32
  latestAnswer : Option BigInt
  latestTimestamp : Timestamp
  deriving DecidableEq, Repr

structure LatestRoundRequestedRequest where
  lookback : Int
  deriving DecidableEq, Repr

structure LatestRoundRequestedReply where
  configDigest : List UInt8
  epoch : UInt32
  round : UInt32
  deriving DecidableEq, Repr

structure OnchainConfig where
  min : Option BigInt
  max : Option BigInt
  deriving DecidableEq, Repr

structure EncodeRequest where
  onchainConfig : OnchainConfig
  deriving DecidableEq, Repr

structure EncodeReply where
  encoded : List UInt8
  deriving DecidableEq, Repr

structure DecodeRequest where
  encoded : List UInt8
  deriving DecidableEq, Repr

structure DecodeReply where
  onchainConfig : OnchainConfig
  deriving DecidableEq, Repr

end pb

/-! ## Fixed-width conversions -/

theorem UInt32.le_255_iff (x : UInt32) : x ≤ 255 ↔ x.toNat ≤ 255 := by
  rw [UInt32.le_def, BitVec.le_def]
  rfl

theorem UInt8.toUInt32_le (o : UInt8) : o.toUInt32 ≤ 255 :=
  (UInt32.le_255_iff _).mpr (Nat.lt_succ_iff.mp o.toNat_lt_size)

theorem UInt8.toUInt32_toUInt8 (o : UInt8) : o.toUInt32.toUInt8 = o :=
  UInt8.toNat.inj (UInt8.toNat_ofNat_of_lt o.toNat_lt_size)

theorem UInt32.toUInt8_toUInt32 {x : UInt32} (h : x ≤ 255) : x.toUInt8.toUInt32 = x := by
  rw [UInt32.le_255_iff] at h
  apply UInt32.toNat.inj
  show (UInt8.ofNat x.toNat).toNat = x.toNat
  exact UInt8.toNat_ofNat_of_lt (by change x.toNat < 256; omega)

/-! ## Integer conversions -/

/-- `pb.NewBigIntFromInt` and `(*pb.BigInt).Int`; a nil pointer on either side is `none`. -/
structure BigIntCodec where
  newBigIntFromInt : Option Int → Option pb.BigInt
  int : Option pb.BigInt → Option Int

/-- `NewBigIntFromInt(x).Int()` gives back `x`, nil included. -/
def BigIntCodec.RoundTrips (conv : BigIntCodec) : Prop := ∀ x, conv.int (conv.newBigIntFromInt x) = x

/-- The number of bytes `big.Int.Bytes` returns for a magnitude: none for zero. -/
def byteLength (n : Nat) : Nat := if n = 0 then 0 else Nat.log 256 n + 1

/-- Modelled from the spec: a sign and the minimal big-endian magnitude, as `big.Int.Bytes` and
`SetBytes` give them. -/
def standardBigIntCodec : BigIntCodec where
  newBigIntFromInt x := x.map fun i => ⟨decide (i < 0), BigBigEndian.toBytes (byteLength i.natAbs) i.natAbs⟩
  int b := b.map fun w =>
    if w.negative then -(BigBigEndian.ofBytes w.value : Int) else BigBigEndian.ofBytes w.value

theorem ofBytes_toBytes_byteLength (n : Nat) :
    BigBigEndian.ofBytes (BigBigEndian.toBytes (byteLength n) n) = n := by
  rw [BigBigEndian.ofBytes_toBytes, Nat.mod_eq_of_lt]
  unfold byteLength
  split_ifs with h
  · simp [h]
  · exact Nat.lt_pow_succ_log_self (by norm_num) n

theorem standardBigIntCodec_roundTrips : standardBigIntCodec.RoundTrips := by
  rintro (_ | i)
  · rfl
  · simp only [standardBigIntCodec, Option.map_some', ofBytes_toBytes_byteLength]
    split_ifs with h <;> simp only [decide_eq_true_eq, not_lt] at h
    · rw [Int.ofNat_natAbs_of_nonpos h.le, neg_neg]
    · rw [Int.natAbs_of_nonneg h]

end ChainlinkRelay.Loop
