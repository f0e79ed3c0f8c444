import ChainlinkRelay.MedianWire

/-!
# The median provider's sub-service stubs

`median.go` exposes three libocr interfaces of the median provider over gRPC: a client stub
turns each call into a request, a server stub turns the request back into a call of the real
implementation. The implementations may have effects, so each method lives in a monad `m`; the
transport is taken to deliver every message unchanged, so a server's methods are what the client
calls.
-/

namespace ChainlinkRelay.Loop

section Interfaces

variable (m : Type → Type)

structure ReportCodec where
  buildReport : List ParsedAttributedObservation → m (Except Error (List UInt8))
  medianFromReport : List UInt8 → m (Except Error (Option Int))
  maxReportLength : Int → m (Except Error Int)

structure MedianContract where
  latestTransmissionDetails : m (Except Error (ConfigDigest × UInt32 × UInt8 × Option Int × Time))
  latestRoundRequested : Int → m (Except Error (ConfigDigest × UInt32 × UInt8))

structure OnchainConfigCodec where
  encode : OnchainConfig → m (Except Error (List UInt8))
  decode : List UInt8 → m (Except Error OnchainConfig)

structure pb.ReportCodecClient where
  buildReport : pb.BuildReportRequest → m (Except Error pb.BuildReportReply)
  medianFromReport : pb.MedianFromReportRequest → m (Except Error pb.MedianFromReportReply)
  maxReportLength : pb.MaxReportLengthRequest → m (Except Error pb.MaxReportLengthReply)

structure pb.MedianContractClient where
  latestTransmissionDetails :
    pb.LatestTransmissionDetailsRequest → m (Except Error pb.LatestTransmissionDetailsReply)
  latestRoundRequested :
    pb.LatestRoundRequestedRequest → m (Except Error pb.LatestRoundRequestedReply)

structure pb.OnchainConfigCodecClient where
  encode : pb.EncodeRequest → m (Except Error pb.EncodeReply)
  decode : pb.DecodeRequest → m (Except Error pb.DecodeReply)

end Interfaces

variable {m : Type → Type} [Monad m] (conv : BigIntCodec)

/-! ## Report codec -/

/-- One observation as `reportCodecServer.BuildReport` rebuilds it from the wire. -/
def ParsedAttributedObservation.ofPb (o : pb.ParsedAttributedObservation) :
    ParsedAttributedObservation :=
  ⟨o.timestamp, conv.int o.value, conv.int o.julesPerFeeCoin, o.observer.toUInt8⟩

def ParsedAttributedObservation.toPb (o : ParsedAttributedObservation) :
    pb.ParsedAttributedObservation :=
  ⟨o.timestamp, conv.newBigIntFromInt o.value, conv.newBigIntFromInt o.juelsPerFeeCoin,
    o.observer.toUInt32⟩

/-- The loop of `reportCodecServer.BuildReport`: rebuild each observation in order, refusing an
observer above `math.MaxUint8`. -/
def parseObservations :
    List pb.ParsedAttributedObservation → List ParsedAttributedObservation →
      Except Error (List ParsedAttributedObservation)
  | [], obs => .ok obs
  | o :: os, obs =>
    if o.observer > 255 then
      .error (.msg ("expected uint8 Observer (max 255) but got " ++ toString o.observer))
    else parseObservations os (obs ++ [ParsedAttributedObservation.ofPb conv o])

def reportCodecClient (grpc : pb.ReportCodecClient m) : ReportCodec m where
  buildReport observations := do
    let reply ← grpc.buildReport ⟨observations.map (ParsedAttributedObservation.toPb conv)⟩
    pure (reply.map (·.report))
  medianFromReport report := do
    let reply ← grpc.medianFromReport ⟨report⟩
    pure (reply.map fun reply => conv.int reply.median)
  maxReportLength n := do
    let reply ← grpc.maxReportLength ⟨n⟩
    pure (reply.map (·.max))

def reportCodecServer (impl : ReportCodec m) : pb.ReportCodecClient m where
  buildReport request :=
    match parseObservations conv request.observations [] with
    | .error err => pure (.error err)
    | .ok obs => do
      let report ← impl.buildReport obs
      pure (report.map (⟨·⟩))
  medianFromReport request := do
    let median ← impl.medianFromReport request.report
    pure (median.map fun median => ⟨conv.newBigIntFromInt median⟩)
  maxReportLength request := do
    let l ← impl.maxReportLength request.n
    pure (l.map (⟨·⟩))

/-! ## Median contract -/

/-- The checks both `medianContractClient` methods make on a reply: a digest of exactly 32 bytes,
then a round that fits a `uint8`. -/
def checkDigestRound (configDigest : List UInt8) (round : UInt32) :
    Except Error (ConfigDigest × UInt8) :=
  if h : configDigest.length = 32 then
    if round > 255 then
      .error (.msg ("expected uint8 Round (max 255) but got " ++ toString round))
    else .ok (⟨configDigest, h⟩, round.toUInt8)
  else .error (.msg ("expected ConfigDigest length 32 but got " ++ toString configDigest.length))

def medianContractClient (grpc : pb.MedianContractClient m) : MedianContract m where
  latestTransmissionDetails := do
    let reply ← grpc.latestTransmissionDetails ⟨⟩
    pure (reply.bind fun reply => (checkDigestRound reply.configDigest reply.round).map
      fun (digest, round) =>
        (digest, reply.epoch, round, conv.int reply.latestAnswer, reply.latestTimestamp.asTime))
  latestRoundRequested lookback := do
    let reply ← grpc.latestRoundRequested ⟨lookback⟩
    pure (reply.bind fun reply => (checkDigestRound reply.configDigest reply.round).map
      fun (digest, round) => (digest, reply.epoch, round))

def medianContractServer (impl : MedianContract m) : pb.MedianContractClient m where
  latestTransmissionDetails _ := do
    let details ← impl.latestTransmissionDetails
    pure (details.map fun (digest, epoch, round, latestAnswer, latestTimestamp) =>
      ⟨digest.bytes, epoch, round.toUInt32, conv.newBigIntFromInt latestAnswer,
        Timestamp.new latestTimestamp⟩)
  latestRoundRequested request := do
    let requested ← impl.latestRoundRequested request.lookback
    pure (requested.map fun (digest, epoch, round) => ⟨digest.bytes, epoch, round.toUInt32⟩)

/-! ## On-chain config codec -/

def onchainConfigCodecClient (grpc : pb.OnchainConfigCodecClient m) : OnchainConfigCodec m where
  encode config := do
    let reply ← grpc.encode ⟨⟨conv.newBigIntFromInt config.min, conv.newBigIntFromInt config.max⟩⟩
    pure (reply.map (·.encoded))
  decode bytes := do
    let reply ← grpc.decode ⟨bytes⟩
    pure (reply.map fun reply => ⟨conv.int reply.onchainConfig.min, conv.int reply.onchainConfig.max⟩)

def onchainConfigCodecServer (impl : OnchainConfigCodec m) : pb.OnchainConfigCodecClient m where
  encode request := do
    let min := conv.int request.onchainConfig.min
    let max := conv.int request.onchainConfig.max
    let b ← impl.encode { max := max, min := min }
    pure (b.map (⟨·⟩))
  decode request := do
    let oc ← impl.decode request.encoded
    pure (oc.map fun oc => ⟨⟨conv.newBigIntFromInt oc.min, conv.newBigIntFromInt oc.max⟩⟩)

/-! ## Observations and replies on the wire -/

theorem parseObservations_of_le {os : List pb.ParsedAttributedObservation}
    (hos : ∀ o ∈ os, o.observer ≤ 255) (obs : List ParsedAttributedObservation) :
    parseObservations conv os obs = .ok (obs ++ os.map (ParsedAttributedObservation.ofPb conv)) := by
  induction os generalizing obs with
  | nil => simp [parseObservations]
  | cons o os ih =>
    rw [parseObservations, if_neg (UInt32.not_lt.mpr (hos o (List.mem_cons_self _ _))),
      ih (fun o' h => hos o' (List.mem_cons_of_mem _ h))]
    simp

theorem parseObservations_of_gt {os : List pb.ParsedAttributedObservation}
    (h : ∃ o ∈ os, 255 < o.observer) (obs : List ParsedAttributedObservation) :
    ∃ err, parseObservations conv os obs = .error err := by
  induction os generalizing obs with
  | nil => simp at h
  | cons o os ih =>
    rw [parseObservations]
    split_ifs with ho
    · exact ⟨_, rfl⟩
    · exact ih (by simpa [ho] using h) _

/-- An observer above 255 stops the loop at the first such observer, whose value the error
names. -/
theorem parseObservations_eq_error {os : List pb.ParsedAttributedObservation}
    (h : ∃ o ∈ os, 255 < o.observer) (obs : List ParsedAttributedObservation) :
    ∃ pre o post, os = pre ++ o :: post ∧ (∀ p ∈ pre, p.observer ≤ 255) ∧ 255 < o.observer ∧
      parseObservations conv os obs =
        .error (.msg ("expected uint8 Observer (max 255) but got " ++ toString o.observer)) := by
  induction os generalizing obs with
  | nil => simp at h
  | cons o os ih =>
    by_cases ho : 255 < o.observer
    · exact ⟨[], o, os, rfl, by simp, ho, by rw [parseObservations, if_pos ho]⟩
    · obtain ⟨pre, o', post, rfl, hpre, ho', herr⟩ := ih (by simpa [ho] using h) _
      refine ⟨o :: pre, o', post, rfl, ?_, ho', by rw [parseObservations, if_neg ho, herr]⟩
      simpa [UInt32.not_lt.mp ho] using hpre

theorem ofPb_toPb (hconv : conv.RoundTrips) (o : ParsedAttributedObservation) :
    ParsedAttributedObservation.ofPb conv (ParsedAttributedObservation.toPb conv o) = o := by
  simp [ParsedAttributedObservation.ofPb, ParsedAttributedObservation.toPb, hconv o.value,
    hconv o.juelsPerFeeCoin, UInt8.toUInt32_toUInt8]

theorem checkDigestRound_ok_iff {d : List UInt8} {r : UInt32} :
    (∃ v, checkDigestRound d r = .ok v) ↔ d.length = 32 ∧ r ≤ 255 := by
  unfold checkDigestRound
  by_cases h : d.length = 32
  · by_cases hr : r > 255
    · simp [h, hr, UInt32.not_le.mpr hr]
    · simp [h, hr, UInt32.not_lt.mp hr]
  · simp [h]

theorem checkDigestRound_eq_error_iff {d : List UInt8} {r : UInt32} {err : Error} :
    checkDigestRound d r = .error err ↔
      (d.length ≠ 32 ∧
        err = .msg ("expected ConfigDigest length 32 but got " ++ toString d.length)) ∨
      (d.length = 32 ∧ 255 < r ∧
        err = .msg ("expected uint8 Round (max 255) but got " ++ toString r)) := by
  unfold checkDigestRound
  by_cases h : d.length = 32
  · by_cases hr : 255 < r
    · simp [h, hr, eq_comm]
    · simp [h, hr]
  · simp [h, eq_comm]

theorem checkDigestRound_ok {d : List UInt8} {r : UInt32} {v : ConfigDigest × UInt8}
    (hv : checkDigestRound d r = .ok v) : v.1.bytes = d ∧ v.2.toUInt32 = r := by
  unfold checkDigestRound at hv
  split_ifs at hv with h hr
  cases hv
  exact ⟨rfl, UInt32.toUInt8_toUInt32 (UInt32.not_lt.mp hr)⟩

theorem checkDigestRound_of_digest (d : ConfigDigest) (r : UInt8) :
    checkDigestRound d.bytes r.toUInt32 = .ok (d, r) := by
  rw [checkDigestRound, dif_pos d.length_eq, if_neg (UInt32.not_lt.mpr (UInt8.toUInt32_le r)),
    UInt8.toUInt32_toUInt8]

/-! ## Client over server -/

section Relay

variable [LawfulMonad m] {α β : Type}

private theorem map_map {γ : Type} (r : Except Error α) (f : α → β) (g : β → γ) :
    (r.map f).map g = r.map (g ∘ f) := by
  cases r <;> rfl

private theorem relay_inverse (x : m (Except Error α)) (f : α → β) (g : β → α)
    (hgf : ∀ a, g (f a) = a) :
    ((x >>= fun r => pure (r.map f)) >>= fun r => pure (r.map g)) = x := by
  simp only [bind_assoc, pure_bind, map_map]
  conv_rhs => rw [← bind_pure x]
  congr 1
  funext r
  cases r <;> simp [Except.map, hgf]

/-- Every method of the three client stubs, called over the server stub of an implementation,
fails exactly when the implementation fails and otherwise returns what it returns: the same
observations reach `BuildReport`, min and max keep their places, and the timestamp comes back as
the same instant read in UTC. -/
theorem median_stubs_transparent (hconv : conv.RoundTrips) (codec : ReportCodec m)
    (contract : MedianContract m) (occ : OnchainConfigCodec m) :
    (∀ obs, (reportCodecClient conv (reportCodecServer conv codec)).buildReport obs =
      codec.buildReport obs) ∧
    (∀ report, (reportCodecClient conv (reportCodecServer conv codec)).medianFromReport report =
      codec.medianFromReport report) ∧
    (∀ n, (reportCodecClient conv (reportCodecServer conv codec)).maxReportLength n =
      codec.maxReportLength n) ∧
    (∀ c, (onchainConfigCodecClient conv (onchainConfigCodecServer conv occ)).encode c =
      occ.encode c) ∧
    (∀ b, (onchainConfigCodecClient conv (onchainConfigCodecServer conv occ)).decode b =
      occ.decode b) ∧
    ((medianContractClient conv (medianContractServer conv contract)).latestTransmissionDetails =
      contract.latestTransmissionDetails >>= fun r =>
        pure (r.map fun (digest, epoch, round, answer, t) => (digest, epoch, round, answer, t.utc))) ∧
    (∀ t : Time, t.utc.Equal t) ∧
    (∀ lookback, (medianContractClient conv (medianContractServer conv contract)).latestRoundRequested
      lookback = contract.latestRoundRequested lookback) := by
  have hint : ∀ x, conv.int (conv.newBigIntFromInt x) = x := hconv
  refine ⟨fun obs => ?_, fun report => ?_, fun n => ?_, fun c => ?_, fun b => ?_, ?_,
    fun t => ⟨rfl, rfl⟩, fun lookback => ?_⟩
  · have hle : ∀ o ∈ obs.map (ParsedAttributedObservation.toPb conv), o.observer ≤ 255 := by
      simp [ParsedAttributedObservation.toPb, UInt8.toUInt32_le]
    have hid : ParsedAttributedObservation.ofPb conv ∘ ParsedAttributedObservation.toPb conv = id :=
      funext (ofPb_toPb conv hconv)
    simp only [reportCodecClient, reportCodecServer, parseObservations_of_le conv hle,
      List.nil_append, List.map_map, hid, List.map_id]
    apply relay_inverse
    intro
    rfl
  · exact relay_inverse _ _ _ hint
  · apply relay_inverse
    intro
    rfl
  · simp only [onchainConfigCodecClient, onchainConfigCodecServer, hint]
    apply relay_inverse
    intro
    rfl
  · apply relay_inverse
    intro oc
    simp [hint]
  · simp only [medianContractClient, medianContractServer, bind_assoc, pure_bind]
    congr 1
    funext r
    cases r <;> simp [Except.map, Except.bind, checkDigestRound_of_digest, hint,
      Timestamp.asTime_new]
  · simp only [medianContractClient, medianContractServer, bind_assoc, pure_bind]
    conv_rhs => rw [← bind_pure (contract.latestRoundRequested lookback)]
    congr 1
    funext r
    cases r <;> simp [Except.map, Except.bind, checkDigestRound_of_digest]

theorem median_stubs_transparent_standard :
    LawfulMonad Id ∧ standardBigIntCodec.RoundTrips ∧
    let codec : ReportCodec Id := ⟨fun obs => .ok (obs.map (·.observer)), fun _ => .ok (some (-5)),
      fun n => .ok (n + 1)⟩
    let contract : MedianContract Id := ⟨.error (.msg "no transmission"), fun _ => .error (.msg "")⟩
    let occ : OnchainConfigCodec Id := ⟨fun c => .ok (if c.min = c.max then [1] else []),
      fun _ => .ok ⟨some 1, none⟩⟩
    (∀ obs, (reportCodecClient standardBigIntCodec
      (reportCodecServer standardBigIntCodec codec)).buildReport obs = codec.buildReport obs) ∧
    (∀ report, (reportCodecClient standardBigIntCodec
      (reportCodecServer standardBigIntCodec codec)).medianFromReport report =
        codec.medianFromReport report) ∧
    (∀ n, (reportCodecClient standardBigIntCodec
      (reportCodecServer standardBigIntCodec codec)).maxReportLength n = codec.maxReportLength n) ∧
    (∀ c, (onchainConfigCodecClient standardBigIntCodec
      (onchainConfigCodecServer standardBigIntCodec occ)).encode c = occ.encode c) ∧
    (∀ b, (onchainConfigCodecClient standardBigIntCodec
      (onchainConfigCodecServer standardBigIntCodec occ)).decode b = occ.decode b) ∧
    ((medianContractClient standardBigIntCodec
      (medianContractServer standardBigIntCodec contract)).latestTransmissionDetails =
      contract.latestTransmissionDetails >>= fun r =>
        pure (r.map fun (digest, epoch, round, answer, t) => (digest, epoch, round, answer, t.utc))) ∧
    (∀ t : Time, t.utc.Equal t) ∧
    (∀ lookback, (medianContractClient standardBigIntCodec
      (medianContractServer standardBigIntCodec contract)).latestRoundRequested lookback =
        contract.latestRoundRequested lookback) :=
  ⟨inferInstance, standardBigIntCodec_roundTrips,
    median_stubs_transparent standardBigIntCodec standardBigIntCodec_roundTrips _ _ _⟩

end Relay

/-! ## Validation -/

section Validation

variable {γ : Type}

private theorem checked_ok_iff (d : List UInt8) (r : UInt32) (g : ConfigDigest × UInt8 → γ) :
    (∃ v, (checkDigestRound d r).map g = .ok v) ↔ d.length = 32 ∧ r ≤ 255 := by
  rw [← checkDigestRound_ok_iff]
  cases checkDigestRound d r <;> simp [Except.map]

private theorem checked_ok {d : List UInt8} {r : UInt32} {g : ConfigDigest × UInt8 → γ} {v : γ}
    (hv : (checkDigestRound d r).map g = .ok v) :
    ∃ u : ConfigDigest × UInt8, g u = v ∧ u.1.bytes = d ∧ u.2.toUInt32 = r := by
  rcases hc : checkDigestRound d r with err | u <;> rw [hc] at hv <;> simp [Except.map] at hv
  exact ⟨u, hv, checkDigestRound_ok hc⟩

/-- Every refusal of the stubs' checks names what failed and the offending value:
`reportCodecServer.BuildReport` answers with the first observer above 255, without calling the
implementation, and the checks both `medianContractClient` methods make on a reply name a digest
length other than 32 or, the digest being right, a round above 255. -/
theorem median_stubs_refusals_name_values (impl : ReportCodec m) :
    (∀ request : pb.BuildReportRequest, (∃ o ∈ request.observations, 255 < o.observer) →
      ∃ pre o post, request.observations = pre ++ o :: post ∧ (∀ p ∈ pre, p.observer ≤ 255) ∧
        255 < o.observer ∧ (reportCodecServer conv impl).buildReport request =
          pure (.error (.msg ("expected uint8 Observer (max 255) but got " ++
            toString o.observer)))) ∧
    (∀ (configDigest : List UInt8) (round : UInt32) (err : Error),
      checkDigestRound configDigest round = .error err ↔
        (configDigest.length ≠ 32 ∧ err = .msg ("expected ConfigDigest length 32 but got " ++
          toString configDigest.length)) ∨
        (configDigest.length = 32 ∧ 255 < round ∧
          err = .msg ("expected uint8 Round (max 255) but got " ++ toString round))) := by
  refine ⟨fun request h => ?_, fun _ _ _ => checkDigestRound_eq_error_iff⟩
  obtain ⟨pre, o, post, hos, hpre, ho, herr⟩ := parseObservations_eq_error conv h []
  exact ⟨pre, o, post, hos, hpre, ho, by simp only [reportCodecServer, herr]⟩

variable [LawfulMonad m]

/-- `reportCodecServer.BuildReport` calls the implementation once, with the observations rebuilt
one for one in request order, exactly when every observer is at most 255, and otherwise fails
without calling it; an observer that passes keeps its value. `medianContractClient`'s two methods
succeed on a reply exactly when its digest has 32 bytes and its round is at most 255, and then
return that digest, epoch and round unchanged. -/
theorem median_stubs_validate (impl : ReportCodec m) (grpc : pb.MedianContractClient m) :
    (∀ request : pb.BuildReportRequest, (∀ o ∈ request.observations, o.observer ≤ 255) →
      (reportCodecServer conv impl).buildReport request =
        impl.buildReport (request.observations.map (ParsedAttributedObservation.ofPb conv)) >>=
          fun r => pure (r.map (⟨·⟩))) ∧
    (∀ request : pb.BuildReportRequest, (∃ o ∈ request.observations, 255 < o.observer) →
      ∃ err, (reportCodecServer conv impl).buildReport request = pure (.error err)) ∧
    (∀ o : pb.ParsedAttributedObservation, o.observer ≤ 255 →
      (ParsedAttributedObservation.ofPb conv o).observer.toUInt32 = o.observer) ∧
    (∀ reply : pb.LatestTransmissionDetailsReply, ∃ res,
      (medianContractClient conv { grpc with
        latestTransmissionDetails := fun _ => pure (.ok reply) }).latestTransmissionDetails =
          pure res ∧
      ((∃ v, res = .ok v) ↔ reply.configDigest.length = 32 ∧ reply.round ≤ 255) ∧
      ∀ v, res = .ok v →
        v.1.bytes = reply.configDigest ∧ v.2.1 = reply.epoch ∧ v.2.2.1.toUInt32 = reply.round) ∧
    (∀ (reply : pb.LatestRoundRequestedReply) (lookback : Int), ∃ res,
      (medianContractClient conv { grpc with
        latestRoundRequested := fun _ => pure (.ok reply) }).latestRoundRequested lookback =
          pure res ∧
      ((∃ v, res = .ok v) ↔ reply.configDigest.length = 32 ∧ reply.round ≤ 255) ∧
      ∀ v, res = .ok v →
        v.1.bytes = reply.configDigest ∧ v.2.1 = reply.epoch ∧ v.2.2.toUInt32 = reply.round) := by
  refine ⟨fun request h => ?_, fun request h => ?_, fun o h => UInt32.toUInt8_toUInt32 h,
    fun reply => ⟨_, pure_bind _ _, checked_ok_iff _ _ _, fun v hv => ?_⟩,
    fun reply lookback => ⟨_, pure_bind _ _, checked_ok_iff _ _ _, fun v hv => ?_⟩⟩
  · simp only [reportCodecServer, parseObservations_of_le conv h, List.nil_append]
  · obtain ⟨err, herr⟩ := parseObservations_of_gt conv h []
    exact ⟨err, by simp only [reportCodecServer, herr]⟩
  · obtain ⟨u, rfl, hd, hr⟩ := checked_ok hv
    exact ⟨hd, rfl, hr⟩
  · obtain ⟨u, rfl, hd, hr⟩ := checked_ok hv
    exact ⟨hd, rfl, hr⟩

theorem median_stubs_validate_in_id :
    LawfulMonad Id ∧
    let impl : ReportCodec Id := ⟨fun obs => .ok (obs.map (·.observer)), fun _ => .ok none,
      fun n => .ok n⟩
    let grpc : pb.MedianContractClient Id :=
      ⟨fun _ => .error (.msg "unavailable"), fun _ => .error (.msg "unavailable")⟩
    (∀ request : pb.BuildReportRequest, (∀ o ∈ request.observations, o.observer ≤ 255) →
      (reportCodecServer standardBigIntCodec impl).buildReport request =
        impl.buildReport (request.observations.map
          (ParsedAttributedObservation.ofPb standardBigIntCodec)) >>= fun r => pure (r.map (⟨·⟩))) ∧
    (∀ request : pb.BuildReportRequest, (∃ o ∈ request.observations, 255 < o.observer) →
      ∃ err, (reportCodecServer standardBigIntCodec impl).buildReport request = pure (.error err)) ∧
    (∀ o : pb.ParsedAttributedObservation, o.observer ≤ 255 →
      (ParsedAttributedObservation.ofPb standardBigIntCodec o).observer.toUInt32 = o.observer) ∧
    (∀ reply : pb.LatestTransmissionDetailsReply, ∃ res,
      (medianContractClient standardBigIntCodec { grpc with
        latestTransmissionDetails := fun _ => pure (.ok reply) }).latestTransmissionDetails =
          pure res ∧
      ((∃ v, res = .ok v) ↔ reply.configDigest.length = 32 ∧ reply.round ≤ 255) ∧
      ∀ v, res = .ok v →
        v.1.bytes = reply.configDigest ∧ v.2.1 = reply.epoch ∧ v.2.2.1.toUInt32 = reply.round) ∧
    (∀ (reply : pb.LatestRoundRequestedReply) (lookback : Int), ∃ res,
      (medianContractClient standardBigIntCodec { grpc with
        latestRoundRequested := fun _ => pure (.ok reply) }).latestRoundRequested lookback =
          pure res ∧
      ((∃ v, res = .ok v) ↔ reply.configDigest.length = 32 ∧ reply.round ≤ 255) ∧
      ∀ v, res = .ok v →
        v.1.bytes = reply.configDigest ∧ v.2.1 = reply.epoch ∧ v.2.2.toUInt32 = reply.round) :=
  ⟨inferInstance, median_stubs_validate standardBigIntCodec _ _⟩

end Validation

end ChainlinkRelay.Loop
