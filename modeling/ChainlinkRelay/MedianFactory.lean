import ChainlinkRelay.Broker

/-!
# Building the median factory across the plugin boundary

`PluginMedianClient.NewMedianFactory` (host side) serves the four dependencies and asks the
plugin for a factory; `pluginMedianServer.NewMedianFactory` (plugin side) dials them in order,
builds the factory, and serves it together with the four connections. On the plugin side the four
unrolled dials are the spec's acquisition loop `dialAll`, which releases what it holds at the
first failure.
-/

namespace ChainlinkRelay.Loop

/-! ## The acquisition loop -/

/-- Dial each dependency in order; at the first failure release what is held, in the order it
was acquired, and report the dependency that failed. -/
def dialAll : List (String × UInt32) → List Resource → BrokerM (Except Error (List Resource))
  | [], held => pure (.ok held)
  | (name, id) :: deps, held => do
    match ← dial id with
    | .error err =>
      closeAll held
      pure (.error (.connDial name id err))
    | .ok conn => dialAll deps (held ++ [⟨conn, name⟩])

def conns (c : Nat) : List (String × UInt32) → List Resource
  | [] => []
  | (name, _) :: deps => ⟨c, name⟩ :: conns (c + 1) deps

@[simp] theorem map_name_conns (c : Nat) (deps : List (String × UInt32)) :
    (conns c deps).map Resource.name = deps.map Prod.fst := by
  induction deps generalizing c with
  | nil => rfl
  | cons d deps ih => simp [conns, ih]

theorem map_handle_conns (c : Nat) (deps : List (String × UInt32)) :
    (conns c deps).map Resource.handle = List.range' c deps.length := by
  induction deps generalizing c with
  | nil => rfl
  | cons d deps ih => simp [conns, ih, List.range'_succ]

/-- The first `k` answers of the oracle from call `c` on are successes. -/
def AnswersOk (net : Nat → Except Error UInt32) (c k : Nat) : Prop :=
  ∀ j < k, ∃ x, net (c + j) = .ok x

theorem dialAll_of_answersOk (deps : List (String × UInt32)) (held : List Resource) (s : Broker)
    (hok : AnswersOk s.net s.calls deps.length) :
    dialAll deps held s = (.ok (held ++ conns s.calls deps), { s with
      calls := s.calls + deps.length, dialed := s.dialed ++ deps.map Prod.snd,
      opened := s.opened ++ (conns s.calls deps).map Resource.handle }) := by
  induction deps generalizing held s with
  | nil => simp [dialAll, conns]
  | cons d deps ih =>
    obtain ⟨name, id⟩ := d
    obtain ⟨x, hx⟩ := hok 0 (by simp)
    have hrest : AnswersOk s.net (s.calls + 1) deps.length := fun j hj => by
      simpa [Nat.add_assoc, Nat.add_comm 1] using hok (j + 1) (by simpa using hj)
    simp only [dialAll, bind_apply, dial_ok (Nat.add_zero _ ▸ hx)]
    rw [ih _ _ hrest]
    simp [conns, Nat.add_assoc, Nat.add_comm 1]

theorem dialAll_of_error (deps : List (String × UInt32)) (held : List Resource) (s : Broker)
    {k : Nat} (hk : k < deps.length) (hok : AnswersOk s.net s.calls k) {err : Error}
    (herr : s.net (s.calls + k) = .error err) :
    dialAll deps held s = (.error (.connDial (deps.get ⟨k, hk⟩).1 (deps.get ⟨k, hk⟩).2 err),
      { s with
        calls := s.calls + k + 1, dialed := s.dialed ++ (deps.take (k + 1)).map Prod.snd,
        opened := s.opened ++ (conns s.calls (deps.take k)).map Resource.handle,
        released := s.released ++ held ++ conns s.calls (deps.take k) }) := by
  induction deps generalizing held s k with
  | nil => simp at hk
  | cons d deps ih =>
    obtain ⟨name, id⟩ := d
    cases k with
    | zero =>
      simp only [dialAll, bind_apply, dial_error (Nat.add_zero _ ▸ herr)]
      simp [conns]
    | succ k =>
      obtain ⟨x, hx⟩ := hok 0 (by simp)
      have hrest : AnswersOk s.net (s.calls + 1) k := fun j hj => by
        simpa [Nat.add_assoc, Nat.add_comm 1] using hok (j + 1) (by omega)
      simp only [dialAll, bind_apply, dial_ok (Nat.add_zero _ ▸ hx)]
      rw [ih _ _ (by simpa using hk) hrest (by simpa [Nat.add_assoc, Nat.add_comm 1] using herr)]
      simp [conns, Nat.add_assoc, Nat.add_comm 1]

/-! ## Plugin side -/

def NewMedianFactoryRequest.dependencies (r : NewMedianFactoryRequest) : List (String × UInt32) :=
  [("DataSource", r.dataSourceID), ("JuelsPerFeeCoinDataSource", r.juelsPerFeeCoinDataSourceID),
    ("MedianProvider", r.medianProviderID), ("ErrorLog", r.errorLogID)]

structure NewMedianFactoryReply where
  reportingPluginFactoryID : UInt32
  deriving DecidableEq, Repr

/-- The plugin's own `NewMedianFactory`, called with clients over the provider, data source,
juels-per-fee-coin data source and error log connections, in that order. -/
abbrev PluginMedian (Factory : Type) := Nat → Nat → Nat → Nat → Except Error Factory

namespace pluginMedianServer

variable {Factory : Type}

/-- The end of `NewMedianFactory`, once the four dependencies are dialed: build the factory, and
serve it with the four connections as its dependents. -/
def serveFactory (impl : PluginMedian Factory) (dsRes juelsRes providerRes errorLogRes : Resource) :
    BrokerM (Except Error NewMedianFactoryReply) := do
  match impl providerRes.handle dsRes.handle juelsRes.handle errorLogRes.handle with
  | .error err =>
    closeAll [dsRes, juelsRes, providerRes, errorLogRes]
    pure (.error err)
  | .ok _ =>
    match ← serveNew "ReportingPluginProvider" ["Service", "ReportingPluginFactory"]
        [dsRes, juelsRes, providerRes, errorLogRes] with
    | .error err => pure (.error err)
    | .ok (id, _) => pure (.ok ⟨id⟩)

def newMedianFactory (impl : PluginMedian Factory) (request : NewMedianFactoryRequest) :
    BrokerM (Except Error NewMedianFactoryReply) := do
  match ← dial request.dataSourceID with
  | .error err => pure (.error (.connDial "DataSource" request.dataSourceID err))
  | .ok dsConn =>
    let dsRes : Resource := ⟨dsConn, "DataSource"⟩
    match ← dial request.juelsPerFeeCoinDataSourceID with
    | .error err =>
      closeAll [dsRes]
      pure (.error (.connDial "JuelsPerFeeCoinDataSource" request.juelsPerFeeCoinDataSourceID err))
    | .ok juelsConn =>
      let juelsRes : Resource := ⟨juelsConn, "JuelsPerFeeCoinDataSource"⟩
      match ← dial request.medianProviderID with
      | .error err =>
        closeAll [dsRes, juelsRes]
        pure (.error (.connDial "MedianProvider" request.medianProviderID err))
      | .ok providerConn =>
        let providerRes : Resource := ⟨providerConn, "MedianProvider"⟩
        match ← dial request.errorLogID with
        | .error err =>
          closeAll [dsRes, juelsRes, providerRes]
          pure (.error (.connDial "ErrorLog" request.errorLogID err))
        | .ok errorLogConn =>
          serveFactory impl dsRes juelsRes providerRes ⟨errorLogConn, "ErrorLog"⟩

/-- The handshake as the spec states it: the acquisition loop over the four dependencies, then
`serveFactory`. -/
def newMedianFactorySpec (impl : PluginMedian Factory) (request : NewMedianFactoryRequest) :
    BrokerM (Except Error NewMedianFactoryReply) := do
  match ← dialAll request.dependencies [] with
  | .error err => pure (.error err)
  | .ok [ds, juels, provider, errorLog] => serveFactory impl ds juels provider errorLog
  | .ok _ => pure (.error (.msg "unreachable"))

/-- The four unrolled dials of `NewMedianFactory` are the acquisition loop. -/
theorem newMedianFactory_eq_spec (impl : PluginMedian Factory) (request : NewMedianFactoryRequest) :
    newMedianFactory impl request = newMedianFactorySpec impl request := by
  funext s
  rcases h0 : s.net s.calls with e0 | x0
  · simp [newMedianFactory, newMedianFactorySpec, NewMedianFactoryRequest.dependencies, dialAll,
      dial, h0]
  rcases h1 : s.net (s.calls + 1) with e1 | x1
  · simp [newMedianFactory, newMedianFactorySpec, NewMedianFactoryRequest.dependencies, dialAll,
      dial, h0, h1]
  rcases h2 : s.net (s.calls + 1 + 1) with e2 | x2
  · simp [newMedianFactory, newMedianFactorySpec, NewMedianFactoryRequest.dependencies, dialAll,
      dial, h0, h1, h2]
  rcases h3 : s.net (s.calls + 1 + 1 + 1) with e3 | x3 <;>
    simp [newMedianFactory, newMedianFactorySpec, NewMedianFactoryRequest.dependencies, dialAll,
      dial, h0, h1, h2, h3]

section Outcomes

variable {impl : PluginMedian Factory} {ds juels provider errorLog : Resource} {s : Broker}

theorem serveFactory_of_impl_error {err : Error}
    (h : impl provider.handle ds.handle juels.handle errorLog.handle = .error err) :
    serveFactory impl ds juels provider errorLog s =
      (.error err, { s with released := s.released ++ [ds, juels, provider, errorLog] }) := by
  simp [serveFactory, h]

theorem serveFactory_of_impl_ok {f : Factory}
    (h : impl provider.handle ds.handle juels.handle errorLog.handle = .ok f) :
    serveFactory impl ds juels provider errorLog s =
      (fun r => (r.1.map fun p => ⟨p.1⟩, r.2)) (serveNew "ReportingPluginProvider"
        ["Service", "ReportingPluginFactory"] [ds, juels, provider, errorLog] s) := by
  rcases hs : serveNew "ReportingPluginProvider" ["Service", "ReportingPluginFactory"]
    [ds, juels, provider, errorLog] s with ⟨r, s'⟩
  rcases r with err | ⟨id, res⟩ <;> simp [serveFactory, h, hs, Except.map]

theorem serveFactory_dialed (ds juels provider errorLog : Resource) :
    (serveFactory impl ds juels provider errorLog s).2.dialed = s.dialed := by
  rcases h : impl provider.handle ds.handle juels.handle errorLog.handle with err | f
  · rw [serveFactory_of_impl_error h]
  · rw [serveFactory_of_impl_ok h]
    simp only [serveNew, serve]
    split <;> rfl

end Outcomes

theorem answersOk_or_first_error (net : Nat → Except Error UInt32) (c n : Nat) :
    AnswersOk net c n ∨ ∃ k < n, AnswersOk net c k ∧ ∃ err, net (c + k) = .error err := by
  induction n with
  | zero => exact .inl fun j hj => absurd hj (Nat.not_lt_zero j)
  | succ n ih =>
    rcases ih with hok | ⟨k, hk, hok, herr⟩
    · rcases hn : net (c + n) with err | x
      · exact .inr ⟨n, Nat.lt_succ_self n, hok, err, hn⟩
      · refine .inl fun j hj => ?_
        rcases Nat.lt_succ_iff_lt_or_eq.mp hj with hj | rfl
        exacts [hok j hj, ⟨x, hn⟩]
    · exact .inr ⟨k, Nat.lt_succ_of_lt hk, hok, herr⟩

def dialedAll (request : NewMedianFactoryRequest) (s : Broker) : Broker :=
  { s with
    calls := s.calls + 4, dialed := s.dialed ++ request.dependencies.map Prod.snd,
    opened := s.opened ++ (conns s.calls request.dependencies).map Resource.handle }

section Paths

variable (impl : PluginMedian Factory) (request : NewMedianFactoryRequest) (s : Broker)

theorem newMedianFactory_of_dial_error {k : Nat} (hk : k < 4) (hok : AnswersOk s.net s.calls k)
    {err : Error} (herr : s.net (s.calls + k) = .error err) :
    newMedianFactory impl request s =
      (.error (.connDial (request.dependencies.get ⟨k, hk⟩).1
        (request.dependencies.get ⟨k, hk⟩).2 err), { s with
        calls := s.calls + k + 1,
        dialed := s.dialed ++ (request.dependencies.take (k + 1)).map Prod.snd,
        opened := s.opened ++ (conns s.calls (request.dependencies.take k)).map Resource.handle,
        released := s.released ++ conns s.calls (request.dependencies.take k) }) := by
  rw [newMedianFactory_eq_spec]
  simp [newMedianFactorySpec, dialAll_of_error request.dependencies [] s hk hok herr]

/-- A failed dial releases the connections already held in the order they were dialed, the data
source first, which is not the reverse order the spec asks for. -/
theorem newMedianFactory_rollback_in_dial_order {k : Nat} (hk : k < 4)
    (hok : AnswersOk s.net s.calls k) {err : Error} (herr : s.net (s.calls + k) = .error err) :
    ((newMedianFactory impl request s).2.released.drop s.released.length).map Resource.handle =
      List.range' s.calls k := by
  rw [newMedianFactory_of_dial_error impl request s hk hok herr]
  simp [map_handle_conns, NewMedianFactoryRequest.dependencies, Nat.min_eq_left hk.le]

theorem newMedianFactory_rollback_at_provider :
    let s : Broker := ⟨fun n => if n < 2 then .ok 7 else .error (.msg "refused"), 0, [], [], [],
      [], []⟩
    2 < 4 ∧ AnswersOk s.net s.calls 2 ∧ s.net (s.calls + 2) = .error (.msg "refused") ∧
      ((newMedianFactory (fun _ _ _ _ => .ok ()) ⟨1, 2, 3, 4⟩ s).2.released.drop
        s.released.length).map Resource.handle = [0, 1] := by
  intro s
  have hok : AnswersOk s.net s.calls 2 := fun j hj => ⟨7, if_pos (by simpa [s] using hj)⟩
  exact ⟨by decide, hok, rfl,
    newMedianFactory_rollback_in_dial_order (fun _ _ _ _ => .ok ()) ⟨1, 2, 3, 4⟩ s (by decide) hok
      rfl⟩

theorem newMedianFactory_of_dials_ok (hok : AnswersOk s.net s.calls 4) :
    newMedianFactory impl request s =
      serveFactory impl ⟨s.calls, "DataSource"⟩ ⟨s.calls + 1, "JuelsPerFeeCoinDataSource"⟩
        ⟨s.calls + 2, "MedianProvider"⟩ ⟨s.calls + 3, "ErrorLog"⟩ (dialedAll request s) := by
  rw [newMedianFactory_eq_spec]
  simp only [newMedianFactorySpec, bind_apply, dialAll_of_answersOk request.dependencies [] s hok]
  simp [conns, NewMedianFactoryRequest.dependencies, dialedAll, Nat.add_assoc]

theorem newMedianFactory_dials_prefix :
    (newMedianFactory impl request s).2.dialed.drop s.dialed.length <+:
      request.dependencies.map Prod.snd := by
  rcases answersOk_or_first_error s.net s.calls 4 with hok | ⟨k, hk, hok, err, herr⟩
  · rw [newMedianFactory_of_dials_ok impl request s hok, serveFactory_dialed]
    simp [dialedAll]
  · rw [newMedianFactory_of_dial_error impl request s hk hok herr]
    simpa using List.take_prefix (k + 1) (request.dependencies.map Prod.snd)

theorem newMedianFactory_resources_named :
    ((newMedianFactory impl request s).2.released.drop s.released.length ++
      ((newMedianFactory impl request s).2.served.drop s.served.length).flatMap Endpoint.deps).map
        Resource.name <+: request.dependencies.map Prod.fst := by
  rcases answersOk_or_first_error s.net s.calls 4 with hok | ⟨k, hk, hok, err, herr⟩
  · rw [newMedianFactory_of_dials_ok impl request s hok]
    rcases himpl : impl (s.calls + 2) s.calls (s.calls + 1) (s.calls + 3) with e | f
    · rw [serveFactory_of_impl_error himpl]
      simp [dialedAll, NewMedianFactoryRequest.dependencies]
    · rw [serveFactory_of_impl_ok himpl]
      rcases hs : (dialedAll request s).net (dialedAll request s).calls with e | id
      · rw [serveNew, serve_error hs]
        simp [dialedAll, NewMedianFactoryRequest.dependencies]
      · rw [serveNew, serve_ok hs]
        simp [dialedAll, NewMedianFactoryRequest.dependencies]
  · rw [newMedianFactory_of_dial_error impl request s hk hok herr]
    simpa using List.take_prefix k (request.dependencies.map Prod.fst)

private theorem mem_opened {o : List Nat} {r L : List Resource} {x : Nat}
    (hx : x ∈ o ++ L.map Resource.handle) : x ∈ o ∨ x ∈ (r ++ L).map Resource.handle := by
  simp only [List.mem_append, List.map_append] at hx ⊢
  tauto

theorem newMedianFactory_no_leak {err : Error} (h : (newMedianFactory impl request s).1 = .error err) :
    ∀ x ∈ (newMedianFactory impl request s).2.opened,
      x ∈ s.opened ∨ x ∈ (newMedianFactory impl request s).2.released.map Resource.handle := by
  rcases answersOk_or_first_error s.net s.calls 4 with hok | ⟨k, hk, hok, err', herr⟩
  · rw [newMedianFactory_of_dials_ok impl request s hok] at h ⊢
    rcases himpl : impl (s.calls + 2) s.calls (s.calls + 1) (s.calls + 3) with e | f
    · rw [serveFactory_of_impl_error himpl]
      exact fun x hx => mem_opened hx
    · rw [serveFactory_of_impl_ok himpl] at h ⊢
      rcases hs : (dialedAll request s).net (dialedAll request s).calls with e | id
      · rw [serveNew, serve_error hs]
        exact fun x hx => mem_opened hx
      · simp [serveNew, serve_ok hs, Except.map] at h
  · rw [newMedianFactory_of_dial_error impl request s hk hok herr]
    exact fun x hx => mem_opened hx

end Paths

/-- `NewMedianFactory` dials the data source, the juels-per-fee-coin data source, the provider
and the error log, in this order. At a failed dial `k` it dials nothing after `k`, releases the
connections of the dependencies before `k`, once each, and returns `ErrConnDial` with the name,
the requested ID and the cause of `k`. When the plugin fails it releases all four. When the
plugin succeeds it releases none and returns what the `serveNew` registering the factory with the
four as dependents returns. No error exit leaves a connection it opened unreleased. -/
theorem newMedianFactory_dials_in_order_and_rolls_back (impl : PluginMedian Factory)
    (request : NewMedianFactoryRequest) (s : Broker) :
    (∀ k (hk : k < 4), AnswersOk s.net s.calls k → ∀ err, s.net (s.calls + k) = .error err →
      newMedianFactory impl request s =
        (.error (.connDial (request.dependencies.get ⟨k, hk⟩).1
          (request.dependencies.get ⟨k, hk⟩).2 err), { s with
          calls := s.calls + k + 1,
          dialed := s.dialed ++ (request.dependencies.take (k + 1)).map Prod.snd,
          opened := s.opened ++ (conns s.calls (request.dependencies.take k)).map Resource.handle,
          released := s.released ++ conns s.calls (request.dependencies.take k) })) ∧
    (AnswersOk s.net s.calls 4 →
      ∀ err, impl (s.calls + 2) s.calls (s.calls + 1) (s.calls + 3) = .error err →
      newMedianFactory impl request s = (.error err, { dialedAll request s with
        released := s.released ++ conns s.calls request.dependencies })) ∧
    (AnswersOk s.net s.calls 4 →
      ∀ f, impl (s.calls + 2) s.calls (s.calls + 1) (s.calls + 3) = .ok f →
      newMedianFactory impl request s = (fun r => (r.1.map fun p => ⟨p.1⟩, r.2))
        (serveNew "ReportingPluginProvider" ["Service", "ReportingPluginFactory"]
          (conns s.calls request.dependencies) (dialedAll request s))) ∧
    (∀ err, (newMedianFactory impl request s).1 = .error err →
      ∀ x ∈ (newMedianFactory impl request s).2.opened,
        x ∈ s.opened ∨ x ∈ (newMedianFactory impl request s).2.released.map Resource.handle) := by
  refine ⟨fun k hk hok err herr => newMedianFactory_of_dial_error impl request s hk hok herr,
    fun hok err himpl => ?_, fun hok f himpl => ?_,
    fun err h => newMedianFactory_no_leak impl request s h⟩
  · rw [newMedianFactory_of_dials_ok impl request s hok, serveFactory_of_impl_error himpl]
    simp [dialedAll, conns, NewMedianFactoryRequest.dependencies, Nat.add_assoc]
  · rw [newMedianFactory_of_dials_ok impl request s hok, serveFactory_of_impl_ok himpl]
    simp [conns, NewMedianFactoryRequest.dependencies, Nat.add_assoc]

theorem newMedianFactory_refused_at_provider :
    let s : Broker := ⟨fun n => if n < 2 then .ok 7 else .error (.msg "refused"), 0, [], [], [],
      [], []⟩
    AnswersOk s.net s.calls 2 ∧ s.net (s.calls + 2) = .error (.msg "refused") ∧
      newMedianFactory (fun _ _ _ _ => .ok ()) ⟨1, 2, 3, 4⟩ s =
        (.error (.connDial "MedianProvider" 1 (.msg "refused")), { s with
          calls := 3, dialed := [2, 3, 1], opened := [0, 1],
          released := [⟨0, "DataSource"⟩, ⟨1, "JuelsPerFeeCoinDataSource"⟩] }) := by
  intro s
  have hok : AnswersOk s.net s.calls 2 := fun j hj => ⟨7, if_pos (by simpa [s] using hj)⟩
  exact ⟨hok, rfl, (newMedianFactory_dials_in_order_and_rolls_back (fun _ _ _ _ => .ok ())
    ⟨1, 2, 3, 4⟩ s).1 2 (by decide) hok _ rfl⟩

end pluginMedianServer

/-! ## Host side -/

/-- The provider handed to `NewMedianFactory`: one that already wraps a live client connection
(`GRPCClientConn`), or any other, which is served through its sub-interfaces. -/
inductive MedianProvider where
  | grpcClientConn (cc : Nat)
  | other
  deriving DecidableEq, Repr

def medianProviderServices : List String :=
  ["Service", "OffchainConfigDigester", "ContractConfigTracker", "ContractTransmitter",
    "ReportCodec", "MedianContract", "OnchainConfigCodec"]

def MedianProvider.server : MedianProvider → Server
  | .grpcClientConn cc => .proxy cc
  | .other => .fresh medianProviderServices

namespace PluginMedianClient

def requestFactory (req : NewMedianFactoryRequest) :
    BrokerM (Except Error NewMedianFactoryReply) := fun s =>
  ((s.net s.calls).map (⟨·⟩), { s with calls := s.calls + 1, sent := s.sent ++ [req] })

/-- The construction closure `NewMedianFactory` hands to `newClientConn`: it returns the
factory's ID, the resources to release with the client connection, and the error. -/
def newMedianFactoryClosure (provider : MedianProvider) :
    BrokerM (UInt32 × List Resource × Option Error) := do
  let deps : List Resource := []
  match ← serveNew "DataSource" ["DataSource"] [] with
  | .error err => pure (0, [], some err)
  | .ok (dataSourceID, dsRes) =>
    let deps := deps ++ [dsRes]
    match ← serveNew "JuelsPerFeeCoinDataSource" ["DataSource"] [] with
    | .error err => pure (0, [], some err)
    | .ok (juelsPerFeeCoinDataSourceID, juelsPerFeeCoinDataSourceRes) =>
      let deps := deps ++ [juelsPerFeeCoinDataSourceRes]
      let providerServed ← match provider with
        | .grpcClientConn cc => serve "MedianProvider" (.proxy cc) []
        | .other => serveNew "MedianProvider" medianProviderServices []
      match providerServed with
      | .error err => pure (0, [], some err)
      | .ok (providerID, providerRes) =>
        let deps := deps ++ [providerRes]
        match ← serveNew "ErrorLog" ["ErrorLog"] [] with
        | .error err => pure (0, [], some err)
        | .ok (errorLogID, errorLogRes) =>
          let _deps := deps ++ [errorLogRes]
          match ← requestFactory
              ⟨providerID, dataSourceID, juelsPerFeeCoinDataSourceID, errorLogID⟩ with
          | .error err => pure (0, [], some err)
          | .ok reply => pure (reply.reportingPluginFactoryID, [], none)

theorem newMedianFactoryClosure_of_registered (provider : MedianProvider) {s : Broker}
    {x₀ x₁ x₂ x₃ : UInt32} (h₀ : s.net s.calls = .ok x₀) (h₁ : s.net (s.calls + 1) = .ok x₁)
    (h₂ : s.net (s.calls + 2) = .ok x₂) (h₃ : s.net (s.calls + 3) = .ok x₃) :
    newMedianFactoryClosure provider s =
      (match s.net (s.calls + 4) with
        | .error err => (0, [], some err)
        | .ok id => (id, [], none),
       { s with
        calls := s.calls + 5,
        served := s.served ++
          [⟨x₀, "DataSource", .fresh ["DataSource"], ⟨s.calls, "DataSource"⟩, []⟩,
            ⟨x₁, "JuelsPerFeeCoinDataSource", .fresh ["DataSource"],
              ⟨s.calls + 1, "JuelsPerFeeCoinDataSource"⟩, []⟩,
            ⟨x₂, "MedianProvider", provider.server, ⟨s.calls + 2, "MedianProvider"⟩, []⟩,
            ⟨x₃, "ErrorLog", .fresh ["ErrorLog"], ⟨s.calls + 3, "ErrorLog"⟩, []⟩],
        sent := s.sent ++ [⟨x₂, x₀, x₁, x₃⟩] }) := by
  cases provider <;> cases h₄ : s.net (s.calls + 4) <;>
    simp [newMedianFactoryClosure, serveNew, serve, requestFactory, MedianProvider.server,
      Except.map, Nat.add_assoc, h₀, h₁, h₂, h₃, h₄]

theorem newMedianFactoryClosure_request_names_registrations (provider : MedianProvider)
    {s : Broker} (hok : AnswersOk s.net s.calls 4) :
    ∃ req, (newMedianFactoryClosure provider s).2.sent = s.sent ++ [req] ∧
      req.dependencies = ((newMedianFactoryClosure provider s).2.served.drop s.served.length).map
        fun e => (e.name, e.id) := by
  obtain ⟨x₀, h₀⟩ := hok 0 (by omega)
  obtain ⟨x₁, h₁⟩ := hok 1 (by omega)
  obtain ⟨x₂, h₂⟩ := hok 2 (by omega)
  obtain ⟨x₃, h₃⟩ := hok 3 (by omega)
  rw [newMedianFactoryClosure_of_registered provider h₀ h₁ h₂ h₃]
  exact ⟨_, rfl, by simp [NewMedianFactoryRequest.dependencies]⟩

theorem newMedianFactoryClosure_drops_deps (provider : MedianProvider) (s : Broker) :
    (newMedianFactoryClosure provider s).1.2.1 = [] ∧
      (newMedianFactoryClosure provider s).2.released = s.released := by
  rcases h₀ : s.net s.calls with e₀ | x₀
  · simp [newMedianFactoryClosure, serveNew, serve, h₀]
  rcases h₁ : s.net (s.calls + 1) with e₁ | x₁
  · simp [newMedianFactoryClosure, serveNew, serve, h₀, h₁]
  rcases h₂ : s.net (s.calls + 2) with e₂ | x₂
  · cases provider <;> simp [newMedianFactoryClosure, serveNew, serve, Nat.add_assoc, h₀, h₁, h₂]
  rcases h₃ : s.net (s.calls + 3) with e₃ | x₃
  · cases provider <;>
      simp [newMedianFactoryClosure, serveNew, serve, Nat.add_assoc, h₀, h₁, h₂, h₃]
  rw [newMedianFactoryClosure_of_registered provider h₀ h₁ h₂ h₃]
  constructor
  · split <;> rfl
  · rfl

/-- A construction in which every call succeeds: the four registrations stay served, none is
released, and the closure hands none of them back. -/
theorem newMedianFactoryClosure_leaks_registered :
    let s : Broker := ⟨fun _ => .ok 1, 0, [], [], [], [], []⟩
    (newMedianFactoryClosure .other s).1 = (1, [], none) ∧
      (newMedianFactoryClosure .other s).2.served.map Endpoint.res =
        [⟨0, "DataSource"⟩, ⟨1, "JuelsPerFeeCoinDataSource"⟩, ⟨2, "MedianProvider"⟩,
          ⟨3, "ErrorLog"⟩] ∧
      (newMedianFactoryClosure .other s).2.released = [] := by
  decide

end PluginMedianClient

/-! ## Both sides -/

end ChainlinkRelay.Loop
