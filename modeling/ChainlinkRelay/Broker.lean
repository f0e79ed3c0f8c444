import Mathlib.Data.List.Basic

/-!
# Broker resources

The broker extension `brokerExt` lets one side of the plugin connection serve sub-services under
fresh IDs and dial the IDs the other side served. Its code (`broker.go`) is not among the
repository's files: `dial`, `serve`, `serveNew` and `closeAll` below follow the contract the
spec gives for them. The other side and the transport are an oracle `net`: the `n`-th call this
process makes through the broker gets `net n`, an error or a service ID.
-/

namespace ChainlinkRelay.Loop

/-- The errors of the loop package: plain errors, and `ErrConnDial`, which names the dependency
and the ID whose dial failed. -/
inductive Error where
  | msg (text : String)
  | connDial (name : String) (id : UInt32) (err : Error)
  deriving DecidableEq, Repr

structure Resource where
  handle : Nat
  name : String
  deriving DecidableEq, Repr

inductive Server where
  | fresh (services : List String)
  | proxy (conn : Nat)
  deriving DecidableEq, Repr

/-- A registration the other side accepted: the ID it can dial, the listener, and the dependent
resources released together with it. -/
structure Endpoint where
  id : UInt32
  name : String
  server : Server
  res : Resource
  deps : List Resource
  deriving DecidableEq, Repr

structure NewMedianFactoryRequest where
  medianProviderID : UInt32
  dataSourceID : UInt32
  juelsPerFeeCoinDataSourceID : UInt32
  errorLogID : UInt32
  deriving DecidableEq, Repr

/-- The broker as one process sees it: the IDs it dialed, the connections those dials opened, the
endpoints it registered, the resources it released and the factory requests it sent. Handles are
the call numbers that produced them, so no two resources share one. -/
structure Broker where
  net : Nat → Except Error UInt32
  calls : Nat
  dialed : List UInt32
  opened : List Nat
  served : List Endpoint
  released : List Resource
  sent : List NewMedianFactoryRequest

abbrev BrokerM := StateM Broker

/-- Modelled from the spec: `dial(id)` resolves an ID the other side served to a new connection,
or fails with the transport's cause. -/
def dial (id : UInt32) : BrokerM (Except Error Nat) := fun s =>
  let s' := { s with calls := s.calls + 1, dialed := s.dialed ++ [id] }
  match s.net s.calls with
  | .error err => (.error err, s')
  | .ok _ => (.ok s.calls, { s' with opened := s.opened ++ [s.calls] })

/-- Modelled from the spec: `closeAll(resources...)` releases each resource, in the order given,
and goes on past a failed close. -/
def closeAll (rs : List Resource) : BrokerM Unit := fun s =>
  ((), { s with released := s.released ++ rs })

/-- Modelled from the spec: `serve(name, server, deps...)` registers `server` under a new ID,
recording the dependent resources to release with it; when the other side refuses, nothing is
registered and the dependents are released at once. -/
def serve (name : String) (server : Server) (deps : List Resource) :
    BrokerM (Except Error (UInt32 × Resource)) := fun s =>
  match s.net s.calls with
  | .error err => (.error err, { s with calls := s.calls + 1, released := s.released ++ deps })
  | .ok id =>
    let res : Resource := ⟨s.calls, name⟩
    (.ok (id, res), { s with
      calls := s.calls + 1, served := s.served ++ [⟨id, name, server, res, deps⟩] })

/-- Modelled from the spec: `serveNew(name, register, deps...)` serves a fresh server on which
`register` registered `services`. -/
def serveNew (name : String) (services : List String) (deps : List Resource) :
    BrokerM (Except Error (UInt32 × Resource)) :=
  serve name (.fresh services) deps

/-! ## Steps -/

@[simp] theorem bind_apply {α β : Type} (x : BrokerM α) (f : α → BrokerM β) (s : Broker) :
    (x >>= f) s = f (x s).1 (x s).2 := rfl

@[simp] theorem pure_apply {α : Type} (a : α) (s : Broker) : (pure a : BrokerM α) s = (a, s) := rfl

@[simp] theorem map_apply {α β : Type} (f : α → β) (x : BrokerM α) (s : Broker) :
    (f <$> x) s = (f (x s).1, (x s).2) := rfl

section Steps

variable {s : Broker}

theorem dial_error {id : UInt32} {err : Error} (h : s.net s.calls = .error err) :
    dial id s = (.error err, { s with calls := s.calls + 1, dialed := s.dialed ++ [id] }) := by
  simp [dial, h]

theorem dial_ok {id x : UInt32} (h : s.net s.calls = .ok x) :
    dial id s = (.ok s.calls, { s with
      calls := s.calls + 1, dialed := s.dialed ++ [id], opened := s.opened ++ [s.calls] }) := by
  simp [dial, h]

@[simp] theorem closeAll_apply (rs : List Resource) :
    closeAll rs s = ((), { s with released := s.released ++ rs }) := rfl

theorem serve_error {name : String} {server : Server} {deps : List Resource} {err : Error}
    (h : s.net s.calls = .error err) :
    serve name server deps s =
      (.error err, { s with calls := s.calls + 1, released := s.released ++ deps }) := by
  simp [serve, h]

theorem serve_ok {name : String} {server : Server} {deps : List Resource} {id : UInt32}
    (h : s.net s.calls = .ok id) :
    serve name server deps s = (.ok (id, ⟨s.calls, name⟩), { s with
      calls := s.calls + 1, served := s.served ++ [⟨id, name, server, ⟨s.calls, name⟩, deps⟩] }) := by
  simp [serve, h]

end Steps

end ChainlinkRelay.Loop
