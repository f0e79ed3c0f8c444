import ChainlinkRelay.MedianFactory

/-!
# Concurrent `NewMedianFactory` calls on one broker

The plugin's gRPC server runs each `NewMedianFactory` request in its own goroutine, and all of
them dial, release and serve through the same broker. Here one call is cut at its broker calls:
`Call.step` runs the code up to and including its next broker call, and a schedule of events
starts calls and steps them in any order. Run alone, the steps of a call are
`pluginMedianServer.NewMedianFactory`. Under every schedule, every connection the plugin opened is
held by a call in flight, released, or owned by a served factory, and no connection is released
twice or held by two calls.
-/

namespace ChainlinkRelay.Loop.pluginMedianServer

variable {Factory : Type} (impl : PluginMedian Factory)

/-- Where a call stands between two of its broker calls: the dependencies still to dial, or its
reply. -/
inductive Stage where
  | dialing (rest : List (String × UInt32))
  | finished (reply : Except Error NewMedianFactoryReply)

structure Call where
  held : List Resource
  stage : Stage

def Call.start (request : NewMedianFactoryRequest) : Call := ⟨[], .dialing request.dependencies⟩

/-- The code of a call up to and including its next broker call. -/
def Call.step (c : Call) : BrokerM Call :=
  match c.stage with
  | .finished _ => pure c
  | .dialing ((name, id) :: rest) => do
    match ← dial id with
    | .error err =>
      closeAll c.held
      pure ⟨[], .finished (.error (.connDial name id err))⟩
    | .ok conn => pure ⟨c.held ++ [⟨conn, name⟩], .dialing rest⟩
  | .dialing [] =>
    match c.held with
    | [ds, juels, provider, errorLog] => do
      let reply ← serveFactory impl ds juels provider errorLog
      pure ⟨[], .finished reply⟩
    | _ => pure ⟨c.held, .finished (.error (.msg "unreachable"))⟩

def Call.run : Nat → Call → BrokerM Call
  | 0, c => pure c
  | n + 1, c => do Call.run n (← c.step impl)

/-! ## One call alone -/

private theorem run_finished (n : Nat) (held : List Resource) (reply : Except Error NewMedianFactoryReply) :
    Call.run impl n ⟨held, .finished reply⟩ = pure ⟨held, .finished reply⟩ := by
  induction n with
  | zero => rfl
  | succ n ih => funext s; simp [Call.run, Call.step, ih]

private theorem run_dialing (rest : List (String × UInt32)) (held : List Resource) (s : Broker) :
    Call.run impl (rest.length + 1) ⟨held, .dialing rest⟩ s =
      match dialAll rest held s with
      | (.error err, s') => (⟨[], .finished (.error err)⟩, s')
      | (.ok held', s') => Call.step impl ⟨held', .dialing []⟩ s' := by
  induction rest generalizing held s with
  | nil => simp [Call.run, dialAll]
  | cons d rest ih =>
    obtain ⟨name, id⟩ := d
    rcases h : s.net s.calls with err | x
    · simp [Call.run, Call.step, dialAll, dial_error h, run_finished]
    · simp only [Call.run, Call.step, dialAll, bind_apply, dial_ok h, pure_apply]
      exact ih _ _

/-- Run alone, the five steps of a call are `NewMedianFactory`: the same reply and the same
broker. -/
theorem run_start (request : NewMedianFactoryRequest) (s : Broker) :
    (Call.run impl 5 (Call.start request) s).1.stage = .finished (newMedianFactory impl request s).1 ∧
      (Call.run impl 5 (Call.start request) s).2 = (newMedianFactory impl request s).2 := by
  rw [newMedianFactory_eq_spec, Call.start, show 5 = request.dependencies.length + 1 from rfl,
    run_dialing]
  simp only [newMedianFactorySpec, bind_apply]
  rcases dialAll request.dependencies [] s with ⟨err | held, s'⟩
  · exact ⟨rfl, rfl⟩
  · match held with
    | [ds, juels, provider, errorLog] => exact ⟨rfl, rfl⟩
    | [] | [_] | [_, _] | [_, _, _] | _ :: _ :: _ :: _ :: _ :: _ => exact ⟨rfl, rfl⟩

/-! ## What one step does -/

def Call.WellFormed (c : Call) : Prop :=
  match c.stage with
  | .dialing rest => c.held.length + rest.length = 4
  | .finished _ => c.held = []

theorem start_wellFormed (request : NewMedianFactoryRequest) : (Call.start request).WellFormed :=
  rfl

/-- What one step of a well-formed call can do: dial and keep a new connection, release all it
holds, hand all it holds to a factory it serves, or nothing, once finished. -/
theorem step_cases {c c' : Call} {s s' : Broker} (hc : c.WellFormed)
    (h : c.step impl s = (c', s')) :
    (∃ name, s'.opened = s.opened ++ [s.calls] ∧ s'.calls = s.calls + 1 ∧
      s'.released = s.released ∧ s'.served = s.served ∧ c'.held = c.held ++ [⟨s.calls, name⟩] ∧
      c'.WellFormed) ∨
    (s'.opened = s.opened ∧ s.calls ≤ s'.calls ∧ s'.released = s.released ++ c.held ∧
      s'.served = s.served ∧ c'.held = [] ∧ c'.WellFormed) ∨
    (s'.opened = s.opened ∧ s.calls ≤ s'.calls ∧ s'.released = s.released ∧
      (∃ e, s'.served = s.served ++ [e] ∧ e.deps = c.held) ∧ c'.held = [] ∧ c'.WellFormed) ∨
    (s' = s ∧ c' = c) := by
  obtain ⟨held, stage⟩ := c
  cases stage with
  | finished reply =>
    cases h
    exact .inr (.inr (.inr ⟨rfl, rfl⟩))
  | dialing rest =>
    cases rest with
    | cons d rest =>
      obtain ⟨name, id⟩ := d
      rcases hn : s.net s.calls with err | x
      · simp only [Call.step, bind_apply, dial_error hn, closeAll_apply, pure_apply,
          Prod.mk.injEq] at h
        obtain ⟨rfl, rfl⟩ := h
        exact .inr (.inl ⟨rfl, Nat.le_succ _, rfl, rfl, rfl, rfl⟩)
      · simp only [Call.step, bind_apply, dial_ok hn, pure_apply, Prod.mk.injEq] at h
        obtain ⟨rfl, rfl⟩ := h
        refine .inl ⟨name, rfl, rfl, rfl, rfl, rfl, ?_⟩
        simp only [Call.WellFormed, List.length_append, List.length_singleton, List.length_cons,
          List.length_nil] at hc ⊢
        omega
    | nil =>
      match held, hc with
      | [ds, juels, provider, errorLog], _ =>
        simp only [Call.step, bind_apply, pure_apply, Prod.mk.injEq] at h
        obtain ⟨rfl, rfl⟩ := h
        rcases himpl : impl provider.handle ds.handle juels.handle errorLog.handle with err | f
        · rw [serveFactory_of_impl_error himpl]
          exact .inr (.inl ⟨rfl, le_rfl, rfl, rfl, rfl, rfl⟩)
        · rw [serveFactory_of_impl_ok himpl]
          rcases hs : s.net s.calls with err | x
          · rw [serveNew, serve_error hs]
            exact .inr (.inl ⟨rfl, Nat.le_succ _, rfl, rfl, rfl, rfl⟩)
          · rw [serveNew, serve_ok hs]
            exact .inr (.inr (.inl ⟨rfl, Nat.le_succ _, rfl, ⟨_, rfl, rfl⟩, rfl, rfl⟩))

/-! ## Calls in flight -/

/-- What happens next on the plugin's broker: a request starts a call, or the `i`-th call started
takes its next step. -/
inductive Event where
  | start (request : NewMedianFactoryRequest)
  | step (i : Nat)

def Event.apply (sys : Broker × List Call) : Event → Broker × List Call
  | .start request => (sys.1, sys.2 ++ [Call.start request])
  | .step i =>
    match sys.2[i]? with
    | none => sys
    | some c => ((c.step impl sys.1).2, sys.2.set i (c.step impl sys.1).1)

def runEvents (sys : Broker × List Call) : List Event → Broker × List Call
  | [] => sys
  | e :: es => runEvents (Event.apply impl sys e) es

def heldHandles (inFlight : List Call) : List Nat :=
  inFlight.flatMap fun c => c.held.map Resource.handle

def releasedHandles (s : Broker) : List Nat := s.released.map Resource.handle

def ownedHandles (s : Broker) : List Nat := s.served.flatMap fun e => e.deps.map Resource.handle

/-- The plugin's bookkeeping: handles are issued below the call counter, every opened connection
is held, released or owned, and no handle is held or released twice. -/
structure Sound (s : Broker) (inFlight : List Call) : Prop where
  opened_lt : ∀ h ∈ s.opened, h < s.calls
  nodup : (heldHandles inFlight ++ releasedHandles s).Nodup
  accounted : ∀ h, h ∈ s.opened ↔ h ∈ heldHandles inFlight ++ releasedHandles s ++ ownedHandles s
  wellFormed : ∀ c ∈ inFlight, c.WellFormed

theorem sound_empty (net : Nat → Except Error UInt32) : Sound ⟨net, 0, [], [], [], [], []⟩ [] :=
  ⟨by simp, by simp [heldHandles, releasedHandles],
    by simp [heldHandles, releasedHandles, ownedHandles], by simp⟩

private theorem getElem?_split {l : List Call} {i : Nat} {c : Call} (h : l[i]? = some c)
    (c' : Call) : ∃ pre post, l = pre ++ c :: post ∧ l.set i c' = pre ++ c' :: post := by
  induction l generalizing i with
  | nil => simp at h
  | cons x l ih =>
    cases i with
    | zero =>
      simp only [List.getElem?_cons_zero, Option.some.injEq] at h
      exact ⟨[], l, by simp [h], by simp⟩
    | succ i =>
      obtain ⟨pre, post, h₁, h₂⟩ := ih (by simpa using h)
      exact ⟨x :: pre, post, by simp [h₁], by simp [h₂]⟩

private theorem heldHandles_split (pre post : List Call) (c : Call) :
    heldHandles (pre ++ c :: post) =
      heldHandles pre ++ c.held.map Resource.handle ++ heldHandles post := by
  simp [heldHandles]

section Preservation

variable {pre post : List Call} {c c' : Call} {s s' : Broker}

private theorem wellFormed_split (hw : ∀ x ∈ pre ++ c :: post, x.WellFormed)
    (hc' : c'.WellFormed) : ∀ x ∈ pre ++ c' :: post, x.WellFormed := by
  simp only [List.mem_append, List.mem_cons] at hw ⊢
  rintro x (hx | rfl | hx)
  exacts [hw x (.inl hx), hc', hw x (.inr (.inr hx))]

private theorem sound_step (hs : Sound s (pre ++ c :: post)) (h : c.step impl s = (c', s')) :
    Sound s' (pre ++ c' :: post) := by
  have hc := hs.wellFormed c (by simp)
  have hnd := hs.nodup
  have hacc := hs.accounted
  simp only [heldHandles_split] at hnd hacc
  rcases step_cases impl hc h with
    ⟨name, ho, hcalls, hr, hsv, hheld, hw⟩ | ⟨ho, hcalls, hr, hsv, hheld, hw⟩ |
      ⟨ho, hcalls, hr, ⟨e, hsv, hdeps⟩, hheld, hw⟩ | ⟨rfl, rfl⟩
  · -- a new connection, at a handle no one holds or released
    have hfresh : s.calls ∉ heldHandles pre ++ c.held.map Resource.handle ++ heldHandles post ++
        releasedHandles s := fun hmem => by
      have := hs.opened_lt _ ((hacc _).mpr (List.mem_append_left _ hmem))
      omega
    have hperm : ∀ o, List.Perm (heldHandles pre ++ c'.held.map Resource.handle ++
        heldHandles post ++ releasedHandles s' ++ o) (s.calls :: (heldHandles pre ++
          c.held.map Resource.handle ++ heldHandles post ++ releasedHandles s ++ o)) :=
      fun o => List.perm_iff_count.mpr fun a => by
        simp only [hheld, releasedHandles, hr, List.map_append, List.map_singleton,
          List.count_append, List.count_cons, List.count_nil]
        omega
    refine ⟨fun x hx => ?_, ?_, fun x => ?_, wellFormed_split hs.wellFormed hw⟩
    · rw [ho, List.mem_append, List.mem_singleton] at hx
      rcases hx with hx | rfl
      · have := hs.opened_lt x hx; omega
      · omega
    · have hp := hperm []
      rw [List.append_nil, List.append_nil] at hp
      rw [heldHandles_split]
      exact hp.nodup_iff.mpr (List.nodup_cons.mpr ⟨hfresh, hnd⟩)
    · rw [heldHandles_split, (hperm _).mem_iff, ho, ownedHandles, hsv, List.mem_append,
        List.mem_singleton, List.mem_cons, hacc, or_comm]
      rfl
  · -- everything the call held is released
    have hperm : ∀ o, List.Perm (heldHandles pre ++ c'.held.map Resource.handle ++
        heldHandles post ++ releasedHandles s' ++ o) (heldHandles pre ++
          c.held.map Resource.handle ++ heldHandles post ++ releasedHandles s ++ o) :=
      fun o => List.perm_iff_count.mpr fun a => by
        simp only [hheld, releasedHandles, hr, List.map_append, List.map_nil, List.count_append,
          List.count_nil]
        omega
    refine ⟨fun x hx => ?_, ?_, fun x => ?_, wellFormed_split hs.wellFormed hw⟩
    · rw [ho] at hx; have := hs.opened_lt x hx; omega
    · have hp := hperm []
      rw [List.append_nil, List.append_nil] at hp
      rw [heldHandles_split]
      exact hp.nodup_iff.mpr hnd
    · rw [heldHandles_split, (hperm _).mem_iff, ho, ownedHandles, hsv, hacc]
      rfl
  · -- everything the call held goes to the factory it served
    have hperm : List.Perm (heldHandles pre ++ c'.held.map Resource.handle ++ heldHandles post ++
        releasedHandles s' ++ ownedHandles s') (heldHandles pre ++ c.held.map Resource.handle ++
          heldHandles post ++ releasedHandles s ++ ownedHandles s) :=
      List.perm_iff_count.mpr fun a => by
        simp only [hheld, releasedHandles, ownedHandles, hr, hsv, hdeps, List.map_nil,
          List.flatMap_append, List.flatMap_singleton, List.count_append, List.count_nil]
        omega
    refine ⟨fun x hx => ?_, ?_, fun x => ?_, wellFormed_split hs.wellFormed hw⟩
    · rw [ho] at hx; have := hs.opened_lt x hx; omega
    · rw [heldHandles_split]
      refine hnd.sublist ?_
      simp only [hheld, releasedHandles, hr, List.map_nil, List.append_nil, List.append_assoc]
      exact (List.sublist_append_right _ _).append_left _
    · rw [heldHandles_split, hperm.mem_iff, ho, hacc]
  · exact hs

end Preservation

theorem sound_apply {sys : Broker × List Call} (hs : Sound sys.1 sys.2) (e : Event) :
    Sound (Event.apply impl sys e).1 (Event.apply impl sys e).2 := by
  cases e with
  | start request =>
    refine ⟨hs.opened_lt, ?_, fun x => ?_, ?_⟩
    · simpa [Event.apply, heldHandles, Call.start] using hs.nodup
    · simpa [Event.apply, heldHandles, Call.start] using hs.accounted x
    · simp only [Event.apply, List.mem_append, List.mem_singleton]
      rintro c (hc | rfl)
      exacts [hs.wellFormed c hc, start_wellFormed request]
  | step i =>
    simp only [Event.apply]
    split
    · exact hs
    · next c hc =>
      obtain ⟨pre, post, hsplit, hset⟩ := getElem?_split hc (c.step impl sys.1).1
      rw [hset]
      rw [hsplit] at hs
      exact sound_step impl hs rfl

theorem sound_runEvents {sys : Broker × List Call} (hs : Sound sys.1 sys.2) (es : List Event) :
    Sound (runEvents impl sys es).1 (runEvents impl sys es).2 := by
  induction es generalizing sys with
  | nil => exact hs
  | cons e es ih => exact ih (sound_apply impl hs e)

/-- Run alone, the five steps of a call are `NewMedianFactory`. Whatever the schedule of requests
and steps, and whatever the broker answers, from a broker that has done nothing: no connection is
held by two calls, released twice, or held once released; only opened connections are released;
every opened connection is held by a call in flight, released, or owned by a served factory; and a
finished call holds none. -/
theorem concurrent_calls_account_for_connections (net : Nat → Except Error UInt32)
    (events : List Event) :
    (∀ request s, (Call.run impl 5 (Call.start request) s).1.stage =
        .finished (newMedianFactory impl request s).1 ∧
      (Call.run impl 5 (Call.start request) s).2 = (newMedianFactory impl request s).2) ∧
    let sys := runEvents impl (⟨net, 0, [], [], [], [], []⟩, []) events
    (heldHandles sys.2 ++ releasedHandles sys.1).Nodup ∧
      (∀ h ∈ releasedHandles sys.1, h ∈ sys.1.opened) ∧
      (∀ h ∈ sys.1.opened,
        h ∈ heldHandles sys.2 ∨ h ∈ releasedHandles sys.1 ∨ h ∈ ownedHandles sys.1) ∧
      ∀ c ∈ sys.2, ∀ reply, c.stage = .finished reply → c.held = [] := by
  refine ⟨run_start impl, ?_⟩
  intro sys
  have hs : Sound sys.1 sys.2 := sound_runEvents impl (sound_empty net) events
  refine ⟨hs.nodup, fun h hh => (hs.accounted h).mpr (by simp [hh]), fun h hh => ?_,
    fun c hc reply hr => ?_⟩
  · simpa [or_assoc] using (hs.accounted h).mp hh
  · have := hs.wellFormed c hc
    rwa [Call.WellFormed, hr] at this

end ChainlinkRelay.Loop.pluginMedianServer
