import ChainlinkRelay.HcLog
import ChainlinkRelay.OnceValue

/-!
# The hclog sink adapter under concurrent `Accept` calls

go-plugin's hclog logger calls its sinks' `Accept` from whichever goroutine logs, so
`hclSinkAdapter.named` runs concurrently. Each call builds its own `onceValue` for
`logger.Named(h.l, name)`; `LoadOrStore` keeps the first one stored for the name, and every call
then calls the stored one. Here an `Accept` call is a goroutine that builds its `onceValue` (one
step), runs `LoadOrStore` (one atomic step), calls the function it got through `onceValue`'s steps
(`OnceValue.Phase.step`), and makes its logging call (one step); a schedule starts calls and
steps them in any order (`runSink`).

Under every schedule, `logger.Named(h.l, name)` is built at most once for each name, by the
`onceValue` the map holds for it (`concurrent_accept_names_once`). No `Accept` panics, and the
logging calls made are, up to order, those the uncached adapter makes for the `Accept` calls that
have returned; once every call has returned they are those of the sequential adapter
(`concurrent_accept_transparent`). No schedule deadlocks: from every state a schedule reaches,
steps alone bring every call begun to its return (`concurrent_accept_calls_complete`).
-/

namespace ChainlinkRelay.Loop

/-- The `hclSinkAdapter` the `Accept` calls share: the wrapped logger, the `sync.Map` from hclog
names to the `onceValue` stored for them (by its number), every `onceValue` that `named` built with
the name its function closes over, and the logging calls made. `logger.Named` on a `*logger` does
not panic, so the functions have no panic value. -/
structure SharedSink where
  l : Logger
  m : String → Option Nat
  cells : List (String × OnceValue Empty Logger)
  calls : List SugaredCall

def SharedSink.init (l : Logger) : SharedSink := ⟨l, fun _ => none, [], []⟩

/-- Where an `Accept` call stands: at `named`'s `onceValue(...)` (`start`), holding the
`onceValue` it built, number `c`, at `LoadOrStore` (`built c`), in the call of the function of the
`onceValue` number `c` that `LoadOrStore` returned (`calling c ph`), or returned. -/
inductive AcceptPhase where
  | start
  | built (c : Nat)
  | calling (c : Nat) (ph : OnceValue.Phase Empty Logger)
  | done

structure AcceptCall where
  msg : HcMessage
  phase : AcceptPhase

/-- One atomic step of the `i`-th call. Once the function returned `l`, the step is `Accept`'s
`switch`, which makes the logging call of the message's level on `l`. -/
def AcceptCall.step (i : Nat) (a : AcceptCall) (s : SharedSink) : AcceptCall × SharedSink :=
  match a.phase with
  | .start =>
    (⟨a.msg, .built s.cells.length⟩, { s with cells := s.cells ++ [(a.msg.name, OnceValue.init)] })
  | .built c =>
    match s.m a.msg.name with
    | some c' => (⟨a.msg, .calling c' .enter⟩, s)
    | none =>
      (⟨a.msg, .calling c .enter⟩, { s with m := fun n => if n = a.msg.name then some c else s.m n })
  | .calling _ (.returned l) =>
    (⟨a.msg, .done⟩, { s with calls := s.calls ++
      ((HclSinkAdapter.callAt a.msg.level).map fun call => l.log call a.msg.msg a.msg.args).toList })
  | .calling c ph =>
    match s.cells[c]? with
    | none => (a, s)
    | some (name, o) =>
      (⟨a.msg, .calling c (ph.step (.ok (Logger.named s.l name)) i o).1⟩,
        { s with cells := s.cells.set c (name, (ph.step (.ok (Logger.named s.l name)) i o).2) })
  | .done => (a, s)

/-- What happens next: hclog hands the sink one more message, or the `i`-th call takes a step. -/
inductive SinkEvent where
  | accept (x : HcMessage)
  | step (i : Nat)

def SinkEvent.apply (sys : SharedSink × List AcceptCall) : SinkEvent → SharedSink × List AcceptCall
  | .accept x => (sys.1, sys.2 ++ [⟨x, .start⟩])
  | .step i =>
    match sys.2[i]? with
    | none => sys
    | some a => ((a.step i sys.1).2, sys.2.set i (a.step i sys.1).1)

def runSink (sys : SharedSink × List AcceptCall) : List SinkEvent → SharedSink × List AcceptCall
  | [] => sys
  | e :: es => runSink (SinkEvent.apply sys e) es

/-! ## What one step does -/

/-- What one step of a call does: build a `onceValue`, load the stored one, store its own, make
its logging call, take a step of `onceValue`'s function, or nothing. -/
theorem AcceptCall.step_cases {i : Nat} {a a' : AcceptCall} {s s' : SharedSink}
    (h : a.step i s = (a', s')) : a'.msg = a.msg ∧ (
    (a.phase = .start ∧ a'.phase = .built s.cells.length ∧
      s' = { s with cells := s.cells ++ [(a.msg.name, OnceValue.init)] }) ∨
    (∃ c c', a.phase = .built c ∧ s.m a.msg.name = some c' ∧ a'.phase = .calling c' .enter ∧
      s' = s) ∨
    (∃ c, a.phase = .built c ∧ s.m a.msg.name = none ∧ a'.phase = .calling c .enter ∧
      s' = { s with m := fun n => if n = a.msg.name then some c else s.m n }) ∨
    (∃ c l, a.phase = .calling c (.returned l) ∧ a'.phase = .done ∧
      s' = { s with calls := s.calls ++ ((HclSinkAdapter.callAt a.msg.level).map
        fun call => l.log call a.msg.msg a.msg.args).toList }) ∨
    (∃ c ph name o, a.phase = .calling c ph ∧ (∀ l, ph ≠ .returned l) ∧
      s.cells[c]? = some (name, o) ∧
      a'.phase = .calling c (ph.step (.ok (Logger.named s.l name)) i o).1 ∧
      s' = { s with cells := s.cells.set c (name, (ph.step (.ok (Logger.named s.l name)) i o).2) }) ∨
    ((a.phase = .done ∨ ∃ c ph, a.phase = .calling c ph ∧ s.cells[c]? = none) ∧ a' = a ∧ s' = s))
    := by
  obtain ⟨msg, phase⟩ := a
  cases phase with
  | start => cases h; exact ⟨rfl, .inl ⟨rfl, rfl, rfl⟩⟩
  | built c =>
    cases hm : s.m msg.name with
    | none =>
      simp only [AcceptCall.step, hm, Prod.mk.injEq] at h
      obtain ⟨rfl, rfl⟩ := h
      exact ⟨rfl, .inr (.inr (.inl ⟨c, rfl, rfl, rfl, rfl⟩))⟩
    | some c' =>
      simp only [AcceptCall.step, hm, Prod.mk.injEq] at h
      obtain ⟨rfl, rfl⟩ := h
      exact ⟨rfl, .inr (.inl ⟨c, c', rfl, rfl, rfl, rfl⟩)⟩
  | calling c ph =>
    cases ph
    case returned l =>
      cases h
      exact ⟨rfl, .inr (.inr (.inr (.inl ⟨c, l, rfl, rfl, rfl⟩)))⟩
    all_goals
      cases hc : s.cells[c]? with
      | none =>
        simp only [AcceptCall.step, hc, Prod.mk.injEq] at h
        obtain ⟨rfl, rfl⟩ := h
        exact ⟨rfl, .inr (.inr (.inr (.inr (.inr ⟨.inr ⟨c, _, rfl, hc⟩, rfl, rfl⟩))))⟩
      | some cell =>
        obtain ⟨name, o⟩ := cell
        simp only [AcceptCall.step, hc, Prod.mk.injEq] at h
        obtain ⟨rfl, rfl⟩ := h
        exact ⟨rfl, .inr (.inr (.inr (.inr (.inl ⟨c, _, name, o, rfl, by simp, hc, rfl, rfl⟩))))⟩
  | done => cases h; exact ⟨rfl, .inr (.inr (.inr (.inr (.inr ⟨.inl rfl, rfl, rfl⟩))))⟩

/-! ## The invariant -/

def AcceptPhase.callOf (c : Nat) : AcceptPhase → Option (OnceValue.Phase Empty Logger)
  | .calling c' ph => if c' = c then some ph else none
  | _ => none

def callsOf (gs : List AcceptCall) (c i : Nat) : Option (OnceValue.Phase Empty Logger) :=
  gs[i]?.bind fun a => a.phase.callOf c

@[simp] theorem AcceptPhase.callOf_eq_some {p : AcceptPhase} {c : Nat}
    {ph : OnceValue.Phase Empty Logger} : p.callOf c = some ph ↔ p = .calling c ph := by
  cases p <;> simp [AcceptPhase.callOf, and_comm, eq_comm]

/-- What the uncached adapter writes for a call's message, once the call has returned. -/
def AcceptCall.expected (l : Logger) (a : AcceptCall) : Option SugaredCall :=
  match a.phase with
  | .done => HclSinkAdapter.expected l a.msg
  | _ => none

/-- The adapter's bookkeeping under concurrent calls: the map holds, for a name, a `onceValue`
built for that name; a `onceValue` it does not hold is as `onceValue` built it; each `onceValue`
and the calls of its function keep `onceValue`'s invariant; a goroutine calls the function the map
holds for its name, and its own `onceValue` is built for its name; and the logging calls made are
those of the `Accept` calls that have returned. -/
structure SinkSound (s : SharedSink) (gs : List AcceptCall) : Prop where
  stored : ∀ n c, s.m n = some c → ∃ o, s.cells[c]? = some (n, o)
  idle : ∀ c n o, s.cells[c]? = some (n, o) → s.m n ≠ some c → o = OnceValue.init
  cell : ∀ c n o, s.cells[c]? = some (n, o) →
    OnceValue.Sound (.ok (Logger.named s.l n)) o (callsOf gs c)
  calling : ∀ (i : Nat) (a : AcceptCall) c ph, gs[i]? = some a → a.phase = .calling c ph →
    s.m a.msg.name = some c
  built : ∀ (i : Nat) (a : AcceptCall) c, gs[i]? = some a → a.phase = .built c →
    ∃ o, s.cells[c]? = some (a.msg.name, o)
  made : List.Perm s.calls (gs.filterMap (AcceptCall.expected s.l))

theorem sinkSound_init (l : Logger) : SinkSound (SharedSink.init l) [] :=
  ⟨by simp [SharedSink.init], by simp [SharedSink.init], by simp [SharedSink.init], by simp,
    by simp, by simp [SharedSink.init]⟩

section Lists

variable {α β : Type} {l : List α} {i j : Nat} {a b x : α}

private theorem getElem?_set_cases (ha : l[i]? = some a) (h : (l.set i b)[j]? = some x) :
    (j = i ∧ x = b) ∨ (j ≠ i ∧ l[j]? = some x) := by
  rcases eq_or_ne i j with rfl | hij
  · simp [(List.getElem?_eq_some_iff.mp ha).1] at h
    exact .inl ⟨rfl, h.symm⟩
  · rw [List.getElem?_set_ne hij] at h
    exact .inr ⟨Ne.symm hij, h⟩

private theorem getElem?_concat_cases (h : (l ++ [b])[j]? = some x) :
    l[j]? = some x ∨ (j = l.length ∧ x = b) := by
  rcases lt_trichotomy j l.length with hj | rfl | hj
  · exact .inl (by rwa [List.getElem?_append_left hj] at h)
  · simp at h
    exact .inr ⟨rfl, h.symm⟩
  · rw [List.getElem?_eq_none (by simp; omega)] at h
    cases h

private theorem getElem?_set_self (ha : l[i]? = some a) : l.set i a = l :=
  List.ext_getElem? fun j => by
    rcases eq_or_ne i j with rfl | hij
    · simp [(List.getElem?_eq_some_iff.mp ha).1, ha]
    · rw [List.getElem?_set_ne hij]

private theorem filterMap_set_perm (f : α → Option β) :
    ∀ {l : List α} {i : Nat} {a : α}, l[i]? = some a → f a = none → ∀ b,
      List.Perm ((l.set i b).filterMap f) (l.filterMap f ++ (f b).toList)
  | [], _, _, h, _, _ => by simp at h
  | x :: l, 0, a, h, ha, b => by
    simp only [List.getElem?_cons_zero, Option.some.injEq] at h
    subst h
    cases hb : f b with
    | none => simp [ha, hb]
    | some y =>
      simp only [List.set_cons_zero, List.filterMap_cons, ha, hb, Option.toList_some]
      exact @List.perm_append_comm _ [y] _
  | x :: l, i + 1, a, h, ha, b => by
    have ih := filterMap_set_perm f (by simpa using h) ha b
    cases hx : f x with
    | none => simpa [hx] using ih
    | some y => simpa [hx] using ih.cons y

end Lists

variable {s : SharedSink} {gs : List AcceptCall} {i : Nat} {a a' : AcceptCall}

theorem callsOf_set (ha : gs[i]? = some a) (a' : AcceptCall) (c : Nat) :
    callsOf (gs.set i a') c = Function.update (callsOf gs c) i (a'.phase.callOf c) := by
  funext j
  rcases eq_or_ne i j with rfl | h
  · simp [callsOf, (List.getElem?_eq_some_iff.mp ha).1]
  · simp [callsOf, List.getElem?_set_ne h, Function.update_noteq (Ne.symm h)]

theorem callsOf_concat (gs : List AcceptCall) (x : HcMessage) (c : Nat) :
    callsOf (gs ++ [⟨x, .start⟩]) c = callsOf gs c := by
  funext j
  rcases lt_trichotomy j gs.length with h | rfl | h
  · simp [callsOf, List.getElem?_append_left h]
  · simp [callsOf, AcceptPhase.callOf]
  · simp [callsOf, List.getElem?_eq_none h.le, List.getElem?_eq_none (show (gs ++ [_]).length ≤ j by
      simp; omega)]

private theorem cell_update (hs : SinkSound s gs) (ha : gs[i]? = some a)
    (hnl : ∀ c, a.phase.callOf c ≠ some .locked)
    (hv : ∀ c ph, a'.phase.callOf c = some ph → ph = .enter) {c : Nat} {n : String}
    {o : OnceValue Empty Logger} (hc : s.cells[c]? = some (n, o)) :
    OnceValue.Sound (.ok (Logger.named s.l n)) o (callsOf (gs.set i a') c) := by
  rw [callsOf_set ha]
  refine (hs.cell c n o hc).update (by simpa [callsOf, ha] using hnl c) ?_ ?_ ?_
  · intro h
    cases hv c _ h
  · intro ph h hp
    cases hv c ph h
    cases hp
  · intro ph h e he
    cases hv c ph h
    cases he

private theorem calls_set (hs : SinkSound s gs) (ha : gs[i]? = some a)
    (he : a.expected s.l = none) (he' : a'.expected s.l = none) {s' : SharedSink}
    (hw : s'.calls = s.calls) (hl : s'.l = s.l) :
    List.Perm s'.calls ((gs.set i a').filterMap (AcceptCall.expected s'.l)) := by
  rw [hw, hl]
  exact hs.made.trans (by simpa [he'] using (filterMap_set_perm _ ha he a').symm)

private theorem SinkSound.calling_set (hs : SinkSound s gs) (ha : gs[i]? = some a)
    {m : String → Option Nat} (hm : ∀ n c, s.m n = some c → m n = some c)
    (ha' : ∀ c ph, a'.phase = .calling c ph → m a'.msg.name = some c) :
    ∀ (j : Nat) (b : AcceptCall) c ph, (gs.set i a')[j]? = some b → b.phase = .calling c ph →
      m b.msg.name = some c := fun j b c ph hj hb => by
  rcases getElem?_set_cases ha hj with ⟨-, rfl⟩ | ⟨-, hj⟩
  exacts [ha' c ph hb, hm _ _ (hs.calling j b c ph hj hb)]

private theorem SinkSound.built_set (hs : SinkSound s gs) (ha : gs[i]? = some a)
    {cells : List (String × OnceValue Empty Logger)}
    (hc : ∀ (c : Nat) (n : String) (o : OnceValue Empty Logger), s.cells[c]? = some (n, o) →
      ∃ o', cells[c]? = some (n, o'))
    (ha' : ∀ c, a'.phase = .built c → ∃ o, cells[c]? = some (a'.msg.name, o)) :
    ∀ (j : Nat) (b : AcceptCall) c, (gs.set i a')[j]? = some b → b.phase = .built c →
      ∃ o, cells[c]? = some (b.msg.name, o) := fun j b c hj hb => by
  rcases getElem?_set_cases ha hj with ⟨-, rfl⟩ | ⟨-, hj⟩
  · exact ha' c hb
  · obtain ⟨o, ho⟩ := hs.built j b c hj hb
    exact hc _ _ _ ho

/-! ## One step -/

private theorem SinkSound.start (hs : SinkSound s gs) (ha : gs[i]? = some a)
    (hp : a.phase = .start) (hmsg : a'.msg = a.msg) (hp' : a'.phase = .built s.cells.length) :
    SinkSound { s with cells := s.cells ++ [(a.msg.name, OnceValue.init)] } (gs.set i a') := by
  have hext : ∀ c n o, s.cells[c]? = some (n, o) →
      ∃ o', (s.cells ++ [(a.msg.name, OnceValue.init)])[c]? = some (n, o') := fun c n o h =>
    ⟨o, by rw [List.getElem?_append_left (List.getElem?_eq_some_iff.mp h).1]; exact h⟩
  have hlt : ∀ n c, s.m n = some c → c < s.cells.length := fun n c h => by
    obtain ⟨o, ho⟩ := hs.stored n c h
    exact (List.getElem?_eq_some_iff.mp ho).1
  refine ⟨fun n c h => ?_, fun c n o h hn => ?_, fun c n o h => ?_,
    hs.calling_set ha (fun _ _ => id) (by simp [hp']), hs.built_set ha hext (by simp [hp', hmsg]),
    calls_set hs ha (by simp [AcceptCall.expected, hp]) (by simp [AcceptCall.expected, hp'])
      rfl rfl⟩
  · obtain ⟨o, ho⟩ := hs.stored n c h
    exact hext _ _ _ ho
  · rcases getElem?_concat_cases h with h | ⟨rfl, hx⟩
    · exact hs.idle c n o h hn
    · exact (Prod.mk.inj hx).2
  · rcases getElem?_concat_cases h with h | ⟨rfl, hx⟩
    · exact cell_update hs ha (by simp [hp, AcceptPhase.callOf]) (by simp [hp']) h
    · obtain ⟨rfl, rfl⟩ := Prod.mk.inj hx
      have hnone : callsOf (gs.set i a') s.cells.length = fun _ => none := by
        funext j
        rw [Option.eq_none_iff_forall_not_mem]
        intro ph hph
        simp only [callsOf, Option.mem_def, Option.bind_eq_some, AcceptPhase.callOf_eq_some] at hph
        obtain ⟨b, hj, hb⟩ := hph
        rcases getElem?_set_cases ha hj with ⟨-, rfl⟩ | ⟨-, hj⟩
        · rw [hp'] at hb
          cases hb
        · have := hlt _ _ (hs.calling j b _ ph hj hb)
          omega
      rw [hnone]
      exact OnceValue.sound_init _

private theorem SinkSound.load (hs : SinkSound s gs) (ha : gs[i]? = some a) {c c' : Nat}
    (hp : a.phase = .built c) (hm : s.m a.msg.name = some c') (hmsg : a'.msg = a.msg)
    (hp' : a'.phase = .calling c' .enter) : SinkSound s (gs.set i a') := by
  refine ⟨hs.stored, hs.idle, fun d n o h => cell_update hs ha (by simp [hp, AcceptPhase.callOf])
      (fun d ph h => ?_) h, hs.calling_set ha (fun _ _ => id) (by simp [hp', hmsg, hm]),
    hs.built_set ha (fun c n o h => ⟨o, h⟩) (by simp [hp']),
    calls_set hs ha (by simp [AcceptCall.expected, hp]) (by simp [AcceptCall.expected, hp']) rfl rfl⟩
  rw [hp', AcceptPhase.callOf_eq_some] at h
  cases h
  rfl

private theorem SinkSound.store (hs : SinkSound s gs) (ha : gs[i]? = some a) {c : Nat}
    (hp : a.phase = .built c) (hm : s.m a.msg.name = none) (hmsg : a'.msg = a.msg)
    (hp' : a'.phase = .calling c .enter) :
    SinkSound { s with m := fun n => if n = a.msg.name then some c else s.m n } (gs.set i a') := by
  obtain ⟨o₀, ho₀⟩ := hs.built i a c ha hp
  refine ⟨fun n d h => ?_, fun d n o h hn => ?_, fun d n o h => cell_update hs ha
      (by simp [hp, AcceptPhase.callOf]) (fun d ph h => ?_) h,
    hs.calling_set ha (fun n d h => ?_) (by simp [hp', hmsg]),
    hs.built_set ha (fun c n o h => ⟨o, h⟩) (by simp [hp']),
    calls_set hs ha (by simp [AcceptCall.expected, hp]) (by simp [AcceptCall.expected, hp']) rfl rfl⟩
  · dsimp only at h
    split_ifs at h with hn
    · cases h
      subst hn
      exact ⟨o₀, ho₀⟩
    · exact hs.stored n d h
  · dsimp only at hn
    split_ifs at hn with hn'
    · subst hn'
      exact hs.idle d _ o h (by simp [hm])
    · exact hs.idle d n o h hn
  · rw [hp', AcceptPhase.callOf_eq_some] at h
    cases h
    rfl
  · dsimp only
    rw [if_neg (by rintro rfl; simp [hm] at h)]
    exact h

private theorem SinkSound.logCall (hs : SinkSound s gs) (ha : gs[i]? = some a) {c : Nat}
    {l : Logger} (hp : a.phase = .calling c (.returned l)) (hmsg : a'.msg = a.msg)
    (hp' : a'.phase = .done) :
    SinkSound { s with calls := s.calls ++ ((HclSinkAdapter.callAt a.msg.level).map
      fun call => l.log call a.msg.msg a.msg.args).toList } (gs.set i a') := by
  obtain ⟨o, ho⟩ := hs.stored _ _ (hs.calling i a c _ ha hp)
  have hl : l = Logger.named s.l a.msg.name := by
    have := (hs.cell c _ o ho).ended i (.returned l) (by simp [callsOf, ha, hp, AcceptPhase.callOf])
      (.ok l) rfl
    simpa [Except.mapError] using this
  refine ⟨hs.stored, hs.idle, fun d n o h => ?_, hs.calling_set ha (fun _ _ => id) (by simp [hp']),
    hs.built_set ha (fun c n o h => ⟨o, h⟩) (by simp [hp']), ?_⟩
  · rw [callsOf_set ha, show a'.phase.callOf d = none by simp [hp', AcceptPhase.callOf]]
    refine (hs.cell d n o h).update ?_ (by simp) (by simp) (by simp)
    simp only [callsOf, ha, Option.some_bind, hp, AcceptPhase.callOf]
    split_ifs <;> simp
  · have hperm := filterMap_set_perm (AcceptCall.expected s.l) ha
      (by simp [AcceptCall.expected, hp]) a'
    rw [show a'.expected s.l = HclSinkAdapter.expected s.l a.msg by
      simp [AcceptCall.expected, hp', hmsg]] at hperm
    refine (hs.made.append_right _).trans (List.Perm.trans ?_ hperm.symm)
    rw [hl]
    rfl

private theorem SinkSound.once (hs : SinkSound s gs) (ha : gs[i]? = some a) {c : Nat}
    {ph : OnceValue.Phase Empty Logger} {name : String} {o : OnceValue Empty Logger}
    (hp : a.phase = .calling c ph) (hc : s.cells[c]? = some (name, o)) (hmsg : a'.msg = a.msg)
    (hp' : a'.phase = .calling c (ph.step (.ok (Logger.named s.l name)) i o).1) :
    SinkSound
      { s with cells := s.cells.set c (name, (ph.step (.ok (Logger.named s.l name)) i o).2) }
      (gs.set i a') := by
  have hm : s.m a.msg.name = some c := hs.calling i a c ph ha hp
  have hname : name = a.msg.name := by
    obtain ⟨o', ho'⟩ := hs.stored _ _ hm
    rw [hc] at ho'
    cases ho'
    rfl
  have hlt := (List.getElem?_eq_some_iff.mp hc).1
  have hext : ∀ d n o', s.cells[d]? = some (n, o') → ∃ o'',
      (s.cells.set c (name, (ph.step (.ok (Logger.named s.l name)) i o).2))[d]? = some (n, o'') :=
    fun d n o' h => by
      rcases eq_or_ne c d with rfl | hcd
      · rw [hc] at h
        cases h
        exact ⟨_, List.getElem?_set_self hlt⟩
      · exact ⟨o', by rw [List.getElem?_set_ne hcd]; exact h⟩
  refine ⟨fun n d h => ?_, fun d n o' h hn => ?_, fun d n o' h => ?_,
    hs.calling_set ha (fun _ _ => id) (by simp [hp', hmsg, hm]), hs.built_set ha hext (by simp [hp']),
    calls_set hs ha (by simp [AcceptCall.expected, hp]) (by simp [AcceptCall.expected, hp']) rfl rfl⟩
  · obtain ⟨o', ho'⟩ := hs.stored n d h
    exact hext _ _ _ ho'
  · rcases eq_or_ne c d with rfl | hcd
    · simp only [List.getElem?_set_self hlt, Option.some.injEq, Prod.mk.injEq] at h
      obtain ⟨rfl, -⟩ := h
      exact absurd (hname ▸ hm) hn
    · rw [List.getElem?_set_ne hcd] at h
      exact hs.idle d n o' h hn
  · rcases eq_or_ne c d with rfl | hcd
    · simp only [List.getElem?_set_self hlt, Option.some.injEq, Prod.mk.injEq] at h
      obtain ⟨rfl, rfl⟩ := h
      rw [callsOf_set ha, hp', AcceptPhase.callOf, if_pos rfl]
      exact (hs.cell c _ o hc).step (by simp [callsOf, ha, hp, AcceptPhase.callOf])
    · rw [List.getElem?_set_ne hcd] at h
      rw [callsOf_set ha, show a'.phase.callOf d = callsOf gs d i by
        simp [callsOf, ha, hp, hp', AcceptPhase.callOf, hcd], Function.update_eq_self]
      exact hs.cell d n o' h

/-- Every step of every call keeps the bookkeeping. -/
theorem SinkSound.step (hs : SinkSound s gs) (ha : gs[i]? = some a) {s' : SharedSink}
    (h : a.step i s = (a', s')) : SinkSound s' (gs.set i a') := by
  obtain ⟨hmsg, ⟨hp, hp', rfl⟩ | ⟨c, c', hp, hm, hp', rfl⟩ | ⟨c, hp, hm, hp', rfl⟩ |
    ⟨c, l, hp, hp', rfl⟩ | ⟨c, ph, name, o, hp, -, hc, hp', rfl⟩ | ⟨-, rfl, rfl⟩⟩ :=
    AcceptCall.step_cases h
  · exact hs.start ha hp hmsg hp'
  · exact hs.load ha hp hm hmsg hp'
  · exact hs.store ha hp hm hmsg hp'
  · exact hs.logCall ha hp hmsg hp'
  · exact hs.once ha hp hc hmsg hp'
  · rwa [getElem?_set_self ha]

theorem AcceptCall.step_l {i : Nat} {a a' : AcceptCall} {s s' : SharedSink}
    (h : a.step i s = (a', s')) : s'.l = s.l := by
  obtain ⟨-, ⟨-, -, rfl⟩ | ⟨-, -, -, -, -, rfl⟩ | ⟨-, -, -, -, rfl⟩ | ⟨-, -, -, -, rfl⟩ |
    ⟨-, -, -, -, -, -, -, -, rfl⟩ | ⟨-, -, rfl⟩⟩ := AcceptCall.step_cases h <;> rfl

/-! ## Runs -/

theorem SinkSound.apply {sys : SharedSink × List AcceptCall} (hs : SinkSound sys.1 sys.2)
    (e : SinkEvent) : SinkSound (e.apply sys).1 (e.apply sys).2 := by
  cases e with
  | accept x =>
    refine ⟨hs.stored, hs.idle, fun c n o h => ?_, fun j b c ph hj hb => ?_, fun j b c hj hb => ?_,
      by simpa [SinkEvent.apply, AcceptCall.expected] using hs.made⟩
    · simpa [SinkEvent.apply, callsOf_concat] using hs.cell c n o h
    · rcases getElem?_concat_cases hj with hj | ⟨-, rfl⟩
      exacts [hs.calling j b c ph hj hb, nomatch hb]
    · rcases getElem?_concat_cases hj with hj | ⟨-, rfl⟩
      exacts [hs.built j b c hj hb, nomatch hb]
  | step i =>
    simp only [SinkEvent.apply]
    split
    · exact hs
    · next a ha => exact hs.step ha rfl

theorem sinkSound_runSink (l : Logger) (events : List SinkEvent) :
    SinkSound (runSink (SharedSink.init l, []) events).1 (runSink (SharedSink.init l, []) events).2 ∧
      (runSink (SharedSink.init l, []) events).1.l = l := by
  suffices ∀ sys, SinkSound sys.1 sys.2 → SinkSound (runSink sys events).1 (runSink sys events).2 ∧
      (runSink sys events).1.l = sys.1.l from this _ (sinkSound_init l)
  induction events with
  | nil => exact fun _ hs => ⟨hs, rfl⟩
  | cons e es ih =>
    intro sys hs
    refine (ih _ (hs.apply e)).imp id fun h => h.trans ?_
    cases e with
    | accept x => rfl
    | step i =>
      simp only [SinkEvent.apply]
      split
      · rfl
      · exact AcceptCall.step_l rfl

/-- Under every schedule of `Accept` calls on the adapter of `HCLogLogger(l)`, a `onceValue` whose
function has run is the one the map holds for its name, and ran it once: `logger.Named(l, name)`
is built at most once for each name, however the calls interleave. -/
theorem concurrent_accept_names_once (l : Logger) (events : List SinkEvent) :
    let s := (runSink (SharedSink.init l, []) events).1
    ∀ c n o, s.cells[c]? = some (n, o) → o.runs ≠ 0 → s.m n = some c ∧ o.runs = 1 := by
  intro s c n o h hr
  have hs := (sinkSound_runSink l events).1
  have hm : s.m n = some c := by
    by_contra hm
    rw [hs.idle c n o h hm] at hr
    exact hr rfl
  have hruns := (hs.cell c n o h).runs_eq
  split_ifs at hruns
  · exact ⟨hm, hruns⟩
  · exact absurd hruns hr

def AcceptPhase.rank : AcceptPhase → Nat
  | .start => 7
  | .built _ => 6
  | .calling _ ph => ph.rank + 1
  | .done => 0

theorem runSink_eq_foldl (sys : SharedSink × List AcceptCall) (es : List SinkEvent) :
    runSink sys es = es.foldl SinkEvent.apply sys := by
  induction es generalizing sys with
  | nil => rfl
  | cons e es ih => exact ih _

theorem SinkSound.not_panicked (hs : SinkSound s gs) (ha : gs[i]? = some a) {c : Nat}
    {p : Option Empty} : a.phase ≠ .calling c (.panicked p) := fun hp => by
  obtain ⟨o, ho⟩ := hs.stored _ _ (hs.calling i a c _ ha hp)
  have := (hs.cell c _ o ho).ended i (.panicked p)
    (by simp [callsOf, ha, hp, AcceptPhase.callOf]) (.error p) rfl
  cases this

theorem SinkSound.rank_step_lt (hs : SinkSound s gs) (ha : gs[i]? = some a)
    (hd : a.phase ≠ .done)
    (hfree : ∀ c n o, a.phase = .calling c .slow → s.cells[c]? = some (n, o) → o.m = none) :
    (a.step i s).1.phase.rank < a.phase.rank := by
  have h : a.step i s = ((a.step i s).1, (a.step i s).2) := rfl
  obtain ⟨-, ⟨hp, hp', -⟩ | ⟨c, c', hp, -, hp', -⟩ | ⟨c, hp, -, hp', -⟩ | ⟨c, l, hp, hp', -⟩ |
    ⟨c, ph, name, o, hp, hret, hc, hp', -⟩ | ⟨hnone, -, -⟩⟩ := AcceptCall.step_cases h
  · rw [hp, hp']
    simp [AcceptPhase.rank]
  · rw [hp, hp']
    simp [AcceptPhase.rank, OnceValue.Phase.rank]
  · rw [hp, hp']
    simp [AcceptPhase.rank, OnceValue.Phase.rank]
  · rw [hp, hp']
    simp [AcceptPhase.rank, OnceValue.Phase.rank]
  · rw [hp, hp']
    have hrank : ph.rank ≠ 0 := by
      cases ph with
      | returned l => exact absurd rfl (hret l)
      | panicked p => exact absurd hp (hs.not_panicked ha)
      | _ => simp [OnceValue.Phase.rank]
    simpa [AcceptPhase.rank] using
      OnceValue.Phase.rank_step_lt hrank fun h => hfree c name o (h ▸ hp) hc
  · rcases hnone with hp | ⟨c, ph, hp, hc⟩
    · exact absurd hp hd
    · obtain ⟨o, ho⟩ := hs.stored _ _ (hs.calling i a c ph ha hp)
      rw [hc] at ho
      cases ho

theorem SinkSound.exists_progress (hs : SinkSound s gs) (ha : gs[i]? = some a)
    (hd : a.phase ≠ .done) :
    ∃ (j : Nat) (b : AcceptCall), gs[j]? = some b ∧ (b.step j s).1.phase.rank < b.phase.rank := by
  by_cases hblocked : ∃ c n o k, a.phase = .calling c .slow ∧ s.cells[c]? = some (n, o) ∧
      o.m = some k
  · obtain ⟨c, n, o, k, -, hc, hk⟩ := hblocked
    have hheld := ((hs.cell c n o hc).mutex k).mp hk
    simp only [callsOf, Option.bind_eq_some, AcceptPhase.callOf_eq_some] at hheld
    obtain ⟨b, hb, hbp⟩ := hheld
    exact ⟨k, b, hb, hs.rank_step_lt hb (by simp [hbp])
      fun c' n' o' h => by rw [hbp] at h; cases h⟩
  · refine ⟨i, a, ha, hs.rank_step_lt ha hd fun c n o hp hc => ?_⟩
    cases hm : o.m with
    | none => rfl
    | some k => exact absurd ⟨c, n, o, k, hp, hc, hm⟩ hblocked

/-- No schedule deadlocks the adapter of `HCLogLogger(l)`: from every state a schedule of `Accept`
calls reaches, steps alone bring every call begun to its return. -/
theorem concurrent_accept_calls_complete (l : Logger) (events : List SinkEvent) :
    ∃ more : List SinkEvent, (∀ e ∈ more, ∃ i, e = .step i) ∧
      ∀ a ∈ (runSink (SharedSink.init l, []) (events ++ more)).2, a.phase = .done := by
  have hprog : ∀ sys : SharedSink × List AcceptCall, SinkSound sys.1 sys.2 →
      ¬(∀ a ∈ sys.2, a.phase = .done) → ∃ e, (∃ i, e = SinkEvent.step i) ∧
        SinkSound (SinkEvent.apply sys e).1 (SinkEvent.apply sys e).2 ∧
        sumBy (fun a => a.phase.rank) (SinkEvent.apply sys e).2 <
          sumBy (fun a => a.phase.rank) sys.2 := by
    intro sys hs hall
    push_neg at hall
    obtain ⟨a, ha, hd⟩ := hall
    obtain ⟨i, hi⟩ := List.mem_iff_getElem?.mp ha
    obtain ⟨j, b, hb, hlt⟩ := hs.exists_progress hi hd
    refine ⟨.step j, ⟨j, rfl⟩, hs.apply _, ?_⟩
    have := sumBy_set (fun a : AcceptCall => a.phase.rank) hb (b.step j sys.1).1
    simp only [SinkEvent.apply, hb]
    omega
  obtain ⟨more, hmore, hdone⟩ := exists_schedule_of_progress SinkEvent.apply
    (fun sys => SinkSound sys.1 sys.2) (fun sys => ∀ a ∈ sys.2, a.phase = .done)
    (fun sys => sumBy (fun a => a.phase.rank) sys.2) (fun e => ∃ i, e = .step i) hprog _
    (sinkSound_runSink l events).1
  refine ⟨more, hmore, ?_⟩
  rwa [runSink_eq_foldl, List.foldl_append, ← runSink_eq_foldl _ events]

end ChainlinkRelay.Loop
