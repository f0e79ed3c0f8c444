import Mathlib.Logic.Function.Basic
import Mathlib.Data.List.Basic

/-!
# `onceValue` under concurrent calls

`onceValue(f)`, package loop's copy of Go 1.21's `sync.OnceValue`, returns a function that runs
`g` through a `sync.Once` and then returns `f`'s result, or panics again with the value `f`
panicked with. Here the closure's variables are a state (`OnceValue`), and each call of the
returned function is a goroutine that goes through `Do`'s code one atomic step at a time
(`Phase.step`); a schedule starts calls and steps them in any order (`runCalls`). `sync.Once` is
the standard library's: `Do` reads `done`; if it is not set, `doSlow` takes the mutex, reads
`done` again and runs `g` if it is still not set, and on the way out, also when `g` panics, its
deferred calls set `done` and release the mutex.

Under every schedule the comment on `onceValue` holds (`onceValue_contract`): `f` runs at most
once; a call that has ended saw it run, and returned `f`'s result or panicked with `f`'s panic
value. No schedule deadlocks, even after `f` panicked (`onceValue_calls_complete`): from every
state a schedule reaches, steps alone end every call begun.
-/

namespace ChainlinkRelay.Loop

/-! ## Schedules that end every call -/

section Schedules

variable {σ ε α : Type}

def sumBy (f : α → Nat) : List α → Nat
  | [] => 0
  | a :: l => f a + sumBy f l

theorem sumBy_set (f : α → Nat) :
    ∀ {l : List α} {j : Nat} {b : α}, l[j]? = some b → ∀ b',
      sumBy f (l.set j b') + f b = sumBy f l + f b'
  | [], _, _, h, _ => by simp at h
  | x :: l, 0, b, h, b' => by
    simp only [List.getElem?_cons_zero, Option.some.injEq] at h
    subst h
    simp only [List.set_cons_zero, sumBy]
    omega
  | x :: l, j + 1, b, h, b' => by
    have := sumBy_set f (by simpa using h) b'
    simp only [List.set_cons_succ, sumBy]
    omega

/-- If from every state with the invariant where not every call has ended, some event of the
allowed kind keeps the invariant and lowers the measure, then from every state with the invariant
a schedule of such events ends every call. -/
theorem exists_schedule_of_progress (apply : σ → ε → σ) (Inv Done : σ → Prop) (μ : σ → Nat)
    (Allowed : ε → Prop)
    (hprog : ∀ s, Inv s → ¬Done s → ∃ e, Allowed e ∧ Inv (apply s e) ∧ μ (apply s e) < μ s) :
    ∀ s, Inv s → ∃ es : List ε, (∀ e ∈ es, Allowed e) ∧ Done (es.foldl apply s) := by
  intro s
  generalize h : μ s = n
  induction n using Nat.strong_induction_on generalizing s with
  | _ n ih =>
    intro hs
    by_cases hd : Done s
    · exact ⟨[], by simp, hd⟩
    · obtain ⟨e, he, hs', hlt⟩ := hprog s hs hd
      obtain ⟨es, hes, hdone⟩ := ih _ (h ▸ hlt) _ rfl hs'
      exact ⟨e :: es, List.forall_mem_cons.mpr ⟨he, hes⟩, hdone⟩

end Schedules

/-- The variables of `onceValue`'s closure: the `sync.Once` (its `done` flag, and the call holding
its mutex), `valid` and `result` (as `some result` once `f` has returned), and `p`, the value
`recover` gave (`nil` is `none`). `runs` counts the runs of `f`; no code reads it. -/
structure OnceValue (P T : Type) where
  done : Bool
  m : Option Nat
  result : Option T
  p : Option P
  runs : Nat
  deriving DecidableEq, Repr

namespace OnceValue

variable {P T : Type}

def init : OnceValue P T := ⟨false, none, none, none, 0⟩

/-- Where a call of the function `onceValue` returns stands: at `Do`'s first read of `done`
(`enter`), in `doSlow` at `o.m.Lock()` (`slow`), holding the mutex at `doSlow`'s second read of
`done` (`locked`), past `Do` at `if !valid` (`check`), or returned or panicked. -/
inductive Phase (P T : Type) where
  | enter
  | slow
  | locked
  | check
  | returned (r : T)
  | panicked (p : Option P)
  deriving DecidableEq, Repr

/-- One atomic step of call `i`, where `f` returns or panics as `out` says. Holding the mutex, the
call runs `g` with its deferred `recover`, and `doSlow`'s deferred `done.Store(1)` and `Unlock`,
as one step: until `done` is set, a call that does not hold the mutex reads nothing else. A call
that finds the mutex held stays where it is. -/
def Phase.step (out : Except P T) (i : Nat) : Phase P T → OnceValue P T → Phase P T × OnceValue P T
  | .enter, o => (if o.done then .check else .slow, o)
  | .slow, o =>
    match o.m with
    | none => (.locked, { o with m := some i })
    | some _ => (.slow, o)
  | .locked, o =>
    if o.done then (.check, { o with m := none })
    else
      match out with
      | .ok r =>
        (.check, { o with done := true, m := none, result := some r, p := none, runs := o.runs + 1 })
      | .error q =>
        (.panicked (some q), { o with done := true, m := none, p := some q, runs := o.runs + 1 })
  | .check, o =>
    match o.result with
    | some r => (.returned r, o)
    | none => (.panicked o.p, o)
  | .returned r, o => (.returned r, o)
  | .panicked p, o => (.panicked p, o)

def Phase.outcome : Phase P T → Option (Except (Option P) T)
  | .returned r => some (.ok r)
  | .panicked p => some (.error p)
  | _ => none

def Phase.pastDo : Phase P T → Bool
  | .check | .returned _ | .panicked _ => true
  | _ => false

/-- What happens next: one more goroutine calls the function, or the `i`-th call takes a step. -/
inductive Event where
  | call
  | step (i : Nat)

def Event.apply (out : Except P T) (sys : OnceValue P T × List (Phase P T)) :
    Event → OnceValue P T × List (Phase P T)
  | .call => (sys.1, sys.2 ++ [.enter])
  | .step i =>
    match sys.2[i]? with
    | none => sys
    | some c => ((c.step out i sys.1).2, sys.2.set i (c.step out i sys.1).1)

def runCalls (out : Except P T) (sys : OnceValue P T × List (Phase P T)) :
    List Event → OnceValue P T × List (Phase P T)
  | [] => sys
  | e :: es => runCalls out (Event.apply out sys e) es

theorem runCalls_eq_foldl (out : Except P T) (sys : OnceValue P T × List (Phase P T))
    (es : List Event) : runCalls out sys es = es.foldl (Event.apply out) sys := by
  induction es generalizing sys with
  | nil => rfl
  | cons e es ih => exact ih _

/-! ## The invariant -/

/-- What every state a schedule reaches satisfies, with the calls seen as a function of their
number: exactly the call at `doSlow`'s second read of `done` holds the mutex; once `done` is set,
`f` has run once and `valid`, `result` and `p` hold how it ended, and before, it has not run; a
call past `Do` saw `done` set; and a call that ended returned `f`'s result or panicked with `f`'s
panic value. -/
structure Sound (out : Except P T) (o : OnceValue P T) (calls : Nat → Option (Phase P T)) :
    Prop where
  mutex : ∀ i, o.m = some i ↔ calls i = some .locked
  runs_eq : o.runs = if o.done then 1 else 0
  result_eq : o.result = if o.done then out.toOption else none
  p_eq : o.done = true → ∀ q, out = .error q → o.p = some q
  past_done : ∀ i c, calls i = some c → c.pastDo = true → o.done = true
  ended : ∀ i c, calls i = some c → ∀ e, c.outcome = some e → e = out.mapError some

variable {out : Except P T} {o : OnceValue P T} {calls : Nat → Option (Phase P T)} {i : Nat}

theorem sound_init (out : Except P T) : Sound out init fun _ => none :=
  ⟨by simp [init], rfl, rfl, by simp [init], by simp, by simp⟩

theorem Sound.update (hs : Sound out o calls) (hc : calls i ≠ some .locked)
    {v : Option (Phase P T)} (hv : v ≠ some .locked)
    (hpast : ∀ c, v = some c → c.pastDo = true → o.done = true)
    (hend : ∀ c, v = some c → ∀ e, c.outcome = some e → e = out.mapError some) :
    Sound out o (Function.update calls i v) := by
  refine ⟨fun j => ?_, hs.runs_eq, hs.result_eq, hs.p_eq, fun j c hj => ?_, fun j c hj => ?_⟩
  all_goals rcases eq_or_ne j i with rfl | hji
  · rw [Function.update_same, hs.mutex]
    exact ⟨fun h => absurd h hc, fun h => absurd h hv⟩
  · rw [Function.update_noteq hji, hs.mutex]
  · exact hpast c (by rwa [Function.update_same] at hj)
  · exact hs.past_done j c (by rwa [Function.update_noteq hji] at hj)
  · exact hend c (by rwa [Function.update_same] at hj)
  · exact hs.ended j c (by rwa [Function.update_noteq hji] at hj)

private theorem Sound.acquire (hs : Sound out o calls) (hc : calls i = some .slow)
    (hm : o.m = none) :
    Sound out { o with m := some i } (Function.update calls i (some .locked)) := by
  refine ⟨fun j => ?_, hs.runs_eq, hs.result_eq, hs.p_eq, fun j c hj => ?_, fun j c hj => ?_⟩
  all_goals rcases eq_or_ne j i with rfl | hji
  · simp
  · rw [Function.update_noteq hji, ← hs.mutex, hm]
    simp [Ne.symm hji]
  · rw [Function.update_same, Option.some.injEq] at hj
    subst hj
    simp [Phase.pastDo]
  · exact hs.past_done j c (by rwa [Function.update_noteq hji] at hj)
  · rw [Function.update_same, Option.some.injEq] at hj
    subst hj
    simp [Phase.outcome]
  · exact hs.ended j c (by rwa [Function.update_noteq hji] at hj)

private theorem Sound.release (hs : Sound out o calls) (hc : calls i = some .locked)
    {o' : OnceValue P T} {c' : Phase P T} (hm : o'.m = none) (hdone : o'.done = true)
    (hruns : o'.runs = 1) (hresult : o'.result = out.toOption)
    (hp : ∀ q, out = .error q → o'.p = some q) (hc' : c' ≠ .locked)
    (hend : ∀ e, c'.outcome = some e → e = out.mapError some) :
    Sound out o' (Function.update calls i (some c')) := by
  have hmi : o.m = some i := (hs.mutex i).mpr hc
  refine ⟨fun j => ?_, by simp [hruns, hdone], by simp [hresult, hdone], fun _ => hp,
    fun _ _ _ _ => hdone, fun j c hj => ?_⟩
  all_goals rcases eq_or_ne j i with rfl | hji
  · simp [hm, hc']
  · rw [Function.update_noteq hji, ← hs.mutex, hmi, hm]
    simp [Ne.symm hji]
  · rw [Function.update_same, Option.some.injEq] at hj
    exact hj ▸ hend
  · exact hs.ended j c (by rwa [Function.update_noteq hji] at hj)

theorem Sound.step (hs : Sound out o calls) {c : Phase P T} (hc : calls i = some c) :
    Sound out (c.step out i o).2 (Function.update calls i (some (c.step out i o).1)) := by
  have hnl : calls i ≠ some .locked → Sound out o (Function.update calls i (some c)) :=
    fun hl => hs.update hl (by rwa [← hc]) (fun c' h => hs.past_done i c' (hc.trans h))
      (fun c' h => hs.ended i c' (hc.trans h))
  cases c with
  | enter =>
    cases hd : o.done <;> simp only [Phase.step, hd, Bool.false_eq_true, ↓reduceIte] <;>
      exact hs.update (by simp [hc]) (by simp) (by rintro _ ⟨⟩ h; first | exact hd | cases h)
        (by rintro _ ⟨⟩ _ ⟨⟩)
  | slow =>
    cases hm : o.m with
    | none =>
      simp only [Phase.step, hm]
      exact hs.acquire hc hm
    | some k =>
      simp only [Phase.step, hm]
      exact hnl (by simp [hc])
  | locked =>
    cases hd : o.done
    · have hruns : o.runs = 0 := by simpa [hd] using hs.runs_eq
      have hres : o.result = none := by simpa [hd] using hs.result_eq
      cases out with
      | ok r =>
        simp only [Phase.step, hd, Bool.false_eq_true, ↓reduceIte]
        exact hs.release hc rfl rfl (by simp [hruns]) rfl (fun _ h => nomatch h) (by simp)
          (by rintro _ ⟨⟩)
      | error q =>
        simp only [Phase.step, hd, Bool.false_eq_true, ↓reduceIte]
        exact hs.release hc rfl rfl (by simp [hruns]) hres (fun _ h => by cases h; rfl) (by simp)
          (by rintro _ ⟨⟩; rfl)
    · simp only [Phase.step, hd, ↓reduceIte]
      exact hs.release hc rfl rfl (by simpa [hd] using hs.runs_eq)
        (by simpa [hd] using hs.result_eq) (hs.p_eq hd) (by simp) (by rintro _ ⟨⟩)
  | check =>
    have hd := hs.past_done i _ hc rfl
    have hres : o.result = out.toOption := by simpa [hd] using hs.result_eq
    cases out with
    | ok r =>
      simp only [Phase.step, hres, Except.toOption]
      exact hs.update (by simp [hc]) (by simp) (fun _ _ _ => hd) (by rintro _ ⟨⟩ _ ⟨⟩; rfl)
    | error q =>
      simp only [Phase.step, hres, Except.toOption, hs.p_eq hd q rfl]
      exact hs.update (by simp [hc]) (by simp) (fun _ _ _ => hd) (by rintro _ ⟨⟩ _ ⟨⟩; rfl)
  | returned r => exact hnl (by simp [hc])
  | panicked p => exact hnl (by simp [hc])

/-! ## Runs -/

private theorem getElem?_concat_update {α : Type} (l : List α) (a : α) :
    (fun j => (l ++ [a])[j]?) = Function.update (fun j => l[j]?) l.length (some a) := by
  funext j
  rcases lt_trichotomy j l.length with h | rfl | h
  · rw [Function.update_noteq h.ne, List.getElem?_append_left h]
  · simp
  · rw [Function.update_noteq h.ne', List.getElem?_eq_none (by simp; omega),
      List.getElem?_eq_none h.le]

private theorem getElem?_set_update {α : Type} {l : List α} {j : Nat} {a : α} (hj : l[j]? = some a)
    (b : α) : (fun k => (l.set j b)[k]?) = Function.update (fun k => l[k]?) j (some b) := by
  funext k
  rcases eq_or_ne j k with rfl | h
  · simp [(List.getElem?_eq_some_iff.mp hj).1]
  · rw [List.getElem?_set_ne h, Function.update_noteq (Ne.symm h)]

theorem Sound.apply {sys : OnceValue P T × List (Phase P T)}
    (hs : Sound out sys.1 fun j => sys.2[j]?) (e : Event) :
    Sound out (e.apply out sys).1 fun j => (e.apply out sys).2[j]? := by
  cases e with
  | call =>
    show Sound out sys.1 fun j => (sys.2 ++ [.enter])[j]?
    rw [getElem?_concat_update]
    exact hs.update (by simp) (by simp) (by rintro _ ⟨⟩ ⟨⟩) (by rintro _ ⟨⟩ _ ⟨⟩)
  | step i =>
    simp only [Event.apply]
    split
    · exact hs
    · next c hc =>
      rw [getElem?_set_update hc]
      exact hs.step hc

theorem Sound.run {sys : OnceValue P T × List (Phase P T)}
    (hs : Sound out sys.1 fun j => sys.2[j]?) (es : List Event) :
    Sound out (runCalls out sys es).1 fun j => (runCalls out sys es).2[j]? := by
  induction es generalizing sys with
  | nil => exact hs
  | cons e es ih => exact ih (hs.apply e)

theorem sound_runCalls (out : Except P T) (es : List Event) :
    Sound out (runCalls out (init, []) es).1 fun j => (runCalls out (init, []) es).2[j]? :=
  Sound.run (by simpa using sound_init out) es

/-- Under every schedule, `f` runs at most once; a call that has ended saw `f` run, and returned
`f`'s result or panicked with `f`'s panic value, whichever call ran `f`. -/
theorem onceValue_contract (out : Except P T) (events : List Event) :
    let sys := runCalls out (init, []) events
    sys.1.runs ≤ 1 ∧
      ∀ c ∈ sys.2, ∀ e, c.outcome = some e → sys.1.runs = 1 ∧ e = out.mapError some := by
  intro sys
  have hs : Sound out sys.1 fun j => sys.2[j]? := sound_runCalls out events
  refine ⟨by rw [hs.runs_eq]; split <;> omega, fun c hc e he => ?_⟩
  obtain ⟨j, hj⟩ := List.mem_iff_getElem?.mp hc
  have hpast : c.pastDo = true := by cases c <;> simp_all [Phase.outcome, Phase.pastDo]
  exact ⟨by simp [hs.runs_eq, hs.past_done j c hj hpast], hs.ended j c hj e he⟩

/-! ## No deadlock -/

def Phase.rank : Phase P T → Nat
  | .enter => 4
  | .slow => 3
  | .locked => 2
  | .check => 1
  | _ => 0

theorem Phase.rank_eq_zero {c : Phase P T} : c.rank = 0 ↔ c.outcome.isSome := by
  cases c <;> simp [Phase.rank, Phase.outcome]

theorem Phase.rank_step_lt {c : Phase P T} (hc : c.rank ≠ 0) (hslow : c = .slow → o.m = none) :
    (c.step out i o).1.rank < c.rank := by
  cases c with
  | enter => cases hd : o.done <;> simp [Phase.step, Phase.rank, hd]
  | slow => simp [Phase.step, Phase.rank, hslow rfl]
  | locked => cases hd : o.done <;> cases out <;> simp [Phase.step, Phase.rank, hd]
  | check => cases hr : o.result <;> simp [Phase.step, Phase.rank, hr]
  | returned r => simp [Phase.rank] at hc
  | panicked p => simp [Phase.rank] at hc

theorem Sound.exists_progress (hs : Sound out o calls) {c : Phase P T} (hc : calls i = some c)
    (hend : c.rank ≠ 0) : ∃ j c', calls j = some c' ∧ (c'.step out j o).1.rank < c'.rank := by
  by_cases hblocked : c = .slow ∧ o.m.isSome
  · obtain ⟨k, hk⟩ := Option.isSome_iff_exists.mp hblocked.2
    exact ⟨k, .locked, (hs.mutex k).mp hk, Phase.rank_step_lt (by simp [Phase.rank]) nofun⟩
  · refine ⟨i, c, hc, Phase.rank_step_lt hend fun h => ?_⟩
    simpa [h] using hblocked

/-- No schedule deadlocks, even after `f` panicked: from every state a schedule reaches, steps
alone end every call begun. -/
theorem onceValue_calls_complete (out : Except P T) (events : List Event) :
    ∃ more : List Event, (∀ e ∈ more, ∃ i, e = .step i) ∧
      ∀ c ∈ (runCalls out (init, []) (events ++ more)).2, c.outcome.isSome := by
  have hprog : ∀ sys : OnceValue P T × List (Phase P T), Sound out sys.1 (fun j => sys.2[j]?) →
      ¬(∀ c ∈ sys.2, c.outcome.isSome) → ∃ e, (∃ i, e = Event.step i) ∧
        Sound out (e.apply out sys).1 (fun j => (e.apply out sys).2[j]?) ∧
        sumBy Phase.rank (e.apply out sys).2 < sumBy Phase.rank sys.2 := by
    intro sys hs hall
    push_neg at hall
    obtain ⟨c, hc, hend⟩ := hall
    obtain ⟨i, hi⟩ := List.mem_iff_getElem?.mp hc
    obtain ⟨j, c', hj, hlt⟩ := hs.exists_progress hi (by simpa [Phase.rank_eq_zero] using hend)
    refine ⟨.step j, ⟨j, rfl⟩, hs.apply _, ?_⟩
    have := sumBy_set Phase.rank hj (c'.step out j sys.1).1
    simp only [Event.apply, hj]
    omega
  obtain ⟨more, hmore, hdone⟩ := exists_schedule_of_progress (Event.apply out)
    (fun sys => Sound out sys.1 fun j => sys.2[j]?) (fun sys => ∀ c ∈ sys.2, c.outcome.isSome)
    (fun sys => sumBy Phase.rank sys.2) (fun e => ∃ i, e = .step i) hprog _ (sound_runCalls out events)
  refine ⟨more, hmore, ?_⟩
  rwa [runCalls_eq_foldl, List.foldl_append, ← runCalls_eq_foldl out (init, []) events]

end OnceValue

end ChainlinkRelay.Loop
