import ChainlinkRelay.HcLog
import ChainlinkRelay.LoggerInterface
import ChainlinkRelay.OnceValue
import Mathlib.Data.List.Forall2

/-!
# The hclog sink adapter over any logger

`HCLogLogger` takes any `logger.Logger`, and on a logger of another type `Named(l, name)` may
panic (`interface_functions_panic_iff`), or, if that type's `Named` keeps state, return something
else on each call. The sink calls it inside the function of the `onceValue` it stores for the
name, so it is called once per name; each later `Accept` for that name runs the stored
`onceValue` again, which replays how that one call ended, its panic included. Here `Accept` calls
come one after another, each panic recovered by the caller, and each call of the stored function
runs through `onceValue`'s own steps (`Phase.step`): over every run, each `Accept` ends as the one
`Named` call made for its name did (`accept_replays_named`).
-/

namespace ChainlinkRelay.Loop

open AnyLogger

variable {F : Type}

namespace OnceValue

variable {P T : Type}

/-- A call of the function `onceValue` returns, with no other call between its steps: four of
`Do`'s steps end it. -/
def callAlone (out : Except P T) (o : OnceValue P T) : Phase P T × OnceValue P T :=
  let a := Phase.enter.step out 0 o
  let b := a.1.step out 0 a.2
  let c := b.1.step out 0 b.2
  c.1.step out 0 c.2

def Settled (out : Except P T) (o : OnceValue P T) : Prop :=
  o.done = true ∧ o.m = none ∧ o.result = out.toOption ∧ ∀ q, out = .error q → o.p = some q

theorem callAlone_init (out : Except P T) :
    (callAlone out init).1.outcome = some (out.mapError some) ∧
      Settled out (callAlone out init).2 := by
  cases out <;>
    simp [callAlone, Phase.step, init, Settled, Phase.outcome, Except.mapError, Except.toOption]

theorem callAlone_settled {out : Except P T} {o : OnceValue P T} (ho : Settled out o) :
    (callAlone out o).1.outcome = some (out.mapError some) ∧ (callAlone out o).2 = o := by
  obtain ⟨hd, -, hr, hp⟩ := ho
  cases out with
  | error q =>
    simp [callAlone, Phase.step, hd, hr, hp q rfl, Phase.outcome, Except.mapError, Except.toOption]
  | ok r => simp [callAlone, Phase.step, hd, hr, Phase.outcome, Except.mapError, Except.toOption]

end OnceValue

structure SinkCall (F : Type) where
  target : Impl F
  call : LogCall
  msg : String
  args : List String
  deriving DecidableEq, Repr

def callOn (l : AnyLogger F) (call : LogCall) (msg : String) (args : List String) :
    Except String (SinkCall F) :=
  match l with
  | some (.logger t) => .ok ⟨.logger t, call, msg, args⟩
  | some (.foreign f) => .ok ⟨.foreign f, call, msg, args⟩
  | some .nilLogger | none => .error nilDereferencePanic

/-- How `Accept` ends once `named` has: the panic `named` replayed (a nil panic value is `none`),
or the logging call made on the logger it returned, if any, which panics on a nil logger and on a
nil `*logger`. A call of the stored function that has not ended (`none`) does not arise here. -/
def finish : Option (Except (Option String) (AnyLogger F)) → HcMessage →
    Except (Option String) (Option (SinkCall F))
  | some (.ok l), x =>
    match HclSinkAdapter.callAt x.level with
    | none => .ok none
    | some call => ((callOn l call x.msg x.args).mapError some).map some
  | some (.error p), _ => .error p
  | none, _ => .error none

/-- `hclSinkAdapter` over a logger of any type: the `sync.Map` from names to the `onceValue`s
stored for them, and how many are stored. The `k`-th call of `logger.Named(h.l, ·)`, for name
`n`, ends as `named k n` says (the logger it returns, or its panic); only the function of the
`k`-th stored `onceValue` makes it, so each stored `onceValue` is kept with its `k`. The
`onceValue` that `named` builds and `LoadOrStore` does not store is never called and is left
out. -/
structure AnySink (F : Type) where
  m : String → Option (Nat × OnceValue String (AnyLogger F))
  stored : Nat

namespace AnySink

variable (named : Nat → String → Except String (AnyLogger F))

def init : AnySink F := ⟨fun _ => none, 0⟩

/-- `Accept`: `LoadOrStore` the name's `onceValue`, call it, and make the logging call on the
logger it returns. The `onceValue` stays stored whether or not the call panics. -/
def accept (h : AnySink F) (x : HcMessage) :
    Except (Option String) (Option (SinkCall F)) × AnySink F :=
  let (cell, stored) := match h.m x.name with
    | some cell => (cell, h.stored)
    | none => ((h.stored, OnceValue.init), h.stored + 1)
  let (ph, o) := OnceValue.callAlone (named cell.1 x.name) cell.2
  (finish ph.outcome x, ⟨fun n => if n = x.name then some (cell.1, o) else h.m n, stored⟩)

def acceptAll (h : AnySink F) : List HcMessage →
    List (Except (Option String) (Option (SinkCall F))) × AnySink F
  | [] => ([], h)
  | x :: xs =>
    let r := h.accept named x
    let rest := r.2.acceptAll xs
    (r.1 :: rest.1, rest.2)

structure Inv (h : AnySink F) : Prop where
  settled : ∀ n k o, h.m n = some (k, o) → OnceValue.Settled (named k n) o
  lt : ∀ n k o, h.m n = some (k, o) → k < h.stored
  inj : ∀ n n' k o o', h.m n = some (k, o) → h.m n' = some (k, o') → n = n'

theorem inv_init : (init : AnySink F).Inv named :=
  ⟨by simp [init], by simp [init], by simp [init]⟩

variable {named} {h : AnySink F}

theorem Inv.insert (hi : h.Inv named) {name : String} (hx : h.m name = none)
    {o : OnceValue String (AnyLogger F)} (hs : OnceValue.Settled (named h.stored name) o) :
    Inv named ⟨fun n => if n = name then some (h.stored, o) else h.m n, h.stored + 1⟩ := by
  refine ⟨fun n k o' hn => ?_, fun n k o' hn => ?_, fun n n' k o₁ o₂ hn hn' => ?_⟩ <;>
    dsimp only at hn ⊢
  · split_ifs at hn with he
    · cases hn; subst he; exact hs
    · exact hi.settled n k o' hn
  · split_ifs at hn with he
    · cases hn; omega
    · exact Nat.lt_succ_of_lt (hi.lt n k o' hn)
  · dsimp only at hn'
    split_ifs at hn hn' with he he'
    · rw [he, he']
    · cases hn; exact absurd (hi.lt n' _ o₂ hn') (lt_irrefl _)
    · cases hn'; exact absurd (hi.lt n _ o₁ hn) (lt_irrefl _)
    · exact hi.inj n n' k o₁ o₂ hn hn'

theorem accept_spec (hi : h.Inv named) (x : HcMessage) :
    (h.accept named x).2.Inv named ∧
      (∀ n e, h.m n = some e → (h.accept named x).2.m n = some e) ∧
      (∀ n, ((h.accept named x).2.m n).isSome ↔ (h.m n).isSome ∨ n = x.name) ∧
      ∃ k o, (h.accept named x).2.m x.name = some (k, o) ∧
        (h.accept named x).1 = finish (some ((named k x.name).mapError some)) x := by
  rcases hx : h.m x.name with _ | ⟨k, o⟩
  · obtain ⟨hout, hset⟩ := OnceValue.callAlone_init (named h.stored x.name)
    simp only [accept, hx, hout]
    refine ⟨hi.insert hx hset, fun n e hn => ?_, fun n => ?_, h.stored,
      (OnceValue.callAlone (named h.stored x.name) OnceValue.init).2, by simp, rfl⟩
    · rw [if_neg (by rintro rfl; simp [hx] at hn), hn]
    · by_cases he : n = x.name <;> simp [he]
  · obtain ⟨hout, hsame⟩ := OnceValue.callAlone_settled (hi.settled x.name k o hx)
    have hm : (fun n => if n = x.name then some (k, o) else h.m n) = h.m := by
      funext n; split_ifs with he <;> simp [he, hx]
    simp only [accept, hx, hout, hsame, hm]
    exact ⟨hi, fun _ _ hn => hn, by simp [hx], k, o, rfl, rfl⟩

theorem acceptAll_spec (xs : List HcMessage) (hi : h.Inv named) :
    (h.acceptAll named xs).2.Inv named ∧
      (∀ n e, h.m n = some e → (h.acceptAll named xs).2.m n = some e) ∧
      (∀ n, ((h.acceptAll named xs).2.m n).isSome ↔ (h.m n).isSome ∨ n ∈ xs.map HcMessage.name) ∧
      List.Forall₂ (fun r x => ∃ k o, (h.acceptAll named xs).2.m x.name = some (k, o) ∧
        r = finish (some ((named k x.name).mapError some)) x) (h.acceptAll named xs).1 xs := by
  induction xs generalizing h with
  | nil => exact ⟨hi, fun _ _ hn => hn, by simp [acceptAll], .nil⟩
  | cons x xs ih =>
    obtain ⟨hi₁, hkeep₁, hdom₁, k, o, hk, hr⟩ := accept_spec hi x
    obtain ⟨hi₂, hkeep₂, hdom₂, hrest⟩ := ih hi₁
    refine ⟨hi₂, fun n e hn => hkeep₂ n e (hkeep₁ n e hn), fun n => ?_,
      .cons ⟨k, o, hkeep₂ _ _ hk, hr⟩ hrest⟩
    simp only [List.map_cons, List.mem_cons, hdom₂, hdom₁, acceptAll, or_assoc]

/-- On one of the package's loggers, whose `Named` is the pure `logger.named`, the sink never
panics, and each `Accept` makes its call on `Named(l, name)`, as the `*logger` model of
`HCLogLogger` does. -/
theorem acceptAll_on_logger (R : Methods F) (t : Logger) (xs : List HcMessage) :
    List.Forall₂ (fun r x => r = .ok ((HclSinkAdapter.callAt x.level).map fun call =>
        ⟨.logger (t.named x.name), call, x.msg, x.args⟩))
      (init.acceptAll (fun _ n => AnyLogger.named R (some (.logger t)) n) xs).1 xs :=
  (acceptAll_spec xs (inv_init _)).2.2.2.imp fun _ x ⟨_, _, _, hr⟩ => by
    simp only [hr, finish, Except.mapError,
      show named R (some (.logger t)) x.name = .ok (some (.logger (t.named x.name))) from rfl]
    cases HclSinkAdapter.callAt x.level <;> rfl

end AnySink

/-- Whatever hclog sends the sink of `HCLogLogger(l)`, and however `l`'s type's `Named` behaves
from call to call: the sink calls `Named` once for each name it sees, the calls for two names are
different calls, and every `Accept`, the first for its name or a later one, also after earlier
ones panicked, ends as that one call did: the logging call on the logger it returned, or its panic,
replayed by `onceValue`. -/
theorem accept_replays_named (named : Nat → String → Except String (AnyLogger F))
    (xs : List HcMessage) :
    (∀ n, ((AnySink.init.acceptAll named xs).2.m n).isSome ↔ n ∈ xs.map HcMessage.name) ∧
      (∀ n n' k o o', (AnySink.init.acceptAll named xs).2.m n = some (k, o) →
        (AnySink.init.acceptAll named xs).2.m n' = some (k, o') → n = n') ∧
      List.Forall₂ (fun r x => ∃ k o, (AnySink.init.acceptAll named xs).2.m x.name = some (k, o) ∧
        r = finish (some ((named k x.name).mapError some)) x)
        (AnySink.init.acceptAll named xs).1 xs := by
  obtain ⟨hi, -, hdom, hrun⟩ := AnySink.acceptAll_spec xs (AnySink.inv_init named)
  exact ⟨fun n => by simpa [AnySink.init] using hdom n, hi.inj, hrun⟩

end ChainlinkRelay.Loop
