import ChainlinkRelay.Logger

/-!
# The hclog sink adapter

`HCLogLogger` hands go-plugin's hclog output to a `logger.Logger` through `hclSinkAdapter`. For
each hclog name, `Accept` takes the logger `Named(l, name)` from a `sync.Map`, where `onceValue`
built it on first use, and makes the sugared logging call of the message's level. Calls run one
after another here, so a stored `onceValue` stands for the logger it returns. The cache is
transparent: every run of `Accept` makes the calls that building `Named(l, name)` afresh for each
message would make, and the map ends up holding exactly the names seen.
-/

namespace ChainlinkRelay

inductive HcLevel where
  | noLevel
  | trace
  | debug
  | info
  | warn
  | error
  | off
  deriving DecidableEq, Repr

inductive LogCall where
  | debugw
  | infow
  | warnw
  | errorw
  deriving DecidableEq, Repr

/-- A sugared logging call as `Accept` makes it: the zap logger it goes to (the name zap writes
under and its context fields), the call, the message and the key-value pairs. What zap then
writes for it (its level filter, sampling, an entry for a key with no value) is zap's. -/
structure SugaredCall where
  name : String
  fields : List String
  call : LogCall
  msg : String
  keysAndValues : List String
  deriving DecidableEq, Repr

/-- `l.Debugw(msg, keysAndValues...)` and its siblings on the package's `*logger`. -/
def Logger.log (l : Logger) (call : LogCall) (msg : String) (keysAndValues : List String) :
    SugaredCall :=
  ⟨l.sugared.name, l.sugared.fields, call, msg, keysAndValues⟩

namespace Loop

structure HcMessage where
  name : String
  level : HcLevel
  msg : String
  args : List String

/-- `hclSinkAdapter`: the wrapped logger, the `sync.Map` from hclog names to the loggers built for
them, and the logging calls made so far. -/
structure HclSinkAdapter where
  l : Logger
  m : String → Option Logger
  calls : List SugaredCall

def hcLogLogger (l : Logger) : HclSinkAdapter := ⟨l, fun _ => none, []⟩

namespace HclSinkAdapter

def named (h : HclSinkAdapter) (name : String) : Logger × HclSinkAdapter :=
  match h.m name with
  | some l => (l, h)
  | none =>
    let l := Logger.named h.l name
    (l, { h with m := fun n => if n = name then some l else h.m n })

/-- The call `Accept` makes at each level; `NoLevel` and `Off` write nothing. -/
def callAt : HcLevel → Option LogCall
  | .noLevel => none
  | .debug | .trace => some .debugw
  | .info => some .infow
  | .warn => some .warnw
  | .error => some .errorw
  | .off => none

def accept (h : HclSinkAdapter) (name : String) (level : HcLevel) (msg : String)
    (args : List String) : HclSinkAdapter :=
  let (l, h) := h.named name
  match callAt level with
  | none => h
  | some call => { h with calls := h.calls ++ [l.log call msg args] }

def acceptAll (h : HclSinkAdapter) : List HcMessage → HclSinkAdapter
  | [] => h
  | x :: xs => (h.accept x.name x.level x.msg x.args).acceptAll xs

/-- The call an adapter that builds `Named(l, name)` afresh for each message makes for it. -/
def expected (l : Logger) (x : HcMessage) : Option SugaredCall :=
  (callAt x.level).map fun call => (Logger.named l x.name).log call x.msg x.args

def Coherent (h : HclSinkAdapter) : Prop := ∀ n l, h.m n = some l → l = Logger.named h.l n

/-! ## One message -/

section Step

variable {h : HclSinkAdapter} (hc : h.Coherent)
include hc

theorem named_eq (name : String) :
    h.named name = (Logger.named h.l name, { h with
      m := fun n => if n = name then some (Logger.named h.l name) else h.m n }) := by
  unfold named
  split
  · next l hl =>
    obtain rfl := hc name l hl
    have hm : (fun n => if n = name then some (Logger.named h.l name) else h.m n) = h.m := by
      funext n
      split_ifs with hn
      · rw [hn, hl]
      · rfl
    rw [hm]
  · rfl

theorem accept_eq (name : String) (level : HcLevel) (msg : String) (args : List String) :
    h.accept name level msg args = { h with
      m := fun n => if n = name then some (Logger.named h.l name) else h.m n,
      calls := h.calls ++ (expected h.l ⟨name, level, msg, args⟩).toList } := by
  simp only [accept, named_eq hc, expected]
  cases callAt level <;> simp

theorem coherent_accept (name : String) (level : HcLevel) (msg : String) (args : List String) :
    (h.accept name level msg args).Coherent := by
  rw [accept_eq hc]
  intro n l hl
  dsimp only at hl
  split_ifs at hl with hn
  · subst hn
    exact (Option.some.inj hl).symm
  · exact hc n l hl

end Step

/-! ## Runs -/

theorem acceptAll_eq {h : HclSinkAdapter} (hc : h.Coherent) (xs : List HcMessage) :
    h.acceptAll xs = { h with
      m := fun n => if n ∈ xs.map HcMessage.name then some (Logger.named h.l n) else h.m n,
      calls := h.calls ++ xs.filterMap (expected h.l) } := by
  induction xs generalizing h with
  | nil => simp [acceptAll]
  | cons x xs ih =>
    rw [acceptAll, ih (coherent_accept hc _ _ _ _), accept_eq hc]
    congr 1
    · funext n
      by_cases hn : n = x.name <;> simp [hn]
    · cases hx : expected h.l x <;> simp [List.filterMap_cons, hx]

end HclSinkAdapter

end Loop
end ChainlinkRelay
