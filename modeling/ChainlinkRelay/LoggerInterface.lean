import ChainlinkRelay.Logger

/-!
# The logger's interface functions

`With`, `Named` and `Helper` take any `Logger`. On a `*logger` the type switch calls its own
method; on a value of another type they look a method of that name up by reflection, call it,
and return its result when that is one value holding a non-nil `Logger`, and the logger itself
otherwise. Their comments say so, and say nothing of panics, but reflection checks the arguments
only when it calls the method, and the method runs with whatever receiver it has: the functions
panic on a nil logger, on a nil `*logger`, on a method whose signature cannot take the argument,
and when the method itself panics (`interface_functions_panic_iff`). Foreign methods are pure
functions of their arguments here. On the package's own loggers, any sequence of calls computes
what the `*logger`'s methods compute (`run_logger`). The `Critical` functions are modelled by the
call they make; what the callee then does (zap's `DPanic` panics in development mode) is its own.
-/

namespace ChainlinkRelay

/-- The types of the arguments the interface functions pass and of the parameters of a method
reflection finds: `string`, `int`, `interface {}`, a slice, or another defined type, to which
none of those arguments is assignable. -/
inductive GoType where
  | string
  | int
  | any
  | slice (elem : GoType)
  | named (name : String)
  deriving DecidableEq, Repr

namespace GoType

def toString : GoType → String
  | string => "string"
  | int => "int"
  | any => "interface \x7b\x7d"
  | slice e => "[]" ++ e.toString
  | named n => n

def AssignableTo (x t : GoType) : Prop := x = t ∨ t = any

instance (x t : GoType) : Decidable (x.AssignableTo t) := inferInstanceAs (Decidable (_ ∨ _))

end GoType

/-- A method's signature: the parameters before the variadic one (all of them when there is
none), the element type `T` of a final `...T`, and the results. -/
structure Signature where
  fixed : List GoType
  variadic : Option GoType
  results : List GoType
  deriving DecidableEq, Repr

/-! ## Reflect's call checks -/

def usingMismatch (op : String) : List GoType → List GoType → Option String
  | x :: xs, p :: ps =>
    if x.AssignableTo p then usingMismatch op xs ps
    else some ("reflect: " ++ op ++ " using " ++ x.toString ++ " as type " ++ p.toString)
  | _, _ => none

def arityMismatch (op : String) (ins ps : List GoType) : Option String :=
  if ins.length < ps.length then some ("reflect: " ++ op ++ " with too few input arguments")
  else if ps.length < ins.length then some ("reflect: " ++ op ++ " with too many input arguments")
  else usingMismatch op ins ps

def cannotUse (op : String) (e : GoType) : List GoType → Option String
  | [] => none
  | x :: xs =>
    if x.AssignableTo e then cannotUse op e xs
    else some ("reflect: cannot use " ++ x.toString ++ " as type " ++ e.toString ++ " in " ++ op)

/-- The panic of reflect's `Value.CallSlice` (`isSlice`) or `Value.Call` on arguments of the types
`ins`, or `none` when it calls the method. `CallSlice` passes its last argument as the variadic
slice itself; `Call` packs the arguments after the fixed parameters into it. -/
def Signature.callPanic (t : Signature) (isSlice : Bool) (ins : List GoType) : Option String :=
  match isSlice, t.variadic with
  | true, none => some "reflect: CallSlice of non-variadic function"
  | true, some e => arityMismatch "CallSlice" ins (t.fixed ++ [.slice e])
  | false, none => arityMismatch "Call" ins t.fixed
  | false, some e =>
    if ins.length < t.fixed.length then some "reflect: Call with too few input arguments"
    else (usingMismatch "Call" ins t.fixed).orElse fun _ =>
      cannotUse "Call" e (ins.drop t.fixed.length)

/-- The signature takes one argument of type `x`: one parameter that `x` is assignable to,
possibly followed by a variadic one, or only a variadic one whose elements `x` is assignable
to. -/
def Signature.Takes (t : Signature) (x : GoType) : Prop :=
  (∃ p, t.fixed = [p] ∧ x.AssignableTo p) ∨
    (t.fixed = [] ∧ ∃ e, t.variadic = some e ∧ x.AssignableTo e)

theorem callPanic_single_eq_none_iff (t : Signature) (x : GoType) :
    t.callPanic false [x] = none ↔ t.Takes x := by
  obtain ⟨fixed, variadic, results⟩ := t
  rcases fixed with _ | ⟨p, _ | ⟨q, ps⟩⟩ <;> cases variadic <;>
    simp [Signature.callPanic, Signature.Takes, arityMismatch, usingMismatch, cannotUse]

theorem callPanic_anys_eq_none_iff (t : Signature) :
    t.callPanic true [.slice .any] = none ↔ t.fixed = [] ∧ t.variadic = some .any := by
  obtain ⟨fixed, variadic, results⟩ := t
  rcases variadic with _ | e
  · simp [Signature.callPanic]
  · rcases fixed with _ | ⟨p, ps⟩
    · by_cases h : e = .any
      · simp [Signature.callPanic, arityMismatch, usingMismatch, GoType.AssignableTo, h]
      · simp [Signature.callPanic, arityMismatch, usingMismatch, GoType.AssignableTo, h, Ne.symm h]
    · simp [Signature.callPanic, arityMismatch]

/-! ## Interface values -/

inductive Arg where
  | string (s : String)
  | int (i : Int)
  | anys (xs : List String)
  deriving DecidableEq, Repr

def Arg.type : Arg → GoType
  | .string _ => .string
  | .int _ => .int
  | .anys _ => .slice .any

/-- The dynamic value of a non-nil `Logger`: one of the package's `*logger`s, a nil `*logger`, or
a value of another type, from `F`. -/
inductive Impl (F : Type) where
  | logger (l : Logger)
  | nilLogger
  | foreign (f : F)
  deriving DecidableEq, Repr

/-- A value of the interface type `Logger`; nil is `none`. -/
abbrev AnyLogger (F : Type) := Option (Impl F)

/-- A method reflection found on a value of another type: its signature, and how a call that
reflection lets through ends, the method's own panic or its results, each as the `Logger` it
holds if it holds a non-nil one. -/
structure Method (F : Type) where
  sig : Signature
  call : List Arg → Except String (List (Option (Impl F)))
  length_call : ∀ args rs, call args = .ok rs → rs.length = sig.results.length

abbrev Methods (F : Type) := F → String → Option (Method F)

namespace AnyLogger

variable {F : Type}

def zeroValuePanic : String := "reflect: call of reflect.Value.MethodByName on zero Value"

def nilDereferencePanic : String :=
  "runtime error: invalid memory address or nil pointer dereference"

/-- What `With`, `Named` and `Helper` share: the type switch to the `*logger`'s own method `own`,
and otherwise the method `name` found by reflection, called with `args` through `CallSlice` when
`isSlice` and through `Call` otherwise, whose result is kept when it is one `Logger`. -/
def dispatch (R : Methods F) (own : Logger → Logger) (name : String) (isSlice : Bool)
    (args : List Arg) : AnyLogger F → Except String (AnyLogger F)
  | some (.logger t) => .ok (some (.logger (own t)))
  | some .nilLogger => .error nilDereferencePanic
  | none => .error zeroValuePanic
  | some (.foreign f) =>
    match R f name with
    | none => .ok (some (.foreign f))
    | some m =>
      match m.sig.callPanic isSlice (args.map Arg.type) with
      | some p => .error p
      | none =>
        match m.call args with
        | .error p => .error p
        | .ok [some nl] => .ok (some nl)
        | .ok _ => .ok (some (.foreign f))

def «with» (R : Methods F) (l : AnyLogger F) (keyvals : List String) :
    Except String (AnyLogger F) :=
  dispatch R (fun t => t.with keyvals) "With" true [.anys keyvals] l

def named (R : Methods F) (l : AnyLogger F) (n : String) : Except String (AnyLogger F) :=
  dispatch R (fun t => t.named n) "Named" false [.string n] l

def helper (R : Methods F) (l : AnyLogger F) (skip : Int) : Except String (AnyLogger F) :=
  dispatch R (fun t => t.helper skip) "Helper" false [.int skip] l

def apply (R : Methods F) (l : AnyLogger F) : Op → Except String (AnyLogger F)
  | .named n => named R l n
  | .«with» kv => «with» R l kv
  | .helper skip => helper R l skip

def run (R : Methods F) (l : AnyLogger F) : List Op → Except String (AnyLogger F)
  | [] => .ok l
  | o :: ops =>
    match apply R l o with
    | .error p => .error p
    | .ok l' => run R l' ops

/-! ## The package's own loggers -/

theorem apply_logger (R : Methods F) (t : Logger) (o : Op) :
    apply R (some (.logger t)) o = .ok (some (.logger (o.apply t))) := by
  cases o <;> rfl

/-- Any sequence of `With`, `Named` and `Helper` calls on one of the package's loggers stays a
`*logger` and computes what its own methods compute. -/
theorem run_logger (R : Methods F) (t : Logger) (ops : List Op) :
    run R (some (.logger t)) ops = .ok (some (.logger (Op.run t ops))) := by
  induction ops generalizing t with
  | nil => rfl
  | cons o ops ih => simp only [run, apply_logger, ih, Op.run]

/-! ## When the interface functions panic -/

theorem dispatch_panics_iff (R : Methods F) (own : Logger → Logger) (name : String)
    (isSlice : Bool) (args : List Arg) (l : AnyLogger F) :
    (∃ p, dispatch R own name isSlice args l = .error p) ↔
      l = none ∨ l = some .nilLogger ∨ ∃ f m, l = some (.foreign f) ∧ R f name = some m ∧
        (m.sig.callPanic isSlice (args.map Arg.type) ≠ none ∨ ∃ p, m.call args = .error p) := by
  rcases l with _ | t | _ | f
  · simp [dispatch]
  · simp [dispatch]
  · simp [dispatch]
  · simp only [dispatch, reduceCtorEq, Option.some.injEq, Impl.foreign.injEq, false_or,
      exists_and_left, exists_eq_left']
    cases R f name with
    | none => simp
    | some m =>
      simp only [Option.some.injEq, exists_eq_left']
      cases m.sig.callPanic isSlice (args.map Arg.type) with
      | some p => simp
      | none =>
        simp only [ne_eq, not_true_eq_false, false_or]
        rcases m.call args with p | rs
        · simp
        · simp only [reduceCtorEq, exists_false, iff_false]
          rcases rs with _ | ⟨_ | nl, _ | _⟩ <;> simp

/-- Where their comments say the logger comes back unchanged, `With`, `Named` and `Helper` panic:
on a nil logger, on a nil `*logger`, on a value whose type has a method of that name that
reflection cannot call with the argument (a `With` that is not `With(...interface{})`, a `Named`
or `Helper` that cannot take one `string` or one `int`), and when that method panics. -/
theorem interface_functions_panic_iff (R : Methods F) (l : AnyLogger F) (keyvals : List String)
    (n : String) (skip : Int) :
    ((∃ p, «with» R l keyvals = .error p) ↔ l = none ∨ l = some .nilLogger ∨
      ∃ f m, l = some (.foreign f) ∧ R f "With" = some m ∧
        (¬(m.sig.fixed = [] ∧ m.sig.variadic = some .any) ∨ ∃ p, m.call [.anys keyvals] = .error p)) ∧
    ((∃ p, named R l n = .error p) ↔ l = none ∨ l = some .nilLogger ∨
      ∃ f m, l = some (.foreign f) ∧ R f "Named" = some m ∧
        (¬m.sig.Takes .string ∨ ∃ p, m.call [.string n] = .error p)) ∧
    ((∃ p, helper R l skip = .error p) ↔ l = none ∨ l = some .nilLogger ∨
      ∃ f m, l = some (.foreign f) ∧ R f "Helper" = some m ∧
        (¬m.sig.Takes .int ∨ ∃ p, m.call [.int skip] = .error p)) := by
  refine ⟨?_, ?_, ?_⟩
  · simpa only [«with», ne_eq, List.map, Arg.type, callPanic_anys_eq_none_iff] using
      dispatch_panics_iff R (fun t => t.with keyvals) "With" true [.anys keyvals] l
  · simpa only [named, ne_eq, List.map, Arg.type, callPanic_single_eq_none_iff] using
      dispatch_panics_iff R (fun t => t.named n) "Named" false [.string n] l
  · simpa only [helper, ne_eq, List.map, Arg.type, callPanic_single_eq_none_iff] using
      dispatch_panics_iff R (fun t => t.helper skip) "Helper" false [.int skip] l

example : «with» (fun (_ : Unit) name =>
      if name = "With" then some ⟨⟨[.slice .any], none, [.named "Logger"]⟩, fun _ => .ok [none],
        fun _ _ h => by cases h; rfl⟩ else none)
    (some (.foreign ())) ["k", "v"] = .error "reflect: CallSlice of non-variadic function" := rfl

/-! ## Critical -/

/-- The call the `Critical` functions make: the method, of the logger's own value, and its
arguments. What the method then does is the callee's: zap's `DPanic` writes, and then panics on a
logger built in development mode. -/
structure LogCallOn (F : Type) where
  target : Impl F
  method : String
  args : List String

def implements (R : Methods F) (f : F) (name : String) (sig : Signature) : Bool :=
  match R f name with
  | some m => m.sig = sig
  | none => false

/-- What the three `Critical` functions share: the `*logger`'s zap method `own`, the other type's
method `crit` when it implements it with signature `sig`, and otherwise that type's method
`fallback` with `fallbackArgs`. -/
def criticalVia (R : Methods F) (own crit fallback : String) (sig : Signature)
    (args fallbackArgs : List String) : AnyLogger F → Except String (LogCallOn F)
  | some (.logger t) => .ok ⟨.logger t, own, args⟩
  | some .nilLogger => .error nilDereferencePanic
  | some (.foreign f) =>
    if implements R f crit sig then .ok ⟨.foreign f, crit, args⟩
    else .ok ⟨.foreign f, fallback, fallbackArgs⟩
  | none => .error nilDereferencePanic

def critical (R : Methods F) (l : AnyLogger F) (args : List String) :
    Except String (LogCallOn F) :=
  criticalVia R "DPanic" "Critical" "Error" ⟨[], some .any, []⟩ args ("[crit] " :: args) l

def criticalf (R : Methods F) (l : AnyLogger F) (format : String) (values : List String) :
    Except String (LogCallOn F) :=
  criticalVia R "DPanicf" "Criticalf" "Errorf" ⟨[.string], some .any, []⟩ (format :: values)
    (("[crit] " ++ format) :: values) l

def criticalw (R : Methods F) (l : AnyLogger F) (msg : String) (keysAndValues : List String) :
    Except String (LogCallOn F) :=
  criticalVia R "DPanicw" "Criticalw" "Errorw" ⟨[.string], some .any, []⟩ (msg :: keysAndValues)
    (("[crit] " ++ msg) :: keysAndValues) l

end AnyLogger

end ChainlinkRelay
