import Mathlib.Data.List.Basic

/-!
# Logger names

`pkg/logger` pairs a zap `SugaredLogger` with the name that `Name()` reports. `named` and
`helper` rebuild the pair from the old one; `with` builds a fresh pair whose name is empty,
while zap's own logger keeps its name.
-/

namespace ChainlinkRelay

/-- The part of zap's `SugaredLogger` the wrapper reads and writes: the name zap prints, the
context fields added by `With`, and the caller skip added by `AddCallerSkip`. -/
structure SugaredLogger where
  name : String
  fields : List String
  callerSkip : Int
  deriving DecidableEq, Repr

namespace SugaredLogger

/-- zap's `Named`: an empty segment is ignored, any other is appended after a dot. -/
def named (s : SugaredLogger) (n : String) : SugaredLogger :=
  if n = "" then s else { s with name := if s.name = "" then n else s.name ++ "." ++ n }

def «with» (s : SugaredLogger) (args : List String) : SugaredLogger :=
  { s with fields := s.fields ++ args }

def withCallerSkip (s : SugaredLogger) (skip : Int) : SugaredLogger :=
  { s with callerSkip := s.callerSkip + skip }

def fresh : SugaredLogger := ⟨"", [], 0⟩

end SugaredLogger

/-- The package's `*logger`: the zap logger and the name `Name()` returns. -/
structure Logger where
  sugared : SugaredLogger
  name : String
  deriving DecidableEq, Repr

def joinName (old new : String) : String :=
  if old = "" then new else old ++ "." ++ new

namespace Logger

/-- `&logger{s, ""}`: how `New`, `Config.New`, `NewWith`, `Test`, `TestObserved` and `Nop`
wrap the zap logger they built. -/
def wrap (s : SugaredLogger) : Logger := ⟨s, ""⟩

def nop : Logger := wrap SugaredLogger.fresh

def «with» (l : Logger) (args : List String) : Logger := ⟨l.sugared.with args, ""⟩

def named (l : Logger) (name : String) : Logger :=
  { l with name := joinName l.name name, sugared := l.sugared.named name }

def helper (l : Logger) (skip : Int) : Logger := ⟨l.sugared.withCallerSkip skip, l.name⟩

@[simp] theorem with_name (l : Logger) (kv : List String) : (l.with kv).name = "" := rfl

@[simp] theorem named_name (l : Logger) (n : String) : (l.named n).name = joinName l.name n := rfl

@[simp] theorem helper_name (l : Logger) (skip : Int) : (l.helper skip).name = l.name := rfl

end Logger

inductive Op where
  | named (n : String)
  | «with» (keyvals : List String)
  | helper (skip : Int)
  deriving DecidableEq, Repr

namespace Op

def apply (l : Logger) : Op → Logger
  | named n => l.named n
  | «with» kv => l.with kv
  | helper skip => l.helper skip

def run (l : Logger) : List Op → Logger
  | [] => l
  | o :: ops => run (apply l o) ops

def namedArgs : List Op → List String
  | [] => []
  | named n :: ops => n :: namedArgs ops
  | _ :: ops => namedArgs ops

/-- The name segments the code keeps: `Named` appends one, `Helper` keeps them, `With` drops
them all. -/
def segments (xs : List String) : List Op → List String
  | [] => xs
  | named n :: ops => segments (xs ++ [n]) ops
  | «with» _ :: ops => segments [] ops
  | helper _ :: ops => segments xs ops

end Op

/-! ## Joined names -/

private theorem intercalate_go_append (acc s n : String) (xs : List String) :
    String.intercalate.go acc s (xs ++ [n]) = String.intercalate.go acc s xs ++ s ++ n := by
  induction xs generalizing acc with
  | nil => rfl
  | cons x xs ih => exact ih _

private theorem length_le_intercalate_go (acc s : String) (xs : List String) :
    acc.length ≤ (String.intercalate.go acc s xs).length := by
  induction xs generalizing acc with
  | nil => exact le_rfl
  | cons x xs ih => exact le_trans (by simp only [String.length_append]; omega) (ih _)

private theorem length_pos_of_ne_empty {x : String} (h : x ≠ "") : 0 < x.length := by
  rcases x with ⟨_ | ⟨c, cs⟩⟩
  · exact absurd rfl h
  · simp [String.length]

theorem joinName_intercalate {xs : List String} (hxs : ∀ x ∈ xs, x ≠ "") (n : String) :
    joinName (String.intercalate "." xs) n = String.intercalate "." (xs ++ [n]) := by
  cases xs with
  | nil => rfl
  | cons x xs =>
    have hlen : 0 < (String.intercalate "." (x :: xs)).length :=
      lt_of_lt_of_le (length_pos_of_ne_empty (hxs x (List.mem_cons_self _ _)))
        (length_le_intercalate_go x "." xs)
    have hne : String.intercalate "." (x :: xs) ≠ "" := fun h => by simp [h] at hlen
    rw [joinName, if_neg hne]
    exact (intercalate_go_append x "." n xs).symm

namespace Op

/-- What `Name()` reports after any sequence of calls: the `Named` segments since the last
`With`, joined with dots. -/
theorem run_name {ops : List Op} (hops : ∀ n ∈ namedArgs ops, n ≠ "") {l : Logger}
    {xs : List String} (hxs : ∀ x ∈ xs, x ≠ "") (hl : l.name = String.intercalate "." xs) :
    (run l ops).name = String.intercalate "." (segments xs ops) := by
  induction ops generalizing l xs with
  | nil => exact hl
  | cons o ops ih =>
    cases o with
    | named n =>
      have hn : n ≠ "" := hops n (List.mem_cons_self _ _)
      refine ih (fun m hm => hops m (List.mem_cons_of_mem _ hm)) ?_ ?_
      · simpa [or_imp, forall_and] using And.intro hxs hn
      · show joinName l.name n = _
        rw [hl, joinName_intercalate hxs]
    | «with» kv => exact ih hops (by simp) rfl
    | helper k => exact ih hops hxs hl

/-- From a constructor's logger, only the `Named` calls after the last `With` make up the name. -/
theorem run_wrap_name (s : SugaredLogger) {ops : List Op} (hops : ∀ n ∈ namedArgs ops, n ≠ "") :
    (run (Logger.wrap s) ops).name = String.intercalate "." (segments [] ops) :=
  run_name hops (by simp) rfl

theorem run_wrap_name_after_with :
    (∀ n ∈ namedArgs [named "a", «with» ["k", "v"], named "b", helper 1, named "c"], n ≠ "") ∧
      (run (Logger.wrap SugaredLogger.fresh)
          [named "a", «with» ["k", "v"], named "b", helper 1, named "c"]).name =
        String.intercalate "." (segments [] [named "a", «with» ["k", "v"], named "b", helper 1,
          named "c"]) :=
  ⟨by decide, run_wrap_name SugaredLogger.fresh (by decide)⟩

/-- `With` after `Named` resets the name: `Name()` of `With(Named(Nop(), "a"), "k", "v")` is
`""`, while the `Named` arguments joined with dots are `"a"`. -/
theorem with_after_named_forgets_name :
    (run Logger.nop [named "a", «with» ["k", "v"]]).name ≠
      String.intercalate "." (namedArgs [named "a", «with» ["k", "v"]]) := by decide

end Op

/-! ## Agreement with zap's name -/

namespace Logger

/-- `Name()` agrees with the name zap prints. -/
def Synced (l : Logger) : Prop := l.name = l.sugared.name

theorem named_synced {l : Logger} (h : l.Synced) {n : String} (hn : n ≠ "") :
    (l.named n).Synced := by
  simp only [Synced, named, joinName, SugaredLogger.named, if_neg hn] at h ⊢
  rw [h]

/-- `Named` keeps `Name()` and zap's name equal exactly when the segment is non-empty or the name
is still empty: `Named(l, "")` ends `Name()` with a dot that zap's name lacks. -/
theorem named_synced_iff {l : Logger} (h : l.Synced) (n : String) :
    (l.named n).Synced ↔ n ≠ "" ∨ l.name = "" := by
  by_cases hn : n = ""
  · subst hn
    have hdot : l.name ++ "." ≠ l.name := fun heq => by
      have hlen := congrArg String.length heq
      rw [String.length_append, show ".".length = 1 from rfl] at hlen
      omega
    unfold Synced at h ⊢
    by_cases hl : l.name = "" <;>
      simp [named, joinName, SugaredLogger.named, hl, hdot, ← h]
  · simp only [hn, ne_eq, not_false_eq_true, true_or, iff_true]
    exact named_synced h hn

theorem named_empty_after_named :
    (nop.named "a").Synced ∧ ((nop.named "a").named "").name = "a." ∧
      (((nop.named "a").named "").Synced ↔ "" ≠ "" ∨ (nop.named "a").name = "") :=
  have hs : (nop.named "a").Synced := @named_synced nop rfl "a" (by decide)
  ⟨hs, rfl, named_synced_iff hs ""⟩

theorem helper_synced {l : Logger} (h : l.Synced) (skip : Int) : (l.helper skip).Synced := h

end Logger

namespace Op

/-- Over any run of `Named` with non-empty segments and `Helper`, `Name()` keeps agreeing with
zap's name; only `With` separates them. -/
theorem run_synced {ops : List Op} (hops : ∀ o ∈ ops, ∀ kv, o ≠ «with» kv)
    (hnames : ∀ n ∈ namedArgs ops, n ≠ "") {l : Logger} (hl : l.Synced) : (run l ops).Synced := by
  induction ops generalizing l with
  | nil => exact hl
  | cons o ops ih =>
    have hops' : ∀ o ∈ ops, ∀ kv, o ≠ «with» kv := fun o ho => hops o (List.mem_cons_of_mem _ ho)
    cases o with
    | named n =>
      exact ih hops' (fun m hm => hnames m (List.mem_cons_of_mem _ hm))
        (Logger.named_synced hl (hnames n (List.mem_cons_self _ _)))
    | «with» kv => exact absurd rfl (hops _ (List.mem_cons_self _ _) kv)
    | helper k => exact ih hops' hnames (Logger.helper_synced hl k)

theorem run_synced_from_nop :
    (∀ o ∈ [named "a", helper 2, named "b"], ∀ kv, o ≠ «with» kv) ∧
      (∀ n ∈ namedArgs [named "a", helper 2, named "b"], n ≠ "") ∧ Logger.nop.Synced ∧
      (run Logger.nop [named "a", helper 2, named "b"]).Synced :=
  have hops : ∀ o ∈ [named "a", helper 2, named "b"], ∀ kv, o ≠ «with» kv := by simp
  ⟨hops, by decide, rfl, run_synced hops (by decide) rfl⟩

end Op
end ChainlinkRelay
