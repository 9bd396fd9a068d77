/-
The interleaving meaning of a function that runs an errgroup: the calling goroutine and the
units it started with `eg.Go` take steps in any order, each call answered by the runtime however
it likes. `eg.Wait` moves on only once every unit has returned, with the group's first error; a
panic in any goroutine stops the whole system. The join discipline `Prog.Joins` (every return
after an `eg.Go` comes after an `eg.Wait`) makes a function return only after all its units have
finished, over every run.
-/
import LocalCompose.Engine.Prog
import Mathlib.Logic.Relation

namespace Compose

/-- The state of one call of a function with an errgroup: the calling goroutine, the units it
started (in order), the group's first error, the shared variables, and the calls made so far. -/
structure Sys where
  main : Prog (Option Error)
  units : List (Prog (Option Error))
  err : Option Error
  vars : List Container
  trace : List Exchange

namespace Sys

/-- The system of a call of `p`, before its first step. -/
def init (p : Prog (Option Error)) : Sys := ⟨p, [], none, [], []⟩

/-- A goroutine of the system. -/
inductive Thread where
  | main
  | unit (i : Nat)
  deriving DecidableEq, Repr

/-- A unit's error, once it has returned one. -/
def failure : Prog (Option Error) → Option Error
  | .pure e => e
  | _ => none

/-- Whether some goroutine has panicked. -/
def crashed (s : Sys) : Bool := s.main.panicked || s.units.any Prog.panicked

/-- One step of a goroutine running `p` against the shared part of `s`: its next program and
the system after it. `none` when `p` has returned, panicked, or waits for a unit. -/
def stepProg (ans : Answers) (s : Sys) : Prog (Option Error) → Option (Prog (Option Error) × Sys)
  | .pure _ => none
  | .panic _ => none
  | .call c k => some (k (ans c), { s with trace := s.trace ++ [⟨c, ans c⟩] })
  | .go u k => some (k, { s with units := s.units ++ [u] })
  | .wait k => if s.units.all (·.result?.isSome) then some (k s.err, s) else none
  | .newVar v k => some (k s.vars.length, { s with vars := s.vars ++ [v] })
  | .setVar i v k => some (k, { s with vars := s.vars.set i v })
  | .getVar i k => some (k (s.vars.getD i default), s)

/-- One step of the system, by the goroutine `th`. -/
def step (ans : Answers) (s : Sys) : Thread → Option Sys
  | .main => if s.crashed then none else
      (stepProg ans s s.main).map fun (m, s') => { s' with main := m }
  | .unit i => if s.crashed then none else
      match s.units[i]? with
      | none => none
      | some u => (stepProg ans s u).map fun (u', s') =>
          { s' with units := s'.units.set i u', err := s'.err <|> failure u' }

/-- `s'` follows `s` by one step of some goroutine, for some answer of the runtime. -/
def Step (s s' : Sys) : Prop := ∃ ans th, s.step ans th = some s'

/-- The systems a run can reach. -/
def Reachable (s s' : Sys) : Prop := Relation.ReflTransGen Step s s'

/-- What a step of the calling goroutine can do. -/
theorem step_main_inv {ans : Answers} {s s' : Sys} (h : s.step ans .main = some s') :
    ∃ m s₁, stepProg ans s s.main = some (m, s₁) ∧ s' = { s₁ with main := m } := by
  simp only [step] at h
  split at h
  · cases h
  · obtain ⟨⟨m, s₁⟩, hm, rfl⟩ := Option.map_eq_some'.1 h
    exact ⟨m, s₁, hm, rfl⟩

/-- What a step of the unit `i` can do. -/
theorem step_unit_inv {ans : Answers} {s s' : Sys} {i : Nat} (h : s.step ans (.unit i) = some s') :
    ∃ u u' s₁, s.units[i]? = some u ∧ stepProg ans s u = some (u', s₁) ∧
      s' = { s₁ with units := s₁.units.set i u', err := s₁.err <|> failure u' } := by
  simp only [step] at h
  split at h
  · cases h
  · cases hu : s.units[i]? with
    | none => rw [hu] at h; cases h
    | some u =>
      rw [hu] at h
      obtain ⟨⟨u', s₁⟩, hs, rfl⟩ := Option.map_eq_some'.1 h
      exact ⟨u, u', s₁, rfl, hs, rfl⟩

/-- The steps of the goroutines `ths` in turn, with the answers `ans`. -/
def run (ans : Answers) : List Thread → Sys → Option Sys
  | [], s => some s
  | th :: ths, s => (s.step ans th).bind (run ans ths)

/-- Whether the run of `ths` goes through and ends in a system satisfying `p`. -/
def runCheck (ans : Answers) (ths : List Thread) (s : Sys) (p : Sys → Bool) : Bool :=
  match run ans ths s with
  | some s' => p s'
  | none => false

/-- The systems a run reaches when the runtime answers every call as `ans` does. -/
def ReachableWith (ans : Answers) (s s' : Sys) : Prop :=
  Relation.ReflTransGen (fun s s' => ∃ th, s.step ans th = some s') s s'

theorem ReachableWith.reachable {ans : Answers} {s s' : Sys} (h : ReachableWith ans s s') : Reachable s s' :=
  Relation.ReflTransGen.mono (fun _ _ ⟨th, h⟩ => ⟨ans, th, h⟩) h

theorem run_reachable (ans : Answers) :
    ∀ (ths : List Thread) (s s' : Sys), run ans ths s = some s' → ReachableWith ans s s'
  | [], s, s', h => by cases h; exact .refl
  | th :: ths, s, s', h => by
    simp only [run, Option.bind_eq_some] at h
    obtain ⟨s₁, h₁, h₂⟩ := h
    exact .head ⟨th, h₁⟩ (run_reachable ans ths s₁ s' h₂)

/-- A run that goes through exhibits a system the runtime `ans` lets the goroutines reach. -/
theorem exists_of_runCheck {ans : Answers} {ths : List Thread} {s : Sys} {p : Sys → Bool}
    (h : runCheck ans ths s p = true) : ∃ s', ReachableWith ans s s' ∧ p s' = true := by
  unfold runCheck at h
  split at h
  · exact ⟨_, run_reachable ans ths s _ ‹_›, h⟩
  · cases h

/-- An invariant of every step holds of every system a run reaches. -/
theorem Reachable.induction {P : Sys → Prop} (hstep : ∀ s s', P s → Step s s' → P s')
    {s s' : Sys} (h : Reachable s s') (hs : P s) : P s' := by
  induction h with
  | refl => exact hs
  | tail _ hst ih => exact hstep _ _ ih hst

/-! ## The join discipline -/

/-- A unit that has returned. -/
def Finished (u : Prog (Option Error)) : Prop := u.result?.isSome

instance : DecidablePred Finished := fun u => inferInstanceAs (Decidable (u.result?.isSome = true))

end Sys

namespace Prog

/-- `p.Joins b`: `p` returns only after an `eg.Wait` that follows its last `eg.Go`; `b` says that
some unit was started since the last `eg.Wait`. -/
inductive Joins {α : Type} : Bool → Prog α → Prop
  | pure (a : α) : Joins false (.pure a)
  | panic (m : String) (b : Bool) : Joins b (.panic m)
  | call {c : Call} {k : c.Resp → Prog α} {b : Bool} : (∀ r, Joins b (k r)) → Joins b (.call c k)
  | go {u : Prog (Option Error)} {k : Prog α} {b : Bool} : Joins true k → Joins b (.go u k)
  | wait {k : Option Error → Prog α} {b : Bool} : (∀ e, Joins false (k e)) → Joins b (.wait k)
  | newVar {v : Container} {k : Nat → Prog α} {b : Bool} : (∀ i, Joins b (k i)) → Joins b (.newVar v k)
  | setVar {i : Nat} {v : Container} {k : Prog α} {b : Bool} : Joins b k → Joins b (.setVar i v k)
  | getVar {i : Nat} {k : Container → Prog α} {b : Bool} : (∀ v, Joins b (k v)) → Joins b (.getVar i k)

/-- `p` never waits on its errgroup. -/
inductive NoWait {α : Type} : Prog α → Prop
  | pure (a : α) : NoWait (.pure a)
  | panic (m : String) : NoWait (.panic m)
  | call {c : Call} {k : c.Resp → Prog α} : (∀ r, NoWait (k r)) → NoWait (.call c k)
  | go {u : Prog (Option Error)} {k : Prog α} : NoWait k → NoWait (.go u k)
  | newVar {v : Container} {k : Nat → Prog α} : (∀ i, NoWait (k i)) → NoWait (.newVar v k)
  | setVar {i : Nat} {v : Container} {k : Prog α} : NoWait k → NoWait (.setVar i v k)
  | getVar {i : Nat} {k : Container → Prog α} : (∀ v, NoWait (k v)) → NoWait (.getVar i k)

theorem NoWait.bind {α β : Type} {p : Prog α} {f : α → Prog β} (hp : p.NoWait) (hf : ∀ a, (f a).NoWait) :
    (p >>= f).NoWait := by
  induction hp with
  | pure a => exact hf a
  | panic m => exact .panic m
  | call _ ih => exact .call ih
  | go _ ih => exact .go ih
  | newVar _ ih => exact .newVar ih
  | setVar _ ih => exact .setVar ih
  | getVar _ ih => exact .getVar ih

/-- A stretch without `eg.Wait` followed by a joining continuation joins. -/
theorem NoWait.joins_bind {α β : Type} {p : Prog α} {f : α → Prog β} (hp : p.NoWait)
    (hf : ∀ a b, (f a).Joins b) : ∀ b, (p >>= f).Joins b := by
  induction hp with
  | pure a => exact hf a
  | panic m => exact fun b => .panic m b
  | call _ ih => exact fun b => .call fun r => ih r b
  | go _ ih => exact fun _ => .go (ih true)
  | newVar _ ih => exact fun b => .newVar fun i => ih i b
  | setVar _ ih => exact fun b => .setVar (ih b)
  | getVar _ ih => exact fun b => .getVar fun v => ih v b

theorem joins_waitGroup (b : Bool) : (waitGroup : Prog (Option Error)).Joins b := .wait fun e => .pure e

end Prog

namespace Sys

/-- What a step of the calling goroutine does to the join flag: a step that leaves no unit
started since the last wait either keeps the units, all finished, or kept them before. -/
theorem stepProg_joins {ans : Answers} {s s' : Sys} {b : Bool} {p p' : Prog (Option Error)}
    (hp : p.Joins b) (h : stepProg ans s p = some (p', s')) :
    ∃ b', p'.Joins b' ∧ (b' = false → (b = false ∨ ∀ u ∈ s.units, Finished u) ∧ s'.units = s.units) := by
  cases hp with
  | pure a => cases h
  | panic m b => cases h
  | call hk => cases h; exact ⟨b, hk _, fun hb => ⟨.inl hb, rfl⟩⟩
  | go hk => cases h; exact ⟨true, hk, fun h => nomatch h⟩
  | wait hk =>
    simp only [stepProg] at h
    split at h
    · rename_i hall
      cases h
      exact ⟨false, hk _, fun _ => ⟨.inr fun u hu => by simpa using List.all_eq_true.1 hall u hu, rfl⟩⟩
    · cases h
  | newVar hk => cases h; exact ⟨b, hk _, fun hb => ⟨.inl hb, rfl⟩⟩
  | setVar hk => cases h; exact ⟨b, hk, fun hb => ⟨.inl hb, rfl⟩⟩
  | getVar hk => cases h; exact ⟨b, hk _, fun hb => ⟨.inl hb, rfl⟩⟩

theorem stepProg_main {ans : Answers} {s s' : Sys} {p p' : Prog (Option Error)}
    (h : stepProg ans s p = some (p', s')) : s'.main = s.main := by
  cases p with
  | pure => cases h
  | panic => cases h
  | wait k => simp only [stepProg] at h; split at h <;> cases h; rfl
  | _ => cases h; rfl

theorem stepProg_finished {ans : Answers} {s : Sys} {u : Prog (Option Error)} (hu : Finished u) :
    stepProg ans s u = none := by
  cases u <;> simp_all [Finished, Prog.result?, stepProg]

/-- The join invariant: the calling goroutine joins, and when it has started no unit since its
last wait, every unit has finished. -/
def JoinInv (s : Sys) : Prop := ∃ b, s.main.Joins b ∧ (b = false → ∀ u ∈ s.units, Finished u)

theorem joinInv_step (s s' : Sys) (hi : JoinInv s) (hs : Step s s') : JoinInv s' := by
  obtain ⟨b, hj, hf⟩ := hi
  obtain ⟨ans, th, h⟩ := hs
  cases th with
  | main =>
    obtain ⟨m, s₁, hm, rfl⟩ := step_main_inv h
    obtain ⟨b', hj', hb'⟩ := stepProg_joins hj hm
    refine ⟨b', hj', fun h0 => ?_⟩
    obtain ⟨hold, hunits⟩ := hb' h0
    rw [hunits]
    exact hold.elim hf id
  | unit i =>
    obtain ⟨u, u', s₁, hu, hstep, rfl⟩ := step_unit_inv h
    cases b with
    | false => rw [stepProg_finished (hf rfl u (List.getElem?_mem hu))] at hstep; cases hstep
    | true => exact ⟨true, (stepProg_main hstep).symm ▸ hj, fun h => nomatch h⟩

/-- A function whose program joins returns only after every unit it started has finished, in
every run and for every answer of the runtime. -/
theorem joins_returns_after_units {p : Prog (Option Error)} (hp : p.Joins false) {s : Sys}
    (h : Reachable (init p) s) (hret : (s.main.result?).isSome) : ∀ u ∈ s.units, Finished u := by
  obtain ⟨b, hj, hf⟩ := Reachable.induction joinInv_step h ⟨false, hp, fun _ u hu => nomatch hu⟩
  cases hm : s.main with
  | pure a => rw [hm] at hj; cases hj; exact hf rfl
  | _ => rw [hm] at hret; cases hret

end Sys

end Compose
