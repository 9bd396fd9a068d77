/-
A goroutine that runs alone. `Prog.RunsAlone` is the sequential run of a goroutine that makes
calls and reads shared variables, the runtime answering `ans` and the variables holding `vars`.
While the other goroutines stand still, a unit of an errgroup makes exactly this run: one step of
the system for each of its instructions, its calls appended to the trace in order, and at the end
the run's result as the unit's. A schedule of the system is then built from the sequential run of
each unit.
-/
import LocalCompose.Engine.Group

namespace Compose

namespace Prog

/-- `p.RunsAlone ans vars t a`: `p`, run alone with the runtime answering `ans` and the shared
variables holding `vars`, makes the calls `t` and returns `a`. -/
inductive RunsAlone (ans : Answers) (vars : List Container) {α : Type} : Prog α → List Exchange → α → Prop
  | pure (a : α) : RunsAlone ans vars (.pure a) [] a
  | call {c : Call} {k : c.Resp → Prog α} {t : List Exchange} {a : α} :
      RunsAlone ans vars (k (ans c)) t a → RunsAlone ans vars (.call c k) (⟨c, ans c⟩ :: t) a
  | getVar {i : Nat} {k : Container → Prog α} {t : List Exchange} {a : α} :
      RunsAlone ans vars (k (vars.getD i default)) t a → RunsAlone ans vars (.getVar i k) t a

theorem RunsAlone.panicked {α : Type} {ans : Answers} {vars : List Container} {p : Prog α} {t : List Exchange}
    {a : α} (h : p.RunsAlone ans vars t a) : p.panicked = false := by
  cases h <;> rfl

section Bind

variable {α : Type} {ans : Answers} {vars : List Container} {t : List Exchange} {a : α}

theorem RunsAlone.read_bind {i : Nat} {f : Container → Prog α}
    (h : (f (vars.getD i default)).RunsAlone ans vars t a) : (read i >>= f).RunsAlone ans vars t a :=
  .getVar h

theorem RunsAlone.send_bind {c : Call} {f : c.Resp → Prog α} (h : (f (ans c)).RunsAlone ans vars t a) :
    (send c >>= f).RunsAlone ans vars (⟨c, ans c⟩ :: t) a :=
  .call h

theorem RunsAlone.emit_bind {e : Event} {f : Unit → Prog α} (h : (f ()).RunsAlone ans vars t a) :
    (emit e >>= f).RunsAlone ans vars (⟨.event e, ()⟩ :: t) a :=
  .call h

end Bind

end Prog

namespace Sys

open Prog

theorem set_self_of_getElem? {α : Type _} {l : List α} {j : Nat} {a : α} (h : l[j]? = some a) : l.set j a = l :=
  List.ext_getElem? fun k => by
    rw [List.getElem?_set]
    by_cases hk : j = k
    · subst hk
      simp [(List.getElem?_eq_some_iff.1 h).1, h]
    · simp [hk]

/-- Setting a unit to a program that has not panicked keeps a system from crashing. -/
theorem crashed_of_set {s s' : Sys} (hs : s.crashed = false) {j : Nat} {v : Prog (Option Error)}
    (hv : v.panicked = false) (hm : s'.main = s.main) (hu : s'.units = s.units.set j v) : s'.crashed = false := by
  simp only [crashed, Bool.or_eq_false_iff, List.any_eq_false] at hs ⊢
  rw [hm, hu]
  refine ⟨hs.1, fun x hx => ?_⟩
  rcases List.mem_or_eq_of_mem_set hx with hx | rfl
  · exact hs.2 x hx
  · simp [hv]

/-- A unit that runs alone makes its sequential run: from a system that has not crashed, the
steps of the unit alone reach a system where it has returned the run's result, with the run's
calls appended to the trace, and the calling goroutine, the other units and the shared variables
as they were. -/
theorem reach_unit_alone {ans : Answers} {j : Nat} {u : Prog (Option Error)} {t : List Exchange}
    {a : Option Error} {s : Sys} (h : u.RunsAlone ans s.vars t a) (hu : s.units[j]? = some u)
    (hs : s.crashed = false) :
    ∃ s', ReachableWith ans s s' ∧ s'.main = s.main ∧ s'.vars = s.vars ∧
      s'.units = s.units.set j (.pure a) ∧ s'.trace = s.trace ++ t ∧ s'.crashed = false := by
  generalize hv : s.vars = vars at h
  induction h generalizing s with
  | pure b => exact ⟨s, .refl, rfl, hv, (set_self_of_getElem? hu).symm, by simp, hs⟩
  | @call c k t a h ih =>
    have hj : j < s.units.length := (List.getElem?_eq_some_iff.1 hu).1
    let s₁ : Sys := { s with trace := s.trace ++ [⟨c, ans c⟩], units := s.units.set j (k (ans c)),
                             err := s.err <|> failure (k (ans c)) }
    have hstep : s.step ans (.unit j) = some s₁ := by simp [s₁, step, hs, hu, stepProg]
    obtain ⟨s', hr, hm, hv', hus, ht, hc⟩ :=
      @ih s₁ (List.getElem?_set_self hj) (crashed_of_set hs h.panicked rfl rfl) hv
    exact ⟨s', .head ⟨.unit j, hstep⟩ hr, hm, hv', by simp [hus, s₁], by simp [ht, s₁], hc⟩
  | @getVar i k t a h ih =>
    subst hv
    have hj : j < s.units.length := (List.getElem?_eq_some_iff.1 hu).1
    let s₁ : Sys := { s with units := s.units.set j (k (s.vars.getD i default)),
                             err := s.err <|> failure (k (s.vars.getD i default)) }
    have hstep : s.step ans (.unit j) = some s₁ := by simp [s₁, step, hs, hu, stepProg]
    obtain ⟨s', hr, hm, hv', hus, ht, hc⟩ :=
      @ih s₁ (List.getElem?_set_self hj) (crashed_of_set hs h.panicked rfl rfl) rfl
    exact ⟨s', .head ⟨.unit j, hstep⟩ hr, hm, hv', by simp [hus, s₁], ht, hc⟩

end Sys

end Compose
