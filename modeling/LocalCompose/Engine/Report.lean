/-
What a function with an errgroup reports. `eg.Wait` answers the group's first error, which a
unit sets when it returns one. A function that returns `nil` only after a `Wait` that answered
`nil`, with no `eg.Go` since (`Prog.NilJoins`), and whose units start no unit of their own,
reports success only when every unit it started has returned `nil`: in every run, for every
answer of the runtime and every interleaving of the goroutines.
-/
import LocalCompose.Engine.Group

namespace Compose

namespace Prog

/-- `p` starts no unit. -/
inductive NoGo {α : Type} : Prog α → Prop
  | pure (a : α) : NoGo (.pure a)
  | panic (m : String) : NoGo (.panic m)
  | call {c : Call} {k : c.Resp → Prog α} : (∀ r, NoGo (k r)) → NoGo (.call c k)
  | wait {k : Option Error → Prog α} : (∀ e, NoGo (k e)) → NoGo (.wait k)
  | newVar {v : Container} {k : Nat → Prog α} : (∀ i, NoGo (k i)) → NoGo (.newVar v k)
  | setVar {i : Nat} {v : Container} {k : Prog α} : NoGo k → NoGo (.setVar i v k)
  | getVar {i : Nat} {k : Container → Prog α} : (∀ v, NoGo (k v)) → NoGo (.getVar i k)

theorem NoGo.bind {α β : Type} {p : Prog α} {f : α → Prog β} (hp : p.NoGo) (hf : ∀ a, (f a).NoGo) :
    (p >>= f).NoGo := by
  induction hp with
  | pure a => exact hf a
  | panic m => exact .panic m
  | call _ ih => exact .call ih
  | wait _ ih => exact .wait ih
  | newVar _ ih => exact .newVar ih
  | setVar _ ih => exact .setVar ih
  | getVar _ ih => exact .getVar ih

theorem noGo_send (c : Call) : (send c).NoGo := .call fun r => .pure r

theorem noGo_emit (e : Event) : (emit e).NoGo := .call fun _ => .pure ()

theorem noGo_read (i : Nat) : (read i).NoGo := .getVar fun v => .pure v

theorem Seq.noGo {α : Type} {p : Prog α} (hp : p.Seq) : p.NoGo := by
  induction hp with
  | pure a => exact .pure a
  | call _ ih => exact .call ih

/-- A unit as the errgroup's discipline needs it: it has not returned when it is started, and it
starts no unit. -/
def IsUnit (u : Prog (Option Error)) : Prop := u.result? = none ∧ u.NoGo

/-- `p` never waits, and every unit it starts is a unit. -/
inductive Starts {α : Type} : Prog α → Prop
  | pure (a : α) : Starts (.pure a)
  | panic (m : String) : Starts (.panic m)
  | call {c : Call} {k : c.Resp → Prog α} : (∀ r, Starts (k r)) → Starts (.call c k)
  | go {u : Prog (Option Error)} {k : Prog α} : u.IsUnit → Starts k → Starts (.go u k)
  | newVar {v : Container} {k : Nat → Prog α} : (∀ i, Starts (k i)) → Starts (.newVar v k)
  | setVar {i : Nat} {v : Container} {k : Prog α} : Starts k → Starts (.setVar i v k)
  | getVar {i : Nat} {k : Container → Prog α} : (∀ v, Starts (k v)) → Starts (.getVar i k)

theorem Starts.bind {α β : Type} {p : Prog α} {f : α → Prog β} (hp : p.Starts) (hf : ∀ a, (f a).Starts) :
    (p >>= f).Starts := by
  induction hp with
  | pure a => exact hf a
  | panic m => exact .panic m
  | call _ ih => exact .call ih
  | go hu _ ih => exact .go hu ih
  | newVar _ ih => exact .newVar ih
  | setVar _ ih => exact .setVar ih
  | getVar _ ih => exact .getVar ih

theorem Seq.starts {α : Type} {p : Prog α} (hp : p.Seq) : p.Starts := by
  induction hp with
  | pure a => exact .pure a
  | call _ ih => exact .call ih

/-- `p.NilJoins b`: `p` returns `nil` only after an `eg.Wait` that answered `nil` with no
`eg.Go` since, and every unit it starts is a unit. `b` says that returning `nil` now is not
allowed: a unit was started, or a wait answered an error, since the last wait that answered
`nil`. -/
inductive NilJoins : Bool → Prog (Option Error) → Prop
  | ok : NilJoins false (.pure none)
  | error (e : Error) (b : Bool) : NilJoins b (.pure (some e))
  | panic (m : String) (b : Bool) : NilJoins b (.panic m)
  | call {c : Call} {k : c.Resp → Prog (Option Error)} {b : Bool} :
      (∀ r, NilJoins b (k r)) → NilJoins b (.call c k)
  | go {u k : Prog (Option Error)} {b : Bool} : u.IsUnit → NilJoins true k → NilJoins b (.go u k)
  | wait {k : Option Error → Prog (Option Error)} {b : Bool} :
      NilJoins false (k none) → (∀ e, NilJoins true (k (some e))) → NilJoins b (.wait k)
  | newVar {v : Container} {k : Nat → Prog (Option Error)} {b : Bool} :
      (∀ i, NilJoins b (k i)) → NilJoins b (.newVar v k)
  | setVar {i : Nat} {v : Container} {k : Prog (Option Error)} {b : Bool} :
      NilJoins b k → NilJoins b (.setVar i v k)
  | getVar {i : Nat} {k : Container → Prog (Option Error)} {b : Bool} :
      (∀ v, NilJoins b (k v)) → NilJoins b (.getVar i k)

/-- Forbidding a `nil` return is the stronger condition. -/
theorem NilJoins.of_true {p : Prog (Option Error)} (hp : p.NilJoins true) : ∀ b, p.NilJoins b := by
  generalize ht : true = t at hp
  induction hp with
  | ok => cases ht
  | error e _ => exact fun b => .error e b
  | panic m _ => exact fun b => .panic m b
  | call _ ih => exact fun b => .call fun r => ih r ht b
  | go hu hk _ => exact fun _ => .go hu hk
  | wait h0 h1 _ _ => exact fun _ => .wait h0 h1
  | newVar _ ih => exact fun b => .newVar fun i => ih i ht b
  | setVar _ ih => exact fun b => .setVar (ih ht b)
  | getVar _ ih => exact fun b => .getVar fun v => ih v ht b

/-- A sequential stretch keeps what the continuation may return. -/
theorem Seq.nilJoins_bind {α : Type} {p : Prog α} {f : α → Prog (Option Error)} {b : Bool} (hp : p.Seq)
    (hf : ∀ a, (f a).NilJoins b) : (p >>= f).NilJoins b := by
  induction hp with
  | pure a => exact hf a
  | call _ ih => exact .call ih

/-- A stretch that starts units and does not wait, followed by a continuation that returns `nil`
only after a wait. -/
theorem Starts.nilJoins_bind {α : Type} {p : Prog α} {f : α → Prog (Option Error)} (hp : p.Starts)
    (hf : ∀ a, (f a).NilJoins true) : ∀ b, (p >>= f).NilJoins b := by
  induction hp with
  | pure a => exact (hf a).of_true
  | panic m => exact fun b => .panic m b
  | call _ ih => exact fun b => .call fun r => ih r b
  | go hu _ ih => exact fun _ => .go hu (ih true)
  | newVar _ ih => exact fun b => .newVar fun i => ih i b
  | setVar _ ih => exact fun b => .setVar (ih b)
  | getVar _ ih => exact fun b => .getVar fun v => ih v b

theorem nilJoins_waitGroup (b : Bool) : (waitGroup : Prog (Option Error)).NilJoins b :=
  .wait .ok fun e => .error e true

end Prog

namespace Sys

open Prog

/-- A unit that has not returned has no failure. -/
theorem failure_of_result?_eq_none {u : Prog (Option Error)} (hu : u.result? = none) : failure u = none := by
  cases u <;> first | rfl | cases hu

/-- A step of a program that starts no unit keeps the units and the group's error. -/
theorem stepProg_noGo {ans : Answers} {s s₁ : Sys} {u u' : Prog (Option Error)} (hu : u.NoGo)
    (h : stepProg ans s u = some (u', s₁)) : u'.NoGo ∧ s₁.units = s.units ∧ s₁.err = s.err := by
  cases hu with
  | pure => cases h
  | panic => cases h
  | call hk => cases h; exact ⟨hk _, rfl, rfl⟩
  | wait hk =>
    simp only [stepProg] at h
    split at h <;> cases h
    exact ⟨hk _, rfl, rfl⟩
  | newVar hk => cases h; exact ⟨hk _, rfl, rfl⟩
  | setVar hk => cases h; exact ⟨hk, rfl, rfl⟩
  | getVar hk => cases h; exact ⟨hk _, rfl, rfl⟩

/-- The invariant of the nil discipline: every unit starts no unit; while the group has no
error, no unit has returned one; and the calling goroutine keeps the discipline, with every unit
returned `nil` while a `nil` return is allowed. -/
structure NilInv (s : Sys) : Prop where
  units : ∀ u ∈ s.units, u.NoGo
  err : s.err = none → ∀ u ∈ s.units, failure u = none
  main : ∃ b, s.main.NilJoins b ∧ (b = false → ∀ u ∈ s.units, u.result? = some none)

theorem nilInv_init {p : Prog (Option Error)} (hp : p.NilJoins false) : NilInv (init p) :=
  ⟨fun _ h => (nomatch h), fun _ _ h => (nomatch h), false, hp, fun _ _ h => (nomatch h)⟩

/-- A finished unit without failure returned `nil`. -/
theorem result?_of_finished {u : Prog (Option Error)} (hf : Finished u) (he : failure u = none) :
    u.result? = some none := by
  cases u <;> simp_all [Finished, Prog.result?, failure]

theorem nilInv_main {ans : Answers} {s s' : Sys} (hi : NilInv s) (h : s.step ans .main = some s') :
    NilInv s' := by
  obtain ⟨b, hj, hb⟩ := hi.main
  obtain ⟨m, s₁, hm, rfl⟩ := step_main_inv h
  generalize s.main = p at hj hm
  cases hj with
  | ok => cases hm
  | error => cases hm
  | panic => cases hm
  | call hk => cases hm; exact ⟨hi.units, hi.err, b, hk _, hb⟩
  | @go u k _ hu hk =>
    cases hm
    exact ⟨List.forall_mem_append.2 ⟨hi.units, List.forall_mem_singleton.2 hu.2⟩,
      fun he => List.forall_mem_append.2 ⟨hi.err he, List.forall_mem_singleton.2 (failure_of_result?_eq_none hu.1)⟩,
      true, hk, fun h => nomatch h⟩
  | wait h0 h1 =>
    simp only [stepProg] at hm
    split at hm
    · rename_i hall
      cases hm
      cases he : s.err with
      | none =>
        refine ⟨hi.units, fun _ => hi.err he, false, h0, fun _ u hu => result?_of_finished ?_ (hi.err he u hu)⟩
        simpa using List.all_eq_true.1 hall u hu
      | some e => exact ⟨hi.units, fun h => (nomatch h), true, h1 e, fun h => (nomatch h)⟩
    · cases hm
  | newVar hk => cases hm; exact ⟨hi.units, hi.err, b, hk _, hb⟩
  | setVar hk => cases hm; exact ⟨hi.units, hi.err, b, hk, hb⟩
  | getVar hk => cases hm; exact ⟨hi.units, hi.err, b, hk _, hb⟩

theorem nilInv_unit {ans : Answers} {s s' : Sys} {i : Nat} (hi : NilInv s) (h : s.step ans (.unit i) = some s') :
    NilInv s' := by
  obtain ⟨u, u', s₁, hu, hstep, rfl⟩ := step_unit_inv h
  have hmem : u ∈ s.units := List.getElem?_mem hu
  obtain ⟨hnog, hunits, herr⟩ := stepProg_noGo (hi.units u hmem) hstep
  obtain ⟨b, hj, hb⟩ := hi.main
  have hmain : s₁.main = s.main := stepProg_main hstep
  rw [hunits]
  refine ⟨fun v hv => ?_, fun he v hv => ?_, b, hmain ▸ hj, fun h0 => ?_⟩
  · rcases List.mem_or_eq_of_mem_set hv with hv | rfl
    · exact hi.units v hv
    · exact hnog
  · rw [herr, Option.orElse_eq_none] at he
    rcases List.mem_or_eq_of_mem_set hv with hv | rfl
    · exact hi.err he.1 v hv
    · exact he.2
  · have hfin := hb h0 u hmem
    rw [stepProg_finished (by simp [Finished, hfin])] at hstep
    cases hstep

theorem nilInv_step (s s' : Sys) (hi : NilInv s) (hs : Step s s') : NilInv s' := by
  obtain ⟨ans, th, h⟩ := hs
  cases th with
  | main => exact nilInv_main hi h
  | unit i => exact nilInv_unit hi h

/-- A function that keeps the nil discipline returns `nil` only when every unit it started has
returned `nil`, in every run and for every answer of the runtime. -/
theorem nil_after_units {p : Prog (Option Error)} (hp : p.NilJoins false) {s : Sys}
    (h : Reachable (init p) s) (hret : s.main.result? = some none) : ∀ u ∈ s.units, u.result? = some none := by
  obtain ⟨-, -, b, hj, hb⟩ := Reachable.induction nilInv_step h (nilInv_init hp)
  cases hm : s.main with
  | pure a =>
    rw [hm] at hret hj
    cases hret
    cases hj
    exact hb rfl
  | _ => rw [hm] at hret; cases hret

end Sys

end Compose
