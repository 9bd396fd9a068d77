/-
What a function with an errgroup has done when it reports success. A unit that `Promises P`
returns `nil` only after one of its own calls has had an exchange that `P` holds of. A function
that `Spawns` a list of promises starts, in order, one unit keeping each, and returns `nil` only
once it has started them all. Together with the nil discipline of `LocalCompose.Engine.Report`
(a `nil` return comes after every unit has returned `nil`), such a function returns `nil` only
when the trace holds, for every promise of the list, an exchange that keeps it: in every run, for
every answer of the runtime and every interleaving of the goroutines.
-/
import LocalCompose.Engine.Report

namespace Compose

namespace Prog

/-- `u.Promises P D`: `u` returns `nil` only if `D` holds or one of its later calls has an
exchange that `P` holds of; `D` is what the unit has done so far. -/
inductive Promises (P : Exchange → Prop) : Prop → Prog (Option Error) → Prop
  | pure {D : Prop} {r : Option Error} : (r = none → D) → Promises P D (.pure r)
  | call {D : Prop} {c : Call} {k : c.Resp → Prog (Option Error)} :
      (∀ r, Promises P (D ∨ P ⟨c, r⟩) (k r)) → Promises P D (.call c k)

section Promises

variable {P : Exchange → Prop}

theorem Promises.mono {D : Prop} {u : Prog (Option Error)} (hu : u.Promises P D) :
    ∀ {D' : Prop}, (D → D') → u.Promises P D' := by
  induction hu with
  | pure h => exact fun hD => .pure fun hr => hD (h hr)
  | call _ ih => exact fun hD => .call fun r => ih r (Or.imp_left hD)

theorem Promises.send_bind {D : Prop} {c : Call} {f : c.Resp → Prog (Option Error)}
    (hf : ∀ r, (f r).Promises P (D ∨ P ⟨c, r⟩)) : (send c >>= f).Promises P D :=
  .call hf

theorem Promises.emit_bind {D : Prop} {e : Event} {f : Unit → Prog (Option Error)}
    (hf : (f ()).Promises P D) : (emit e >>= f).Promises P D :=
  .call fun _ => hf.mono Or.inl

/-- A unit that has returned `nil` has kept its promise. -/
theorem Promises.of_pure_none {D : Prop} (h : (Prog.pure none).Promises P D) : D := by
  cases h with
  | pure h => exact h rfl

end Promises

/-- `p.Spawns ret Ps`: `p` starts one unit for each promise of `Ps`, in order, each unit keeping
its promise, and returns a value that `ret` holds of only after it has started them all. -/
inductive Spawns {α : Type} (ret : α → Prop) : List (Exchange → Prop) → Prog α → Prop
  | pure {Ps : List (Exchange → Prop)} {a : α} : (ret a → Ps = []) → Spawns ret Ps (.pure a)
  | call {Ps : List (Exchange → Prop)} {c : Call} {k : c.Resp → Prog α} :
      (∀ r, Spawns ret Ps (k r)) → Spawns ret Ps (.call c k)
  | go {P : Exchange → Prop} {Ps : List (Exchange → Prop)} {u : Prog (Option Error)} {k : Prog α} :
      u.Promises P False → Spawns ret Ps k → Spawns ret (P :: Ps) (.go u k)
  | wait {Ps : List (Exchange → Prop)} {k : Option Error → Prog α} :
      (∀ e, Spawns ret Ps (k e)) → Spawns ret Ps (.wait k)

/-- A loop that starts the units of `Ps` and returns, followed by a program that starts those
of `Qs`. -/
theorem Spawns.bind {α β : Type} {ret : β → Prop} {Ps Qs : List (Exchange → Prop)} {p : Prog α}
    {f : α → Prog β} (hp : p.Spawns (fun _ => True) Ps) (hf : ∀ a, (f a).Spawns ret Qs) :
    (p >>= f).Spawns ret (Ps ++ Qs) := by
  induction hp with
  | pure h => rw [h trivial]; exact hf _
  | call _ ih => exact .call ih
  | go hu _ ih => exact .go hu ih
  | wait _ ih => exact .wait ih

/-- A function that has returned a value `ret` holds of has started all its units. -/
theorem Spawns.of_pure {α : Type} {ret : α → Prop} {Ps : List (Exchange → Prop)} {a : α}
    (h : (Prog.pure a).Spawns ret Ps) (ha : ret a) : Ps = [] := by
  cases h with
  | pure h => exact h ha

theorem spawns_waitGroup : (waitGroup : Prog (Option Error)).Spawns (· = none) [] :=
  .wait fun _ => .pure fun _ => rfl

end Prog

namespace Sys

open Prog

/-- The invariant of the spawning discipline for the promises `Ps`: the calling goroutine keeps
the discipline for the promises it has not started a unit for, and the `j`-th unit keeps the
`j`-th promise, with what it has done so far in the trace. -/
structure SpawnInv (Ps : List (Exchange → Prop)) (s : Sys) : Prop where
  main : s.main.Spawns (· = none) (Ps.drop s.units.length)
  units : ∀ (j : Nat) (u : Prog (Option Error)), s.units[j]? = some u →
    ∃ (P : Exchange → Prop) (D : Prop), Ps[j]? = some P ∧ u.Promises P D ∧ (D → ∃ x ∈ s.trace, P x)

theorem spawnInv_init {Ps : List (Exchange → Prop)} {p : Prog (Option Error)}
    (hp : p.Spawns (· = none) Ps) : SpawnInv Ps (init p) :=
  ⟨hp, fun _ _ h => nomatch h⟩

/-- What a unit has done stays in a trace that grows. -/
theorem done_of_prefix {P : Exchange → Prop} {D : Prop} {tr : List Exchange} (x : Exchange)
    (h : D → ∃ y ∈ tr, P y) : D ∨ P x → ∃ y ∈ tr ++ [x], P y
  | .inl hD => (h hD).imp fun _ ⟨hy, hp⟩ => ⟨List.mem_append_left _ hy, hp⟩
  | .inr hx => ⟨x, List.mem_append_right _ (List.mem_singleton_self x), hx⟩

theorem spawnInv_main {Ps : List (Exchange → Prop)} {ans : Answers} {s s' : Sys} (hi : SpawnInv Ps s)
    (h : s.step ans .main = some s') : SpawnInv Ps s' := by
  obtain ⟨m, s₁, hm, rfl⟩ := step_main_inv h
  have hsp := hi.main
  generalize s.main = p at hsp hm
  generalize hd : Ps.drop s.units.length = rest at hsp
  cases hsp with
  | pure => cases hm
  | call hk =>
    cases hm
    exact ⟨hd ▸ hk _, fun j u hu => (hi.units j u hu).imp fun P ⟨D, hP, hu, hD⟩ =>
      ⟨D, hP, hu, fun d => (hD d).imp fun _ ⟨hy, hp⟩ => ⟨List.mem_append_left _ hy, hp⟩⟩⟩
  | @go P rest u k hu hk =>
    cases hm
    refine ⟨?_, fun j v hv => ?_⟩
    · dsimp only
      rwa [List.length_append, List.length_singleton, ← List.tail_drop, hd]
    · rcases Nat.lt_or_ge j s.units.length with hj | hj
      · rw [List.getElem?_append_left hj] at hv
        exact hi.units j v hv
      · rw [List.getElem?_append_right hj] at hv
        obtain ⟨rfl, rfl⟩ : j = s.units.length ∧ u = v := by
          rcases h : j - s.units.length with _ | n
          · rw [h] at hv; cases hv; exact ⟨by omega, rfl⟩
          · rw [h] at hv; cases hv
        refine ⟨P, False, ?_, hu, False.elim⟩
        rw [← Nat.add_zero s.units.length, ← List.getElem?_drop, hd, List.getElem?_cons_zero]
  | wait hk =>
    simp only [stepProg] at hm
    split at hm
    · cases hm; exact ⟨hd ▸ hk _, hi.units⟩
    · cases hm

theorem spawnInv_unit {Ps : List (Exchange → Prop)} {ans : Answers} {s s' : Sys} {i : Nat}
    (hi : SpawnInv Ps s) (h : s.step ans (.unit i) = some s') : SpawnInv Ps s' := by
  obtain ⟨u, u', s₁, hu, hstep, rfl⟩ := step_unit_inv h
  obtain ⟨P, D, hP, hpu, hD⟩ := hi.units i u hu
  have hlt : i < s.units.length := (List.getElem?_eq_some_iff.1 hu).1
  cases hpu with
  | pure => cases hstep
  | call hk =>
    cases hstep
    refine ⟨by simpa using hi.main, fun j v hv => ?_⟩
    simp only [List.getElem?_set, hlt, if_true] at hv
    split at hv
    · subst_vars
      cases hv
      exact ⟨P, _, hP, hk _, done_of_prefix _ hD⟩
    · obtain ⟨Q, E, hQ, hv, hE⟩ := hi.units j v hv
      exact ⟨Q, E, hQ, hv, fun e => (hE e).imp fun _ ⟨hy, hq⟩ => ⟨List.mem_append_left _ hy, hq⟩⟩

theorem spawnInv_step (Ps : List (Exchange → Prop)) (s s' : Sys) (hi : SpawnInv Ps s) (hs : Step s s') :
    SpawnInv Ps s' := by
  obtain ⟨ans, th, h⟩ := hs
  cases th with
  | main => exact spawnInv_main hi h
  | unit i => exact spawnInv_unit hi h

/-- A function that keeps the spawning discipline for `Ps` and the nil discipline returns `nil`
only when the trace holds, for every promise of `Ps`, an exchange that keeps it: in every run,
for every answer of the runtime. -/
theorem promises_kept {p : Prog (Option Error)} {Ps : List (Exchange → Prop)} (hs : p.Spawns (· = none) Ps)
    (hn : p.NilJoins false) {s : Sys} (h : Reachable (init p) s) (hret : s.main.result? = some none) :
    ∀ P ∈ Ps, ∃ x ∈ s.trace, P x := by
  have hi := Reachable.induction (spawnInv_step Ps) h (spawnInv_init hs)
  have hall := nil_after_units hn h hret
  have hdrop : Ps.drop s.units.length = [] := by
    have hm := hi.main
    cases hmain : s.main with
    | pure r =>
      rw [hmain] at hm hret
      cases hret
      exact hm.of_pure rfl
    | _ => rw [hmain] at hret; cases hret
  intro P hP
  obtain ⟨j, hj⟩ := List.mem_iff_getElem?.1 hP
  have hjn : j < s.units.length :=
    Nat.lt_of_lt_of_le (List.getElem?_eq_some_iff.1 hj).1 (List.drop_eq_nil_iff.1 hdrop)
  obtain ⟨u, hu⟩ : ∃ u, s.units[j]? = some u := ⟨_, List.getElem?_eq_getElem hjn⟩
  obtain ⟨Q, D, hQ, hpu, hD⟩ := hi.units j u hu
  rw [hj] at hQ
  cases hQ
  have hr := hall u (List.getElem?_mem hu)
  cases u with
  | pure r => cases hr; exact hD hpu.of_pure_none
  | _ => cases hr

end Sys

end Compose
