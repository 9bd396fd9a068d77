/-
The loop variable of removeContainers. The units that the loop starts do not get a copy of the
container: the closure captures the loop variable, which every iteration assigns, and each unit
reads it when it runs. Let the calling goroutine run to the end of its loop first: the variable
then holds the last listed container, and each unit, run alone after that, stops and removes that
one container. So for every listing that ends in a container with a name, and for every answer of
the runtime, there is a schedule in which removeContainers returns nil, all its units finish, and
every ContainerStop and ContainerRemove names the last listed container; the others are neither
stopped nor removed.
-/
import LocalCompose.Down
import LocalCompose.Engine.Alone

namespace Compose

open Prog Sys

/-! ## A removal unit, alone -/

/-- A removal unit run alone, its variable holding a container with a name: it runs to its end,
and every container it stops or removes is the one in the variable. -/
theorem runsAlone_removeContainerUnit (ans : Answers) {vars : List Container} {i : Nat}
    (hname : getContainerName (vars.getD i default) ≠ none) :
    ∃ t a, (removeContainerUnit i).RunsAlone ans vars t a ∧
      ∀ x ∈ t, ∀ id, (x.call = .containerStop id ∨ x.call = .containerRemove id) →
        id = (vars.getD i default).id := by
  obtain ⟨name, hn⟩ := Option.ne_none_iff_exists'.1 hname
  unfold removeContainerUnit
  rcases hs : ans (.containerStop (vars.getD i default).id) with e | ⟨⟩ <;>
  rcases hr : ans (.containerRemove (vars.getD i default).id) with e' | ⟨⟩ <;>
  exact ⟨_, _, by
    apply RunsAlone.read_bind; rw [hn]
    apply RunsAlone.emit_bind; apply RunsAlone.read_bind; apply RunsAlone.send_bind; rw [hs]
    first
      | exact .emit_bind (.pure _)
      | apply RunsAlone.emit_bind; apply RunsAlone.read_bind; apply RunsAlone.send_bind; rw [hr]
        exact .emit_bind (.pure _), by simp⟩

/-! ## The loop of the calling goroutine -/

theorem removeLoop_bind_panicked (i : Nat) {k : Unit → Prog (Option Error)} (hk : (k ()).panicked = false) :
    ∀ cs : List Container, (removeLoop i cs >>= k).panicked = false
  | [] => hk
  | _ :: _ => rfl

/-- The calling goroutine runs its loop through: one unit started per container, in order, and
the variable assigned each container in turn; no call is made. -/
theorem reach_removeLoop (ans : Answers) (i : Nat) {k : Unit → Prog (Option Error)}
    (hk : (k ()).panicked = false) :
    ∀ (cs : List Container) (s : Sys), s.main = (removeLoop i cs >>= k) → s.crashed = false →
      ∃ s', ReachableWith ans s s' ∧ s'.main = k () ∧
        s'.units = s.units ++ cs.map (fun _ => removeContainerUnit i) ∧
        s'.vars = cs.foldl (fun vs c => vs.set i c) s.vars ∧ s'.trace = s.trace ∧ s'.crashed = false
  | [], s, hm, hs => ⟨s, .refl, hm, by simp, rfl, rfl, hs⟩
  | c :: rest, s, hm, hs => by
    let s₁ : Sys := { s with main := launch (removeContainerUnit i) >>= fun _ => removeLoop i rest >>= k,
                             vars := s.vars.set i c }
    let s₂ : Sys := { s₁ with main := removeLoop i rest >>= k, units := s.units ++ [removeContainerUnit i] }
    have h₁ : s.step ans .main = some s₁ := by
      simp only [step, hs, if_false]; rw [hm]; rfl
    have hs₁ : s₁.crashed = false := by
      simp only [crashed, Bool.or_eq_false_iff] at hs ⊢
      exact ⟨rfl, hs.2⟩
    have h₂ : s₁.step ans .main = some s₂ := by
      simp only [step, hs₁, if_false]; rfl
    have hs₂ : s₂.crashed = false := by
      simp only [crashed, Bool.or_eq_false_iff, List.any_append] at hs ⊢
      exact ⟨removeLoop_bind_panicked i hk rest, hs.2, rfl⟩
    obtain ⟨s', hr, hm', hu, hv, ht, hc⟩ := reach_removeLoop ans i hk rest s₂ rfl hs₂
    exact ⟨s', .head ⟨.main, h₁⟩ (.head ⟨.main, h₂⟩ hr), hm', by simp [hu, s₂, s₁], by simp [hv, s₂, s₁], ht, hc⟩

/-- After the loop over a list, the one variable holds the last container. -/
theorem foldl_set_last (v c : Container) :
    ∀ cs : List Container, (cs ++ [c]).foldl (fun vs x => vs.set 0 x) [v] = [c]
  | [] => rfl
  | x :: rest => foldl_set_last x c rest

/-! ## The units, one after another -/

/-- Units that all make the same run alone, started after `n` units that have returned: run one
after another, they all return, and each adds to the trace only calls of that run. -/
theorem reach_units_alone {ans : Answers} {u : Prog (Option Error)} {t : List Exchange} {a : Option Error} :
    ∀ (m n : Nat) (s : Sys), u.RunsAlone ans s.vars t a →
      s.units = List.replicate n (.pure a) ++ List.replicate m u → s.crashed = false →
      ∃ s', ReachableWith ans s s' ∧ s'.main = s.main ∧ s'.units = List.replicate (n + m) (.pure a) ∧
        (∀ x ∈ s'.trace, x ∈ s.trace ∨ x ∈ t) ∧ s'.crashed = false
  | 0, n, s, _, hu, hs => ⟨s, .refl, rfl, by simpa using hu, fun x hx => .inl hx, hs⟩
  | m + 1, n, s, h, hu, hs => by
    have hn : (List.replicate n (Prog.pure a)).length ≤ n := (List.length_replicate _ _).le
    have hj : s.units[n]? = some u := by
      rw [hu, List.getElem?_append_right hn, List.length_replicate, Nat.sub_self, List.replicate_succ,
        List.getElem?_cons_zero]
    obtain ⟨s₁, hr₁, hm₁, hv₁, hu₁, ht₁, hc₁⟩ := reach_unit_alone h hj hs
    have hu₁' : s₁.units = List.replicate (n + 1) (.pure a) ++ List.replicate m u := by
      rw [hu₁, hu, List.set_append_right _ _ hn, List.length_replicate, Nat.sub_self, List.replicate_succ,
        List.set_cons_zero, List.replicate_succ', List.append_assoc]; rfl
    obtain ⟨s', hr, hm, hu', ht, hc⟩ := reach_units_alone m (n + 1) s₁ (hv₁ ▸ h) hu₁' hc₁
    refine ⟨s', hr₁.trans hr, hm.trans hm₁, by rw [hu', Nat.add_right_comm]; rfl, fun x hx => ?_, hc⟩
    rcases ht x hx with hx | hx
    · exact List.mem_append.1 (ht₁ ▸ hx)
    · exact .inr hx

/-! ## Every unit acts on the last container -/

/-- The first two steps of `removeContainers`: the listing, answered by `containers`, and the
declaration of the loop variable. -/
theorem reach_removeContainers_loop (ans : Answers) (filter : List Filter) (containers : List Container)
    (hlist : ans (.containerList filter) = .ok containers) :
    ∃ s, ReachableWith ans (init (removeContainers filter)) s ∧
      s.main = (removeLoop 0 containers >>= fun _ => return none) ∧ s.units = [] ∧ s.vars = [default] ∧
      s.trace = [⟨.containerList filter, ans (.containerList filter)⟩] ∧ s.crashed = false := by
  have h₁ : (init (removeContainers filter)).step ans .main =
      some ⟨declare default >>= fun i => removeLoop i containers >>= fun _ => return none, [], none, [],
        [⟨.containerList filter, ans (.containerList filter)⟩]⟩ := by
    simp only [step, init, crashed]
    unfold removeContainers
    simp only [send, call_bind, stepProg]
    rw [hlist]; rfl
  exact ⟨⟨removeLoop 0 containers >>= fun _ => return none, [], none, [default],
    [⟨.containerList filter, ans (.containerList filter)⟩]⟩, .head ⟨.main, h₁⟩ (.single ⟨.main, rfl⟩),
    rfl, rfl, rfl, rfl, by
      simp only [crashed, List.any_nil, Bool.or_false]; exact @removeLoop_bind_panicked 0 (fun _ => return none) rfl containers⟩

/-- For every runtime whose listing ends in a container `c` with a name, some schedule of
`removeContainers` returns nil with all its units finished, and every container stopped or
removed in it is `c`: the calling goroutine runs its loop first, then each unit alone. -/
theorem removeContainers_acts_on_last (ans : Answers) (filter : List Filter) (cs : List Container)
    (c : Container) (hlist : ans (.containerList filter) = .ok (cs ++ [c]))
    (hname : getContainerName c ≠ none) :
    ∃ s, ReachableWith ans (init (removeContainers filter)) s ∧ s.main = .pure none ∧
      s.units.length = cs.length + 1 ∧ (∀ u ∈ s.units, Finished u) ∧
      ∀ x ∈ s.trace, ∀ id, (x.call = .containerStop id ∨ x.call = .containerRemove id) → id = c.id := by
  obtain ⟨s₁, hr₁, hm₁, hu₁, hv₁, ht₁, hc₁⟩ := reach_removeContainers_loop ans filter _ hlist
  obtain ⟨s₂, hr₂, hm₂, hu₂, hv₂, ht₂, hc₂⟩ :=
    @reach_removeLoop ans 0 (fun _ => return none) rfl (cs ++ [c]) s₁ hm₁ hc₁
  rw [hv₁, foldl_set_last] at hv₂
  obtain ⟨t, a, hrun, hids⟩ := @runsAlone_removeContainerUnit ans s₂.vars 0 (by simpa [hv₂])
  obtain ⟨s₃, hr₃, hm₃, hu₃, ht₃, hc₃⟩ :=
    reach_units_alone (cs.length + 1) 0 s₂ hrun (by simp [hu₂, hu₁, List.map_const', List.replicate_succ']) hc₂
  refine ⟨s₃, hr₁.trans (hr₂.trans hr₃), hm₃.trans hm₂, by simp [hu₃], by simp [hu₃, Finished, result?], ?_⟩
  intro x hx id hid
  rcases ht₃ x hx with hx | hx
  · simp only [ht₂, ht₁, List.mem_singleton] at hx
    subst hx
    simp at hid
  · simpa [hv₂] using hids x hx id hid

/-- The listing `web1`, `db1`: every stop and every remove names `db1`. -/
theorem removeContainers_acts_on_last_demo :
    webDbRuntime (.ok [db1]) (.containerList [projectFilter specKeys "demo"]) = .ok ([web1] ++ [db1]) ∧
      getContainerName db1 ≠ none ∧
      ∃ s, ReachableWith (webDbRuntime (.ok [db1])) (init (removeContainers [projectFilter specKeys "demo"])) s ∧
        s.main = .pure none ∧ s.units.length = 2 ∧ (∀ u ∈ s.units, Finished u) ∧
        ∀ x ∈ s.trace, ∀ id, (x.call = .containerStop id ∨ x.call = .containerRemove id) → id = "db1" :=
  ⟨rfl, by decide, removeContainers_acts_on_last _ _ [web1] db1 rfl (by decide)⟩

end Compose
