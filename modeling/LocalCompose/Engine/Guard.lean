/-
Which calls a run makes. A `Guard` says which calls a goroutine may make, and which containers
it may keep in a shared variable, once it has seen some exchanges; both only grow as more is
seen. `Prog.Guarded G t D A p` says that every call of `p` is allowed by what it has seen (`t`
and the answers of its own calls, and on each read of a shared variable whatever the system had
seen by then), that it stores only good containers, and that it reads only the variables it
assigned (`A`) among those it declared (`D`). A unit starts with what its launcher had seen. A
function whose program is guarded from the start makes, in every run, only calls allowed by the
exchanges before them: for every answer of the runtime and every interleaving.
`Prog.Phases R` splits a function's run at its first `eg.Wait`: before it, the function and its
units make only calls of `R false`; after it, only calls of `R true`. Since the wait lets no unit
started before it run on, every call outside `R false` comes after every call outside `R true`.
-/
import LocalCompose.Engine.Group
import Mathlib.Data.List.GetD

namespace Compose

/-- What a goroutine may do after seeing some exchanges: the calls it may make, and the
containers it may keep in a shared variable. -/
structure Guard where
  allowed : List Exchange → Call → Prop
  good : List Exchange → Container → Prop
  allowed_mono : ∀ {t t' : List Exchange} {c : Call}, t ⊆ t' → allowed t c → allowed t' c
  good_mono : ∀ {t t' : List Exchange} {v : Container}, t ⊆ t' → good t v → good t' v

namespace Prog

/-- `p.Guarded G t D A`: `p`, having seen the exchanges `t`, with the declared variables `D`
and the assigned ones `A`, makes only allowed calls and stores only good containers. -/
inductive Guarded (G : Guard) : {α : Type} → List Exchange → List Nat → List Nat → Prog α → Prop
  | pure {α : Type} {t : List Exchange} {D A : List Nat} (a : α) : Guarded G t D A (.pure a)
  | panic {α : Type} {t : List Exchange} {D A : List Nat} (m : String) : Guarded G t D A (Prog.panic m : Prog α)
  | call {α : Type} {t : List Exchange} {D A : List Nat} {c : Call} {k : c.Resp → Prog α} :
      G.allowed t c → (∀ r, Guarded G (⟨c, r⟩ :: t) D A (k r)) → Guarded G t D A (.call c k)
  | go {α : Type} {t : List Exchange} {D A : List Nat} {u : Prog (Option Error)} {k : Prog α} :
      Guarded G t D A u → Guarded G t D A k → Guarded G t D A (.go u k)
  | wait {α : Type} {t : List Exchange} {D A : List Nat} {k : Option Error → Prog α} :
      (∀ e, Guarded G t D A (k e)) → Guarded G t D A (.wait k)
  | newVar {α : Type} {t : List Exchange} {D A : List Nat} {v : Container} {k : Nat → Prog α} :
      (∀ i, Guarded G t (i :: D) A (k i)) → Guarded G t D A (.newVar v k)
  | setVar {α : Type} {t : List Exchange} {D A : List Nat} {i : Nat} {v : Container} {k : Prog α} :
      i ∈ D → G.good t v → Guarded G t D (i :: A) k → Guarded G t D A (.setVar i v k)
  | getVar {α : Type} {t : List Exchange} {D A : List Nat} {i : Nat} {k : Container → Prog α} :
      i ∈ A → (∀ v t', t ⊆ t' → G.good t' v → Guarded G t' D A (k v)) → Guarded G t D A (.getVar i k)

variable {G : Guard}

/-- Seeing more, and knowing more variables, keeps a program guarded. -/
theorem Guarded.mono {α : Type} {t : List Exchange} {D A : List Nat} {p : Prog α}
    (hp : p.Guarded G t D A) : ∀ {t' D' A'}, t ⊆ t' → D ⊆ D' → A ⊆ A' → p.Guarded G t' D' A' := by
  induction hp with
  | pure a => exact fun _ _ _ => .pure a
  | panic m => exact fun _ _ _ => .panic m
  | call hc _ ih =>
    exact fun ht hD hA => .call (G.allowed_mono ht hc) fun r => ih r (List.cons_subset_cons _ ht) hD hA
  | go _ _ ihu ihk => exact fun ht hD hA => .go (ihu ht hD hA) (ihk ht hD hA)
  | wait _ ih => exact fun ht hD hA => .wait fun e => ih e ht hD hA
  | newVar _ ih => exact fun ht hD hA => .newVar fun i => ih i ht (List.cons_subset_cons _ hD) hA
  | setVar hi hv _ ih =>
    exact fun ht hD hA => .setVar (hD hi) (G.good_mono ht hv) (ih ht hD (List.cons_subset_cons _ hA))
  | getVar hi _ ih =>
    exact fun ht hD hA => .getVar (hA hi) fun v t' ht' hv =>
      ih v t' (List.Subset.trans ht ht') hv (List.Subset.refl _) hD hA

/-- A guarded program followed by a continuation guarded after anything more is seen. -/
theorem Guarded.bind {α β : Type} {t : List Exchange} {D A : List Nat} {p : Prog α} {f : α → Prog β}
    (hp : p.Guarded G t D A) (hf : ∀ a t', t ⊆ t' → (f a).Guarded G t' D A) : (p >>= f).Guarded G t D A := by
  induction hp with
  | pure a => exact hf a _ (List.Subset.refl _)
  | panic m => exact .panic m
  | call hc _ ih =>
    exact .call hc fun r => ih r fun a t' ht => hf a t' (List.Subset.trans (List.subset_cons_self _ _) ht)
  | go hu _ _ ih => exact .go hu (ih hf)
  | wait _ ih => exact .wait fun e => ih e hf
  | newVar _ ih =>
    exact .newVar fun i => ih i fun a t' ht =>
      (hf a t' ht).mono (List.Subset.refl _) (List.subset_cons_self _ _) (List.Subset.refl _)
  | setVar hi hv _ ih =>
    exact .setVar hi hv (ih fun a t' ht =>
      (hf a t' ht).mono (List.Subset.refl _) (List.Subset.refl _) (List.subset_cons_self _ _))
  | getVar hi _ ih =>
    exact .getVar hi fun v t' ht hv => ih v t' ht hv fun a t'' ht' => hf a t'' (List.Subset.trans ht ht')

theorem Guarded.send_bind {α : Type} {t : List Exchange} {D A : List Nat} {c : Call} {f : c.Resp → Prog α}
    (hc : G.allowed t c) (hf : ∀ r, (f r).Guarded G (⟨c, r⟩ :: t) D A) : (send c >>= f).Guarded G t D A :=
  .call hc hf

theorem Guarded.emit_bind {α : Type} {t : List Exchange} {D A : List Nat} {e : Event} {f : Unit → Prog α}
    (he : G.allowed t (.event e)) (hf : ∀ t', t ⊆ t' → (f ()).Guarded G t' D A) : (emit e >>= f).Guarded G t D A :=
  .call he fun _ => hf _ (List.subset_cons_self _ _)

theorem Guarded.read_bind {α : Type} {t : List Exchange} {D A : List Nat} {i : Nat} {f : Container → Prog α}
    (hi : i ∈ A) (hf : ∀ v t', t ⊆ t' → G.good t' v → (f v).Guarded G t' D A) : (read i >>= f).Guarded G t D A :=
  .getVar hi hf

/-- In a sequential run of a guarded program, every call is allowed by what was seen before it:
the exchanges of the run before it, and those seen at the start. -/
theorem Guarded.runs {α : Type} {k : List Exchange} {D A : List Nat} {p : Prog α} {t : List Exchange} {a : α}
    (hp : p.Guarded G k D A) (h : p.Runs t a) :
    ∀ pre x post, t = pre ++ x :: post → G.allowed (pre ++ k) x.call := by
  induction h generalizing k with
  | pure a => intro pre x post he; cases pre <;> cases he
  | call r _ ih =>
    cases hp with
    | call hc hk =>
      rintro (_ | ⟨y, pre⟩) x post he <;> cases he
      · exact hc
      · exact G.allowed_mono List.perm_middle.subset (ih (hk r) pre x post rfl)

end Prog

namespace Sys

open Prog

variable (G : Guard)

/-- What a goroutine's program may rely on in the system `s`: it has seen part of the trace, the
variables it declared exist, and those it assigned hold good containers. -/
def Fits (s : Sys) (p : Prog (Option Error)) : Prop :=
  ∃ t D A, t ⊆ s.trace ∧ (∀ i ∈ D, i < s.vars.length) ∧
    (∀ i ∈ A, i < s.vars.length ∧ G.good s.trace (s.vars.getD i default)) ∧ p.Guarded G t D A

/-- `s₁` keeps what the goroutines of `s` rely on: the trace is extended, no variable is lost,
and each variable that held a good container still does. -/
def Grows (s s₁ : Sys) : Prop :=
  s.trace ⊆ s₁.trace ∧ s.vars.length ≤ s₁.vars.length ∧
    ∀ i, i < s.vars.length → G.good s.trace (s.vars.getD i default) → G.good s₁.trace (s₁.vars.getD i default)

variable {G}

theorem Fits.grow {s s₁ : Sys} {p : Prog (Option Error)} (hp : Fits G s p) (hg : Grows G s s₁) : Fits G s₁ p := by
  obtain ⟨ht, hl, hv⟩ := hg
  obtain ⟨t, D, A, hts, hD, hA, hg⟩ := hp
  exact ⟨t, D, A, List.Subset.trans hts ht, fun i hi => (hD i hi).trans_le hl,
    fun i hi => ⟨(hA i hi).1.trans_le hl, hv i (hA i hi).1 (hA i hi).2⟩, hg⟩

/-- Every call a run makes is allowed by the exchanges before it. -/
def TraceAllowed (G : Guard) (tr : List Exchange) : Prop :=
  ∀ pre x post, tr = pre ++ x :: post → G.allowed pre x.call

theorem traceAllowed_snoc {tr : List Exchange} (h : TraceAllowed G tr) {y : Exchange} (hy : G.allowed tr y.call) :
    TraceAllowed G (tr ++ [y]) := by
  intro pre x post he
  rcases List.eq_nil_or_concat post with rfl | ⟨L, b, rfl⟩
  · obtain ⟨rfl, h2⟩ := List.append_inj' he rfl
    cases h2
    exact hy
  · rw [List.concat_eq_append, ← List.cons_append, ← List.append_assoc] at he
    exact h pre x L (List.append_inj' he rfl).1

/-- One step of a guarded goroutine: what the system keeps, the goroutine's next program, the
unit it may start, and the call it may make, allowed by the trace before it. -/
theorem stepProg_guarded {ans : Answers} {s s₁ : Sys} {p p' : Prog (Option Error)} (hp : Fits G s p)
    (h : stepProg ans s p = some (p', s₁)) :
    Grows G s s₁ ∧ Fits G s₁ p' ∧ (s₁.units = s.units ∨ ∃ u, s₁.units = s.units ++ [u] ∧ Fits G s₁ u) ∧
      (s₁.trace = s.trace ∨ ∃ x, s₁.trace = s.trace ++ [x] ∧ G.allowed s.trace x.call) := by
  obtain ⟨t, D, A, ht, hD, hA, hg⟩ := hp
  have hsame : Grows G s s := ⟨(List.Subset.refl _), le_rfl, fun _ _ h => h⟩
  cases hg with
  | pure => cases h
  | panic => cases h
  | @call _ _ _ _ c k hc hk =>
    cases h
    have hsub : s.trace ⊆ s.trace ++ [⟨c, ans c⟩] := List.subset_append_left _ _
    exact ⟨⟨hsub, le_rfl, fun i _ h => G.good_mono hsub h⟩,
      ⟨_, D, A, List.cons_subset.2 ⟨by simp, List.Subset.trans ht hsub⟩, hD, fun i hi => ⟨(hA i hi).1, G.good_mono hsub (hA i hi).2⟩,
        hk _⟩, .inl rfl, .inr ⟨_, rfl, G.allowed_mono ht hc⟩⟩
  | go hu hk =>
    cases h
    exact ⟨hsame, ⟨t, D, A, ht, hD, hA, hk⟩, .inr ⟨_, rfl, t, D, A, ht, hD, hA, hu⟩, .inl rfl⟩
  | wait hk =>
    simp only [stepProg] at h
    split at h <;> cases h
    exact ⟨hsame, ⟨t, D, A, ht, hD, hA, hk _⟩, .inl rfl, .inl rfl⟩
  | @newVar _ _ _ _ v k hk =>
    cases h
    have hget : ∀ i, i < s.vars.length → (s.vars ++ [v]).getD i default = s.vars.getD i default :=
      fun i hi => List.getD_append _ _ _ _ hi
    have hlen : s.vars.length < (s.vars ++ [v]).length := by simp
    exact ⟨⟨(List.Subset.refl _), hlen.le, fun i hi h => (hget i hi).symm ▸ h⟩,
      ⟨t, _ :: D, A, ht, fun i hi => (List.mem_cons.1 hi).elim (· ▸ hlen) fun hi => (hD i hi).trans hlen,
        fun i hi => ⟨(hA i hi).1.trans hlen, (hget i (hA i hi).1).symm ▸ (hA i hi).2⟩, hk _⟩, .inl rfl, .inl rfl⟩
  | @setVar _ _ _ _ i v k hi hv hk =>
    cases h
    have hlt := hD i hi
    have hget : ∀ j, (s.vars.set i v).getD j default = if j = i then v else s.vars.getD j default := fun j => by
      by_cases hj : j = i
      · subst hj; simp [List.getD_eq_getElem?_getD, hlt]
      · simp [List.getD_eq_getElem?_getD, List.getElem?_set_ne (Ne.symm hj), hj]
    have hgood : G.good s.trace v := G.good_mono ht hv
    have hkeep : ∀ j, G.good s.trace (s.vars.getD j default) → G.good s.trace ((s.vars.set i v).getD j default) :=
      fun j h => by rw [hget]; split <;> assumption
    refine ⟨⟨(List.Subset.refl _), by simp, fun j _ h => hkeep j h⟩,
      ⟨t, D, i :: A, ht, fun j hj => by simpa using hD j hj, fun j hj => ?_, hk⟩, .inl rfl, .inl rfl⟩
    rcases List.mem_cons.1 hj with rfl | hj
    · exact ⟨by simpa using hlt, by rw [hget, if_pos rfl]; exact hgood⟩
    · exact ⟨by simpa using (hA j hj).1, hkeep j (hA j hj).2⟩
  | getVar hi hk =>
    cases h
    exact ⟨hsame, ⟨s.trace, D, A, (List.Subset.refl _), hD, hA, hk _ _ ht (hA _ hi).2⟩, .inl rfl, .inl rfl⟩

/-- The invariant of a guarded function: every goroutine fits the system, and every call made
was allowed by the trace before it. -/
structure GuardInv (G : Guard) (s : Sys) : Prop where
  main : Fits G s s.main
  units : ∀ u ∈ s.units, Fits G s u
  trace : TraceAllowed G s.trace

theorem guardInv_after {s s₁ : Sys} (hi : GuardInv G s) (hg : Grows G s s₁)
    (hu : s₁.units = s.units ∨ ∃ u, s₁.units = s.units ++ [u] ∧ Fits G s₁ u)
    (htr : s₁.trace = s.trace ∨ ∃ x, s₁.trace = s.trace ++ [x] ∧ G.allowed s.trace x.call) :
    (∀ u ∈ s₁.units, Fits G s₁ u) ∧ TraceAllowed G s₁.trace := by
  have hold : ∀ u ∈ s.units, Fits G s₁ u := fun u hu' => (hi.units u hu').grow hg
  refine ⟨?_, ?_⟩
  · rcases hu with h | ⟨v, h, hv⟩ <;> rw [h]
    · exact hold
    · exact List.forall_mem_append.2 ⟨hold, List.forall_mem_singleton.2 hv⟩
  · rcases htr with h | ⟨x, h, hx⟩ <;> rw [h]
    · exact hi.trace
    · exact traceAllowed_snoc hi.trace hx

theorem guardInv_step (s s' : Sys) (hi : GuardInv G s) (hs : Step s s') : GuardInv G s' := by
  obtain ⟨ans, th, h⟩ := hs
  cases th with
  | main =>
    obtain ⟨m, s₁, hm, rfl⟩ := step_main_inv h
    obtain ⟨hg, hp', hu, htr⟩ := stepProg_guarded hi.main hm
    obtain ⟨hunits, htrace⟩ := guardInv_after hi hg hu htr
    exact ⟨hp', hunits, htrace⟩
  | unit i =>
    obtain ⟨u, u', s₁, hu, hstep, rfl⟩ := step_unit_inv h
    obtain ⟨hg, hp', hnew, htr⟩ := stepProg_guarded (hi.units u (List.getElem?_mem hu)) hstep
    obtain ⟨hunits, htrace⟩ := guardInv_after hi hg hnew htr
    refine ⟨(stepProg_main hstep).symm ▸ hi.main.grow hg, fun v hv => ?_, htrace⟩
    rcases List.mem_or_eq_of_mem_set hv with hv | rfl
    · exact hunits v hv
    · exact hp'

/-- A function whose program is guarded from the start makes, in every run, only calls allowed
by the exchanges before them, for every answer of the runtime and every interleaving. -/
theorem guarded_calls {p : Prog (Option Error)} (hp : p.Guarded G [] [] []) {s : Sys}
    (h : Reachable (init p) s) : TraceAllowed G s.trace :=
  (Reachable.induction guardInv_step h
    ⟨⟨[], [], [], List.nil_subset _, fun _ h => (nomatch h), fun _ h => (nomatch h), hp⟩,
      fun _ h => (nomatch h), fun pre x post h => by simp [init] at h⟩).trace

end Sys

/-! ## Phases -/

namespace Prog

/-- `p.Calls P`: `p` never waits, and every call it makes, and every call of the units it starts,
satisfies `P`. -/
inductive Calls (P : Call → Prop) : {α : Type} → Prog α → Prop
  | pure {α : Type} (a : α) : Calls P (.pure a)
  | panic {α : Type} (m : String) : Calls P (Prog.panic m : Prog α)
  | call {α : Type} {c : Call} {k : c.Resp → Prog α} : P c → (∀ r, Calls P (k r)) → Calls P (.call c k)
  | go {α : Type} {u : Prog (Option Error)} {k : Prog α} : Calls P u → Calls P k → Calls P (.go u k)
  | newVar {α : Type} {v : Container} {k : Nat → Prog α} : (∀ i, Calls P (k i)) → Calls P (.newVar v k)
  | setVar {α : Type} {i : Nat} {v : Container} {k : Prog α} : Calls P k → Calls P (.setVar i v k)
  | getVar {α : Type} {i : Nat} {k : Container → Prog α} : (∀ v, Calls P (k v)) → Calls P (.getVar i k)

variable {P : Call → Prop}

theorem Calls.bind {α β : Type} {p : Prog α} {f : α → Prog β} (hp : p.Calls P) (hf : ∀ a, (f a).Calls P) :
    (p >>= f).Calls P := by
  induction hp with
  | pure a => exact hf a
  | panic m => exact .panic m
  | call hc _ ih => exact .call hc fun r => ih r hf
  | go hu _ _ ih => exact .go hu (ih hf)
  | newVar _ ih => exact .newVar fun i => ih i hf
  | setVar _ ih => exact .setVar (ih hf)
  | getVar _ ih => exact .getVar fun v => ih v hf

theorem Calls.send_bind {α : Type} {c : Call} {f : c.Resp → Prog α} (hc : P c) (hf : ∀ r, (f r).Calls P) :
    (send c >>= f).Calls P :=
  .call hc hf

theorem Calls.emit_bind {α : Type} {e : Event} {f : Unit → Prog α} (he : P (.event e)) (hf : (f ()).Calls P) :
    (emit e >>= f).Calls P :=
  .call he fun _ => hf

theorem Calls.read_bind {α : Type} {i : Nat} {f : Container → Prog α} (hf : ∀ v, (f v).Calls P) :
    (read i >>= f).Calls P :=
  .getVar hf

/-- In a sequential run, every call satisfies `P`. -/
theorem Calls.runs {α : Type} {p : Prog α} {t : List Exchange} {a : α} (hp : p.Calls P) (h : p.Runs t a) :
    ∀ x ∈ t, P x.call := by
  induction h with
  | pure a => intro x hx; cases hx
  | call r _ ih =>
    cases hp with
    | call hc hk =>
      intro x hx
      rcases List.mem_cons.1 hx with rfl | hx
      · exact hc
      · exact ih (hk r) x hx

/-- `p.Phases R b`: in phase `b`, every call `p` makes and every call of the units it starts
satisfies `R b`; an `eg.Wait` moves to phase `true`. -/
inductive Phases (R : Bool → Call → Prop) : Bool → Prog (Option Error) → Prop
  | pure (a : Option Error) (b : Bool) : Phases R b (.pure a)
  | panic (m : String) (b : Bool) : Phases R b (.panic m)
  | call {c : Call} {k : c.Resp → Prog (Option Error)} {b : Bool} :
      R b c → (∀ r, Phases R b (k r)) → Phases R b (.call c k)
  | go {u k : Prog (Option Error)} {b : Bool} : u.Calls (R b) → Phases R b k → Phases R b (.go u k)
  | wait {k : Option Error → Prog (Option Error)} {b : Bool} : (∀ e, Phases R true (k e)) → Phases R b (.wait k)
  | newVar {v : Container} {k : Nat → Prog (Option Error)} {b : Bool} :
      (∀ i, Phases R b (k i)) → Phases R b (.newVar v k)
  | setVar {i : Nat} {v : Container} {k : Prog (Option Error)} {b : Bool} : Phases R b k → Phases R b (.setVar i v k)
  | getVar {i : Nat} {k : Container → Prog (Option Error)} {b : Bool} :
      (∀ v, Phases R b (k v)) → Phases R b (.getVar i k)

/-- A stretch whose calls all belong to the current phase, followed by a phased continuation. -/
theorem Calls.phases_bind {R : Bool → Call → Prop} {b : Bool} {α : Type} {p : Prog α} {f : α → Prog (Option Error)}
    (hp : p.Calls (R b)) (hf : ∀ a, (f a).Phases R b) : (p >>= f).Phases R b := by
  induction hp with
  | pure a => exact hf a
  | panic m => exact .panic m b
  | call hc _ ih => exact .call hc fun r => ih r hf
  | go hu _ _ ih => exact .go hu (ih hf)
  | newVar _ ih => exact .newVar fun i => ih i hf
  | setVar _ ih => exact .setVar (ih hf)
  | getVar _ ih => exact .getVar fun v => ih v hf

end Prog

namespace Sys

open Prog

variable {R : Bool → Call → Prop}

/-- A step of a program whose calls satisfy `P`: its next program keeps that, the units it may
start too, and the call it may make satisfies `P`. -/
theorem stepProg_calls {P : Call → Prop} {ans : Answers} {s s₁ : Sys} {u u' : Prog (Option Error)} (hu : u.Calls P)
    (h : stepProg ans s u = some (u', s₁)) :
    u'.Calls P ∧ (s₁.units = s.units ∨ ∃ v, s₁.units = s.units ++ [v] ∧ v.Calls P) ∧
      (s₁.trace = s.trace ∨ ∃ x, s₁.trace = s.trace ++ [x] ∧ P x.call) := by
  cases hu with
  | pure => cases h
  | panic => cases h
  | call hc hk => cases h; exact ⟨hk _, .inl rfl, .inr ⟨_, rfl, hc⟩⟩
  | go hv hk => cases h; exact ⟨hk, .inr ⟨_, rfl, hv⟩, .inl rfl⟩
  | newVar hk => cases h; exact ⟨hk _, .inl rfl, .inl rfl⟩
  | setVar hk => cases h; exact ⟨hk, .inl rfl, .inl rfl⟩
  | getVar hk => cases h; exact ⟨hk _, .inl rfl, .inl rfl⟩

/-- Every call outside `R false` comes after every call outside `R true`. -/
def PhaseOrder (R : Bool → Call → Prop) (tr : List Exchange) : Prop :=
  ∀ pre x mid y post, tr = pre ++ x :: (mid ++ y :: post) → ¬ R false x.call → R true y.call

/-- Appending a call keeps the order when, after a call outside `R false`, it is in `R true`. -/
theorem phaseOrder_snoc {tr : List Exchange} (h : PhaseOrder R tr) {y : Exchange}
    (hy : (∃ x ∈ tr, ¬ R false x.call) → R true y.call) : PhaseOrder R (tr ++ [y]) := by
  intro pre x mid z post he hx
  rcases List.eq_nil_or_concat post with rfl | ⟨L, b, rfl⟩
  · rw [← List.cons_append, ← List.append_assoc] at he
    obtain ⟨rfl, h2⟩ := List.append_inj' he rfl
    cases h2
    exact hy ⟨x, by simp, hx⟩
  · rw [List.concat_eq_append, ← List.cons_append, ← List.append_assoc, ← List.cons_append,
      ← List.append_assoc] at he
    exact h pre x mid z L (by simpa using (List.append_inj' he rfl).1) hx

/-- Appending a call of the phase `b` keeps the order, and, before the first wait, that every call
so far is in `R false`. -/
theorem phase_snoc {b : Bool} {tr : List Exchange} (hf : b = false → ∀ x ∈ tr, R false x.call)
    (ho : PhaseOrder R tr) {y : Exchange} (hy : R b y.call) :
    (b = false → ∀ x ∈ tr ++ [y], R false x.call) ∧ PhaseOrder R (tr ++ [y]) := by
  refine ⟨fun hb => List.forall_mem_append.2 ⟨hf hb, List.forall_mem_singleton.2 (hb ▸ hy)⟩,
    phaseOrder_snoc ho fun ⟨x, hx, hnx⟩ => ?_⟩
  cases b
  · exact absurd (hf rfl x hx) hnx
  · exact hy

/-- The invariant of a phased function: the calling goroutine is in some phase; every unit has
finished or calls within that phase; before the first wait every call so far is in `R false`;
and the order holds of the trace. -/
structure PhaseInv (R : Bool → Call → Prop) (s : Sys) : Prop where
  phase : ∃ b, s.main.Phases R b ∧ (∀ u ∈ s.units, Finished u ∨ u.Calls (R b)) ∧
    (b = false → ∀ x ∈ s.trace, R false x.call)
  order : PhaseOrder R s.trace

theorem phaseInv_main {ans : Answers} {s s' : Sys} (hi : PhaseInv R s) (h : s.step ans .main = some s') :
    PhaseInv R s' := by
  obtain ⟨b, hj, hu, hf⟩ := hi.phase
  obtain ⟨m, s₁, hm, rfl⟩ := step_main_inv h
  generalize s.main = p at hj hm
  cases hj with
  | pure => cases hm
  | panic => cases hm
  | @call c _ _ hc hk =>
    cases hm
    obtain ⟨hf', ho⟩ := @phase_snoc _ _ _ hf hi.order ⟨c, ans c⟩ hc
    exact ⟨⟨b, hk _, hu, hf'⟩, ho⟩
  | go hv hk =>
    cases hm
    exact ⟨⟨b, hk, List.forall_mem_append.2 ⟨hu, List.forall_mem_singleton.2 (.inr hv)⟩, hf⟩, hi.order⟩
  | wait hk =>
    simp only [stepProg] at hm
    split at hm
    · rename_i hall
      cases hm
      exact ⟨⟨true, hk _, fun u hu' => .inl (by simpa using List.all_eq_true.1 hall u hu'), fun h => nomatch h⟩,
        hi.order⟩
    · cases hm
  | newVar hk => cases hm; exact ⟨⟨b, hk _, hu, hf⟩, hi.order⟩
  | setVar hk => cases hm; exact ⟨⟨b, hk, hu, hf⟩, hi.order⟩
  | getVar hk => cases hm; exact ⟨⟨b, hk _, hu, hf⟩, hi.order⟩

theorem phaseInv_unit {ans : Answers} {s s' : Sys} {i : Nat} (hi : PhaseInv R s) (h : s.step ans (.unit i) = some s') :
    PhaseInv R s' := by
  obtain ⟨b, hj, hu, hf⟩ := hi.phase
  obtain ⟨u, u', s₁, hui, hstep, rfl⟩ := step_unit_inv h
  have hmem : u ∈ s.units := List.getElem?_mem hui
  have hcalls : u.Calls (R b) := (hu u hmem).resolve_left fun hfin => by
    rw [stepProg_finished hfin] at hstep; cases hstep
  obtain ⟨hu', hnew, htr⟩ := stepProg_calls hcalls hstep
  have hunits : ∀ v ∈ s₁.units, Finished v ∨ v.Calls (R b) := by
    rcases hnew with h | ⟨v, h, hv⟩ <;> rw [h]
    · exact hu
    · exact List.forall_mem_append.2 ⟨hu, List.forall_mem_singleton.2 (.inr hv)⟩
  have htrace : (b = false → ∀ x ∈ s₁.trace, R false x.call) ∧ PhaseOrder R s₁.trace := by
    rcases htr with h | ⟨y, h, hy⟩ <;> rw [h]
    · exact ⟨hf, hi.order⟩
    · exact phase_snoc hf hi.order hy
  refine ⟨⟨b, (stepProg_main hstep).symm ▸ hj, fun v hv => ?_, htrace.1⟩, htrace.2⟩
  rcases List.mem_or_eq_of_mem_set hv with hv | rfl
  · exact hunits v hv
  · exact .inr hu'

theorem phaseInv_step (s s' : Sys) (hi : PhaseInv R s) (hs : Step s s') : PhaseInv R s' := by
  obtain ⟨ans, th, h⟩ := hs
  cases th with
  | main => exact phaseInv_main hi h
  | unit i => exact phaseInv_unit hi h

/-- A phased function makes every call outside `R false` after every call outside `R true`, in
every run, for every answer of the runtime and every interleaving. -/
theorem phases_order {p : Prog (Option Error)} (hp : p.Phases R false) {s : Sys} (h : Reachable (init p) s) :
    PhaseOrder R s.trace :=
  (Reachable.induction phaseInv_step h
    ⟨⟨false, hp, fun _ h => (nomatch h), fun _ _ h => (nomatch h)⟩, fun pre x mid y post h => by simp [init] at h⟩).order

end Sys

end Compose
