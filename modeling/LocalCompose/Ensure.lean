/-
`ensureNetwork`, `ensureVolume` and `ensureNetworkDown`, and the spec's ensure contract:
inspect by name; found, nothing to do; absent and external, an error; absent, one create with
the resource's configuration, and `nil` exactly when it succeeded; any other inspect error
returned. `ensureNetwork` meets the contract for every answer of the runtime, and so, against a
runtime that remembers what it created, successive ensures of one network create it at most once.
`ensureVolume` never checks `External`, and after a successful create it returns the not-found
error of the inspect, which the create's `err :=` shadows only inside its block.
-/
import LocalCompose.Engine.Prog

namespace Compose

open Prog

/-! ## The contract -/

/-- Whether a call creates a network or a volume. -/
def Call.isCreate : Call → Bool
  | .networkCreate _ _ => true
  | .volumeCreate _ => true
  | _ => false

/-- Whether a call creates a volume. -/
def Call.createsVolume : Call → Bool
  | .volumeCreate _ => true
  | _ => false

@[simp] theorem Call.createsVolume_ensureImagesExists (p : Project) : (Call.ensureImagesExists p).createsVolume = false :=
  rfl

@[simp] theorem Call.createsVolume_ensureServices (p : Project) : (Call.ensureServices p).createsVolume = false := rfl

/-- The answer of a call whose Go result is only an `error`. -/
def Exchange.ack? : Exchange → Option (Except Error Unit)
  | ⟨.containerStop _, r⟩ => some r
  | ⟨.containerRemove _, r⟩ => some r
  | ⟨.containerLogs _, r⟩ => some r
  | ⟨.copyLogs _ _ _, r⟩ => some r
  | ⟨.networkInspect _, r⟩ => some r
  | ⟨.networkCreate _ _, r⟩ => some r
  | ⟨.networkRemove _, r⟩ => some r
  | ⟨.volumeInspect _, r⟩ => some r
  | ⟨.volumeCreate _, r⟩ => some r
  | ⟨.configLoad, r⟩ => some r
  | ⟨.ensureImagesExists _, r⟩ => some r
  | _ => none

/-- The spec's ensure contract for one run (calls `t`, result `r`) of an ensure function whose
inspect is `inspect` and whose create must be `create`: the first call is the inspect; when it
finds the resource, nothing is created and the result is `nil`; when it reports not found, an
external resource gives an error and no create, any other exactly the one create `create`, and
`nil` exactly when that create succeeded; another inspect error is returned, with no create. -/
def EnsureContract (inspect create : Call) (external : Bool) (t : List Exchange) (r : Option Error) : Prop :=
  ∃ x rest ans, t = x :: rest ∧ x.call = inspect ∧ x.ack? = some ans ∧
    let made := rest.filter (·.call.isCreate)
    match ans with
    | .ok () => made = [] ∧ r = none
    | .error e =>
      if e.notFound then
        if external then made = [] ∧ r.isSome
        else ∃ y, made = [y] ∧ y.call = create ∧ (r = none ↔ y.ack? = some (.ok ()))
      else made = [] ∧ r = some e

/-! ## Networks -/

/-- The create options `ensureNetwork` builds: labels, driver, options, the internal and
attachable flags, and an IPAM setting when the network sets a driver or a pool. -/
def networkCreateOptions (n : NetworkConfig) : NetworkCreate :=
  { labels := n.labels, driver := n.driver, options := n.driverOpts, internal := n.internal,
    attachable := n.attachable,
    ipam := if n.ipam.driver ≠ "" ∨ n.ipam.config ≠ [] then some ⟨n.ipam.driver, n.ipam.config⟩ else none }

/-- `ensureNetwork`. -/
def ensureNetwork (n : NetworkConfig) : Prog (Option Error) := do
  match ← send (.networkInspect n.name) with
  | .ok _ => return none
  | .error err =>
    if err.notFound then
      if n.external.external then
        return some (.new ("network " ++ n.name ++ " declared as external, but could not be found"))
      else
        let networkEventName := "Network " ++ quote n.name
        emit (.creating networkEventName)
        match ← send (.networkCreate n.name (networkCreateOptions n)) with
        | .error err =>
          emit (.error networkEventName)
          return some (err.wrapf ("failed to create network " ++ n.name))
        | .ok _ =>
          emit (.created networkEventName)
          return none
    else return some err

/-- `ensureNetwork` meets the ensure contract in every run, for every answer of the runtime to
its inspect and its create. -/
theorem ensureNetwork_contract (n : NetworkConfig) (t : List Exchange) (r : Option Error)
    (h : (ensureNetwork n).Runs t r) :
    EnsureContract (.networkInspect n.name) (.networkCreate n.name (networkCreateOptions n)) n.external.external t r := by
  unfold ensureNetwork at h
  rw [runs_bind_send] at h
  obtain ⟨ans, t', rfl, h⟩ := h
  refine ⟨_, t', ans, rfl, rfl, rfl, ?_⟩
  cases ans with
  | ok u =>
    simp only [pure_eq, runs_pure_iff] at h
    obtain ⟨rfl, rfl⟩ := h
    exact ⟨rfl, rfl⟩
  | error err =>
    dsimp only at h ⊢
    by_cases nf : err.notFound
    · by_cases ext : n.external.external
      · simp only [nf, ext, if_true, pure_eq, runs_pure_iff] at h ⊢
        obtain ⟨rfl, rfl⟩ := h
        exact ⟨rfl, rfl⟩
      · simp only [nf, ext, if_true, if_false, Bool.false_eq_true] at h ⊢
        rw [runs_bind_emit] at h
        obtain ⟨t₂, rfl, h⟩ := h
        rw [runs_bind_send] at h
        obtain ⟨ac, t₃, rfl, h⟩ := h
        refine ⟨⟨.networkCreate n.name (networkCreateOptions n), ac⟩, ?_, rfl, ?_⟩ <;>
        cases ac <;>
        · dsimp only at h
          rw [runs_bind_emit] at h
          obtain ⟨t₄, rfl, h⟩ := h
          simp only [pure_eq, runs_pure_iff] at h
          obtain ⟨rfl, rfl⟩ := h
          simp [Call.isCreate, Exchange.ack?]
    · simp only [nf, if_false, Bool.false_eq_true, pure_eq, runs_pure_iff] at h ⊢
      obtain ⟨rfl, rfl⟩ := h
      exact ⟨rfl, rfl⟩

theorem ensureNetwork_seq (n : NetworkConfig) : (ensureNetwork n).Seq := by
  refine (seq_send _).bind fun r => ?_
  rcases r with err | _
  · dsimp only
    split
    · split
      · exact .pure _
      · refine (seq_emit _).bind fun _ => (seq_send _).bind fun r => ?_
        rcases r with _ | _ <;> exact (seq_emit _).bind fun _ => .pure _
    · exact .pure _
  · exact .pure _

/-- For every answer of the runtime, `ensureNetwork` returns, and its run meets the ensure
contract. -/
theorem ensureNetwork_meets_contract (n : NetworkConfig) (ans : Answers) :
    ∃ t r, (ensureNetwork n).runWith ans = some (t, r) ∧
      EnsureContract (.networkInspect n.name) (.networkCreate n.name (networkCreateOptions n))
        n.external.external t r := by
  obtain ⟨t, r, h⟩ := (ensureNetwork_seq n).runWith_isSome ans
  exact ⟨t, r, h, ensureNetwork_contract n t r (runs_of_runWith h)⟩

/-- A run of `ensureNetwork` that returns `nil` found the network, or created it. -/
theorem ensureNetwork_nil {n : NetworkConfig} {t : List Exchange} (h : (ensureNetwork n).Runs t none) :
    Exchange.mk (.networkInspect n.name) (.ok ()) ∈ t ∨
      Exchange.mk (.networkCreate n.name (networkCreateOptions n)) (.ok ()) ∈ t := by
  obtain ⟨⟨c, a⟩, rest, ans, rfl, hx, hack, hm⟩ := ensureNetwork_contract n t none h
  cases hx
  obtain rfl : a = ans := Option.some.inj hack
  rcases a with e | ⟨⟩
  · dsimp only at hm
    split at hm
    · split at hm
      · exact absurd hm.2 Bool.false_ne_true
      · obtain ⟨⟨c, b⟩, hy, hyc, hiff⟩ := hm
        cases hyc
        obtain rfl : b = .ok () := Option.some.inj (hiff.1 rfl)
        have hmem : _ ∈ rest.filter (·.call.isCreate) := hy ▸ List.mem_singleton_self _
        exact .inr (List.mem_cons_of_mem _ (List.mem_filter.1 hmem).1)
    · exact absurd hm.2 (Option.some_ne_none e).symm
  · exact .inl (List.mem_cons_self _ _)

/-! ## Successive ensures -/

/-- Whether an exchange is a create that succeeded. -/
def Exchange.createdOk (x : Exchange) : Bool :=
  x.call.isCreate && match x.ack? with
    | some (.ok ()) => true
    | _ => false

/-- The successful creates of a list of runs. -/
def createdCount (runs : List (List Exchange × Option Error)) : Nat :=
  (runs.flatMap (·.1)).countP Exchange.createdOk

theorem countP_createdOk_le (t : List Exchange) : t.countP Exchange.createdOk ≤ t.countP (·.call.isCreate) :=
  List.countP_mono_left fun x _ h => by
    simp only [Exchange.createdOk, Bool.and_eq_true] at h
    exact h.1

/-- One run of `ensureNetwork`: when its inspect finds the network it returns `nil` and creates
nothing; in any case at most one create succeeds. -/
theorem ensureNetwork_run_creates {n : NetworkConfig} {t : List Exchange} {r : Option Error}
    (h : (ensureNetwork n).Runs t r) :
    (∀ x rest, t = x :: rest → x.ack? = some (.ok ()) → r = none ∧ t.countP (·.call.isCreate) = 0) ∧
      t.countP Exchange.createdOk ≤ 1 := by
  obtain ⟨x, rest, ans, rfl, hx, hack, hm⟩ := ensureNetwork_contract n t r h
  have hcount : (x :: rest).countP (·.call.isCreate) = (rest.filter (·.call.isCreate)).length := by
    rw [List.countP_cons, hx, List.countP_eq_length_filter]; rfl
  refine ⟨fun x' rest' ht hok => ?_, (countP_createdOk_le _).trans ?_⟩
  · obtain ⟨rfl, rfl⟩ := List.cons.inj ht
    rw [hack, Option.some_inj] at hok
    subst hok
    exact ⟨hm.2, hcount.trans (by rw [hm.1]; rfl)⟩
  · rw [hcount]
    rcases ans with e | ⟨⟩
    · dsimp only at hm
      split at hm
      · split at hm
        · rw [hm.1]; decide
        · obtain ⟨y, hy, -⟩ := hm; rw [hy]; rfl
      · rw [hm.1]; decide
    · rw [hm.1]; decide

/-- Successive runs of `ensureNetwork n`, each with its calls and result, against a runtime that
remembers: once a create has succeeded, each later inspect finds the network. -/
inductive Remembering (n : NetworkConfig) : List (List Exchange × Option Error) → Prop
  | nil : Remembering n []
  | snoc {runs : List (List Exchange × Option Error)} {x : Exchange} {rest : List Exchange} {r : Option Error} :
      Remembering n runs → (ensureNetwork n).Runs (x :: rest) r →
      (0 < createdCount runs → x.ack? = some (.ok ())) → Remembering n (runs ++ [(x :: rest, r)])

/-- Over successive `ensureNetwork n` against a runtime that remembers what it created, at most
one create succeeds, and every run after one that created the network returns `nil` and creates
nothing. -/
theorem ensureNetwork_creates_once {n : NetworkConfig} {runs : List (List Exchange × Option Error)}
    (h : Remembering n runs) :
    createdCount runs ≤ 1 ∧ ∀ pre t r post, runs = pre ++ (t, r) :: post → 0 < createdCount pre →
      r = none ∧ t.countP (·.call.isCreate) = 0 := by
  induction h with
  | nil => exact ⟨Nat.zero_le _, fun pre _ _ _ h => absurd h.symm (by simp)⟩
  | @snoc runs x rest r _ hrun hfound ih =>
    have hsum : createdCount (runs ++ [(x :: rest, r)]) = createdCount runs + (x :: rest).countP Exchange.createdOk := by
      simp [createdCount]
    obtain ⟨hafter, hle⟩ := ensureNetwork_run_creates hrun
    refine ⟨?_, fun pre t r' post he hpre => ?_⟩
    · rw [hsum]
      rcases Nat.eq_zero_or_pos (createdCount runs) with h0 | hpos
      · omega
      · have := (countP_createdOk_le _).trans_eq (hafter x rest rfl (hfound hpos)).2
        omega
    · rcases List.eq_nil_or_concat post with rfl | ⟨L, b, rfl⟩
      · obtain ⟨rfl, h2⟩ := List.append_inj' he rfl
        simp only [List.cons.injEq, Prod.mk.injEq, and_true] at h2
        obtain ⟨rfl, rfl⟩ := h2
        exact hafter x rest rfl (hfound hpre)
      · rw [List.concat_eq_append, ← List.cons_append, ← List.append_assoc] at he
        exact ih.2 pre t r' L (List.append_inj' he rfl).1 hpre

/-- Two ensures of network `demo_default`: the first finds it absent and creates it, the second
finds it. -/
theorem ensureNetwork_creates_once_twice :
    let n : NetworkConfig := { name := "demo_default" }
    let created : List Exchange := [⟨.networkInspect n.name, .error { msg := "not found", notFound := true }⟩,
      ⟨.event (.creating ("Network " ++ quote n.name)), ()⟩, ⟨.networkCreate n.name (networkCreateOptions n), .ok ()⟩,
      ⟨.event (.created ("Network " ++ quote n.name)), ()⟩]
    let found : List Exchange := [⟨.networkInspect n.name, .ok ()⟩]
    Remembering n [(created, none), (found, none)] ∧ createdCount [(created, none), (found, none)] ≤ 1 ∧
      ∀ pre t r post, [(created, none), (found, none)] = pre ++ (t, r) :: post → 0 < createdCount pre →
        r = none ∧ t.countP (·.call.isCreate) = 0 := by
  intro n created found
  have h₁ : (ensureNetwork n).Runs created none := .call _ (.call _ (.call _ (.call _ (.pure _))))
  have h₂ : (ensureNetwork n).Runs found none := .call _ (.pure _)
  have h : Remembering n [(created, none), (found, none)] :=
    .snoc (.snoc .nil h₁ fun h => absurd h (by decide)) h₂ fun _ => rfl
  exact ⟨h, ensureNetwork_creates_once h⟩

/-! ## Volumes -/

/-- The create body `ensureVolume` sends: it carries the volume's labels and driver options,
although the comment above the call in the source says that neither is supported. -/
def volumeCreateBody (volume : VolumeConfig) : VolumeCreateBody :=
  { labels := volume.labels, name := volume.name, driver := volume.driver, driverOpts := volume.driverOpts }

/-- `ensureVolume`. In the create's error arm `err` is the create's error; after a successful
create, `err` is again the inspect's. -/
def ensureVolume (volume : VolumeConfig) : Prog (Option Error) := do
  match ← send (.volumeInspect volume.name) with
  | .ok _ => return none
  | .error err =>
    if err.notFound then
      let eventName := "Volume " ++ quote volume.name
      emit (.creating eventName)
      match ← send (.volumeCreate (volumeCreateBody volume)) with
      | .error err =>
        emit (.error eventName)
        return some err
      | .ok _ =>
        emit (.created eventName)
        return some err
    else return some err

/-- For every volume, when the inspect reports it absent and the create succeeds, `ensureVolume`
returns the inspect's not-found error; and it creates the volume even when it is external. So
the run breaks the ensure contract, whatever the volume. -/
theorem ensureVolume_breaks_contract (v : VolumeConfig) (msg : String) :
    let err : Error := { msg, notFound := true }
    let t : List Exchange := [⟨.volumeInspect v.name, .error err⟩, ⟨.event (.creating ("Volume " ++ quote v.name)), ()⟩,
      ⟨.volumeCreate (volumeCreateBody v), .ok ()⟩, ⟨.event (.created ("Volume " ++ quote v.name)), ()⟩]
    (ensureVolume v).Runs t (some err) ∧
      ¬ EnsureContract (.volumeInspect v.name) (.volumeCreate (volumeCreateBody v)) v.external.external t (some err) := by
  intro err t
  refine ⟨?_, ?_⟩
  · exact .call _ (.call _ (.call _ (.call _ (.pure _))))
  · rintro ⟨x, rest, ans, ht, -, hx, hm⟩
    simp only [t, List.cons.injEq] at ht
    obtain ⟨rfl, rfl⟩ := ht
    cases hx
    by_cases ext : v.external.external <;> simp [err, ext, Call.isCreate, Exchange.ack?] at hm

/-- The runs of `ensureVolume`: the inspect finds the volume and the result is `nil`; or it fails
and its error is returned; or it reports the volume absent, and the create is made and an error
returned, whether the create succeeded or not. -/
theorem ensureVolume_runs {v : VolumeConfig} {t : List Exchange} {r : Option Error} (h : (ensureVolume v).Runs t r) :
    (t = [⟨.volumeInspect v.name, .ok ()⟩] ∧ r = none) ∨
      (∃ e : Error, t = [⟨.volumeInspect v.name, .error e⟩] ∧ r = some e) ∨
      ∃ (e : Error) (ac : Except Error Unit) (ev : Event),
        t = [⟨.volumeInspect v.name, .error e⟩, ⟨.event (.creating ("Volume " ++ quote v.name)), ()⟩,
          ⟨.volumeCreate (volumeCreateBody v), ac⟩, ⟨.event ev, ()⟩] ∧ r.isSome := by
  unfold ensureVolume at h
  rw [runs_bind_send] at h
  obtain ⟨ans, t', rfl, h⟩ := h
  rcases ans with err | ⟨⟩
  · dsimp only at h
    split at h
    · rw [runs_bind_emit] at h
      obtain ⟨t₂, rfl, h⟩ := h
      rw [runs_bind_send] at h
      obtain ⟨ac, t₃, rfl, h⟩ := h
      right; right
      rcases ac with e | _ <;>
      · dsimp only at h
        rw [runs_bind_emit] at h
        obtain ⟨t₄, rfl, h⟩ := h
        simp only [pure_eq, runs_pure_iff] at h
        obtain ⟨rfl, rfl⟩ := h
        exact ⟨_, _, _, rfl, rfl⟩
    · simp only [pure_eq, runs_pure_iff] at h
      obtain ⟨rfl, rfl⟩ := h
      exact .inr (.inl ⟨_, rfl, rfl⟩)
  · simp only [pure_eq, runs_pure_iff] at h
    obtain ⟨rfl, rfl⟩ := h
    exact .inl ⟨rfl, rfl⟩

/-- A run of `ensureVolume` creates at most one volume, and a run that creates one returns an
error, whether the create succeeded or not. -/
theorem ensureVolume_creates {v : VolumeConfig} {t : List Exchange} {r : Option Error}
    (h : (ensureVolume v).Runs t r) :
    t.countP (·.call.createsVolume) = 0 ∨ t.countP (·.call.createsVolume) = 1 ∧ r.isSome := by
  rcases ensureVolume_runs h with ⟨rfl, -⟩ | ⟨e, rfl, -⟩ | ⟨e, ac, ev, rfl, hr⟩
  · exact .inl rfl
  · exact .inl rfl
  · exact .inr ⟨rfl, hr⟩

/-- A run of `ensureVolume` that returns `nil` found the volume, and made no other call. -/
theorem ensureVolume_nil {v : VolumeConfig} {t : List Exchange} (h : (ensureVolume v).Runs t none) :
    t = [⟨.volumeInspect v.name, .ok ()⟩] := by
  rcases ensureVolume_runs h with ⟨rfl, -⟩ | ⟨e, -, h⟩ | ⟨-, -, -, -, h⟩
  · rfl
  · cases h
  · cases h

/-! ## Removing networks -/

/-- `ensureNetworkDown`. -/
def ensureNetworkDown (networkID networkName : String) : Prog (Option Error) := do
  let eventName := "Network " ++ quote networkName
  emit (.removing eventName)
  match ← send (.networkRemove networkID) with
  | .error err =>
    emit (.error eventName)
    return some (err.wrapf ("failed to create network " ++ networkID))
  | .ok () =>
    emit (.removed eventName)
    return none

end Compose
