/-
`Up`: the images, then every network and every volume ensured under the name `Up` gives it, then
the services, on the project with those names. The network loop renames a non-external network
whose name is its key to `<project>_<key>`; the volume loop renames every non-external volume with
a name. Neither follows the spec's one naming rule: the network loop keeps an empty name, and the
volume loop renames a volume with an explicit name. The mounts of a service's named volumes name
the volume by its key, which is not the name `Up` ensured, and a container's endpoint takes its
aliases from the service's network of the renamed name, which the service does not declare.
In every run, whatever the runtime answers, `Up` creates only networks of the project that are
not external, under the name and with the options its loop gives them, each after an inspect of
that name reported it absent; and it creates at most one volume, and fails before the services
when it does, since `ensureVolume` returns an error after every create. It reaches the services
only once every network has been found or created and every volume found. So, against an engine
that finds a volume only when it exists, a run that reaches the services comes after one failing
run of `Up` for each volume the engine did not start with.
-/
import LocalCompose.Ensure
import LocalCompose.Create
import LocalCompose.Engine.Guard

namespace Compose

open Prog

section Up

variable (K : LabelKeys)

/-- The labels `Up` adds to a network or a volume of key `k`: `kindLabel` (the network or the
volume label) set to `k`, the project's name, the version. -/
def upLabels (labels : List (String × String)) (kindLabel k projectName : String) : List (String × String) :=
  addLabel (addLabel (addLabel labels kindLabel k) K.projectLabel projectName) K.versionLabel K.composeVersion

/-- The network loop's renaming of the network of key `k`: when it is not external and its name
is `k`, named `<project>_<k>` and stored back in the project. -/
def renameNetwork (project : Project) (k : String) (network : NetworkConfig) : NetworkConfig × Project :=
  if !network.external.external ∧ network.name = k then
    let network := { network with name := project.name ++ "_" ++ k }
    (network, { project with networks := mapSet project.networks k network })
  else (network, project)

/-- The volume loop's renaming of the volume of key `k`: when it is not external and has a name,
named `<project>_<k>` and stored back in the project. -/
def renameVolume (project : Project) (k : String) (volume : VolumeConfig) : VolumeConfig × Project :=
  if !volume.external.external ∧ volume.name ≠ "" then
    let volume := { volume with name := project.name ++ "_" ++ k }
    (volume, { project with volumes := mapSet project.volumes k volume })
  else (volume, project)

/-- Modelled from the spec: the name a resource of key `k` is ensured under, one rule for networks
and volumes: an external resource keeps its name; another is named `<project>_<k>` when its name
is empty or `k`, and keeps any other name. -/
def resourceName (projectName k : String) (external : Bool) (name : String) : String :=
  if external then name else if name = "" ∨ name = k then projectName ++ "_" ++ k else name

theorem renameNetwork_name (project : Project) (k : String) (network : NetworkConfig) :
    (renameNetwork project k network).1.name =
      if !network.external.external ∧ network.name = k then project.name ++ "_" ++ k else network.name := by
  unfold renameNetwork; split <;> rfl

theorem renameVolume_name (project : Project) (k : String) (volume : VolumeConfig) :
    (renameVolume project k volume).1.name =
      if !volume.external.external ∧ volume.name ≠ "" then project.name ++ "_" ++ k else volume.name := by
  unfold renameVolume; split <;> rfl

/-- The network loop names a network by the rule, except a non-external one with no name and a
non-empty key, which keeps the empty name. -/
theorem renameNetwork_name_eq_iff (project : Project) (k : String) (network : NetworkConfig) :
    (renameNetwork project k network).1.name = resourceName project.name k network.external.external network.name ↔
      network.external.external ∨ network.name = k ∨ network.name ≠ "" := by
  rw [renameNetwork_name, resourceName]
  have hne := underscore_name_ne_empty project.name k
  cases network.external.external
  · by_cases hk : network.name = k
    · simp [hk]
    · by_cases he : network.name = "" <;> simp [hk, he, Ne.symm hne]
  · simp

/-- The volume loop names a volume by the rule only when it is external, or named `k` or
already `<project>_<k>`: a non-external volume with no name keeps the empty name, and one with
another name is renamed. -/
theorem renameVolume_name_eq_iff (project : Project) (k : String) (volume : VolumeConfig) :
    (renameVolume project k volume).1.name = resourceName project.name k volume.external.external volume.name ↔
      volume.external.external ∨ volume.name ≠ "" ∧ (volume.name = k ∨ volume.name = project.name ++ "_" ++ k) := by
  rw [renameVolume_name, resourceName]
  have hne := underscore_name_ne_empty project.name k
  cases volume.external.external
  · by_cases he : volume.name = ""
    · simp [he, Ne.symm hne]
    · by_cases hk : volume.name = k
      · subst hk; simp [he]
      · simpa [he, hk] using eq_comm
  · simp

/-- A naming loop of `Up` over the entries of a map of resources: each resource renamed by
`rename`, then labelled and ensured by `ensure`, in the map's iteration order; the first error
ends the loop. The labels are added to the loop's copy only. In Go, `Labels.Add` writes into the
label map when it is not nil, and the copy shares that map with the project's entry, so the
project passed on to the services carries the added labels on those entries; no function
modelled here reads a network's or a volume's labels from that project. -/
def upLoop {β : Type} (rename : Project → String → β → β × Project)
    (ensure : String → Project → β → Prog (Option Error)) : Project → List (String × β) → Prog (Except Error Project)
  | project, [] => return .ok project
  | project, (k, resource) :: rest => do
    let r := rename project k resource
    match ← ensure k project r.1 with
    | some err => return .error err
    | none => upLoop rename ensure r.2 rest

/-- The network loop of `Up`. -/
def upNetworks : Project → List (String × NetworkConfig) → Prog (Except Error Project) :=
  upLoop renameNetwork fun k project network =>
    ensureNetwork { network with labels := upLabels K network.labels K.networkLabel k project.name }

/-- The volume loop of `Up`. -/
def upVolumes : Project → List (String × VolumeConfig) → Prog (Except Error Project) :=
  upLoop renameVolume fun k project volume =>
    ensureVolume { volume with labels := upLabels K volume.labels K.volumeLabel k project.name }

/-- `Up`. -/
def up (project : Project) : Prog (Option Error) := do
  match ← send (.ensureImagesExists project) with
  | .error err => return some err
  | .ok () =>
    match ← upNetworks K project project.networks with
    | .error err => return some err
    | .ok project =>
      match ← upVolumes K project project.volumes with
      | .error err => return some err
      | .ok project =>
        match ← send (.ensureServices project) with
        | .error err => return some err
        | .ok () => return none

/-! ## The project the services are created from -/

/-- Project `demo` with a volume of key `data` named `data`, mounted by service `db`: `Up` inspects
the volume `demo_data` and creates the services from the project where the volume of key `data`
is named `demo_data`, but the mount of `db`'s container names the volume `data`. -/
theorem up_mounts_volume_by_key :
    let db : ServiceConfig := { name := "db", volumes := [{ type := "volume", source := "data", target := "/var/lib/db" }] }
    let p : Project := { name := "demo", services := [db], volumes := [("data", { name := "data" })] }
    ∃ t p', (up specKeys p).Runs t none ∧
      Call.volumeInspect "demo_data" ∈ t.map (·.call) ∧ Call.ensureServices p' ∈ t.map (·.call) ∧
      (p'.volumes.lookup "data").map (·.name) = some "demo_data" ∧
      ∃ cfg host net, getContainerCreateOptions specKeys (fun _ => .ok "h") p' db 1 none = some (.ok (cfg, host, net)) ∧
        host.mounts.map (·.source) = ["data"] := by
  intro db p
  exact ⟨_, (renameVolume p "data" { name := "data" }).2, @runs_of_runWith _ Call.okAnswer _ _ _ rfl,
    by decide, by decide, by decide, _, _, _, rfl, by decide⟩

/-- Project `demo` with a network of key `front` and no name, and a volume of key `data` named
`shared`: `Up` ensures the network `""` and the volume `demo_data`, where the one rule gives
`demo_front` and `shared`. -/
theorem up_names_resources_apart :
    let p : Project := { name := "demo", networks := [("front", { name := "" })], volumes := [("data", { name := "shared" })] }
    resourceName "demo" "front" false "" = "demo_front" ∧ resourceName "demo" "data" false "shared" = "shared" ∧
      ∃ t, (up specKeys p).Runs t none ∧
        Call.networkInspect "" ∈ t.map (·.call) ∧ Call.networkInspect "demo_front" ∉ t.map (·.call) ∧
        Call.volumeInspect "demo_data" ∈ t.map (·.call) ∧ Call.volumeInspect "shared" ∉ t.map (·.call) := by
  intro p
  exact ⟨rfl, rfl, _, @runs_of_runWith _ Call.okAnswer _ _ _ rfl, by decide, by decide, by decide, by decide⟩

/-- Project `demo` with the network `front`, which `Up` names `demo_front`, and service `web`,
which gives itself the alias `web.local` on `front`: from the project `Up` creates the services
from, `web`'s container has its one endpoint keyed `demo_front`, with the alias `web` alone. -/
theorem up_endpoint_loses_aliases :
    let web : ServiceConfig := { name := "web", networks := [("front", some { aliases := ["web.local"] })] }
    let p : Project := { name := "demo", services := [web], networks := [("front", { name := "front" })] }
    ∃ t p', (up specKeys p).Runs t none ∧ Call.ensureServices p' ∈ t.map (·.call) ∧
      (p'.networks.lookup "front").map (·.name) = some "demo_front" ∧
      ∃ cfg host, getContainerCreateOptions specKeys (fun _ => .ok "h") p' web 1 none =
        some (.ok (cfg, host, { endpointsConfig := [("demo_front", { aliases := ["web"] })] })) := by
  intro web p
  exact ⟨_, (renameNetwork p "front" { name := "front" }).2, @runs_of_runWith _ Call.okAnswer _ _ _ rfl,
    by decide, by decide, _, _, rfl⟩

/-! ## What a run of `Up` creates -/

/-- Whether a call ensures the services. -/
def Call.ensuresServices : Call → Bool
  | .ensureServices _ => true
  | _ => false

/-- The network the network loop of `Up` ensures for the network `n` of key `k`: renamed, then
labelled. -/
def upNetwork (project : Project) (k : String) (n : NetworkConfig) : NetworkConfig :=
  let network := (renameNetwork project k n).1
  { network with labels := upLabels K network.labels K.networkLabel k project.name }

theorem renameNetwork_fst_of_name {project project' : Project} (h : project'.name = project.name) (k : String)
    (n : NetworkConfig) : (renameNetwork project' k n).1 = (renameNetwork project k n).1 := by
  unfold renameNetwork; split <;> simp [h]

theorem renameNetwork_snd_name (project : Project) (k : String) (n : NetworkConfig) :
    (renameNetwork project k n).2.name = project.name := by
  unfold renameNetwork; split <;> rfl

theorem renameNetwork_snd_volumes (project : Project) (k : String) (n : NetworkConfig) :
    (renameNetwork project k n).2.volumes = project.volumes := by
  unfold renameNetwork; split <;> rfl

theorem renameVolume_fst_of_name {project project' : Project} (h : project'.name = project.name) (k : String)
    (v : VolumeConfig) : (renameVolume project' k v).1 = (renameVolume project k v).1 := by
  unfold renameVolume; split <;> simp [h]

theorem renameVolume_snd_name (project : Project) (k : String) (v : VolumeConfig) :
    (renameVolume project k v).2.name = project.name := by
  unfold renameVolume; split <;> rfl

/-- The network ensured for a key depends on the project only through its name, which the loop
keeps. -/
theorem upNetwork_of_name {project project' : Project} (h : project'.name = project.name) (k : String)
    (n : NetworkConfig) : upNetwork K project' k n = upNetwork K project k n := by
  simp only [upNetwork, renameNetwork_fst_of_name h, h]

theorem upNetwork_external (project : Project) (k : String) (n : NetworkConfig) :
    (upNetwork K project k n).external = n.external := by
  unfold upNetwork renameNetwork; split <;> rfl

section Loop

variable {β : Type} (rename : Project → String → β → β × Project)
  (ensure : String → Project → β → Prog (Option Error))

/-- Every call of a naming loop satisfies `P` when every call of each ensure does. -/
theorem calls_upLoop {P : Call → Prop} (hens : ∀ k project b, (ensure k project b).Calls P) :
    ∀ project resources, (upLoop rename ensure project resources).Calls P
  | _, [] => .pure _
  | project, (k, _) :: rest => (hens k project _).bind fun
    | none => calls_upLoop hens _ rest
    | some _ => .pure _

/-- A naming loop is guarded when each ensure is, for every resource of the loop and every project
the loop reaches: `Inv`, which each renaming keeps. -/
theorem guarded_upLoop {G : Guard} {D A : List Nat} (Inv : Project → Prop)
    (hrename : ∀ project k b, Inv project → Inv (rename project k b).2) :
    ∀ resources : List (String × β), (∀ project k b t, Inv project → (k, b) ∈ resources →
      (ensure k project (rename project k b).1).Guarded G t D A) →
      ∀ project t, Inv project → (upLoop rename ensure project resources).Guarded G t D A
  | [], _, _, _, _ => .pure _
  | (k, b) :: rest, hens, project, t, hi => (hens project k b t hi (List.mem_cons_self _ _)).bind fun
    | none, t', _ => guarded_upLoop Inv hrename rest
        (fun pr k' b' t'' hpr hm => hens pr k' b' t'' hpr (List.mem_cons_of_mem _ hm)) _ t' (hrename project k b hi)
    | some _, _, _ => .pure _

/-- A naming loop whose ensures each make at most one call that `F` counts, and fail when they
make one, makes at most one such call, and fails when it makes one. -/
theorem upLoop_creates_one (F : Exchange → Bool)
    (hens : ∀ k project b t e, (ensure k project b).Runs t e → t.countP F = 0 ∨ t.countP F = 1 ∧ e.isSome) :
    ∀ project resources t r, (upLoop rename ensure project resources).Runs t r →
      t.countP F = 0 ∨ t.countP F = 1 ∧ ∃ e, r = .error e
  | project, [], t, r, h => by
    rw [upLoop, pure_eq, runs_pure_iff] at h
    obtain ⟨rfl, -⟩ := h
    exact .inl rfl
  | project, (k, b) :: rest, t, r, h => by
    rw [upLoop, runs_bind] at h
    obtain ⟨e, t₁, t₂, rfl, h₁, h₂⟩ := h
    rw [List.countP_append]
    rcases e with _ | err
    · rw [(hens _ _ _ _ _ h₁).resolve_right (fun ⟨_, h⟩ => by cases h), Nat.zero_add]
      exact upLoop_creates_one F hens _ rest t₂ r h₂
    · simp only [pure_eq, runs_pure_iff] at h₂
      obtain ⟨rfl, rfl⟩ := h₂
      rcases hens _ _ _ _ _ h₁ with h | ⟨h, -⟩
      · exact .inl (by simp [h])
      · exact .inr ⟨by simp [h], err, rfl⟩

/-- A run of a naming loop that goes through ran, for each resource, its ensure to `nil`, within
the loop's calls and on a project the loop reached (`Inv`, which each renaming keeps); the
project it returns is one the loop reached. -/
theorem upLoop_ok_ensured (Inv : Project → Prop) (hrename : ∀ project k b, Inv project → Inv (rename project k b).2) :
    ∀ (resources : List (String × β)) (project : Project) (t : List Exchange) (project' : Project), Inv project →
      (upLoop rename ensure project resources).Runs t (.ok project') →
      Inv project' ∧ ∀ k b, (k, b) ∈ resources → ∃ pr t₁, Inv pr ∧ t₁ ⊆ t ∧ (ensure k pr (rename pr k b).1).Runs t₁ none
  | [], project, t, project', hi, h => by
    rw [upLoop, pure_eq, runs_pure_iff] at h
    obtain ⟨-, ⟨⟩⟩ := h
    exact ⟨hi, fun _ _ h => nomatch h⟩
  | (k, b) :: rest, project, t, project', hi, h => by
    rw [upLoop, runs_bind] at h
    obtain ⟨e, t₁, t₂, rfl, h₁, h₂⟩ := h
    rcases e with _ | err
    · obtain ⟨hi', hall⟩ := upLoop_ok_ensured Inv hrename rest _ t₂ project' (hrename project k b hi) h₂
      refine ⟨hi', fun k' b' hm => ?_⟩
      rcases List.mem_cons.1 hm with he | hm
      · cases he
        exact ⟨project, t₁, hi, List.subset_append_left _ _, h₁⟩
      · obtain ⟨pr, t₃, hpr, ht₃, h₃⟩ := hall k' b' hm
        exact ⟨pr, t₃, hpr, List.Subset.trans ht₃ (List.subset_append_right _ _), h₃⟩
    · simp at h₂

end Loop

theorem calls_ensureNetwork (n : NetworkConfig) :
    (ensureNetwork n).Calls fun c => c.createsVolume = false ∧ c.ensuresServices = false := by
  refine Calls.send_bind ⟨rfl, rfl⟩ fun r => ?_
  rcases r with err | _
  · dsimp only
    split
    · split
      · exact .pure _
      · refine Calls.emit_bind ⟨rfl, rfl⟩ (Calls.send_bind ⟨rfl, rfl⟩ fun r => ?_)
        rcases r with _ | _ <;> exact Calls.emit_bind ⟨rfl, rfl⟩ (.pure _)
    · exact .pure _
  · exact .pure _

theorem calls_ensureVolume (v : VolumeConfig) : (ensureVolume v).Calls fun c => c.ensuresServices = false := by
  refine Calls.send_bind rfl fun r => ?_
  rcases r with err | _
  · dsimp only
    split
    · refine Calls.emit_bind rfl (Calls.send_bind rfl fun r => ?_)
      rcases r with _ | _ <;> exact Calls.emit_bind rfl (.pure _)
    · exact .pure _
  · exact .pure _

theorem calls_upNetworks (project : Project) (networks : List (String × NetworkConfig)) :
    (upNetworks K project networks).Calls fun c => c.createsVolume = false ∧ c.ensuresServices = false :=
  calls_upLoop _ _ (fun _ _ _ => calls_ensureNetwork _) project networks

theorem calls_upVolumes (project : Project) (volumes : List (String × VolumeConfig)) :
    (upVolumes K project volumes).Calls fun c => c.ensuresServices = false :=
  calls_upLoop _ _ (fun _ _ _ => calls_ensureVolume _) project volumes

theorem ensureServices_not_mem {t : List Exchange} (h : ∀ x ∈ t, x.call.ensuresServices = false) (p : Project) :
    Call.ensureServices p ∉ t.map (·.call) := fun hp => by
  obtain ⟨x, hx, hxp⟩ := List.mem_map.1 hp
  have hx := h x hx
  rw [hxp] at hx
  cases hx

/-- The runs of `Up`: it stops at the first step that fails, and ensures the services only after
the images, the network loop and the volume loop went through, on the project the loops gave. -/
theorem up_runs (project : Project) {t : List Exchange} {r : Option Error} (h : (up K project).Runs t r) :
    (∃ e, t = [⟨.ensureImagesExists project, .error e⟩] ∧ r = some e) ∨
    (∃ t₁ e, (upNetworks K project project.networks).Runs t₁ (.error e) ∧
      t = ⟨.ensureImagesExists project, .ok ()⟩ :: t₁ ∧ r = some e) ∨
    (∃ t₁ p₁ t₂ e, (upNetworks K project project.networks).Runs t₁ (.ok p₁) ∧
      (upVolumes K p₁ p₁.volumes).Runs t₂ (.error e) ∧
      t = ⟨.ensureImagesExists project, .ok ()⟩ :: (t₁ ++ t₂) ∧ r = some e) ∨
    (∃ t₁ p₁ t₂ p₂ a, (upNetworks K project project.networks).Runs t₁ (.ok p₁) ∧
      (upVolumes K p₁ p₁.volumes).Runs t₂ (.ok p₂) ∧
      t = ⟨.ensureImagesExists project, .ok ()⟩ :: (t₁ ++ t₂ ++ [⟨.ensureServices p₂, a⟩]) ∧
      ((∃ e, a = .error e ∧ r = some e) ∨ (a = .ok () ∧ r = none))) := by
  unfold up at h
  rw [runs_bind_send] at h
  obtain ⟨img, t', rfl, h⟩ := h
  rcases img with e | ⟨⟩
  · simp only [pure_eq, runs_pure_iff] at h
    obtain ⟨rfl, rfl⟩ := h
    exact .inl ⟨e, rfl, rfl⟩
  dsimp only at h
  rw [runs_bind] at h
  obtain ⟨rn, t₁, t₂, rfl, hn, h⟩ := h
  rcases rn with e | p₁
  · simp only [pure_eq, runs_pure_iff] at h
    obtain ⟨rfl, rfl⟩ := h
    exact .inr (.inl ⟨t₁, e, hn, by simp, rfl⟩)
  dsimp only at h
  rw [runs_bind] at h
  obtain ⟨rv, t₃, t₄, rfl, hv, h⟩ := h
  rcases rv with e | p₂
  · simp only [pure_eq, runs_pure_iff] at h
    obtain ⟨rfl, rfl⟩ := h
    exact .inr (.inr (.inl ⟨t₁, p₁, t₃, e, hn, hv, by simp, rfl⟩))
  dsimp only at h
  rw [runs_bind_send] at h
  obtain ⟨a, t₅, rfl, h⟩ := h
  refine .inr (.inr (.inr ⟨t₁, p₁, t₃, p₂, a, hn, hv, ?_⟩))
  rcases a with e | ⟨⟩ <;> simp only [pure_eq, runs_pure_iff] at h <;> obtain ⟨rfl, rfl⟩ := h
  · exact ⟨by simp, .inl ⟨e, rfl, rfl⟩⟩
  · exact ⟨by simp, .inr ⟨rfl, rfl⟩⟩

/-- The network loop of `Up` creates no volume and does not ensure the services. -/
theorem upNetworks_calls (project : Project) {t : List Exchange} {r : Except Error Project}
    (h : (upNetworks K project project.networks).Runs t r) :
    t.countP (·.call.createsVolume) = 0 ∧ ∀ x ∈ t, x.call.ensuresServices = false :=
  have hc := (calls_upNetworks K project project.networks).runs h
  ⟨List.countP_eq_zero.2 fun x hx => by simp [(hc x hx).1], fun x hx => (hc x hx).2⟩

/-- Every run of `Up` creates at most one volume, and a run that creates one returns an error
before it ensures the services: `ensureVolume` returns an error after every create. -/
theorem up_creates_one_volume (project : Project) {t : List Exchange} {r : Option Error}
    (h : (up K project).Runs t r) :
    t.countP (·.call.createsVolume) ≤ 1 ∧
      (0 < t.countP (·.call.createsVolume) → r.isSome ∧ ∀ p, Call.ensureServices p ∉ t.map (·.call)) := by
  have hv₀ : ∀ {p : Project} {t₂ rv}, (upVolumes K p p.volumes).Runs t₂ rv →
      t₂.countP (·.call.createsVolume) = 0 ∨ t₂.countP (·.call.createsVolume) = 1 ∧ ∃ e, rv = .error e :=
    fun hv => upLoop_creates_one _ _ (·.call.createsVolume) (fun _ _ _ _ _ h => ensureVolume_creates h) _ _ _ _ hv
  rcases up_runs K project h with ⟨e, rfl, rfl⟩ | ⟨t₁, e, hn, rfl, rfl⟩ | ⟨t₁, p₁, t₂, e, hn, hv, rfl, rfl⟩ |
    ⟨t₁, p₁, t₂, p₂, a, hn, hv, rfl, -⟩
  · simp
  · simp [(upNetworks_calls K project hn).1]
  · refine ⟨by rcases hv₀ hv with hc | ⟨hc, -⟩ <;> simp [(upNetworks_calls K project hn).1, hc],
      fun _ => ⟨rfl, ensureServices_not_mem ?_⟩⟩
    exact List.forall_mem_cons.2 ⟨rfl, List.forall_mem_append.2
      ⟨(upNetworks_calls K project hn).2, (calls_upVolumes K p₁ p₁.volumes).runs hv⟩⟩
  · have hc₂ := (hv₀ hv).resolve_right fun ⟨_, _, h⟩ => by cases h
    simp [(upNetworks_calls K project hn).1, hc₂]

/-- The runtime of an engine with no networks and no volumes: each inspect of one reports it
absent, and every other call is accepted. -/
def emptyEngine : Answers
  | .networkInspect _ => .error { msg := "not found", notFound := true }
  | .volumeInspect _ => .error { msg := "not found", notFound := true }
  | c => c.okAnswer

/-- What `Up` may do, having seen `t`: create a network only once an inspect of its name has
reported it absent, and only a network of the project that is not external, under the name and
with the options the network loop gives it. -/
def upGuard (project : Project) : Guard where
  allowed t c := ∀ name opts, c = .networkCreate name opts →
    (∃ e : Error, e.notFound ∧ Exchange.mk (.networkInspect name) (.error e) ∈ t) ∧
      ∃ k n, (k, n) ∈ project.networks ∧ n.external.external = false ∧
        name = (upNetwork K project k n).name ∧ opts = networkCreateOptions (upNetwork K project k n)
  good _ _ := True
  allowed_mono := fun ht h name opts hc => (h name opts hc).imp (fun ⟨e, he, hm⟩ => ⟨e, he, ht hm⟩) id
  good_mono := fun _ _ => trivial

theorem guarded_ensureNetwork (project : Project) {k : String} {n : NetworkConfig} (hk : (k, n) ∈ project.networks)
    (t : List Exchange) (D A : List Nat) : (ensureNetwork (upNetwork K project k n)).Guarded (upGuard K project) t D A := by
  refine Guarded.send_bind (fun _ _ h => nomatch h) fun r => ?_
  rcases r with err | _
  · dsimp only
    split
    · split
      · exact .pure _
      · rename_i hnf hext
        refine Guarded.emit_bind (fun _ _ h => nomatch h) fun t' ht' => Guarded.send_bind ?_ fun r => ?_
        · rintro _ _ ⟨⟩
          refine ⟨⟨err, hnf, ht' (List.mem_cons_self _ _)⟩, k, n, hk, ?_, rfl, rfl⟩
          simpa [upNetwork_external] using hext
        · rcases r with _ | _ <;> exact Guarded.emit_bind (fun _ _ h => nomatch h) fun _ _ => .pure _
    · exact .pure _
  · exact .pure _

theorem guarded_ensureVolume (project : Project) (v : VolumeConfig) (t : List Exchange) (D A : List Nat) :
    (ensureVolume v).Guarded (upGuard K project) t D A := by
  refine Guarded.send_bind (fun _ _ h => nomatch h) fun r => ?_
  rcases r with err | _
  · dsimp only
    split
    · refine Guarded.emit_bind (fun _ _ h => nomatch h) fun _ _ => Guarded.send_bind (fun _ _ h => nomatch h) fun r => ?_
      rcases r with _ | _ <;> exact Guarded.emit_bind (fun _ _ h => nomatch h) fun _ _ => .pure _
    · exact .pure _
  · exact .pure _

theorem guarded_upNetworks (project project' : Project) (h : project'.name = project.name) (t : List Exchange) :
    (upNetworks K project' project.networks).Guarded (upGuard K project) t [] [] :=
  guarded_upLoop _ _ (fun pr => pr.name = project.name) (fun pr k n h => (renameNetwork_snd_name pr k n).trans h)
    project.networks (fun pr k n t h hk => by
      show (ensureNetwork (upNetwork K pr k n)).Guarded _ _ _ _
      rw [upNetwork_of_name K h]
      exact guarded_ensureNetwork K project hk t [] []) project' t h

theorem guarded_upVolumes (project project' : Project) (volumes : List (String × VolumeConfig)) (t : List Exchange) :
    (upVolumes K project' volumes).Guarded (upGuard K project) t [] [] :=
  guarded_upLoop _ _ (fun _ => True) (fun _ _ _ _ => trivial) volumes
    (fun _ _ _ t _ _ => by exact guarded_ensureVolume K project _ t [] []) project' t trivial

theorem guarded_up (project : Project) : (up K project).Guarded (upGuard K project) [] [] [] :=
  Guarded.send_bind (fun _ _ h => nomatch h) fun
    | .error _ => .pure _
    | .ok () => (guarded_upNetworks K project project rfl _).bind fun
      | .error _, _, _ => .pure _
      | .ok project', t', _ => (guarded_upVolumes K project project' _ t').bind fun
        | .error _, _, _ => .pure _
        | .ok _, _, _ => Guarded.send_bind (fun _ _ h => nomatch h) fun _ => by split <;> exact .pure _

/-- Every network a run of `Up` creates is a network of the project that is not external, created
under the name and with the options the network loop gives it, and only after an inspect of that
name reported it absent: for every project and every answer of the runtime. -/
theorem up_creates_declared_networks (project : Project) {t : List Exchange} {r : Option Error}
    (h : (up K project).Runs t r) :
    ∀ pre x post, t = pre ++ x :: post → ∀ name opts, x.call = .networkCreate name opts →
      (∃ e : Error, e.notFound ∧ Exchange.mk (.networkInspect name) (.error e) ∈ pre) ∧
        ∃ k n, (k, n) ∈ project.networks ∧ n.external.external = false ∧
          name = (upNetwork K project k n).name ∧ opts = networkCreateOptions (upNetwork K project k n) := by
  intro pre x post he
  simpa only [List.append_nil] using (guarded_up K project).runs h pre x post he

/-- Project `demo` with the network `front` and the external network `shared` of key `ext`, on an
engine without networks: `Up` creates `demo_front`, and fails on `shared` without creating it. -/
theorem up_creates_declared_networks_demo :
    let p : Project := { name := "demo", networks := [("front", { name := "front" }),
      ("ext", { name := "shared", external := { external := true } })] }
    ∃ t r, (up specKeys p).Runs t r ∧ r.isSome ∧
      Call.networkCreate "demo_front" (networkCreateOptions (upNetwork specKeys p "front" { name := "front" })) ∈
        t.map (·.call) ∧
      ∀ pre x post, t = pre ++ x :: post → ∀ name opts, x.call = .networkCreate name opts →
        (∃ e : Error, e.notFound ∧ Exchange.mk (.networkInspect name) (.error e) ∈ pre) ∧
          ∃ k n, (k, n) ∈ p.networks ∧ n.external.external = false ∧
            name = (upNetwork specKeys p k n).name ∧ opts = networkCreateOptions (upNetwork specKeys p k n) := by
  intro p
  have h := @runs_of_runWith _ emptyEngine (up specKeys p) _ _ rfl
  exact ⟨_, _, h, rfl, by decide, up_creates_declared_networks specKeys p h⟩

/-! ## What `Up` has ensured when it reaches the services -/

/-- A network loop that goes through found or created, for each network of the project, the
network `Up` ensures for it; the project it returns keeps the name and the volumes. -/
theorem upNetworks_ok (project : Project) {t : List Exchange} {project' : Project}
    (h : (upNetworks K project project.networks).Runs t (.ok project')) :
    (project'.name = project.name ∧ project'.volumes = project.volumes) ∧ ∀ k n, (k, n) ∈ project.networks →
      Exchange.mk (.networkInspect (upNetwork K project k n).name) (.ok ()) ∈ t ∨
        Exchange.mk (.networkCreate (upNetwork K project k n).name (networkCreateOptions (upNetwork K project k n)))
          (.ok ()) ∈ t := by
  obtain ⟨hi, hall⟩ := upLoop_ok_ensured _ _ (fun pr => pr.name = project.name ∧ pr.volumes = project.volumes)
    (fun pr k n h => ⟨(renameNetwork_snd_name pr k n).trans h.1, (renameNetwork_snd_volumes pr k n).trans h.2⟩)
    _ _ _ _ ⟨rfl, rfl⟩ h
  refine ⟨hi, fun k n hk => ?_⟩
  obtain ⟨pr, t₁, hpr, ht₁, h₁⟩ := hall k n hk
  have h₁ : (ensureNetwork (upNetwork K pr k n)).Runs t₁ none := h₁
  rw [upNetwork_of_name K hpr.1] at h₁
  exact (ensureNetwork_nil h₁).imp (fun h => ht₁ h) (fun h => ht₁ h)

/-- A volume loop that goes through, from a project of the same name, found every volume of the
project under the name the loop gives it: a volume it had to create ended the loop. -/
theorem upVolumes_ok (project pr₀ : Project) (h₀ : pr₀.name = project.name) {t : List Exchange} {project' : Project}
    (h : (upVolumes K pr₀ project.volumes).Runs t (.ok project')) :
    ∀ k v, (k, v) ∈ project.volumes → Exchange.mk (.volumeInspect (renameVolume project k v).1.name) (.ok ()) ∈ t := by
  obtain ⟨-, hall⟩ := upLoop_ok_ensured _ _ (fun pr => pr.name = project.name)
    (fun pr k v h => (renameVolume_snd_name pr k v).trans h) _ _ _ _ h₀ h
  intro k v hk
  obtain ⟨pr, t₁, hpr, ht₁, h₁⟩ := hall k v hk
  rw [← renameVolume_fst_of_name hpr]
  exact ht₁ (ensureVolume_nil h₁ ▸ List.mem_singleton_self _)

/-- A run of `Up` that ensures the services went through the network loop and the volume loop
first. -/
theorem up_runs_of_services (project : Project) {t : List Exchange} {r : Option Error}
    (h : (up K project).Runs t r) {p : Project} (hp : Call.ensureServices p ∈ t.map (·.call)) :
    ∃ t₁ p₁ t₂ p₂ a, (upNetworks K project project.networks).Runs t₁ (.ok p₁) ∧
      (upVolumes K p₁ p₁.volumes).Runs t₂ (.ok p₂) ∧
      t = ⟨.ensureImagesExists project, .ok ()⟩ :: (t₁ ++ t₂ ++ [⟨.ensureServices p₂, a⟩]) := by
  rcases up_runs K project h with ⟨e, rfl, -⟩ | ⟨t₁, e, hn, rfl, -⟩ | ⟨t₁, p₁, t₂, e, hn, hv, rfl, -⟩ |
    ⟨t₁, p₁, t₂, p₂, a, hn, hv, rfl, -⟩
  · exact absurd hp (ensureServices_not_mem (List.forall_mem_singleton.2 (by rfl)) p)
  · exact absurd hp (ensureServices_not_mem (List.forall_mem_cons.2 ⟨by rfl, (upNetworks_calls K project hn).2⟩) p)
  · exact absurd hp (ensureServices_not_mem (List.forall_mem_cons.2 ⟨by rfl, List.forall_mem_append.2
      ⟨(upNetworks_calls K project hn).2, (calls_upVolumes K p₁ p₁.volumes).runs hv⟩⟩) p)
  · exact ⟨t₁, p₁, t₂, p₂, a, hn, hv, rfl⟩

theorem up_networks_ensured (project : Project) {t : List Exchange} {r : Option Error}
    (h : (up K project).Runs t r) {p : Project} (hp : Call.ensureServices p ∈ t.map (·.call)) :
    ∀ k n, (k, n) ∈ project.networks →
      Exchange.mk (.networkInspect (upNetwork K project k n).name) (.ok ()) ∈ t ∨
        Exchange.mk (.networkCreate (upNetwork K project k n).name (networkCreateOptions (upNetwork K project k n)))
          (.ok ()) ∈ t := by
  obtain ⟨t₁, p₁, t₂, p₂, a, hn, -, rfl⟩ := up_runs_of_services K project h hp
  exact fun k n hk => ((upNetworks_ok K project hn).2 k n hk).imp (fun h => by simp [h]) (fun h => by simp [h])

/-- A run of `Up` that ensures the services found every volume of the project, under the name
`Up` gives it. -/
theorem up_volumes_found (project : Project) {t : List Exchange} {r : Option Error}
    (h : (up K project).Runs t r) {p : Project} (hp : Call.ensureServices p ∈ t.map (·.call)) :
    ∀ k v, (k, v) ∈ project.volumes → Exchange.mk (.volumeInspect (renameVolume project k v).1.name) (.ok ()) ∈ t := by
  obtain ⟨t₁, p₁, t₂, p₂, a, hn, hv, rfl⟩ := up_runs_of_services K project h hp
  obtain ⟨⟨hname, hvols⟩, -⟩ := upNetworks_ok K project hn
  rw [hvols] at hv
  exact fun k v hk => by simp [upVolumes_ok K project p₁ hname hv k v hk]

/-- `Up` ensures the services only once every network of the project has been found or created,
and every volume found, each under the name `Up` gives it: for every project and every answer
of the runtime. -/
theorem up_services_after_resources (project : Project) {t : List Exchange} {r : Option Error}
    (h : (up K project).Runs t r) {p : Project} (hp : Call.ensureServices p ∈ t.map (·.call)) :
    (∀ k n, (k, n) ∈ project.networks →
      Exchange.mk (.networkInspect (upNetwork K project k n).name) (.ok ()) ∈ t ∨
        Exchange.mk (.networkCreate (upNetwork K project k n).name (networkCreateOptions (upNetwork K project k n)))
          (.ok ()) ∈ t) ∧
      ∀ k v, (k, v) ∈ project.volumes → Exchange.mk (.volumeInspect (renameVolume project k v).1.name) (.ok ()) ∈ t :=
  ⟨up_networks_ensured K project h hp, up_volumes_found K project h hp⟩

/-- The runtime of an engine that has every volume and no network. -/
def engineWithVolumes : Answers
  | .networkInspect _ => .error { msg := "not found", notFound := true }
  | c => c.okAnswer

/-- Project `demo` with the network `front` and the volume `data`, on an engine that has the
volume: `Up` creates `demo_front`, finds `demo_data`, and reaches the services. -/
theorem up_services_after_resources_demo :
    let p : Project := { name := "demo", networks := [("front", { name := "front" })], volumes := [("data", { name := "data" })] }
    ∃ t r, (up specKeys p).Runs t r ∧ r = none ∧
      Call.ensureServices (renameVolume (renameNetwork p "front" { name := "front" }).2 "data" { name := "data" }).2 ∈
        t.map (·.call) ∧
      (∀ k n, (k, n) ∈ p.networks →
        Exchange.mk (.networkInspect (upNetwork specKeys p k n).name) (.ok ()) ∈ t ∨
          Exchange.mk (.networkCreate (upNetwork specKeys p k n).name (networkCreateOptions (upNetwork specKeys p k n)))
            (.ok ()) ∈ t) ∧
      ∀ k v, (k, v) ∈ p.volumes → Exchange.mk (.volumeInspect (renameVolume p k v).1.name) (.ok ()) ∈ t := by
  intro p
  have h := @runs_of_runWith _ engineWithVolumes (up specKeys p) _ _ rfl
  have hp := @up_services_after_resources specKeys p _ _ h
    (renameVolume (renameNetwork p "front" { name := "front" }).2 "data" { name := "data" }).2
  exact ⟨_, _, h, rfl, by decide, hp (by decide)⟩

/-! ## Successive runs of `Up` -/

/-- The volume an exchange finds: an inspect answered without error. -/
def Exchange.foundVolume? : Exchange → Option String
  | ⟨.volumeInspect name, .ok ()⟩ => some name
  | _ => none

/-- The volume an exchange creates: a create that succeeded. -/
def Exchange.createdVolume? : Exchange → Option String
  | ⟨.volumeCreate body, .ok ()⟩ => some body.name
  | _ => none

/-- An engine's history, from the volumes `existing`, in which an inspect finds a volume only when
it exists: the engine started with it, or a create earlier in the history made it. -/
def findsOnlyExisting (existing : List String) : List Exchange → Bool
  | [] => true
  | x :: rest => x.foundVolume?.all existing.contains &&
      findsOnlyExisting (x.createdVolume?.toList ++ existing) rest

/-- The names `Up` ensures the project's volumes under. -/
def upVolumeNames (project : Project) : List String :=
  project.volumes.map fun kv => (renameVolume project kv.1 kv.2).1.name

/-- In such a history, a volume found was there at the start or created before. -/
theorem found_of_findsOnlyExisting {x : Exchange} {name : String} {post : List Exchange} :
    ∀ (pre : List Exchange) {existing : List String}, findsOnlyExisting existing (pre ++ x :: post) = true →
      x.foundVolume? = some name → name ∈ existing ∨ ∃ y ∈ pre, y.createdVolume? = some name
  | [], existing, h, hx => by
    simp only [List.nil_append, findsOnlyExisting, hx, Option.all_some, Bool.and_eq_true, List.elem_eq_mem,
      decide_eq_true_eq] at h
    exact .inl h.1
  | y :: pre, existing, h, hx => by
    simp only [List.cons_append, findsOnlyExisting, Bool.and_eq_true] at h
    rcases found_of_findsOnlyExisting pre h.2 hx with h | ⟨z, hz, hzc⟩
    · rcases List.mem_append.1 h with h | h
      · exact .inr ⟨y, List.mem_cons_self _ _, Option.mem_toList.1 h⟩
      · exact .inl h
    · exact .inr ⟨z, List.mem_cons_of_mem _ hz, hzc⟩

theorem length_filterMap_createdVolume_le (t : List Exchange) :
    (t.filterMap Exchange.createdVolume?).length ≤ t.countP (·.call.createsVolume) := by
  rw [List.length_filterMap_eq_countP]
  exact List.countP_mono_left fun ⟨c, a⟩ _ h => by cases c <;> first | rfl | cases h

/-- Over runs of `Up`, the volumes created are no more than the runs that failed. -/
theorem createdVolumes_le_failures (project : Project) :
    ∀ runs : List (List Exchange × Option Error), (∀ x ∈ runs, (up K project).Runs x.1 x.2) →
      ((runs.flatMap (·.1)).filterMap Exchange.createdVolume?).length ≤ (runs.filter (·.2.isSome)).length
  | [], _ => Nat.le_refl 0
  | (t, r) :: rest, h => by
    have ih := createdVolumes_le_failures project rest fun x hx => h x (List.mem_cons_of_mem _ hx)
    have hrun : (up K project).Runs t r := h _ (List.mem_cons_self _ _)
    obtain ⟨hle, hfail⟩ := up_creates_one_volume K project hrun
    have hc := length_filterMap_createdVolume_le t
    simp only [List.flatMap_cons, List.filterMap_append, List.length_append, List.filter_cons]
    cases hr : r.isSome
    · have h0 : t.countP (·.call.createsVolume) = 0 :=
        Nat.eq_zero_of_not_pos fun hpos => by simpa [hr] using (hfail hpos).1
      simp only [hr, Bool.false_eq_true, if_false]
      omega
    · simp only [hr, if_true, List.length_cons]
      omega

/-- Against an engine that finds a volume only when it exists, a run of `Up` that reaches the
services comes after at least one failing run of `Up` for each volume name `Up` ensures that the
engine did not start with: each such volume is created before it is found, a run creates at most
one volume, and a run that creates one fails. -/
theorem up_fails_once_per_absent_volume (project : Project) (existing : List String)
    {pre : List (List Exchange × Option Error)} {t : List Exchange} {r : Option Error}
    (hpre : ∀ x ∈ pre, (up K project).Runs x.1 x.2) (ht : (up K project).Runs t r)
    (hengine : findsOnlyExisting existing (pre.flatMap (·.1) ++ t) = true)
    {p : Project} (hp : Call.ensureServices p ∈ t.map (·.call))
    {absent : List String} (hnodup : absent.Nodup) (habsent : ∀ n ∈ absent, n ∈ upVolumeNames project ∧ n ∉ existing) :
    absent.length ≤ (pre.filter (·.2.isSome)).length := by
  have hnone : t.filterMap Exchange.createdVolume? = [] := by
    have h0 : t.countP (·.call.createsVolume) = 0 :=
      Nat.eq_zero_of_not_pos fun hpos => ((up_creates_one_volume K project ht).2 hpos).2 p hp
    exact List.eq_nil_of_length_eq_zero (Nat.le_zero.1 ((length_filterMap_createdVolume_le t).trans_eq h0))
  have hsub : absent ⊆ (pre.flatMap (·.1)).filterMap Exchange.createdVolume? := fun n hn => by
    obtain ⟨hup, hex⟩ := habsent n hn
    obtain ⟨⟨k, v⟩, hk, rfl⟩ := List.mem_map.1 hup
    obtain ⟨t₁, t₂, rfl⟩ := List.append_of_mem (up_volumes_found K project ht hp k v hk)
    rw [← List.append_assoc] at hengine
    rcases found_of_findsOnlyExisting _ hengine rfl with h | ⟨y, hy, hyc⟩
    · exact absurd h hex
    · rcases List.mem_append.1 hy with hy | hy
      · exact List.mem_filterMap.2 ⟨y, hy, hyc⟩
      · rw [List.filterMap_append, List.append_eq_nil] at hnone
        exact absurd (List.mem_filterMap.2 ⟨y, hy, hyc⟩) (by rw [hnone.1]; exact List.not_mem_nil _)
  exact (List.subperm_of_subset hnodup hsub).length_le.trans (createdVolumes_le_failures K project pre hpre)

/-- The runtime of an engine with the volumes `vols` and no network. -/
def volumeEngine (vols : List String) : Answers
  | .networkInspect _ => .error { msg := "not found", notFound := true }
  | .volumeInspect name => if name ∈ vols then .ok () else .error { msg := "not found", notFound := true }
  | c => c.okAnswer

/-- Project `demo` with the volumes `data` and `logs`, on an engine that starts with neither and
keeps what it creates: the first run creates `demo_data` and fails, the second finds it, creates
`demo_logs` and fails, and the third finds both and reaches the services. -/
theorem up_fails_once_per_absent_volume_three_runs :
    let p : Project := { name := "demo", volumes := [("data", { name := "data" }), ("logs", { name := "logs" })] }
    let q : Project := (renameVolume (renameVolume p "data" { name := "data" }).2 "logs" { name := "logs" }).2
    ∃ (pre : List (List Exchange × Option Error)) (t : List Exchange) (r : Option Error),
      (∀ x ∈ pre, (up specKeys p).Runs x.1 x.2) ∧ (up specKeys p).Runs t r ∧
      findsOnlyExisting [] (pre.flatMap (·.1) ++ t) = true ∧ Call.ensureServices q ∈ t.map (·.call) ∧
      ["demo_data", "demo_logs"].Nodup ∧ (∀ n ∈ ["demo_data", "demo_logs"], n ∈ upVolumeNames p ∧ n ∉ []) ∧
      ["demo_data", "demo_logs"].length ≤ (pre.filter (·.2.isSome)).length := by
  intro p q
  have h₁ := @runs_of_runWith _ (volumeEngine []) (up specKeys p) _ _ rfl
  have h₂ := @runs_of_runWith _ (volumeEngine ["demo_data"]) (up specKeys p) _ _ rfl
  have h₃ := @runs_of_runWith _ (volumeEngine ["demo_data", "demo_logs"]) (up specKeys p) _ _ rfl
  have hpre := (@List.forall_mem_cons _ (fun x => (up specKeys p).Runs x.1 x.2) (_, _) [(_, _)]).2
    ⟨h₁, (@List.forall_mem_cons _ (fun x => (up specKeys p).Runs x.1 x.2) (_, _) []).2 ⟨h₂, fun _ h => nomatch h⟩⟩
  refine ⟨_, _, _, hpre, h₃, ?engine, ?services, by decide, ?absent,
    @up_fails_once_per_absent_volume specKeys p [] _ _ _ hpre h₃ ?engine q ?services _ (by decide) ?absent⟩
  all_goals decide

end Up

end Compose
