/-
The label codec: `loadProjectOptionsFromLabels` reads the project options back from a
container's labels, and `projectFromContainerLabels` rebuilds the project of a running
project's containers. The config-files label holds the compose files joined by commas; reading it
back splits it and keeps the base name of each path, so a compose file comes back as the file of
that name in the working directory. A project read from stdin comes back with one service per
container, not one per service.
-/
import LocalCompose.Create
import LocalCompose.Engine.Prog

namespace Compose

open Prog

section Labels

variable (K : LabelKeys)

/-- `loadProjectOptionsFromLabels`: `cli.NewProjectOptions` on the base names of the
config-files label's paths, with the working directory and the project name of the labels. The
working directory is kept as the label gives it: compose-go's `WithWorkingDirectory` makes it
absolute with `filepath.Abs`, which changes nothing for the absolute, clean directory that
`getContainerCreateOptions` writes, and whose error, like the environment of `WithOsEnv`, is not
modelled. -/
def loadProjectOptionsFromLabels (c : Container) : ProjectOptions :=
  let relativePathConfigFiles := Strings.split (getLabel c.labels K.configFilesLabel) ','
  { configPaths := relativePathConfigFiles.map Filepath.base,
    workingDir := getLabel c.labels K.workingDirLabel, name := getLabel c.labels K.projectLabel }

/-- The `fakeProject` of `projectFromContainerLabels`: the name, and one service per container,
named by its service label. -/
def fakeProject (projectName : String) (containers : List Container) : Project :=
  { name := projectName, services := containers.map fun container => { name := getLabel container.labels K.serviceLabel } }

/-- The config paths read back are never empty, so the source's `options.ConfigPaths[0]` is in
range. -/
theorem configPaths_ne_nil (c : Container) : (loadProjectOptionsFromLabels K c).configPaths ≠ [] := by
  simpa [loadProjectOptionsFromLabels, ← List.length_pos] using
    Strings.length_split_pos (getLabel c.labels K.configFilesLabel) ','

/-- `projectFromContainerLabels`: the project's containers; none, no project; a first container
whose first compose file is `-`, a project of one service per container; otherwise the project
the compose files load to. -/
def projectFromContainerLabels (projectName : String) : Prog (Except Error (Option Project)) := do
  match ← send (.containerList [projectFilter K projectName]) with
  | .error err => return .error err
  | .ok [] => return .ok none
  | .ok (c :: containers) =>
    let options := loadProjectOptionsFromLabels K c
    if options.configPaths.head? = some "-" then
      return .ok (some (fakeProject K projectName (c :: containers)))
    else
      match ← send (.projectFromOptions options) with
      | .error err => return .error err
      | .ok project => return .ok (some project)

/-! ## The round trip -/

/-- A container that carries the labels `getContainerCreateOptions` built gives back the
project's name and working directory, and the base name of each compose file, in order, when no
compose file holds a comma. -/
theorem loadProjectOptionsFromLabels_of_created {jsonHash : ServiceConfig → Except Error String}
    {p : Project} {s : ServiceConfig} {number : Int} {inherit : Option Container}
    {cfg : ContainerConfig} {host : HostConfig} {net : NetworkingConfig} {c : Container}
    (hcreate : getContainerCreateOptions K jsonHash p s number inherit = some (.ok (cfg, host, net)))
    (hcarry : ∀ k v, cfg.labels.lookup k = some v → c.labels.lookup k = some v)
    (hne : p.composeFiles ≠ []) (hcomma : ∀ f ∈ p.composeFiles, ',' ∉ f.toList) :
    loadProjectOptionsFromLabels K c =
      { configPaths := p.composeFiles.map Filepath.base, workingDir := p.workingDir, name := p.name } := by
  obtain ⟨hash, -, -, -, rfl, -, -⟩ := getContainerCreateOptions_ok K jsonHash hcreate
  obtain ⟨hp, -, hw, hf⟩ := lookup_containerLabels K p s number hash
  simp [loadProjectOptionsFromLabels, getLabel, hcarry _ _ hp, hcarry _ _ hw, hcarry _ _ hf,
    Strings.split_join hne hcomma]

/-- The labels of a container of service `web` in project `demo`, built from `/srv/app` with the
compose file `/srv/app/compose.yaml`, read back. -/
theorem loadProjectOptionsFromLabels_of_created_app :
    let p : Project := { name := "demo", workingDir := "/srv/app", composeFiles := ["/srv/app/compose.yaml"] }
    let s : ServiceConfig := { name := "web" }
    getContainerCreateOptions specKeys (fun _ => .ok "h") p s 1 none =
        some (.ok (containerConfig p s (containerLabels specKeys p s 1 "h"),
          hostConfig s [] "none", buildDefaultNetworkConfig s "none")) ∧
      loadProjectOptionsFromLabels specKeys { id := "c1", labels := containerLabels specKeys p s 1 "h" } =
        { configPaths := ["compose.yaml"], workingDir := "/srv/app", name := "demo" } :=
  by
  intro p s
  exact ⟨rfl, @loadProjectOptionsFromLabels_of_created specKeys (fun _ => .ok "h") p s 1 none
    (containerConfig p s (containerLabels specKeys p s 1 "h")) (hostConfig s [] "none")
    (buildDefaultNetworkConfig s "none") { id := "c1", labels := containerLabels specKeys p s 1 "h" }
    rfl (fun _ _ h => h) (by decide) (by decide)⟩

/-- A compose file whose path holds a comma: read back, it is two config paths. -/
theorem loadProjectOptionsFromLabels_splits_comma :
    let p : Project := { name := "demo", workingDir := "/srv", composeFiles := ["/srv/a,b/compose.yaml"] }
    ∃ cfg host net, getContainerCreateOptions specKeys (fun _ => .ok "h") p { name := "web" } 1 none =
        some (.ok (cfg, host, net)) ∧
      (loadProjectOptionsFromLabels specKeys { id := "c1", labels := cfg.labels }).configPaths = ["a", "compose.yaml"] := by
  intro p
  exact ⟨_, _, _, rfl, by decide⟩

/-- A compose file outside the working directory: read back, it names the file of the same name
inside the working directory. -/
theorem loadProjectOptionsFromLabels_moves_file :
    let p : Project := { name := "demo", workingDir := "/srv/app", composeFiles := ["/srv/shared/compose.yaml"] }
    ∃ cfg host net, getContainerCreateOptions specKeys (fun _ => .ok "h") p { name := "web" } 1 none =
        some (.ok (cfg, host, net)) ∧
      (loadProjectOptionsFromLabels specKeys { id := "c1", labels := cfg.labels }).configPaths.map
        (Filepath.join p.workingDir) = ["/srv/app/compose.yaml"] := by
  intro p
  exact ⟨_, _, _, rfl, by decide⟩

/-! ## The project of a running project -/

/-- When the first container's labels give `-` as the first compose file (a project read from
stdin), the project has the name asked for and one service per container, named by the
container's service label, in the list's order. -/
theorem projectFromContainerLabels_stdin (projectName : String) (c : Container) (containers : List Container)
    (h : (loadProjectOptionsFromLabels K c).configPaths.head? = some "-") :
    (projectFromContainerLabels K projectName).Runs
      [⟨.containerList [projectFilter K projectName], .ok (c :: containers)⟩]
      (.ok (some (fakeProject K projectName (c :: containers)))) := by
  unfold projectFromContainerLabels
  rw [runs_bind_send]
  refine ⟨_, [], rfl, ?_⟩
  simp only [h, if_true, pure_eq, runs_pure_iff, and_self]

end Labels

/-- A container of service `web` of project `demo`, whose compose file was read from stdin. -/
def stdinWeb (id : String) : Container :=
  { id, names := ["/demo_" ++ id], labels := [("project", "demo"), ("service", "web"), ("sourceFiles", "-")] }

/-- Two containers of service `web` of a project read from stdin: the rebuilt project lists `web`
twice, once per container. -/
theorem projectFromContainerLabels_repeats_service :
    ∃ p : Project, (projectFromContainerLabels specKeys "demo").Runs
        [⟨.containerList [projectFilter specKeys "demo"], .ok [stdinWeb "c1", stdinWeb "c2"]⟩] (.ok (some p)) ∧
      p.services.map (·.name) = ["web", "web"] :=
  ⟨_, projectFromContainerLabels_stdin specKeys "demo" _ _ (by decide), rfl⟩

end Compose
