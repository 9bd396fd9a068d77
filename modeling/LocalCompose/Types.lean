/-
The data `compose.go` reads and builds: Go errors, the engine's records (`moby` containers,
mounts, create options), the compose model (`types.Project`, services, networks, volumes), and
the package's label constants. Go maps are lists of entries read at a key's first entry; Go's
iteration order over a map is unspecified, and the order of the list stands for one such order.
-/
import Mathlib.Data.List.Basic

namespace Compose

/-- A Go `error`: its message, and whether `errdefs.IsNotFound` holds of it. -/
structure Error where
  msg : String
  notFound : Bool := false
  deriving DecidableEq, Repr

/-- `fmt.Errorf`, `errors.New`: a new error with this message. -/
def Error.new (msg : String) : Error := { msg }

/-- `errors.Wrapf(err, msg)`: the message prefixed; the cause, and so `IsNotFound`, kept. -/
def Error.wrapf (err : Error) (msg : String) : Error := { err with msg := msg ++ ": " ++ err.msg }

/-- `m[k]` on a Go map of strings: the value, or `""` when the key is absent. -/
def getLabel (m : List (String × String)) (k : String) : String := (m.lookup k).getD ""

section GoMap

variable {β : Type}

/-- `m[k] = v` on a Go map held as its entries (also `Labels.Add`): the entry of `k` replaced. -/
def mapSet (m : List (String × β)) (k : String) (v : β) : List (String × β) :=
  (k, v) :: m.filter (·.1 ≠ k)

@[simp] theorem lookup_cons_self (k : String) (b : β) (m : List (String × β)) :
    ((k, b) :: m).lookup k = some b := by
  rw [List.lookup_cons, beq_self_eq_true]

theorem lookup_cons_of_ne {k a : String} (h : k ≠ a) (b : β) (m : List (String × β)) :
    ((a, b) :: m).lookup k = m.lookup k := by
  rw [List.lookup_cons, beq_eq_false_iff_ne.2 h]

theorem lookup_filter_ne (m : List (String × β)) {k k' : String} (h : k' ≠ k) :
    (m.filter (·.1 ≠ k)).lookup k' = m.lookup k' := by
  induction m with
  | nil => rfl
  | cons e m ih =>
    obtain ⟨a, b⟩ := e
    by_cases he : a = k
    · rw [List.filter_cons_of_neg (by simpa using he), ih, lookup_cons_of_ne (he ▸ h)]
    · rw [List.filter_cons_of_pos (by simpa using he)]
      by_cases he' : k' = a
      · subst he'; simp
      · rw [lookup_cons_of_ne he', lookup_cons_of_ne he', ih]

/-- In a map whose keys are distinct, a key's lookup finds its entry. -/
theorem lookup_of_mem {l : List (String × β)} (hl : (l.map (·.1)).Nodup) {k : String} {v : β}
    (h : (k, v) ∈ l) : l.lookup k = some v := by
  induction l with
  | nil => cases h
  | cons e m ih =>
    obtain ⟨a, b⟩ := e
    rw [List.map_cons, List.nodup_cons] at hl
    rcases List.mem_cons.1 h with he | hm
    · cases he; exact lookup_cons_self k v m
    · have hk : k ≠ a := fun hk => hl.1 (hk ▸ List.mem_map_of_mem (·.1) hm)
      rw [lookup_cons_of_ne hk, ih hl.2 hm]

@[simp] theorem lookup_mapSet (m : List (String × β)) (k k' : String) (v : β) :
    (mapSet m k v).lookup k' = if k' = k then some v else m.lookup k' := by
  by_cases h : k' = k
  · subst h; simp [mapSet]
  · rw [mapSet, lookup_cons_of_ne h, lookup_filter_ne m h, if_neg h]

theorem keys_mapSet (m : List (String × β)) (k : String) (v : β) (k' : String) :
    k' ∈ (mapSet m k v).map (·.1) ↔ k' = k ∨ k' ∈ m.map (·.1) := by
  by_cases h : k' = k <;> simp [mapSet, h]

/-- A loop that sets `m[key x] = val x` for each `x` in turn leaves at a key the value of the
last element with that key, or the map's own entry when no element has it. -/
theorem lookup_foldl_mapSet {α : Type} (key : α → String) (val : α → β) :
    ∀ (xs : List α) (m : List (String × β)) (k : String),
      (xs.foldl (fun m x => mapSet m (key x) (val x)) m).lookup k =
        ((xs.reverse.find? (key · = k)).map val).or (m.lookup k)
  | [], _, _ => rfl
  | x :: xs, m, k => by
    rw [List.foldl_cons, lookup_foldl_mapSet key val xs, lookup_mapSet, List.reverse_cons, List.find?_append]
    by_cases h : k = key x <;> cases xs.reverse.find? (key · = k) <;> simp [h, eq_comm]

/-- The keys after such a loop: the elements' keys and the map's own. -/
theorem keys_foldl_mapSet {α : Type} (key : α → String) (val : α → β) :
    ∀ (xs : List α) (m : List (String × β)) (k : String),
      k ∈ (xs.foldl (fun m x => mapSet m (key x) (val x)) m).map (·.1) ↔ (∃ x ∈ xs, key x = k) ∨ k ∈ m.map (·.1)
  | [], _, _ => by simp
  | x :: xs, m, k => by
    rw [List.foldl_cons, keys_foldl_mapSet key val xs, keys_mapSet]
    simp only [List.mem_cons, or_and_right, exists_or, exists_eq_left, @eq_comm _ k (key x)]
    exact or_left_comm.trans or_assoc.symm

end GoMap

/-- `Labels.Add(key, value)`. -/
def addLabel (l : List (String × String)) (key value : String) : List (String × String) := mapSet l key value

/-- `fmt.Sprintf("%q", s)` for names without control characters: quoted, with `"` and `\`
escaped. -/
def quote (s : String) : String :=
  "\"" ++ String.join (s.toList.map fun c => if c = '"' ∨ c = '\\' then "\\" ++ c.toString else c.toString) ++ "\""

theorem append_ne_empty {s t : String} (ht : t ≠ "") : s ++ t ≠ "" := fun h =>
  ht (String.ext (List.append_eq_nil.1 (congrArg String.data h)).2)

/-- A name `<project>_<key>` is never empty. -/
theorem underscore_name_ne_empty (projectName k : String) : projectName ++ "_" ++ k ≠ "" := fun h =>
  @append_ne_empty projectName "_" (by decide) (String.ext (List.append_eq_nil.1 (congrArg String.data h)).1)

/-! ## Engine records -/

/-- A mount of an existing container, as the engine reports it (`types.MountPoint`). -/
structure MountPoint where
  type : String
  name : String
  source : String
  destination : String
  rw : Bool
  deriving DecidableEq, Repr

/-- A container as `ContainerList` reports it (`types.Container`). -/
structure Container where
  id : String
  names : List String := []
  labels : List (String × String) := []
  state : String := ""
  mounts : List MountPoint := []
  deriving DecidableEq, Repr, Inhabited

/-- The part of `ContainerInspect`'s answer that `Logs` reads (`ID`, `Config.Tty`). -/
structure ContainerJSON where
  id : String
  tty : Bool
  deriving DecidableEq, Repr

/-- A network as `NetworkList` reports it. -/
structure NetworkResource where
  id : String
  name : String
  deriving DecidableEq, Repr

structure BindOptions where
  propagation : String
  deriving DecidableEq, Repr

structure VolumeOptions where
  noCopy : Bool
  deriving DecidableEq, Repr

structure TmpfsOptions where
  sizeBytes : Int
  deriving DecidableEq, Repr

/-- A mount of a container to create (`mount.Mount`). -/
structure Mount where
  type : String
  source : String
  target : String
  readOnly : Bool
  consistency : String := ""
  bindOptions : Option BindOptions := none
  volumeOptions : Option VolumeOptions := none
  tmpfsOptions : Option TmpfsOptions := none
  deriving DecidableEq, Repr

/-- The IP address management part of `NetworkCreate`. -/
structure IPAM where
  driver : String
  config : List String
  deriving DecidableEq, Repr

/-- `types.NetworkCreate`. -/
structure NetworkCreate where
  labels : List (String × String)
  driver : String
  options : List (String × String)
  internal : Bool
  attachable : Bool
  ipam : Option IPAM
  deriving DecidableEq, Repr

/-- `volume.VolumeCreateBody`. -/
structure VolumeCreateBody where
  labels : List (String × String)
  name : String
  driver : String
  driverOpts : List (String × String)
  deriving DecidableEq, Repr

/-- A label filter of a list request: the key, and the value it must have, if any. -/
structure Filter where
  key : String
  value : Option String
  deriving DecidableEq, Repr

/-! ## The compose model -/

structure ServiceVolumeBind where
  propagation : String
  deriving DecidableEq, Repr

structure ServiceVolumeVolume where
  noCopy : Bool
  deriving DecidableEq, Repr

structure ServiceVolumeTmpfs where
  size : Int
  deriving DecidableEq, Repr

/-- A volume entry of a service (`types.ServiceVolumeConfig`). -/
structure ServiceVolumeConfig where
  type : String
  source : String
  target : String
  readOnly : Bool := false
  consistency : String := ""
  bind : Option ServiceVolumeBind := none
  volume : Option ServiceVolumeVolume := none
  tmpfs : Option ServiceVolumeTmpfs := none
  deriving DecidableEq, Repr

/-- A port entry of a service (`types.ServicePortConfig`). -/
structure ServicePortConfig where
  target : UInt32
  published : UInt32
  protocol : String
  deriving DecidableEq, Repr

/-- A service's settings for one of its networks (`types.ServiceNetworkConfig`). -/
structure ServiceNetworkConfig where
  aliases : List String
  deriving DecidableEq, Repr

/-- A service (`types.ServiceConfig`); `build` says whether `Build` is set, which is all this
package reads of it, and `dependsOn` names the services it depends on. -/
structure ServiceConfig where
  name : String
  image : String := ""
  build : Bool := false
  command : List String := []
  entrypoint : List String := []
  dependsOn : List String := []
  hostname : String := ""
  domainName : String := ""
  user : String := ""
  ports : List ServicePortConfig := []
  tty : Bool := false
  stdinOpen : Bool := false
  workingDir : String := ""
  networkMode : String := ""
  macAddress : String := ""
  stopSignal : String := ""
  volumes : List ServiceVolumeConfig := []
  capAdd : List String := []
  capDrop : List String := []
  init : Option Bool := none
  readOnly : Bool := false
  sysctls : List (String × String) := []
  networks : List (String × Option ServiceNetworkConfig) := []
  deriving DecidableEq, Repr

/-- `types.External`. -/
structure External where
  external : Bool := false
  name : String := ""
  deriving DecidableEq, Repr

/-- The IP address management settings of a network (`types.IPAMConfig`): its driver and the
subnets of its pools. -/
structure IPAMConfig where
  driver : String := ""
  config : List String := []
  deriving DecidableEq, Repr

/-- A top-level network (`types.NetworkConfig`). -/
structure NetworkConfig where
  name : String
  driver : String := ""
  driverOpts : List (String × String) := []
  ipam : IPAMConfig := {}
  external : External := {}
  internal : Bool := false
  attachable : Bool := false
  labels : List (String × String) := []
  deriving DecidableEq, Repr

/-- A top-level volume (`types.VolumeConfig`). -/
structure VolumeConfig where
  name : String
  driver : String := ""
  driverOpts : List (String × String) := []
  external : External := {}
  labels : List (String × String) := []
  deriving DecidableEq, Repr

/-- A project (`types.Project`). -/
structure Project where
  name : String
  workingDir : String := ""
  services : List ServiceConfig := []
  networks : List (String × NetworkConfig) := []
  volumes : List (String × VolumeConfig) := []
  composeFiles : List String := []
  deriving DecidableEq, Repr

/-- What `cli.NewProjectOptions` with `WithWorkingDirectory` and `WithName` builds; the
environment `WithOsEnv` adds is not read by this package. -/
structure ProjectOptions where
  configPaths : List String
  workingDir : String
  name : String
  deriving DecidableEq, Repr

/-! ## Label constants -/

/-- The package's label constants, declared outside `compose.go`. The eight keys of the container
label literal are pairwise distinct: Go rejects a map literal that repeats a constant key. -/
structure LabelKeys where
  projectLabel : String
  serviceLabel : String
  versionLabel : String
  oneoffLabel : String
  configHashLabel : String
  workingDirLabel : String
  configFilesLabel : String
  containerNumberLabel : String
  networkLabel : String
  volumeLabel : String
  composeVersion : String
  distinct : [projectLabel, serviceLabel, versionLabel, oneoffLabel, configHashLabel,
    workingDirLabel, configFilesLabel, containerNumberLabel].Nodup

/-- Modelled from the spec: the label keys under their logical names (`project`, `service`,
`schemaVersion`, `oneOff`, `configFingerprint`, `workingDir`, `sourceFiles`,
`containerOrdinal`), for evaluating the code on concrete containers. -/
def specKeys : LabelKeys where
  projectLabel := "project"
  serviceLabel := "service"
  versionLabel := "schemaVersion"
  oneoffLabel := "oneOff"
  configHashLabel := "configFingerprint"
  workingDirLabel := "workingDir"
  configFilesLabel := "sourceFiles"
  containerNumberLabel := "containerOrdinal"
  networkLabel := "network"
  volumeLabel := "volume"
  composeVersion := "1"
  distinct := by decide

section Filters

variable (K : LabelKeys)

/-- `projectFilter(name)`: containers whose project label is `name`. -/
def projectFilter (projectName : String) : Filter := ⟨K.projectLabel, some projectName⟩

/-- `serviceFilter(name)`: containers whose service label is `name`. -/
def serviceFilter (serviceName : String) : Filter := ⟨K.serviceLabel, some serviceName⟩

/-- `hasProjectLabelFilter()`: containers that carry a project label. -/
def hasProjectLabelFilter : Filter := ⟨K.projectLabel, none⟩

end Filters

end Compose
