/-
`buildContainerMountOptions`: the mounts of a container to create, from the mounts of the
container it replaces and the service's volumes. Every non-tmpfs mount of the prior container is
inherited, whether or not the service still declares its target; then each declared volume whose
target no inherited mount holds, with a relative bind source joined to the working directory.
The inherited-target check compares the raw strings, so a declared target spelled differently
from an inherited destination of the same path is mounted a second time.
-/
import LocalCompose.Types
import LocalCompose.Go.Path

namespace Compose

/-- `buildBindOption`. -/
def buildBindOption (bind : Option ServiceVolumeBind) : Option BindOptions := bind.map fun b => ⟨b.propagation⟩

/-- `buildVolumeOptions`. -/
def buildVolumeOptions (vol : Option ServiceVolumeVolume) : Option VolumeOptions := vol.map fun v => ⟨v.noCopy⟩

/-- `buildTmpfsOptions`. -/
def buildTmpfsOptions (tmpfs : Option ServiceVolumeTmpfs) : Option TmpfsOptions := tmpfs.map fun t => ⟨t.size⟩

/-- `contains(inherited, target)` (declared outside `compose.go`): whether the slice holds the
string. -/
def contains (inherited : List String) (target : String) : Bool := inherited.contains target

/-- The mount the first loop appends for a prior mount `m`: its type, the volume's name as
source of a volume mount and its source path otherwise, its destination, read-only when not
`RW`. -/
def inheritedMount (m : MountPoint) : Mount :=
  let src := if m.type = "volume" then m.name else m.source
  { type := m.type, source := src, target := m.destination, readOnly := !m.rw }

/-- The mount the second loop appends for a declared volume `v`: a relative bind source is
joined to the working directory. -/
def declaredMount (p : Project) (v : ServiceVolumeConfig) : Mount :=
  let source := if v.type = "bind" ∧ !Filepath.isAbs v.source then Filepath.join p.workingDir v.source
    else v.source
  { type := v.type, source := source, target := v.target, readOnly := v.readOnly,
    consistency := v.consistency, bindOptions := buildBindOption v.bind,
    volumeOptions := buildVolumeOptions v.volume, tmpfsOptions := buildTmpfsOptions v.tmpfs }

/-- The first loop: the prior container's mounts but the tmpfs ones, with the targets they
take. -/
def inheritLoop : List MountPoint → List Mount → List String → List Mount × List String
  | [], mounts, inherited => (mounts, inherited)
  | m :: ms, mounts, inherited =>
    if m.type = "tmpfs" then inheritLoop ms mounts inherited
    else inheritLoop ms (mounts ++ [inheritedMount m]) (inherited ++ [m.destination])

/-- The second loop: the declared volumes whose target is not inherited. -/
def volumeLoop (p : Project) (inherited : List String) : List ServiceVolumeConfig → List Mount → List Mount
  | [], mounts => mounts
  | v :: vs, mounts =>
    if contains inherited v.target then volumeLoop p inherited vs mounts
    else volumeLoop p inherited vs (mounts ++ [declaredMount p v])

/-- `buildContainerMountOptions`. -/
def buildContainerMountOptions (p : Project) (s : ServiceConfig) (inherit : Option Container) : List Mount :=
  let (mounts, inherited) := match inherit with
    | none => ([], [])
    | some c => inheritLoop c.mounts [] []
  volumeLoop p inherited s.volumes mounts

/-! ## What the loops build -/

/-- The mounts of the prior container that are inherited: all but the tmpfs ones. -/
def kept (ms : List MountPoint) : List MountPoint := ms.filter (·.type ≠ "tmpfs")

theorem inheritLoop_eq : ∀ (ms : List MountPoint) (mounts : List Mount) (inherited : List String),
    inheritLoop ms mounts inherited =
      (mounts ++ (kept ms).map inheritedMount, inherited ++ (kept ms).map (·.destination))
  | [], mounts, inherited => by simp [inheritLoop, kept]
  | m :: ms, mounts, inherited => by
    by_cases h : m.type = "tmpfs" <;> simp [inheritLoop, kept, h, inheritLoop_eq ms]

theorem volumeLoop_eq (p : Project) (inherited : List String) :
    ∀ (vs : List ServiceVolumeConfig) (mounts : List Mount),
      volumeLoop p inherited vs mounts = mounts ++ (vs.filter (·.target ∉ inherited)).map (declaredMount p)
  | [], mounts => by simp [volumeLoop]
  | v :: vs, mounts => by
    by_cases h : v.target ∈ inherited <;> simp [volumeLoop, contains, h, volumeLoop_eq p inherited vs]

/-- Without a prior container, one mount per declared volume, in order. -/
theorem buildContainerMountOptions_none (p : Project) (s : ServiceConfig) :
    buildContainerMountOptions p s none = s.volumes.map (declaredMount p) := by
  simp [buildContainerMountOptions, volumeLoop_eq]

/-- With a prior container `c`: first one mount per non-tmpfs mount of `c`, in `c`'s order, with
`c`'s type, its source (the volume's name for a volume mount), its destination as target and
read-only when not `RW`, whether or not `s` still declares that target; then, in declaration
order, one mount per volume of `s` whose target is not such an inherited destination, with its
declared type, options and source (a relative bind source joined to the working directory). -/
theorem buildContainerMountOptions_inherit (p : Project) (s : ServiceConfig) (c : Container) :
    buildContainerMountOptions p s (some c) =
      (kept c.mounts).map inheritedMount ++
        (s.volumes.filter (·.target ∉ (kept c.mounts).map (·.destination))).map (declaredMount p) := by
  simp [buildContainerMountOptions, inheritLoop_eq, volumeLoop_eq]

/-- A prior volume mount at `/old`, for a service that declares no volume: the new container
still mounts `/old`. -/
theorem buildContainerMountOptions_keeps_undeclared :
    let c : Container := { id := "c1", mounts := [⟨"volume", "demo_old", "/var/lib/docker/volumes/demo_old/_data", "/old", true⟩] }
    let s : ServiceConfig := { name := "web" }
    s.volumes = [] ∧ (buildContainerMountOptions { name := "demo" } s (some c)).map (·.target) = ["/old"] := by
  decide

/-- Compared as raw strings, the targets are distinct when the declared targets are and the prior
non-tmpfs destinations are. -/
theorem buildContainerMountOptions_targets_nodup (p : Project) (s : ServiceConfig) (c : Container)
    (hs : (s.volumes.map (·.target)).Nodup) (hc : ((kept c.mounts).map (·.destination)).Nodup) :
    ((buildContainerMountOptions p s (some c)).map (·.target)).Nodup := by
  have hin : (kept c.mounts).map (fun m => (inheritedMount m).target) = (kept c.mounts).map (·.destination) := rfl
  rw [buildContainerMountOptions_inherit, List.map_append, List.map_map, List.map_map]
  refine List.Nodup.append (by simpa [Function.comp_def, hin] using hc)
    ((List.filter_sublist _).map _ |>.nodup (by simpa [Function.comp_def, declaredMount] using hs)) ?_
  intro t h1 h2
  simp only [List.mem_map, List.mem_filter, Function.comp_apply, decide_eq_true_eq] at h1 h2
  obtain ⟨m, hm, rfl⟩ := h1
  obtain ⟨v, ⟨-, hv⟩, he⟩ := h2
  exact hv ⟨m, hm, he.symm⟩

/-- A prior mount at `/data` and a declared volume at `/data/`: two mounts at one path. -/
theorem buildContainerMountOptions_same_path_twice :
    let c : Container := { id := "c1", mounts := [⟨"volume", "demo_data", "/var/lib/docker/volumes/demo_data/_data", "/data", true⟩] }
    let s : ServiceConfig := { name := "db", volumes := [{ type := "volume", source := "data", target := "/data/" }] }
    (buildContainerMountOptions { name := "demo" } s (some c)).map (fun m => Filepath.clean m.target) = ["/data", "/data"] := by
  decide

end Compose
