/-
`getContainerCreateOptions`: the configuration, host configuration and network configuration of a
container for a service. Its labels carry the project's name, working directory and compose files,
which `loadProjectOptionsFromLabels` reads back; its network mode is the first network of the
service in the map's iteration order, so two orders can give two modes, and its one endpoint is
keyed by that mode. The port bindings have the keys of the exposed ports, each with the one
binding of the last port of that key.
-/
import LocalCompose.Mounts

namespace Compose

/-! ## The create options -/

/-- `nat.PortBinding`. -/
structure PortBinding where
  hostIP : String := ""
  hostPort : String := ""
  deriving DecidableEq, Repr

/-- `network.EndpointSettings`, the field this package sets. -/
structure EndpointSettings where
  aliases : List String
  deriving DecidableEq, Repr

/-- `network.NetworkingConfig`. -/
structure NetworkingConfig where
  endpointsConfig : List (String × EndpointSettings)
  deriving DecidableEq, Repr

/-- `container.Config`, the fields `getContainerCreateOptions` sets but `Env`, `Healthcheck` and
`StopTimeout`; `exposedPorts` is the key list of the `nat.PortSet`. -/
structure ContainerConfig where
  hostname : String
  domainname : String
  user : String
  exposedPorts : List (String × Unit)
  tty : Bool
  openStdin : Bool
  stdinOnce : Bool
  attachStdin : Bool
  attachStderr : Bool
  attachStdout : Bool
  cmd : List String
  image : String
  workingDir : String
  entrypoint : List String
  networkDisabled : Bool
  macAddress : String
  labels : List (String × String)
  stopSignal : String
  deriving DecidableEq, Repr

/-- `container.HostConfig`, the fields `getContainerCreateOptions` sets. -/
structure HostConfig where
  mounts : List Mount
  capAdd : List String
  capDrop : List String
  networkMode : String
  init : Option Bool
  readonlyRootfs : Bool
  sysctls : List (String × String)
  portBindings : List (String × List PortBinding)
  deriving DecidableEq, Repr

/-- The port key `fmt.Sprintf("%d/%s", p.Target, p.Protocol)`. -/
def portKey (p : ServicePortConfig) : String := toString p.target ++ "/" ++ p.protocol

/-- `buildContainerPorts`. -/
def buildContainerPorts (s : ServiceConfig) : List (String × Unit) :=
  s.ports.foldl (fun ports p => mapSet ports (portKey p) ()) []

/-- The binding the loop of `buildContainerBindingOptions` builds for a port: its published port
in decimal, or none when it is `0`. -/
def portBinding (port : ServicePortConfig) : PortBinding :=
  if port.published > 0 then { hostPort := toString port.published } else {}

/-- `buildContainerBindingOptions`: each port assigns the one-binding list `[binding]` to its key. -/
def buildContainerBindingOptions (s : ServiceConfig) : List (String × List PortBinding) :=
  s.ports.foldl (fun bindings port => mapSet bindings (portKey port) [portBinding port]) []

theorem keys_buildContainerPorts (s : ServiceConfig) (k : String) :
    k ∈ (buildContainerPorts s).map (·.1) ↔ ∃ p ∈ s.ports, portKey p = k := by
  simpa using keys_foldl_mapSet portKey (fun _ => ()) s.ports [] k

/-- The binding options have the keys of the exposed ports. -/
theorem keys_buildContainerBindingOptions (s : ServiceConfig) (k : String) :
    k ∈ (buildContainerBindingOptions s).map (·.1) ↔ k ∈ (buildContainerPorts s).map (·.1) := by
  rw [keys_buildContainerPorts, buildContainerBindingOptions, keys_foldl_mapSet]
  simp

/-- A port key's bindings: the one binding of the last port with that key. -/
theorem lookup_buildContainerBindingOptions (s : ServiceConfig) (k : String) :
    (buildContainerBindingOptions s).lookup k = (s.ports.reverse.find? (portKey · = k)).map fun p => [portBinding p] := by
  simpa using lookup_foldl_mapSet portKey (fun p => [portBinding p]) s.ports [] k

/-- A service that publishes container port `80/tcp` on host ports `8080` and `8081`: the two
declared bindings of `80/tcp` are `8080` and `8081`, and the binding options keep `8081` only. -/
theorem buildContainerBindingOptions_drops_binding :
    let s : ServiceConfig := { name := "web", ports := [{ target := 80, published := 8080, protocol := "tcp" },
      { target := 80, published := 8081, protocol := "tcp" }] }
    (s.ports.filter (portKey · = "80/tcp")).map portBinding = [{ hostPort := "8080" }, { hostPort := "8081" }] ∧
      (buildContainerBindingOptions s).lookup "80/tcp" = some [{ hostPort := "8081" }] := by
  decide

/-- `getNetworksForService`. -/
def getNetworksForService (s : ServiceConfig) : List (String × Option ServiceNetworkConfig) :=
  if s.networks ≠ [] then s.networks else [("default", none)]

/-- `getNetworkMode`, `none` where it panics: with no mode set, the name of the project network
that the service's first network in the map's iteration order (an absent one gives the empty
name), or `none`; a `service:` or `container:` mode panics. -/
def getNetworkMode (p : Project) (service : ServiceConfig) : Option String :=
  let mode := service.networkMode
  if mode = "" then
    if p.networks ≠ [] then
      match getNetworksForService service with
      | (name, _) :: _ => some (((p.networks.lookup name).map (·.name)).getD "")
      | [] => some "none"
    else some "none"
  else if "service:".isPrefixOf mode then none
  else if "container:".isPrefixOf mode then none
  else some mode

/-- With no mode set and a project with networks, the mode is the name of the project network of
the service's first network key: the only key `getNetworkMode` reads. -/
theorem getNetworkMode_first {p : Project} {s : ServiceConfig} (hmode : s.networkMode = "") (hnets : p.networks ≠ [])
    {k : String} {c : Option ServiceNetworkConfig} {rest : List (String × Option ServiceNetworkConfig)}
    (hfirst : getNetworksForService s = (k, c) :: rest) :
    getNetworkMode p s = some (((p.networks.lookup k).map (·.name)).getD "") := by
  simp [getNetworkMode, hmode, hnets, hfirst]

/-- Service `web` on the networks `front` and `back` of project `demo`, in the two orders an
iteration of its map of networks can take: the network mode is `demo_front` in one and
`demo_back` in the other. -/
theorem getNetworkMode_depends_on_order :
    let p : Project := { name := "demo", networks := [("front", { name := "demo_front" }), ("back", { name := "demo_back" })] }
    let s : ServiceConfig := { name := "web", networks := [("front", none), ("back", none)] }
    let s' : ServiceConfig := { s with networks := s.networks.reverse }
    s.networkMode = "" ∧ (s.networks.map (·.1)).Nodup ∧ (getNetworksForService s').Perm (getNetworksForService s) ∧
      getNetworkMode p s = some "demo_front" ∧ getNetworkMode p s' = some "demo_back" := by
  intro p s s'
  exact ⟨rfl, by decide, List.reverse_perm _, @getNetworkMode_first p s rfl (by decide) _ _ _ rfl,
    @getNetworkMode_first p s' rfl (by decide) _ _ _ rfl⟩

/-- `getAliases`. -/
def getAliases (s : ServiceConfig) (c : Option ServiceNetworkConfig) : List String :=
  s.name :: (c.map (·.aliases)).getD []

/-- `buildDefaultNetworkConfig`: one endpoint, keyed by the network mode, whose aliases come from
the service's network of that name. -/
def buildDefaultNetworkConfig (s : ServiceConfig) (networkMode : String) : NetworkingConfig :=
  { endpointsConfig := [(networkMode, { aliases := getAliases s (s.networks.lookup networkMode).join })] }

section Create

variable (K : LabelKeys) (jsonHash : ServiceConfig → Except Error String)

/-- The labels literal of `getContainerCreateOptions`. -/
def containerLabels (p : Project) (s : ServiceConfig) (number : Int) (hash : String) : List (String × String) :=
  [(K.projectLabel, p.name), (K.serviceLabel, s.name), (K.versionLabel, K.composeVersion),
    (K.oneoffLabel, "False"), (K.configHashLabel, hash), (K.workingDirLabel, p.workingDir),
    (K.configFilesLabel, Strings.join p.composeFiles ','), (K.containerNumberLabel, toString number)]

/-- The container configuration of `getContainerCreateOptions`. -/
def containerConfig (p : Project) (s : ServiceConfig) (labels : List (String × String)) : ContainerConfig :=
  { hostname := s.hostname, domainname := s.domainName, user := s.user,
    exposedPorts := buildContainerPorts s, tty := s.tty, openStdin := s.stdinOpen, stdinOnce := true,
    attachStdin := false, attachStderr := true, attachStdout := true, cmd := s.command,
    image := if s.image = "" then p.name ++ "_" ++ s.name else s.image, workingDir := s.workingDir,
    entrypoint := s.entrypoint, networkDisabled := s.networkMode = "disabled",
    macAddress := s.macAddress, labels, stopSignal := s.stopSignal }

/-- The host configuration of `getContainerCreateOptions`. -/
def hostConfig (s : ServiceConfig) (mounts : List Mount) (networkMode : String) : HostConfig :=
  { mounts, capAdd := s.capAdd, capDrop := s.capDrop, networkMode, init := s.init,
    readonlyRootfs := s.readOnly, sysctls := s.sysctls, portBindings := buildContainerBindingOptions s }

/-- `getContainerCreateOptions`, `none` where it panics; `jsonHash` is the package's hash of a
service, declared outside `compose.go`. -/
def getContainerCreateOptions (p : Project) (s : ServiceConfig) (number : Int) (inherit : Option Container) :
    Option (Except Error (ContainerConfig × HostConfig × NetworkingConfig)) :=
  match jsonHash s with
  | .error err => some (.error err)
  | .ok hash =>
    let mountOptions := buildContainerMountOptions p s inherit
    match getNetworkMode p s with
    | none => none
    | some networkMode =>
      some (.ok (containerConfig p s (containerLabels K p s number hash),
        hostConfig s mountOptions networkMode, buildDefaultNetworkConfig s networkMode))

/-- What a successful `getContainerCreateOptions` builds. -/
theorem getContainerCreateOptions_ok {p : Project} {s : ServiceConfig} {number : Int} {inherit : Option Container}
    {cfg : ContainerConfig} {host : HostConfig} {net : NetworkingConfig}
    (h : getContainerCreateOptions K jsonHash p s number inherit = some (.ok (cfg, host, net))) :
    ∃ hash networkMode, jsonHash s = .ok hash ∧ getNetworkMode p s = some networkMode ∧
      cfg = containerConfig p s (containerLabels K p s number hash) ∧
      host = hostConfig s (buildContainerMountOptions p s inherit) networkMode ∧
      net = buildDefaultNetworkConfig s networkMode := by
  unfold getContainerCreateOptions at h
  split at h
  · cases h
  · rename_i hash hh
    split at h
    · cases h
    · rename_i networkMode hm
      cases h
      exact ⟨hash, networkMode, hh, hm, rfl, rfl, rfl⟩

/-- With no mode set and a project with networks, a created container has one endpoint, keyed by
the name of the project network of the service's first network key, with the aliases the
service gives itself on the network of that name. -/
theorem getContainerCreateOptions_network {p : Project} {s : ServiceConfig} {number : Int}
    {inherit : Option Container} {cfg : ContainerConfig} {host : HostConfig} {net : NetworkingConfig}
    (h : getContainerCreateOptions K jsonHash p s number inherit = some (.ok (cfg, host, net)))
    (hmode : s.networkMode = "") (hnets : p.networks ≠ [])
    {k : String} {c : Option ServiceNetworkConfig} {rest : List (String × Option ServiceNetworkConfig)}
    (hfirst : getNetworksForService s = (k, c) :: rest) :
    let name := ((p.networks.lookup k).map (·.name)).getD ""
    net.endpointsConfig = [(name, { aliases := getAliases s (s.networks.lookup name).join })] := by
  obtain ⟨-, networkMode, -, hm, -, -, rfl⟩ := getContainerCreateOptions_ok K jsonHash h
  rw [getNetworkMode_first hmode hnets hfirst, Option.some.injEq] at hm
  subst hm
  rfl

/-- The labels a created container carries under the project, working-directory and
config-files keys. -/
theorem lookup_containerLabels (p : Project) (s : ServiceConfig) (number : Int) (hash : String) :
    (containerLabels K p s number hash).lookup K.projectLabel = some p.name ∧
      (containerLabels K p s number hash).lookup K.serviceLabel = some s.name ∧
      (containerLabels K p s number hash).lookup K.workingDirLabel = some p.workingDir ∧
      (containerLabels K p s number hash).lookup K.configFilesLabel = some (Strings.join p.composeFiles ',') := by
  have hk : ((containerLabels K p s number hash).map (·.1)).Nodup := K.distinct
  refine ⟨?_, ?_, ?_, ?_⟩ <;> exact lookup_of_mem hk (by simp [containerLabels])

end Create

end Compose
