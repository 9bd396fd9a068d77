/-
`Down`: the project rebuilt from the containers' labels; for each service, in reverse dependency
order, `removeContainers` lists its containers and starts one errgroup unit per container that
stops and removes it; then the group is waited on, and the project's networks are removed by a
second round of units. The callback only starts units and returns, so the walk's order does not
order the stops: a unit of a service can stop its container before the units of the services that
depend on it have run. The loop of `removeContainers` starts closures over its one loop variable,
which they read when they run. When a later callback fails, `Down` returns without waiting for
the units already started. The walk has one node per service name, as the spec's dependency graph
has.
-/
import LocalCompose.Project
import LocalCompose.Ensure
import LocalCompose.Engine.Group

namespace Compose

open Prog

/-! ## The walk over the services -/

/-- Modelled from the spec: the nodes of the dependency graph, one per service name, each the
first service of its name. -/
def serviceNodes : List ServiceConfig → List ServiceConfig
  | [] => []
  | s :: rest => s :: (serviceNodes rest).filter (·.name != s.name)

/-- The graph has a node for every service name, and no two nodes share a name. -/
theorem serviceNodes_names : ∀ services : List ServiceConfig,
    ((serviceNodes services).map (·.name)).Nodup ∧
      ∀ n, n ∈ (serviceNodes services).map (·.name) ↔ n ∈ services.map (·.name)
  | [] => ⟨List.nodup_nil, fun _ => Iff.rfl⟩
  | s :: rest => by
    obtain ⟨hnd, hmem⟩ := serviceNodes_names rest
    simp only [serviceNodes, List.map_cons, List.nodup_cons, List.mem_cons]
    refine ⟨⟨by simp, ((List.filter_sublist _).map _).nodup hnd⟩, fun n => ?_⟩
    by_cases hn : n = s.name
    · simp [hn]
    · rw [← hmem n]
      simp only [hn, false_or, List.mem_map, List.mem_filter]
      exact ⟨fun ⟨a, ⟨ha, _⟩, he⟩ => ⟨a, ha, he⟩, fun ⟨a, ha, he⟩ => ⟨a, ⟨ha, bne_iff_ne.2 (he ▸ hn)⟩, he⟩⟩

example : (serviceNodes [{ name := "web" }, { name := "db" }, { name := "web", dependsOn := ["db"] }]).map
    (·.dependsOn) = [[], []] := by decide

/-- Modelled from the spec: the services in reverse dependency order, each after every service
that depends on it, by taking each time the first remaining service on which no remaining service
depends; `none` on a dependency cycle. -/
def reverseDependencyOrder : Nat → List ServiceConfig → Option (List ServiceConfig)
  | _, [] => some []
  | 0, _ :: _ => none
  | fuel + 1, services =>
    match services.find? (fun s => services.all fun d => !d.dependsOn.contains s.name) with
    | none => none
    | some s => (reverseDependencyOrder fuel (services.erase s)).map (s :: ·)

/-- Modelled from the spec: the walk of `InReverseDependencyOrder`, the callback on each service
in turn, stopping at its first error. -/
def walkServices (fn : ServiceConfig → Prog (Option Error)) : List ServiceConfig → Prog (Option Error)
  | [] => return none
  | service :: rest => do
    match ← fn service with
    | some err => return some err
    | none => walkServices fn rest

/-- Modelled from the spec: `InReverseDependencyOrder`, declared outside `compose.go`. A cycle is
an error before any call; otherwise the walk visits each node once, one at a time, each after the
callbacks of all nodes that depend on it have returned. On a chain of dependencies the spec's
executor, which runs every ready node at once, has exactly this one order. -/
def inReverseDependencyOrder (project : Project) (fn : ServiceConfig → Prog (Option Error)) : Prog (Option Error) :=
  match reverseDependencyOrder (serviceNodes project.services).length (serviceNodes project.services) with
  | none => return some (.new "dependency cycle detected")
  | some order => walkServices fn order

/-! ## Removing containers -/

/-- `strings.LastIndex(name, "/") == 0`: the name's one slash is its first character. -/
def slashOnlyFirst (name : String) : Bool :=
  name.toList.head? == some '/' && !name.toList.tail.contains '/'

/-- `getContainerName`: the first name whose one slash leads it, without the slash; else the
first name without its first character; `none` where it panics (no name, or an empty first
name). -/
def getContainerName (c : Container) : Option String :=
  match c.names.find? slashOnlyFirst with
  | some name => some (name.drop 1)
  | none =>
    match c.names with
    | [] => none
    | name :: _ => if name = "" then none else some (name.drop 1)

/-- The unit `removeContainers` starts in each iteration. The closure captures the loop variable
`container`, the shared variable `i`, and reads it at each use: for the event's name, for the
stop and for the removal. -/
def removeContainerUnit (i : Nat) : Prog (Option Error) := do
  match getContainerName (← read i) with
  | none => .panic "index out of range"
  | some name =>
    let eventName := "Container " ++ name
    emit (.stopping eventName)
    match ← send (.containerStop (← read i).id) with
    | .error err =>
      emit (.errorMessage eventName "Error while Stopping")
      return some err
    | .ok () =>
      emit (.removing eventName)
      match ← send (.containerRemove (← read i).id) with
      | .error err =>
        emit (.errorMessage eventName "Error while Removing")
        return some err
      | .ok () =>
        emit (.removed eventName)
        return none

/-- The loop of `removeContainers`: each iteration assigns the loop variable `i` and starts a
unit. -/
def removeLoop (i : Nat) : List Container → Prog Unit
  | [] => return ()
  | container :: rest => do
    assign i container
    launch (removeContainerUnit i)
    removeLoop i rest

/-- `removeContainers`: it starts the units on the caller's errgroup and returns at once. -/
def removeContainers (filter : List Filter) : Prog (Option Error) := do
  match ← send (.containerList filter) with
  | .error err => return some err
  | .ok containers =>
    let i ← declare default
    removeLoop i containers
    return none

/-! ## Down -/

/-- The network loop of `Down`: one unit per network, over copies of its id and name. -/
def downNetworks : List NetworkResource → Prog Unit
  | [] => return ()
  | n :: rest => do
    launch (ensureNetworkDown n.id n.name)
    downNetworks rest

section Down

variable (K : LabelKeys)

/-- `Down`. -/
def down (projectName : String) : Prog (Option Error) := do
  match ← projectFromContainerLabels K projectName with
  | .error err => return some err
  | .ok none => return none
  | .ok (some project) =>
    let remove := fun (service : ServiceConfig) =>
      removeContainers [projectFilter K project.name, serviceFilter K service.name]
    match ← inReverseDependencyOrder project remove with
    | some err => return some err
    | none =>
      match ← waitGroup with
      | some err => return some err
      | none =>
        match ← send (.networkList [projectFilter K projectName]) with
        | .error err => return some err
        | .ok networks =>
          downNetworks networks
          waitGroup

end Down

/-! ## A project of two services -/

/-- The container of service `web` of project `demo`, loaded from `/srv/app/compose.yaml`. -/
def web1 : Container :=
  { id := "web1", names := ["/demo_web_1"],
    labels := [("project", "demo"), ("service", "web"), ("workingDir", "/srv/app"), ("sourceFiles", "/srv/app/compose.yaml")] }

/-- The container of service `db` of project `demo`. -/
def db1 : Container :=
  { id := "db1", names := ["/demo_db_1"],
    labels := [("project", "demo"), ("service", "db"), ("workingDir", "/srv/app"), ("sourceFiles", "/srv/app/compose.yaml")] }

/-- Project `demo`: `web` depends on `db`. -/
def webDb : Project :=
  { name := "demo", workingDir := "/srv/app", composeFiles := ["/srv/app/compose.yaml"],
    services := [{ name := "web", dependsOn := ["db"] }, { name := "db" }] }

/-- The runtime of project `demo`: its containers `web1` and `db1`, its compose file loading to
`webDb`, and `dbList` as the answer to the listing of `db`'s containers; every other call
succeeds. -/
def webDbRuntime (dbList : Except Error (List Container)) : Answers
  | .containerList fs =>
    if fs = [projectFilter specKeys "demo"] then .ok [web1, db1]
    else if fs = [projectFilter specKeys "demo", serviceFilter specKeys "web"] then .ok [web1]
    else if fs = [projectFilter specKeys "demo", serviceFilter specKeys "db"] then dbList
    else .ok []
  | .projectFromOptions _ => .ok webDb
  | c => c.okAnswer

/-- `web` depends on `db`, and the walk visits `web` first. Run the calling goroutine until both
units are started, then `db`'s unit: it stops `db1` while `web1` is neither stopped nor removed. -/
theorem down_stops_dependency_first :
    webDb.services.map (·.dependsOn) = [["db"], []] ∧
      ∃ s, Sys.ReachableWith (webDbRuntime (.ok [db1])) (Sys.init (down specKeys "demo")) s ∧
        Call.containerStop "db1" ∈ s.trace.map (·.call) ∧
        Call.containerStop "web1" ∉ s.trace.map (·.call) ∧ Call.containerRemove "web1" ∉ s.trace.map (·.call) := by
  refine ⟨rfl, ?_⟩
  obtain ⟨s, hs, h⟩ := @Sys.exists_of_runCheck (webDbRuntime (.ok [db1]))
    (List.replicate 10 .main ++ List.replicate 4 (.unit 1)) (Sys.init (down specKeys "demo"))
    (fun s => decide (Call.containerStop "db1" ∈ s.trace.map (·.call) ∧
      Call.containerStop "web1" ∉ s.trace.map (·.call) ∧ Call.containerRemove "web1" ∉ s.trace.map (·.call)))
    (by decide)
  exact ⟨s, hs, of_decide_eq_true h⟩

end Compose
