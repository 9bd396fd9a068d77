/-
`Logs` and `Push`, the two functions that stream through errgroup units. `Logs` inspects each
container and starts a unit that follows its log; an inspect error returns at once, without
waiting for the units already started. A unit whose `ContainerLogs` fails closes the reader it did
not get, a nil-pointer panic. `Push` starts one unit per service to build and returns only after
`eg.Wait`: it joins its units in every run. `Down` and `Logs` do not: each has a failing call
after which it returns while a unit it started has not run.
-/
import LocalCompose.Down

namespace Compose

open Prog

section Logs

variable (K : LabelKeys)

/-- The unit `Logs` starts for a container: follow its log and copy it to the consumer, through
`io.Copy` for a terminal and `stdcopy.StdCopy` otherwise. When `ContainerLogs` fails, the
deferred `r.Close()` runs on the nil reader and panics. -/
def logsUnit (service : String) (container : ContainerJSON) : Prog (Option Error) := do
  match ← send (.containerLogs container.id) with
  | .error _ => .panic "invalid memory address or nil pointer dereference"
  | .ok () =>
    match ← send (.copyLogs service container.id container.tty) with
    | .error err => return some err
    | .ok () => return none

/-- The loop of `Logs`: inspect each container and start its unit; an inspect error returns. -/
def logsLoop : List Container → Prog (Option Error)
  | [] => waitGroup
  | c :: rest => do
    let service := getLabel c.labels K.serviceLabel
    match ← send (.containerInspect c.id) with
    | .error err => return some err
    | .ok container =>
      launch (logsUnit service container)
      logsLoop rest

/-- `Logs`. -/
def logs (projectName : String) : Prog (Option Error) := do
  match ← send (.containerList [projectFilter K projectName]) with
  | .error err => return some err
  | .ok list => logsLoop K list

/-- The loop of `Logs` starts with a call or the wait, never with a panic. -/
theorem panicked_logsLoop : ∀ containers : List Container, (logsLoop K containers).panicked = false
  | [] => rfl
  | _ :: _ => rfl

/-- The runtime of project `demo` with the container `web1`, where following its log fails. -/
def logsFailRuntime : Answers
  | .containerList _ => .ok [web1]
  | .containerLogs _ => .error (.new "logs failed")
  | c => c.okAnswer

/-- `Logs`, in every runtime that lists the project's containers, inspects the first, and fails
to follow its log: the calling goroutine starts the unit for it and waits, and the unit closes
the reader it did not get, a panic. -/
theorem logs_panics (projectName : String) (ans : Answers) (c : Container) (rest : List Container)
    (container : ContainerJSON) (e : Error)
    (hlist : ans (.containerList [projectFilter K projectName]) = .ok (c :: rest))
    (hinspect : ans (.containerInspect c.id) = .ok container)
    (hlogs : ans (.containerLogs container.id) = .error e) :
    ∃ s, Sys.ReachableWith ans (Sys.init (logs K projectName)) s ∧ s.crashed := by
  apply @Sys.exists_of_runCheck ans [.main, .main, .main, .unit 0] _ Sys.crashed
  simp [Sys.runCheck, Sys.run, Sys.step, Sys.stepProg, Sys.init, Sys.crashed, logs, logsLoop, logsUnit, send,
    launch, hlist, hinspect, hlogs, panicked_logsLoop]

/-- Project `demo` with the container `web1`, whose log cannot be followed: `Logs` panics. -/
theorem logs_panics_web : ∃ s, Sys.ReachableWith logsFailRuntime (Sys.init (logs specKeys "demo")) s ∧ s.crashed :=
  logs_panics specKeys "demo" logsFailRuntime web1 [] ⟨"web1", false⟩ (.new "logs failed") rfl rfl rfl

end Logs

section Push

/-- `toProgressEvent`, `none` where it skips a message without an id. -/
def toProgressEvent (pfx : String) (jm : JSONMessage) : Option Event :=
  if jm.id = "" then none else
    let status := if jm.status = "Pull complete" ∨ jm.status = "Already exists" then EventStatus.done
      else .working
    let status := if jm.error.isSome then EventStatus.error else status
    let text := (jm.progress.orElse fun _ => jm.error).getD ""
    some (.raw ("Pushing " ++ pfx ++ ": " ++ jm.id) jm.status status text)

/-- The decoding loop of a push's stream: an error message ends the unit with that error; the
end of the stream ends it with the decoder's error (none for `io.EOF`). -/
def pushMessages (service : ServiceConfig) : List JSONMessage → Option Error → Prog (Option Error)
  | [], final => return final
  | jm :: rest, final => do
    match jm.error with
    | some msg => return some (.new msg)
    | none =>
      if let some e := toProgressEvent service.name jm then emit e
      pushMessages service rest final

/-- What the decoding loop of a push reports, for every stream: a progress event for each message
with an id before the first error message, in order; then the text of the first error message as
an error, or, when no message has one, the decoder's final error. -/
theorem pushMessages_runs_iff (service : ServiceConfig) (final : Option Error) :
    ∀ (messages : List JSONMessage) (t : List Exchange) (r : Option Error),
      (pushMessages service messages final).Runs t r ↔
        t = ((messages.takeWhile (·.error.isNone)).filterMap (toProgressEvent service.name)).map
            (fun e => Exchange.mk (.event e) ()) ∧
          r = ((messages.findSome? (·.error)).map Error.new <|> final)
  | [], t, r => by simp [pushMessages]
  | jm :: rest, t, r => by
    rw [pushMessages]
    rcases he : jm.error with _ | msg
    · have hw : (jm :: rest).takeWhile (·.error.isNone) = jm :: rest.takeWhile (·.error.isNone) := by
        simp [List.takeWhile_cons, he]
      dsimp only
      rw [hw, List.findSome?_cons, he]
      rcases hp : toProgressEvent service.name jm with _ | e
      · simpa [hp] using pushMessages_runs_iff service final rest t r
      · simp only [runs_bind_emit, pushMessages_runs_iff service final rest, List.filterMap_cons, hp, List.map_cons]
        constructor
        · rintro ⟨t', rfl, rfl, hr⟩
          exact ⟨rfl, hr⟩
        · rintro ⟨rfl, hr⟩
          exact ⟨_, rfl, rfl, hr⟩
    · simp [he, List.takeWhile_cons, List.findSome?_cons]

/-- The unit `Push` starts for a service to build, over its own copy of the service: the
repository of its image, the credentials of its index, the push and its stream. -/
def pushUnit (indexServerAddress : String) (service : ServiceConfig) : Prog (Option Error) := do
  match ← send (.parseNormalizedNamed service.image) with
  | .error err => return some err
  | .ok ref =>
    match ← send (.parseRepositoryInfo ref) with
    | .error err => return some err
    | .ok repoInfo =>
      let key := if repoInfo.official then indexServerAddress else repoInfo.indexName
      match ← send (.getAuthConfig key) with
      | .error err => return some err
      | .ok authConfig =>
        match ← send (.jsonMarshal authConfig) with
        | .error err => return some err
        | .ok buf =>
          match ← send (.imagePush service.image buf) with
          | .error err => return some err
          | .ok stream => pushMessages service stream.messages stream.final

/-- The loop of `Push`: a unit for each service with a build section. -/
def pushLoop (indexServerAddress : String) : List ServiceConfig → Prog Unit
  | [] => return ()
  | service :: rest => do
    if service.build then launch (pushUnit indexServerAddress service)
    pushLoop indexServerAddress rest

/-- `Push`; `indexServer` is `registry.IndexServer`, the default index, declared outside
`compose.go`. -/
def push (indexServer : String) (project : Project) : Prog (Option Error) := do
  match ← send .configLoad with
  | .error err => return some err
  | .ok () =>
    match ← send .info with
    | .error err => return some err
    | .ok indexServerAddress =>
      let indexServerAddress := if indexServerAddress = "" then indexServer else indexServerAddress
      pushLoop indexServerAddress project.services
      waitGroup

theorem pushLoop_noWait (a : String) : ∀ services : List ServiceConfig, (pushLoop a services).NoWait
  | [] => .pure ()
  | service :: rest => by
    rw [pushLoop]
    split
    · exact NoWait.bind (.go (.pure ())) fun _ => pushLoop_noWait a rest
    · exact NoWait.bind (.pure ()) fun _ => pushLoop_noWait a rest

theorem push_joins (indexServer : String) (project : Project) : (push indexServer project).Joins false := by
  refine .call fun r => ?_
  rcases r with err | ⟨⟩
  · exact .pure _
  · refine .call fun r => ?_
    rcases r with err | a
    · exact .pure _
    · exact (pushLoop_noWait _ _).joins_bind (fun _ b => joins_waitGroup b) false

/-- `Push` returns only after every push it started has finished: in every run, for every answer
of the runtime and every interleaving of its units. -/
theorem push_returns_after_units (indexServer : String) (project : Project) {s : Sys}
    (h : Sys.Reachable (Sys.init (push indexServer project)) s) (hret : s.main.result?.isSome) :
    ∀ u ∈ s.units, Sys.Finished u :=
  Sys.joins_returns_after_units (push_joins indexServer project) h hret

/-- Project `demo` with one service to build: the calling goroutine starts its push and waits,
the push runs to its end, and `Push` returns with no push left running. -/
theorem push_returns_after_units_web :
    ∃ s, Sys.Reachable (Sys.init (push "index" { name := "demo", services := [{ name := "web", image := "demo/web", build := true }] })) s ∧
      s.main.result?.isSome ∧ ∀ u ∈ s.units, Sys.Finished u := by
  obtain ⟨s, hs, h⟩ := @Sys.exists_of_runCheck Call.okAnswer
    ([.main, .main, .main] ++ List.replicate 5 (.unit 0) ++ [.main])
    (Sys.init (push "index" { name := "demo", services := [{ name := "web", image := "demo/web", build := true }] }))
    (fun s => s.main.result?.isSome) (by decide)
  exact ⟨s, hs.reachable, h, push_returns_after_units "index" _ hs.reachable h⟩

end Push

/-! ## Returning before the units -/

/-- The runtime of project `demo` with the containers `web1` and `db1`, where inspecting `db1`
fails. -/
def inspectFailRuntime : Answers
  | .containerList _ => .ok [web1, db1]
  | .containerInspect id => if id = "db1" then .error (.new "inspect failed") else .ok ⟨id, false⟩
  | c => c.okAnswer

/-- `Down`, when listing the containers of `db` fails after the unit for `web1` was started, and
`Logs`, when inspecting `db1` fails after the unit for `web1` was started, each return that error
while the unit has not run. -/
theorem down_logs_return_before_units :
    (∃ s, Sys.ReachableWith (webDbRuntime (.error (.new "list failed"))) (Sys.init (down specKeys "demo")) s ∧
      s.main.result? = some (some (.new "list failed")) ∧ ∃ u ∈ s.units, ¬ Sys.Finished u) ∧
    (∃ s, Sys.ReachableWith inspectFailRuntime (Sys.init (logs specKeys "demo")) s ∧
      s.main.result? = some (some (.new "inspect failed")) ∧ ∃ u ∈ s.units, ¬ Sys.Finished u) := by
  constructor
  · obtain ⟨s, hs, h⟩ := @Sys.exists_of_runCheck (webDbRuntime (.error (.new "list failed")))
      (List.replicate 7 .main) (Sys.init (down specKeys "demo"))
      (fun s => decide (s.main.result? = some (some (.new "list failed")) ∧ ∃ u ∈ s.units, ¬ Sys.Finished u))
      (by decide)
    exact ⟨s, hs, of_decide_eq_true h⟩
  · obtain ⟨s, hs, h⟩ := @Sys.exists_of_runCheck inspectFailRuntime
      (List.replicate 4 .main) (Sys.init (logs specKeys "demo"))
      (fun s => decide (s.main.result? = some (some (.new "inspect failed")) ∧ ∃ u ∈ s.units, ¬ Sys.Finished u))
      (by decide)
    exact ⟨s, hs, of_decide_eq_true h⟩

end Compose
