/-
Every run of `Down`, `Logs` and `Push`, for every answer of the runtime and every interleaving of
their goroutines. Each keeps the nil discipline: it returns `nil` only after a wait that answered
`nil`, so a `nil` return means that every unit it started (each stop and removal, each network
removal, each log copy, each push) returned `nil`. `Down` stops and removes only containers, and
removes only networks, that a listing returned before: the loop variable its removal units share
can point a unit at another container of the listing than the one it was started for, never at
one outside it. `Down` removes networks only after every container stop and removal: its first
wait comes between the two. `Push` never reports a failure as a progress event: its stream loop
returns on an error message before `toProgressEvent` could give it the status `Error`. When `Push`
returns `nil`, the image of every service with a build section has been pushed: each unit works
on its own copy of its service and returns `nil` only after the registry accepted the push.
-/
import LocalCompose.Logs
import LocalCompose.Engine.Report
import LocalCompose.Engine.Guard
import LocalCompose.Engine.Promise

namespace Compose

open Prog

/-! ## The units -/

theorem noGo_removeContainerUnit (i : Nat) : (removeContainerUnit i).NoGo := by
  refine (noGo_read i).bind fun c => ?_
  split
  · exact .panic _
  · refine (noGo_emit _).bind fun _ => (noGo_read i).bind fun _ => (noGo_send _).bind fun r => ?_
    rcases r with err | ⟨⟩
    · exact (noGo_emit _).bind fun _ => .pure _
    · refine (noGo_emit _).bind fun _ => (noGo_read i).bind fun _ => (noGo_send _).bind fun r => ?_
      rcases r with err | ⟨⟩ <;> exact (noGo_emit _).bind fun _ => .pure _

theorem seq_ensureNetworkDown (networkID networkName : String) : (ensureNetworkDown networkID networkName).Seq := by
  refine (seq_emit _).bind fun _ => (seq_send _).bind fun r => ?_
  rcases r with err | ⟨⟩ <;> exact (seq_emit _).bind fun _ => .pure _

theorem noGo_logsUnit (service : String) (container : ContainerJSON) : (logsUnit service container).NoGo :=
  (noGo_send _).bind fun
    | .error _ => .panic _
    | .ok () => (noGo_send _).bind fun | .error _ => .pure _ | .ok () => .pure _

theorem seq_pushMessages (service : ServiceConfig) :
    ∀ (messages : List JSONMessage) (final : Option Error), (pushMessages service messages final).Seq
  | [], final => .pure final
  | jm :: rest, final => by
    rw [pushMessages]
    split
    · exact .pure _
    · dsimp only
      split
      · exact (seq_emit _).bind fun _ => seq_pushMessages service rest final
      · exact seq_pushMessages service rest final

theorem seq_pushUnit (indexServerAddress : String) (service : ServiceConfig) :
    (pushUnit indexServerAddress service).Seq := by
  refine (seq_send _).bind fun | .error _ => .pure _ | .ok ref => ?_
  refine (seq_send _).bind fun | .error _ => .pure _ | .ok repoInfo => ?_
  refine (seq_send _).bind fun | .error _ => .pure _ | .ok authConfig => ?_
  refine (seq_send _).bind fun | .error _ => .pure _ | .ok buf => ?_
  refine (seq_send _).bind fun | .error _ => .pure _ | .ok stream => ?_
  exact seq_pushMessages service _ _

/-! ## The loops that start them -/

theorem starts_removeLoop (i : Nat) : ∀ containers : List Container, (removeLoop i containers).Starts
  | [] => .pure ()
  | _ :: rest => .setVar (.go ⟨rfl, noGo_removeContainerUnit i⟩ (starts_removeLoop i rest))

theorem starts_removeContainers (filter : List Filter) : (removeContainers filter).Starts :=
  .call fun
    | .error _ => .pure _
    | .ok containers => .newVar fun i => (starts_removeLoop i containers).bind fun _ => .pure none

theorem starts_walkServices {fn : ServiceConfig → Prog (Option Error)} (hfn : ∀ s, (fn s).Starts) :
    ∀ services : List ServiceConfig, (walkServices fn services).Starts
  | [] => .pure none
  | s :: rest => (hfn s).bind fun
    | none => starts_walkServices hfn rest
    | some _ => .pure _

theorem starts_downNetworks : ∀ networks : List NetworkResource, (downNetworks networks).Starts
  | [] => .pure ()
  | n :: rest => .go ⟨rfl, (seq_ensureNetworkDown n.id n.name).noGo⟩ (starts_downNetworks rest)

theorem starts_pushLoop (a : String) : ∀ services : List ServiceConfig, (pushLoop a services).Starts
  | [] => .pure ()
  | service :: rest => by
    rw [pushLoop]
    split
    · exact .go ⟨rfl, (seq_pushUnit a service).noGo⟩ (starts_pushLoop a rest)
    · exact starts_pushLoop a rest

section Functions

variable (K : LabelKeys)

theorem seq_projectFromContainerLabels (projectName : String) : (projectFromContainerLabels K projectName).Seq := by
  refine (seq_send _).bind fun r => ?_
  rcases r with err | _ | ⟨c, containers⟩
  · exact .pure _
  · exact .pure _
  · dsimp only
    split
    · exact .pure _
    · refine (seq_send _).bind fun r => ?_
      rcases r with err | project <;> exact .pure _

/-! ## The nil discipline -/

theorem nilJoins_down (projectName : String) : (down K projectName).NilJoins false := by
  refine (seq_projectFromContainerLabels K projectName).nilJoins_bind fun r => ?_
  rcases r with err | _ | project
  · exact .error _ _
  · exact .ok
  · refine Starts.nilJoins_bind ?_ (fun r => ?_) false
    · unfold inReverseDependencyOrder
      split
      · exact .pure _
      · exact starts_walkServices (fun _ => starts_removeContainers _) _
    · rcases r with _ | err
      · refine .wait ?_ fun e => .error e true
        refine .call fun r => ?_
        rcases r with err | networks
        · exact .error _ _
        · exact (starts_downNetworks networks).nilJoins_bind (fun _ => nilJoins_waitGroup true) false
      · exact .error _ _

theorem nilJoins_logsLoop : ∀ (containers : List Container) (b : Bool), (logsLoop K containers).NilJoins b
  | [], b => nilJoins_waitGroup b
  | _ :: rest, _ => .call fun
    | .error _ => .error _ _
    | .ok _ => .go ⟨rfl, noGo_logsUnit _ _⟩ (nilJoins_logsLoop rest true)

theorem nilJoins_logs (projectName : String) : (logs K projectName).NilJoins false := .call fun
  | .error _ => .error _ _
  | .ok containers => nilJoins_logsLoop K containers false

theorem nilJoins_push (indexServer : String) (project : Project) : (push indexServer project).NilJoins false :=
  .call fun
    | .error _ => .error _ _
    | .ok () => .call fun
      | .error _ => .error _ _
      | .ok _ => (starts_pushLoop _ _).nilJoins_bind (fun _ => nilJoins_waitGroup true) false

/-- `Down`, `Logs` and `Push` return `nil` only when every unit they started has returned `nil`:
in every run, for every answer of the runtime and every interleaving of the goroutines. -/
theorem nil_return_after_units_nil (projectName indexServer : String) (project : Project) :
    (∀ s, Sys.Reachable (Sys.init (down K projectName)) s → s.main.result? = some none →
      ∀ u ∈ s.units, u.result? = some none) ∧
    (∀ s, Sys.Reachable (Sys.init (logs K projectName)) s → s.main.result? = some none →
      ∀ u ∈ s.units, u.result? = some none) ∧
    (∀ s, Sys.Reachable (Sys.init (push indexServer project)) s → s.main.result? = some none →
      ∀ u ∈ s.units, u.result? = some none) :=
  ⟨fun _ h => Sys.nil_after_units (nilJoins_down K projectName) h,
    fun _ h => Sys.nil_after_units (nilJoins_logs K projectName) h,
    fun _ h => Sys.nil_after_units (nilJoins_push indexServer project) h⟩

end Functions

/-- Project `demo` with the containers `web1` and `db1`, every call succeeding: `Down` runs its two
removal units to their end and returns `nil`, and both units returned `nil`. -/
theorem nil_return_after_units_nil_demo :
    ∃ s, Sys.Reachable (Sys.init (down specKeys "demo")) s ∧ s.main.result? = some none ∧ s.units.length = 2 ∧
      ∀ u ∈ s.units, u.result? = some none := by
  obtain ⟨s, hs, h⟩ := @Sys.exists_of_runCheck (webDbRuntime (.ok [db1]))
    (List.replicate 10 .main ++ List.replicate 8 (.unit 0) ++ List.replicate 8 (.unit 1) ++ List.replicate 3 .main)
    (Sys.init (down specKeys "demo")) (fun s => decide (s.main.result? = some none ∧ s.units.length = 2)) (by decide)
  obtain ⟨hret, hlen⟩ := of_decide_eq_true h
  exact ⟨s, hs.reachable, hret, hlen, (nil_return_after_units_nil specKeys "demo" "" { name := "" }).1 s hs.reachable hret⟩

/-! ## The resources `Down` acts on -/

/-- The containers a listing answered in an exchange. -/
def Exchange.listedContainers : Exchange → List Container
  | ⟨.containerList _, .ok containers⟩ => containers
  | _ => []

/-- The networks a listing answered in an exchange. -/
def Exchange.listedNetworks : Exchange → List NetworkResource
  | ⟨.networkList _, .ok networks⟩ => networks
  | _ => []

/-- Whether a call acts only on resources that the listings of the exchanges `t` returned: a
container stop or removal names a listed container's id, a network removal a listed network's
id; the other calls act on no container or network. -/
def Call.OnListed (t : List Exchange) : Call → Prop
  | .containerStop id => id ∈ (t.flatMap Exchange.listedContainers).map (·.id)
  | .containerRemove id => id ∈ (t.flatMap Exchange.listedContainers).map (·.id)
  | .networkRemove id => id ∈ (t.flatMap Exchange.listedNetworks).map (·.id)
  | _ => True

theorem flatMap_subset_flatMap {β : Type} (f : Exchange → List β) {t t' : List Exchange} (h : t ⊆ t') :
    t.flatMap f ⊆ t'.flatMap f := fun _ hx =>
  let ⟨a, ha, hx⟩ := List.mem_flatMap.1 hx
  List.mem_flatMap.2 ⟨a, h ha, hx⟩

theorem Call.onListed_mono {t t' : List Exchange} (h : t ⊆ t') {c : Call} (hc : c.OnListed t) : c.OnListed t' := by
  cases c <;> first | trivial | exact List.map_subset _ (flatMap_subset_flatMap _ h) hc

/-- The guard of `Down`: calls on listed resources only, and listed containers in the shared
variables. -/
def listedGuard : Guard where
  allowed := Call.OnListed
  good t c := c ∈ t.flatMap Exchange.listedContainers
  allowed_mono h hc := Call.onListed_mono h hc
  good_mono h hv := flatMap_subset_flatMap _ h hv

theorem mem_listedContainers_cons {f : List Filter} {containers : List Container} {t : List Exchange}
    {c : Container} (hc : c ∈ containers) :
    listedGuard.good (⟨.containerList f, .ok containers⟩ :: t) c :=
  List.mem_flatMap.2 ⟨_, List.mem_cons_self _ _, hc⟩

theorem guarded_removeContainerUnit {i : Nat} {t : List Exchange} {D A : List Nat} (hi : i ∈ A) :
    (removeContainerUnit i).Guarded listedGuard t D A := by
  refine Guarded.read_bind hi fun c t₁ _ _ => ?_
  dsimp only
  split
  · exact .panic _
  · refine Guarded.emit_bind trivial fun t₂ _ => Guarded.read_bind hi fun c t₃ _ hc =>
      Guarded.send_bind (List.mem_map_of_mem _ hc) fun r => ?_
    rcases r with err | ⟨⟩
    · exact Guarded.emit_bind trivial fun _ _ => .pure _
    · refine Guarded.emit_bind trivial fun t₄ _ => Guarded.read_bind hi fun c t₅ _ hc =>
        Guarded.send_bind (List.mem_map_of_mem _ hc) fun r => ?_
      rcases r with err | ⟨⟩ <;> exact Guarded.emit_bind trivial fun _ _ => .pure _

theorem guarded_removeLoop {i : Nat} {t : List Exchange} {D : List Nat} (hi : i ∈ D) :
    ∀ (containers : List Container) (A : List Nat), (∀ c ∈ containers, listedGuard.good t c) →
      (removeLoop i containers).Guarded listedGuard t D A
  | [], _, _ => .pure ()
  | c :: rest, A, hc =>
    .setVar hi (hc c (List.mem_cons_self c rest)) (.go (guarded_removeContainerUnit (List.mem_cons_self i A))
      (guarded_removeLoop hi rest _ fun c' h => hc c' (List.mem_cons_of_mem c h)))

theorem guarded_removeContainers (filter : List Filter) (t : List Exchange) (D A : List Nat) :
    (removeContainers filter).Guarded listedGuard t D A :=
  .call trivial fun
    | .error _ => .pure _
    | .ok containers => .newVar fun i => (guarded_removeLoop (List.mem_cons_self i D) containers A
        fun _ hc => mem_listedContainers_cons hc).bind fun _ _ _ => .pure none

theorem guarded_walkServices {fn : ServiceConfig → Prog (Option Error)} {D A : List Nat}
    (hfn : ∀ s t, (fn s).Guarded listedGuard t D A) :
    ∀ (services : List ServiceConfig) (t : List Exchange), (walkServices fn services).Guarded listedGuard t D A
  | [], _ => .pure none
  | s :: rest, t => (hfn s t).bind fun
    | none, t', _ => guarded_walkServices hfn rest t'
    | some _, _, _ => .pure _

theorem guarded_ensureNetworkDown {n : NetworkResource} {t : List Exchange} {D A : List Nat}
    (hn : n ∈ t.flatMap Exchange.listedNetworks) : (ensureNetworkDown n.id n.name).Guarded listedGuard t D A := by
  refine .call trivial fun _ => .call ?_ fun r => ?_
  · exact List.mem_map_of_mem _ (flatMap_subset_flatMap _ (List.subset_cons_self _ _) hn)
  · rcases r with err | ⟨⟩ <;> exact .call trivial fun _ => .pure _

theorem guarded_downNetworks {t : List Exchange} {D A : List Nat} :
    ∀ networks : List NetworkResource, (∀ n ∈ networks, n ∈ t.flatMap Exchange.listedNetworks) →
      (downNetworks networks).Guarded listedGuard t D A
  | [], _ => .pure ()
  | n :: rest, hn => .go (guarded_ensureNetworkDown (hn n (List.mem_cons_self n rest)))
      (guarded_downNetworks rest fun n' h => hn n' (List.mem_cons_of_mem n h))

section Down

variable (K : LabelKeys)

theorem guarded_projectFromContainerLabels (projectName : String) (t : List Exchange) (D A : List Nat) :
    (projectFromContainerLabels K projectName).Guarded listedGuard t D A := by
  refine Guarded.send_bind trivial fun r => ?_
  rcases r with err | _ | ⟨c, containers⟩
  · exact .pure _
  · exact .pure _
  · dsimp only
    split
    · exact .pure _
    · refine Guarded.send_bind trivial fun r => ?_
      rcases r with err | project <;> exact .pure _

theorem guarded_down (projectName : String) : (down K projectName).Guarded listedGuard [] [] [] := by
  refine (guarded_projectFromContainerLabels K projectName [] [] []).bind fun r t _ => ?_
  rcases r with err | _ | project
  · exact .pure _
  · exact .pure _
  · refine Guarded.bind ?_ fun r t' _ => ?_
    · unfold inReverseDependencyOrder
      split
      · exact .pure _
      · exact guarded_walkServices (fun _ _ => guarded_removeContainers _ _ _ _) _ t
    · rcases r with _ | err
      · refine .wait fun e => ?_
        rcases e with _ | err
        · refine .call trivial fun r => ?_
          rcases r with err | networks
          · exact .pure _
          · exact (guarded_downNetworks networks fun n hn => List.mem_flatMap.2 ⟨_, List.mem_cons_self _ _, by exact hn⟩).bind
              fun _ _ _ => .wait fun e => .pure e
        · exact .pure _
      · exact .pure _

/-- Every container `Down` stops or removes, and every network it removes, was returned by a
listing made before the call: in every run, for every answer of the runtime and every
interleaving of its units. -/
theorem down_acts_on_listed (projectName : String) {s : Sys} (h : Sys.Reachable (Sys.init (down K projectName)) s) :
    ∀ pre x post, s.trace = pre ++ x :: post → x.call.OnListed pre :=
  Sys.guarded_calls (guarded_down K projectName) h

end Down

/-- Project `demo` with the containers `web1` and `db1`: once `db`'s unit has stopped `db1`, every
call so far acts on listed resources. -/
theorem down_acts_on_listed_demo :
    ∃ s, Sys.Reachable (Sys.init (down specKeys "demo")) s ∧ Call.containerStop "db1" ∈ s.trace.map (·.call) ∧
      ∀ pre x post, s.trace = pre ++ x :: post → x.call.OnListed pre := by
  obtain ⟨s, hs, h⟩ := @Sys.exists_of_runCheck (webDbRuntime (.ok [db1]))
    (List.replicate 10 .main ++ List.replicate 4 (.unit 1)) (Sys.init (down specKeys "demo"))
    (fun s => decide (Call.containerStop "db1" ∈ s.trace.map (·.call))) (by decide)
  exact ⟨s, hs.reachable, of_decide_eq_true h, down_acts_on_listed specKeys "demo" hs.reachable⟩

/-! ## Containers before networks -/

/-- A call that removes a network. -/
def Call.removesNetwork : Call → Bool
  | .networkRemove _ => true
  | _ => false

/-- A call that stops or removes a container. -/
def Call.removesContainer : Call → Bool
  | .containerStop _ => true
  | .containerRemove _ => true
  | _ => false

/-- The two phases of `Down`: before its first wait no network is removed; after it no container
is stopped or removed. -/
def downPhase : Bool → Call → Prop
  | false, c => c.removesNetwork = false
  | true, c => c.removesContainer = false

theorem calls_removeContainerUnit (i : Nat) : (removeContainerUnit i).Calls (downPhase false) := by
  refine Calls.read_bind fun c => ?_
  split
  · exact .panic _
  · refine Calls.emit_bind rfl (Calls.read_bind fun _ => Calls.send_bind rfl fun r => ?_)
    rcases r with err | ⟨⟩
    · exact Calls.emit_bind rfl (.pure _)
    · refine Calls.emit_bind rfl (Calls.read_bind fun _ => Calls.send_bind rfl fun r => ?_)
      rcases r with err | ⟨⟩ <;> exact Calls.emit_bind rfl (.pure _)

theorem calls_removeLoop (i : Nat) : ∀ containers : List Container, (removeLoop i containers).Calls (downPhase false)
  | [] => .pure ()
  | _ :: rest => .setVar (.go (calls_removeContainerUnit i) (calls_removeLoop i rest))

theorem calls_removeContainers (filter : List Filter) : (removeContainers filter).Calls (downPhase false) :=
  Calls.send_bind rfl fun
    | .error _ => .pure _
    | .ok containers => .newVar fun i => (calls_removeLoop i containers).bind fun _ => .pure none

theorem calls_walkServices {P : Call → Prop} {fn : ServiceConfig → Prog (Option Error)} (hfn : ∀ s, (fn s).Calls P) :
    ∀ services : List ServiceConfig, (walkServices fn services).Calls P
  | [] => .pure none
  | s :: rest => (hfn s).bind fun
    | none => calls_walkServices hfn rest
    | some _ => .pure _

theorem calls_ensureNetworkDown (networkID networkName : String) :
    (ensureNetworkDown networkID networkName).Calls (downPhase true) := by
  refine Calls.emit_bind rfl (Calls.send_bind rfl fun r => ?_)
  rcases r with err | ⟨⟩ <;> exact Calls.emit_bind rfl (.pure _)

theorem calls_downNetworks : ∀ networks : List NetworkResource, (downNetworks networks).Calls (downPhase true)
  | [] => .pure ()
  | n :: rest => .go (calls_ensureNetworkDown n.id n.name) (calls_downNetworks rest)

section Down

variable (K : LabelKeys)

theorem calls_projectFromContainerLabels (projectName : String) :
    (projectFromContainerLabels K projectName).Calls (downPhase false) := by
  refine Calls.send_bind rfl fun r => ?_
  rcases r with err | _ | ⟨c, containers⟩
  · exact .pure _
  · exact .pure _
  · dsimp only
    split
    · exact .pure _
    · refine Calls.send_bind rfl fun r => ?_
      rcases r with err | project <;> exact .pure _

theorem phases_down (projectName : String) : (down K projectName).Phases downPhase false := by
  refine (calls_projectFromContainerLabels K projectName).phases_bind fun r => ?_
  rcases r with err | _ | project
  · exact .pure _ _
  · exact .pure _ _
  · refine Calls.phases_bind ?_ fun r => ?_
    · unfold inReverseDependencyOrder
      split
      · exact .pure _
      · exact calls_walkServices (fun _ => calls_removeContainers _) _
    · rcases r with _ | err
      · refine .wait fun e => ?_
        rcases e with _ | err
        · refine .call rfl fun r => ?_
          rcases r with err | networks
          · exact .pure _ _
          · exact (calls_downNetworks networks).phases_bind fun _ => .wait fun e => .pure e true
        · exact .pure _ _
      · exact .pure _ _

/-- `Down` removes a network only after every container stop and removal: in every run, for every
answer of the runtime and every interleaving, no `ContainerStop` or `ContainerRemove` call
follows a `NetworkRemove` call. -/
theorem down_removes_networks_last (projectName : String) {s : Sys}
    (h : Sys.Reachable (Sys.init (down K projectName)) s) :
    ∀ pre x mid y post, s.trace = pre ++ x :: (mid ++ y :: post) → x.call.removesNetwork = true →
      y.call.removesContainer = false := fun pre x mid y post he hx =>
  Sys.phases_order (phases_down K projectName) h pre x mid y post he (by simp [downPhase, hx])

end Down

/-- The runtime of project `demo` with the containers `web1` and `db1` and the network `net1`. -/
def webDbNetRuntime : Answers
  | .networkList _ => .ok [{ id := "net1", name := "demo_default" }]
  | c => webDbRuntime (.ok [db1]) c

/-- Project `demo` with the containers `web1` and `db1` and the network `net1`, every call
succeeding: `Down` stops and removes both containers, and then removes `net1`. -/
theorem down_removes_networks_last_demo :
    ∃ s, Sys.Reachable (Sys.init (down specKeys "demo")) s ∧ Call.containerRemove "db1" ∈ s.trace.map (·.call) ∧
      Call.networkRemove "net1" ∈ s.trace.map (·.call) ∧
      ∀ pre x mid y post, s.trace = pre ++ x :: (mid ++ y :: post) → x.call.removesNetwork = true →
        y.call.removesContainer = false := by
  obtain ⟨s, hs, h⟩ := @Sys.exists_of_runCheck webDbNetRuntime
    (List.replicate 10 .main ++ List.replicate 8 (.unit 0) ++ List.replicate 8 (.unit 1) ++ List.replicate 3 .main ++
      List.replicate 3 (.unit 2)) (Sys.init (down specKeys "demo"))
    (fun s => decide (Call.containerRemove "db1" ∈ s.trace.map (·.call) ∧ Call.networkRemove "net1" ∈ s.trace.map (·.call)))
    (by decide)
  obtain ⟨h1, h2⟩ := of_decide_eq_true h
  exact ⟨s, hs.reachable, h1, h2, down_removes_networks_last specKeys "demo" hs.reachable⟩

/-! ## What `Push` reports -/

/-- Whether an event reports a failure: `progress.ErrorEvent`, `progress.ErrorMessageEvent`, or an
event of status `Error`. -/
def Event.reportsError : Event → Bool
  | .error _ => true
  | .errorMessage _ _ => true
  | .raw _ _ status _ => status == .error
  | _ => false

/-- `toProgressEvent` gives a message without an error the status `Working` or `Done`. -/
theorem toProgressEvent_reportsError {pfx : String} {jm : JSONMessage} {e : Event} (he : jm.error = none)
    (h : toProgressEvent pfx jm = some e) : e.reportsError = false := by
  unfold toProgressEvent at h
  split at h
  · cases h
  · cases h
    simp only [Event.reportsError, he, Option.isSome_none, Bool.false_eq_true, if_false]
    split <;> rfl

/-- The guard that allows every call but an event reporting a failure. -/
def noErrorGuard : Guard where
  allowed _ c := ∀ e, c = .event e → e.reportsError = false
  good _ _ := True
  allowed_mono := fun _ h => h
  good_mono := fun _ _ => trivial

theorem guarded_pushMessages (service : ServiceConfig) {D A : List Nat} :
    ∀ (messages : List JSONMessage) (final : Option Error) (t : List Exchange),
      (pushMessages service messages final).Guarded noErrorGuard t D A
  | [], final, _ => .pure final
  | jm :: rest, final, t => by
    rw [pushMessages]
    split
    · exact .pure _
    · rename_i he
      dsimp only
      split
      · rename_i e hp
        exact Guarded.emit_bind (fun _ h => by cases h; exact toProgressEvent_reportsError he hp)
          fun t' _ => guarded_pushMessages service rest final t'
      · exact guarded_pushMessages service rest final t

theorem guarded_pushUnit (a : String) (service : ServiceConfig) (t : List Exchange) (D A : List Nat) :
    (pushUnit a service).Guarded noErrorGuard t D A := by
  refine Guarded.send_bind (fun _ h => nomatch h) fun | .error _ => .pure _ | .ok ref => ?_
  refine Guarded.send_bind (fun _ h => nomatch h) fun | .error _ => .pure _ | .ok repoInfo => ?_
  refine Guarded.send_bind (fun _ h => nomatch h) fun | .error _ => .pure _ | .ok authConfig => ?_
  refine Guarded.send_bind (fun _ h => nomatch h) fun | .error _ => .pure _ | .ok buf => ?_
  refine Guarded.send_bind (fun _ h => nomatch h) fun | .error _ => .pure _ | .ok stream => ?_
  exact guarded_pushMessages service _ _ _

theorem guarded_pushLoop (a : String) (D A : List Nat) :
    ∀ (services : List ServiceConfig) (t : List Exchange), (pushLoop a services).Guarded noErrorGuard t D A
  | [], _ => .pure ()
  | service :: rest, t => by
    rw [pushLoop]
    split
    · exact Guarded.bind (.go (guarded_pushUnit a service t D A) (.pure ())) fun _ t' _ => guarded_pushLoop a D A rest t'
    · exact Guarded.bind (.pure ()) fun _ t' _ => guarded_pushLoop a D A rest t'

theorem guarded_push (indexServer : String) (project : Project) :
    (push indexServer project).Guarded noErrorGuard [] [] [] := by
  refine Guarded.send_bind (fun _ h => nomatch h) fun | .error _ => .pure _ | .ok () => ?_
  refine Guarded.send_bind (fun _ h => nomatch h) fun | .error _ => .pure _ | .ok a => ?_
  exact (guarded_pushLoop _ _ _ _ _).bind fun _ _ _ => .wait fun e => .pure e

/-- `Push` never reports a failure as a progress event, for every answer of the runtime and every
interleaving of its units: every event of a run is a stream message's `Working` or `Done`. A
failed push, the error message of its stream among them, reaches the caller only as the error
`Push` returns. -/
theorem push_reports_no_error (indexServer : String) (project : Project) {s : Sys}
    (h : Sys.Reachable (Sys.init (push indexServer project)) s) :
    ∀ x ∈ s.trace, ∀ e, x.call = .event e → e.reportsError = false := by
  intro x hx
  obtain ⟨pre, post, he⟩ := List.append_of_mem hx
  exact Sys.guarded_calls (guarded_push indexServer project) h pre x post he

/-- The runtime where the push of an image streams a layer's progress, then the registry's
refusal. -/
def pushDeniedRuntime : Answers
  | .imagePush _ _ => .ok ⟨[{ id := "l1", status := "Preparing" }, { id := "", status := "", error := some "denied" }], none⟩
  | c => c.okAnswer

/-- Project `demo` with one service to build, whose push the registry refuses: `Push` returns the
refusal, and the one event it reports is the layer's `Working`. -/
theorem push_reports_no_error_demo :
    ∃ s, Sys.Reachable (Sys.init (push "index" { name := "demo", services := [{ name := "web", image := "demo/web", build := true }] })) s ∧
      s.main.result? = some (some (.new "denied")) ∧
      Call.event (.raw "Pushing web: l1" "Preparing" .working "") ∈ s.trace.map (·.call) ∧
      ∀ x ∈ s.trace, ∀ e, x.call = .event e → e.reportsError = false := by
  obtain ⟨s, hs, h⟩ := @Sys.exists_of_runCheck pushDeniedRuntime
    ([.main, .main, .main] ++ List.replicate 6 (.unit 0) ++ [.main])
    (Sys.init (push "index" { name := "demo", services := [{ name := "web", image := "demo/web", build := true }] }))
    (fun s => decide (s.main.result? = some (some (.new "denied")) ∧
      Call.event (.raw "Pushing web: l1" "Preparing" .working "") ∈ s.trace.map (·.call))) (by decide)
  obtain ⟨h1, h2⟩ := of_decide_eq_true h
  exact ⟨s, hs.reachable, h1, h2, push_reports_no_error "index" _ hs.reachable⟩

/-! ## What a successful `Push` has pushed -/

/-- An exchange in which the registry accepted the push of `service`'s image, and whose stream
ended without an error. -/
def Exchange.pushed (service : ServiceConfig) (x : Exchange) : Prop :=
  ∃ buf stream, x = ⟨.imagePush service.image buf, .ok stream⟩ ∧ stream.final = none ∧
    ∀ m ∈ stream.messages, m.error = none

theorem promises_pushMessages (service : ServiceConfig) {P : Exchange → Prop} (final : Option Error) :
    ∀ (messages : List JSONMessage) (D : Prop), ((∀ m ∈ messages, m.error = none) → final = none → D) →
      (pushMessages service messages final).Promises P D
  | [], _, h => .pure (h fun _ h => nomatch h)
  | jm :: rest, D, h => by
    rw [pushMessages]
    rcases he : jm.error with _ | msg
    · have hrest : (pushMessages service rest final).Promises P D :=
        promises_pushMessages service final rest D fun hm =>
          h fun m hm' => (List.mem_cons.1 hm').elim (fun e => e ▸ he) (hm m)
      dsimp only
      rcases toProgressEvent service.name jm with _ | e
      · exact hrest
      · exact .emit_bind hrest
    · exact .pure fun h => nomatch h

/-- A push unit returns `nil` only after the registry accepted the push of its service's image
and the stream ended without an error. -/
theorem promises_pushUnit (a : String) (service : ServiceConfig) :
    (pushUnit a service).Promises (Exchange.pushed service) False := by
  refine .send_bind fun | .error _ => .pure (nomatch ·) | .ok ref => ?_
  refine .send_bind fun | .error _ => .pure (nomatch ·) | .ok repoInfo => ?_
  refine .send_bind fun | .error _ => .pure (nomatch ·) | .ok authConfig => ?_
  refine .send_bind fun | .error _ => .pure (nomatch ·) | .ok buf => ?_
  refine .send_bind fun | .error _ => .pure (nomatch ·) | .ok stream => ?_
  exact promises_pushMessages service stream.final stream.messages _ fun hm hf => .inr ⟨buf, stream, rfl, hf, hm⟩

theorem spawns_pushLoop (a : String) : ∀ services : List ServiceConfig,
    (pushLoop a services).Spawns (fun _ => True) ((services.filter (·.build)).map Exchange.pushed)
  | [] => .pure fun _ => rfl
  | service :: rest => by
    rw [pushLoop]
    split
    · rename_i hb
      rw [List.filter_cons_of_pos hb, List.map_cons]
      exact .go (promises_pushUnit a service) (spawns_pushLoop a rest)
    · rename_i hb
      rw [List.filter_cons_of_neg hb]
      exact spawns_pushLoop a rest

theorem spawns_push (indexServer : String) (project : Project) :
    (push indexServer project).Spawns (· = none) ((project.services.filter (·.build)).map Exchange.pushed) :=
  .call fun
    | .error _ => .pure (nomatch ·)
    | .ok () => .call fun
      | .error _ => .pure (nomatch ·)
      | .ok _ => by
        rw [← List.append_nil (List.map _ _)]
        exact (spawns_pushLoop _ _).bind fun _ => spawns_waitGroup

/-- When `Push` returns `nil`, it has pushed the image of every service with a build section: the
trace holds, for each, a push of its image that the registry accepted and whose stream ended
without an error. In every run, for every answer of the runtime and every interleaving of its
units. -/
theorem push_pushes_built_services (indexServer : String) (project : Project) {s : Sys}
    (h : Sys.Reachable (Sys.init (push indexServer project)) s) (hret : s.main.result? = some none) :
    ∀ service ∈ project.services, service.build = true →
      ∃ buf stream, Exchange.mk (.imagePush service.image buf) (.ok stream) ∈ s.trace ∧
        stream.final = none ∧ ∀ m ∈ stream.messages, m.error = none := by
  intro service hs hb
  obtain ⟨x, hx, buf, stream, rfl, hf, hm⟩ :=
    Sys.promises_kept (spawns_push indexServer project) (nilJoins_push indexServer project) h hret
      _ (List.mem_map_of_mem _ (List.mem_filter.2 ⟨hs, hb⟩))
  exact ⟨buf, stream, hx, hf, hm⟩

/-- Project `demo` with `web` to build and `db` not, every call succeeding: `Push` returns `nil`
after its one unit has pushed `demo/web`. -/
theorem push_pushes_built_services_demo :
    let p : Project := { name := "demo", services := [{ name := "web", image := "demo/web", build := true },
                                                      { name := "db", image := "postgres" }] }
    ∃ s, Sys.Reachable (Sys.init (push "index" p)) s ∧ s.main.result? = some none ∧
      ∀ service ∈ p.services, service.build = true →
        ∃ buf stream, Exchange.mk (.imagePush service.image buf) (.ok stream) ∈ s.trace ∧
          stream.final = none ∧ ∀ m ∈ stream.messages, m.error = none := by
  intro p
  obtain ⟨s, hs, h⟩ := @Sys.exists_of_runCheck Call.okAnswer
    ([.main, .main, .main] ++ List.replicate 5 (.unit 0) ++ [.main]) (Sys.init (push "index" p))
    (fun s => decide (s.main.result? = some none)) (by decide)
  have hret := of_decide_eq_true h
  exact ⟨s, hs.reachable, hret, push_pushes_built_services "index" p hs.reachable hret⟩

end Compose
