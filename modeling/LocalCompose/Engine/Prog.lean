/-
The code of `compose.go` as programs over the calls it makes: a free monad `Prog` whose
instructions are the engine and library calls (`Call`, answered by a value of `Call.Resp`), the
errgroup's `Go` and `Wait`, a shared variable (the loop variable a closure captures), and a
runtime panic. `Prog.Runs` is the sequential meaning: the answered calls of one run and its
result, for any answers the runtime gives.
-/
import LocalCompose.Types

namespace Compose

/-- The status a progress event reports. -/
inductive EventStatus where
  | working
  | done
  | error
  deriving DecidableEq, Repr

/-- A progress event (`progress.Event`), by the helper of `progress` that builds it. -/
inductive Event where
  | creating (id : String)
  | created (id : String)
  | error (id : String)
  | stopping (id : String)
  | removing (id : String)
  | removed (id : String)
  | errorMessage (id msg : String)
  | raw (id text : String) (status : EventStatus) (statusText : String)
  deriving DecidableEq, Repr

/-- A message of an image push stream (`jsonmessage.JSONMessage`): `error` is the message of
its `Error`, `progress` the text of its `Progress`. -/
structure JSONMessage where
  id : String
  status : String
  error : Option String := none
  progress : Option String := none
  deriving DecidableEq, Repr

/-- The answer of an image push: the messages its stream decodes to, then the decoder's final
error (`none` for `io.EOF`). -/
structure PushStream where
  messages : List JSONMessage
  final : Option Error
  deriving DecidableEq, Repr

/-- What a registry's repository information tells `Push`. -/
structure RepositoryInfo where
  indexName : String
  official : Bool
  deriving DecidableEq, Repr

/-- A call the code makes to the engine or to a library that reads the outside world. -/
inductive Call where
  | containerList (filters : List Filter)
  | containerInspect (id : String)
  | containerStop (id : String)
  | containerRemove (id : String)
  | containerLogs (id : String)
  | copyLogs (service id : String) (tty : Bool)
  | networkInspect (name : String)
  | networkCreate (name : String) (options : NetworkCreate)
  | networkList (filters : List Filter)
  | networkRemove (id : String)
  | volumeInspect (name : String)
  | volumeCreate (options : VolumeCreateBody)
  | info
  | configLoad
  | parseNormalizedNamed (image : String)
  | parseRepositoryInfo (ref : String)
  | getAuthConfig (key : String)
  | jsonMarshal (authConfig : String)
  | imagePush (image authBytes : String)
  | projectFromOptions (options : ProjectOptions)
  | ensureImagesExists (project : Project)
  /-- `InDependencyOrder(ctx, project, ensureService)`: the services' containers, declared outside
  `compose.go`. -/
  | ensureServices (project : Project)
  | event (e : Event)
  deriving DecidableEq, Repr

/-- The answer a call can get. Calls whose Go result is only an `error` get `Except Error Unit`. -/
def Call.Resp : Call → Type
  | .containerList _ => Except Error (List Container)
  | .containerInspect _ => Except Error ContainerJSON
  | .networkList _ => Except Error (List NetworkResource)
  | .info => Except Error String
  | .parseNormalizedNamed _ => Except Error String
  | .parseRepositoryInfo _ => Except Error RepositoryInfo
  | .getAuthConfig _ => Except Error String
  | .jsonMarshal _ => Except Error String
  | .imagePush _ _ => Except Error PushStream
  | .projectFromOptions _ => Except Error Project
  | .event _ => Unit
  | _ => Except Error Unit

/-- A runtime's answers: one for each call. -/
def Answers : Type := (c : Call) → c.Resp

/-- The runtime that accepts every call and reports nothing: empty lists, the inspected
container without a terminal, empty strings, a push stream without messages. -/
def Call.okAnswer : (c : Call) → c.Resp
  | .containerList _ => .ok []
  | .containerInspect id => .ok ⟨id, false⟩
  | .containerStop _ => .ok ()
  | .containerRemove _ => .ok ()
  | .containerLogs _ => .ok ()
  | .copyLogs _ _ _ => .ok ()
  | .networkInspect _ => .ok ()
  | .networkCreate _ _ => .ok ()
  | .networkList _ => .ok []
  | .networkRemove _ => .ok ()
  | .volumeInspect _ => .ok ()
  | .volumeCreate _ => .ok ()
  | .info => .ok ""
  | .configLoad => .ok ()
  | .parseNormalizedNamed image => .ok image
  | .parseRepositoryInfo ref => .ok ⟨ref, false⟩
  | .getAuthConfig _ => .ok ""
  | .jsonMarshal authConfig => .ok authConfig
  | .imagePush _ _ => .ok ⟨[], none⟩
  | .projectFromOptions o => .ok { name := o.name, workingDir := o.workingDir }
  | .ensureImagesExists _ => .ok ()
  | .ensureServices _ => .ok ()
  | .event _ => ()

/-- A call with the answer it got. -/
structure Exchange where
  call : Call
  answer : call.Resp

/-- A program of the package: calls, errgroup units, the shared variable, panics. -/
inductive Prog : Type → Type 1 where
  | pure {α : Type} (a : α) : Prog α
  | call {α : Type} (c : Call) (k : c.Resp → Prog α) : Prog α
  /-- `eg.Go(u)`: start `u` as a unit of the function's errgroup. -/
  | go {α : Type} (u : Prog (Option Error)) (k : Prog α) : Prog α
  /-- `eg.Wait()`: once every unit has finished, continue with the group's first error. -/
  | wait {α : Type} (k : Option Error → Prog α) : Prog α
  /-- A fresh shared variable holding `v`; its index is passed on. -/
  | newVar {α : Type} (v : Container) (k : Nat → Prog α) : Prog α
  | setVar {α : Type} (i : Nat) (v : Container) (k : Prog α) : Prog α
  | getVar {α : Type} (i : Nat) (k : Container → Prog α) : Prog α
  | panic {α : Type} (msg : String) : Prog α

namespace Prog

def bind {α β : Type} : Prog α → (α → Prog β) → Prog β
  | .pure a, f => f a
  | .call c k, f => .call c fun r => (k r).bind f
  | .go u k, f => .go u (k.bind f)
  | .wait k, f => .wait fun e => (k e).bind f
  | .newVar v k, f => .newVar v fun i => (k i).bind f
  | .setVar i v k, f => .setVar i v (k.bind f)
  | .getVar i k, f => .getVar i fun v => (k v).bind f
  | .panic m, _ => .panic m

instance : Monad Prog where
  pure := .pure
  bind := .bind

@[simp] theorem pure_bind' {α β : Type} (a : α) (f : α → Prog β) : (Prog.pure a >>= f) = f a := rfl

@[simp] theorem call_bind {α β : Type} (c : Call) (k : c.Resp → Prog α) (f : α → Prog β) :
    (Prog.call c k >>= f) = .call c fun r => k r >>= f := rfl

@[simp] theorem go_bind {α β : Type} (u : Prog (Option Error)) (k : Prog α) (f : α → Prog β) :
    (Prog.go u k >>= f) = .go u (k >>= f) := rfl

/-- Make the call `c` and return its answer. -/
def send (c : Call) : Prog c.Resp := .call c .pure

/-- Emit a progress event. -/
def emit (e : Event) : Prog Unit := .call (.event e) fun _ => .pure ()

/-- `eg.Go(u)`. -/
def launch (u : Prog (Option Error)) : Prog Unit := .go u (.pure ())

/-- `eg.Wait()`. -/
def waitGroup : Prog (Option Error) := .wait .pure

/-- A Go variable that closures share, declared with the value `v`. -/
def declare (v : Container) : Prog Nat := .newVar v .pure

/-- An assignment to the shared variable `i`. -/
def assign (i : Nat) (v : Container) : Prog Unit := .setVar i v (.pure ())

/-- A read of the shared variable `i`. -/
def read (i : Nat) : Prog Container := .getVar i .pure

/-- The result of a program that has returned. -/
def result? {α : Type} : Prog α → Option α
  | .pure a => some a
  | _ => none

/-- Whether a program has panicked. -/
def panicked {α : Type} : Prog α → Bool
  | .panic _ => true
  | _ => false

@[simp] theorem panicked_panic {α : Type} (m : String) : (Prog.panic m : Prog α).panicked = true := rfl
@[simp] theorem panicked_pure {α : Type} (a : α) : (Prog.pure a).panicked = false := rfl
@[simp] theorem panicked_call {α : Type} (c : Call) (k : c.Resp → Prog α) : (Prog.call c k).panicked = false := rfl
@[simp] theorem panicked_go {α : Type} (u : Prog (Option Error)) (k : Prog α) : (Prog.go u k).panicked = false := rfl
@[simp] theorem panicked_wait {α : Type} (k : Option Error → Prog α) : (Prog.wait k).panicked = false := rfl

/-! ## Sequential runs -/

/-- `p.Runs t a`: run alone, `p` can make the calls of `t`, each with the answer beside it, and
return `a`. Only calls and returns run here; the errgroup and shared variables belong to the
interleaving semantics of `LocalCompose.Engine.Group`. -/
inductive Runs {α : Type} : Prog α → List Exchange → α → Prop
  | pure (a : α) : Runs (.pure a) [] a
  | call {c : Call} {k : c.Resp → Prog α} (r : c.Resp) {t : List Exchange} {a : α} :
      Runs (k r) t a → Runs (.call c k) (⟨c, r⟩ :: t) a

@[simp] theorem pure_eq {α : Type} (a : α) : (Pure.pure a : Prog α) = Prog.pure a := rfl

@[simp] theorem runs_pure_iff {α : Type} (a b : α) (t : List Exchange) :
    (Prog.pure a).Runs t b ↔ t = [] ∧ b = a := by
  constructor
  · rintro ⟨⟩; exact ⟨rfl, rfl⟩
  · rintro ⟨rfl, rfl⟩; exact .pure _

@[simp] theorem runs_call_iff {α : Type} (c : Call) (k : c.Resp → Prog α) (t : List Exchange) (a : α) :
    (Prog.call c k).Runs t a ↔ ∃ r t', t = ⟨c, r⟩ :: t' ∧ (k r).Runs t' a := by
  constructor
  · rintro ⟨⟩; exact ⟨_, _, rfl, ‹_›⟩
  · rintro ⟨r, t', rfl, h⟩; exact .call r h

/-- A run of `p >>= f` is a run of `p` followed by a run of `f` on its result. -/
theorem runs_bind {α β : Type} (p : Prog α) (f : α → Prog β) (t : List Exchange) (b : β) :
    (p >>= f).Runs t b ↔ ∃ a t₁ t₂, t = t₁ ++ t₂ ∧ p.Runs t₁ a ∧ (f a).Runs t₂ b := by
  induction p generalizing t with
  | pure a =>
    simp only [pure_bind', runs_pure_iff]
    constructor
    · intro h; exact ⟨a, [], t, rfl, ⟨rfl, rfl⟩, h⟩
    · rintro ⟨_, _, _, rfl, ⟨rfl, rfl⟩, h⟩; exact h
  | call c k ih =>
    simp only [call_bind, runs_call_iff, ih]
    constructor
    · rintro ⟨r, t', rfl, a, t₁, t₂, rfl, h₁, h₂⟩
      exact ⟨a, ⟨c, r⟩ :: t₁, t₂, rfl, ⟨r, t₁, rfl, h₁⟩, h₂⟩
    · rintro ⟨a, _, t₂, rfl, ⟨r, t₁, rfl, h₁⟩, h₂⟩
      exact ⟨r, t₁ ++ t₂, rfl, a, t₁, t₂, rfl, h₁, h₂⟩
  | go u k _ => exact ⟨fun h => (nomatch h), fun ⟨_, _, _, _, h, _⟩ => (nomatch h)⟩
  | wait k _ => exact ⟨fun h => (nomatch h), fun ⟨_, _, _, _, h, _⟩ => (nomatch h)⟩
  | newVar v k _ => exact ⟨fun h => (nomatch h), fun ⟨_, _, _, _, h, _⟩ => (nomatch h)⟩
  | setVar i v k _ => exact ⟨fun h => (nomatch h), fun ⟨_, _, _, _, h, _⟩ => (nomatch h)⟩
  | getVar i k _ => exact ⟨fun h => (nomatch h), fun ⟨_, _, _, _, h, _⟩ => (nomatch h)⟩
  | panic m => exact ⟨fun h => (nomatch h), fun ⟨_, _, _, _, h, _⟩ => (nomatch h)⟩

/-- The run of `p` alone with the runtime answering `ans`; `none` at an errgroup or
shared-variable instruction or a panic. -/
def runWith {α : Type} (ans : Answers) : Prog α → Option (List Exchange × α)
  | .pure a => some ([], a)
  | .call c k => (runWith ans (k (ans c))).map fun (t, a) => (⟨c, ans c⟩ :: t, a)
  | _ => none

theorem runs_of_runWith {α : Type} {ans : Answers} :
    ∀ {p : Prog α} {t : List Exchange} {a : α}, p.runWith ans = some (t, a) → p.Runs t a
  | .pure a, t, b, h => by cases h; exact .pure a
  | .call c k, t, a, h => by
    simp only [runWith, Option.map_eq_some'] at h
    obtain ⟨⟨t', a'⟩, h', he⟩ := h
    cases he
    exact .call _ (runs_of_runWith h')

@[simp] theorem runs_send_iff (c : Call) (t : List Exchange) (r : c.Resp) :
    (send c).Runs t r ↔ t = [⟨c, r⟩] := by
  simp only [send, runs_call_iff, runs_pure_iff]
  constructor
  · rintro ⟨r, t', rfl, rfl, rfl⟩; rfl
  · rintro rfl; exact ⟨r, [], rfl, rfl, rfl⟩

@[simp] theorem runs_emit_iff (e : Event) (t : List Exchange) (u : Unit) :
    (emit e).Runs t u ↔ t = [⟨.event e, ()⟩] := by
  simp only [emit, runs_call_iff, runs_pure_iff, and_true]
  constructor
  · rintro ⟨⟨⟩, t', rfl, rfl⟩; rfl
  · rintro rfl; exact ⟨(), [], rfl, rfl⟩

/-- A sequential program: calls and returns only, so that it runs alone to its end whatever
the runtime answers. -/
inductive Seq {α : Type} : Prog α → Prop
  | pure (a : α) : Seq (.pure a)
  | call {c : Call} {k : c.Resp → Prog α} : (∀ r, Seq (k r)) → Seq (.call c k)

theorem Seq.bind {α β : Type} {p : Prog α} {f : α → Prog β} (hp : p.Seq) (hf : ∀ a, (f a).Seq) :
    (p >>= f).Seq := by
  induction hp with
  | pure a => exact hf a
  | call _ ih => exact .call ih

theorem seq_send (c : Call) : (send c).Seq := .call fun r => .pure r

theorem seq_emit (e : Event) : (emit e).Seq := .call fun _ => .pure ()

/-- A sequential program returns for every answer of the runtime. -/
theorem Seq.runWith_isSome {α : Type} {p : Prog α} (hp : p.Seq) (ans : Answers) :
    ∃ t a, p.runWith ans = some (t, a) := by
  induction hp with
  | pure a => exact ⟨[], a, rfl⟩
  | @call c k _ ih =>
    obtain ⟨t, a, h⟩ := ih (ans c)
    exact ⟨⟨c, ans c⟩ :: t, a, by simp [runWith, h]⟩

/-- A run of a call followed by `f`: the call with some answer, then a run of `f` on it. -/
theorem runs_bind_send {α : Type} (c : Call) (f : c.Resp → Prog α) (t : List Exchange) (a : α) :
    (send c >>= f).Runs t a ↔ ∃ r t', t = ⟨c, r⟩ :: t' ∧ (f r).Runs t' a := by
  rw [runs_bind]
  constructor
  · rintro ⟨r, _, t', rfl, h1, h2⟩
    rw [runs_send_iff] at h1; subst h1; exact ⟨r, t', rfl, h2⟩
  · rintro ⟨r, t', rfl, h⟩; exact ⟨r, [⟨c, r⟩], t', rfl, (runs_send_iff c _ r).2 rfl, h⟩

theorem runs_bind_emit {α : Type} (e : Event) (f : Unit → Prog α) (t : List Exchange) (a : α) :
    (emit e >>= f).Runs t a ↔ ∃ t', t = ⟨.event e, ()⟩ :: t' ∧ (f ()).Runs t' a := by
  rw [runs_bind]
  constructor
  · rintro ⟨⟨⟩, _, t', rfl, h1, h2⟩
    rw [runs_emit_iff] at h1; subst h1; exact ⟨t', rfl, h2⟩
  · rintro ⟨t', rfl, h⟩; exact ⟨(), [⟨.event e, ()⟩], t', rfl, (runs_emit_iff e _ ()).2 rfl, h⟩

end Prog

end Compose
