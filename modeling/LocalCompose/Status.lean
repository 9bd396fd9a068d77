/-
`Ps` and `List` on a list of containers: `groupContainerByLabel` groups the containers by a
label's value, `containersToServiceStatus` counts each service's containers and the running ones,
and `containersToStacks` summarises each project's container states with `combinedStatus`. The
two map-and-keys loops of the source (grouping, and counting states) are one loop `tally` with
one invariant. Results: each function fails exactly on a container without the label, and
otherwise returns one entry per distinct value, strictly ascending, with the counts the spec
names, whatever the order of the input; the groups partition the input.
-/
import LocalCompose.Engine.Prog
import LocalCompose.Go.Path
import Mathlib

namespace Compose

/-! ## The map-and-keys loop -/

section Tally

variable {α β : Type} (key : α → Option String) (zero : β) (add : β → α → β)

/-- The loop shared by `groupContainerByLabel` and `combinedStatus`: visit the items in order;
an item without key stops the loop and is returned; otherwise the entry of its key is extended
by `add`, from `zero` when the key is new, and a new key is appended to `keys`. -/
def tally : List α → (String → Option β) → List String → Except α ((String → Option β) × List String)
  | [], m, keys => .ok (m, keys)
  | x :: xs, m, keys =>
    match key x with
    | none => .error x
    | some k =>
      match m k with
      | none => tally xs (Function.update m k (some (add zero x))) (keys ++ [k])
      | some v => tally xs (Function.update m k (some (add v x))) keys

/-- What the loop knows after visiting `done`: the keys met, each once in order of first sight,
and for each the fold of `add` over its items. -/
structure TallyInv (done : List α) (m : String → Option β) (keys : List String) : Prop where
  nodup : keys.Nodup
  mem : ∀ k, k ∈ keys ↔ ∃ x ∈ done, key x = some k
  get : ∀ k, m k = if k ∈ keys then some ((done.filter (key · = some k)).foldl add zero) else none

theorem exists_key_append_single (done : List α) (x : α) (j : String) :
    (∃ y ∈ done ++ [x], key y = some j) ↔ (∃ y ∈ done, key y = some j) ∨ key x = some j := by
  simp only [List.mem_append, List.mem_singleton, or_and_right, exists_or, exists_eq_left]

theorem tallyInv_nil : TallyInv key zero add [] (fun _ => none) [] :=
  ⟨List.nodup_nil, by simp, by simp⟩

theorem filter_append_single {x : α} {k j : String} (hx : key x = some k) (done : List α) :
    (done ++ [x]).filter (key · = some j) = done.filter (key · = some j) ++ if k = j then [x] else [] := by
  by_cases h : k = j <;> simp [List.filter_append, hx, h]

/-- Filters by key over distinct keys that include every item's key partition the items. -/
theorem flatMap_filter_perm : ∀ {ks : List String} {xs : List α}, ks.Nodup → (∀ x ∈ xs, ∃ k ∈ ks, key x = some k) →
    (ks.flatMap fun k => xs.filter (key · = some k)).Perm xs
  | [], [], _, _ => by simp
  | [], x :: _, _, hxs => by obtain ⟨k, hk, -⟩ := hxs x (List.mem_cons_self _ _); cases hk
  | k :: ks, xs, hn, hxs => by
    rw [List.nodup_cons] at hn
    have hrest : (ks.flatMap fun j => xs.filter (key · = some j)) =
        ks.flatMap fun j => (xs.filter fun x => !decide (key x = some k)).filter (key · = some j) :=
      List.flatMap_congr fun j hj => by
        have hjk : j ≠ k := fun h => hn.1 (h ▸ hj)
        rw [List.filter_filter]
        exact List.filter_congr fun x _ => by by_cases h : key x = some j <;> simp [h, hjk]
    rw [List.flatMap_cons, hrest]
    refine ((List.Perm.refl _).append (flatMap_filter_perm hn.2 fun x hx => ?_)).trans (List.filter_append_perm _ xs)
    obtain ⟨hx, hxk⟩ := List.mem_filter.1 hx
    obtain ⟨j, hj, hkj⟩ := hxs x hx
    exact ⟨j, (List.mem_cons.1 hj).resolve_left fun h => by simp [hkj, h] at hxk, hkj⟩

/-- Visiting an item whose key is new. -/
theorem tallyInv_new {done : List α} {m : String → Option β} {keys : List String} {x : α} {k : String}
    (hi : TallyInv key zero add done m keys) (hx : key x = some k) (hm : m k = none) :
    TallyInv key zero add (done ++ [x]) (Function.update m k (some (add zero x))) (keys ++ [k]) := by
  have hk : k ∉ keys := fun h => by simp [hi.get k, h] at hm
  have hnone : done.filter (key · = some k) = [] := List.filter_eq_nil_iff.2 fun y hy hyk =>
    hk ((hi.mem k).2 ⟨y, hy, by simpa using hyk⟩)
  refine ⟨hi.nodup.append (List.nodup_singleton k) (by simpa using hk), fun j => ?_, fun j => ?_⟩
  · rw [exists_key_append_single, List.mem_append, List.mem_singleton, hi.mem, hx, Option.some_inj, eq_comm]
  · rw [filter_append_single key hx]
    by_cases hj : j = k
    · subst hj; simp [hnone]
    · simp [hi.get j, Ne.symm hj, hj]

/-- Visiting an item whose key was met before. -/
theorem tallyInv_old {done : List α} {m : String → Option β} {keys : List String} {x : α} {k : String}
    {v : β} (hi : TallyInv key zero add done m keys) (hx : key x = some k) (hm : m k = some v) :
    TallyInv key zero add (done ++ [x]) (Function.update m k (some (add v x))) keys := by
  have hk : k ∈ keys := by by_contra h; simp [hi.get k, h] at hm
  have hv : (done.filter (key · = some k)).foldl add zero = v := by simpa [hi.get k, hk] using hm
  refine ⟨hi.nodup, fun j => ?_, fun j => ?_⟩
  · rw [exists_key_append_single, hi.mem, hx, Option.some_inj]
    exact ⟨.inl, fun h => h.elim id fun hkj => hkj ▸ (hi.mem k).1 hk⟩
  · rw [filter_append_single key hx]
    by_cases hj : j = k
    · subst hj; simp [hk, hv]
    · simp [hi.get j, Ne.symm hj, hj]

/-- When every item has a key, the loop returns, with the invariant over all the items. -/
theorem tally_ok : ∀ (xs done : List α) (m : String → Option β) (keys : List String),
    TallyInv key zero add done m keys → (∀ x ∈ xs, key x ≠ none) →
    ∃ m' keys', tally key zero add xs m keys = .ok (m', keys') ∧ TallyInv key zero add (done ++ xs) m' keys'
  | [], done, m, keys, hi, _ => ⟨m, keys, rfl, by simpa using hi⟩
  | x :: xs, done, m, keys, hi, hall => by
    obtain ⟨k, hx⟩ := Option.ne_none_iff_exists'.1 (hall x (List.mem_cons_self x xs))
    have hrest : ∀ y ∈ xs, key y ≠ none := fun y hy => hall y (List.mem_cons_of_mem x hy)
    cases hm : m k with
    | none =>
      obtain ⟨m', keys', h, hi'⟩ := tally_ok xs _ _ _ (tallyInv_new key zero add hi hx hm) hrest
      exact ⟨m', keys', by simp [tally, hx, hm, h], by simpa using hi'⟩
    | some v =>
      obtain ⟨m', keys', h, hi'⟩ := tally_ok xs _ _ _ (tallyInv_old key zero add hi hx hm) hrest
      exact ⟨m', keys', by simp [tally, hx, hm, h], by simpa using hi'⟩

/-- The loop fails exactly when some item has no key. -/
theorem tally_error_iff : ∀ (xs : List α) (m : String → Option β) (keys : List String),
    (∃ x, tally key zero add xs m keys = .error x) ↔ ∃ x ∈ xs, key x = none
  | [], m, keys => by simp [tally]
  | x :: xs, m, keys => by
    cases hx : key x with
    | none => simp [tally, hx]
    | some k =>
      cases hm : m k <;> simp [tally, hx, hm, tally_error_iff xs]

end Tally

theorem foldl_append_single {α : Type} (acc xs : List α) : xs.foldl (fun l c => l ++ [c]) acc = acc ++ xs := by
  induction xs generalizing acc with
  | nil => simp
  | cons x xs ih => simp [ih]

theorem foldl_succ {α : Type} (n : Nat) (xs : List α) : xs.foldl (fun nb _ => nb + 1) n = n + xs.length := by
  induction xs generalizing n with
  | nil => simp
  | cons x xs ih => simp [ih]; omega

/-! ## Sorted keys -/

/-- `sort.Strings` returns the same list for every permutation of its input. -/
theorem sortStrings_eq_of_perm {l₁ l₂ : List String} (h : l₁.Perm l₂) : sortStrings l₁ = sortStrings l₂ :=
  List.eq_of_perm_of_sorted (((sortStrings_perm l₁).trans h).trans (sortStrings_perm l₂).symm)
    (sortStrings_sorted l₁) (sortStrings_sorted l₂)

/-- Sorting keys met once each gives the sorted distinct values. -/
theorem sortStrings_keys {keys vals : List String} (hn : keys.Nodup) (hmem : ∀ k, k ∈ keys ↔ k ∈ vals) :
    sortStrings keys = sortStrings vals.dedup :=
  sortStrings_eq_of_perm ((List.perm_ext_iff_of_nodup hn (List.nodup_dedup vals)).2 fun k => by
    rw [hmem, List.mem_dedup])

/-! ## `groupContainerByLabel` -/

/-- `c.Labels[labelName]`, with its presence. -/
def labelOf (labelName : String) (c : Container) : Option String := c.labels.lookup labelName

/-- The values of a label on the containers that carry it, in order. -/
def labelValues (labelName : String) (cs : List Container) : List String := cs.filterMap (labelOf labelName)

theorem mem_labelValues {labelName v : String} {cs : List Container} :
    v ∈ labelValues labelName cs ↔ ∃ c ∈ cs, labelOf labelName c = some v := by
  simp [labelValues]

theorem labelValues_perm {labelName : String} {cs cs' : List Container} (h : cs'.Perm cs) :
    (labelValues labelName cs').Perm (labelValues labelName cs) := h.filterMap _

theorem count_labelValues (labelName v : String) (cs : List Container) :
    (labelValues labelName cs).count v = cs.countP (labelOf labelName · = some v) := by
  induction cs with
  | nil => rfl
  | cons c cs ih =>
    simp only [labelValues, List.filterMap_cons, List.countP_cons] at ih ⊢
    cases h : labelOf labelName c with
    | none => simpa using ih
    | some w => by_cases hw : w = v <;> simp [List.count_cons, ih, hw]

theorem length_labelValues {labelName : String} {cs : List Container} (h : ∀ c ∈ cs, labelOf labelName c ≠ none) :
    (labelValues labelName cs).length = cs.length := by
  induction cs with
  | nil => rfl
  | cons c cs ih =>
    obtain ⟨v, hv⟩ := Option.ne_none_iff_exists'.1 (h c (List.mem_cons_self c cs))
    simp [labelValues, List.filterMap_cons, hv] at ih ⊢
    exact ih fun d hd => h d (List.mem_cons_of_mem c hd)

/-- `groupContainerByLabel`: the containers by their value of `labelName`, and the sorted values;
an error names the first container without the label. -/
def groupContainerByLabel (containers : List Container) (labelName : String) :
    Except Error ((String → Option (List Container)) × List String) :=
  match tally (labelOf labelName) [] (fun l c => l ++ [c]) containers (fun _ => none) [] with
  | .error c => .error (.new ("No label " ++ quote labelName ++ " set on container " ++ quote c.id ++
      " of compose project"))
  | .ok (containersByLabel, keys) => .ok (containersByLabel, sortStrings keys)

theorem groupContainerByLabel_error_iff (containers : List Container) (labelName : String) :
    (∃ e, groupContainerByLabel containers labelName = .error e) ↔ ∃ c ∈ containers, labelOf labelName c = none := by
  rw [← tally_error_iff (labelOf labelName) [] (fun l c => l ++ [c]) containers (fun _ => none) []]
  unfold groupContainerByLabel
  split <;> simp_all

/-- On labelled containers, the keys are the distinct values, ascending, and each value's group
is the sublist of the containers with that value. -/
theorem groupContainerByLabel_ok {containers : List Container} {labelName : String}
    (h : ∀ c ∈ containers, labelOf labelName c ≠ none) :
    ∃ m, groupContainerByLabel containers labelName = .ok (m, sortStrings (labelValues labelName containers).dedup) ∧
      ∀ v, m v = if v ∈ labelValues labelName containers
        then some (containers.filter (labelOf labelName · = some v)) else none := by
  obtain ⟨m, keys, ht, hi⟩ := tally_ok (labelOf labelName) [] (fun l c => l ++ [c]) containers [] _ _
    (tallyInv_nil _ _ _) h
  have hmem : ∀ k, k ∈ keys ↔ k ∈ labelValues labelName containers := fun k => by
    simpa [mem_labelValues] using hi.mem k
  refine ⟨m, by simp [groupContainerByLabel, ht, sortStrings_keys hi.nodup hmem], fun v => ?_⟩
  simp [hi.get v, hmem, foldl_append_single]

/-! ## Reports by label -/

/-- The distinct values of a label on the containers, ascending: the keys `Ps` and `List` report. -/
def distinctLabels (labelName : String) (cs : List Container) : List String :=
  sortStrings (labelValues labelName cs).dedup

theorem distinctLabels_strict (labelName : String) (cs : List Container) :
    (distinctLabels labelName cs).Sorted (· < ·) := sortStrings_strict (List.nodup_dedup _)

theorem mem_distinctLabels {labelName v : String} {cs : List Container} :
    v ∈ distinctLabels labelName cs ↔ ∃ c ∈ cs, labelOf labelName c = some v := by
  rw [distinctLabels, (sortStrings_perm _).mem_iff, List.mem_dedup, mem_labelValues]

theorem distinctLabels_perm {labelName : String} {cs cs' : List Container} (h : cs'.Perm cs) :
    distinctLabels labelName cs' = distinctLabels labelName cs :=
  sortStrings_eq_of_perm (labelValues_perm h).dedup

/-- The containers of `cs` whose `labelName` is `v`, in order. -/
def groupOf (labelName v : String) (cs : List Container) : List Container := cs.filter (labelOf labelName · = some v)

theorem groupOf_perm {labelName v : String} {cs cs' : List Container} (h : cs'.Perm cs) :
    (groupOf labelName v cs').Perm (groupOf labelName v cs) := h.filter _

/-- `groupContainerByLabel` fails exactly when a container lacks the label. Otherwise its keys are
strictly ascending and are the label's distinct values, the map holds those keys and no other,
each with the containers of that value in input order, and the groups, key after key, are a
permutation of the input. -/
theorem groupContainerByLabel_correct (containers : List Container) (labelName : String) :
    ((∃ e, groupContainerByLabel containers labelName = .error e) ↔ ∃ c ∈ containers, labelOf labelName c = none) ∧
    ∀ m keys, groupContainerByLabel containers labelName = .ok (m, keys) →
      keys.Sorted (· < ·) ∧ (∀ v, v ∈ keys ↔ ∃ c ∈ containers, labelOf labelName c = some v) ∧
      (∀ v, m v = if v ∈ keys then some (containers.filter (labelOf labelName · = some v)) else none) ∧
      (keys.flatMap fun v => (m v).getD []).Perm containers := by
  refine ⟨groupContainerByLabel_error_iff containers labelName, fun m keys h => ?_⟩
  have hall : ∀ c ∈ containers, labelOf labelName c ≠ none := fun c hc hn => by
    obtain ⟨e, he⟩ := (groupContainerByLabel_error_iff containers labelName).2 ⟨c, hc, hn⟩
    rw [he] at h; cases h
  obtain ⟨m', hg, hm⟩ := groupContainerByLabel_ok hall
  rw [hg] at h
  obtain ⟨rfl, rfl⟩ := Prod.mk.inj (Except.ok.inj h)
  have hkeys : ∀ v, v ∈ sortStrings (labelValues labelName containers).dedup ↔ v ∈ labelValues labelName containers :=
    fun v => (sortStrings_perm _).mem_iff.trans List.mem_dedup
  refine ⟨distinctLabels_strict _ _, fun v => mem_distinctLabels, fun v => by simp only [hm v, hkeys], ?_⟩
  rw [List.flatMap_congr fun v hv => by rw [hm v, if_pos ((hkeys v).1 hv), Option.getD_some]]
  refine flatMap_filter_perm (labelOf labelName) ((sortStrings_perm _).nodup_iff.2 (List.nodup_dedup _)) fun c hc => ?_
  obtain ⟨v, hv⟩ := Option.ne_none_iff_exists'.1 (hall c hc)
  exact ⟨v, mem_distinctLabels.2 ⟨c, hc, hv⟩, hv⟩

/-- The shape shared by `containersToServiceStatus` and `containersToStacks`: group the
containers by `labelName` and report each value, in the order of the sorted keys, from its
group. -/
def reportByLabel {β : Type} (labelName : String) (report : String → List Container → β)
    (containers : List Container) : Except Error (List β) :=
  match groupContainerByLabel containers labelName with
  | .error e => .error e
  | .ok (containersByLabel, keys) => .ok (keys.map fun key => report key ((containersByLabel key).getD []))

section Report

variable {β : Type} (labelName : String) (report : String → List Container → β)

theorem reportByLabel_error_iff (cs : List Container) :
    (∃ e, reportByLabel labelName report cs = .error e) ↔ ∃ c ∈ cs, labelOf labelName c = none := by
  rw [← groupContainerByLabel_error_iff cs labelName]
  unfold reportByLabel
  split <;> simp_all

theorem reportByLabel_ok {cs : List Container} (h : ∀ c ∈ cs, labelOf labelName c ≠ none) :
    reportByLabel labelName report cs =
      .ok ((distinctLabels labelName cs).map fun v => report v (groupOf labelName v cs)) := by
  obtain ⟨m, hg, hm⟩ := groupContainerByLabel_ok h
  simp only [reportByLabel, hg, distinctLabels, Except.ok.injEq, List.map_inj_left]
  intro v hv
  have hv' : v ∈ labelValues labelName cs := List.mem_dedup.1 ((sortStrings_perm _).subset hv)
  simp [hm v, hv', groupOf]

theorem labelled_of_reportByLabel_ok {cs : List Container} {r : List β}
    (hr : reportByLabel labelName report cs = .ok r) : ∀ c ∈ cs, labelOf labelName c ≠ none := by
  intro c hc hn
  obtain ⟨e, he⟩ := (reportByLabel_error_iff labelName report cs).2 ⟨c, hc, hn⟩
  rw [he] at hr; cases hr

/-- A report that went through has one entry per distinct value, ascending, each from its
value's group. -/
theorem reportByLabel_eq_ok {cs : List Container} {r : List β} (hr : reportByLabel labelName report cs = .ok r) :
    r = (distinctLabels labelName cs).map fun v => report v (groupOf labelName v cs) := by
  rw [reportByLabel_ok labelName report (labelled_of_reportByLabel_ok labelName report hr)] at hr
  exact (Except.ok.inj hr).symm

/-- The names of the entries, for a report that names its entry after the value. -/
theorem names_reportByLabel (name : β → String) (hname : ∀ v g, name (report v g) = v) (cs : List Container) :
    ((distinctLabels labelName cs).map fun v => report v (groupOf labelName v cs)).map name =
      distinctLabels labelName cs := by
  simp [Function.comp_def, hname]

/-- On labelled containers, a report that depends on its group only up to order gives the same
result for every order of the input. -/
theorem reportByLabel_perm {cs cs' : List Container} (hall : ∀ c ∈ cs, labelOf labelName c ≠ none)
    (h : cs'.Perm cs) (hreport : ∀ v g g', g'.Perm g → report v g' = report v g) :
    reportByLabel labelName report cs' = reportByLabel labelName report cs := by
  rw [reportByLabel_ok labelName report hall,
    reportByLabel_ok labelName report fun c hc => hall c (h.subset hc), distinctLabels_perm h]
  exact congrArg Except.ok (List.map_congr_left fun v _ => hreport v _ _ (groupOf_perm h))

end Report

/-! ## `Ps` -/

/-- A service's line of `Ps` (`compose.ServiceStatus`). -/
structure ServiceStatus where
  id : String
  name : String
  desired : Nat
  replicas : Nat
  deriving DecidableEq, Repr

/-- The body of `containersToServiceStatus`'s loop: a service's line from its containers. -/
def serviceStatus (service : String) (containers : List Container) : ServiceStatus :=
  let runningContainers := containers.filter (·.state = "running")
  { id := service, name := service, desired := containers.length, replicas := runningContainers.length }

@[simp] theorem serviceStatus_id (v : String) (g : List Container) : (serviceStatus v g).id = v := rfl
@[simp] theorem serviceStatus_name (v : String) (g : List Container) : (serviceStatus v g).name = v := rfl
@[simp] theorem serviceStatus_desired (v : String) (g : List Container) :
    (serviceStatus v g).desired = g.length := rfl
@[simp] theorem serviceStatus_replicas (v : String) (g : List Container) :
    (serviceStatus v g).replicas = (g.filter (·.state = "running")).length := rfl

section Ps

variable (K : LabelKeys)

/-- `containersToServiceStatus`. -/
def containersToServiceStatus (containers : List Container) : Except Error (List ServiceStatus) :=
  reportByLabel K.serviceLabel serviceStatus containers

/-- `Ps`: the project's containers, grouped by service. -/
def ps (projectName : String) : Prog (Except Error (List ServiceStatus)) := do
  match ← Prog.send (.containerList [projectFilter K projectName]) with
  | .error err => return .error err
  | .ok list => return containersToServiceStatus K list

theorem length_groupOf (labelName v : String) (cs : List Container) :
    (groupOf labelName v cs).length = cs.countP (labelOf labelName · = some v) :=
  (List.countP_eq_length_filter _ _).symm

theorem length_running_groupOf (labelName v : String) (cs : List Container) :
    ((groupOf labelName v cs).filter (·.state = "running")).length =
      cs.countP fun c => labelOf labelName c = some v ∧ c.state = "running" := by
  rw [groupOf, List.filter_filter, List.countP_eq_length_filter]
  congr 1
  exact List.filter_congr fun c _ => by simp [Bool.and_comm]

/-- `Ps`'s grouping: it fails exactly on a container without service label; otherwise it returns
one status per distinct service label, strictly ascending by name, with the number of the
service's containers and of those running, the desired counts adding up to the input's length,
and the same result for every order of the input. -/
theorem containersToServiceStatus_correct (cs : List Container) :
    ((∃ e, containersToServiceStatus K cs = .error e) ↔ ∃ c ∈ cs, labelOf K.serviceLabel c = none) ∧
    ∀ r, containersToServiceStatus K cs = .ok r →
      (r.map (·.name)).Sorted (· < ·) ∧
      (∀ v, v ∈ r.map (·.name) ↔ ∃ c ∈ cs, labelOf K.serviceLabel c = some v) ∧
      (∀ st ∈ r, st.id = st.name ∧
        st.desired = cs.countP (labelOf K.serviceLabel · = some st.name) ∧
        st.replicas = cs.countP (fun c => labelOf K.serviceLabel c = some st.name ∧ c.state = "running") ∧
        st.replicas ≤ st.desired) ∧
      (r.map (·.desired)).sum = cs.length ∧
      ∀ cs', cs'.Perm cs → containersToServiceStatus K cs' = .ok r := by
  refine ⟨reportByLabel_error_iff _ _ cs, fun r hr => ?_⟩
  have hall := labelled_of_reportByLabel_ok _ _ hr
  have hperm : ∀ cs', cs'.Perm cs → containersToServiceStatus K cs' = .ok r := fun cs' hp =>
    (reportByLabel_perm _ _ hall hp fun v g g' h => by
      simp only [serviceStatus, h.length_eq, (h.filter _).length_eq]).trans hr
  obtain rfl := reportByLabel_eq_ok _ _ hr
  have hnames := names_reportByLabel K.serviceLabel serviceStatus (·.name) (fun _ _ => rfl) cs
  refine ⟨by rw [hnames]; exact distinctLabels_strict _ _, fun v => by rw [hnames, mem_distinctLabels], ?_, ?_, hperm⟩
  · intro st hst
    obtain ⟨v, -, rfl⟩ := List.mem_map.1 hst
    refine ⟨rfl, length_groupOf _ _ _, length_running_groupOf _ _ _, ?_⟩
    rw [serviceStatus_desired, serviceStatus_replicas, length_groupOf, length_running_groupOf]
    exact List.countP_mono_left fun c _ h => by simp_all
  · calc (((distinctLabels K.serviceLabel cs).map fun v => serviceStatus v (groupOf K.serviceLabel v cs)).map
          (·.desired)).sum
        = ((labelValues K.serviceLabel cs).dedup.map fun v => (labelValues K.serviceLabel cs).count v).sum := by
          rw [List.map_map]
          refine ((sortStrings_perm _).map _).sum_eq.trans (congrArg List.sum (List.map_congr_left fun v _ => ?_))
          simp [length_groupOf, count_labelValues]
      _ = cs.length := by rw [List.sum_map_count_dedup_eq_length, length_labelValues hall]

end Ps

/-! ## `List` -/

/-- A project's line of `List` (`compose.Stack`). -/
structure Stack where
  id : String
  name : String
  status : String
  deriving DecidableEq, Repr

/-- `containerToState`. -/
def containerToState (containers : List Container) : List String := containers.map (·.state)

/-- The second loop of `combinedStatus`: `status(count)` for each key, after a `", "` once the
result is not empty. -/
def combinedStatusJoin (nbByStatus : String → Option Nat) : List String → String → String
  | [], result => result
  | status :: keys, result =>
    let nb := (nbByStatus status).getD 0
    let result := if result ≠ "" then result ++ ", " else result
    combinedStatusJoin nbByStatus keys (result ++ (status ++ "(" ++ toString nb ++ ")"))

/-- `combinedStatus`: count the statuses (the counting loop is `tally`, which never stops here:
every status is its own key), then print the sorted statuses with their counts. -/
def combinedStatus (statuses : List String) : String :=
  match tally some 0 (fun nb _ => nb + 1) statuses (fun _ => none) [] with
  | .ok (nbByStatus, keys) => combinedStatusJoin nbByStatus (sortStrings keys) ""
  | .error _ => ""

/-- The summary of a list of states by the spec: each distinct state, ascending, with its count,
joined by `", "`. -/
def combinedStatusSpec (statuses : List String) : String :=
  String.intercalate ", " ((sortStrings statuses.dedup).map fun st => st ++ "(" ++ toString (statuses.count st) ++ ")")

theorem combinedStatusJoin_go (nb : String → Option Nat) (f : String → Nat) :
    ∀ (keys : List String), (∀ k ∈ keys, nb k = some (f k)) → ∀ result, result ≠ "" →
      combinedStatusJoin nb keys result =
        String.intercalate.go result ", " (keys.map fun st => st ++ "(" ++ toString (f st) ++ ")")
  | [], _, _, _ => rfl
  | k :: keys, hnb, result, h => by
    simp only [combinedStatusJoin, if_pos h, hnb k (List.mem_cons_self k keys), Option.getD_some, List.map_cons]
    rw [combinedStatusJoin_go nb f keys (fun j hj => hnb j (List.mem_cons_of_mem k hj)) _
      (append_ne_empty (append_ne_empty (by decide)))]
    rfl

theorem combinedStatusJoin_eq (nb : String → Option Nat) (f : String → Nat) (keys : List String)
    (hnb : ∀ k ∈ keys, nb k = some (f k)) : combinedStatusJoin nb keys "" =
      String.intercalate ", " (keys.map fun st => st ++ "(" ++ toString (f st) ++ ")") := by
  cases keys with
  | nil => rfl
  | cons k keys =>
    simp only [combinedStatusJoin, ne_eq, not_true_eq_false, if_false, hnb k (List.mem_cons_self k keys),
      Option.getD_some, String.empty_append]
    exact combinedStatusJoin_go nb f keys (fun j hj => hnb j (List.mem_cons_of_mem k hj)) _
      (append_ne_empty (by decide))

/-- `combinedStatus` prints each distinct state, ascending, with its count, joined by `", "`. -/
theorem combinedStatus_eq (statuses : List String) : combinedStatus statuses = combinedStatusSpec statuses := by
  obtain ⟨nb, keys, ht, hi⟩ := tally_ok some 0 (fun nb _ => nb + 1) statuses [] _ _ (tallyInv_nil _ _ _)
    (fun _ _ => Option.some_ne_none _)
  have hmem : ∀ k, k ∈ keys ↔ k ∈ statuses := fun k => by simpa using hi.mem k
  rw [combinedStatus, ht]
  dsimp only
  rw [sortStrings_keys hi.nodup hmem, combinedStatusSpec]
  refine combinedStatusJoin_eq nb _ _ fun k hk => ?_
  have hk' : k ∈ statuses := List.mem_dedup.1 ((sortStrings_perm _).subset hk)
  simp only [hi.get k, (hmem k).2 hk', if_true, foldl_succ, zero_add, List.count, List.countP_eq_length_filter,
    List.nil_append, Option.some_inj]
  exact congrArg List.length (List.filter_congr fun x _ => by rw [beq_eq_decide, decide_eq_decide, eq_comm])

example : combinedStatus ["running", "running", "exited", "running"] = "exited(1), running(3)" := by decide

theorem combinedStatusSpec_perm {l l' : List String} (h : l'.Perm l) : combinedStatusSpec l' = combinedStatusSpec l := by
  unfold combinedStatusSpec
  rw [sortStrings_eq_of_perm h.dedup]
  simp only [h.count_eq]

/-- The body of `containersToStacks`'s loop: a project's line from its containers. -/
def stackOf (project : String) (containers : List Container) : Stack :=
  { id := project, name := project, status := combinedStatus (containerToState containers) }

@[simp] theorem stackOf_id (v : String) (g : List Container) : (stackOf v g).id = v := rfl
@[simp] theorem stackOf_name (v : String) (g : List Container) : (stackOf v g).name = v := rfl

section Stacks

variable (K : LabelKeys)

/-- `containersToStacks`. -/
def containersToStacks (containers : List Container) : Except Error (List Stack) :=
  reportByLabel K.projectLabel stackOf containers

/-- `List`: every container with a project label, grouped by project; the `projectName` argument
of the source is not read. -/
def list : Prog (Except Error (List Stack)) := do
  match ← Prog.send (.containerList [hasProjectLabelFilter K]) with
  | .error err => return .error err
  | .ok list => return containersToStacks K list

/-- `List`'s grouping: it fails exactly on a container without project label; otherwise it
returns one stack per distinct project label, strictly ascending, whose status lists each
distinct state of the project's containers, ascending, with its count, joined by `", "`; the
same result for every order of the input. -/
theorem containersToStacks_correct (cs : List Container) :
    ((∃ e, containersToStacks K cs = .error e) ↔ ∃ c ∈ cs, labelOf K.projectLabel c = none) ∧
    ∀ r, containersToStacks K cs = .ok r →
      (r.map (·.name)).Sorted (· < ·) ∧
      (∀ v, v ∈ r.map (·.name) ↔ ∃ c ∈ cs, labelOf K.projectLabel c = some v) ∧
      (∀ st ∈ r, st.id = st.name ∧
        st.status = combinedStatusSpec ((cs.filter (labelOf K.projectLabel · = some st.name)).map (·.state))) ∧
      ∀ cs', cs'.Perm cs → containersToStacks K cs' = .ok r := by
  refine ⟨reportByLabel_error_iff _ _ cs, fun r hr => ?_⟩
  have hall := labelled_of_reportByLabel_ok _ _ hr
  have hperm : ∀ cs', cs'.Perm cs → containersToStacks K cs' = .ok r := fun cs' hp =>
    (reportByLabel_perm _ _ hall hp fun v g g' h => by
      simp only [stackOf, combinedStatus_eq, containerToState, combinedStatusSpec_perm (h.map _)]).trans hr
  obtain rfl := reportByLabel_eq_ok _ _ hr
  have hnames := names_reportByLabel K.projectLabel stackOf (·.name) (fun _ _ => rfl) cs
  refine ⟨by rw [hnames]; exact distinctLabels_strict _ _, fun v => by rw [hnames, mem_distinctLabels], ?_, hperm⟩
  intro st hst
  obtain ⟨v, -, rfl⟩ := List.mem_map.1 hst
  exact ⟨rfl, combinedStatus_eq _⟩

end Stacks

end Compose
