import MsgRpc.Discovery.Ipv4
import MsgRpc.Discovery.ZkServiceRegister

/-!
This module contains what the code of the registry does to its state when no exception leaves it.
-/

namespace MsgRpc

open StateProg

variable {Address : Type} [LinearOrder Address]

namespace ZkView

variable (fromString : Str → Option Address) (zk : ZkView)

def fetchOf (service : Str) : Option (Fetch Address) :=
  match zk.instances service with
  | none => none
  | some instanceStrings =>
    match stringsToInstances fromString instanceStrings with
    | .error _ => none
    | .ok instances => some ⟨service, instances, decide (service ∈ zk.present)⟩

def fetchesOf (services : List Str) : List (Fetch Address) :=
  services.filterMap (zk.fetchOf fromString)

def postsOf (services : List Str) : List (Fetch Address) :=
  (zk.fetchesOf fromString services).filter fun fetch => zk.scheduled fetch.service

variable {fromString : Str → Option Address} {zk : ZkView}

theorem fetchOf_eq_some {service : Str} {fetch : Fetch Address}
    (h : zk.fetchOf fromString service = some fetch)
    : fetch.service = service ∧ fetch.present = decide (service ∈ zk.present) := by
  unfold fetchOf at h
  split at h
  . simp at h
  . split at h
    . simp at h
    . simp only [Option.some.injEq] at h
      rw [← h]
      exact ⟨rfl, rfl⟩

theorem mem_fetchesOf {services : List Str} {fetch : Fetch Address}
    : fetch ∈ zk.fetchesOf fromString services
      ↔ fetch.service ∈ services ∧ zk.fetchOf fromString fetch.service = some fetch := by
  unfold fetchesOf
  rw [List.mem_filterMap]
  constructor
  . rintro ⟨service, hmem, hfetch⟩
    have hservice := (fetchOf_eq_some hfetch).1
    rw [hservice]
    exact ⟨hmem, hfetch⟩
  . rintro ⟨hmem, hfetch⟩
    exact ⟨fetch.service, hmem, hfetch⟩

theorem mem_postsOf {services : List Str} {fetch : Fetch Address}
    : fetch ∈ zk.postsOf fromString services
      ↔ fetch.service ∈ services ∧ zk.fetchOf fromString fetch.service = some fetch
        ∧ zk.scheduled fetch.service = true := by
  unfold postsOf
  rw [List.mem_filter, mem_fetchesOf, and_assoc]

end ZkView

namespace ZkServiceRegister

variable {fromString : Str → Option Address} {zk : ZkView} {s : ZkServiceRegister Address}

-- the watch path: what is fetched is posted as it is
def watch (fromString : Str → Option Address) (zk : ZkView) (s : ZkServiceRegister Address)
    (services : List Str) : ZkServiceRegister Address :=
  { s with
    fetches := s.fetches ++ zk.fetchesOf fromString services
    mainQueue := s.mainQueue ++ zk.postsOf fromString services
  }

-- the initial path: what is fetched is filtered and cached
def announce (filters : List (ServiceFilter Address)) (s : ZkServiceRegister Address)
    (fetch : Fetch Address) : ZkServiceRegister Address :=
  let iv := applyFilters filters fetch.service fetch.instances
  ((s.recordFetch fetch).cacheEntry fetch iv).note (s.listenersMap fetch.service) fetch.service iv

theorem wp_fetchServiceInstancesFromZk (service : Str)
    : wp (fetchServiceInstancesFromZk fromString zk service)
        (fun r s' => r = zk.fetchOf fromString service
          ∧ s' = { s with fetches := s.fetches ++ r.toList })
        (fun _ _ => True) s := by
  unfold fetchServiceInstancesFromZk ZkView.fetchOf
  cases zk.instances service with
  | none => simp
  | some instanceStrings =>
    cases hread : stringsToInstances fromString instanceStrings with
    | error e => simp [hread]
    | ok instances =>
      simp only [hread, wp_bind, wp_modify, wp_pure]
      exact ⟨trivial, rfl⟩

theorem wp_fetchAndUpdateAll (services : List Str)
    : wp (fetchAndUpdateAll fromString zk services) (fun _ s' => s' = s.watch fromString zk services)
        (fun _ _ => True) s := by
  induction services generalizing s with
  | nil => simp [fetchAndUpdateAll, watch, ZkView.fetchesOf, ZkView.postsOf]
  | cons service services ih =>
    unfold fetchAndUpdateAll fetchAndUpdateInstances
    simp only [wp_bind]
    apply wp_mono (wp_fetchServiceInstancesFromZk service)
    . rintro r s1 ⟨hr, hs1⟩
      have hrest : ∀ s2, s2 = s.watch fromString zk [service]
          → wp (fetchAndUpdateAll fromString zk services)
            (fun _ s' => s' = s.watch fromString zk (service :: services)) (fun _ _ => True) s2 := by
        intro s2 hs2
        apply wp_mono ih
        . intro _ s' hs'
          rw [hs', hs2]
          simp only [watch, ZkView.fetchesOf, ZkView.postsOf, List.filterMap_cons,
            List.filterMap_nil]
          split <;> simp [List.filter_cons]
          split <;> simp
        . intro _ _ _
          trivial
      cases r with
      | some fetch =>
        have hservice := (ZkView.fetchOf_eq_some hr.symm).1
        cases hscheduled : zk.scheduled service with
        | true =>
          simp only [↓reduceIte, wp_modify]
          apply hrest
          rw [hs1]
          simp [watch, post, ZkView.fetchesOf, ZkView.postsOf, ← hr, hservice, hscheduled]
        | false =>
          simp only [Bool.false_eq_true, ↓reduceIte, wp_pure]
          apply hrest
          rw [hs1]
          simp [watch, ZkView.fetchesOf, ZkView.postsOf, ← hr, hservice, hscheduled]
      | none =>
        rw [wp_pure]
        apply hrest
        rw [hs1]
        simp [watch, ZkView.fetchesOf, ZkView.postsOf, ← hr]
    . intro _ _ _
      trivial

-- the services a run of `service_child_watcher_fn` fetches
def changed (s : ZkServiceRegister Address) (zk : ZkView) : List Str :=
  changedServices (zk.services.insertionSort (· ≤ ·)) s.oldServices

def remember (s : ZkServiceRegister Address) (zk : ZkView) : ZkServiceRegister Address :=
  { s with oldServices := zk.services.insertionSort (· ≤ ·) }

theorem wp_serviceChildWatcherFn
    : wp (serviceChildWatcherFn fromString zk true)
        (fun _ s' => s' = (s.watch fromString zk (s.changed zk)).remember zk) (fun _ _ => True)
        s := by
  unfold serviceChildWatcherFn
  simp only [↓reduceIte, wp_bind, wp_get]
  apply wp_mono (wp_fetchAndUpdateAll _)
  . intro _ s1 hs1
    rw [wp_modify, hs1]
    rfl
  . intro _ _ _
    trivial

theorem wp_fetchAndUpdateInstances (service : Str)
    : wp (fetchAndUpdateInstances fromString zk service)
        (fun _ s' => s' = s.watch fromString zk [service]) (fun _ _ => True) s := by
  have hall : wp (fetchAndUpdateAll fromString zk [service]) _ _ s := wp_fetchAndUpdateAll [service]
  unfold fetchAndUpdateAll fetchAndUpdateAll at hall
  simpa using hall

theorem wp_instanceChildWatcherFn (serviceName : Str)
    : wp (instanceChildWatcherFn fromString zk true serviceName)
        (fun _ s' => s' = s.watch fromString zk [serviceName]) (fun _ _ => True) s := by
  unfold instanceChildWatcherFn
  simp only [↓reduceIte]
  split
  . trivial
  . exact wp_fetchAndUpdateInstances serviceName

theorem wp_fetchAndCacheAll (filters : List (ServiceFilter Address)) (services : List Str)
    : wp (fetchAndCacheAll fromString zk filters services)
        (fun _ s' => s' = (zk.fetchesOf fromString services).foldl (announce filters) s)
        (fun _ _ => True) s := by
  induction services generalizing s with
  | nil => simp [fetchAndCacheAll, ZkView.fetchesOf]
  | cons service services ih =>
    unfold fetchAndCacheAll
    simp only [wp_bind]
    apply wp_mono (wp_fetchServiceInstancesFromZk service)
    . rintro r s1 ⟨hr, hs1⟩
      simp only [ZkView.fetchesOf, List.filterMap_cons, ← hr]
      cases r with
      | some fetch =>
        have hservice := (ZkView.fetchOf_eq_some hr.symm).1
        have hs2 : ((s1.cacheEntry fetch (applyFilters filters service fetch.instances)).note
            (s1.listenersMap service) service (applyFilters filters service fetch.instances))
            = s.announce filters fetch := by
          rw [hs1, ← hservice]
          rfl
        simp only [wp_bind, wp_modify, doNotifyListeners]
        apply wp_mono ih
        . intro _ s' hs'
          rw [hs', List.foldl_cons, ← hs2]
          rfl
        . intro _ _ _
          trivial
      | none =>
        apply wp_mono ih
        . intro _ s' hs'
          rw [hs', hs1]
          simp [ZkView.fetchesOf]
        . intro _ _ _
          trivial
    . intro _ _ _
      trivial

-- the main queue path: what was posted is cached
def update (s : ZkServiceRegister Address) (fetch : Fetch Address) (queue : List (Fetch Address))
    : ZkServiceRegister Address :=
  ({ s.cacheEntry fetch fetch.instances with mainQueue := queue }).note
    (s.listenersMap fetch.service) fetch.service fetch.instances

theorem wp_runTask
    : wp (runTask : ZkM Address Unit)
        (fun _ s' => s' = match s.mainQueue with
          | [] => s
          | fetch :: queue => s.update fetch queue)
        (fun _ _ => False) s := by
  unfold runTask
  simp only [wp_bind, wp_get]
  cases s.mainQueue with
  | nil => rw [wp_pure]
  | cons fetch queue =>
    change _ = _
    rfl

end ZkServiceRegister

section Run

variable {fromString : Str → Option Address} {filters : List (ServiceFilter Address)}
variable {s : ZkServiceRegister Address}

def AllSteps (fromString : Str → Option Address) (filters : List (ServiceFilter Address))
    (P : ZkServiceRegister Address → ZkEvent → Prop) (es : List ZkEvent)
    (s : ZkServiceRegister Address) : Prop :=
  match es with
  | [] => True
  | e :: es =>
    ∀ s', handleZkEvent fromString filters e s = .ok () s'
      → P s e ∧ AllSteps fromString filters P es s'

theorem runZkEvents_cons {e : ZkEvent} {es : List ZkEvent} {s' : ZkServiceRegister Address}
    : runZkEvents fromString filters (e :: es) s = .ok () s'
      ↔ ∃ s1, handleZkEvent fromString filters e s = .ok () s1
        ∧ runZkEvents fromString filters es s1 = .ok () s' := by
  simp only [runZkEvents, bind, EStateM.bind]
  cases handleZkEvent fromString filters e s with
  | ok u s1 => simp
  | error e s1 => simp

variable {P : ZkServiceRegister Address → ZkEvent → Prop}

theorem AllSteps.append {es es' : List ZkEvent}
    (hes : AllSteps fromString filters P es s)
    (hes' : ∀ s1, runZkEvents fromString filters es s = .ok () s1
      → AllSteps fromString filters P es' s1)
    : AllSteps fromString filters P (es ++ es') s := by
  induction es generalizing s with
  | nil => exact hes' s rfl
  | cons e es ih =>
    intro s1 hs1
    obtain ⟨hP, hrest⟩ := hes s1 hs1
    refine ⟨hP, ih hrest ?_⟩
    intro s2 hs2
    exact hes' s2 (runZkEvents_cons.mpr ⟨s1, hs1, hs2⟩)

theorem AllSteps.runTasks (hP : ∀ s, P s .runTask) (n : Nat)
    : AllSteps fromString filters P (List.replicate n .runTask) s := by
  induction n generalizing s with
  | zero => trivial
  | succ n ih =>
    intro s1 _
    exact ⟨hP s, ih⟩

theorem AllSteps.initial {es es' : List ZkEvent} (h : AllSteps fromString filters P es s)
    (hpre : es' <+: es)
    : AllSteps fromString filters P es' s := by
  induction es' generalizing es s with
  | nil => trivial
  | cons e es' ih =>
    obtain ⟨rest, hrest⟩ := hpre
    subst hrest
    intro s1 hs1
    obtain ⟨hP, hall⟩ := h s1 hs1
    exact ⟨hP, ih hall (List.prefix_append _ _)⟩

theorem AllSteps.run {Inv : ZkServiceRegister Address → Prop}
    (hstep : ∀ s e, Inv s → P s e
      → wp (handleZkEvent fromString filters e) (fun _ s' => Inv s') (fun _ _ => True) s)
    {es : List ZkEvent} (hall : AllSteps fromString filters P es s) (h : Inv s)
    {s' : ZkServiceRegister Address} (hrun : runZkEvents fromString filters es s = .ok () s')
    : Inv s' := by
  induction es generalizing s with
  | nil =>
    cases hrun
    exact h
  | cons e es ih =>
    obtain ⟨s1, hs1, hrest⟩ := runZkEvents_cons.mp hrun
    obtain ⟨hP, hall'⟩ := hall s1 hs1
    have hinv : Inv s1 := wp_of_ok (hstep s e h hP) hs1
    exact ih hall' hinv hrest

/--
An event has been handled. An exception that leaves it is caught by what handed it in.
-/
def ZkStep (fromString : Str → Option Address) (filters : List (ServiceFilter Address))
    (s s' : ZkServiceRegister Address) : Prop :=
  ∃ e, Ends (handleZkEvent fromString filters e) s s'

abbrev ZkReaches (fromString : Str → Option Address) (filters : List (ServiceFilter Address)) :=
  Relation.ReflTransGen (ZkStep fromString filters)

theorem ZkReaches.of_runZkEvents {es : List ZkEvent} {s' : ZkServiceRegister Address}
    (hrun : runZkEvents fromString filters es s = .ok () s')
    : ZkReaches fromString filters s s' := by
  induction es generalizing s with
  | nil =>
    cases hrun
    exact .refl
  | cons e es ih =>
    obtain ⟨s1, hs1, hrest⟩ := runZkEvents_cons.mp hrun
    exact .head ⟨e, Or.inl ⟨(), hs1⟩⟩ (ih hrest)

end Run

/--
An invariant about the listeners, what they have been told, the cache and the counters. It holds
whenever code of the registry ends, also with an exception.
-/
structure ZkInvariant (I : ZkServiceRegister Address → Prop) : Prop where
  congr : ∀ {s s' : ZkServiceRegister Address}, I s → s'.listenersMap = s.listenersMap
    → s'.roundRobinMap = s.roundRobinMap → s'.servicesCache = s.servicesCache
    → s'.notes = s.notes → I s'
  registerListener : ∀ {s} listener, I s
    → wp (ZkServiceRegister.registerListener listener) (fun _ => I) (fun _ => I) s
  unregisterListener : ∀ {s} listener, I s
    → wp (ZkServiceRegister.unregisterListener listener) (fun _ => I) (fun _ => I) s
  noteCached : ∀ {s} (fetch : Fetch Address) (iv : InstanceVector Address), I s
    → I ((s.cacheEntry fetch iv).note (s.listenersMap fetch.service) fetch.service iv)

namespace ZkInvariant

variable {I : ZkServiceRegister Address → Prop} {s : ZkServiceRegister Address}
variable {fromString : Str → Option Address} {filters : List (ServiceFilter Address)}

theorem registerListeners (hI : ZkInvariant I) (listeners : List SRListener) (h : I s)
    : wp (ZkServiceRegister.registerListeners listeners) (fun _ => I) (fun _ => I) s := by
  induction listeners generalizing s with
  | nil => exact h
  | cons listener listeners ih =>
    unfold ZkServiceRegister.registerListeners
    rw [wp_bind]
    apply wp_mono (hI.registerListener listener h)
    . intro _ s1 h1
      exact ih h1
    . intro _ s1 h1
      exact h1

theorem fetchServiceInstancesFromZk (hI : ZkInvariant I) (zk : ZkView) (service : Str) (h : I s)
    : wp (ZkServiceRegister.fetchServiceInstancesFromZk fromString zk service)
        (fun r s' => I s' ∧ ∀ fetch, r = some fetch → fetch.service = service) (fun _ => I)
        s := by
  unfold ZkServiceRegister.fetchServiceInstancesFromZk
  split
  . exact ⟨h, by simp⟩
  . split
    . exact h
    . simp only [wp_bind, wp_modify, wp_pure]
      refine ⟨hI.congr h rfl rfl rfl rfl, ?_⟩
      intro fetch hfetch
      rw [Option.some.injEq] at hfetch
      rw [← hfetch]

theorem fetchAndCacheAll (hI : ZkInvariant I) (zk : ZkView) (services : List Str) (h : I s)
    : wp (ZkServiceRegister.fetchAndCacheAll fromString zk filters services) (fun _ => I)
        (fun _ => I) s := by
  induction services generalizing s with
  | nil => exact h
  | cons service services ih =>
    unfold ZkServiceRegister.fetchAndCacheAll
    simp only [wp_bind]
    apply wp_mono (hI.fetchServiceInstancesFromZk zk service h)
    . rintro r s1 ⟨h1, hservice⟩
      cases r with
      | some fetch =>
        simp only [wp_bind, wp_modify, ZkServiceRegister.doNotifyListeners]
        apply ih
        rw [← hservice fetch rfl]
        exact hI.noteCached fetch _ h1
      | none => exact ih h1
    . intro _ s1 h1
      exact h1

theorem fetchAndUpdateAll (hI : ZkInvariant I) (zk : ZkView) (services : List Str) (h : I s)
    : wp (ZkServiceRegister.fetchAndUpdateAll fromString zk services) (fun _ => I) (fun _ => I)
        s := by
  induction services generalizing s with
  | nil => exact h
  | cons service services ih =>
    unfold ZkServiceRegister.fetchAndUpdateAll ZkServiceRegister.fetchAndUpdateInstances
    simp only [wp_bind]
    apply wp_mono (hI.fetchServiceInstancesFromZk zk service h)
    . rintro r s1 ⟨h1, _⟩
      cases r with
      | some fetch =>
        dsimp only
        split
        . exact ih (hI.congr h1 rfl rfl rfl rfl)
        . exact ih h1
      | none => exact ih h1
    . intro _ s1 h1
      exact h1

theorem serviceChildWatcherFn (hI : ZkInvariant I) (zk : ZkView) (isChildEvent : Bool) (h : I s)
    : wp (ZkServiceRegister.serviceChildWatcherFn fromString zk isChildEvent) (fun _ => I)
        (fun _ => I) s := by
  unfold ZkServiceRegister.serviceChildWatcherFn
  split
  . simp only [wp_bind, wp_get]
    apply wp_mono (hI.fetchAndUpdateAll zk _ h)
    . intro _ s1 h1
      rw [wp_modify]
      exact hI.congr h1 rfl rfl rfl rfl
    . intro _ s1 h1
      exact h1
  . exact h

theorem instanceChildWatcherFn (hI : ZkInvariant I) (zk : ZkView) (isChildEvent : Bool)
    (serviceName : Str) (h : I s)
    : wp (ZkServiceRegister.instanceChildWatcherFn fromString zk isChildEvent serviceName)
        (fun _ => I) (fun _ => I) s := by
  have hall : wp (ZkServiceRegister.fetchAndUpdateAll fromString zk [serviceName]) _ _ s :=
    hI.fetchAndUpdateAll zk [serviceName] h
  unfold ZkServiceRegister.fetchAndUpdateAll ZkServiceRegister.fetchAndUpdateAll at hall
  unfold ZkServiceRegister.instanceChildWatcherFn
  split
  . split
    . exact h
    . simpa using hall
  . exact h

theorem runTask (hI : ZkInvariant I) (h : I s)
    : wp ZkServiceRegister.runTask (fun _ => I) (fun _ => I) s := by
  apply wp_mono ZkServiceRegister.wp_runTask
  . intro _ s' hs'
    rw [hs']
    split
    . exact h
    . next fetch queue _ =>
      exact hI.congr (hI.noteCached fetch fetch.instances h) rfl rfl rfl rfl
  . intro _ _ hfalse
    exact hfalse.elim

theorem init (hI : ZkInvariant I) (zk : ZkView) (listeners : List SRListener) (h : I s)
    : wp (ZkServiceRegister.init fromString zk filters listeners) (fun _ => I) (fun _ => I)
        s := by
  unfold ZkServiceRegister.init ZkServiceRegister.tryFetchServicesFromZk
  rw [wp_bind]
  apply wp_mono (hI.registerListeners listeners h)
  . intro _ s1 h1
    split
    . simp only [wp_bind, wp_modify, wp_pure]
      apply hI.fetchAndCacheAll
      exact hI.congr h1 rfl rfl rfl rfl
    . exact h1
  . intro _ s1 h1
    exact h1

theorem handleZkEvent (hI : ZkInvariant I) (e : ZkEvent)
    (hlookup : ∀ serviceName, e = .serviceNameToId serviceName
      → wp (ZkServiceRegister.serviceNameToId serviceName) (fun _ => I) (fun _ => I) s)
    (h : I s)
    : wp (handleZkEvent fromString filters e) (fun _ => I) (fun _ => I) s := by
  unfold MsgRpc.handleZkEvent
  cases e with
  | init zk listeners =>
    rw [wp_bind]
    exact hI.init zk listeners h
  | registerListener listener => exact hI.registerListener listener h
  | unregisterListener listener => exact hI.unregisterListener listener h
  | serviceNameToId serviceName =>
    rw [wp_bind]
    exact hlookup serviceName rfl
  | serviceChild zk isChildEvent => exact hI.serviceChildWatcherFn zk isChildEvent h
  | instanceChild zk isChildEvent serviceName =>
    exact hI.instanceChildWatcherFn zk isChildEvent serviceName h
  | runTask => exact hI.runTask h

end ZkInvariant

def twoInstances : ZkView where
  present := {['x']}
  services := [['x']]
  instances := fun _ =>
    some [Ipv4.dotted ⟨10, 0, 0, 1⟩ ++ [':', '1'], Ipv4.dotted ⟨10, 0, 0, 1⟩ ++ [':', '2']]

end MsgRpc
