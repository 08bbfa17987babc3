import MsgRpc.Discovery.Lemmas.ZkServiceRegister

/-!
This module contains when the lists in the cache and the lists listeners are told have gone through
the filters: the initial fetch applies them, the watch notifications do not.
-/

namespace MsgRpc

open StateProg

namespace ServiceVersionFilter

def filterService {Address : Type} : ServiceFilter Address :=
  fun _ instances => if 1 < instances.length then instances.tail else instances

end ServiceVersionFilter

variable {Address : Type} [LinearOrder Address]

def Shown (filters : List (ServiceFilter Address)) (fetches : List (Fetch Address)) (service : Str)
    (iv : InstanceVector Address) : Prop :=
  ∃ fetch ∈ fetches, fetch.service = service ∧ iv = applyFilters filters service fetch.instances

structure SameView (filters : List (ServiceFilter Address)) (s : ZkServiceRegister Address) :
    Prop where
  cache : ∀ service iv, s.servicesCache service = some iv → Shown filters s.fetches service iv
  notes : ∀ n ∈ s.notes, Shown filters s.fetches n.service n.instances

def ZkEvent.posts (fromString : Str → Option Address) (s : ZkServiceRegister Address) (e : ZkEvent)
    : List (Fetch Address) :=
  match e with
  | .serviceChild zk true => zk.postsOf fromString (s.changed zk)
  | .instanceChild zk true serviceName => zk.postsOf fromString [serviceName]
  | _ => []

/--
Every list the event posts is what the filters make of it, or of one that has been fetched for the
service before.
-/
def Filtered (fromString : Str → Option Address) (filters : List (ServiceFilter Address))
    (s : ZkServiceRegister Address) (e : ZkEvent) : Prop :=
  ∀ fetch ∈ e.posts fromString s, Shown filters (s.fetches ++ [fetch]) fetch.service fetch.instances

section SameView

variable {fromString : Str → Option Address} {filters : List (ServiceFilter Address)}
variable {s s' : ZkServiceRegister Address}

theorem Shown.mono {fetches fetches' : List (Fetch Address)} {service : Str}
    {iv : InstanceVector Address} (h : Shown filters fetches service iv) (hsub : fetches ⊆ fetches')
    : Shown filters fetches' service iv := by
  obtain ⟨fetch, hmem, hservice, hiv⟩ := h
  exact ⟨fetch, hsub hmem, hservice, hiv⟩

/--
Also what waits in the main queue has gone through the filters.
-/
structure Explained (filters : List (ServiceFilter Address)) (s : ZkServiceRegister Address) :
    Prop where
  view : SameView filters s
  queue : ∀ fetch ∈ s.mainQueue, Shown filters s.fetches fetch.service fetch.instances

namespace Explained

theorem congr (h : Explained filters s) (hcache : s'.servicesCache = s.servicesCache)
    (hnotes : s'.notes = s.notes) (hqueue : s'.mainQueue = s.mainQueue)
    (hfetches : s.fetches ⊆ s'.fetches)
    : Explained filters s' := by
  refine ⟨⟨?_, ?_⟩, ?_⟩
  . intro service iv hiv
    rw [hcache] at hiv
    exact (h.view.cache service iv hiv).mono hfetches
  . intro n hn
    rw [hnotes] at hn
    exact (h.view.notes n hn).mono hfetches
  . intro fetch hfetch
    rw [hqueue] at hfetch
    exact (h.queue fetch hfetch).mono hfetches

theorem note (h : Explained filters s) (listeners : List SRListener) {service : Str}
    {iv : InstanceVector Address} (hiv : Shown filters s.fetches service iv)
    : Explained filters (s.note listeners service iv) := by
  refine ⟨⟨h.view.cache, ?_⟩, h.queue⟩
  intro n hn
  simp only [ZkServiceRegister.note, List.mem_append, List.mem_map] at hn
  cases hn with
  | inl hold => exact h.view.notes n hold
  | inr hnew =>
    obtain ⟨l, _, hl⟩ := hnew
    rw [← hl]
    exact hiv

theorem cacheEntry (h : Explained filters s) {fetch : Fetch Address} {iv : InstanceVector Address}
    (hiv : Shown filters s.fetches fetch.service iv)
    : Explained filters (s.cacheEntry fetch iv) := by
  refine ⟨⟨?_, h.view.notes⟩, h.queue⟩
  intro service iv' hiv'
  by_cases heq : service = fetch.service
  . subst heq
    simp only [ZkServiceRegister.cacheEntry, Function.update_self, Option.some.injEq] at hiv'
    rw [← hiv']
    exact hiv
  . simp only [ZkServiceRegister.cacheEntry, Function.update_of_ne heq] at hiv'
    exact h.view.cache service iv' hiv'

theorem announce (h : Explained filters s) (fetch : Fetch Address)
    : Explained filters (s.announce filters fetch) := by
  have hfetch : Explained filters (s.recordFetch fetch) :=
    h.congr rfl rfl rfl (List.subset_append_left _ _)
  have hshown : Shown filters (s.recordFetch fetch).fetches fetch.service
      (applyFilters filters fetch.service fetch.instances) :=
    ⟨fetch, by simp [ZkServiceRegister.recordFetch], rfl, rfl⟩
  exact (hfetch.cacheEntry hshown).note _ hshown

theorem announceAll (h : Explained filters s) (fetches : List (Fetch Address))
    : Explained filters (fetches.foldl (ZkServiceRegister.announce filters) s) := by
  induction fetches generalizing s with
  | nil => exact h
  | cons fetch fetches ih => exact ih (h.announce fetch)

theorem watch (h : Explained filters s) {zk : ZkView} {services : List Str}
    (hposts : ∀ fetch ∈ zk.postsOf fromString services,
      Shown filters (s.fetches ++ [fetch]) fetch.service fetch.instances)
    : Explained filters (s.watch fromString zk services) := by
  refine ⟨⟨?_, ?_⟩, ?_⟩
  . intro service iv hiv
    exact (h.view.cache service iv hiv).mono (List.subset_append_left _ _)
  . intro n hn
    exact (h.view.notes n hn).mono (List.subset_append_left _ _)
  . intro fetch hfetch
    simp only [ZkServiceRegister.watch, List.mem_append] at hfetch
    cases hfetch with
    | inl hold => exact (h.queue fetch hold).mono (List.subset_append_left _ _)
    | inr hnew =>
      apply (hposts fetch hnew).mono
      intro f hf
      rw [List.mem_append, List.mem_singleton] at hf
      have hmem : fetch ∈ zk.fetchesOf fromString services := List.mem_of_mem_filter hnew
      simp only [ZkServiceRegister.watch, List.mem_append]
      cases hf with
      | inl hold => exact Or.inl hold
      | inr heq =>
        rw [heq]
        exact Or.inr hmem

theorem registerListener (h : Explained filters s) (listener : SRListener)
    : wp (ZkServiceRegister.registerListener listener) (fun _ s' => Explained filters s')
        (fun _ _ => True) s := by
  unfold ZkServiceRegister.registerListener
  simp only [wp_bind, wp_modify, wp_get]
  have hinsert : ∀ map, Explained filters { s with listenersMap := map } :=
    fun _ => h.congr rfl rfl rfl (List.Subset.refl _)
  split
  . next iv hiv =>
    unfold ZkServiceRegister.doNotifyListeners
    rw [wp_modify]
    exact (hinsert _).note _ (h.view.cache _ iv hiv)
  . exact hinsert _

theorem registerListeners (h : Explained filters s) (listeners : List SRListener)
    : wp (ZkServiceRegister.registerListeners listeners) (fun _ s' => Explained filters s')
        (fun _ _ => True) s := by
  induction listeners generalizing s with
  | nil => exact h
  | cons listener listeners ih =>
    unfold ZkServiceRegister.registerListeners
    rw [wp_bind]
    apply wp_mono (h.registerListener listener)
    . intro _ s1 h1
      exact ih h1
    . intro _ _ _
      trivial

theorem init (h : Explained filters s) (zk : ZkView) (listeners : List SRListener)
    : wp (ZkServiceRegister.init fromString zk filters listeners)
        (fun _ s' => Explained filters s') (fun _ _ => True) s := by
  unfold ZkServiceRegister.init ZkServiceRegister.tryFetchServicesFromZk
  rw [wp_bind]
  apply wp_mono (h.registerListeners listeners)
  . intro _ s1 h1
    split
    . simp only [wp_bind, wp_modify]
      apply wp_mono (ZkServiceRegister.wp_fetchAndCacheAll filters zk.services)
      . intro _ s2 hs2
        rw [wp_pure, hs2]
        apply announceAll
        exact h1.congr rfl rfl rfl (List.Subset.refl _)
      . intro _ _ _
        trivial
    . exact h1
  . intro _ _ _
    trivial

theorem serviceNameToId (h : Explained filters s) (serviceName : Str)
    : wp (ZkServiceRegister.serviceNameToId serviceName) (fun _ s' => Explained filters s')
        (fun _ _ => True) s := by
  unfold ZkServiceRegister.serviceNameToId
  simp only [wp_bind, wp_get]
  split <;> exact h.congr rfl rfl rfl (List.Subset.refl _)

theorem runTask (h : Explained filters s)
    : wp ZkServiceRegister.runTask (fun _ s' => Explained filters s') (fun _ _ => True) s := by
  apply wp_mono ZkServiceRegister.wp_runTask
  . intro _ s' hs'
    rw [hs']
    split
    . exact h
    . next fetch queue hqueue =>
      have hfetch := h.queue fetch (by simp [hqueue])
      have hrest : Explained filters
          { s.cacheEntry fetch fetch.instances with mainQueue := queue } := by
        have hview := (h.cacheEntry hfetch).view
        refine ⟨⟨hview.cache, hview.notes⟩, ?_⟩
        intro f hf
        exact h.queue f (by simp [hqueue, hf])
      exact hrest.note _ hfetch
  . intro _ _ _
    trivial

theorem handleZkEvent (h : Explained filters s) {e : ZkEvent} (he : Filtered fromString filters s e)
    : wp (handleZkEvent fromString filters e) (fun _ s' => Explained filters s') (fun _ _ => True)
        s := by
  unfold MsgRpc.handleZkEvent
  cases e with
  | init zk listeners =>
    rw [wp_bind]
    exact h.init zk listeners
  | registerListener listener => exact h.registerListener listener
  | unregisterListener listener =>
    unfold ZkServiceRegister.unregisterListener
    rw [wp_modify]
    exact h.congr rfl rfl rfl (List.Subset.refl _)
  | serviceNameToId serviceName =>
    rw [wp_bind]
    exact h.serviceNameToId serviceName
  | serviceChild zk isChildEvent =>
    cases isChildEvent with
    | true =>
      apply wp_mono ZkServiceRegister.wp_serviceChildWatcherFn
      . intro _ s1 hs1
        rw [hs1]
        exact (h.watch he).congr rfl rfl rfl (List.Subset.refl _)
      . intro _ _ _
        trivial
    | false => exact h
  | instanceChild zk isChildEvent serviceName =>
    cases isChildEvent with
    | true =>
      apply wp_mono (ZkServiceRegister.wp_instanceChildWatcherFn serviceName)
      . intro _ s1 hs1
        rw [hs1]
        exact h.watch he
      . intro _ _ _
        trivial
    | false => exact h
  | runTask => exact h.runTask

theorem init_state : Explained filters ({} : ZkServiceRegister Address) := by
  refine ⟨⟨?_, ?_⟩, ?_⟩ <;> simp

end Explained

-- the main queue gets to every update it holds
theorem runTasks_cache (fromString : Str → Option Address) (filters : List (ServiceFilter Address))
    {queue queue' : List (Fetch Address)} {fetch : Fetch Address}
    (hqueue : s.mainQueue = queue ++ fetch :: queue')
    : ∃ s', runZkEvents fromString filters (List.replicate (queue.length + 1) .runTask) s = .ok () s'
        ∧ s'.servicesCache fetch.service = some fetch.instances ∧ s'.fetches = s.fetches := by
  induction queue generalizing s with
  | nil =>
    obtain ⟨_, s1, hrun, hs1⟩ := exists_of_wp (ZkServiceRegister.wp_runTask (s := s))
    rw [hqueue] at hs1
    refine ⟨s1, ?_, ?_, ?_⟩
    . rw [List.length_nil, Nat.zero_add, List.replicate_one, runZkEvents_cons]
      exact ⟨s1, hrun, rfl⟩
    . simp [hs1, ZkServiceRegister.update, ZkServiceRegister.cacheEntry, ZkServiceRegister.note]
    . rw [hs1]
      rfl
  | cons f queue ih =>
    obtain ⟨_, s1, hrun, hs1⟩ := exists_of_wp (ZkServiceRegister.wp_runTask (s := s))
    rw [hqueue] at hs1
    have hqueue1 : s1.mainQueue = queue ++ fetch :: queue' := by
      rw [hs1]
      rfl
    obtain ⟨s2, hrun2, hcache, hfetches⟩ := ih hqueue1
    refine ⟨s2, ?_, hcache, ?_⟩
    . rw [List.length_cons, List.replicate_succ, runZkEvents_cons]
      exact ⟨s1, hrun, hrun2⟩
    . rw [hfetches, hs1]
      rfl

-- an event leaves what it posts at the end of the main queue, and has fetched nothing else for the
-- services it posts
theorem posts_mainQueue {e : ZkEvent} {fetch : Fetch Address}
    (hrun : handleZkEvent fromString filters e s = .ok () s') (hfetch : fetch ∈ e.posts fromString s)
    : fetch ∈ s'.mainQueue
      ∧ ∀ f ∈ s'.fetches, f.service = fetch.service → f ∈ s.fetches ++ [fetch] := by
  have hwatch : ∀ (zk : ZkView) (services : List Str), fetch ∈ zk.postsOf fromString services
      → fetch ∈ (s.watch fromString zk services).mainQueue
        ∧ ∀ f ∈ (s.watch fromString zk services).fetches, f.service = fetch.service
          → f ∈ s.fetches ++ [fetch] := by
    intro zk services hmem
    refine ⟨List.mem_append_right _ hmem, ?_⟩
    intro f hf hservice
    simp only [ZkServiceRegister.watch, List.mem_append] at hf
    cases hf with
    | inl hold => exact List.mem_append_left _ hold
    | inr hnew =>
      have h1 := (ZkView.mem_fetchesOf.mp hnew).2
      have h2 := (ZkView.mem_postsOf.mp hmem).2.1
      rw [hservice, h2] at h1
      simp only [Option.some.injEq] at h1
      simp [h1]
  unfold handleZkEvent at hrun
  cases e with
  | serviceChild zk isChildEvent =>
    cases isChildEvent with
    | true =>
      have hwp : wp (ZkServiceRegister.serviceChildWatcherFn fromString zk true) _ _ s :=
        ZkServiceRegister.wp_serviceChildWatcherFn
      have hs' := wp_of_ok hwp hrun
      rw [hs']
      exact hwatch zk (s.changed zk) hfetch
    | false => simp [ZkEvent.posts] at hfetch
  | instanceChild zk isChildEvent serviceName =>
    cases isChildEvent with
    | true =>
      have hwp : wp (ZkServiceRegister.instanceChildWatcherFn fromString zk true serviceName) _ _ s :=
        ZkServiceRegister.wp_instanceChildWatcherFn serviceName
      have hs' := wp_of_ok hwp hrun
      rw [hs']
      exact hwatch zk [serviceName] hfetch
    | false => simp [ZkEvent.posts] at hfetch
  | _ => simp [ZkEvent.posts] at hfetch

/--
Nothing but updates of the main queue happens behind a part of the run.
-/
def Settles (es es' : List ZkEvent) : Prop :=
  ∃ pre n, pre <+: es ∧ es' = pre ++ List.replicate n .runTask

theorem allSteps_filtered {es : List ZkEvent}
    (h : ∀ es' s', Settles es es' → runZkEvents fromString filters es' s = .ok () s'
      → SameView filters s')
    : AllSteps fromString filters (Filtered fromString filters) es s := by
  induction es generalizing s with
  | nil => trivial
  | cons e es ih =>
    intro s1 hs1
    refine ⟨?_, ?_⟩
    . intro fetch hfetch
      obtain ⟨hmem, hfetches⟩ := posts_mainQueue hs1 hfetch
      obtain ⟨queue, queue', hqueue⟩ := List.append_of_mem hmem
      obtain ⟨s2, hs2, hcache, hsame⟩ := runTasks_cache fromString filters hqueue
      have hview := h (e :: List.replicate (queue.length + 1) .runTask) s2
        ⟨[e], queue.length + 1, by simp, rfl⟩ (runZkEvents_cons.mpr ⟨s1, hs1, hs2⟩)
      obtain ⟨f, hf, hservice, hiv⟩ := hview.cache _ _ hcache
      rw [hsame] at hf
      exact ⟨f, hfetches f hf hservice, hservice, hiv⟩
    . apply ih
      intro es' s' hsettles hrun
      obtain ⟨pre, n, hpre, heq⟩ := hsettles
      apply h (e :: es') s'
      . refine ⟨e :: pre, n, ?_, by rw [heq, List.cons_append]⟩
        exact List.cons_prefix_cons.mpr ⟨rfl, hpre⟩
      . exact runZkEvents_cons.mpr ⟨s1, hs1, hrun⟩

/--
In all that may be seen of a run, also once the main queue has caught up, the lists have gone
through the filters if and only if every list the watch notifications have posted has.
-/
theorem sameView_iff_filtered (es : List ZkEvent)
    : (∀ es' s', Settles es es' → runZkEvents fromString filters es' {} = .ok () s'
        → SameView filters s')
      ↔ AllSteps fromString filters (Filtered fromString filters) es
        ({} : ZkServiceRegister Address) := by
  constructor
  . exact allSteps_filtered
  . intro hall es' s' hsettles hrun
    obtain ⟨pre, n, hpre, heq⟩ := hsettles
    rw [heq] at hrun
    have htask : ∀ s, Filtered fromString filters s .runTask := by
      intro s fetch hfetch
      simp [ZkEvent.posts] at hfetch
    have hall' := (hall.initial hpre).append fun _ _ => AllSteps.runTasks htask n
    have hinv : Explained filters s' := hall'.run
      (fun _ _ h hP => h.handleZkEvent hP) Explained.init_state hrun
    exact hinv.view

section Watched

/--
A change of the instances undoes what the filter did to them at start-up.
-/
theorem not_sameView_watched
    : ¬∀ (es : List ZkEvent) (s : ZkServiceRegister Nat),
        runZkEvents Ipv4.fromString [ServiceVersionFilter.filterService] es {} = .ok () s
          → SameView [ServiceVersionFilter.filterService] s := by
  intro h
  have hrun : returns
      (runZkEvents Ipv4.fromString [ServiceVersionFilter.filterService]
        [.init twoInstances [], .instanceChild twoInstances true ['x'], .runTask]
        ({} : ZkServiceRegister Nat))
      (fun _ s => (s.servicesCache ['x']).map List.length = some 2
        ∧ ∀ f ∈ s.fetches, f.instances.length = 2) = true := by
    decide +kernel
  obtain ⟨_, s, hs, hp⟩ := exists_of_returns hrun
  simp only [decide_eq_true_eq] at hp
  obtain ⟨hcache, hfetches⟩ := hp
  obtain ⟨iv, hiv, hlength⟩ := Option.map_eq_some_iff.mp hcache
  obtain ⟨f, hf, _, heq⟩ := (h _ s hs).cache ['x'] iv hiv
  have hlengthf := hfetches f hf
  rw [heq] at hlength
  simp [applyFilters, ServiceVersionFilter.filterService, hlengthf] at hlength

end Watched
end SameView
end MsgRpc
