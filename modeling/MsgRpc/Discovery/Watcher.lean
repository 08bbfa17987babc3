import MsgRpc.Discovery.Lemmas.ZkServiceRegister

/-!
This module contains which changes of the set of services the watcher finds: it compares the list it
reads with the one it remembers, and remembers a list whether or not it could fetch what is on it.
-/

namespace MsgRpc

open StateProg

variable {Address : Type} [LinearOrder Address]

def applyUpdates (origin : Str → Option (Fetch Address)) (updates : List (Fetch Address))
    : Str → Option (Fetch Address) :=
  updates.foldl (fun origin fetch => Function.update origin fetch.service (some fetch)) origin

section ApplyUpdates

variable {origin origin' : Str → Option (Fetch Address)} {updates : List (Fetch Address)}
variable {service : Str}

theorem applyUpdates_congr (h : origin service = origin' service)
    : applyUpdates origin updates service = applyUpdates origin' updates service := by
  induction updates generalizing origin origin' with
  | nil => exact h
  | cons fetch updates ih =>
    apply ih
    by_cases heq : service = fetch.service
    . simp [heq]
    . simp [heq, h]

theorem applyUpdates_of_not_mem (h : ∀ fetch ∈ updates, fetch.service ≠ service)
    : applyUpdates origin updates service = origin service := by
  induction updates generalizing origin with
  | nil => rfl
  | cons fetch updates ih =>
    have hne : service ≠ fetch.service := (h fetch (by simp)).symm
    have hrest : applyUpdates (Function.update origin fetch.service (some fetch)) updates service
        = Function.update origin fetch.service (some fetch) service :=
      ih fun f hf => h f (by simp [hf])
    rw [Function.update_of_ne hne] at hrest
    exact hrest

theorem applyUpdates_of_mem {fetch : Fetch Address} (hmem : fetch ∈ updates)
    (hagree : ∀ f ∈ updates, f.service = fetch.service → f = fetch)
    : applyUpdates origin updates fetch.service = some fetch := by
  induction updates generalizing origin with
  | nil => simp at hmem
  | cons f updates ih =>
    by_cases hrest : fetch ∈ updates
    . exact ih hrest fun f' hf' => hagree f' (by simp [hf'])
    . have heq : fetch = f := by simpa [hrest] using hmem
      have hlast : applyUpdates (Function.update origin f.service (some f)) updates fetch.service
          = Function.update origin f.service (some f) fetch.service := by
        apply applyUpdates_of_not_mem
        intro f' hf' hservice
        apply hrest
        rw [← hagree f' (by simp [hf']) hservice]
        exact hf'
      rw [heq, Function.update_self] at hlast
      rw [heq]
      exact hlast

theorem isSome_applyUpdates (h : (origin service).isSome = true)
    : (applyUpdates origin updates service).isSome = true := by
  induction updates generalizing origin with
  | nil => exact h
  | cons fetch updates ih =>
    apply ih
    by_cases heq : service = fetch.service
    . simp [heq]
    . simp [heq, h]

end ApplyUpdates

namespace ZkView

variable (fromString : Str → Option Address) (zk : ZkView)

def updateOf (service : Str) : Option (Fetch Address) :=
  if zk.scheduled service then zk.fetchOf fromString service else none

end ZkView

-- what is read of a service, if anything, was read when it had gone
def ReadWhenGone (fetch : Option (Fetch Address)) : Prop := ∀ f, fetch = some f → f.present = false

namespace ZkServiceRegister

/--
Where the lists in the cache come from once the main queue has caught up.
-/
def drained (s : ZkServiceRegister Address) : Str → Option (Fetch Address) :=
  applyUpdates s.origin s.mainQueue

end ZkServiceRegister

/--
Whenever a list is remembered, what is new on it has an entry or gets one, and what has dropped off
has an entry that was read when it had gone. The instances of a service that is not remembered are
read only when it has gone.
-/
def Retains (fromString : Str → Option Address) (s : ZkServiceRegister Address) (e : ZkEvent)
    : Prop :=
  match e with
  | .init zk _ =>
    zk.connected = true
      → (∀ service ∈ zk.services,
          (zk.fetchOf fromString service).isSome = true ∨ (s.drained service).isSome = true)
        ∧ ∀ service ∈ s.oldServices, service ∉ zk.services → ReadWhenGone (s.drained service)
  | .serviceChild zk true =>
    (∀ service ∈ zk.services, service ∉ s.oldServices
        → ((zk.updateOf fromString service).or (s.drained service)).isSome = true)
      ∧ ∀ service ∈ s.oldServices, service ∉ zk.services
        → ReadWhenGone ((zk.updateOf fromString service).or (s.drained service))
  | .instanceChild zk true serviceName =>
    serviceName ∈ s.oldServices
      ∨ ReadWhenGone ((zk.updateOf fromString serviceName).or (s.drained serviceName))
  | _ => True

/--
Remembered services have an entry, and the entries of others were read when they had gone.
-/
structure Remembered (s : ZkServiceRegister Address) : Prop where
  listed : ∀ service ∈ s.oldServices, (s.drained service).isSome = true
  unlisted : ∀ service, service ∉ s.oldServices → ReadWhenGone (s.drained service)
  cached : ∀ service, (s.servicesCache service).isSome = (s.origin service).isSome

section Drained

variable {fromString : Str → Option Address} {zk : ZkView} {s s' : ZkServiceRegister Address}

theorem applyUpdates_append (origin : Str → Option (Fetch Address))
    (updates updates' : List (Fetch Address))
    : applyUpdates origin (updates ++ updates')
        = applyUpdates (applyUpdates origin updates) updates' := by
  unfold applyUpdates
  rw [List.foldl_append]

theorem applyUpdates_postsOf (origin : Str → Option (Fetch Address)) (services : List Str)
    (service : Str)
    : applyUpdates origin (zk.postsOf fromString services) service
        = if service ∈ services then (zk.updateOf fromString service).or (origin service)
          else origin service := by
  split
  . next hmem =>
    cases hupdate : zk.updateOf fromString service with
    | some fetch =>
      unfold ZkView.updateOf at hupdate
      split at hupdate
      . next hscheduled =>
        have hservice := (ZkView.fetchOf_eq_some hupdate).1
        subst hservice
        rw [Option.some_or]
        apply applyUpdates_of_mem
        . exact ZkView.mem_postsOf.mpr ⟨hmem, hupdate, hscheduled⟩
        . intro f hf hsame
          have hf' := (ZkView.mem_postsOf.mp hf).2.1
          rw [hsame, hupdate] at hf'
          simpa using hf'.symm
      . simp at hupdate
    | none =>
      rw [Option.none_or]
      apply applyUpdates_of_not_mem
      intro f hf heq
      have hf' := (ZkView.mem_postsOf.mp hf).2
      rw [heq] at hf'
      simp [ZkView.updateOf, hf'.1, hf'.2] at hupdate
  . next hmem =>
    apply applyUpdates_of_not_mem
    intro f hf heq
    exact hmem (heq ▸ (ZkView.mem_postsOf.mp hf).1)

theorem drained_watch (fromString : Str → Option Address) (zk : ZkView)
    (s : ZkServiceRegister Address) (services : List Str) (service : Str)
    : (s.watch fromString zk services).drained service
        = if service ∈ services then (zk.updateOf fromString service).or (s.drained service)
          else s.drained service := by
  unfold ZkServiceRegister.drained ZkServiceRegister.watch
  simp only
  rw [applyUpdates_append, applyUpdates_postsOf]

theorem origin_announceAll (s : ZkServiceRegister Address) (filters : List (ServiceFilter Address))
    (fetches : List (Fetch Address))
    : (fetches.foldl (ZkServiceRegister.announce filters) s).origin = applyUpdates s.origin fetches
      ∧ (fetches.foldl (ZkServiceRegister.announce filters) s).mainQueue = s.mainQueue
      ∧ (fetches.foldl (ZkServiceRegister.announce filters) s).oldServices = s.oldServices := by
  induction fetches generalizing s with
  | nil => exact ⟨rfl, rfl, rfl⟩
  | cons fetch fetches ih => exact ih (s.announce filters fetch)

end Drained

namespace Remembered

variable {fromString : Str → Option Address} {filters : List (ServiceFilter Address)}
variable {zk : ZkView} {s s' : ZkServiceRegister Address}

theorem congr (h : Remembered s) (hold : s'.oldServices = s.oldServices)
    (hdrained : s'.drained = s.drained)
    (hcached : ∀ service, (s'.servicesCache service).isSome = (s'.origin service).isSome)
    : Remembered s' := by
  refine ⟨?_, ?_, hcached⟩
  . rw [hold, hdrained]
    exact h.listed
  . rw [hold, hdrained]
    exact h.unlisted

theorem cached_cacheEntry (h : ∀ service, (s.servicesCache service).isSome = (s.origin service).isSome)
    (fetch : Fetch Address) (iv : InstanceVector Address) (service : Str)
    : ((s.cacheEntry fetch iv).servicesCache service).isSome
        = ((s.cacheEntry fetch iv).origin service).isSome := by
  by_cases heq : service = fetch.service
  . simp [ZkServiceRegister.cacheEntry, heq]
  . simp [ZkServiceRegister.cacheEntry, heq, h service]

theorem cached_announceAll
    (h : ∀ service, (s.servicesCache service).isSome = (s.origin service).isSome)
    (fetches : List (Fetch Address)) (service : Str)
    : ((fetches.foldl (ZkServiceRegister.announce filters) s).servicesCache service).isSome
        = ((fetches.foldl (ZkServiceRegister.announce filters) s).origin service).isSome := by
  induction fetches generalizing s with
  | nil => exact h service
  | cons fetch fetches ih =>
    apply ih
    exact cached_cacheEntry (s := s.recordFetch fetch) h fetch _

theorem isSome_or {update latest : Option (Fetch Address)} (h : latest.isSome = true)
    : (update.or latest).isSome = true := by
  cases update <;> simp [h]

theorem mem_changed {service : Str}
    (h : service ∈ zk.services ∧ service ∉ s.oldServices
      ∨ service ∈ s.oldServices ∧ service ∉ zk.services)
    : service ∈ s.changed zk := by
  unfold ZkServiceRegister.changed ZkServiceRegister.changedServices
  rw [List.mem_append]
  cases h with
  | inl hnew =>
    left
    apply SortedList.mem_setDifference _ hnew.2
    rw [List.mem_insertionSort]
    exact hnew.1
  | inr hgone =>
    right
    apply SortedList.mem_setDifference hgone.1
    rw [List.mem_insertionSort]
    exact hgone.2

theorem not_mem_changed {service : Str} (hnew : service ∉ zk.services)
    (hold : service ∉ s.oldServices)
    : service ∉ s.changed zk := by
  unfold ZkServiceRegister.changed ZkServiceRegister.changedServices
  intro hmem
  rw [List.mem_append] at hmem
  cases hmem with
  | inl h =>
    have := SortedList.setDifference_subset _ _ h
    rw [List.mem_insertionSort] at this
    exact hnew this
  | inr h => exact hold (SortedList.setDifference_subset _ _ h)

theorem serviceChild (h : Remembered s) (hretains : Retains fromString s (.serviceChild zk true))
    : Remembered ((s.watch fromString zk (s.changed zk)).remember zk) := by
  obtain ⟨hnew, hgone⟩ := hretains
  have hdrained := drained_watch fromString zk s (s.changed zk)
  refine ⟨?_, ?_, h.cached⟩
  . intro service hmem
    rw [ZkServiceRegister.remember, List.mem_insertionSort] at hmem
    change ((s.watch fromString zk (s.changed zk)).drained service).isSome = true
    rw [hdrained]
    by_cases hold : service ∈ s.oldServices
    . have hlisted := h.listed service hold
      split
      . exact isSome_or hlisted
      . exact hlisted
    . rw [if_pos (mem_changed (Or.inl ⟨hmem, hold⟩))]
      exact hnew service hmem hold
  . intro service hmem
    rw [ZkServiceRegister.remember, List.mem_insertionSort] at hmem
    change ReadWhenGone ((s.watch fromString zk (s.changed zk)).drained service)
    rw [hdrained]
    by_cases hold : service ∈ s.oldServices
    . rw [if_pos (mem_changed (Or.inr ⟨hold, hmem⟩))]
      exact hgone service hold hmem
    . rw [if_neg (not_mem_changed hmem hold)]
      exact h.unlisted service hold

theorem instanceChild (h : Remembered s) {serviceName : Str}
    (hretains : Retains fromString s (.instanceChild zk true serviceName))
    : Remembered (s.watch fromString zk [serviceName]) := by
  have hdrained := drained_watch fromString zk s [serviceName]
  refine ⟨?_, ?_, h.cached⟩
  . intro service hmem
    rw [hdrained]
    split
    . exact isSome_or (h.listed service hmem)
    . exact h.listed service hmem
  . intro service hmem
    rw [hdrained]
    split
    . next heq =>
      rw [List.mem_singleton] at heq
      subst heq
      cases hretains with
      | inl hold => exact absurd hold hmem
      | inr hread => exact hread
    . exact h.unlisted service hmem

theorem fetchAndCache (h : Remembered s) {listeners : List SRListener}
    (hretains : Retains fromString s (.init zk listeners)) (hconnected : zk.connected = true)
    : Remembered ((zk.fetchesOf fromString zk.services).foldl (ZkServiceRegister.announce filters)
        (s.remember zk)) := by
  obtain ⟨hnew, hgone⟩ := hretains hconnected
  obtain ⟨horigin, hqueue, hold⟩ := origin_announceAll (s.remember zk) filters
    (zk.fetchesOf fromString zk.services)
  have hdrained : ∀ service, (∀ fetch ∈ zk.fetchesOf fromString zk.services, fetch.service ≠ service)
      → ZkServiceRegister.drained ((zk.fetchesOf fromString zk.services).foldl
          (ZkServiceRegister.announce filters) (s.remember zk)) service = s.drained service := by
    intro service hnone
    unfold ZkServiceRegister.drained
    rw [hqueue, horigin]
    exact applyUpdates_congr (applyUpdates_of_not_mem hnone)
  have hcached : ∀ service, ((s.remember zk).servicesCache service).isSome
      = ((s.remember zk).origin service).isSome := h.cached
  refine ⟨?_, ?_, cached_announceAll hcached _⟩
  . intro service hmem
    rw [hold, ZkServiceRegister.remember, List.mem_insertionSort] at hmem
    cases hfetch : zk.fetchOf fromString service with
    | some fetch =>
      have hservice := (ZkView.fetchOf_eq_some hfetch).1
      subst hservice
      unfold ZkServiceRegister.drained
      apply isSome_applyUpdates
      rw [horigin, applyUpdates_of_mem (ZkView.mem_fetchesOf.mpr ⟨hmem, hfetch⟩)]
      . rfl
      . intro f hf hsame
        have hf' := (ZkView.mem_fetchesOf.mp hf).2
        rw [hsame, hfetch] at hf'
        simpa using hf'.symm
    | none =>
      rw [hdrained service]
      . simpa [hfetch] using hnew service hmem
      . intro f hf hsame
        have hf' := (ZkView.mem_fetchesOf.mp hf).2
        rw [hsame, hfetch] at hf'
        simp at hf'
  . intro service hmem
    rw [hold, ZkServiceRegister.remember, List.mem_insertionSort] at hmem
    rw [hdrained service]
    . by_cases hold' : service ∈ s.oldServices
      . exact hgone service hold' hmem
      . exact h.unlisted service hold'
    . intro f hf hsame
      exact hmem (hsame ▸ (ZkView.mem_fetchesOf.mp hf).1)

theorem runTask (h : Remembered s)
    : wp ZkServiceRegister.runTask (fun _ s' => Remembered s') (fun _ _ => True) s := by
  apply wp_mono ZkServiceRegister.wp_runTask
  . intro _ s' hs'
    rw [hs']
    split
    . exact h
    . next fetch queue hqueue =>
      have hdrained : (s.update fetch queue).drained = s.drained := by
        unfold ZkServiceRegister.drained
        rw [hqueue]
        rfl
      exact h.congr rfl hdrained (cached_cacheEntry h.cached fetch _)
  . intro _ _ _
    trivial

theorem wp_registerListeners (listeners : List SRListener)
    : wp (ZkServiceRegister.registerListeners listeners)
        (fun _ s' => ∃ map notes, s' = { s with listenersMap := map, notes := notes })
        (fun _ _ => True) s := by
  induction listeners generalizing s with
  | nil => exact ⟨s.listenersMap, s.notes, rfl⟩
  | cons listener listeners ih =>
    unfold ZkServiceRegister.registerListeners ZkServiceRegister.registerListener
    simp only [wp_bind, wp_modify, wp_get]
    split
    . unfold ZkServiceRegister.doNotifyListeners
      rw [wp_modify]
      apply wp_mono ih
      . rintro _ s' ⟨map, notes, hs'⟩
        exact ⟨map, notes, hs'⟩
      . intro _ _ _
        trivial
    . apply wp_mono ih
      . rintro _ s' ⟨map, notes, hs'⟩
        exact ⟨map, notes, hs'⟩
      . intro _ _ _
        trivial

theorem init (h : Remembered s) {listeners : List SRListener}
    (hretains : Retains fromString s (.init zk listeners))
    : wp (ZkServiceRegister.init fromString zk filters listeners) (fun _ s' => Remembered s')
        (fun _ _ => True) s := by
  unfold ZkServiceRegister.init ZkServiceRegister.tryFetchServicesFromZk
  rw [wp_bind]
  apply wp_mono (wp_registerListeners listeners)
  . rintro _ s1 ⟨map, notes, hs1⟩
    have h1 : Remembered s1 := by
      rw [hs1]
      exact h.congr rfl rfl h.cached
    have hretains1 : Retains fromString s1 (.init zk listeners) := by
      rw [hs1]
      exact hretains
    split
    . next hconnected =>
      simp only [wp_bind, wp_modify]
      apply wp_mono (ZkServiceRegister.wp_fetchAndCacheAll filters zk.services)
      . intro _ s2 hs2
        rw [wp_pure, hs2]
        exact h1.fetchAndCache hretains1 hconnected
      . intro _ _ _
        trivial
    . exact h1
  . intro _ _ _
    trivial

theorem handleZkEvent (h : Remembered s) {e : ZkEvent} (he : Retains fromString s e)
    : wp (handleZkEvent fromString filters e) (fun _ s' => Remembered s') (fun _ _ => True) s := by
  unfold MsgRpc.handleZkEvent
  cases e with
  | init zk listeners =>
    rw [wp_bind]
    exact h.init he
  | registerListener listener =>
    have hall : wp (ZkServiceRegister.registerListeners [listener]) _ _ s :=
      wp_registerListeners [listener]
    unfold ZkServiceRegister.registerListeners ZkServiceRegister.registerListeners at hall
    rw [wp_bind] at hall
    apply wp_mono hall
    . rintro _ s' ⟨map, notes, hs'⟩
      rw [hs']
      exact h.congr rfl rfl h.cached
    . intro _ _ _
      trivial
  | unregisterListener listener =>
    unfold ZkServiceRegister.unregisterListener
    rw [wp_modify]
    exact h.congr rfl rfl h.cached
  | serviceNameToId serviceName =>
    unfold ZkServiceRegister.serviceNameToId
    simp only [wp_bind, wp_get]
    split <;> exact h.congr rfl rfl h.cached
  | serviceChild zk isChildEvent =>
    cases isChildEvent with
    | true =>
      apply wp_mono ZkServiceRegister.wp_serviceChildWatcherFn
      . intro _ s1 hs1
        rw [hs1]
        exact h.serviceChild he
      . intro _ _ _
        trivial
    | false => exact h
  | instanceChild zk isChildEvent serviceName =>
    cases isChildEvent with
    | true =>
      apply wp_mono (ZkServiceRegister.wp_instanceChildWatcherFn serviceName)
      . intro _ s1 hs1
        rw [hs1]
        exact h.instanceChild he
      . intro _ _ _
        trivial
    | false => exact h
  | runTask => exact h.runTask

theorem init_state : Remembered ({} : ZkServiceRegister Address) where
  listed := by simp
  unlisted := by
    intro service _ f hf
    simp [ZkServiceRegister.drained, applyUpdates] at hf
  cached := by simp

end Remembered

/--
Every service that is there has an entry, and the entry of every other service was read when it had
gone.
-/
def UpToDate (present : Finset Str) (s : ZkServiceRegister Address) : Prop :=
  (∀ service ∈ present, (s.servicesCache service).isSome = true)
    ∧ ∀ service, service ∉ present → ReadWhenGone (s.origin service)

section UpToDate

variable {fromString : Str → Option Address} {filters : List (ServiceFilter Address)}
variable {zk : ZkView} {s s' s'' : ZkServiceRegister Address}

theorem runTasks_drained (hrun : runZkEvents fromString filters
      (List.replicate s.mainQueue.length .runTask) s = .ok () s')
    : s'.mainQueue = [] ∧ s'.drained = s.drained := by
  generalize hlength : s.mainQueue.length = n at hrun
  induction n generalizing s with
  | zero =>
    cases hrun
    exact ⟨List.length_eq_zero_iff.mp hlength, rfl⟩
  | succ n ih =>
    rw [List.replicate_succ] at hrun
    obtain ⟨s1, hs1, hrest⟩ := runZkEvents_cons.mp hrun
    have hwp : wp (ZkServiceRegister.runTask : ZkM Address Unit) _ _ s := ZkServiceRegister.wp_runTask
    have heq := wp_of_ok hwp hs1
    cases hqueue : s.mainQueue with
    | nil => simp [hqueue] at hlength
    | cons fetch queue =>
      rw [hqueue] at heq
      have hlength1 : s1.mainQueue.length = n := by
        rw [heq]
        change queue.length = n
        simpa [hqueue] using hlength
      obtain ⟨hempty, hdrained⟩ := ih hlength1 hrest
      refine ⟨hempty, ?_⟩
      rw [hdrained, heq]
      unfold ZkServiceRegister.drained
      rw [hqueue]
      rfl

/--
In a run that remembers no service without its instances, a run of the watcher that reads everything
correctly leads to a cache that is up to date once the main queue has caught up.
-/
theorem upToDate_of_retains {es : List ZkEvent}
    (hall : AllSteps fromString filters (Retains fromString) es {})
    (hrun : runZkEvents fromString filters es {} = .ok () s)
    (hservices : ∀ service, service ∈ zk.services ↔ service ∈ zk.present)
    (hfetch : ∀ service ∈ s.changed zk, (zk.updateOf fromString service).isSome = true)
    (hwatch : handleZkEvent fromString filters (.serviceChild zk true) s = .ok () s')
    (htasks : runZkEvents fromString filters (List.replicate s'.mainQueue.length .runTask) s'
      = .ok () s'')
    : UpToDate zk.present s'' := by
  have h : Remembered s :=
    hall.run (fun _ _ h hP => h.handleZkEvent hP) Remembered.init_state hrun
  have hretains : Retains fromString s (.serviceChild zk true) := by
    refine ⟨?_, ?_⟩
    . intro service hnew hold
      cases hupdate : zk.updateOf fromString service with
      | some fetch => rfl
      | none =>
        have := hfetch service (Remembered.mem_changed (Or.inl ⟨hnew, hold⟩))
        simp [hupdate] at this
    . intro service hold hgone fetch hfetch'
      cases hupdate : zk.updateOf fromString service with
      | some f =>
        rw [hupdate, Option.some_or, Option.some.injEq] at hfetch'
        unfold ZkView.updateOf at hupdate
        split at hupdate
        . have hpresent := (ZkView.fetchOf_eq_some hupdate).2
          rw [← hfetch', hpresent, decide_eq_false_iff_not, ← hservices]
          exact hgone
        . simp at hupdate
      | none =>
        have := hfetch service (Remembered.mem_changed (Or.inr ⟨hold, hgone⟩))
        simp [hupdate] at this
  have h' : Remembered s' := wp_of_ok (h.handleZkEvent hretains) hwatch
  have hold : ∀ service, service ∈ s'.oldServices ↔ service ∈ zk.present := by
    intro service
    have hwp : wp (ZkServiceRegister.serviceChildWatcherFn fromString zk true) _ _ s :=
      ZkServiceRegister.wp_serviceChildWatcherFn
    rw [wp_of_ok hwp hwatch, ← hservices service]
    exact List.mem_insertionSort _
  have htask : AllSteps fromString filters (Retains fromString)
      (List.replicate s'.mainQueue.length .runTask) s' := AllSteps.runTasks (fun _ => trivial) _
  have h'' : Remembered s'' := htask.run (fun _ _ h hP => h.handleZkEvent hP) h' htasks
  obtain ⟨hempty, hdrained⟩ := runTasks_drained htasks
  have horigin : s''.origin = s'.drained := by
    rw [← hdrained]
    unfold ZkServiceRegister.drained
    rw [hempty]
    rfl
  refine ⟨?_, ?_⟩
  . intro service hpresent
    rw [h''.cached, horigin]
    exact h'.listed service ((hold service).mpr hpresent)
  . intro service hgone
    rw [horigin]
    apply h'.unlisted service
    rw [hold service]
    exact hgone

-- a registry with one service. Its instances cannot be read without connection.
def oneService (service : Str) (connected : Bool) : ZkView where
  present := {service}
  services := [service]
  instances := fun _ => if connected then some [] else none

theorem upToDate_of_retains_replaced
    : ∃ s s' s'' : ZkServiceRegister Nat,
        runZkEvents Ipv4.fromString [] [.init (oneService ['x'] true) []] {} = .ok () s
          ∧ handleZkEvent Ipv4.fromString [] (.serviceChild (oneService ['y'] true) true) s
            = .ok () s'
          ∧ runZkEvents Ipv4.fromString [] (List.replicate s'.mainQueue.length .runTask) s'
            = .ok () s''
          ∧ UpToDate {['y']} s'' := by
  have hreturns : returns
      (runZkEvents Ipv4.fromString [] [.init (oneService ['x'] true) []]
        ({} : ZkServiceRegister Nat))
      (fun _ s => (s.changed (oneService ['y'] true)).all
          (fun service => ((oneService ['y'] true).updateOf Ipv4.fromString service
            : Option (Fetch Nat)).isSome)
        && returns (handleZkEvent Ipv4.fromString [] (.serviceChild (oneService ['y'] true) true) s)
          (fun _ s' => returns (runZkEvents Ipv4.fromString []
            (List.replicate s'.mainQueue.length .runTask) s') (fun _ _ => true))) = true := by
    decide +kernel
  obtain ⟨_, s, hs, hp⟩ := exists_of_returns hreturns
  rw [Bool.and_eq_true, List.all_eq_true] at hp
  obtain ⟨_, s', hs', hp'⟩ := exists_of_returns hp.2
  obtain ⟨_, s'', hs'', _⟩ := exists_of_returns hp'
  refine ⟨s, s', s'', hs, hs', hs'', ?_⟩
  apply upToDate_of_retains _ hs _ hp.1 hs' hs''
  . intro _ _
    refine ⟨fun _ => ⟨?_, by simp⟩, trivial⟩
    intro service _
    left
    rfl
  . simp [oneService]

/--
A service whose first fetch has failed is remembered and never fetched again.
-/
theorem not_upToDate_failedFetch
    : ¬∀ (zk0 zk : ZkView) (listeners : List SRListener) (es : List ZkEvent)
        (s s' s'' : ZkServiceRegister Nat),
        runZkEvents Ipv4.fromString [] (.init zk0 listeners :: es) {} = .ok () s
          → (∀ service, service ∈ zk.services ↔ service ∈ zk.present)
          → (∀ service ∈ s.changed zk,
            (zk.updateOf Ipv4.fromString service : Option (Fetch Nat)).isSome = true)
          → handleZkEvent Ipv4.fromString [] (.serviceChild zk true) s = .ok () s'
          → runZkEvents Ipv4.fromString [] (List.replicate s'.mainQueue.length .runTask) s'
            = .ok () s''
          → UpToDate zk.present s'' := by
  intro h
  have hreturns : returns
      (runZkEvents Ipv4.fromString [] [.init (oneService ['x'] false) []]
        ({} : ZkServiceRegister Nat))
      (fun _ s => (s.changed (oneService ['x'] true)).isEmpty
        && returns (handleZkEvent Ipv4.fromString [] (.serviceChild (oneService ['x'] true) true) s)
          (fun _ s' => returns (runZkEvents Ipv4.fromString []
            (List.replicate s'.mainQueue.length .runTask) s')
            (fun _ s'' => (s''.servicesCache ['x']).isNone))) = true := by
    decide +kernel
  obtain ⟨_, s, hs, hp⟩ := exists_of_returns hreturns
  rw [Bool.and_eq_true, List.isEmpty_iff] at hp
  obtain ⟨_, s', hs', hp'⟩ := exists_of_returns hp.2
  obtain ⟨_, s'', hs'', hnone⟩ := exists_of_returns hp'
  have hupToDate := h (oneService ['x'] false) (oneService ['x'] true) [] [] s s' s'' hs
    (by simp [oneService]) (by simp [hp.1]) hs' hs''
  have hsome := hupToDate.1 ['x'] (by simp [oneService])
  rw [Option.isNone_iff_eq_none] at hnone
  simp [hnone] at hsome

end UpToDate
end MsgRpc
