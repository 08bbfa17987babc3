import MsgRpc.Discovery.InstanceInfo
import MsgRpc.Lib.SetDifference
import MsgRpc.Lib.Wp

/-!
This module contains the service registry on top of ZooKeeper: the cache of instances, the listeners
and the watchers that keep the cache up to date from the thread of the ZooKeeper client.
-/

namespace MsgRpc

structure SRListener where
  ptr : Nat
  serviceToListener : Str
  deriving DecidableEq, Repr

/--
The instances of a service as they have been read from ZooKeeper. `present` tells whether the
service was there at that time.
-/
structure Fetch (Address : Type) where
  service : Str
  instances : InstanceVector Address
  present : Bool
  deriving DecidableEq, Repr

structure ChangeNote (Address : Type) where
  listener : SRListener
  service : Str
  instances : InstanceVector Address
  deriving DecidableEq, Repr

/--
What there is while an event is handled: the services under the root, the children that are read of
the root and of a service, which is `none` without connection, and whether the main queue takes the
update of a service.
-/
structure ZkView where
  connected : Bool := true
  present : Finset Str
  services : List Str
  instances : Str → Option (List Str)
  scheduled : Str → Bool := fun _ => true

/--
`origin`, `fetches` and `notes` say where the cached lists come from, what has been read from
ZooKeeper and what listeners have been told so far. A task in the main queue is an update of the
cache.
-/
structure ZkServiceRegister (Address : Type) where
  listenersMap : Str → List SRListener := fun _ => []
  roundRobinMap : Str → UInt64 := fun _ => 0
  servicesCache : Str → Option (InstanceVector Address) := fun _ => none
  oldServices : List Str := []
  mainQueue : List (Fetch Address) := []
  origin : Str → Option (Fetch Address) := fun _ => none
  fetches : List (Fetch Address) := []
  notes : List (ChangeNote Address) := []

abbrev ZkM (Address : Type) := EStateM ZkFault (ZkServiceRegister Address)

abbrev ServiceFilter (Address : Type) := Str → InstanceVector Address → InstanceVector Address

def applyFilters {Address : Type} (filters : List (ServiceFilter Address)) (service : Str)
    (iv : InstanceVector Address) : InstanceVector Address :=
  filters.foldl (fun iv filter => filter service iv) iv

namespace ZkServiceRegister

variable {Address : Type}

def cacheEntry (s : ZkServiceRegister Address) (fetch : Fetch Address)
    (iv : InstanceVector Address) : ZkServiceRegister Address :=
  { s with
    servicesCache := Function.update s.servicesCache fetch.service (some iv)
    origin := Function.update s.origin fetch.service (some fetch)
  }

def note (s : ZkServiceRegister Address) (listeners : List SRListener) (service : Str)
    (iv : InstanceVector Address) : ZkServiceRegister Address :=
  { s with notes := s.notes ++ listeners.map fun l => ⟨l, service, iv⟩ }

def recordFetch (s : ZkServiceRegister Address) (fetch : Fetch Address)
    : ZkServiceRegister Address :=
  { s with fetches := s.fetches ++ [fetch] }

def post (s : ZkServiceRegister Address) (fetch : Fetch Address) : ZkServiceRegister Address :=
  { s with mainQueue := s.mainQueue ++ [fetch] }

section Listeners

def doNotifyListeners (serviceName : Str) (iv : InstanceVector Address) : ZkM Address Unit :=
  modify fun s => s.note (s.listenersMap serviceName) serviceName iv

def insertListener (set : List SRListener) (listener : SRListener) : List SRListener :=
  match set with
  | [] => [listener]
  | l :: ls =>
    if listener.ptr < l.ptr then listener :: l :: ls
    else if l.ptr < listener.ptr then l :: insertListener ls listener
    else l :: ls

def registerListener (listener : SRListener) : ZkM Address Unit := do
  let serviceName := listener.serviceToListener
  modify fun s =>
    let listeners := insertListener (s.listenersMap serviceName) listener
    { s with listenersMap := Function.update s.listenersMap serviceName listeners }
  let s ← get
  match s.servicesCache serviceName with
  | some iv => doNotifyListeners serviceName iv
  | none => pure ()

def registerListeners (listeners : List SRListener) : ZkM Address Unit :=
  match listeners with
  | [] => pure ()
  | listener :: listeners => do
    registerListener listener
    registerListeners listeners

def unregisterListener (listener : SRListener) : ZkM Address Unit :=
  modify fun s =>
    let listeners := (s.listenersMap listener.serviceToListener).filter (·.ptr ≠ listener.ptr)
    { s with listenersMap := Function.update s.listenersMap listener.serviceToListener listeners }

end Listeners

def serviceNameToId (serviceName : Str) : ZkM Address (Option (Endpoint Address)) := do
  let s ← get
  match s.servicesCache serviceName with
  | none => return none
  | some [] => return none
  | some [i] => return some i.serviceId
  | some instances =>
    let nextRrIndex := s.roundRobinMap serviceName
    set { s with
      roundRobinMap := Function.update s.roundRobinMap serviceName (nextRrIndex + 1) }
    return (instances[nextRrIndex.toNat % instances.length]?).map (·.serviceId)

section Fetch

variable [LinearOrder Address] (fromString : Str → Option Address) (zk : ZkView)

def fetchServiceInstancesFromZk (service : Str) : ZkM Address (Option (Fetch Address)) :=
  match zk.instances service with
  | none => return none
  | some instanceStrings =>
    match stringsToInstances fromString instanceStrings with
    | .error e => throw e
    | .ok instances => do
      let fetch : Fetch Address := ⟨service, instances, decide (service ∈ zk.present)⟩
      modify (·.recordFetch fetch)
      return some fetch

def fetchAndUpdateInstances (serviceName : Str) : ZkM Address Unit := do
  match ← fetchServiceInstancesFromZk fromString zk serviceName with
  | some fetch => if zk.scheduled serviceName then modify (·.post fetch) else pure ()
  | none => pure ()

def fetchAndUpdateAll (services : List Str) : ZkM Address Unit :=
  match services with
  | [] => pure ()
  | service :: services => do
    fetchAndUpdateInstances fromString zk service
    fetchAndUpdateAll services

def changedServices (services oldServices : List Str) : List Str :=
  SortedList.setDifference services oldServices ++ SortedList.setDifference oldServices services

def serviceChildWatcherFn (isChildEvent : Bool) : ZkM Address Unit :=
  if isChildEvent then do
    let services := zk.services.insertionSort (· ≤ ·)
    let s ← get
    fetchAndUpdateAll fromString zk (changedServices services s.oldServices)
    modify ({ · with oldServices := services })
  else
    pure ()

/--
`serviceName` is what comes behind the root in the path.
-/
def instanceChildWatcherFn (isChildEvent : Bool) (serviceName : Str) : ZkM Address Unit :=
  if isChildEvent then
    if serviceName = [] then throw .assertion
    else fetchAndUpdateInstances fromString zk serviceName
  else
    pure ()

def runTask : ZkM Address Unit := do
  let s ← get
  match s.mainQueue with
  | [] => pure ()
  | fetch :: queue =>
    set { s.cacheEntry fetch fetch.instances with mainQueue := queue }
    doNotifyListeners fetch.service fetch.instances

variable (filters : List (ServiceFilter Address))

def fetchAndCacheAll (latestServices : List Str) : ZkM Address Unit :=
  match latestServices with
  | [] => pure ()
  | service :: services => do
    match ← fetchServiceInstancesFromZk fromString zk service with
    | some fetch =>
      let iv := applyFilters filters service fetch.instances
      modify (·.cacheEntry fetch iv)
      doNotifyListeners service iv
    | none => pure ()
    fetchAndCacheAll services

def tryFetchServicesFromZk : ZkM Address Bool := do
  if zk.connected then
    modify ({ · with oldServices := zk.services.insertionSort (· ≤ ·) })
    fetchAndCacheAll fromString zk filters zk.services
    return true
  else
    return false

/--
`listeners` have been collected before. The wait for the connection is over.
-/
def init (listeners : List SRListener) : ZkM Address Bool := do
  registerListeners listeners
  tryFetchServicesFromZk fromString zk filters

end Fetch

end ZkServiceRegister

/--
What makes the registry run: calls of its interface, watch notifications and the main queue.
-/
inductive ZkEvent where
  | init (zk : ZkView) (listeners : List SRListener)
  | registerListener (listener : SRListener)
  | unregisterListener (listener : SRListener)
  | serviceNameToId (serviceName : Str)
  | serviceChild (zk : ZkView) (isChildEvent : Bool)
  | instanceChild (zk : ZkView) (isChildEvent : Bool) (serviceName : Str)
  | runTask

section Run

variable {Address : Type} [LinearOrder Address] (fromString : Str → Option Address)
variable (filters : List (ServiceFilter Address))

def handleZkEvent (e : ZkEvent) : ZkM Address Unit :=
  match e with
  | .init zk listeners => do
    let _ ← ZkServiceRegister.init fromString zk filters listeners
  | .registerListener listener => ZkServiceRegister.registerListener listener
  | .unregisterListener listener => ZkServiceRegister.unregisterListener listener
  | .serviceNameToId serviceName => do
    let _ ← ZkServiceRegister.serviceNameToId serviceName
  | .serviceChild zk isChildEvent =>
    ZkServiceRegister.serviceChildWatcherFn fromString zk isChildEvent
  | .instanceChild zk isChildEvent serviceName =>
    ZkServiceRegister.instanceChildWatcherFn fromString zk isChildEvent serviceName
  | .runTask => ZkServiceRegister.runTask

def runZkEvents (es : List ZkEvent) : ZkM Address Unit :=
  match es with
  | [] => pure ()
  | e :: es => do
    handleZkEvent fromString filters e
    runZkEvents es

end Run
end MsgRpc
