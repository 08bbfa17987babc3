import MsgRpc.Discovery.Lemmas.ZkServiceRegister
import MsgRpc.Lib.RoundRobin

/-!
This module contains the proof that lookups share out the instances of a service evenly.
-/

namespace MsgRpc

open StateProg

variable {Address : Type}

/--
What a lookup has been answered, the instances that were cached and the place among them its turn
was at.
-/
structure Lookup (Address : Type) where
  service : Str
  instances : InstanceVector Address
  place : Nat
  result : Option (Endpoint Address)

namespace ZkServiceRegister

def instancesOf (s : ZkServiceRegister Address) (serviceName : Str) : InstanceVector Address :=
  (s.servicesCache serviceName).getD []

def place (s : ZkServiceRegister Address) (serviceName : Str) : Nat :=
  (s.roundRobinMap serviceName).toNat % (s.instancesOf serviceName).length

-- a single instance leaves the counter alone
def nextTurn (s : ZkServiceRegister Address) (serviceName : Str) : ZkServiceRegister Address :=
  if 2 ≤ (s.instancesOf serviceName).length then
    { s with
      roundRobinMap := Function.update s.roundRobinMap serviceName
        (s.roundRobinMap serviceName + 1) }
  else
    s

theorem wp_serviceNameToId (s : ZkServiceRegister Address) (serviceName : Str)
    : wp (serviceNameToId serviceName)
        (fun r s' => r = ((s.instancesOf serviceName)[s.place serviceName]?).map (·.serviceId)
          ∧ s' = s.nextTurn serviceName)
        (fun _ _ => False) s := by
  unfold serviceNameToId place nextTurn instancesOf
  simp only [wp_bind, wp_get]
  cases s.servicesCache serviceName with
  | none => simp
  | some instances =>
    cases instances with
    | nil => simp
    | cons i rest =>
      cases rest with
      | nil => simp [Nat.mod_one]
      | cons j rest =>
        refine ⟨rfl, ?_⟩
        rw [if_pos (by simp)]

end ZkServiceRegister

section Lookups

variable [LinearOrder Address] (fromString : Str → Option Address)
variable (filters : List (ServiceFilter Address))

/--
The lookups among all that happens between two states.
-/
inductive Lookups : ZkServiceRegister Address → List (Lookup Address) → ZkServiceRegister Address
    → Prop
  | nil (s : ZkServiceRegister Address) : Lookups s [] s
  | lookup {s s1 s' : ZkServiceRegister Address} {serviceName : Str}
      {result : Option (Endpoint Address)} {lookups : List (Lookup Address)} :
      ZkServiceRegister.serviceNameToId serviceName s = .ok result s1 → Lookups s1 lookups s'
      → Lookups s (⟨serviceName, s.instancesOf serviceName, s.place serviceName, result⟩ :: lookups)
        s'
  | other {s s1 s' : ZkServiceRegister Address} {e : ZkEvent} {lookups : List (Lookup Address)} :
      (∀ serviceName, e ≠ .serviceNameToId serviceName)
      → Ends (handleZkEvent fromString filters e) s s1 → Lookups s1 lookups s'
      → Lookups s lookups s'

end Lookups

structure Lookup.Answered (lookup : Lookup Address) : Prop where
  none_iff : lookup.result = none ↔ lookup.instances = []
  mem : ∀ id, lookup.result = some id → ∃ i ∈ lookup.instances, i.serviceId = id
  turn : lookup.result = (lookup.instances[lookup.place]?).map (·.serviceId)

theorem Lookup.Answered.of_turn {lookup : Lookup Address} (count : Nat)
    (hplace : lookup.place = count % lookup.instances.length)
    (hturn : lookup.result = (lookup.instances[lookup.place]?).map (·.serviceId))
    : lookup.Answered := by
  refine ⟨?_, ?_, hturn⟩
  . rw [hturn, Option.map_eq_none_iff, List.getElem?_eq_none_iff, hplace]
    constructor
    . intro hle
      by_contra hne
      have := Nat.mod_lt count (List.length_pos_iff.mpr hne)
      omega
    . intro hnil
      simp [hnil]
  . intro id hid
    rw [hturn] at hid
    obtain ⟨i, hi, heq⟩ := Option.map_eq_some_iff.mp hid
    exact ⟨i, List.mem_of_getElem? hi, heq⟩

namespace Lookups

open RoundRobin

variable [LinearOrder Address] {fromString : Str → Option Address}
variable {filters : List (ServiceFilter Address)}
variable {s s' : ZkServiceRegister Address} {lookups : List (Lookup Address)}

theorem answered (h : Lookups fromString filters s lookups s')
    : ∀ lookup ∈ lookups, lookup.Answered := by
  induction h with
  | nil s => simp
  | @lookup s s1 s' serviceName result lookups hrun _ ih =>
    intro l hl
    cases List.mem_cons.mp hl with
    | inl hfirst =>
      rw [hfirst]
      have hanswer := wp_of_ok (s.wp_serviceNameToId serviceName) hrun
      exact .of_turn (s.roundRobinMap serviceName).toNat rfl hanswer.1
    | inr hrest => exact ih l hrest
  | other _ _ _ ih => exact ih

theorem roundRobinMap_other {s s1 : ZkServiceRegister Address} {e : ZkEvent}
    (he : ∀ serviceName, e ≠ .serviceNameToId serviceName)
    (hends : Ends (handleZkEvent fromString filters e) s s1)
    : s1.roundRobinMap = s.roundRobinMap := by
  have hI : ZkInvariant fun s1 : ZkServiceRegister Address => s1.roundRobinMap = s.roundRobinMap := by
    refine ⟨?_, ?_, ?_, ?_⟩
    . intro s1 s2 h1 _ hrr _ _
      rw [hrr, h1]
    . intro s1 listener h1
      unfold ZkServiceRegister.registerListener ZkServiceRegister.doNotifyListeners
      simp only [wp_bind, wp_modify, wp_get]
      split <;> exact h1
    . intro s1 listener h1
      exact h1
    . intro s1 fetch iv h1
      exact h1
  apply wp_of_ends _ hends
  apply hI.handleZkEvent e _ rfl
  intro serviceName heq
  exact absurd heq (he serviceName)

def Counted (count : Nat) (s : ZkServiceRegister Address) : Prop :=
  ∀ serviceName, (s.roundRobinMap serviceName).toNat ≤ count

theorem Counted.nextTurn {count : Nat} (h : Counted count s) (hcount : count + 1 < 2 ^ 64)
    (serviceName : Str)
    : Counted (count + 1) (s.nextTurn serviceName) := by
  intro service
  have hservice := h service
  unfold ZkServiceRegister.nextTurn
  split
  . by_cases heq : service = serviceName
    . subst heq
      simp only [Function.update_self, UInt64.toNat_add, UInt64.toNat_one]
      omega
    . simp only [Function.update_of_ne heq]
      omega
  . omega

theorem counted {count : Nat} (h : Lookups fromString filters s lookups s') (hs : Counted count s)
    (hcount : count + lookups.length < 2 ^ 64)
    : Counted (count + lookups.length) s' := by
  induction h generalizing count with
  | nil s => exact hs
  | @lookup s s1 s' serviceName result lookups hrun _ ih =>
    rw [List.length_cons] at hcount
    have hanswer := wp_of_ok (s.wp_serviceNameToId serviceName) hrun
    have hnext := hs.nextTurn (by omega) serviceName
    rw [← hanswer.2] at hnext
    have hrest := ih hnext (by omega)
    rwa [Nat.add_assoc, Nat.add_comm 1] at hrest
  | other he hends _ ih =>
    apply ih _ hcount
    intro serviceName
    rw [roundRobinMap_other he hends]
    exact hs serviceName

/--
Where the lookups of a service were, as long as it has the same list.
-/
def places (serviceName : Str) (lookups : List (Lookup Address)) : List Nat :=
  (lookups.filter (·.service = serviceName)).map (·.place)

-- they are turns in a row, there may be others in between
theorem places_eq_turns {count : Nat} {serviceName : Str} {iv : InstanceVector Address}
    (h : Lookups fromString filters s lookups s') (hs : Counted count s)
    (hcount : count + lookups.length < 2 ^ 64)
    (hiv : ∀ lookup ∈ lookups, lookup.service = serviceName → lookup.instances = iv)
    (hlength : 2 ≤ iv.length)
    : places serviceName lookups
      = turns iv.length (s.roundRobinMap serviceName).toNat (places serviceName lookups).length := by
  induction h generalizing count with
  | nil s => rfl
  | @lookup s s1 s' service result lookups hrun _ ih =>
    rw [List.length_cons] at hcount
    have hanswer := wp_of_ok (s.wp_serviceNameToId service) hrun
    have hnext := hs.nextTurn (by omega) service
    rw [← hanswer.2] at hnext
    have hrest := ih hnext (by omega) (fun l hl => hiv l (List.mem_cons_of_mem _ hl))
    by_cases heq : service = serviceName
    . subst heq
      have hinstances : s.instancesOf service = iv := hiv _ List.mem_cons_self rfl
      have hcounter : (s1.roundRobinMap service).toNat = (s.roundRobinMap service).toNat + 1 := by
        have hle := hs service
        rw [hanswer.2, ZkServiceRegister.nextTurn, if_pos (by rw [hinstances]; exact hlength)]
        simp only [Function.update_self, UInt64.toNat_add, UInt64.toNat_one]
        omega
      rw [hcounter] at hrest
      have hplaces : places service (⟨service, s.instancesOf service, s.place service, result⟩
          :: lookups) = s.place service :: places service lookups := by
        simp [places]
      rw [hplaces, List.length_cons, turns_succ, ← hrest, ZkServiceRegister.place, hinstances]
    . have hcounter : s1.roundRobinMap serviceName = s.roundRobinMap serviceName := by
        rw [hanswer.2, ZkServiceRegister.nextTurn]
        split
        . exact Function.update_of_ne (Ne.symm heq) _ _
        . rfl
      rw [hcounter] at hrest
      have hplaces : places serviceName (⟨service, s.instancesOf service, s.place service, result⟩
          :: lookups) = places serviceName lookups := by
        simp [places, heq]
      rw [hplaces, ← hrest]
  | other he hends _ ih =>
    have hsame := roundRobinMap_other he hends
    rw [← hsame]
    apply ih _ hcount hiv
    intro service
    rw [hsame]
    exact hs service

theorem places_of_single {serviceName : Str} {i : InstanceInfo Address}
    (h : Lookups fromString filters s lookups s')
    (hiv : ∀ lookup ∈ lookups, lookup.service = serviceName → lookup.instances = [i])
    : places serviceName lookups = turns 1 0 (places serviceName lookups).length := by
  rw [turns_one]
  apply List.eq_replicate_length.mpr
  intro p hp
  obtain ⟨l, hl, hplace⟩ := List.mem_map.mp hp
  obtain ⟨hmem, hservice⟩ := List.mem_filter.mp hl
  have hinstances := hiv l hmem (by simpa using hservice)
  have hl := h.answered l hmem
  by_contra hne
  have hnone : l.result = none := by
    rw [hl.turn, hinstances, Option.map_eq_none_iff, List.getElem?_eq_none_iff,
      List.length_singleton]
    omega
  rw [hl.none_iff, hinstances] at hnone
  simp at hnone

theorem count_places {count p : Nat} {serviceName : Str} {iv : InstanceVector Address}
    (h : Lookups fromString filters s lookups s') (hs : Counted count s)
    (hcount : count + lookups.length < 2 ^ 64)
    (hiv : ∀ lookup ∈ lookups, lookup.service = serviceName → lookup.instances = iv)
    (hp : p < iv.length)
    : (places serviceName lookups).count p = (places serviceName lookups).length / iv.length
      ∨ (places serviceName lookups).count p
        = (places serviceName lookups).length ⌈/⌉ iv.length := by
  have hturns : ∃ c, places serviceName lookups
      = turns iv.length c (places serviceName lookups).length := by
    match iv with
    | [] => simp at hp
    | [i] => exact ⟨0, h.places_of_single hiv⟩
    | i :: j :: rest => exact ⟨_, h.places_eq_turns hs hcount hiv (by simp)⟩
  obtain ⟨c, hc⟩ := hturns
  rw [hc, length_turns]
  exact count_turns hp c _

/--
Every lookup is answered out of the list that is cached at that time. As long as a service has the
same list `iv`, its lookups are at each place of it equally often, rounded down or up.
-/
theorem answered_and_fair {before : List (Lookup Address)}
    (hs : Lookups fromString filters {} before s) (hs' : Lookups fromString filters s lookups s')
    (hcount : before.length + lookups.length < 2 ^ 64)
    : (∀ serviceName, ∃ result s1,
        ZkServiceRegister.serviceNameToId serviceName s = .ok result s1)
      ∧ (∀ lookup ∈ lookups, lookup.Answered)
      ∧ ∀ serviceName iv,
        (∀ lookup ∈ lookups, lookup.service = serviceName → lookup.instances = iv)
        → ∀ p < iv.length,
          (places serviceName lookups).count p = (places serviceName lookups).length / iv.length
          ∨ (places serviceName lookups).count p
            = (places serviceName lookups).length ⌈/⌉ iv.length := by
  have hinit : Counted 0 ({} : ZkServiceRegister Address) := by
    intro serviceName
    rfl
  have hcounted := hs.counted hinit (by omega)
  rw [Nat.zero_add] at hcounted
  refine ⟨?_, hs'.answered, ?_⟩
  . intro serviceName
    obtain ⟨result, s1, hrun, _⟩ := exists_of_wp (s.wp_serviceNameToId serviceName)
    exact ⟨result, s1, hrun⟩
  . intro serviceName iv hiv p hp
    exact hs'.count_places hcounted hcount hiv hp

theorem answered_and_fair_two
    : ∃ (s s' : ZkServiceRegister Nat) (lookups : List (Lookup Nat)),
        Lookups Ipv4.fromString [] s lookups s' ∧ (∀ lookup ∈ lookups, lookup.Answered)
          ∧ (places ['x'] lookups).count 0 = 1 ∧ (places ['x'] lookups).count 1 = 1 := by
  have hrun : returns
      (handleZkEvent Ipv4.fromString [] (.init twoInstances []) ({} : ZkServiceRegister Nat))
      (fun _ s => (s.instancesOf ['x']).length = 2) = true := by
    decide +kernel
  obtain ⟨_, s, hs, hlength⟩ := exists_of_returns hrun
  rw [decide_eq_true_eq] at hlength
  obtain ⟨r1, s1, hrun1, _, hs1⟩ := exists_of_wp (s.wp_serviceNameToId ['x'])
  obtain ⟨r2, s2, hrun2, _⟩ := exists_of_wp (s1.wp_serviceNameToId ['x'])
  have hbefore : Lookups Ipv4.fromString [] {} [] s :=
    .other (by simp) (Or.inl ⟨(), hs⟩) (.nil s)
  have hlookups : Lookups Ipv4.fromString [] s _ s2 := .lookup hrun1 (.lookup hrun2 (.nil s2))
  have hsame : s1.instancesOf ['x'] = s.instancesOf ['x'] := by
    rw [hs1, ZkServiceRegister.nextTurn]
    split <;> rfl
  have hfair := answered_and_fair hbefore hlookups (by simp)
  have hcount := hfair.2.2 ['x'] (s.instancesOf ['x']) (by simp [hsame])
  rw [hlength] at hcount
  refine ⟨s, s2, _, hlookups, hfair.2.1, ?_, ?_⟩
  . simpa [places, Nat.ceilDiv_eq_add_pred_div] using hcount 0 (by omega)
  . simpa [places, Nat.ceilDiv_eq_add_pred_div] using hcount 1 (by omega)

end Lookups
end MsgRpc
