import MsgRpc.Discovery.Ipv4
import MsgRpc.Discovery.Lemmas.InstanceInfo

/-!
This module contains how instances are registered, and the proof that they are discovered as they
have been registered.
-/

namespace MsgRpc

section NodePath

def signedDecimal (i : Int) : Str :=
  if i < 0 then '-' :: decimal i.natAbs else decimal i.natAbs

def kServicesRoot : Str := ['/', 's', 'e', 'r', 'v', 'i', 'c', 'e', 's']

def servicePath (serviceName : Str) : Str := kServicesRoot ++ '/' :: serviceName

/--
The path of the node that `create_ephemeral_node_for_service_instance` creates.
-/
def instancePath (serviceName version endPoint : Str) (clientId : Int64) : Str :=
  servicePath serviceName ++ '/' ::
    (endPoint ++ '@' :: (signedDecimal clientId.toInt ++ '#' :: version))

def childName (parent path : Str) : Option Str :=
  let name := path.drop (parent.length + 1)
  if path.take (parent.length + 1) = parent ++ ['/'] ∧ '/' ∉ name then some name else none

/--
An instance that has been registered. There is no `/` in its version.
-/
structure Registration where
  ip : Ipv4
  port : UInt16
  clientId : Int64
  version : Str
  slash_not_mem : '/' ∉ version

def Registration.endPoint (r : Registration) : Str :=
  r.ip.dotted ++ ':' :: decimal r.port.toNat

def Registration.path (r : Registration) (serviceName : Str) : Str :=
  instancePath serviceName r.version r.endPoint r.clientId

end NodePath

section Decimal

theorem head_decimal_ne {n : Nat} (hn : 0 < n) : (decimal n).head? ≠ some '0' := by
  induction n using Nat.strongRecOn with
  | ind n ih =>
    unfold decimal at ih ⊢
    rw [Nat.toDigits_eq_if (by decide)]
    split
    . next hlt =>
      interval_cases n <;> decide
    . next hge =>
      have hhead := ih (n / 10) (by omega) (by omega)
      have hne : Nat.toDigits 10 (n / 10) ≠ [] := Nat.toDigits_ne_nil
      rwa [List.head?_append_of_ne_nil _ hne]

theorem number_decimal (n : Nat) (rest : Str)
    : strtoul.number (decimal n ++ '@' :: rest) = n := by
  by_cases hn : n = 0
  . rw [hn]
    rfl
  . have hdigits : digits 10 0 (decimal n ++ '@' :: rest) = n := by
      rw [digits_decimal]
      rfl
    have hhead := head_decimal_ne (n := n) (by omega)
    cases hdecimal : decimal n with
    | nil => exact absurd hdecimal Nat.toDigits_ne_nil
    | cons d ds =>
      rw [hdecimal, List.head?_cons, Ne, Option.some.injEq] at hhead
      rw [hdecimal] at hdigits
      rw [List.cons_append] at hdigits ⊢
      unfold strtoul.number
      split
      . next heq =>
        rw [List.cons.injEq] at heq
        exact absurd heq.1 hhead
      . exact hdigits

theorem strtoul_decimal {n : Nat} (hn : n ≤ ulongMax) (rest : Str)
    : strtoul (decimal n ++ '@' :: rest) = n := by
  have hnumber := number_decimal n rest
  cases hdecimal : decimal n with
  | nil => exact absurd hdecimal Nat.toDigits_ne_nil
  | cons d ds =>
    have hdigit : d.isDigit := isDigit_of_mem_decimal (n := n) (by simp [hdecimal])
    have hspace : isSpace d = false := by
      have hbounds := toNat_of_isDigit hdigit
      unfold isSpace
      rw [decide_eq_false_iff_not]
      rintro (heq | hcontrol)
      . rw [heq] at hdigit
        contradiction
      . omega
    rw [hdecimal, List.cons_append] at hnumber
    unfold strtoul
    rw [List.cons_append, List.dropWhile_cons_of_neg (by simp [hspace])]
    split
    . next heq =>
      rw [List.cons.injEq] at heq
      rw [heq.1] at hdigit
      contradiction
    . next heq =>
      rw [List.cons.injEq] at heq
      rw [heq.1] at hdigit
      contradiction
    . rw [hnumber, Nat.min_eq_left hn]

end Decimal

section Read

theorem mem_signedDecimal {i : Int} {c : Char} (h : c ∈ signedDecimal i) : c.isDigit ∨ c = '-' := by
  unfold signedDecimal at h
  have hdigit : ∀ n, c ∈ decimal n → c.isDigit := fun n hc => isDigit_of_mem_decimal hc
  split at h
  . rw [List.mem_cons] at h
    grind
  . exact Or.inl (hdigit _ h)

namespace Registration

def name (r : Registration) : Str :=
  r.endPoint ++ '@' :: (signedDecimal r.clientId.toInt ++ '#' :: r.version)

theorem mem_endPoint {r : Registration} {c : Char} (h : c ∈ r.endPoint)
    : c.isDigit ∨ c = '.' ∨ c = ':' := by
  unfold endPoint at h
  rw [List.mem_append, List.mem_cons] at h
  rcases h with hip | hcolon | hport
  . rcases Ipv4.mem_dotted hip with hdigit | hdot
    . exact Or.inl hdigit
    . exact Or.inr (Or.inl hdot)
  . exact Or.inr (Or.inr hcolon)
  . exact Or.inl (isDigit_of_mem_decimal hport)

theorem slash_not_mem_name (r : Registration) : '/' ∉ r.name := by
  unfold name
  simp only [List.mem_append, List.mem_cons, not_or]
  refine ⟨?_, by decide, ?_, by decide, r.slash_not_mem⟩
  . intro hmem
    have := mem_endPoint hmem
    revert this
    decide
  . intro hmem
    have := mem_signedDecimal hmem
    revert this
    decide

theorem childName_path (r : Registration) (serviceName : Str)
    : childName (servicePath serviceName) (r.path serviceName) = some r.name := by
  have hpath : r.path serviceName = (servicePath serviceName ++ ['/']) ++ r.name := by
    simp [path, instancePath, name]
  have hlength : (servicePath serviceName).length + 1 = (servicePath serviceName ++ ['/']).length := by
    simp
  unfold childName
  rw [hpath, hlength, List.take_left, List.drop_left]
  simp [r.slash_not_mem_name]

theorem serviceVersionOf_name (r : Registration) : serviceVersionOf r.name = r.version := by
  have hfront : ∀ c ∈ r.endPoint ++ '@' :: signedDecimal r.clientId.toInt, c ≠ '#' := by
    intro c hc heq
    subst heq
    rw [List.mem_append, List.mem_cons] at hc
    rcases hc with hendPoint | hat | hid
    . have := mem_endPoint hendPoint
      revert this
      decide
    . revert hat
      decide
    . have := mem_signedDecimal hid
      revert this
      decide
  have hname : r.name
      = (r.endPoint ++ '@' :: signedDecimal r.clientId.toInt) ++ '#' :: r.version := by
    simp [name]
  unfold serviceVersionOf
  rw [hname, List.dropWhile_append_of_pos (by simpa using hfront)]
  simp

variable {Address : Type}

def info (ofIpv4 : Ipv4 → Address) (r : Registration) : InstanceInfo Address :=
  ⟨⟨ofIpv4 r.ip, r.port⟩, r.version⟩

/--
`from_string` parses the dotted form of every address.
-/
structure ParsesDotted (fromString : Str → Option Address) (ofIpv4 : Ipv4 → Address) : Prop where
  parses : ∀ ip : Ipv4, fromString ip.dotted = some (ofIpv4 ip)
  injective : Function.Injective ofIpv4

variable {fromString : Str → Option Address} {ofIpv4 : Ipv4 → Address}

theorem strToServiceId_name (h : ParsesDotted fromString ofIpv4) (r : Registration)
    : strToServiceId fromString r.name = .ok (some ⟨ofIpv4 r.ip, r.port⟩) := by
  have hname : r.name = r.ip.dotted ++ ':' :: (decimal r.port.toNat
      ++ '@' :: (signedDecimal r.clientId.toInt ++ '#' :: r.version)) := by
    simp [name, endPoint]
  have hcolon : ∀ c ∈ r.ip.dotted, decide (c ≠ ':') = true := by
    intro c hc
    rw [decide_eq_true_eq]
    intro heq
    subst heq
    have := Ipv4.mem_dotted hc
    revert this
    decide
  have hport : r.port.toNat ≤ ulongMax := by
    have := r.port.toNat_lt
    unfold ulongMax
    omega
  unfold strToServiceId
  rw [hname, List.dropWhile_append_of_pos hcolon, List.takeWhile_append_of_pos hcolon]
  simp [h.parses, strtoul_decimal hport]

variable [LinearOrder Address]

theorem readInstance_name (h : ParsesDotted fromString ofIpv4) (r : Registration)
    : readInstance fromString r.name = some (r.info ofIpv4) := by
  unfold readInstance
  rw [strToServiceId_name h, serviceVersionOf_name]
  rfl

theorem not_raises_name (h : ParsesDotted fromString ofIpv4) (r : Registration)
    : ¬Raises fromString r.name := by
  intro hraises
  have herror := strToServiceId_of_raises hraises
  rw [strToServiceId_name h] at herror
  contradiction

/--
Instances with distinct endpoints are discovered as they have been registered, in whichever order
their nodes are listed.
-/
theorem discovered_as_registered (h : ParsesDotted fromString ofIpv4) (serviceName : Str)
    {registrations : List Registration}
    (hdistinct : (registrations.map fun r => (r.ip, r.port)).Nodup) {names : List Str}
    (hnames : names.Perm (registrations.filterMap fun r =>
      childName (servicePath serviceName) (r.path serviceName)))
    : ∃ iv, stringsToInstances fromString names = .ok iv
        ∧ iv.Perm (registrations.map (info ofIpv4))
        ∧ iv.Pairwise fun a b => a.serviceId.lt b.serviceId := by
  simp only [childName_path, List.filterMap_eq_map'] at hnames
  have hraises : ∀ si ∈ names, ¬Raises fromString si := by
    intro si hsi
    obtain ⟨r, _, hr⟩ := List.mem_map.mp (hnames.subset hsi)
    rw [← hr]
    exact not_raises_name h r
  have hread : (readInstances fromString names).Perm (registrations.map (info ofIpv4)) := by
    have hperm := hnames.filterMap (readInstance fromString)
    rw [List.filterMap_map] at hperm
    have hinfo : readInstance fromString ∘ name = some ∘ info ofIpv4 :=
      funext fun r => readInstance_name h r
    rw [hinfo, List.filterMap_eq_map] at hperm
    exact hperm
  have hkeys : ((readInstances fromString names).map InstanceInfo.key).Nodup := by
    apply (hread.map InstanceInfo.key).nodup_iff.mpr
    rw [List.map_map]
    have hpair : InstanceInfo.key ∘ info ofIpv4
        = (fun p : Ipv4 × UInt16 => Endpoint.key ⟨ofIpv4 p.1, p.2⟩) ∘ fun r => (r.ip, r.port) := rfl
    rw [hpair, ← List.map_map]
    apply hdistinct.map
    intro p q hpq
    have hendpoint := Endpoint.key_injective hpq
    rw [Endpoint.mk.injEq] at hendpoint
    exact Prod.ext (h.injective hendpoint.1) hendpoint.2
  refine ⟨_, stringsToInstances_of_not_raises hraises, (FirstWins.perm_ofList hkeys).trans hread, ?_⟩
  apply (FirstWins.sorted_ofList _).imp
  intro a b hlt
  exact Endpoint.lt_iff.mpr hlt

end Registration

end Read

section Example

-- a negative session, a version with the characters that separate the parts of a name, and a
-- second instance on the same host
def twoRegistrations : List Registration := [
  ⟨⟨10, 0, 0, 1⟩, 8080, -5, ['#', ':', '@'], by decide⟩,
  ⟨⟨10, 0, 0, 1⟩, 0, 7, [], by decide⟩]

theorem Registration.discovered_as_registered_two
    : ∃ iv, stringsToInstances Ipv4.fromString (twoRegistrations.map name) = .ok iv
        ∧ iv.Perm (twoRegistrations.map (info Ipv4.toUlong))
        ∧ iv.Pairwise fun a b => a.serviceId.lt b.serviceId := by
  have hnames : (twoRegistrations.map name).Perm (twoRegistrations.filterMap fun r =>
      childName (servicePath ['x']) (r.path ['x'])) := by
    simp only [childName_path, List.filterMap_eq_map']
    exact .refl _
  have hparses : ParsesDotted Ipv4.fromString Ipv4.toUlong :=
    ⟨Ipv4.fromString_dotted, Ipv4.toUlong_injective⟩
  exact discovered_as_registered hparses ['x'] (by decide) hnames

end Example
end MsgRpc
