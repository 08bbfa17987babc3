import MsgRpc.Discovery.InstanceInfo
import MsgRpc.Lib.FirstWins

/-!
This module contains what is read from a list of node names: either one of them raises, or the first
one of each endpoint makes an instance.
-/

namespace MsgRpc

variable {Address : Type}

section Read

variable (fromString : Str → Option Address)

-- the text before the first `:` is no address
def Raises (si : Str) : Prop :=
  ':' ∈ si ∧ fromString (si.takeWhile (· ≠ ':')) = none

instance (si : Str) : Decidable (Raises fromString si) :=
  inferInstanceAs (Decidable (_ ∧ _))

def readInstance (si : Str) : Option (InstanceInfo Address) :=
  match strToServiceId fromString si with
  | .ok (some serviceId) => some ⟨serviceId, serviceVersionOf si⟩
  | _ => none

def readInstances (instanceStrings : List Str) : List (InstanceInfo Address) :=
  instanceStrings.filterMap (readInstance fromString)

variable {fromString}

theorem strToServiceId_of_raises {si : Str} (h : Raises fromString si)
    : strToServiceId fromString si = .error .systemError := by
  obtain ⟨hcolon, hnone⟩ := h
  unfold strToServiceId
  split
  . next hnil =>
    rw [List.dropWhile_eq_nil_iff] at hnil
    simpa using hnil ':' hcolon
  . rw [hnone]

theorem strToServiceId_of_not_raises {si : Str} (h : ¬Raises fromString si)
    : ∃ r, strToServiceId fromString si = .ok r := by
  unfold strToServiceId
  split
  . exact ⟨none, rfl⟩
  . next c rest hrest =>
    have hcolon : ':' ∈ si := by
      by_contra hnot
      have hnil : si.dropWhile (· ≠ ':') = [] := by
        rw [List.dropWhile_eq_nil_iff]
        intro x hx
        simp only [ne_eq, decide_not, Bool.not_eq_true', decide_eq_false_iff_not]
        intro heq
        exact hnot (heq ▸ hx)
      rw [hnil] at hrest
      contradiction
    cases haddress : fromString (si.takeWhile (· ≠ ':')) with
    | some address => exact ⟨_, rfl⟩
    | none => exact absurd ⟨hcolon, haddress⟩ h

end Read

variable [LinearOrder Address]

def Endpoint.key (endpoint : Endpoint Address) : Address ×ₗ Nat :=
  toLex (endpoint.address, endpoint.port.toNat)

theorem Endpoint.key_injective : Function.Injective (@Endpoint.key Address) := by
  intro a b h
  have hpair : (a.address, a.port.toNat) = (b.address, b.port.toNat) := toLex_inj.mp h
  rw [Prod.mk.injEq, UInt16.toNat_inj] at hpair
  cases a
  cases b
  simpa using hpair

theorem Endpoint.lt_iff {a b : Endpoint Address} : a.lt b = true ↔ a.key < b.key := by
  unfold Endpoint.lt Endpoint.key
  rw [decide_eq_true_iff, Prod.Lex.toLex_lt_toLex, UInt16.lt_iff_toNat_lt]

-- `instance_info_compare` looks at nothing else
def InstanceInfo.key (ii : InstanceInfo Address) : Address ×ₗ Nat :=
  ii.serviceId.key

theorem insertInstance_eq (set : InstanceVector Address) (ii : InstanceInfo Address)
    : insertInstance set ii = FirstWins.insert InstanceInfo.key set ii := by
  induction set with
  | nil => rfl
  | cons x xs ih =>
    unfold insertInstance FirstWins.insert
    rw [ih]
    simp only [Endpoint.lt_iff, InstanceInfo.key]
    by_cases hlt : ii.serviceId.key < x.serviceId.key
    . simp [hlt]
    . by_cases hgt : x.serviceId.key < ii.serviceId.key <;> simp [hlt, hgt]

section Listing

variable {fromString : Str → Option Address}

theorem stringsToInstances_of_raises {instanceStrings : List Str}
    (h : ∃ si ∈ instanceStrings, Raises fromString si)
    : stringsToInstances fromString instanceStrings = .error .systemError := by
  unfold stringsToInstances
  generalize ([] : InstanceVector Address) = set
  obtain ⟨si, hsi, hraises⟩ := h
  induction instanceStrings generalizing set with
  | nil => simp at hsi
  | cons x rest ih =>
    unfold stringsToInstances.go
    by_cases hx : Raises fromString x
    . rw [strToServiceId_of_raises hx]
    . have hrest : si ∈ rest := by
        cases List.mem_cons.mp hsi with
        | inl heq => exact absurd (heq ▸ hraises) hx
        | inr hmem => exact hmem
      obtain ⟨r, hr⟩ := strToServiceId_of_not_raises hx
      rw [hr]
      cases r with
      | some serviceId => exact ih _ hrest
      | none => exact ih _ hrest

theorem stringsToInstances_of_not_raises {instanceStrings : List Str}
    (h : ∀ si ∈ instanceStrings, ¬Raises fromString si)
    : stringsToInstances fromString instanceStrings
      = .ok (FirstWins.ofList InstanceInfo.key (readInstances fromString instanceStrings)) := by
  unfold stringsToInstances FirstWins.ofList
  generalize ([] : InstanceVector Address) = set
  induction instanceStrings generalizing set with
  | nil => rfl
  | cons x rest ih =>
    have hrest := ih (fun si hsi => h si (List.mem_cons_of_mem _ hsi))
    unfold stringsToInstances.go readInstances
    rw [List.filterMap_cons]
    obtain ⟨r, hr⟩ := strToServiceId_of_not_raises (h x List.mem_cons_self)
    unfold readInstance
    rw [hr]
    cases r with
    | some serviceId =>
      rw [List.foldl_cons, ← insertInstance_eq]
      exact hrest _
    | none => exact hrest _

end Listing
end MsgRpc
