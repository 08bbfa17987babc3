import MsgRpc.Discovery.Lemmas.InstanceInfo
import MsgRpc.Discovery.Lemmas.ZkServiceRegister

/-!
This module contains how the instances that are found depend on the order of the listing, and on
entries of it that are malformed.
-/

namespace MsgRpc

open FirstWins

variable {Address : Type} [LinearOrder Address] {fromString : Str → Option Address}

section Order

def SameEndpoints (r r' : Except ZkFault (InstanceVector Address)) : Prop :=
  (∃ e, r = .error e ∧ r' = .error e)
    ∨ ∃ iv iv', r = .ok iv ∧ r' = .ok iv' ∧ iv.map (·.serviceId) = iv'.map (·.serviceId)

theorem map_serviceId_eq_of_map_key {iv iv' : InstanceVector Address}
    (h : iv.map InstanceInfo.key = iv'.map InstanceInfo.key)
    : iv.map (·.serviceId) = iv'.map (·.serviceId) := by
  apply List.map_injective_iff.mpr Endpoint.key_injective
  rw [List.map_map, List.map_map]
  exact h

theorem sameEndpoints_of_perm {names names' : List Str} (hperm : names'.Perm names)
    : SameEndpoints (stringsToInstances fromString names)
        (stringsToInstances fromString names') := by
  by_cases hraises : ∃ si ∈ names, Raises fromString si
  . left
    have hraises' : ∃ si ∈ names', Raises fromString si := by
      obtain ⟨si, hsi, h⟩ := hraises
      exact ⟨si, hperm.symm.subset hsi, h⟩
    exact ⟨_, stringsToInstances_of_raises hraises, stringsToInstances_of_raises hraises'⟩
  . right
    push Not at hraises
    have hraises' : ∀ si ∈ names', ¬Raises fromString si :=
      fun si hsi => hraises si (hperm.subset hsi)
    refine ⟨_, _, stringsToInstances_of_not_raises hraises,
      stringsToInstances_of_not_raises hraises', ?_⟩
    apply map_serviceId_eq_of_map_key
    exact (map_key_ofList_perm (hperm.filterMap _)).symm

def OneVersion (fromString : Str → Option Address) (names : List Str) : Prop :=
  ∀ si ∈ names, ∀ si' ∈ names, ∀ serviceId,
    strToServiceId fromString si = .ok (some serviceId)
    → strToServiceId fromString si' = .ok (some serviceId)
    → serviceVersionOf si = serviceVersionOf si'

theorem readInstance_eq_some {si : Str} {ii : InstanceInfo Address}
    : readInstance fromString si = some ii
      ↔ strToServiceId fromString si = .ok (some ii.serviceId) ∧ serviceVersionOf si = ii.version := by
  unfold readInstance
  split
  . next serviceId hserviceId =>
    rw [hserviceId, Option.some.injEq]
    constructor
    . intro h
      rw [← h]
      exact ⟨rfl, rfl⟩
    . rintro ⟨hid, hversion⟩
      simp only [Except.ok.injEq, Option.some.injEq] at hid
      rw [hid, hversion]
  . next hnone =>
    constructor
    . intro h
      contradiction
    . rintro ⟨hid, _⟩
      exact absurd hid (hnone _)

theorem readInstance_of_serviceId {si : Str} {serviceId : Endpoint Address}
    (h : strToServiceId fromString si = .ok (some serviceId))
    : readInstance fromString si = some ⟨serviceId, serviceVersionOf si⟩ :=
  readInstance_eq_some.mpr ⟨h, rfl⟩

theorem OneVersion.keyDetermines_iff {names : List Str}
    : OneVersion fromString names
      ↔ KeyDetermines InstanceInfo.key (readInstances fromString names) := by
  unfold OneVersion KeyDetermines readInstances
  simp only [List.mem_filterMap]
  constructor
  . rintro h ii ⟨si, hsi, hii⟩ ii' ⟨si', hsi', hii'⟩ hkey
    rw [readInstance_eq_some] at hii hii'
    have hid : ii.serviceId = ii'.serviceId := Endpoint.key_injective hkey
    have hversion := h si hsi si' hsi' ii.serviceId hii.1 (hid ▸ hii'.1)
    rw [hii.2, hii'.2] at hversion
    cases ii
    cases ii'
    simp only [InstanceInfo.mk.injEq]
    exact ⟨hid, hversion⟩
  . intro h si hsi si' hsi' serviceId hid hid'
    have heq := h ⟨serviceId, serviceVersionOf si⟩ ⟨si, hsi, readInstance_of_serviceId hid⟩
      ⟨serviceId, serviceVersionOf si'⟩ ⟨si', hsi', readInstance_of_serviceId hid'⟩ rfl
    exact (InstanceInfo.mk.injEq .. ▸ heq).2

theorem readInstances_append (names names' : List Str)
    : readInstances fromString (names ++ names')
      = readInstances fromString names ++ readInstances fromString names' :=
  List.filterMap_append

theorem readInstances_cons_of_some {names : List Str} {si : Str} {ii : InstanceInfo Address}
    (hii : readInstance fromString si = some ii)
    : readInstances fromString (si :: names) = ii :: readInstances fromString names :=
  List.filterMap_cons_some hii

-- the first node name that is read as an endpoint decides about its version
theorem mem_stringsToInstances_of_first {names names' : List Str} {si : Str}
    {serviceId : Endpoint Address} {iv : InstanceVector Address}
    (hfirst : ∀ si' ∈ names, strToServiceId fromString si' ≠ .ok (some serviceId))
    (hsi : strToServiceId fromString si = .ok (some serviceId))
    (hiv : stringsToInstances fromString (names ++ si :: names') = .ok iv)
    : ⟨serviceId, serviceVersionOf si⟩ ∈ iv := by
  have hii := readInstance_of_serviceId hsi
  by_cases hraises : ∃ s ∈ names ++ si :: names', Raises fromString s
  . rw [stringsToInstances_of_raises hraises] at hiv
    contradiction
  . push Not at hraises
    rw [stringsToInstances_of_not_raises hraises, Except.ok.injEq] at hiv
    have hnone : lookup InstanceInfo.key serviceId.key (readInstances fromString names) = none := by
      apply lookup_eq_none.mpr
      intro ii' hii' hkey
      obtain ⟨si', hsi', hread⟩ := List.mem_filterMap.mp hii'
      rw [readInstance_eq_some, Endpoint.key_injective hkey] at hread
      exact hfirst si' hsi' hread.1
    rw [← hiv, mem_ofList, readInstances_append, readInstances_cons_of_some hii, lookup_append]
    simp only [InstanceInfo.key] at hnone ⊢
    rw [hnone, lookup_cons]
    simp [InstanceInfo.key]

theorem orderIndependent_iff (names : List Str)
    : (∀ names', names'.Perm names
        → stringsToInstances fromString names' = stringsToInstances fromString names)
      ↔ (∃ si ∈ names, Raises fromString si) ∨ OneVersion fromString names := by
  by_cases hraises : ∃ si ∈ names, Raises fromString si
  . simp only [hraises, true_or, iff_true]
    intro names' hperm
    have hraises' : ∃ si ∈ names', Raises fromString si := by
      obtain ⟨si, hsi, h⟩ := hraises
      exact ⟨si, hperm.symm.subset hsi, h⟩
    rw [stringsToInstances_of_raises hraises, stringsToInstances_of_raises hraises']
  . simp only [hraises, false_or]
    push Not at hraises
    have hok : ∀ names', names'.Perm names → stringsToInstances fromString names'
        = .ok (ofList InstanceInfo.key (readInstances fromString names')) :=
      fun names' hperm => stringsToInstances_of_not_raises fun si hsi => hraises si (hperm.subset hsi)
    constructor
    . intro h si hsi si' hsi' serviceId hid hid'
      -- each of the two node names may come first
      have hfront : ∀ s ∈ names, strToServiceId fromString s = .ok (some serviceId)
          → lookup InstanceInfo.key serviceId.key
              (ofList InstanceInfo.key (readInstances fromString names))
            = some ⟨serviceId, serviceVersionOf s⟩ := by
        intro s hs hserviceId
        have hii := readInstance_of_serviceId hserviceId
        have hperm := (List.perm_cons_erase hs).symm
        have hsame := h _ hperm
        rw [hok _ hperm, hok _ (.refl _), Except.ok.injEq] at hsame
        rw [← hsame, lookup_ofList, readInstances_cons_of_some hii, lookup_cons]
        simp [InstanceInfo.key]
      have heq := (hfront si hsi hid).symm.trans (hfront si' hsi' hid')
      simpa using heq
    . intro hone names' hperm
      rw [hok _ hperm, hok _ (.refl _), Except.ok.injEq]
      exact (OneVersion.keyDetermines_iff.mp hone).ofList_perm (hperm.filterMap _)

/--
The order of the listing matters for nothing but the versions: an endpoint has that of the first node
name.
-/
theorem listing_of_perm (names : List Str)
    : (∀ names', names'.Perm names
        → SameEndpoints (stringsToInstances fromString names)
          (stringsToInstances fromString names'))
      ∧ (∀ names' si names'' serviceId iv, names = names' ++ si :: names''
        → (∀ si' ∈ names', strToServiceId fromString si' ≠ .ok (some serviceId))
        → strToServiceId fromString si = .ok (some serviceId)
        → stringsToInstances fromString names = .ok iv → ⟨serviceId, serviceVersionOf si⟩ ∈ iv)
      ∧ ((∀ names', names'.Perm names
          → stringsToInstances fromString names' = stringsToInstances fromString names)
        ↔ (∃ si ∈ names, Raises fromString si) ∨ OneVersion fromString names) := by
  refine ⟨fun _ => sameEndpoints_of_perm, ?_, orderIndependent_iff names⟩
  intro names' si names'' serviceId iv hnames hfirst hsi hiv
  rw [hnames] at hiv
  exact mem_stringsToInstances_of_first hfirst hsi hiv

/--
An instance that has been restarted with a new version, the node of its old session is still there.
-/
theorem not_orderIndependent_restarted
    : ¬∀ names names' : List Str, names'.Perm names
        → stringsToInstances Ipv4.fromString names' = stringsToInstances Ipv4.fromString names := by
  intro h
  have hsame := h
    [Ipv4.dotted ⟨10, 0, 0, 1⟩ ++ [':', '1', '@', '1', '#', 'a'],
      Ipv4.dotted ⟨10, 0, 0, 1⟩ ++ [':', '1', '@', '2', '#', 'b']]
    [Ipv4.dotted ⟨10, 0, 0, 1⟩ ++ [':', '1', '@', '2', '#', 'b'],
      Ipv4.dotted ⟨10, 0, 0, 1⟩ ++ [':', '1', '@', '1', '#', 'a']] (List.Perm.swap _ _ _)
  revert hsame
  decide +kernel

end Order

section Malformed

/--
Decimal digits and what follows them, the number is a port.
-/
def startsWithPort (s : Str) : Bool :=
  (s.head?.bind (digitOf 10)).isSome && digits 10 0 s ≤ 65535

def wellFormed (fromString : Str → Option Address) (si : Str) : Bool :=
  (List.range si.length).any fun sep =>
    (fromString (si.take sep)).isSome && si[sep]? = some ':' && startsWithPort (si.drop (sep + 1))

/--
The instances are those of the well-formed node names.
-/
def LosesOnlyItself (fromString : Str → Option Address) (names : List Str) : Prop :=
  ∃ iv, stringsToInstances fromString names = .ok iv
    ∧ stringsToInstances fromString (names.filter (wellFormed fromString)) = .ok iv

theorem lookup_readInstances_filter {names : List Str} {p : Str → Bool} {k : Address ×ₗ Nat}
    (h : ∀ si ∈ names, p si = false → ∀ ii, readInstance fromString si = some ii → ii.key ≠ k)
    : lookup InstanceInfo.key k (readInstances fromString (names.filter p))
      = lookup InstanceInfo.key k (readInstances fromString names) := by
  induction names with
  | nil => rfl
  | cons si rest ih =>
    have hrest := ih fun si' hsi' => h si' (List.mem_cons_of_mem _ hsi')
    unfold readInstances at hrest ⊢
    cases hp : p si with
    | true =>
      rw [List.filter_cons_of_pos hp, List.filterMap_cons, List.filterMap_cons]
      split
      . exact hrest
      . rw [lookup_cons, lookup_cons, hrest]
    | false =>
      rw [List.filter_cons_of_neg (by simp [hp]), List.filterMap_cons, hrest]
      split
      . rfl
      . next ii hii => rw [lookup_cons, if_neg (h si List.mem_cons_self hp ii hii)]

/--
A malformed node name does no harm if the text before its `:` is an address and, where an endpoint is
read from it anyway, the first node name of this endpoint has the version of the first well-formed
one.
-/
theorem losesOnlyItself_iff (names : List Str)
    : LosesOnlyItself fromString names
      ↔ (∀ si ∈ names, ':' ∈ si → (fromString (si.takeWhile (· ≠ ':'))).isSome)
        ∧ ∀ si ∈ names, wellFormed fromString si = false
          → ∀ ii, readInstance fromString si = some ii
            → lookup InstanceInfo.key ii.key (readInstances fromString names)
              = lookup InstanceInfo.key ii.key
                (readInstances fromString (names.filter (wellFormed fromString))) := by
  have hraises : (∀ si ∈ names, ':' ∈ si → (fromString (si.takeWhile (· ≠ ':'))).isSome)
      ↔ ∀ si ∈ names, ¬Raises fromString si := by
    simp only [Raises, not_and, Option.isSome_iff_ne_none, ne_eq]
  rw [hraises]
  by_cases h : ∀ si ∈ names, ¬Raises fromString si
  . have hfilter : ∀ si ∈ names.filter (wellFormed fromString), ¬Raises fromString si :=
      fun si hsi => h si (List.mem_of_mem_filter hsi)
    unfold LosesOnlyItself
    rw [stringsToInstances_of_not_raises h, stringsToInstances_of_not_raises hfilter]
    simp only [Except.ok.injEq, exists_eq_left', ofList_eq_iff]
    constructor
    . intro heq
      refine ⟨h, ?_⟩
      intro si _ _ ii _
      exact (heq ii.key).symm
    . rintro ⟨_, hsame⟩ k
      by_cases hk : ∃ si ∈ names, wellFormed fromString si = false
          ∧ ∃ ii, readInstance fromString si = some ii ∧ ii.key = k
      . obtain ⟨si, hsi, hmalformed, ii, hii, hkey⟩ := hk
        rw [← hkey]
        exact (hsame si hsi hmalformed ii hii).symm
      . push Not at hk
        exact lookup_readInstances_filter hk
  . simp only [h, false_and, iff_false]
    push Not at h
    rintro ⟨iv, hiv, _⟩
    rw [stringsToInstances_of_raises h] at hiv
    contradiction

/--
What stands before the `:` of the second node name is not an address.
-/
theorem not_losesOnlyItself_address
    : ¬∀ names : List Str, LosesOnlyItself Ipv4.fromString names := by
  intro h
  obtain ⟨iv, hiv, _⟩ := h [Ipv4.dotted ⟨10, 0, 0, 1⟩ ++ [':', '1'], ['x', ':', '1']]
  have hraises : stringsToInstances Ipv4.fromString
      [Ipv4.dotted ⟨10, 0, 0, 1⟩ ++ [':', '1'], ['x', ':', '1']] = .error .systemError := by
    decide +kernel
  rw [hraises] at hiv
  contradiction

def ZkView.onlyWellFormed (fromString : Str → Option Address) (zk : ZkView) : ZkView :=
  { zk with
    instances := fun service =>
      (zk.instances service).map (·.filter (wellFormed fromString)) }

theorem LosesOnlyItself.fetchAndUpdateInstances {zk : ZkView} {service : Str} {names : List Str}
    (h : LosesOnlyItself fromString names) (hnames : zk.instances service = some names)
    (s : ZkServiceRegister Address)
    : ZkServiceRegister.fetchAndUpdateInstances fromString zk service s
      = ZkServiceRegister.fetchAndUpdateInstances fromString (zk.onlyWellFormed fromString) service
        s := by
  obtain ⟨iv, hiv, hfilter⟩ := h
  unfold ZkServiceRegister.fetchAndUpdateInstances ZkServiceRegister.fetchServiceInstancesFromZk
  simp only [ZkView.onlyWellFormed, hnames, Option.map_some, hiv, hfilter]
  rfl

end Malformed
end MsgRpc
