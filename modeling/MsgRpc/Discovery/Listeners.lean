import MsgRpc.Discovery.Lemmas.ZkServiceRegister

/-!
This module contains the proof that the listeners of the registry never lag behind its cache.
-/

namespace MsgRpc

open StateProg

variable {Address : Type} [LinearOrder Address]

variable {fromString : Str → Option Address} {filters : List (ServiceFilter Address)}

namespace ZkServiceRegister

/--
The last that `l` has been told since the listeners had been told `told` times.
-/
def lastTold (s : ZkServiceRegister Address) (told : Nat) (l : SRListener)
    : Option (ChangeNote Address) :=
  ((s.notes.drop told).filter fun n => n.listener = l).getLast?

/--
`l`, where it is registered, has been told the cached list last. The listeners of a service are
registered for it.
-/
structure InSync (told : Nat) (l : SRListener) (s : ZkServiceRegister Address) : Prop where
  told_le : told ≤ s.notes.length
  service : ∀ service, ∀ l' ∈ s.listenersMap service, l'.serviceToListener = service
  last : l ∈ s.listenersMap l.serviceToListener
    → ∀ iv, s.servicesCache l.serviceToListener = some iv
      → s.lastTold told l = some ⟨l, l.serviceToListener, iv⟩

section Note

variable {told : Nat} {s : ZkServiceRegister Address} {l : SRListener}

theorem lastTold_note_of_mem (htold : told ≤ s.notes.length) {listeners : List SRListener}
    (hmem : l ∈ listeners) (service : Str) (iv : InstanceVector Address)
    : (s.note listeners service iv).lastTold told l = some ⟨l, service, iv⟩ := by
  have hne : (listeners.filter (· = l)) ≠ [] :=
    List.ne_nil_of_mem (List.mem_filter.mpr ⟨hmem, by simp⟩)
  have hlast : (listeners.filter (· = l)).getLast hne = l := by
    have := List.getLast_mem hne
    simpa using (List.mem_filter.mp this).2
  unfold lastTold note
  simp only [List.drop_append_of_le_length htold, List.filter_append, List.filter_map,
    Function.comp_def]
  rw [List.getLast?_append_of_ne_nil _ (by simpa using hne), List.getLast?_map,
    List.getLast?_eq_some_getLast hne, hlast, Option.map_some]

theorem lastTold_note_of_not_mem (htold : told ≤ s.notes.length) {listeners : List SRListener}
    (hmem : l ∉ listeners) (service : Str) (iv : InstanceVector Address)
    : (s.note listeners service iv).lastTold told l = s.lastTold told l := by
  unfold lastTold note
  have hnone : listeners.filter (· = l) = [] := by
    apply List.filter_eq_nil_iff.mpr
    intro l' hl'
    simp only [decide_eq_true_eq]
    intro heq
    exact hmem (heq ▸ hl')
  simp only [List.drop_append_of_le_length htold, List.filter_append, List.filter_map,
    Function.comp_def, hnone, List.map_nil, List.append_nil]

end Note

theorem mem_insertListener {set : List SRListener} {listener l : SRListener}
    (h : l ∈ insertListener set listener)
    : l = listener ∨ l ∈ set := by
  induction set with
  | nil => simpa [insertListener] using h
  | cons x xs ih =>
    unfold insertListener at h
    split at h
    . simpa using h
    . split at h <;> grind

namespace InSync

variable {told : Nat} {l : SRListener} {s s' : ZkServiceRegister Address}

theorem congr (h : InSync told l s) (hlisteners : s'.listenersMap = s.listenersMap)
    (hcache : s'.servicesCache = s.servicesCache) (hnotes : s'.notes = s.notes)
    : InSync told l s' := by
  refine ⟨?_, ?_, ?_⟩
  . rw [hnotes]
    exact h.told_le
  . rw [hlisteners]
    exact h.service
  . rw [hlisteners, hcache]
    unfold lastTold
    rw [hnotes]
    exact h.last

-- all listeners of a service are told its list, which then is the cached one. Before, nothing is
-- asked of the lists that had been cached for this service or told to its listeners.
theorem note (htold : told ≤ s.notes.length)
    (hservice : ∀ service, ∀ l' ∈ s.listenersMap service, l'.serviceToListener = service)
    {service : Str} {iv : InstanceVector Address} (hcache : s.servicesCache service = some iv)
    (hlast : l.serviceToListener ≠ service → l ∈ s.listenersMap l.serviceToListener
      → ∀ iv', s.servicesCache l.serviceToListener = some iv'
        → s.lastTold told l = some ⟨l, l.serviceToListener, iv'⟩)
    : InSync told l (s.note (s.listenersMap service) service iv) := by
  refine ⟨?_, hservice, ?_⟩
  . simp only [ZkServiceRegister.note, List.length_append]
    omega
  . intro hmem iv' hiv'
    change l ∈ s.listenersMap l.serviceToListener at hmem
    change s.servicesCache l.serviceToListener = some iv' at hiv'
    by_cases heq : l.serviceToListener = service
    . subst heq
      rw [hcache, Option.some.injEq] at hiv'
      rw [lastTold_note_of_mem htold hmem, hiv']
    . have hnot : l ∉ s.listenersMap service := by
        intro hl
        exact heq (hservice service l hl)
      rw [lastTold_note_of_not_mem htold hnot]
      exact hlast heq hmem iv' hiv'

theorem noteCached (h : InSync told l s) (fetch : Fetch Address) (iv : InstanceVector Address)
    : InSync told l ((s.cacheEntry fetch iv).note (s.listenersMap fetch.service) fetch.service
        iv) := by
  apply note (s := s.cacheEntry fetch iv) h.told_le h.service
  . simp [cacheEntry]
  . intro hne hmem iv' hiv'
    simp only [cacheEntry, Function.update_of_ne hne] at hiv'
    exact h.last hmem iv' hiv'

theorem registerListener (h : InSync told l s) (listener : SRListener)
    : wp (ZkServiceRegister.registerListener listener) (fun _ => InSync told l)
        (fun _ => InSync told l) s := by
  unfold ZkServiceRegister.registerListener
  simp only [wp_bind, wp_modify, wp_get]
  generalize hmap : Function.update s.listenersMap listener.serviceToListener
    (insertListener (s.listenersMap listener.serviceToListener) listener) = map
  have hservice : ∀ service, ∀ l' ∈ map service, l'.serviceToListener = service := by
    intro service l' hl'
    by_cases heq : service = listener.serviceToListener
    . subst heq
      rw [← hmap, Function.update_self] at hl'
      cases mem_insertListener hl' with
      | inl hnew => rw [hnew]
      | inr hold => exact h.service _ l' hold
    . rw [← hmap, Function.update_of_ne heq] at hl'
      exact h.service service l' hl'
  have hother : l.serviceToListener ≠ listener.serviceToListener
      → l ∈ map l.serviceToListener → l ∈ s.listenersMap l.serviceToListener := by
    intro hne hl
    rwa [← hmap, Function.update_of_ne hne] at hl
  split
  . next iv hiv =>
    unfold doNotifyListeners
    rw [wp_modify]
    apply note (s := { s with listenersMap := map }) h.told_le hservice hiv
    intro hne hmem
    exact h.last (hother hne hmem)
  . next hnone =>
    rw [wp_pure]
    refine ⟨h.told_le, hservice, ?_⟩
    intro hmem iv hiv
    by_cases heq : l.serviceToListener = listener.serviceToListener
    . have hsome : s.servicesCache listener.serviceToListener = some iv := by
        rw [← heq]
        exact hiv
      rw [hsome] at hnone
      contradiction
    . exact h.last (hother heq hmem) iv hiv

theorem unregisterListener (h : InSync told l s) (listener : SRListener)
    : wp (ZkServiceRegister.unregisterListener listener) (fun _ => InSync told l)
        (fun _ => InSync told l) s := by
  unfold ZkServiceRegister.unregisterListener
  rw [wp_modify]
  have hsub : ∀ service, ∀ l' ∈ Function.update s.listenersMap listener.serviceToListener
      ((s.listenersMap listener.serviceToListener).filter (·.ptr ≠ listener.ptr)) service,
      l' ∈ s.listenersMap service := by
    intro service l' hl'
    by_cases heq : service = listener.serviceToListener
    . subst heq
      rw [Function.update_self] at hl'
      exact List.mem_of_mem_filter hl'
    . rwa [Function.update_of_ne heq] at hl'
  refine ⟨h.told_le, ?_, ?_⟩
  . intro service l' hl'
    exact h.service service l' (hsub service l' hl')
  . intro hmem iv hiv
    exact h.last (hsub _ l hmem) iv hiv

theorem invariant (told : Nat) (l : SRListener)
    : ZkInvariant fun s : ZkServiceRegister Address => InSync told l s where
  congr h hlisteners _ hcache hnotes := h.congr hlisteners hcache hnotes
  registerListener listener h := h.registerListener listener
  unregisterListener listener h := h.unregisterListener listener
  noteCached fetch iv h := h.noteCached fetch iv

theorem serviceNameToId (h : InSync told l s) (serviceName : Str)
    : wp (ZkServiceRegister.serviceNameToId serviceName) (fun _ => InSync told l)
        (fun _ => InSync told l) s := by
  unfold ZkServiceRegister.serviceNameToId
  simp only [wp_bind, wp_get]
  split <;> exact h.congr rfl rfl rfl

theorem reaches (h : InSync told l s) (hreach : ZkReaches fromString filters s s')
    : InSync told l s' := by
  induction hreach with
  | refl => exact h
  | tail _ hstep ih =>
    obtain ⟨e, he⟩ := hstep
    apply wp_of_ends _ he
    apply (invariant told l).handleZkEvent e _ ih
    intro serviceName _
    exact ih.serviceNameToId serviceName

end InSync

theorem service_of_reaches {s : ZkServiceRegister Address} (hreach : ZkReaches fromString filters {} s)
    : ∀ service, ∀ l ∈ s.listenersMap service, l.serviceToListener = service := by
  have hempty : InSync 0 ⟨0, []⟩ ({} : ZkServiceRegister Address) :=
    ⟨Nat.zero_le _, by simp, by simp⟩
  exact (hempty.reaches hreach).service

/--
`s` is any state from before the registration. What the listener has been told last since then is
what is cached.
-/
theorem lastTold_eq_cached {s s' : ZkServiceRegister Address} {l : SRListener}
    {iv : InstanceVector Address} (hs : ZkReaches fromString filters {} s)
    (hnot : l ∉ s.listenersMap l.serviceToListener) (hs' : ZkReaches fromString filters s s')
    (hl : l ∈ s'.listenersMap l.serviceToListener)
    (hiv : s'.servicesCache l.serviceToListener = some iv)
    : s'.lastTold s.notes.length l = some ⟨l, l.serviceToListener, iv⟩ := by
  have hsync : InSync s.notes.length l s := by
    refine ⟨Nat.le_refl _, service_of_reaches hs, ?_⟩
    intro hmem
    contradiction
  exact (hsync.reaches hs').last hl iv hiv

/--
The listener is back after it has missed an update.
-/
theorem lastTold_eq_cached_again
    : ∃ s : ZkServiceRegister Nat, ∃ iv, s.servicesCache ['x'] = some iv
        ∧ s.lastTold 0 ⟨1, ['x']⟩ = some ⟨⟨1, ['x']⟩, ['x'], iv⟩ := by
  have hrun : returns
      (runZkEvents Ipv4.fromString []
        [.init twoInstances [⟨1, ['x']⟩], .unregisterListener ⟨1, ['x']⟩,
          .instanceChild twoInstances true ['x'], .runTask, .registerListener ⟨1, ['x']⟩]
        ({} : ZkServiceRegister Nat))
      (fun _ s => ⟨1, ['x']⟩ ∈ s.listenersMap ['x'] ∧ (s.servicesCache ['x']).isSome) = true := by
    decide +kernel
  obtain ⟨_, s, hs, hp⟩ := exists_of_returns hrun
  simp only [decide_eq_true_eq, Option.isSome_iff_exists] at hp
  obtain ⟨hmem, iv, hiv⟩ := hp
  have hreach := ZkReaches.of_runZkEvents hs
  exact ⟨s, iv, hiv, lastTold_eq_cached .refl (List.not_mem_nil) hreach hmem hiv⟩

end ZkServiceRegister
end MsgRpc
