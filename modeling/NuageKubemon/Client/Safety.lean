/-
Module: NuageKubemon.Client.Safety
Purpose: The states the event loop reaches from `Init`, and the panics there. `Init` never makes
  `nvsdc.zones` and tracks no namespace: the client is `Idle`. Every write into the client and
  every block that changes it starts from a client that is not `Idle` (`Client.Walk`); from an
  `Idle` one the two paths that would get there panic first. An Added namespace whose zone the SDN
  makes writes into the nil `zones`, and a service's new macro is written into the nil
  `NetworkMacros` of the zero `NamespaceData` an untracked namespace reads as. So no event ever
  changes such a state, each state the loop reaches is one `Init` produced, and from each of them
  both writes panic.
Trusted boundary: none beyond that of `Client.State`.
Main exports: IdleKept, idleKept_rules, Idle.handle, NuageVsdClient.Reachable,
  reachable_added_panics, reachable_eq_init
-/
import NuageKubemon.Client.Walk

namespace NuageKubemon

/-! ### The paths that write the client -/

theorem idle_of_init {clusterCIDR : String} {subnetLength : Int} {c : NuageVsdClient}
    (h : init clusterCIDR subnetLength = some c) : Idle c := by
  unfold init at h
  split at h
  · cases h
  · dsimp only at h
    split_ifs at h <;>
    · obtain ⟨pool, -, rfl⟩ := Option.map_eq_some'.1 h
      exact ⟨rfl, fun _ => rfl⟩

@[simp] theorem namespaceData_of_lookup {c : NuageVsdClient} {ns : String}
    (h : c.namespaces.lookup ns = none) : c.namespaceData ns = .zero := by
  simp [NuageVsdClient.namespaceData, h]

/-- The Added branch for a new namespace writes `zones` as soon as the SDN makes the zone. -/
theorem addNewNamespace_of_zones_nil {c : NuageVsdClient} (hz : c.zones.table = none)
    (name zoneID : String) (rs : List Reply) (sent : List Request) :
    addNewNamespace name ⟨c, .ok zoneID :: rs, sent⟩ = none := by
  simp [addNewNamespace, call_run, writeClient, GoMap.insert_eq_none_iff.2 hz]

/-- The service's new macro goes into the zero record's nil map when its namespace is untracked. -/
theorem addServiceMacro_of_untracked {c : NuageVsdClient} {serviceEvent : ServiceEvent}
    (hns : c.namespaces.lookup serviceEvent.«namespace» = none) (nmgID networkMacroID : String)
    (rs : List Reply) (sent : List Request) :
    addServiceMacro serviceEvent nmgID ⟨c, .ok networkMacroID :: rs, sent⟩ = none := by
  simp [addServiceMacro, call_run, hns, NamespaceData.zero]

/-- With no group-name annotation the group is the group-ID annotation, or `""`; nothing is asked
of the SDN. -/
theorem annotatedGroup_of_no_name {serviceEvent : ServiceEvent}
    (h : serviceEvent.nuageAnnotations "network-macro-group.name" = none) (ctx : Ctx) :
    annotatedGroup serviceEvent ctx =
      some (.ok ((serviceEvent.nuageAnnotations "network-macro-group.id").getD ""), ctx) := by
  unfold annotatedGroup
  cases hid : serviceEvent.nuageAnnotations "network-macro-group.id" <;> simp [hid, h]

theorem zoneAnnotationError_of_no_zone {serviceEvent : ServiceEvent}
    (h : serviceEvent.nuageAnnotations "zone" = none) (nmgID : String) (ctx : Ctx) :
    zoneAnnotationError serviceEvent nmgID ctx = some (none, ctx) := by
  simp [zoneAnnotationError, h]

/-! ### No event changes an `Idle` client -/

/-- From `ctx` to `ctx'` a client that is `Idle` stays as it is. -/
def IdleKept (ctx ctx' : Ctx) : Prop := Idle ctx.client → ctx'.client = ctx.client

instance : IsRefl Ctx IdleKept := ⟨fun _ _ => rfl⟩

instance : IsTrans Ctx IdleKept := ⟨fun _ _ _ h₁ h₂ hi => (h₂ (h₁ hi ▸ hi)).trans (h₁ hi)⟩

/-- A call leaves the client alone, and every write and block of the walk starts from a client
that is not `Idle`. -/
theorem idleKept_rules : HandlerRules IdleKept where
  call _ _ _ _ := rfl
  record _ _ hl _ hi := absurd hi hl
  subnet _ _ _ _ _ hl _ hi := absurd hi hl
  release _ _ _ _ hl _ hi := absurd hi hl
  acls _ _ _ _ _ hl _ hi := absurd hi hl

/-- No event changes a client that is `Idle`. -/
theorem Idle.handle {c : NuageVsdClient} (hc : Idle c) {ctx ctx' : Ctx} (hctx : ctx.client = c)
    (e : Event) (h : handle e ctx = some ((), ctx')) : ctx'.client = c :=
  (idleKept_rules.handle_respects e ctx () ctx' h (hctx ▸ hc)).trans hctx

/-! ### Runs of the event loop -/

/-- The clients the event loop reaches: one `Init` leaves, then any event handled with any answers
from the SDN, in any order, that does not panic. -/
inductive NuageVsdClient.Reachable : NuageVsdClient → Prop
  | ofInit {clusterCIDR : String} {subnetLength : Int} {c : NuageVsdClient} :
      init clusterCIDR subnetLength = some c → NuageVsdClient.Reachable c
  | step {ctx ctx' : Ctx} (e : Event) : NuageVsdClient.Reachable ctx.client →
      handle e ctx = some ((), ctx') → NuageVsdClient.Reachable ctx'.client

theorem NuageVsdClient.Reachable.idle {c : NuageVsdClient} (h : c.Reachable) : Idle c := by
  induction h with
  | ofInit h => exact idle_of_init h
  | step e _ hstep ih => rwa [ih.handle rfl e hstep]

/-- From every state the loop reaches, an Added namespace whose zone the SDN makes panics, and so
does a service Added with no zone or group-name annotation whose macro the SDN makes. -/
theorem reachable_added_panics {c : NuageVsdClient} (hc : c.Reachable) :
    (∀ name zoneID rs sent, handleNsEvent ⟨.added, name⟩ ⟨c, .ok zoneID :: rs, sent⟩ = none) ∧
    (∀ serviceEvent : ServiceEvent, serviceEvent.type = .added →
      serviceEvent.nuageAnnotations "network-macro-group.name" = none →
      serviceEvent.nuageAnnotations "zone" = none →
      ∀ networkMacroID rs sent,
        handleServiceEvent serviceEvent ⟨c, .ok networkMacroID :: rs, sent⟩ = none) := by
  have hidle := hc.idle
  refine ⟨fun name zoneID rs sent => ?_,
    fun serviceEvent htype hname hzone networkMacroID rs sent => ?_⟩
  · simpa [handleNsEvent, hidle.untracked] using
      addNewNamespace_of_zones_nil hidle.zones name zoneID rs sent
  · simp only [handleServiceEvent, htype, bind_run, annotatedGroup_of_no_name hname,
      Option.some_bind, zoneAnnotationError_of_no_zone hzone]
    exact addServiceMacro_of_untracked (hidle.untracked _) _ _ _ _

/-- The cluster of the manifest: right after `Init`, the first namespace whose zone is made and
the first service whose macro is made both panic. -/
theorem reachable_added_panics_cluster :
    ∃ c, init "10.128.0.0/14" 8 = some c ∧
      handleNsEvent ⟨.added, "default"⟩ ⟨c, [.ok "zone-1"], []⟩ = none ∧
      handleServiceEvent ⟨.added, "default", "kubernetes", "172.30.0.1", fun _ => none⟩
        ⟨c, [.ok "macro-1"], []⟩ = none := by
  obtain ⟨c, hc⟩ : ∃ c, init "10.128.0.0/14" 8 = some c := ⟨_, rfl⟩
  exact ⟨c, hc, (reachable_added_panics (.ofInit hc)).1 _ _ _ _,
    (reachable_added_panics (.ofInit hc)).2 _ rfl rfl rfl _ _ _⟩

/-- Every state the event loop reaches is one `Init` leaves: no run of events, whatever the SDN
answers, tracks a namespace, allocates a subnet or moves the priority counter. -/
theorem reachable_eq_init {c : NuageVsdClient} (hc : c.Reachable) :
    ∃ clusterCIDR subnetLength, init clusterCIDR subnetLength = some c := by
  induction hc with
  | ofInit h => exact ⟨_, _, h⟩
  | step e hc hstep ih => rwa [hc.idle.handle rfl e hstep]

/-- A Deleted event right after `Init` for a namespace the SDN has no zone for: the state after it
is one `Init` leaves. -/
theorem reachable_eq_init_after_delete :
    ∃ c ctx', init "10.128.0.0/14" 8 = some c ∧
      handle (.ns ⟨.deleted, "default"⟩) ⟨c, [.ok ""], []⟩ = some ((), ctx') ∧
      ∃ clusterCIDR subnetLength, init clusterCIDR subnetLength = some ctx'.client :=
  ⟨_, _, rfl, rfl, reachable_eq_init (@NuageVsdClient.Reachable.step ⟨_, [.ok ""], []⟩ _
    (.ns ⟨.deleted, "default"⟩) (@NuageVsdClient.Reachable.ofInit "10.128.0.0/14" 8 _ rfl) rfl)⟩

end NuageKubemon
