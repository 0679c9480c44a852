/-
Module: NuageKubemon.Client.Records
Purpose: What the client's records say over the runs of the event loop from `Init`. `Init` leaves
  `zones` nil and tracks no namespace, and no event changes such a client (`Client.Safety`). So
  on every run, whatever the SDN answers, every address of the cluster block stays offered by the
  pool: no subnet leaves the pool without being recorded under the zone of a tracked namespace,
  and none is orphaned. And no namespace is ever tracked, so no record of a namespace's macros or
  macro group exists that could drift from the SDN, and no event, a re-delivered Added included,
  changes the records.
Trusted boundary: none beyond that of `Client.State`.
Main exports: init_offers, init_runEvents_no_orphan, reachable_records_untouched
-/
import NuageKubemon.Client.Safety
import NuageKubemon.Client.Subnets
import NuageKubemon.Pool.Allocator

namespace NuageKubemon

open NuageVsdClient

/-- The pool `Init` leaves, from a cluster block of a mask in `0..32`, offers every address of the
block. -/
theorem init_offers {clusterCIDR : String} {subnetLength : Int} {C : IPv4Subnet}
    {c : NuageVsdClient} (hparse : ipv4SubnetFromString clusterCIDR = .ok C) (hC : C.ValidMask)
    (h : init clusterCIDR subnetLength = some c) {v : Nat} (hv : C.Contains v) :
    c.pool.Offers v := by
  unfold init at h
  simp only [hparse] at h
  have hfree := IPv4SubnetPool.free_of_get_eq_nil hC (IPv4SubnetPool.get_empty _)
  split_ifs at h
  all_goals
    obtain ⟨pool, hpool, rfl⟩ := Option.map_eq_some'.1 h
    simp only [IPv4SubnetPool.freeDiscard, hfree, Option.map_some', Option.some.injEq] at hpool
    subst hpool
    exact (IPv4SubnetPool.offers_of_free_ok hfree v).2 (.inr hv)

/-- Over every run of events from a client `Init` returns, with any answers from the SDN, every
address of the cluster block is offered by the pool or lies in a subnet recorded under the zone of
a tracked namespace: no allocation is orphaned. With `Init` as written the first disjunct always
holds, since no event changes the client. -/
theorem init_runEvents_no_orphan {clusterCIDR : String} {subnetLength : Int} {C : IPv4Subnet}
    {c : NuageVsdClient} (hparse : ipv4SubnetFromString clusterCIDR = .ok C) (hC : C.ValidMask)
    (hinit : init clusterCIDR subnetLength = some c) (events : List Event) (rs : List Reply)
    (sent : List Request) {ctx' : Ctx} (h : runEvents events ⟨c, rs, sent⟩ = some ((), ctx')) :
    ∀ v, C.Contains v → ctx'.client.pool.Offers v ∨
      ∃ ns d, ctx'.client.namespaces.lookup ns = some d ∧
        ∃ s ∈ ctx'.client.zoneSubnets d.zoneID, s.Contains v := by
  have hc : ctx'.client = c :=
    idleKept_rules.runEvents_respects events _ () ctx' h (idle_of_init hinit)
  exact fun v hv => .inl (hc ▸ init_offers hparse hC hinit hv)

/-- The manifest's cluster block: after `Init`, a namespace whose zone the SDN refuses leaves every
address of `10.128.0.0/14` offered by the pool. -/
theorem init_runEvents_no_orphan_cluster :
    ∃ c ctx', init "10.128.0.0/14" 8 = some c ∧
      runEvents [.ns ⟨.added, "frontend"⟩] ⟨c, [.error "zone refused"], []⟩ = some ((), ctx') ∧
      ∀ v, IPv4Subnet.Contains ⟨⟨10, 128, 0, 0⟩, 14⟩ v → ctx'.client.pool.Offers v ∨
        ∃ ns d, ctx'.client.namespaces.lookup ns = some d ∧
          ∃ s ∈ ctx'.client.zoneSubnets d.zoneID, s.Contains v :=
  ⟨_, _, rfl, rfl, @init_runEvents_no_orphan "10.128.0.0/14" 8 _ _ (by decide) (by decide) rfl
    [.ns ⟨.added, "frontend"⟩] [.error "zone refused"] [] _ rfl⟩

/-- From every state the event loop reaches no namespace is tracked: each reads as the zero
record, with no macro group and no macros, and no event, with any answers from the SDN, changes
the records. So there is no record of a tracked namespace to drift from the SDN. -/
theorem reachable_records_untouched {c : NuageVsdClient} (hc : c.Reachable) :
    (∀ ns, c.namespaces.lookup ns = none ∧ c.namespaceData ns = .zero) ∧
    ∀ e (ctx ctx' : Ctx), ctx.client = c → handle e ctx = some ((), ctx') →
      ctx'.client.namespaces = c.namespaces :=
  ⟨fun ns => ⟨hc.idle.untracked ns, namespaceData_of_lookup (hc.idle.untracked ns)⟩,
    fun e _ _ hctx h => by rw [hc.idle.handle hctx e h]⟩

/-- Right after `Init` from the manifest's cluster block, nothing is tracked and no event changes
the records. -/
theorem reachable_records_untouched_cluster :
    ∃ c, init "10.128.0.0/14" 8 = some c ∧
      (∀ ns, c.namespaces.lookup ns = none ∧ c.namespaceData ns = .zero) ∧
      ∀ e (ctx ctx' : Ctx), ctx.client = c → handle e ctx = some ((), ctx') →
        ctx'.client.namespaces = c.namespaces := by
  obtain ⟨c, hc⟩ : ∃ c, init "10.128.0.0/14" 8 = some c := ⟨_, rfl⟩
  exact ⟨c, hc, reachable_records_untouched (.ofInit hc)⟩

end NuageKubemon
