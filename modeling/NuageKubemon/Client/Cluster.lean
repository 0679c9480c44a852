/-
Module: NuageKubemon.Client.Cluster
Purpose: What the controller asks of the SDN, seen from the cluster block. `Init` frees the block
  parsed from the cluster CIDR into the zero pool, and from then on every subnet the client holds,
  free in the pool or recorded under a zone, lies inside that block, and every subnet recorded
  under a zone has the mask `32 - subnetSize` that `HandleNsEvent` allocates at. The Added branch
  for a new namespace sends `CreateSubnet` only for a subnet `Alloc` has just returned, so over
  every run of events, with any answers from the SDN, each subnet the controller asks the SDN to
  make lies inside the cluster block and has the configured size.
Trusted boundary: none beyond that of `Client.State`.
Main exports: NuageVsdClient.HeldWithin, AsksWithin, asksWithin_rules, init_heldWithin,
  runEvents_asks_within
-/
import NuageKubemon.Client.Subnets

namespace NuageKubemon

namespace NuageVsdClient

/-- Everything the client holds comes from the block `C`: the pool's lists hold their own mask, as
`Alloc` needs, every free block lies inside `C`, and every subnet recorded under a zone lies inside
`C` and has the mask the client allocates at. -/
structure HeldWithin (C : IPv4Subnet) (c : NuageVsdClient) : Prop where
  levels : c.pool.Levels
  pool : ∀ b ∈ c.pool.entries, b.SubsetOf C
  zones : ∀ z, ∀ s ∈ c.zoneSubnets z, s.SubsetOf C ∧ s.cidrMask = 32 - c.subnetSize

section HeldWithin

variable {C : IPv4Subnet} {c : NuageVsdClient}

/-- The invariant reads only the pool, `nvsdc.subnets` and the subnet size. -/
theorem HeldWithin.of_eq {c' : NuageVsdClient} (hc : c.HeldWithin C) (hp : c'.pool = c.pool)
    (hs : c'.subnets = c.subnets) (hz : c'.subnetSize = c.subnetSize) : c'.HeldWithin C := by
  have hzs : c'.zoneSubnets = c.zoneSubnets := funext fun z => by simp [zoneSubnets, hs]
  refine ⟨hp ▸ hc.levels, hp ▸ hc.pool, ?_⟩
  rw [hzs, hz]
  exact hc.zones

/-- `Alloc` at the client's size hands out a subnet inside `C` of the client's mask, and what it
splits off stays inside `C`. -/
theorem HeldWithin.alloc_ok (hc : c.HeldWithin C) {pool : IPv4SubnetPool} {r : IPv4Subnet}
    (h : c.pool.alloc (32 - c.subnetSize) = some (pool, .ok r)) :
    ({ c with pool }).HeldWithin C ∧ r.SubsetOf C ∧ r.cidrMask = 32 - c.subnetSize := by
  obtain ⟨k, hk, hsize⟩ := IPv4SubnetPool.exists_nat_of_alloc_ok h
  rw [hsize] at h ⊢
  obtain ⟨j, B, hjk, hB, hBm, rfl, hE⟩ := IPv4SubnetPool.alloc_ok_entries hc.levels hk h
  obtain ⟨-, hsub, -⟩ := IPv4Subnet.partition_descend B (by omega) (k - j) (by omega)
  have hBC := hc.pool B hB
  refine ⟨⟨(IPv4SubnetPool.alloc_ok_levels hc.levels hk h).1, fun b hb => ?_, hc.zones⟩,
    (hsub _ (List.mem_cons_self _ _)).trans hBC, by rw [IPv4Subnet.cidrMask_descend]; omega⟩
  rcases List.mem_append.1 (hE.subset hb) with hb | hb
  · exact hc.pool b (List.mem_of_mem_erase hb)
  · exact (hsub b (List.mem_cons_of_mem _ hb)).trans hBC

/-- `pool.Free(s)` of a subnet inside `C` keeps the invariant, whether it succeeds or not. -/
theorem HeldWithin.freeDiscard (hc : c.HeldWithin C) {s : IPv4Subnet} (hs : s.SubsetOf C)
    {pool : IPv4SubnetPool} (h : c.pool.freeDiscard s = some pool) :
    ({ c with pool }).HeldWithin C := by
  obtain ⟨res, hfree, rfl⟩ := Option.map_eq_some'.1 h
  cases res with
  | error => exact hc
  | ok pool =>
    refine ⟨IPv4SubnetPool.free_ok_levels hc.levels hfree, fun b hb => ?_, hc.zones⟩
    rcases List.mem_cons.1 ((IPv4SubnetPool.free_ok_entries hfree).subset hb) with rfl | hb
    exacts [hs, hc.pool b hb]

/-- Recording `[⟨id, r⟩]` as zone `z`'s list keeps the invariant when `r` lies inside `C` and has
the client's mask. -/
theorem HeldWithin.record (hc : c.HeldWithin C) {r : IPv4Subnet}
    (hr : r.SubsetOf C ∧ r.cidrMask = 32 - c.subnetSize) {z id : String}
    {m : GoMap String (List SubnetListNode)} (h : c.subnets.insert z [⟨id, r⟩] = some m) :
    ({ c with subnets := m }).HeldWithin C := by
  refine ⟨hc.levels, hc.pool, fun z' s hs => ?_⟩
  rw [zoneSubnets_of_insert h] at hs
  split_ifs at hs
  · obtain rfl : s = r := List.mem_singleton.1 hs
    exact hr
  · exact hc.zones z' s hs

/-- Dropping zone `z`'s list keeps the invariant; the subnets of the list lie inside `C`. -/
theorem HeldWithin.dropZone (hc : c.HeldWithin C) (z : String) :
    (c.dropZone z).HeldWithin C ∧ ∀ s ∈ c.zoneSubnets z, s.SubsetOf C := by
  refine ⟨⟨hc.levels, hc.pool, fun z' s hs => ?_⟩, fun s hs => (hc.zones z s hs).1⟩
  rw [zoneSubnets_dropZone] at hs
  split_ifs at hs
  · exact absurd hs (List.not_mem_nil _)
  · exact hc.zones z' s hs

/-- A client that records no subnet list and whose pool is the zero pool with `C` freed into it,
as `Init` leaves it, holds only what comes from `C`. -/
theorem HeldWithin.of_seed (C : IPv4Subnet) (hs : ∀ z, c.subnets.lookup z = none)
    (hp : IPv4SubnetPool.empty.freeDiscard C = some c.pool) : c.HeldWithin C := by
  have h₀ : ({ c with pool := .empty }).HeldWithin C :=
    ⟨fun _ _ h => by simp at h, fun _ h => by simp at h, fun _ _ h => by
      simp [zoneSubnets, hs] at h⟩
  exact h₀.freeDiscard (.refl C) hp

end HeldWithin

end NuageVsdClient

open NuageVsdClient

/-- The client `Init` returns holds only what comes from the block parsed from the cluster CIDR. -/
theorem init_heldWithin {clusterCIDR : String} {subnetLength : Int} {C : IPv4Subnet}
    {c : NuageVsdClient} (hparse : ipv4SubnetFromString clusterCIDR = .ok C)
    (h : init clusterCIDR subnetLength = some c) : c.HeldWithin C := by
  unfold init at h
  simp only [hparse] at h
  split_ifs at h
  all_goals
    obtain ⟨pool, hpool, rfl⟩ := Option.map_eq_some'.1 h
    exact .of_seed _ (fun _ => rfl) hpool

/-! ### The relation over runs -/

/-- From `ctx` to `ctx'`: if everything held at `ctx` comes from `C`, so does everything held at
`ctx'`, the subnet size is the same, and the requests added ask the SDN to make only subnets inside
`C` of the mask `32 - subnetSize`. -/
def AsksWithin (C : IPv4Subnet) (ctx ctx' : Ctx) : Prop :=
  ctx.client.HeldWithin C →
    ctx'.client.HeldWithin C ∧ ctx'.client.subnetSize = ctx.client.subnetSize ∧
      ∃ new, ctx'.sent = ctx.sent ++ new ∧
        ∀ s ∈ createdSubnets new, s.SubsetOf C ∧ s.cidrMask = 32 - ctx.client.subnetSize

namespace AsksWithin

variable {C : IPv4Subnet}

/-- A step that changes neither the holdings, the size nor the log. -/
theorem of_client {ctx ctx' : Ctx} (hp : ctx'.client.pool = ctx.client.pool)
    (hs : ctx'.client.subnets = ctx.client.subnets)
    (hz : ctx'.client.subnetSize = ctx.client.subnetSize) (hsent : ctx'.sent = ctx.sent) :
    AsksWithin C ctx ctx' :=
  fun hc => ⟨hc.of_eq hp hs hz, hz, [], by rw [hsent, List.append_nil], by simp⟩

instance : IsRefl Ctx (AsksWithin C) := ⟨fun _ => of_client rfl rfl rfl rfl⟩

instance : IsTrans Ctx (AsksWithin C) := by
  refine ⟨fun ctx ctx₁ ctx' h₁ h₂ hc => ?_⟩
  obtain ⟨hc₁, hz₁, new₁, hs₁, hn₁⟩ := h₁ hc
  obtain ⟨hc₂, hz₂, new₂, hs₂, hn₂⟩ := h₂ hc₁
  refine ⟨hc₂, hz₂.trans hz₁, new₁ ++ new₂, by rw [hs₂, hs₁, List.append_assoc], fun s hs => ?_⟩
  rw [createdSubnets_append, List.mem_append] at hs
  rcases hs with hs | hs
  · exact hn₁ s hs
  · exact hz₁ ▸ hn₂ s hs

/-- A request that asks for no subnet. -/
theorem call {req : Request} (h : createdSubnets [req] = []) (ctx : Ctx) :
    AsksWithin C ctx { ctx with replies := ctx.replies.tail, sent := ctx.sent ++ [req] } :=
  fun hc => ⟨hc, rfl, [req], rfl, by simp [h]⟩

end AsksWithin

section Blocks

variable (C : IPv4Subnet)

/-- `Alloc`, then `CreateSubnet` for the subnet it returned: recorded under the zone when the SDN
makes it, freed again when it does not. -/
theorem allocZoneSubnet_asks (name zoneID : String) :
    Respects (AsksWithin C) (allocZoneSubnet name zoneID) := by
  intro ctx a ctx' h hc
  rcases allocZoneSubnet_cases h with ⟨pool, e, halloc, rfl⟩ |
    ⟨pool, r, halloc, ⟨e, pool', -, hpool, rfl⟩ | ⟨id, m, -, hm, rfl⟩⟩
  · -- `Alloc` failed and left the pool as it was
    obtain rfl := IPv4SubnetPool.alloc_error_pool hc.levels halloc
    exact AsksWithin.of_client rfl rfl rfl rfl hc
  all_goals
    obtain ⟨hc₁, hsub, hmask⟩ := hc.alloc_ok halloc
    have hasked : ∀ s ∈ createdSubnets [.createSubnet (name ++ "-0") zoneID r],
        s.SubsetOf C ∧ s.cidrMask = 32 - ctx.client.subnetSize := by
      simp [createdSubnets, hsub, hmask]
  · -- `CreateSubnet` failed: the subnet is freed again
    exact ⟨hc₁.freeDiscard hsub hpool, rfl, _, rfl, hasked⟩
  · -- the subnet is recorded as the zone's list
    exact ⟨hc₁.record ⟨hsub, hmask⟩ hm, rfl, _, rfl, hasked⟩

/-- The loop over a zone's list, seen from the client with the list dropped: it frees subnets that
lie inside `C` and sends only `DeleteSubnet`. -/
theorem releaseZoneSubnets_asks (zoneID : String) :
    Respects (AsksWithin C) (releaseZoneSubnets zoneID) := by
  intro ctx a ctx' h hc
  have hsize := (releaseZoneSubnets_holdingsOnly zoneID ctx a ctx' h).subnetSize
  rcases releaseZoneSubnets_cases h with ⟨-, rfl⟩ | ⟨l, ctx₁, hl, h₁, rfl⟩
  · exact refl_of (AsksWithin C) _ hc
  have hin : ∀ n ∈ l, n.subnet.SubsetOf C := fun n hn =>
    (hc.dropZone zoneID).2 _ (by simpa [zoneSubnets, hl] using List.mem_map_of_mem _ hn)
  obtain ⟨-, hc₁, new, hs, hnew⟩ := releaseSubnets_induct (fun ctx₁ rest =>
      (∀ n ∈ rest, n.subnet.SubsetOf C) ∧ (ctx₁.client.dropZone zoneID).HeldWithin C ∧
        ∃ new, ctx₁.sent = ctx.sent ++ new ∧ createdSubnets new = [])
    (fun ctx₂ n rest pool ⟨hin, hc₂, new, hs, hnew⟩ hpool =>
      ⟨fun m hm => hin m (List.mem_cons_of_mem _ hm),
        hc₂.freeDiscard (hin n (List.mem_cons_self _ _)) hpool,
        new ++ [.deleteSubnet n.subnetID], by rw [hs, List.append_assoc], by simp [hnew]; rfl⟩)
    l ctx () ctx₁ ⟨hin, (hc.dropZone zoneID).1, [], by simp, rfl⟩ h₁
  exact ⟨hc₁, hsize, new, hs, by simp [hnew]⟩

end Blocks

/-- Calls for no subnet and writes into the records change neither the holdings, the size nor what
is asked, and neither does the zone's ACLs. -/
theorem asksWithin_rules (C : IPv4Subnet) : HandlerRules (AsksWithin C) where
  call ctx _ h := .call (createdSubnets_of_plain h) ctx
  record _ _ _ h := .of_client h.pool h.subnets h.subnetSize rfl
  subnet _ _ := (allocZoneSubnet_asks C _ _).live
  release _ := (releaseZoneSubnets_asks C _).live
  acls _ _ := Respects.live fun ctx a ctx' h hc =>
    let hA := createZoneAcls_aclsOnly _ _ ctx a ctx' h
    let ⟨new, hs, hnew⟩ := hA.sent
    ⟨hc.of_eq hA.pool hA.subnets hA.subnetSize, hA.subnetSize, new, hs, by simp [hnew]⟩

/-- Over every run of events, with any answers from the SDN, from a client whose pool and zones
hold only subnets of the block `C`: they still do afterwards, and every `CreateSubnet` the run
sends asks for a subnet inside `C` with the mask `32 - subnetSize` of the configured size. -/
theorem runEvents_asks_within {C : IPv4Subnet} (events : List Event) (ctx ctx' : Ctx)
    (hc : ctx.client.HeldWithin C) (h : runEvents events ctx = some ((), ctx')) :
    ctx'.client.HeldWithin C ∧ ∃ new, ctx'.sent = ctx.sent ++ new ∧
      ∀ s ∈ createdSubnets new, s.SubsetOf C ∧ s.cidrMask = 32 - ctx.client.subnetSize :=
  let ⟨hc', _, hnew⟩ := (asksWithin_rules C).runEvents_respects events ctx () ctx' h hc
  ⟨hc', hnew⟩

/-- The cluster block `10.128.0.0/14` freed into the zero pool, zones made and nothing tracked:
adding a namespace sends `CreateSubnet` for `10.128.0.0/24`, which lies inside the block and has
the mask `32 - 8`. -/
theorem runEvents_asks_within_cluster :
    let ctx : Ctx := ⟨⟨.make, .make, IPv4SubnetPool.empty.set 14 [⟨⟨10, 128, 0, 0⟩, 14⟩], 8, .make, 0⟩,
      [.ok "zone-1", .ok "subnet-1", .ok "group-1", .ok "", .ok ""], []⟩
    ∃ ctx', runEvents [.ns ⟨.added, "frontend"⟩] ctx = some ((), ctx') ∧
      createdSubnets ctx'.sent = [⟨⟨10, 128, 0, 0⟩, 24⟩] ∧
      ctx'.client.HeldWithin ⟨⟨10, 128, 0, 0⟩, 14⟩ ∧ ∃ new, ctx'.sent = ctx.sent ++ new ∧
        ∀ s ∈ createdSubnets new,
          s.SubsetOf ⟨⟨10, 128, 0, 0⟩, 14⟩ ∧ s.cidrMask = 32 - ctx.client.subnetSize := by
  intro ctx
  obtain ⟨ctx', hrun, hsent, -⟩ := runEvents_added_frontend
  exact ⟨ctx', hrun, hsent, runEvents_asks_within _ ctx _ (.of_seed _ (fun _ => rfl) rfl) hrun⟩

end NuageKubemon
