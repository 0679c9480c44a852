/-
Module: NuageKubemon.Client.Subnets
Purpose: The subnets the controller holds: the free blocks of its pool and, for each zone, the
  subnet list recorded in `nvsdc.subnets`. Two blocks of the handlers touch them (`Client.Walk`).
  The subnet of a new zone allocates a subnet and records it under the zone, or frees it again
  when `CreateSubnet` fails; the release of a zone's subnets frees each subnet of the zone's list
  and drops the list. Both keep all those blocks pairwise disjoint, and every other step leaves
  the pool and `nvsdc.subnets` alone. So over every run of events, from any state where no address
  is held twice and with any answers from the SDN, no address is ever held twice: no two zones get
  overlapping subnets, and no zone gets a subnet the pool still offers. `Init` starts from such a
  state; when the cluster mask it parsed lies outside `0..32`, it either stops or leaves a pool
  that offers nothing.
Trusted boundary: none beyond that of `Client.State`.
Main exports: NuageVsdClient.zoneSubnets, NuageVsdClient.SubnetsDisjoint, DisjointKept,
  disjointKept_rules, init_subnetsDisjoint, init_mask_out_of_range, addNewNamespace_of_subnet,
  runEvents_subnets_disjoint
-/
import NuageKubemon.Client.Walk
import NuageKubemon.Subnet.Grammar
import NuageKubemon.Pool.Alloc

namespace NuageKubemon

/-! ### What the client holds -/

namespace NuageVsdClient

/-- The subnets recorded for zone `z` in `nvsdc.subnets`, none when it has no list. -/
def zoneSubnets (c : NuageVsdClient) (z : String) : List IPv4Subnet :=
  ((c.subnets.lookup z).getD []).map (·.subnet)

/-- No address is held twice: each zone's subnets and the pool's free blocks are pairwise
disjoint, the subnets of two zones are disjoint, and the pool's lists hold their own mask, as
`Alloc` needs. -/
structure SubnetsDisjoint (c : NuageVsdClient) : Prop where
  levels : c.pool.Levels
  zone : ∀ z, (c.zoneSubnets z ++ c.pool.entries).Pairwise IPv4Subnet.Disjoint
  zones : ∀ z₁ z₂, z₁ ≠ z₂ → ∀ s₁ ∈ c.zoneSubnets z₁, ∀ s₂ ∈ c.zoneSubnets z₂, s₁.Disjoint s₂

/-- `s` shares no address with a subnet the client holds. -/
def Fresh (c : NuageVsdClient) (s : IPv4Subnet) : Prop :=
  ∀ z, ∀ b ∈ c.zoneSubnets z ++ c.pool.entries, s.Disjoint b

/-- The client once `delete(nvsdc.subnets, z)` has run. -/
def dropZone (c : NuageVsdClient) (z : String) : NuageVsdClient :=
  { c with subnets := c.subnets.erase z }

theorem zoneSubnets_dropZone (c : NuageVsdClient) (z z' : String) :
    (c.dropZone z).zoneSubnets z' = if z' = z then [] else c.zoneSubnets z' := by
  by_cases h : z' = z <;> simp [zoneSubnets, dropZone, h]

theorem zoneSubnets_of_insert {c : NuageVsdClient} {z : String} {l : List SubnetListNode}
    {m : GoMap String (List SubnetListNode)} (h : c.subnets.insert z l = some m) (z' : String) :
    ({ c with subnets := m }).zoneSubnets z' =
      if z' = z then l.map (·.subnet) else c.zoneSubnets z' := by
  by_cases hz : z' = z <;> simp [zoneSubnets, GoMap.lookup_of_insert h, hz]

/-- The invariant reads only the pool and `nvsdc.subnets`. -/
theorem SubnetsDisjoint.of_eq {c c' : NuageVsdClient} (hc : c.SubnetsDisjoint)
    (hp : c'.pool = c.pool) (hs : c'.subnets = c.subnets) : c'.SubnetsDisjoint := by
  have hz : c'.zoneSubnets = c.zoneSubnets := funext fun z => by simp [zoneSubnets, hs]
  exact ⟨hp ▸ hc.levels, hz ▸ hp ▸ hc.zone, hz ▸ hc.zones⟩

theorem SubnetsDisjoint.entries {c : NuageVsdClient} (hc : c.SubnetsDisjoint) (z : String) :
    ∀ s ∈ c.zoneSubnets z, ∀ b ∈ c.pool.entries, s.Disjoint b :=
  (List.pairwise_append.1 (hc.zone z)).2.2

/-! ### The three changes to what the client holds -/

/-- A successful `Alloc` keeps the invariant and returns a subnet no one holds. -/
theorem SubnetsDisjoint.alloc_ok {c : NuageVsdClient} (hc : c.SubnetsDisjoint) {size : Int}
    {pool : IPv4SubnetPool} {r : IPv4Subnet} (h : c.pool.alloc size = some (pool, .ok r)) :
    ({ c with pool }).SubnetsDisjoint ∧ ({ c with pool }).Fresh r := by
  obtain ⟨k, hk, rfl⟩ := IPv4SubnetPool.exists_nat_of_alloc_ok h
  obtain ⟨j, B, hjk, hB, hBm, rfl, hE⟩ := IPv4SubnetPool.alloc_ok_entries hc.levels hk h
  obtain ⟨-, hsub, hdis⟩ := IPv4Subnet.partition_descend B (by omega) (k - j) (by omega)
  -- in each zone's view, `B` is traded for the result and the high halves
  have key : ∀ z, (B.descend (k - j) :: (c.zoneSubnets z ++ pool.entries)).Pairwise
      IPv4Subnet.Disjoint := fun z => by
    have hBD := (hc.zone z).perm (((List.perm_cons_erase hB).append_left _).trans List.perm_middle)
      IPv4Subnet.Disjoint.symm
    refine (IPv4Subnet.pairwise_disjoint_replace hBD hsub hdis).perm (List.Perm.cons _ ?_)
      IPv4Subnet.Disjoint.symm
    calc List.Perm (B.uppers (k - j) ++ (c.zoneSubnets z ++ c.pool.entries.erase B))
          ((c.zoneSubnets z ++ c.pool.entries.erase B) ++ B.uppers (k - j)) := List.perm_append_comm
      _ = c.zoneSubnets z ++ (c.pool.entries.erase B ++ B.uppers (k - j)) := List.append_assoc _ _ _
      List.Perm _ (c.zoneSubnets z ++ pool.entries) := hE.symm.append_left _
  exact ⟨⟨(IPv4SubnetPool.alloc_ok_levels hc.levels hk h).1, fun z => (key z).of_cons, hc.zones⟩,
    fun z _ hb => List.rel_of_pairwise_cons (key z) hb⟩

/-- `pool.Free(s)` of a subnet no one holds keeps the invariant, and what was fresh and disjoint
from `s` stays fresh. A `Free` that fails leaves the pool as it was. -/
theorem SubnetsDisjoint.freeDiscard {c : NuageVsdClient} (hc : c.SubnetsDisjoint)
    {s : IPv4Subnet} (hs : c.Fresh s) {pool : IPv4SubnetPool}
    (h : c.pool.freeDiscard s = some pool) :
    ({ c with pool }).SubnetsDisjoint ∧
      ∀ t, c.Fresh t → t.Disjoint s → ({ c with pool }).Fresh t := by
  obtain ⟨res, hfree, rfl⟩ := Option.map_eq_some'.1 h
  cases res with
  | error => exact ⟨hc, fun _ ht _ => ht⟩
  | ok pool =>
    have hE : ∀ z, List.Perm (c.zoneSubnets z ++ pool.entries)
        (s :: (c.zoneSubnets z ++ c.pool.entries)) :=
      fun z => ((IPv4SubnetPool.free_ok_entries hfree).append_left _).trans List.perm_middle
    refine ⟨⟨IPv4SubnetPool.free_ok_levels hc.levels hfree, fun z => ?_, hc.zones⟩,
      fun t ht hts z b hb => ?_⟩
    · exact (List.pairwise_cons.2 ⟨hs z, hc.zone z⟩).perm (hE z).symm IPv4Subnet.Disjoint.symm
    · rcases List.mem_cons.1 ((hE z).subset hb) with rfl | hb
      exacts [hts, ht z b hb]

/-- Recording `[⟨id, r⟩]` as zone `z`'s list, in place of any list it had, keeps the invariant
when no one holds `r`. -/
theorem SubnetsDisjoint.record {c : NuageVsdClient} (hc : c.SubnetsDisjoint) {r : IPv4Subnet}
    (hr : c.Fresh r) {z id : String} {m : GoMap String (List SubnetListNode)}
    (h : c.subnets.insert z [⟨id, r⟩] = some m) : ({ c with subnets := m }).SubnetsDisjoint := by
  have hz := zoneSubnets_of_insert h
  have hpool : ∀ b ∈ c.pool.entries, r.Disjoint b := fun b hb => hr z b (List.mem_append_right _ hb)
  refine ⟨hc.levels, fun z' => ?_, fun z₁ z₂ hne s₁ h₁ s₂ h₂ => ?_⟩
  · rw [hz]
    split_ifs
    · exact List.pairwise_cons.2 ⟨hpool, (hc.zone z).sublist (List.sublist_append_right _ _)⟩
    · exact hc.zone z'
  · rw [hz] at h₁ h₂
    split_ifs at h₁ h₂ with e₁ e₂ e₂
    · exact absurd (e₁.trans e₂.symm) hne
    · obtain rfl : s₁ = r := List.mem_singleton.1 h₁
      exact hr z₂ s₂ (List.mem_append_left _ h₂)
    · obtain rfl : s₂ = r := List.mem_singleton.1 h₂
      exact (hr z₁ s₁ (List.mem_append_left _ h₁)).symm
    · exact hc.zones z₁ z₂ hne s₁ h₁ s₂ h₂

/-- Dropping zone `z`'s list keeps the invariant, and leaves each subnet of the list held by no
one, the subnets of the list pairwise disjoint. -/
theorem SubnetsDisjoint.dropZone {c : NuageVsdClient} (hc : c.SubnetsDisjoint) (z : String) :
    (c.dropZone z).SubnetsDisjoint ∧ (c.zoneSubnets z).Pairwise IPv4Subnet.Disjoint ∧
      ∀ s ∈ c.zoneSubnets z, (c.dropZone z).Fresh s := by
  have hz := zoneSubnets_dropZone c z
  refine ⟨⟨hc.levels, fun z' => ?_, fun z₁ z₂ hne s₁ h₁ s₂ h₂ => ?_⟩,
    (hc.zone z).sublist (List.sublist_append_left _ _), fun s hs z' b hb => ?_⟩
  · rw [hz]
    split_ifs
    · exact (hc.zone z).sublist (List.sublist_append_right _ _)
    · exact hc.zone z'
  · rw [hz] at h₁ h₂
    split_ifs at h₁ h₂
    exacts [absurd h₁ (List.not_mem_nil _), absurd h₁ (List.not_mem_nil _),
      absurd h₂ (List.not_mem_nil _), hc.zones z₁ z₂ hne s₁ h₁ s₂ h₂]
  · rw [hz] at hb
    rcases List.mem_append.1 hb with hb | hb
    · split_ifs at hb with e
      · exact absurd hb (List.not_mem_nil _)
      · exact hc.zones z z' (Ne.symm e) s hs b hb
    · exact hc.entries z s hs b hb

/-- A client that records no subnet list and whose pool is the zero pool with one block freed
into it, as `Init` leaves it, holds no address twice. -/
theorem SubnetsDisjoint.of_seed {c : NuageVsdClient} (C : IPv4Subnet)
    (hs : ∀ z, c.subnets.lookup z = none) (hp : IPv4SubnetPool.empty.freeDiscard C = some c.pool) :
    c.SubnetsDisjoint := by
  have hz : ∀ z, ({ c with pool := .empty }).zoneSubnets z = [] := fun z => by
    simp [zoneSubnets, hs]
  have h₀ : ({ c with pool := .empty }).SubnetsDisjoint :=
    ⟨fun _ _ hs => by simp at hs, fun z => by simp [hz], fun _ _ _ _ hs => by simp [hz] at hs⟩
  exact (h₀.freeDiscard (fun z _ hb => by simp [hz] at hb) hp).1

end NuageVsdClient

open NuageVsdClient

theorem init_subnetsDisjoint {clusterCIDR : String} {subnetLength : Int} {c : NuageVsdClient}
    (h : init clusterCIDR subnetLength = some c) : c.SubnetsDisjoint := by
  unfold init at h
  split at h
  · cases h
  · dsimp only at h
    split_ifs at h
    all_goals
      obtain ⟨pool, hpool, rfl⟩ := Option.map_eq_some'.1 h
      exact .of_seed _ (fun _ => rfl) hpool

/-- `IPv4SubnetFromString` lets a cluster mask outside `0..32` through, and `Init` does not check
it either. A mask above 32 leaves no room for a subnet of any size, so `Init` stops. So does a mask
of at most `32 - 2^63`, for which the `int` subtraction `32 - CIDRMask` wraps to a negative number.
Any other negative mask makes `Free` fail; its error is dropped, and the pool stays the zero pool,
from which every `Alloc` fails. -/
theorem init_mask_out_of_range {clusterCIDR : String} {ipPool : IPv4Subnet}
    (hparse : ipv4SubnetFromString clusterCIDR = .ok ipPool) (subnetLength : Int) :
    (32 < ipPool.cidrMask → init clusterCIDR subnetLength = none) ∧
    (ipPool.cidrMask ≤ 32 - 2 ^ 63 → init clusterCIDR subnetLength = none) ∧
    (32 - 2 ^ 63 < ipPool.cidrMask → ipPool.cidrMask < 0 →
      ∃ c, init clusterCIDR subnetLength = some c ∧ c.pool = IPv4SubnetPool.empty ∧
        ∀ size, c.pool.alloc size = some (c.pool, .error .invalidSize)) := by
  have hsize : ∀ size : Int, IPv4SubnetPool.empty.alloc size =
      some (IPv4SubnetPool.empty, .error .invalidSize) := fun size => by
    unfold IPv4SubnetPool.alloc
    split_ifs
    · rfl
    · exact IPv4SubnetPool.allocAt_of_empty fun i _ => IPv4SubnetPool.get_empty i
  obtain ⟨hlo, hhi⟩ := cidrMask_mem_of_fromString hparse
  unfold init
  simp only [hparse]
  refine ⟨fun h32 => ?_, fun hwrap => ?_, fun hneg₀ hneg => ?_⟩
  · rw [wrapInt_of_range (by omega) (by omega)]
    exact if_pos (by split_ifs <;> omega)
  · rw [wrapInt_of_ge (by omega) (by omega)]
    exact if_pos (by split_ifs <;> omega)
  have hfree : IPv4SubnetPool.empty.freeDiscard ipPool = some .empty := by
    simp [IPv4SubnetPool.freeDiscard, IPv4SubnetPool.free, hneg]
  rw [wrapInt_of_range (by omega) (by omega), if_neg (by split_ifs <;> omega), hfree]
  exact ⟨_, rfl, rfl, hsize⟩

/-- The cluster block `10.0.0.0` with mask -8 is accepted, and the pool `Init` leaves offers
nothing. -/
theorem init_mask_out_of_range_negative :
    ∃ c, init "10.0.0.0/-8" 8 = some c ∧ c.pool = IPv4SubnetPool.empty ∧
      ∀ size, c.pool.alloc size = some (c.pool, .error .invalidSize) :=
  (@init_mask_out_of_range "10.0.0.0/-8" ⟨⟨10, 0, 0, 0⟩, -8⟩ (by decide) 8).2.2 (by decide)
    (by decide)

/-! ### The relation over runs -/

/-- From `ctx` to `ctx'` no address comes to be held twice. -/
def DisjointKept (ctx ctx' : Ctx) : Prop :=
  ctx.client.SubnetsDisjoint → ctx'.client.SubnetsDisjoint

instance : IsRefl Ctx DisjointKept := ⟨fun _ => id⟩

instance : IsTrans Ctx DisjointKept := ⟨fun _ _ _ h₁ h₂ => h₂ ∘ h₁⟩

/-- `Alloc`, then `CreateSubnet`: the subnet is recorded under the zone when the SDN makes it and
freed again when it does not. -/
theorem allocZoneSubnet_disjoint (name zoneID : String) :
    Respects DisjointKept (allocZoneSubnet name zoneID) := by
  intro ctx a ctx' h hc
  rcases allocZoneSubnet_cases h with ⟨pool, e, halloc, rfl⟩ |
    ⟨pool, r, halloc, ⟨e, pool', -, hpool, rfl⟩ | ⟨id, m, -, hm, rfl⟩⟩
  · -- `Alloc` failed and left the pool as it was
    exact hc.of_eq (IPv4SubnetPool.alloc_error_pool hc.levels halloc) rfl
  · -- `CreateSubnet` failed: the subnet is freed again
    obtain ⟨hc₁, hfresh⟩ := hc.alloc_ok halloc
    exact (hc₁.freeDiscard hfresh hpool).1
  · -- the subnet is recorded as the zone's list
    obtain ⟨hc₁, hfresh⟩ := hc.alloc_ok halloc
    exact hc₁.record hfresh hm

/-- The loop over a zone's list, seen from the client with the list dropped: each subnet freed is
held by no one there, so the invariant holds after each `Free`. -/
theorem releaseZoneSubnets_disjoint (zoneID : String) :
    Respects DisjointKept (releaseZoneSubnets zoneID) := by
  intro ctx a ctx' h hc
  rcases releaseZoneSubnets_cases h with ⟨-, rfl⟩ | ⟨l, ctx₁, hl, h₁, rfl⟩
  · exact hc
  obtain ⟨hc₀, hpw, hfresh⟩ := hc.dropZone zoneID
  have hl' : ctx.client.zoneSubnets zoneID = l.map (·.subnet) := by simp [zoneSubnets, hl]
  refine (releaseSubnets_induct (fun ctx₁ rest => (ctx₁.client.dropZone zoneID).SubnetsDisjoint ∧
      (rest.map (·.subnet)).Pairwise IPv4Subnet.Disjoint ∧
      ∀ n ∈ rest, (ctx₁.client.dropZone zoneID).Fresh n.subnet) ?_ l ctx () ctx₁
    ⟨hc₀, hl' ▸ hpw, fun n hn => hfresh _ (hl' ▸ List.mem_map_of_mem _ hn)⟩ h₁).1
  rintro ctx₂ n rest pool ⟨hc₂, hpw₂, hfresh₂⟩ hpool
  obtain ⟨hc', hfresh'⟩ := hc₂.freeDiscard (hfresh₂ n (List.mem_cons_self _ _)) hpool
  rw [List.map_cons, List.pairwise_cons] at hpw₂
  exact ⟨hc', hpw₂.2, fun m hm => hfresh' _ (hfresh₂ m (List.mem_cons_of_mem _ hm))
    (hpw₂.1 _ (List.mem_map_of_mem _ hm)).symm⟩

/-- Calls and writes into the records leave the holdings alone, and so does the zone's ACLs. -/
theorem disjointKept_rules : HandlerRules DisjointKept where
  call _ _ _ := id
  record _ _ _ h hc := hc.of_eq h.pool h.subnets
  subnet _ _ := (allocZoneSubnet_disjoint _ _).live
  release _ := (releaseZoneSubnets_disjoint _).live
  acls _ _ := Respects.live fun ctx a ctx' h hc =>
    hc.of_eq (createZoneAcls_aclsOnly _ _ ctx a ctx' h).pool (createZoneAcls_aclsOnly _ _ ctx a ctx' h).subnets

/-- Over every run of events, with any answers from the SDN, from a state where no address is
held twice: no address is held twice afterwards. No two zones hold overlapping subnets, and no
zone holds a subnet the pool still offers. -/
theorem runEvents_subnets_disjoint (events : List Event) (ctx ctx' : Ctx)
    (hc : ctx.client.SubnetsDisjoint) (h : runEvents events ctx = some ((), ctx')) :
    ctx'.client.SubnetsDisjoint :=
  disjointKept_rules.runEvents_respects events ctx () ctx' h hc

/-- The Added branch for a new namespace, once its zone and subnet are made: the zone is
recorded, the subnet taken from the pool and recorded under the zone, and the ACLs follow. -/
theorem addNewNamespace_of_subnet {c : NuageVsdClient} {name zoneID subnetID : String}
    {zones : GoMap String String} (hz : c.zones.insert name zoneID = some zones)
    {pool : IPv4SubnetPool} {s : IPv4Subnet}
    (halloc : c.pool.alloc (32 - c.subnetSize) = some (pool, .ok s))
    {subnets : GoMap String (List SubnetListNode)}
    (hs : c.subnets.insert zoneID [⟨subnetID, s⟩] = some subnets) (rs : List Reply)
    (sent : List Request) :
    addNewNamespace name ⟨c, .ok zoneID :: .ok subnetID :: rs, sent⟩ =
      createZoneAcls name zoneID ⟨{ c with zones, pool, subnets }, rs,
        sent ++ [.createZone name, .createSubnet (name ++ "-0") zoneID s]⟩ := by
  simp [addNewNamespace, allocZoneSubnet, call_run, writeClient, hz, halloc, hs]

set_option maxRecDepth 2000 in
/-- A namespace added to a client with the cluster block `10.128.0.0/14` freed into the zero pool,
zones made and nothing tracked, with every request answered: it gets `10.128.0.0/24`, asked of
the SDN and recorded under its zone. -/
theorem runEvents_added_frontend :
    let ctx : Ctx := ⟨⟨.make, .make, IPv4SubnetPool.empty.set 14 [⟨⟨10, 128, 0, 0⟩, 14⟩], 8, .make, 0⟩,
      [.ok "zone-1", .ok "subnet-1", .ok "group-1", .ok "", .ok ""], []⟩
    ∃ ctx', runEvents [.ns ⟨.added, "frontend"⟩] ctx = some ((), ctx') ∧
      createdSubnets ctx'.sent = [⟨⟨10, 128, 0, 0⟩, 24⟩] ∧
      ctx'.client.zoneSubnets "zone-1" = [⟨⟨10, 128, 0, 0⟩, 24⟩] := by
  intro ctx
  -- the allocation and the two map writes are taken as they come out, so that the rest of the
  -- handler is evaluated with them in hand
  obtain ⟨pool, halloc⟩ : ∃ pool, ctx.client.pool.alloc (32 - ctx.client.subnetSize) =
      some (pool, .ok ⟨⟨10, 128, 0, 0⟩, 24⟩) := ⟨_, rfl⟩
  obtain ⟨zones, hz⟩ : ∃ zones, ctx.client.zones.insert "frontend" "zone-1" = some zones := ⟨_, rfl⟩
  obtain ⟨subnets, hs⟩ : ∃ subnets, ctx.client.subnets.insert "zone-1"
      [⟨"subnet-1", ⟨⟨10, 128, 0, 0⟩, 24⟩⟩] = some subnets := ⟨_, rfl⟩
  obtain ⟨ctx₂, h₂, hsent⟩ : ∃ ctx₂, createZoneAcls "frontend" "zone-1"
      ⟨⟨zones, subnets, pool, 8, .make, 0⟩, [.ok "group-1", .ok "", .ok ""],
        [.createZone "frontend", .createSubnet "frontend-0" "zone-1" ⟨⟨10, 128, 0, 0⟩, 24⟩]⟩ =
        some (none, ctx₂) ∧ createdSubnets ctx₂.sent = [⟨⟨10, 128, 0, 0⟩, 24⟩] :=
    ⟨_, rfl, rfl⟩
  have hadd : addNewNamespace "frontend" ctx = some (none, ctx₂) :=
    (addNewNamespace_of_subnet hz halloc hs [.ok "group-1", .ok "", .ok ""] []).trans h₂
  have hns : ctx.client.namespaces.lookup "frontend" = none := rfl
  refine ⟨ctx₂, ?_, hsent, ?_⟩
  · simp only [runEvents, handle, handleNsEvent, bind_run, getClient_run, Option.some_bind, hns,
      hadd]
    rfl
  · simp [zoneSubnets, (createZoneAcls_aclsOnly _ _ _ _ _ h₂).subnets, GoMap.lookup_of_insert hs]

/-- The cluster block `10.128.0.0/14` freed into the zero pool, zones made and nothing tracked:
a namespace added gets `10.128.0.0/24` recorded under its zone, and still no address is held
twice. -/
theorem runEvents_subnets_disjoint_cluster :
    let ctx : Ctx := ⟨⟨.make, .make, IPv4SubnetPool.empty.set 14 [⟨⟨10, 128, 0, 0⟩, 14⟩], 8, .make, 0⟩,
      [.ok "zone-1", .ok "subnet-1", .ok "group-1", .ok "", .ok ""], []⟩
    ∃ ctx', runEvents [.ns ⟨.added, "frontend"⟩] ctx = some ((), ctx') ∧
      ctx'.client.zoneSubnets "zone-1" = [⟨⟨10, 128, 0, 0⟩, 24⟩] ∧ ctx'.client.SubnetsDisjoint := by
  intro ctx
  obtain ⟨ctx', hrun, -, hz⟩ := runEvents_added_frontend
  exact ⟨ctx', hrun, hz, runEvents_subnets_disjoint _ ctx _
    (.of_seed ⟨⟨10, 128, 0, 0⟩, 14⟩ (fun _ => rfl) rfl) hrun⟩

end NuageKubemon
