/-
Module: NuageKubemon.Client.Contract
Purpose: The controller drives its pool only within the pool's contract. `HandleNsEvent` calls
  `Alloc` at one size and `Free` only on a subnet it has just allocated or has recorded under the
  zone it releases, and with no address held twice the subnets it frees are outstanding and
  distinct. So the client's pool, seen with the subnets the client has handed out, is a state of
  the pool's runs (`PoolState.Reachable`) after every run of events: everything proved of those
  runs (the blocks stay disjoint and cover the cluster block, they only get finer, every call is a
  step of the address allocator) holds of the pool the controller keeps. A subnet whose `Free`
  fails, or whose record a later list overwrites, stays outstanding in that view.
Trusted boundary: none beyond that of `Client.State`.
Main exports: NuageVsdClient.PoolView, DrivesPool, drivesPool_rules, init_poolView,
  runEvents_drives_pool
-/
import NuageKubemon.Client.Cluster
import NuageKubemon.Pool.Run

namespace NuageKubemon

namespace NuageVsdClient

/-- The pool state `st` stands for the client: it has the client's pool, and every subnet the
client records under a zone is among its outstanding allocations. -/
structure PoolView (c : NuageVsdClient) (st : PoolState) : Prop where
  pool : st.pool = c.pool
  recorded : ∀ z, ∀ s ∈ c.zoneSubnets z, s ∈ st.outstanding

section PoolView

variable {C : IPv4Subnet} {c : NuageVsdClient} {st : PoolState}

theorem PoolView.of_eq {c' : NuageVsdClient} (hv : c.PoolView st) (hp : c'.pool = c.pool)
    (hs : c'.subnets = c.subnets) : c'.PoolView st := by
  have hz : c'.zoneSubnets = c.zoneSubnets := funext fun z => by simp [zoneSubnets, hs]
  exact ⟨hv.pool.trans hp.symm, hz ▸ hv.recorded⟩

/-- A subnet no one holds is recorded under no zone. -/
theorem Fresh.ne {s : IPv4Subnet} (hs : c.Fresh s) (z : String) :
    ∀ t ∈ c.zoneSubnets z, t ≠ s :=
  fun t ht hts => s.not_disjoint_self (hts ▸ hs z t (List.mem_append_left _ ht))

/-- `Alloc` at the client's size is a call within the contract. -/
theorem PoolView.alloc_ok (hv : c.PoolView st) (hst : st.Reachable C) {pool : IPv4SubnetPool}
    {r : IPv4Subnet} (h : c.pool.alloc (32 - c.subnetSize) = some (pool, .ok r)) :
    (⟨pool, r :: st.outstanding⟩ : PoolState).Reachable C ∧
      ({ c with pool }).PoolView ⟨pool, r :: st.outstanding⟩ := by
  obtain ⟨k, hk, hsize⟩ := IPv4SubnetPool.exists_nat_of_alloc_ok h
  rw [hsize] at h
  have hstep : st.step (.alloc k) = some ⟨pool, r :: st.outstanding⟩ := by
    rw [PoolState.step, if_pos (by omega), hv.pool, h]
    rfl
  exact ⟨hst.step _ hstep, rfl, fun z t ht => List.mem_cons_of_mem _ (hv.recorded z t ht)⟩

/-- `pool.Free(s)` of an outstanding subnet recorded under no zone is a call within the contract;
whatever it returns, every other outstanding subnet stays outstanding. -/
theorem PoolView.freeDiscard (hv : c.PoolView st) (hst : st.Reachable C) {s : IPv4Subnet}
    (hs : s ∈ st.outstanding) (hne : ∀ z, ∀ t ∈ c.zoneSubnets z, t ≠ s) {pool : IPv4SubnetPool}
    (h : c.pool.freeDiscard s = some pool) :
    ∃ st', st'.Reachable C ∧ ({ c with pool }).PoolView st' ∧
      ∀ t ∈ st.outstanding, t ≠ s → t ∈ st'.outstanding := by
  obtain ⟨res, hfree, rfl⟩ := Option.map_eq_some'.1 h
  cases res with
  | error => exact ⟨st, hst.step (.free s) (by simp [PoolState.step, hs, hv.pool, hfree]), hv,
      fun _ ht _ => ht⟩
  | ok pool =>
    refine ⟨⟨pool, st.outstanding.erase s⟩, hst.step (.free s)
      (by simp [PoolState.step, hs, hv.pool, hfree]), ⟨rfl, fun z t ht => ?_⟩,
      fun t ht hts => (List.mem_erase_of_ne hts).2 ht⟩
    exact (List.mem_erase_of_ne (hne z t ht)).2 (hv.recorded z t ht)

/-- Recording `[⟨id, r⟩]` as zone `z`'s list keeps the view when `r` is outstanding; the list it
replaces, if any, stays outstanding. -/
theorem PoolView.record (hv : c.PoolView st) {r : IPv4Subnet} (hr : r ∈ st.outstanding)
    {z id : String} {m : GoMap String (List SubnetListNode)}
    (h : c.subnets.insert z [⟨id, r⟩] = some m) : ({ c with subnets := m }).PoolView st := by
  refine ⟨hv.pool, fun z' s hs => ?_⟩
  rw [zoneSubnets_of_insert h] at hs
  split_ifs at hs
  · obtain rfl : s = r := List.mem_singleton.1 hs
    exact hr
  · exact hv.recorded z' s hs

theorem PoolView.dropZone (hv : c.PoolView st) (z : String) : (c.dropZone z).PoolView st := by
  refine ⟨hv.pool, fun z' s hs => ?_⟩
  rw [zoneSubnets_dropZone] at hs
  split_ifs at hs
  · exact absurd hs (List.not_mem_nil _)
  · exact hv.recorded z' s hs

end PoolView

end NuageVsdClient

open NuageVsdClient

/-- The client `Init` returns, from a cluster block of a mask in `0..32`, is the first state of
the pool's runs from that block, with nothing outstanding. -/
theorem init_poolView {clusterCIDR : String} {subnetLength : Int} {C : IPv4Subnet}
    {c : NuageVsdClient} (hparse : ipv4SubnetFromString clusterCIDR = .ok C) (hC : C.ValidMask)
    (h : init clusterCIDR subnetLength = some c) :
    (⟨c.pool, []⟩ : PoolState).Reachable C ∧ c.PoolView ⟨c.pool, []⟩ := by
  unfold init at h
  simp only [hparse] at h
  split_ifs at h
  all_goals
    obtain ⟨pool, hpool, rfl⟩ := Option.map_eq_some'.1 h
    have hfree := IPv4SubnetPool.free_of_get_eq_nil hC (IPv4SubnetPool.get_empty _)
    simp only [IPv4SubnetPool.freeDiscard, hfree, Option.map_some', Option.some.injEq] at hpool
    subst hpool
    exact ⟨.seed hfree, rfl, fun _ _ hs => by simp [zoneSubnets] at hs⟩

/-! ### The relation over runs -/

/-- From `ctx` to `ctx'`: if no address is held twice at `ctx` and the client's pool there is a
state of the pool's runs from `C`, then both hold at `ctx'`. -/
def DrivesPool (C : IPv4Subnet) (ctx ctx' : Ctx) : Prop :=
  ctx.client.SubnetsDisjoint → ∀ st, st.Reachable C → ctx.client.PoolView st →
    ctx'.client.SubnetsDisjoint ∧ ∃ st', st'.Reachable C ∧ ctx'.client.PoolView st'

namespace DrivesPool

variable {C : IPv4Subnet}

/-- A step that leaves the pool and `nvsdc.subnets` alone. -/
theorem of_eq {ctx ctx' : Ctx} (hp : ctx'.client.pool = ctx.client.pool)
    (hs : ctx'.client.subnets = ctx.client.subnets) : DrivesPool C ctx ctx' :=
  fun hc st hst hv => ⟨hc.of_eq hp hs, st, hst, hv.of_eq hp hs⟩

instance : IsRefl Ctx (DrivesPool C) := ⟨fun _ => of_eq rfl rfl⟩

instance : IsTrans Ctx (DrivesPool C) := ⟨fun _ _ _ h₁ h₂ hc st hst hv =>
  let ⟨hc₁, st₁, hst₁, hv₁⟩ := h₁ hc st hst hv
  h₂ hc₁ st₁ hst₁ hv₁⟩

end DrivesPool

section Blocks

variable (C : IPv4Subnet)

/-- `Alloc`, then `CreateSubnet`: a subnet the SDN refuses is freed while still outstanding and
recorded nowhere; one it makes is recorded while outstanding. -/
theorem allocZoneSubnet_drives (name zoneID : String) :
    Respects (DrivesPool C) (allocZoneSubnet name zoneID) := by
  intro ctx a ctx' h hc st hst hv
  rcases allocZoneSubnet_cases h with ⟨pool, e, halloc, rfl⟩ |
    ⟨pool, r, halloc, ⟨e, pool', -, hpool, rfl⟩ | ⟨id, m, -, hm, rfl⟩⟩
  · -- `Alloc` failed and left the pool as it was
    obtain rfl := IPv4SubnetPool.alloc_error_pool hc.levels halloc
    exact ⟨hc, st, hst, hv⟩
  all_goals
    obtain ⟨hc₁, hfresh⟩ := hc.alloc_ok halloc
    obtain ⟨hst₁, hv₁⟩ := hv.alloc_ok hst halloc
  · -- `CreateSubnet` failed: the subnet is freed again
    obtain ⟨st', hst', hv', -⟩ := hv₁.freeDiscard hst₁ (List.mem_cons_self _ _) hfresh.ne hpool
    exact ⟨(hc₁.freeDiscard hfresh hpool).1, st', hst', hv'⟩
  · -- the subnet is recorded as the zone's list
    exact ⟨hc₁.record hfresh hm, _, hst₁, hv₁.record (List.mem_cons_self _ _) hm⟩

/-- The loop over a zone's list, seen from the client with the list dropped: each subnet freed
is outstanding, recorded under no other zone, and distinct from the rest of the list, so each
`Free` is within the contract and the rest of the list stays outstanding. -/
theorem releaseZoneSubnets_drives (zoneID : String) :
    Respects (DrivesPool C) (releaseZoneSubnets zoneID) := by
  intro ctx a ctx' h hc st hst hv
  refine ⟨releaseZoneSubnets_disjoint zoneID ctx a ctx' h hc, ?_⟩
  rcases releaseZoneSubnets_cases h with ⟨-, rfl⟩ | ⟨l, ctx₁, hl, h₁, rfl⟩
  · exact ⟨st, hst, hv⟩
  obtain ⟨-, hpw, hfresh⟩ := hc.dropZone zoneID
  have hl' : ctx.client.zoneSubnets zoneID = l.map (·.subnet) := by simp [zoneSubnets, hl]
  -- the subnets of the list are pairwise disjoint, hence distinct
  have hne : (l.map (·.subnet)).Pairwise (· ≠ ·) := by
    rw [← hl']
    exact hpw.imp fun {s _} hd heq => by subst heq; exact s.not_disjoint_self hd
  have hin : ∀ n ∈ l, n.subnet ∈ st.outstanding ∧
      ∀ z', ∀ t ∈ (ctx.client.dropZone zoneID).zoneSubnets z', t ≠ n.subnet := fun n hn => by
    have hmem : n.subnet ∈ ctx.client.zoneSubnets zoneID := hl' ▸ List.mem_map_of_mem _ hn
    exact ⟨hv.recorded zoneID _ hmem, (hfresh _ hmem).ne⟩
  obtain ⟨st', hst', hv', -⟩ := releaseSubnets_induct (fun ctx₂ rest => ∃ st, st.Reachable C ∧
      (ctx₂.client.dropZone zoneID).PoolView st ∧ (rest.map SubnetListNode.subnet).Pairwise (· ≠ ·) ∧
      ∀ n ∈ rest, n.subnet ∈ st.outstanding ∧
        ∀ z', ∀ t ∈ (ctx₂.client.dropZone zoneID).zoneSubnets z', t ≠ n.subnet)
    (fun ctx₂ n rest pool ⟨st₂, hst₂, hv₂, hpw₂, hin₂⟩ hpool =>
      let ⟨st₃, hst₃, hv₃, hkeep⟩ := hv₂.freeDiscard hst₂ (hin₂ n (List.mem_cons_self _ _)).1
        (hin₂ n (List.mem_cons_self _ _)).2 hpool
      ⟨st₃, hst₃, hv₃, (List.pairwise_cons.1 hpw₂).2, fun m hm =>
        ⟨hkeep _ (hin₂ m (List.mem_cons_of_mem _ hm)).1
          ((List.pairwise_cons.1 hpw₂).1 _ (List.mem_map_of_mem _ hm)).symm,
          (hin₂ m (List.mem_cons_of_mem _ hm)).2⟩⟩)
    l ctx () ctx₁ ⟨st, hst, hv.dropZone zoneID, hne, hin⟩ h₁
  exact ⟨st', hst', hv'⟩

end Blocks

/-- Calls and writes into the records leave the pool and `nvsdc.subnets` alone, and so does the
zone's ACLs. -/
theorem drivesPool_rules (C : IPv4Subnet) : HandlerRules (DrivesPool C) where
  call _ _ _ := .of_eq rfl rfl
  record _ _ _ h := .of_eq h.pool h.subnets
  subnet _ _ := (allocZoneSubnet_drives C _ _).live
  release _ := (releaseZoneSubnets_drives C _).live
  acls _ _ := Respects.live fun ctx a ctx' h =>
    .of_eq (createZoneAcls_aclsOnly _ _ ctx a ctx' h).pool
      (createZoneAcls_aclsOnly _ _ ctx a ctx' h).subnets

/-- Over every run of events, with any answers from the SDN, from a client that holds no address
twice and whose pool, with some list of subnets handed out that includes every subnet recorded
under a zone, is a state of the pool's runs from `C`: the pool the client has afterwards, with
some such list, is again a state of the pool's runs from `C`. Every `Alloc` and `Free` the
handlers make is a call within the pool's contract. -/
theorem runEvents_drives_pool {C : IPv4Subnet} (events : List Event) (ctx ctx' : Ctx)
    (hc : ctx.client.SubnetsDisjoint) {st : PoolState} (hst : st.Reachable C)
    (hv : st.pool = ctx.client.pool ∧ ∀ z, ∀ s ∈ ctx.client.zoneSubnets z, s ∈ st.outstanding)
    (h : runEvents events ctx = some ((), ctx')) :
    ∃ st' : PoolState, st'.Reachable C ∧ st'.pool = ctx'.client.pool ∧
      ∀ z, ∀ s ∈ ctx'.client.zoneSubnets z, s ∈ st'.outstanding :=
  let ⟨_, st', hst', hv'⟩ :=
    (drivesPool_rules C).runEvents_respects events ctx () ctx' h hc st hst ⟨hv.1, hv.2⟩
  ⟨st', hst', hv'.pool, hv'.recorded⟩

/-- The namespace added from `10.128.0.0/14`: the client's pool afterwards, with `10.128.0.0/24`
handed out, is a state of the pool's runs from the cluster block. -/
theorem runEvents_drives_pool_cluster :
    let ctx : Ctx := ⟨⟨.make, .make, IPv4SubnetPool.empty.set 14 [⟨⟨10, 128, 0, 0⟩, 14⟩], 8, .make, 0⟩,
      [.ok "zone-1", .ok "subnet-1", .ok "group-1", .ok "", .ok ""], []⟩
    ∃ ctx', runEvents [.ns ⟨.added, "frontend"⟩] ctx = some ((), ctx') ∧
      ctx'.client.zoneSubnets "zone-1" = [⟨⟨10, 128, 0, 0⟩, 24⟩] ∧
      ∃ st' : PoolState, st'.Reachable ⟨⟨10, 128, 0, 0⟩, 14⟩ ∧ st'.pool = ctx'.client.pool ∧
        ∀ z, ∀ s ∈ ctx'.client.zoneSubnets z, s ∈ st'.outstanding := by
  intro ctx
  obtain ⟨ctx', hrun, -, hz⟩ := runEvents_added_frontend
  exact ⟨ctx', hrun, hz, runEvents_drives_pool _ ctx _
    (.of_seed ⟨⟨10, 128, 0, 0⟩, 14⟩ (fun _ => rfl) rfl) PoolState.clusterSeed
    ⟨rfl, fun _ _ hs => by simp [zoneSubnets, ctx] at hs⟩ hrun⟩

end NuageKubemon
