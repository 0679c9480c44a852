/-
Module: NuageKubemon.Client.Walk
Purpose: One walk over the two handlers, for every relation between the context a run starts from
  and the one it ends in that holds across each kind of step the handlers take. Outside three
  blocks the handlers only call the SDN to look things up, delete them or make macros, read the
  client, and write the records of zones and namespaces. The blocks are the subnet of a new zone
  (`allocZoneSubnet`: `Alloc`, `CreateSubnet`, then `Free` or the zone's subnet list), the release
  of a zone's subnets (`releaseZoneSubnets`: `DeleteSubnet` and `Free` for each) and the zone's
  ACLs (`createZoneAcls`: the macro group, the record, two entries and the priority counter). A
  relation that holds across such a call, such a write and each block (`HandlerRules`) holds
  across every run of the event loop. The walk also tracks where the handlers get to: each write
  into the records and each block runs only on a client that has made `zones` or tracks a
  namespace, so the rules need to hold only from such a client. What each block can change is
  proved here once, from one inversion lemma per block.
Trusted boundary: none beyond that of `Client.State`.
Main exports: Request.Plain, createdSubnets, Idle, RespectsLive, RecordsOnly, HoldingsOnly,
  AclsOnly, allocZoneSubnet_cases, releaseSubnets_induct, releaseZoneSubnets_cases, HandlerRules,
  HandlerRules.handle_respects, HandlerRules.runEvents_respects
-/
import NuageKubemon.Client.Respects

namespace NuageKubemon

/-! ### Requests -/

/-- A request that asks the SDN to make no subnet and no ACL entry. -/
def Request.Plain : Request → Prop
  | .createSubnet .. => False
  | .createAclEntry .. => False
  | _ => True

/-- The subnets a list of requests asks the SDN to make, in order. -/
def createdSubnets : List Request → List IPv4Subnet :=
  List.filterMap fun
    | .createSubnet _ _ subnet => some subnet
    | _ => none

@[simp] theorem createdSubnets_nil : createdSubnets [] = [] := rfl

@[simp] theorem createdSubnets_append (l₁ l₂ : List Request) :
    createdSubnets (l₁ ++ l₂) = createdSubnets l₁ ++ createdSubnets l₂ :=
  List.filterMap_append _ _ _

theorem createdSubnets_of_plain {req : Request} (h : req.Plain) : createdSubnets [req] = [] := by
  cases req <;> first | rfl | exact h.elim

/-! ### The clients the handlers stop on -/

/-- A client with a nil `zones` map that tracks no namespace, as `Init` leaves it. -/
structure Idle (c : NuageVsdClient) : Prop where
  zones : c.zones.table = none
  untracked : ∀ ns, c.namespaces.lookup ns = none

theorem not_idle_of_zones {c : NuageVsdClient} (h : c.zones.table.isSome) : ¬ Idle c :=
  fun hi => by simp [hi.zones] at h

theorem not_idle_of_insert_zones {c : NuageVsdClient} {k v : String} {m : GoMap String String}
    (h : c.zones.insert k v = some m) : ¬ Idle c :=
  fun hi => by simp [GoMap.insert_eq_none_iff.2 hi.zones] at h

theorem not_idle_of_tracked {c : NuageVsdClient} {ns : String} {d : NamespaceData}
    (h : c.namespaces.lookup ns = some d) : ¬ Idle c :=
  fun hi => by simp [hi.untracked] at h

/-- A service's macro goes into its namespace's map of macros, which the zero record of a namespace
not tracked leaves nil. -/
theorem not_idle_of_macros {c : NuageVsdClient} {ns svc id : String} {m : GoMap String String}
    (h : (c.namespaceData ns).networkMacros.insert svc id = some m) : ¬ Idle c := fun hi => by
  simp [NuageVsdClient.namespaceData, hi.untracked, NamespaceData.zero] at h

/-- A step that keeps `zones` and every namespace tracked keeps a client from being `Idle`. -/
theorem not_idle_of_keeps {c c' : NuageVsdClient} (hz : c'.zones = c.zones)
    (hns : ∀ ns, (c.namespaces.lookup ns).isSome → (c'.namespaces.lookup ns).isSome)
    (hc : ¬ Idle c) : ¬ Idle c' := fun hi' =>
  hc ⟨hz ▸ hi'.zones, fun ns => Option.not_isSome_iff_eq_none.1 fun h => by
    simpa [hi'.untracked] using hns ns h⟩

/-- `Respects R x` for the runs of `x` that start from a client that is not `Idle`. -/
def RespectsLive (R : Ctx → Ctx → Prop) {α : Type} (x : Handler α) : Prop :=
  ∀ ctx a ctx', ¬ Idle ctx.client → x ctx = some (a, ctx') → R ctx ctx'

/-- Every run of `x` from a client that is not `Idle` ends on one that is not. -/
def KeepsLive {α : Type} (x : Handler α) : Prop :=
  ∀ ctx a ctx', ¬ Idle ctx.client → x ctx = some (a, ctx') → ¬ Idle ctx'.client

section Live

variable {α β : Type} {R : Ctx → Ctx → Prop} {x : Handler α} {f : α → Handler β}

theorem Respects.live (hx : Respects R x) : RespectsLive R x := fun ctx a ctx' _ h => hx ctx a ctx' h

theorem RespectsLive.bind [IsTrans Ctx R] (hx : RespectsLive R x) (hk : KeepsLive x)
    (hf : ∀ a, RespectsLive R (f a)) : RespectsLive R (x >>= f) := by
  intro ctx b ctx' hl h
  obtain ⟨⟨a, ctx₁⟩, h₁, h₂⟩ := Option.bind_eq_some.1 h
  exact trans_of R (hx _ _ _ hl h₁) (hf a _ _ _ (hk _ _ _ hl h₁) h₂)

theorem keepsLive_call (req : Request) : KeepsLive (call req) := by
  intro ctx r ctx' hl h
  rw [call_run, Option.some.injEq, Prod.mk.injEq] at h
  exact h.2 ▸ hl

end Live

/-! ### What one step can change -/

/-- From `c` to `c'` only the records of zones and namespaces change. -/
structure RecordsOnly (c c' : NuageVsdClient) : Prop where
  pool : c'.pool = c.pool
  subnets : c'.subnets = c.subnets
  subnetSize : c'.subnetSize = c.subnetSize
  priority : c'.nextAvailablePriority = c.nextAvailablePriority

/-- From `ctx` to `ctx'` only the pool and `nvsdc.subnets` change, and every request added is a
plain one or a `CreateSubnet`. -/
structure HoldingsOnly (ctx ctx' : Ctx) : Prop where
  zones : ctx'.client.zones = ctx.client.zones
  namespaces : ctx'.client.namespaces = ctx.client.namespaces
  subnetSize : ctx'.client.subnetSize = ctx.client.subnetSize
  priority : ctx'.client.nextAvailablePriority = ctx.client.nextAvailablePriority
  sent : ∃ new, ctx'.sent = ctx.sent ++ new ∧
    ∀ req ∈ new, req.Plain ∨ ∃ n z s, req = .createSubnet n z s

/-- From `ctx` to `ctx'` only the namespace records and the priority counter change, no namespace
stops being tracked, and the requests added make no subnet. -/
structure AclsOnly (ctx ctx' : Ctx) : Prop where
  zones : ctx'.client.zones = ctx.client.zones
  pool : ctx'.client.pool = ctx.client.pool
  subnets : ctx'.client.subnets = ctx.client.subnets
  subnetSize : ctx'.client.subnetSize = ctx.client.subnetSize
  tracked : ∀ ns, (ctx.client.namespaces.lookup ns).isSome →
    (ctx'.client.namespaces.lookup ns).isSome
  sent : ∃ new, ctx'.sent = ctx.sent ++ new ∧ createdSubnets new = []

namespace HoldingsOnly

instance : IsRefl Ctx HoldingsOnly := ⟨fun _ => ⟨rfl, rfl, rfl, rfl, [], by simp, by simp⟩⟩

instance : IsTrans Ctx HoldingsOnly := ⟨fun _ _ _ h₁ h₂ =>
  ⟨h₂.zones.trans h₁.zones, h₂.namespaces.trans h₁.namespaces, h₂.subnetSize.trans h₁.subnetSize,
    h₂.priority.trans h₁.priority,
    let ⟨new₁, hs₁, hn₁⟩ := h₁.sent
    let ⟨new₂, hs₂, hn₂⟩ := h₂.sent
    ⟨new₁ ++ new₂, by rw [hs₂, hs₁, List.append_assoc], fun req hr =>
      (List.mem_append.1 hr).elim (hn₁ req) (hn₂ req)⟩⟩⟩

/-- One turn of the loop over a zone's list: `DeleteSubnet`, then `Free`. -/
theorem free (ctx : Ctx) (n : SubnetListNode) (pool : IPv4SubnetPool) :
    HoldingsOnly ctx ⟨{ ctx.client with pool }, ctx.replies.tail,
      ctx.sent ++ [.deleteSubnet n.subnetID]⟩ :=
  ⟨rfl, rfl, rfl, rfl, _, rfl, fun _ hr => .inl (List.mem_singleton.1 hr ▸ trivial)⟩

theorem keepsLive {α : Type} {x : Handler α} (h : Respects HoldingsOnly x) : KeepsLive x :=
  fun ctx a ctx' hl hx => not_idle_of_keeps (h ctx a ctx' hx).zones
    (fun _ => by rw [(h ctx a ctx' hx).namespaces]; exact id) hl

end HoldingsOnly

namespace AclsOnly

instance : IsRefl Ctx AclsOnly := ⟨fun _ => ⟨rfl, rfl, rfl, rfl, fun _ => id, [], by simp, rfl⟩⟩

instance : IsTrans Ctx AclsOnly := ⟨fun _ _ _ h₁ h₂ =>
  ⟨h₂.zones.trans h₁.zones, h₂.pool.trans h₁.pool, h₂.subnets.trans h₁.subnets,
    h₂.subnetSize.trans h₁.subnetSize, fun ns => h₂.tracked ns ∘ h₁.tracked ns,
    let ⟨new₁, hs₁, hn₁⟩ := h₁.sent
    let ⟨new₂, hs₂, hn₂⟩ := h₂.sent
    ⟨new₁ ++ new₂, by rw [hs₂, hs₁, List.append_assoc], by simp [hn₁, hn₂]⟩⟩⟩

theorem call {req : Request} (h : createdSubnets [req] = []) (ctx : Ctx) :
    AclsOnly ctx { ctx with replies := ctx.replies.tail, sent := ctx.sent ++ [req] } :=
  ⟨rfl, rfl, rfl, rfl, fun _ => id, [req], rfl, h⟩

theorem counter (ctx : Ctx) (v : Int) :
    AclsOnly ctx { ctx with client := { ctx.client with nextAvailablePriority := v } } :=
  ⟨rfl, rfl, rfl, rfl, fun _ => id, [], (List.append_nil _).symm, rfl⟩

theorem keepsLive {α : Type} {x : Handler α} (h : Respects AclsOnly x) : KeepsLive x :=
  fun ctx a ctx' hl hx => not_idle_of_keeps (h ctx a ctx' hx).zones (h ctx a ctx' hx).tracked hl

end AclsOnly

/-! ### The subnet of a new zone -/

/-- What `allocZoneSubnet` can do. `Alloc` fails, and the pool it leaves is kept. Or `Alloc`
returns `r` and `CreateSubnet` for it fails, and `r` is freed again. Or the SDN makes it, and
`[⟨id, r⟩]` is recorded as the zone's list. -/
theorem allocZoneSubnet_cases {name zoneID : String} {ctx ctx' : Ctx} {a : Option String}
    (h : allocZoneSubnet name zoneID ctx = some (a, ctx')) :
    (∃ pool e, ctx.client.pool.alloc (32 - ctx.client.subnetSize) = some (pool, .error e) ∧
      ctx' = { ctx with client := { ctx.client with pool } }) ∨
    ∃ pool r, ctx.client.pool.alloc (32 - ctx.client.subnetSize) = some (pool, .ok r) ∧
      ((∃ e pool', ctx.replies.headD (.error "EOF") = .error e ∧ pool.freeDiscard r = some pool' ∧
          ctx' = ⟨{ ctx.client with pool := pool' }, ctx.replies.tail,
            ctx.sent ++ [.createSubnet (name ++ "-0") zoneID r]⟩) ∨
        ∃ id m, ctx.replies.headD (.error "EOF") = .ok id ∧
          ctx.client.subnets.insert zoneID [⟨id, r⟩] = some m ∧
          ctx' = ⟨{ ctx.client with pool, subnets := m }, ctx.replies.tail,
            ctx.sent ++ [.createSubnet (name ++ "-0") zoneID r]⟩) := by
  simp only [allocZoneSubnet, bind_run, getClient_run, Option.some_bind] at h
  rcases halloc : ctx.client.pool.alloc (32 - ctx.client.subnetSize) with _ | ⟨pool, e | r⟩ <;>
    rw [halloc] at h
  · cases h
  · simp only [bind_run, modifyClient_run, Option.some_bind, pure_run, Option.some.injEq,
      Prod.mk.injEq] at h
    exact .inl ⟨pool, e, rfl, h.2.symm⟩
  refine .inr ⟨pool, r, rfl, ?_⟩
  simp only [bind_run, modifyClient_run, Option.some_bind, call_run] at h
  rcases hr : ctx.replies.headD (.error "EOF") with e | id <;> rw [hr] at h
  · simp only [freeSubnet, writeClient_run, bind_run, Option.bind_eq_some, Option.map_eq_some',
      pure_run, Option.some.injEq, Prod.mk.injEq] at h
    obtain ⟨_, ⟨_, ⟨pool', hpool, rfl⟩, rfl⟩, -, rfl⟩ := h
    exact .inl ⟨e, pool', rfl, hpool, rfl⟩
  · simp only [bind_run, writeClient_run, Option.bind_eq_some, Option.map_eq_some', pure_run,
      Option.some.injEq, Prod.mk.injEq] at h
    obtain ⟨_, ⟨_, ⟨m, hm, rfl⟩, rfl⟩, -, rfl⟩ := h
    exact .inr ⟨id, m, rfl, hm, rfl⟩

theorem allocZoneSubnet_holdingsOnly (name zoneID : String) :
    Respects HoldingsOnly (allocZoneSubnet name zoneID) := by
  intro ctx a ctx' h
  have hsubnet : ∀ r, ∀ req ∈ [Request.createSubnet (name ++ "-0") zoneID r],
      req.Plain ∨ ∃ n z s, req = .createSubnet n z s :=
    fun r req hr => .inr ⟨_, _, _, List.mem_singleton.1 hr⟩
  rcases allocZoneSubnet_cases h with ⟨pool, e, -, rfl⟩ |
    ⟨pool, r, -, ⟨e, pool', -, -, rfl⟩ | ⟨id, m, -, -, rfl⟩⟩
  · exact ⟨rfl, rfl, rfl, rfl, [], (List.append_nil _).symm, by simp⟩
  · exact ⟨rfl, rfl, rfl, rfl, _, rfl, hsubnet r⟩
  · exact ⟨rfl, rfl, rfl, rfl, _, rfl, hsubnet r⟩

/-! ### The release of a zone's subnets -/

/-- The loop over a zone's list deletes and frees the subnets in order: a property of the context
and of what is left of the list, kept by each `DeleteSubnet` and `Free` of the next subnet, holds
after the loop. -/
theorem releaseSubnets_induct (P : Ctx → List SubnetListNode → Prop)
    (hstep : ∀ ctx n rest pool, P ctx (n :: rest) →
      ctx.client.pool.freeDiscard n.subnet = some pool →
      P ⟨{ ctx.client with pool }, ctx.replies.tail, ctx.sent ++ [.deleteSubnet n.subnetID]⟩ rest) :
    ∀ (nodes : List SubnetListNode) (ctx : Ctx) (a : Unit) (ctx' : Ctx), P ctx nodes →
      releaseSubnets nodes ctx = some (a, ctx') → P ctx' []
  | [], _, _, _, hp, h => by cases h; exact hp
  | n :: rest, ctx, a, ctx', hp, h => by
    simp only [releaseSubnets, bind_run, call_run, Option.some_bind, freeSubnet, writeClient_run,
      Option.map_eq_some', Option.bind_eq_some] at h
    obtain ⟨_, ⟨_, ⟨pool, hpool, rfl⟩, rfl⟩, h⟩ := h
    exact releaseSubnets_induct P hstep rest _ a ctx' (hstep ctx n rest pool hp hpool) h

/-- What `releaseZoneSubnets` can do: nothing when the zone has no list, or the loop over its list
and then the list dropped. -/
theorem releaseZoneSubnets_cases {zoneID : String} {ctx ctx' : Ctx} {a : Unit}
    (h : releaseZoneSubnets zoneID ctx = some (a, ctx')) :
    (ctx.client.subnets.lookup zoneID = none ∧ ctx' = ctx) ∨
    ∃ l ctx₁, ctx.client.subnets.lookup zoneID = some l ∧ releaseSubnets l ctx = some ((), ctx₁) ∧
      ctx' = { ctx₁ with client := { ctx₁.client with subnets := ctx₁.client.subnets.erase zoneID } } := by
  simp only [releaseZoneSubnets, bind_run, getClient_run, Option.some_bind] at h
  rcases hl : ctx.client.subnets.lookup zoneID with _ | l <;> rw [hl] at h
  · cases h; exact .inl ⟨rfl, rfl⟩
  · obtain ⟨⟨_, ctx₁⟩, h₁, h₂⟩ := Option.bind_eq_some.1 h
    cases h₂
    exact .inr ⟨l, ctx₁, rfl, h₁, rfl⟩

theorem releaseZoneSubnets_holdingsOnly (zoneID : String) :
    Respects HoldingsOnly (releaseZoneSubnets zoneID) := by
  intro ctx a ctx' h
  rcases releaseZoneSubnets_cases h with ⟨-, rfl⟩ | ⟨l, ctx₁, -, h₁, rfl⟩
  · exact refl_of HoldingsOnly _
  have hloop := releaseSubnets_induct (fun ctx₁ _ => HoldingsOnly ctx ctx₁)
    (fun ctx₁ n _ pool hp _ => trans_of HoldingsOnly hp (HoldingsOnly.free ctx₁ n pool))
    l ctx () ctx₁ (refl_of HoldingsOnly ctx) h₁
  refine trans_of HoldingsOnly hloop ?_
  exact ⟨rfl, rfl, rfl, rfl, [], (List.append_nil _).symm, by simp⟩

/-! ### The zone's ACLs -/

open Respects

theorem recordNamespace_aclsOnly (zoneName zoneID nmgid : String) :
    Respects AclsOnly (recordNamespace zoneName zoneID nmgid) := by
  refine bind of_getClient fun c => ?_
  split
  · exact of_pure _
  · refine of_writeClient fun ctx c hc => ?_
    obtain ⟨m, hm, rfl⟩ := Option.map_eq_some'.1 hc
    exact ⟨rfl, rfl, rfl, rfl, fun _ => GoMap.isSome_lookup_of_insert hm, [],
      (List.append_nil _).symm, rfl⟩

/-- Making a zone's ACLs writes the namespace record and the priority counter, and asks for the
group and the entries, never a subnet. -/
theorem createZoneAcls_aclsOnly (name zoneID : String) :
    Respects AclsOnly (createZoneAcls name zoneID) := by
  have call : ∀ req : Request, createdSubnets [req] = [] → Respects AclsOnly (call req) :=
    fun _ h => of_call (AclsOnly.call h)
  unfold createZoneAcls
  split
  · -- `CreateDefaultZoneAcls`: the group, the record, then two entries
    refine bind (call _ rfl) fun r => ?_
    split
    · exact of_pure _
    refine bind (recordNamespace_aclsOnly _ _ _) fun _ => bind (call _ rfl) fun r => ?_
    split
    · exact of_pure _
    refine bind (call _ rfl) fun r => ?_
    split <;> exact of_pure _
  · -- `CreateSpecificZoneAcls`: the group, the record, the counter, then two entries
    refine bind (call _ rfl) fun r => ?_
    split
    · exact of_pure _
    refine bind (recordNamespace_aclsOnly _ _ _) fun _ => bind of_getClient fun _ =>
      bind (bind of_getClient fun _ => bind (of_modifyClient fun _ => .counter _ _) fun _ =>
        of_pure _) fun _ => bind (call _ rfl) fun r => ?_
    split
    · exact of_pure _
    refine bind (of_modifyClient fun _ => .counter _ _) fun _ => bind (call _ rfl) fun r => ?_
    split
    · exact of_pure _
    · exact bind (of_modifyClient fun _ => .counter _ _) fun _ => of_pure _

/-! ### The walk -/

/-- A relation that holds across every plain call. -/
def CallRule (R : Ctx → Ctx → Prop) : Prop :=
  ∀ ctx req, req.Plain → R ctx { ctx with replies := ctx.replies.tail, sent := ctx.sent ++ [req] }

/-- What a relation must satisfy to hold across every run of the handlers: it holds across a plain
call, across a write into the records from a client that is not `Idle`, and across each of the
three blocks from a client that is not `Idle`. -/
structure HandlerRules (R : Ctx → Ctx → Prop) : Prop where
  call : CallRule R
  record : ∀ ctx c, ¬ Idle ctx.client → RecordsOnly ctx.client c → R ctx { ctx with client := c }
  subnet : ∀ name zoneID, RespectsLive R (allocZoneSubnet name zoneID)
  release : ∀ zoneID, RespectsLive R (releaseZoneSubnets zoneID)
  acls : ∀ name zoneID, RespectsLive R (createZoneAcls name zoneID)

section Plain

variable {R : Ctx → Ctx → Prop} (hcall : CallRule R)
include hcall

theorem CallRule.call_respects {req : Request} (h : req.Plain) : Respects R (call req) :=
  of_call fun ctx => hcall ctx req h

/-- The deletion of a zone's ACLs only looks entries up and deletes them. -/
theorem CallRule.deleteZoneAcls_respects [IsRefl Ctx R] [IsTrans Ctx R] (zoneName : String) (entry : NamespaceData → AclEntry) :
    Respects R (deleteZoneAcls zoneName entry) := by
  unfold deleteZoneAcls; dsimp only
  -- every step is a `getClient`, a plain `call`, a `pure` or a branch on what one of them returned
  repeat' first
    | exact of_pure _
    | exact hcall.call_respects trivial
    | exact of_getClient
    | refine bind ?_ fun _ => ?_
    | split

theorem CallRule.deleteZoneAclsFor_respects [IsRefl Ctx R] [IsTrans Ctx R] (name zoneID : String) :
    Respects R (deleteZoneAclsFor name zoneID) := by
  unfold deleteZoneAclsFor deleteDefaultZoneAcls deleteSpecificZoneAcls
  split <;> apply hcall.deleteZoneAcls_respects

theorem CallRule.deleteUntrackedNamespace_respects [IsRefl Ctx R] [IsTrans Ctx R] (name : String) :
    Respects R (deleteUntrackedNamespace name) := by
  refine bind (hcall.call_respects (by trivial)) fun r => ?_
  split
  case h_3 =>
    refine bind (hcall.deleteZoneAclsFor_respects _ _) fun r => ?_
    split
    case h_2 => exact bind (hcall.call_respects (by trivial)) fun r => by split <;> exact of_pure _
    all_goals exact of_pure _
  all_goals exact of_pure _

theorem CallRule.annotatedGroup_respects [IsRefl Ctx R] [IsTrans Ctx R] (serviceEvent : ServiceEvent) :
    Respects R (annotatedGroup serviceEvent) := by
  unfold annotatedGroup
  split
  case h_2 =>
    split
    case h_2 => exact bind (hcall.call_respects (by trivial)) fun r => by split <;> exact of_pure _
    all_goals exact of_pure _
  all_goals exact of_pure _

end Plain

theorem zoneAnnotationError_respects {R : Ctx → Ctx → Prop} [IsRefl Ctx R]
    (serviceEvent : ServiceEvent) (nmgID : String) :
    Respects R (zoneAnnotationError serviceEvent nmgID) := by
  unfold zoneAnnotationError
  split
  case h_2 => exact getClient_bind fun ctx a ctx' h => by split at h <;> exact of_pure _ _ _ _ h
  all_goals exact of_pure _

theorem deleteZoneAclsFor_keepsLive (name zoneID : String) :
    KeepsLive (deleteZoneAclsFor name zoneID) :=
  AclsOnly.keepsLive (CallRule.deleteZoneAclsFor_respects
    (fun ctx _ h => AclsOnly.call (createdSubnets_of_plain h) ctx) name zoneID)

namespace HandlerRules

variable {R : Ctx → Ctx → Prop} [IsTrans Ctx R] (hR : HandlerRules R)
include hR

/-- A write into the records from a client that is not `Idle`, then plain steps. -/
theorem modifyClient_bind {α : Type} {f : NuageVsdClient → NuageVsdClient} {g : Unit → Handler α}
    (hf : ∀ c, RecordsOnly c (f c)) (hg : ∀ a, Respects R (g a)) :
    RespectsLive R (modifyClient f >>= g) := by
  intro ctx b ctx' hl h
  rw [bind_run, modifyClient_run, Option.some_bind] at h
  exact trans_of R (hR.record ctx _ hl (hf _)) (hg () _ _ _ h)

/-- A write into the records that panics on a client that is `Idle`, and leaves one that is not,
then steps that need that. -/
theorem writeClient_bind {α : Type} {f : NuageVsdClient → Option NuageVsdClient}
    {g : Unit → Handler α} (hf : ∀ c c', f c = some c' → ¬ Idle c ∧ ¬ Idle c' ∧ RecordsOnly c c')
    (hg : ∀ a, RespectsLive R (g a)) : Respects R (writeClient f >>= g) := by
  intro ctx b ctx' h
  obtain ⟨⟨_, ctx₁⟩, h₁, h₂⟩ := Option.bind_eq_some.1 h
  obtain ⟨c, hc, ⟨⟩⟩ := Option.map_eq_some'.1 ((writeClient_run f ctx).symm.trans h₁)
  obtain ⟨hl, hl', hrec⟩ := hf _ _ hc
  exact trans_of R (hR.record ctx c hl hrec) (hg () _ _ _ hl' h₂)

/-- `HandleNsEvent`, Added, for a namespace not tracked: the write into `zones` panics unless the
client has made it, and then the zone's subnet and ACLs follow. -/
theorem addNewNamespace_respects [IsRefl Ctx R] (name : String) : Respects R (addNewNamespace name) := by
  refine bind (hR.call.call_respects (by trivial)) fun r => ?_
  split
  · exact of_pure _
  refine hR.writeClient_bind (fun c c' h => ?_) fun _ => ?_
  · obtain ⟨m, hm, rfl⟩ := Option.map_eq_some'.1 h
    exact ⟨not_idle_of_insert_zones hm,
      not_idle_of_zones (GoMap.table_of_insert hm), rfl, rfl, rfl, rfl⟩
  refine (hR.subnet _ _).bind (HoldingsOnly.keepsLive (allocZoneSubnet_holdingsOnly _ _)) fun r => ?_
  split
  · exact (of_pure _).live
  · exact hR.acls _ _

theorem addTrackedNamespace_live [IsRefl Ctx R] (name : String) : RespectsLive R (addTrackedNamespace name) := by
  refine (hR.call.call_respects (by trivial)).live.bind (keepsLive_call _) fun r => ?_
  split
  case h_3 =>
    refine (hR.acls _ _).bind (AclsOnly.keepsLive (createZoneAcls_aclsOnly _ _)) fun r => ?_
    split
    · exact (of_pure _).live
    · intro ctx b ctx' hl h
      obtain ⟨⟨_, ctx₁⟩, h₁, ⟨⟩⟩ := Option.bind_eq_some.1 h
      obtain ⟨c, hc, ⟨⟩⟩ := Option.map_eq_some'.1 ((writeClient_run _ ctx).symm.trans h₁)
      obtain ⟨m, -, rfl⟩ := Option.map_eq_some'.1 hc
      exact hR.record ctx _ hl ⟨rfl, rfl, rfl, rfl⟩
  all_goals exact (of_pure _).live

theorem deleteTrackedNamespace_live [IsRefl Ctx R] (name : String) (zone : NamespaceData) :
    RespectsLive R (deleteTrackedNamespace name zone) := by
  refine (hR.call.deleteZoneAclsFor_respects _ _).live.bind (deleteZoneAclsFor_keepsLive _ _)
    fun r => ?_
  split
  · exact (of_pure _).live
  refine (hR.release _).bind (HoldingsOnly.keepsLive (releaseZoneSubnets_holdingsOnly _)) fun _ =>
    hR.modifyClient_bind (fun _ => ⟨rfl, rfl, rfl, rfl⟩) fun _ =>
      bind (hR.call.call_respects (by trivial)) fun r => ?_
  split <;> exact of_pure _

theorem handleNsEvent_respects [IsRefl Ctx R] (nsEvent : NamespaceEvent) : Respects R (handleNsEvent nsEvent) := by
  unfold handleNsEvent
  split
  all_goals
    refine getClient_bind fun ctx a ctx' h => ?_
    rcases hd : ctx.client.namespaces.lookup nsEvent.name with _ | d <;> simp only [hd] at h
  · exact hR.addNewNamespace_respects _ _ _ _ h
  · exact hR.addTrackedNamespace_live _ _ _ _ (not_idle_of_tracked hd) h
  · exact hR.call.deleteUntrackedNamespace_respects _ _ _ _ h
  · exact hR.deleteTrackedNamespace_live _ _ _ _ _ (not_idle_of_tracked hd) h

/-- The service's macro is written into its namespace's record, which panics unless the namespace
is tracked. -/
theorem addServiceMacro_respects [IsRefl Ctx R] (serviceEvent : ServiceEvent) (nmgID : String) :
    Respects R (addServiceMacro serviceEvent nmgID) := by
  refine bind of_getClient fun c => bind (hR.call.call_respects (by trivial)) fun r => ?_
  split
  · exact of_pure _
  refine getClient_bind fun ctx a ctx' h => ?_
  obtain ⟨⟨macros, _⟩, hm, h⟩ := Option.bind_eq_some.1 h
  rw [liftPanic_run, Option.map_eq_some'] at hm
  obtain ⟨_, hm, ⟨⟩⟩ := hm
  dsimp only at h
  revert h
  refine hR.modifyClient_bind (fun _ => ?_) (fun _ => ?_) ctx a ctx' (not_idle_of_macros hm)
  · exact ⟨rfl, rfl, rfl, rfl⟩
  · exact bind (hR.call.call_respects (by trivial)) fun r => by split <;> exact of_pure _

theorem deleteServiceMacro_respects [IsRefl Ctx R] (serviceEvent : ServiceEvent) :
    Respects R (deleteServiceMacro serviceEvent) := by
  refine getClient_bind fun ctx a ctx' h => ?_
  rcases hd : ctx.client.namespaces.lookup serviceEvent.«namespace» with _ | nsd <;>
    simp only [hd] at h
  · exact of_pure _ _ _ _ h
  rcases hm : nsd.networkMacros.lookup serviceEvent.name with _ | nmID <;> simp only [hm] at h
  · exact of_pure _ _ _ _ h
  refine ((hR.call.call_respects (by trivial)).live.bind (keepsLive_call _) fun r => ?_) ctx a ctx'
    (not_idle_of_tracked hd) h
  split
  · exact (of_pure _).live
  · exact hR.modifyClient_bind (fun _ => ⟨rfl, rfl, rfl, rfl⟩) fun _ => of_pure _

theorem handleServiceEvent_respects [IsRefl Ctx R] (serviceEvent : ServiceEvent) :
    Respects R (handleServiceEvent serviceEvent) := by
  unfold handleServiceEvent
  split
  · refine bind (hR.call.annotatedGroup_respects _) fun r => ?_
    split
    · exact of_pure _
    · refine bind (zoneAnnotationError_respects _ _) fun r => ?_
      split
      · exact of_pure _
      · exact hR.addServiceMacro_respects _ _
  · exact hR.deleteServiceMacro_respects _

/-! ### Runs of the event loop -/

theorem handle_respects [IsRefl Ctx R] : ∀ event, Respects R (handle event)
  | .ns e => bind (hR.handleNsEvent_respects e) fun _ => of_pure _
  | .service e => bind (hR.handleServiceEvent_respects e) fun _ => of_pure _

theorem runEvents_respects [IsRefl Ctx R] : ∀ events, Respects R (runEvents events)
  | [] => of_pure _
  | event :: events => bind (hR.handle_respects event) fun _ => runEvents_respects events

end HandlerRules

end NuageKubemon
