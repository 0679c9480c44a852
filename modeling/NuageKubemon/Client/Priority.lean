/-
Module: NuageKubemon.Client.Priority
Purpose: The ACL priority counter, a Go `int`. `CreateSpecificZoneAcls` asks for the zone's macro
  group, then gives both entries of the zone the priority `300 + NextAvailablePriority()` and, after
  each entry is made, sets the counter one past that priority; no other path moves the counter.
  Each of these additions wraps at `2^63`. So over every run of events, from any state and with
  any answers from the SDN, as long as the counter is an `int` that stays below `2^63` by 301 for
  each macro group the run asks for, no addition wraps: the counter does not go down and moves by
  at most 301 per group, and the zone-specific entries the controller asks for in one direction
  have strictly increasing priorities, none below `300 +` the counter the run starts from. No two
  entries of one ACL template share a priority. The walk of `Client.Walk` carries this over every
  handler; the one step it needs proved here is the zone's ACLs.
Trusted boundary: none beyond that of `Client.State`.
Main exports: zonePriorities, macroGroupRequests, PriorityStep, priorityStep_rules,
  runEvents_priorities_increase
-/
import NuageKubemon.Client.Walk

namespace NuageKubemon

/-- The priorities of the zone-specific ACL entries requested in `reqs` in one direction, in
order. -/
def zonePriorities (ingress : Bool) (reqs : List Request) : List Int :=
  reqs.filterMap fun
    | .createAclEntry i entry =>
      if i = ingress ∧ entry.locationType = "ZONE" then some entry.priority else none
    | _ => none

/-- The number of macro groups `reqs` asks the SDN to make. -/
def macroGroupRequests (reqs : List Request) : Nat :=
  reqs.countP fun
    | .createNetworkMacroGroup _ => true
    | _ => false

@[simp] theorem zonePriorities_nil (ingress : Bool) : zonePriorities ingress [] = [] := rfl

@[simp] theorem zonePriorities_append (ingress : Bool) (l₁ l₂ : List Request) :
    zonePriorities ingress (l₁ ++ l₂) = zonePriorities ingress l₁ ++ zonePriorities ingress l₂ :=
  List.filterMap_append _ _ _

@[simp] theorem macroGroupRequests_append (l₁ l₂ : List Request) :
    macroGroupRequests (l₁ ++ l₂) = macroGroupRequests l₁ + macroGroupRequests l₂ :=
  List.countP_append _ _ _

theorem zonePriorities_of_plain {req : Request} (h : req.Plain) (ingress : Bool) :
    zonePriorities ingress [req] = [] := by
  cases req <;> first | rfl | exact h.elim

/-- Requests that ask for no ACL entry ask for no zone-specific one. -/
theorem zonePriorities_of_no_entry {reqs : List Request}
    (h : ∀ req ∈ reqs, ∀ i e, req ≠ .createAclEntry i e) (ingress : Bool) :
    zonePriorities ingress reqs = [] :=
  List.filterMap_eq_nil_iff.2 fun req hr => by
    cases req <;> first | rfl | exact absurd rfl (h _ hr _ _)

/-- From `ctx` to `ctx'` the request log only grows. While the counter is an `int` that stays
below `2^63` by 301 for each macro group asked for, the counter does not go down and grows by at
most that much, and the requests added ask in each direction for zone-specific entries of
increasing priorities, from `300 +` the first counter to below `300 +` the last. -/
def PriorityStep (ctx ctx' : Ctx) : Prop :=
  ∃ new, ctx'.sent = ctx.sent ++ new ∧
    (-2 ^ 63 ≤ ctx.client.nextAvailablePriority →
      ctx.client.nextAvailablePriority + 301 * macroGroupRequests new < 2 ^ 63 →
      ctx.client.nextAvailablePriority ≤ ctx'.client.nextAvailablePriority ∧
      ctx'.client.nextAvailablePriority ≤
        ctx.client.nextAvailablePriority + 301 * macroGroupRequests new ∧
      ∀ ingress, (zonePriorities ingress new).Pairwise (· < ·) ∧
        ∀ p ∈ zonePriorities ingress new,
          300 + ctx.client.nextAvailablePriority ≤ p ∧ p < 300 + ctx'.client.nextAvailablePriority)

namespace PriorityStep

/-- A step that keeps the counter and asks for no zone-specific entry. -/
theorem of_counter {ctx ctx' : Ctx} {new : List Request} (hs : ctx'.sent = ctx.sent ++ new)
    (hc : ctx'.client.nextAvailablePriority = ctx.client.nextAvailablePriority)
    (hnew : ∀ ingress, zonePriorities ingress new = []) : PriorityStep ctx ctx' :=
  ⟨new, hs, fun _ _ => ⟨hc.ge, by omega, fun ingress => by simp [hnew ingress]⟩⟩

instance : IsRefl Ctx PriorityStep := ⟨fun _ => of_counter (List.append_nil _).symm rfl fun _ => rfl⟩

/-- Two stretches one after the other: the second starts from where the first leaves the counter,
so the second's priorities start where the first's end, and the bound carries over. -/
theorem trans {ctx ctx₁ ctx' : Ctx} : PriorityStep ctx ctx₁ → PriorityStep ctx₁ ctx' →
    PriorityStep ctx ctx' := by
  refine fun ⟨new₁, hs₁, h₁⟩ ⟨new₂, hs₂, h₂⟩ => ⟨new₁ ++ new₂,
    by rw [hs₂, hs₁, List.append_assoc], fun hlo hhi => ?_⟩
  simp only [macroGroupRequests_append, Nat.cast_add] at hhi ⊢
  obtain ⟨hle₁, hup₁, hp₁⟩ := h₁ hlo (by omega)
  obtain ⟨hle₂, hup₂, hp₂⟩ := h₂ (by omega) (by omega)
  refine ⟨hle₁.trans hle₂, by omega, fun ingress => ?_⟩
  obtain ⟨hsort₁, hin₁⟩ := hp₁ ingress
  obtain ⟨hsort₂, hin₂⟩ := hp₂ ingress
  rw [zonePriorities_append, List.pairwise_append]
  refine ⟨⟨hsort₁, hsort₂, fun p hp q hq => (hin₁ p hp).2.trans_le (hin₂ q hq).1⟩, fun p hp => ?_⟩
  rcases List.mem_append.1 hp with hp | hp
  · exact ⟨(hin₁ p hp).1, (hin₁ p hp).2.trans_le (by omega)⟩
  · exact ⟨le_trans (by omega) (hin₂ p hp).1, (hin₂ p hp).2⟩

instance : IsTrans Ctx PriorityStep := ⟨fun _ _ _ => trans⟩

/-- A request that is no zone-specific entry. -/
theorem call {req : Request} (h : ∀ ingress, zonePriorities ingress [req] = []) (ctx : Ctx) :
    PriorityStep ctx { ctx with replies := ctx.replies.tail, sent := ctx.sent ++ [req] } :=
  of_counter rfl rfl h

theorem of_holdingsOnly {ctx ctx' : Ctx} (h : HoldingsOnly ctx ctx') : PriorityStep ctx ctx' :=
  let ⟨_, hs, hnew⟩ := h.sent
  of_counter hs h.priority <| zonePriorities_of_no_entry fun req hr i e heq => by
    rcases hnew req hr with hp | ⟨_, _, _, rfl⟩
    · exact (heq ▸ hp : Request.Plain (.createAclEntry i e))
    · cases heq

end PriorityStep

open Respects

/-! ### The zone's ACLs -/

/-- `recordNamespace` writes only the namespace records. -/
theorem recordNamespace_counter {zoneName zoneID nmgid : String} {ctx ctx' : Ctx} {a : Unit}
    (h : recordNamespace zoneName zoneID nmgid ctx = some (a, ctx')) :
    ctx'.client.nextAvailablePriority = ctx.client.nextAvailablePriority ∧
      ctx'.replies = ctx.replies ∧ ctx'.sent = ctx.sent := by
  simp only [recordNamespace, bind_run, getClient_run, Option.some_bind] at h
  rcases hl : ctx.client.namespaces.lookup zoneName with _ | d <;> simp only [hl] at h
  · obtain ⟨c, hc, ⟨⟩⟩ := Option.map_eq_some'.1 ((writeClient_run _ ctx).symm.trans h)
    obtain ⟨m, -, rfl⟩ := Option.map_eq_some'.1 hc
    exact ⟨rfl, rfl, rfl⟩
  · cases h; exact ⟨rfl, rfl, rfl⟩

theorem createDefaultZoneAcls_ordered (zoneID : String) :
    Respects PriorityStep (createDefaultZoneAcls zoneID) := by
  refine bind (of_call (.call fun _ => rfl)) fun r => ?_
  split
  · exact of_pure _
  -- the record, then both entries, of location type `ANY`
  have hany : ∀ ingress entry, entry.locationType = "ANY" →
      Respects PriorityStep (call (.createAclEntry ingress entry)) :=
    fun _ _ h => of_call (.call fun _ => by simp [zonePriorities, h])
  refine bind (fun ctx a ctx' h => let ⟨hc, _, hs⟩ := recordNamespace_counter h
    .of_counter (hs.trans (List.append_nil _).symm) hc fun _ => rfl) fun _ =>
    bind (hany _ _ rfl) fun r => ?_
  split
  · exact of_pure _
  refine bind (hany _ _ rfl) fun r => ?_
  split <;> exact of_pure _

/-- The one path that moves the counter. After the macro group, the counter goes from `c` to
`c + 1` by `NextAvailablePriority`, then to `301 + c` once an entry at `300 + c` is made; each
direction gets at most that one entry. Below the bound no addition wraps. -/
theorem createSpecificZoneAcls_ordered (zoneName zoneID : String) :
    Respects PriorityStep (createSpecificZoneAcls zoneName zoneID) := by
  intro ctx a ctx' h
  simp only [createSpecificZoneAcls, bind_run, call_run, Option.some_bind] at h
  rcases hg : ctx.replies.headD (.error "EOF") with e | nmgid <;> simp only [hg] at h
  · -- the group is refused
    obtain ⟨-, rfl⟩ := Prod.mk.inj (Option.some.inj h)
    exact .call (fun _ => by rfl) _
  obtain ⟨⟨_, ⟨c₁, rs₁, s₁⟩⟩, h₁, h⟩ := Option.bind_eq_some.1 h
  obtain ⟨hc₁, rfl, rfl⟩ := recordNamespace_counter h₁
  simp only [nextAvailablePriority, setNextAvailablePriority, bind_run, getClient_run,
    modifyClient_run, Option.some_bind, pure_run, call_run] at h
  simp only at hc₁
  -- below the bound the three additions do not wrap
  have hwrap : -2 ^ 63 ≤ ctx.client.nextAvailablePriority →
      ctx.client.nextAvailablePriority + 301 < 2 ^ 63 →
      wrapInt (c₁.nextAvailablePriority + 1) = ctx.client.nextAvailablePriority + 1 ∧
      wrapInt (ctx.client.nextAvailablePriority + 300 + 1) = ctx.client.nextAvailablePriority + 301 ∧
      wrapInt (300 + c₁.nextAvailablePriority) = ctx.client.nextAvailablePriority + 300 := by
    intro hlo hhi
    rw [hc₁]
    refine ⟨?_, ?_, ?_⟩ <;> rw [wrapInt_of_range] <;> omega
  rcases hr : ctx.replies.tail.headD (.error "EOF") with e | _ <;>
    simp only [hr, bind_run, modifyClient_run, Option.some_bind, call_run, pure_run] at h
  · -- the ingress entry is refused: the counter stays at `c + 1`
    obtain ⟨-, rfl⟩ := Prod.mk.inj (Option.some.inj h)
    refine ⟨_, List.append_assoc _ _ _, fun hlo hhi => ?_⟩
    simp only [macroGroupRequests, List.singleton_append, List.countP_cons, List.countP_nil,
      ite_true, Bool.false_eq_true, ite_false] at hhi ⊢
    obtain ⟨h₁, -, h₃⟩ := hwrap hlo (by omega)
    simp only [h₁, h₃]
    refine ⟨by omega, by omega, fun ingress => ?_⟩
    cases ingress <;> simp [zonePriorities]
    omega
  · -- the ingress entry is made: the counter is `301 + c` whatever the egress reply is
    rcases hr₂ : ctx.replies.tail.tail.headD (.error "EOF") with e | _ <;>
      simp only [hr₂, bind_run, modifyClient_run, Option.some_bind, pure_run] at h
    all_goals
      obtain ⟨-, rfl⟩ := Prod.mk.inj (Option.some.inj h)
      refine ⟨_, (List.append_assoc _ _ _).trans (List.append_assoc _ _ _), fun hlo hhi => ?_⟩
      simp only [macroGroupRequests, List.singleton_append, List.countP_cons, List.countP_nil,
        ite_true, Bool.false_eq_true, ite_false] at hhi ⊢
      obtain ⟨-, h₂, h₃⟩ := hwrap hlo (by omega)
      simp only [h₂, h₃]
      refine ⟨by omega, by omega, fun ingress => ?_⟩
      cases ingress <;> simp [zonePriorities] <;> omega

theorem createZoneAcls_ordered (name zoneID : String) :
    Respects PriorityStep (createZoneAcls name zoneID) := by
  unfold createZoneAcls
  split
  · exact createDefaultZoneAcls_ordered _
  · exact createSpecificZoneAcls_ordered _ _

/-! ### Runs of the event loop -/

/-- Plain calls, writes into the records and the two blocks of subnets keep the counter and ask for
no zone-specific entry; the zone's ACLs are the step above. -/
theorem priorityStep_rules : HandlerRules PriorityStep where
  call _ _ h := .call (zonePriorities_of_plain h) _
  record _ _ _ h := .of_counter (List.append_nil _).symm h.priority fun _ => rfl
  subnet _ _ := Respects.live fun ctx a ctx' h =>
    .of_holdingsOnly (allocZoneSubnet_holdingsOnly _ _ ctx a ctx' h)
  release _ := Respects.live fun ctx a ctx' h =>
    .of_holdingsOnly (releaseZoneSubnets_holdingsOnly _ ctx a ctx' h)
  acls _ _ := (createZoneAcls_ordered _ _).live

/-- Over every run of events, from any state and with any answers from the SDN, the run only
appends to the request log. When the counter it starts from is an `int` that lies below `2^63` by
301 for each macro group the run asks for, no addition wraps: the counter does not go down and
grows by at most that much, and in each direction the run asks for zone-specific ACL entries of
strictly increasing priorities, all at least `300 +` the counter it starts from and below `300 +`
the counter it leaves. -/
theorem runEvents_priorities_increase (events : List Event) (ctx ctx' : Ctx)
    (h : runEvents events ctx = some ((), ctx')) :
    ∃ new, ctx'.sent = ctx.sent ++ new ∧
      (-2 ^ 63 ≤ ctx.client.nextAvailablePriority →
        ctx.client.nextAvailablePriority + 301 * macroGroupRequests new < 2 ^ 63 →
        ctx.client.nextAvailablePriority ≤ ctx'.client.nextAvailablePriority ∧
        ctx'.client.nextAvailablePriority ≤
          ctx.client.nextAvailablePriority + 301 * macroGroupRequests new ∧
        ∀ ingress, (zonePriorities ingress new).Pairwise (· < ·) ∧
          ∀ p ∈ zonePriorities ingress new,
            300 + ctx.client.nextAvailablePriority ≤ p ∧
              p < 300 + ctx'.client.nextAvailablePriority) :=
  priorityStep_rules.runEvents_respects events ctx () ctx' h

/-- A run whose first event ends in `ctx'` goes on from `ctx'`. -/
theorem runEvents_cons_of_handle {event : Event} {events : List Event} {ctx ctx' : Ctx}
    (h : handle event ctx = some ((), ctx')) :
    runEvents (event :: events) ctx = runEvents events ctx' := by
  simp only [runEvents, bind_run, h, Option.some_bind]

/-- Two tracked namespaces added one after the other, with every request answered: both entries
of the first zone get priority 300, and both of the second 601, since the counter was set to 301. -/
theorem runEvents_priorities_increase_two_zones :
    let c : NuageVsdClient := ⟨.make, .make, .empty, 8,
      ⟨some fun ns => if ns = "frontend" ∨ ns = "backend" then some ⟨"", "", .make⟩ else none⟩, 0⟩
    ∃ ctx', runEvents [.ns ⟨.added, "frontend"⟩, .ns ⟨.added, "backend"⟩]
        ⟨c, [.ok "zone-1", .ok "group-1", .ok "", .ok "",
          .ok "zone-2", .ok "group-2", .ok "", .ok ""], []⟩ = some ((), ctx') ∧
      zonePriorities true ctx'.sent = [300, 601] ∧ zonePriorities false ctx'.sent = [300, 601] ∧
      ∃ new, ctx'.sent = [] ++ new ∧
        (-2 ^ 63 ≤ (0 : Int) → (0 : Int) + 301 * macroGroupRequests new < 2 ^ 63 →
          0 ≤ ctx'.client.nextAvailablePriority ∧
          ctx'.client.nextAvailablePriority ≤ 0 + 301 * macroGroupRequests new ∧
          ∀ ingress, (zonePriorities ingress new).Pairwise (· < ·) ∧
            ∀ p ∈ zonePriorities ingress new,
              300 + 0 ≤ p ∧ p < 300 + ctx'.client.nextAvailablePriority) := by
  intro c
  -- the state after each event is written out, so that each event is evaluated on its own
  let entry : AclEntry :=
    ⟨"Allow Traffic Between Zone - frontend And Its Services", "", "ZONE", "group-1", 300⟩
  let sent₁ : List Request := [.getZoneID "frontend", .createNetworkMacroGroup "frontend",
    .createAclEntry true entry, .createAclEntry false entry]
  let c₁ : NuageVsdClient := { c with
    namespaces := ⟨some (Function.update (fun ns => if ns = "frontend" ∨ ns = "backend" then
      some ⟨"", "", .make⟩ else none) "frontend" (some ⟨"zone-1", "", .make⟩))⟩
    nextAvailablePriority := 301 }
  have h₁ : handle (.ns ⟨.added, "frontend"⟩)
      ⟨c, [.ok "zone-1", .ok "group-1", .ok "", .ok "", .ok "zone-2", .ok "group-2", .ok "",
        .ok ""], []⟩ = some ((), ⟨c₁, [.ok "zone-2", .ok "group-2", .ok "", .ok ""], sent₁⟩) := rfl
  let entry₂ : AclEntry :=
    ⟨"Allow Traffic Between Zone - backend And Its Services", "", "ZONE", "group-2", 601⟩
  let c₂ : NuageVsdClient := { c₁ with
    namespaces := ⟨some (Function.update (Function.update (fun ns => if ns = "frontend" ∨
      ns = "backend" then some ⟨"", "", .make⟩ else none) "frontend" (some ⟨"zone-1", "", .make⟩))
      "backend" (some ⟨"zone-2", "", .make⟩))⟩
    nextAvailablePriority := 602 }
  have h₂ : handle (.ns ⟨.added, "backend"⟩) ⟨c₁, [.ok "zone-2", .ok "group-2", .ok "", .ok ""],
      sent₁⟩ = some ((), ⟨c₂, [], sent₁ ++ [.getZoneID "backend", .createNetworkMacroGroup "backend",
        .createAclEntry true entry₂, .createAclEntry false entry₂]⟩) := rfl
  have h := (runEvents_cons_of_handle h₁).trans ((@runEvents_cons_of_handle _ [] _ _ h₂).trans rfl)
  exact ⟨_, h, by decide, by decide, runEvents_priorities_increase _ _ _ h⟩

end NuageKubemon
