/-
Module: NuageKubemon.Client.Handlers
Purpose: `HandleNsEvent` and `HandleServiceEvent` with the zone ACL helpers they call, statement by
  statement, in the `Handler` monad. A handler's result is its Go `error`: `none` for nil, or the
  error's text. Early `return`s are kept; a write into a nil map, a `pool.Free` that panics, and
  `nvsdc.namespaces[ns].NetworkMacros[svc] = id` for an untracked `ns` (whose zero record has a
  nil map) are panics. `nsd.NetworkMacroGroupID = ...` on a copy of a record changes nothing and is
  left out; a write through a record's `NetworkMacros` reaches the map the record holds. One
  iteration of the event loop `Run` is `handle`, which drops the returned error, and `runEvents`
  runs it over the events in the order they arrive.
Trusted boundary: none beyond that of `Client.State`.
Main exports: nextAvailablePriority, createDefaultZoneAcls, createSpecificZoneAcls,
  deleteZoneAcls, deleteDefaultZoneAcls, deleteSpecificZoneAcls, releaseSubnets,
  releaseZoneSubnets, allocZoneSubnet, addNewNamespace,
  addTrackedNamespace, deleteTrackedNamespace, deleteUntrackedNamespace, handleNsEvent,
  annotatedGroup, zoneAnnotationError, addServiceMacro, deleteServiceMacro, handleServiceEvent,
  Event, handle, runEvents
-/
import NuageKubemon.Client.State

namespace NuageKubemon

/-! ### Small steps -/

/-- A map write into the client that panics on a nil map. -/
def writeClient (f : NuageVsdClient → Option NuageVsdClient) : Handler Unit := do
  let c ← liftPanic (f (← getClient))
  modifyClient fun _ => c

/-- The record of `ns`, or the zero record when `ns` is not tracked. -/
def NuageVsdClient.namespaceData (c : NuageVsdClient) (ns : String) : NamespaceData :=
  (c.namespaces.lookup ns).getD .zero

/-- `NextAvailablePriority`: the counter, incremented by its `defer` (`int` arithmetic wraps). -/
def nextAvailablePriority : Handler Int := do
  let c ← getClient
  modifyClient fun c => { c with nextAvailablePriority := wrapInt (c.nextAvailablePriority + 1) }
  return c.nextAvailablePriority

/-- `SetNextAvailablePriority`. -/
def setNextAvailablePriority (val : Int) : Handler Unit :=
  modifyClient fun c => { c with nextAvailablePriority := val }

/-- `nvsdc.pool.Free(subnet)` with its error dropped; a panic inside `Free` is a panic. -/
def freeSubnet (subnet : IPv4Subnet) : Handler Unit :=
  writeClient fun c => (c.pool.freeDiscard subnet).map fun pool => { c with pool }

/-- After the macro group of a zone is made: a namespace not yet tracked is recorded with the zone
and the group; a tracked one keeps its record, since `nsd.NetworkMacroGroupID = nmgid` assigns a
copy. -/
def recordNamespace (zoneName zoneID nmgid : String) : Handler Unit := do
  match (← getClient).namespaces.lookup zoneName with
  | some _ => pure ()
  | none => writeClient fun c =>
      (c.namespaces.insert zoneName ⟨zoneID, nmgid, .make⟩).map fun m => { c with namespaces := m }

/-! ### Zone ACLs -/

/-- `CreateDefaultZoneAcls`: the macro group `default`, then an ingress and an egress entry at
priority 1 that let every zone reach it. -/
def createDefaultZoneAcls (zoneID : String) : Handler (Option String) := do
  match ← call (.createNetworkMacroGroup "default") with
  | .error e => return some e
  | .ok nmgid =>
    recordNamespace "default" zoneID nmgid
    let aclEntry : AclEntry := {
      description := "Allow Traffic Between All Zones and Default Zone", locationID := "",
      locationType := "ANY", networkID := nmgid, priority := 1 }
    match ← call (.createAclEntry true aclEntry) with
    | .error e => return some e
    | .ok _ =>
      match ← call (.createAclEntry false aclEntry) with
      | .error e => return some e
      | .ok _ => return none

/-- `CreateSpecificZoneAcls`: the zone's macro group, then an ingress and an egress entry at
priority `300 + NextAvailablePriority()` from the zone to it; after each entry is made the counter
is set one past that priority. Both sums are `int` arithmetic and wrap. -/
def createSpecificZoneAcls (zoneName zoneID : String) : Handler (Option String) := do
  match ← call (.createNetworkMacroGroup zoneName) with
  | .error e => return some e
  | .ok nmgid =>
    recordNamespace zoneName zoneID nmgid
    let locationID := ((← getClient).namespaceData zoneName).zoneID
    let p ← nextAvailablePriority
    let aclEntry : AclEntry := {
      description := "Allow Traffic Between Zone - " ++ zoneName ++ " And Its Services",
      locationID, locationType := "ZONE", networkID := nmgid, priority := wrapInt (300 + p) }
    match ← call (.createAclEntry true aclEntry) with
    | .error e => return some e
    | .ok _ =>
      setNextAvailablePriority (wrapInt (aclEntry.priority + 1))
      match ← call (.createAclEntry false aclEntry) with
      | .error e => return some e
      | .ok _ =>
        setNextAvailablePriority (wrapInt (aclEntry.priority + 1))
        return none

/-- The body `DeleteDefaultZoneAcls` and `DeleteSpecificZoneAcls` share, for the record of
`zoneName` and the entry built from it: find and delete the ingress entry, then the egress entry,
then delete the record's macro group if it has one. A lookup that finds no entry and no error
returns that nil error at once, and the rest is skipped. -/
def deleteZoneAcls (zoneName : String) (entry : NamespaceData → AclEntry) :
    Handler (Option String) := do
  let aclEntry := entry ((← getClient).namespaceData zoneName)
  match ← call (.getAclEntry true aclEntry) with
  | .error e => return some e
  | .ok "" => return none
  | .ok aclID =>
    match ← call (.deleteAclEntry true aclID) with
    | .error e => return some e
    | .ok _ =>
      match ← call (.getAclEntry false aclEntry) with
      | .error e => return some e
      | .ok "" => return none
      | .ok aclID =>
        match ← call (.deleteAclEntry false aclID) with
        | .error e => return some e
        | .ok _ =>
          let nmg := ((← getClient).namespaceData zoneName).networkMacroGroupID
          if nmg ≠ "" then
            match ← call (.deleteNetworkMacroGroup nmg) with
            | .error e => return some e
            | .ok _ => return none
          else return none

/-- `DeleteDefaultZoneAcls`; its `zoneID` argument is not read. -/
def deleteDefaultZoneAcls (_zoneID : String) : Handler (Option String) :=
  deleteZoneAcls "default" fun nsd =>
    { description := "Allow Traffic Between All Zones and Default Zone", locationID := "",
      locationType := "ANY", networkID := nsd.networkMacroGroupID, priority := 0 }

/-- `DeleteSpecificZoneAcls`. -/
def deleteSpecificZoneAcls (zoneName : String) : Handler (Option String) :=
  deleteZoneAcls zoneName fun nsd =>
    { description := "Allow Traffic Between Zone - " ++ zoneName ++ " And Its Services",
      locationID := nsd.zoneID, locationType := "ZONE", networkID := nsd.networkMacroGroupID,
      priority := 0 }

/-! ### Namespace events -/

/-- The loop of `HandleNsEvent`'s Deleted branch over a zone's subnet list: `DeleteSubnet`, then
`pool.Free`, for each node, their failures only logged. -/
def releaseSubnets : List SubnetListNode → Handler Unit
  | [] => pure ()
  | node :: rest => do
    let _ ← call (.deleteSubnet node.subnetID)
    freeSubnet node.subnet
    releaseSubnets rest

/-- The ACLs of a zone: the default variant for the namespace `default`, the specific one else. -/
def createZoneAcls (name zoneID : String) : Handler (Option String) :=
  if name = "default" then createDefaultZoneAcls zoneID else createSpecificZoneAcls name zoneID

/-- The deletion of a zone's ACLs, in the same two variants. -/
def deleteZoneAclsFor (name zoneID : String) : Handler (Option String) :=
  if name = "default" then deleteDefaultZoneAcls zoneID else deleteSpecificZoneAcls name

/-- The subnet of a new namespace's zone, the middle of `HandleNsEvent`'s Added branch: allocate a
subnet of `32 - subnetSize` bits and make it in the zone, freeing it again if that fails, then record
it as the zone's subnet list. The result is the error the branch returns, `none` to go on. -/
def allocZoneSubnet (name zoneID : String) : Handler (Option String) := do
  let c ← getClient
  match c.pool.alloc (32 - c.subnetSize) with
  | none => failure
  | some (pool, .error e) =>
    modifyClient fun c => { c with pool }
    return some e.message
  | some (pool, .ok subnet) =>
    modifyClient fun c => { c with pool }
    match ← call (.createSubnet (name ++ "-0") zoneID subnet) with
    | .error e =>
      freeSubnet subnet
      return some e
    | .ok subnetID =>
      writeClient fun c =>
        (c.subnets.insert zoneID [⟨subnetID, subnet⟩]).map fun m => { c with subnets := m }
      return none

/-- `HandleNsEvent`, Added, for a namespace not tracked: make its zone and record it in the nil-able
`nvsdc.zones`, give the zone its subnet, then make the zone's ACLs. -/
def addNewNamespace (name : String) : Handler (Option String) := do
  match ← call (.createZone name) with
  | .error e => return some e
  | .ok zoneID =>
    writeClient fun c => (c.zones.insert name zoneID).map fun m => { c with zones := m }
    match ← allocZoneSubnet name zoneID with
    | some e => return some e
    | none => createZoneAcls name zoneID

/-- `HandleNsEvent`, Added, for a tracked namespace: look its zone up, make the zone's ACLs, and
store a fresh record for it, with no macro group and no macros. -/
def addTrackedNamespace (name : String) : Handler (Option String) := do
  match ← call (.getZoneID name) with
  | .error e => return some e
  | .ok "" => return some "Invalid zone ID returned"
  | .ok id =>
    match ← createZoneAcls name id with
    | some e => return some e
    | none =>
      writeClient fun c => (c.namespaces.insert name ⟨id, "", .make⟩).map
        fun m => { c with namespaces := m }
      return none

/-- The `nvsdc.subnets[zone.ZoneID]` block of `HandleNsEvent`'s Deleted branch: when the zone has a
subnet list, delete and free each of its subnets, then drop the list. -/
def releaseZoneSubnets (zoneID : String) : Handler Unit := do
  match (← getClient).subnets.lookup zoneID with
  | some subnetsHead =>
    releaseSubnets subnetsHead
    modifyClient fun c => { c with subnets := c.subnets.erase zoneID }
  | none => pure ()

/-- `HandleNsEvent`, Deleted, for a tracked namespace: delete the zone's ACLs, then delete and free
each subnet of its list and drop the list, stop tracking the namespace, and delete the zone. -/
def deleteTrackedNamespace (name : String) (zone : NamespaceData) : Handler (Option String) := do
  match ← deleteZoneAclsFor name zone.zoneID with
  | some e => return some e
  | none =>
    releaseZoneSubnets zone.zoneID
    modifyClient fun c => { c with namespaces := c.namespaces.erase name }
    match ← call (.deleteZone zone.zoneID) with
    | .error e => return some e
    | .ok _ => return none

/-- `HandleNsEvent`, Deleted, for a namespace not tracked: look its zone up, and if the SDN has
one, delete the zone's ACLs and the zone. -/
def deleteUntrackedNamespace (name : String) : Handler (Option String) := do
  match ← call (.getZoneID name) with
  | .error e => return some e
  | .ok "" => return none
  | .ok id =>
    match ← deleteZoneAclsFor name id with
    | some e => return some e
    | none =>
      match ← call (.deleteZone id) with
      | .error e => return some e
      | .ok _ => return none

/-- `HandleNsEvent`: each event takes one of four branches, by its type and by whether the
namespace is tracked. -/
def handleNsEvent (nsEvent : NamespaceEvent) : Handler (Option String) := do
  match nsEvent.type with
  | .added =>
    match (← getClient).namespaces.lookup nsEvent.name with
    | none => addNewNamespace nsEvent.name
    | some _ => addTrackedNamespace nsEvent.name
  | .deleted =>
    match (← getClient).namespaces.lookup nsEvent.name with
    | some zone => deleteTrackedNamespace nsEvent.name zone
    | none => deleteUntrackedNamespace nsEvent.name

/-! ### Service events -/

/-- The macro group a service Added event names through its annotations: the
`network-macro-group.id` annotation, else the group the `network-macro-group.name` annotation
resolves to (an error if it does not), else `""`. -/
def annotatedGroup (serviceEvent : ServiceEvent) : Handler (Except String String) := do
  match serviceEvent.nuageAnnotations "network-macro-group.id" with
  | some nmgID => return .ok nmgID
  | none =>
    match serviceEvent.nuageAnnotations "network-macro-group.name" with
    | none => return .ok ""
    | some nmgName =>
      match ← call (.getNetworkMacroGroupID nmgName) with
      | .error _ =>
        return .error "Incorrect annotation information for creating service network macro"
      | .ok nmgID => return .ok nmgID

/-- The check of a service's `zone` annotation: a zone the controller tracks must be the service's
own namespace, and a zone it does not track needs a macro group from the other annotations. -/
def zoneAnnotationError (serviceEvent : ServiceEvent) (nmgID : String) :
    Handler (Option String) := do
  match serviceEvent.nuageAnnotations "zone" with
  | none => return none
  | some v =>
    if ((← getClient).namespaces.lookup v).isSome then
      return if v ≠ serviceEvent.«namespace» then
        some "Incorrect annotation information for creating service network macro" else none
    else
      return if nmgID = "" then
        some "Insufficient annotation information for creating service network macro" else none

/-- The rest of the Added branch of `HandleServiceEvent`: default the group to the namespace's own,
make the service's macro, record it in the namespace's `NetworkMacros` and put it into the group.
A failed `CreateNetworkMacro` is only logged, and the handler returns nil. -/
def addServiceMacro (serviceEvent : ServiceEvent) (nmgID : String) : Handler (Option String) := do
  let c ← getClient
  let nmgID := if nmgID = "" then (c.namespaceData serviceEvent.«namespace»).networkMacroGroupID
    else nmgID
  match ← call (.createNetworkMacro
      ("NetworkMacro for service: " ++ serviceEvent.«namespace» ++ "/" ++ serviceEvent.name)
      serviceEvent.clusterIP) with
  | .error _ => return none
  | .ok networkMacroID =>
    let nsd := (← getClient).namespaceData serviceEvent.«namespace»
    let macros ← liftPanic (nsd.networkMacros.insert serviceEvent.name networkMacroID)
    modifyClient fun c => { c with
      namespaces := c.namespaces.modify serviceEvent.«namespace» fun d =>
        { d with networkMacros := macros } }
    match ← call (.addToNetworkMacroGroup nmgID networkMacroID) with
    | .error e => return some e
    | .ok _ => return none

/-- The Deleted branch of `HandleServiceEvent`: find the service's macro in its namespace's record,
delete it, and then delete from the record's map the key equal to the macro's ID. -/
def deleteServiceMacro (serviceEvent : ServiceEvent) : Handler (Option String) := do
  let zone := serviceEvent.«namespace»
  match (← getClient).namespaces.lookup zone with
  | none => return none
  | some nsd =>
    match nsd.networkMacros.lookup serviceEvent.name with
    | none => return none
    | some nmID =>
      match ← call (.deleteNetworkMacro nmID) with
      | .error e => return some e
      | .ok _ =>
        modifyClient fun c => { c with
          namespaces := c.namespaces.modify zone fun d =>
            { d with networkMacros := d.networkMacros.erase nmID } }
        return none

/-- `HandleServiceEvent`. -/
def handleServiceEvent (serviceEvent : ServiceEvent) : Handler (Option String) := do
  match serviceEvent.type with
  | .added =>
    match ← annotatedGroup serviceEvent with
    | .error e => return some e
    | .ok nmgID =>
      match ← zoneAnnotationError serviceEvent nmgID with
      | some e => return some e
      | none => addServiceMacro serviceEvent nmgID
  | .deleted => deleteServiceMacro serviceEvent

/-! ### The event loop -/

/-- An event from either channel of `Run`. -/
inductive Event where
  | ns (nsEvent : NamespaceEvent)
  | service (serviceEvent : ServiceEvent)

/-- One iteration of `Run`: the event is handled and its error dropped. -/
def handle : Event → Handler Unit
  | .ns e => do let _ ← handleNsEvent e
  | .service e => do let _ ← handleServiceEvent e

/-- The first events of `Run`'s loop, handled in the order they arrive. -/
def runEvents : List Event → Handler Unit
  | [] => pure ()
  | event :: events => do handle event; runEvents events

end NuageKubemon
