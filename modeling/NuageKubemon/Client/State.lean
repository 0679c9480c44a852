/-
Module: NuageKubemon.Client.State
Purpose: The controller of `scripts/build-nuage-infra-docker-image.sh`, `NuageVsdClient`, as far as
  its event handlers read and write it: the Go maps of tracked namespaces, of zones and of subnet
  lists, the subnet pool, the subnet size and the ACL priority counter. A Go map is a `GoMap`: the
  nil map reads as empty and panics on a write. The SDN is a stream of answers, one for each call of
  a REST helper (`CreateZone`, `GetZoneID`, ...): the ID the helper returns (empty where it returns
  none) or its error. The requests are logged with the data the handlers put in them. A handler
  runs in `Handler`, a state monad over `Option` in which `none` is a panic. `init` is the state
  `Init` leaves, or `none` where `Init` stops the process with `glog.Fatal`.
Trusted boundary: each REST helper is its result. The HTTP exchange inside it is not modelled, and
  the SDN is taken to answer every list request with at least one element, as its contract says
  (otherwise `result[0]` would panic inside the helper).
Main exports: GoMap, NamespaceData, SubnetListNode, NuageVsdClient, NamespaceEvent, ServiceEvent,
  Reply, AclEntry, Request, Ctx, Handler, call, liftPanic, init
-/
import NuageKubemon.Subnet.Format
import NuageKubemon.Pool.Basic

namespace NuageKubemon

/-! ### Go maps -/

/-- A Go `map[κ]ν`: `none` is the nil map, which reads as empty and panics on a write. -/
structure GoMap (κ ν : Type) where
  table : Option (κ → Option ν)

namespace GoMap

variable {κ ν : Type}

/-- The nil map, the zero value of a map type. -/
def nil : GoMap κ ν := ⟨none⟩

/-- `make(map[κ]ν)`. -/
def make : GoMap κ ν := ⟨some fun _ => none⟩

/-- `v, ok := m[k]`, with `none` for a missing key. -/
def lookup (m : GoMap κ ν) (k : κ) : Option ν := m.table.bind fun f => f k

@[simp] theorem lookup_nil (k : κ) : (nil : GoMap κ ν).lookup k = none := rfl

@[simp] theorem lookup_make (k : κ) : (make : GoMap κ ν).lookup k = none := rfl

/-- A key found in a map is found in a map that has been made. -/
theorem table_of_lookup {m : GoMap κ ν} {k : κ} {v : ν} (h : m.lookup k = some v) :
    m.table.isSome := by
  obtain ⟨f, hf, -⟩ := Option.bind_eq_some.1 h
  simp [hf]

variable [DecidableEq κ]

/-- `m[k] = v`, which panics on the nil map. -/
def insert (m : GoMap κ ν) (k : κ) (v : ν) : Option (GoMap κ ν) :=
  m.table.map fun f => ⟨some (Function.update f k (some v))⟩

/-- `delete(m, k)`, which does nothing on the nil map. -/
def erase (m : GoMap κ ν) (k : κ) : GoMap κ ν := ⟨m.table.map fun f => Function.update f k none⟩

/-- A change made through a reference held in the value at `k`, when there is one: Go's
`m[k].field[key] = v` on a map of structs whose field is itself a map. -/
def modify (m : GoMap κ ν) (k : κ) (g : ν → ν) : GoMap κ ν :=
  ⟨m.table.map fun f => Function.update f k ((f k).map g)⟩

@[simp] theorem insert_nil (k : κ) (v : ν) : (nil : GoMap κ ν).insert k v = none := rfl

theorem insert_eq_none_iff {m : GoMap κ ν} {k : κ} {v : ν} : m.insert k v = none ↔ m.table = none := by
  unfold insert; cases m.table <;> simp

@[simp] theorem isSome_insert (m : GoMap κ ν) (k : κ) (v : ν) :
    (m.insert k v).isSome = m.table.isSome := by
  unfold insert; cases m.table <;> rfl

theorem lookup_of_insert {m m' : GoMap κ ν} {k : κ} {v : ν} (h : m.insert k v = some m') (k' : κ) :
    m'.lookup k' = if k' = k then some v else m.lookup k' := by
  obtain ⟨f, hf, rfl⟩ := Option.map_eq_some'.1 h
  by_cases hk : k' = k
  · subst hk; simp [lookup, hf]
  · simp [lookup, hf, hk, Function.update_noteq hk]

theorem isSome_lookup_of_insert {m m' : GoMap κ ν} {k : κ} {v : ν} (h : m.insert k v = some m')
    {k' : κ} (hk : (m.lookup k').isSome) : (m'.lookup k').isSome := by
  rw [lookup_of_insert h]
  split_ifs <;> simp [hk]

theorem table_of_insert {m m' : GoMap κ ν} {k : κ} {v : ν} (h : m.insert k v = some m') :
    m'.table.isSome := by
  obtain ⟨f, -, rfl⟩ := Option.map_eq_some'.1 h; rfl

@[simp] theorem lookup_erase (m : GoMap κ ν) (k k' : κ) :
    (m.erase k).lookup k' = if k' = k then none else m.lookup k' := by
  unfold erase lookup
  cases m.table with
  | none => simp
  | some f => by_cases hk : k' = k <;> simp [hk]

@[simp] theorem lookup_modify (m : GoMap κ ν) (k k' : κ) (g : ν → ν) :
    (m.modify k g).lookup k' = if k' = k then (m.lookup k).map g else m.lookup k' := by
  unfold modify lookup
  cases m.table with
  | none => simp
  | some f => by_cases hk : k' = k <;> simp [hk]

@[simp] theorem table_erase (m : GoMap κ ν) (k : κ) : (m.erase k).table.isSome = m.table.isSome := by
  unfold erase; cases m.table <;> rfl

@[simp] theorem table_modify (m : GoMap κ ν) (k : κ) (g : ν → ν) :
    (m.modify k g).table.isSome = m.table.isSome := by
  unfold modify; cases m.table <;> rfl

end GoMap

/-! ### The controller's state -/

/-- Modelled from the spec: the record kept for each tracked namespace, "a managed zone with that
`zoneId`, empty macro group, empty macros". The type is used by the code but not declared in
`src/`; its fields are the three the code reads and writes. -/
structure NamespaceData where
  zoneID : String
  networkMacroGroupID : String
  networkMacros : GoMap String String

/-- The zero `NamespaceData`, which a missing key of the map reads as; its map is nil. -/
def NamespaceData.zero : NamespaceData := ⟨"", "", .nil⟩

/-- One node of a `SubnetList`: the SDN's ID of a subnet and the subnet taken from the pool. The
linked list itself is a Lean `List`. -/
structure SubnetListNode where
  subnetID : String
  subnet : IPv4Subnet
deriving DecidableEq

/-- The fields of `NuageVsdClient` that the handlers read and write. `namespaces` and
`nextAvailablePriority` are used by the code though the struct in `src/` does not declare them. -/
structure NuageVsdClient where
  /-- Namespace name to zone ID; `Init` never makes this map. -/
  zones : GoMap String String
  /-- Zone ID to the list of subnets made in that zone. -/
  subnets : GoMap String (List SubnetListNode)
  pool : IPv4SubnetPool
  /-- The size in bits of the subnets allocated: size 8 gives `/24`s. -/
  subnetSize : Int
  namespaces : GoMap String NamespaceData
  nextAvailablePriority : Int

/-! ### Events and the SDN -/

/-- `api.Added` and `api.Deleted`. -/
inductive EventType where
  | added
  | deleted
deriving DecidableEq, Repr

/-- `api.NamespaceEvent`. -/
structure NamespaceEvent where
  type : EventType
  name : String
deriving DecidableEq, Repr

/-- `api.ServiceEvent`; its annotations are a `map[string]string`, read only. -/
structure ServiceEvent where
  type : EventType
  «namespace» : String
  name : String
  clusterIP : String
  nuageAnnotations : String → Option String

/-- The SDN's answer to one call of a REST helper, as the helper returns it: the ID it found or
made (`""` where it returns none), or its error. For the `PUT` of a macro into a group, success is
the status 204 or 409. -/
abbrev Reply := Except String String

/-- The fields of `api.VsdAclEntry` that the handlers fill in from their data; the others are the
same constants in every entry. `Priority` is 0 where it is not set. -/
structure AclEntry where
  description : String
  locationID : String
  locationType : String
  networkID : String
  priority : Int
deriving DecidableEq, Repr

/-- The REST calls the handlers make, with the data they put in them. -/
inductive Request where
  | createZone (name : String)
  | getZoneID (name : String)
  | deleteZone (id : String)
  | createSubnet (name zoneID : String) (subnet : IPv4Subnet)
  | deleteSubnet (id : String)
  | createNetworkMacroGroup (zoneName : String)
  | getNetworkMacroGroupID (name : String)
  | deleteNetworkMacroGroup (id : String)
  | createNetworkMacro (name address : String)
  | deleteNetworkMacro (id : String)
  /-- The `PUT` of a macro into the member list of a macro group. -/
  | addToNetworkMacroGroup (networkMacroGroupID networkMacroID : String)
  | createAclEntry (ingress : Bool) (entry : AclEntry)
  | getAclEntry (ingress : Bool) (entry : AclEntry)
  | deleteAclEntry (ingress : Bool) (id : String)
deriving DecidableEq, Repr

/-- What a handler runs on: the client, the SDN's answers still to come, and the requests made. -/
structure Ctx where
  client : NuageVsdClient
  replies : List Reply
  sent : List Request

/-- A handler's computation; `none` is a panic. -/
abbrev Handler := StateT Ctx Option

/-- A REST call: the request is logged and the next answer taken. With no answer left the call
fails, as a broken connection would. -/
def call (req : Request) : Handler Reply := fun ctx =>
  match ctx.replies with
  | [] => some (.error "EOF", { ctx with sent := ctx.sent ++ [req] })
  | r :: rs => some (r, { ctx with replies := rs, sent := ctx.sent ++ [req] })

/-- The client as the handler finds it. -/
def getClient : Handler NuageVsdClient := fun ctx => some (ctx.client, ctx)

/-- A change to the client that cannot panic. -/
def modifyClient (f : NuageVsdClient → NuageVsdClient) : Handler Unit := fun ctx =>
  some ((), { ctx with client := f ctx.client })

/-- A step that panics on `none`, such as a write into a nil map. -/
def liftPanic {α : Type} (o : Option α) : Handler α := fun ctx => o.map (·, ctx)

section Run

variable {α β : Type} (ctx : Ctx)

@[simp] theorem bind_run (x : Handler α) (f : α → Handler β) :
    (x >>= f) ctx = (x ctx).bind fun p => f p.1 p.2 := rfl

@[simp] theorem pure_run (a : α) : (pure a : Handler α) ctx = some (a, ctx) := rfl

@[simp] theorem map_run (f : α → β) (x : Handler α) :
    (f <$> x) ctx = (x ctx).map fun p => (f p.1, p.2) := by
  show (x ctx >>= _) = _
  cases x ctx <;> rfl

@[simp] theorem failure_run : (failure : Handler α) ctx = none := rfl

@[simp] theorem getClient_run : getClient ctx = some (ctx.client, ctx) := rfl

@[simp] theorem modifyClient_run (f : NuageVsdClient → NuageVsdClient) :
    modifyClient f ctx = some ((), { ctx with client := f ctx.client }) := rfl

@[simp] theorem liftPanic_run (o : Option α) : liftPanic o ctx = o.map (·, ctx) := rfl

theorem call_run (req : Request) :
    call req ctx = some (ctx.replies.headD (.error "EOF"),
      { ctx with replies := ctx.replies.tail, sent := ctx.sent ++ [req] }) := by
  unfold call; cases ctx.replies <;> rfl

end Run

/-! ### `Init` -/

/-- `Init` once the configuration is read: the cluster CIDR is parsed into the pool's block, the
subnet size is clamped into `0..32` (8 when out of range), and a size larger than the block's
`32 - CIDRMask` bits, an `int` subtraction that wraps, stops the process (`glog.Fatalf` exits, so
the fallback size after it is never stored). The block is freed into the zero pool, `namespaces`
and `subnets` are made, `zones` is left nil, and the priority counter starts at 0. The SDN calls of
the bootstrap that follow change none of these fields; each failure there is fatal too. -/
def init (clusterCIDR : String) (subnetLength : Int) : Option NuageVsdClient :=
  match ipv4SubnetFromString clusterCIDR with
  | .error _ => none
  | .ok ipPool =>
    let subnetSize := if subnetLength < 0 ∨ subnetLength > 32 then 8 else subnetLength
    if subnetSize > wrapInt (32 - ipPool.cidrMask) then none
    else (IPv4SubnetPool.empty.freeDiscard ipPool).map fun pool =>
      { zones := .nil, subnets := .make, pool, subnetSize, namespaces := .make,
        nextAvailablePriority := 0 }

end NuageKubemon
