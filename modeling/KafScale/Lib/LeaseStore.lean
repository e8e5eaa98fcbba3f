import KafScale.Lib.KeyMap

/-!
A key-value store with leases, as etcd keeps them. A lease is granted with a
time to live and ends when the clock passes its expiry or when it is revoked;
a key put with a lease goes away with the lease; a keep-alive or a put on a
lease that has ended fails. Lease ids are handed out in order.
-/
namespace LeaseStore

structure Store (κ ν : Type) where
  now : Int
  granted : Nat
  leases : KeyMap.Map Nat Int
  kv : KeyMap.Map κ (ν × Option Nat)
  deriving DecidableEq, Repr

variable {κ ν : Type} [DecidableEq κ]

def empty : Store κ ν := ⟨0, 0, [], []⟩

def alive (s : Store κ ν) (lease : Nat) : Bool := (KeyMap.get s.leases lease).isSome

/-- The lease a key is attached to, if the key is there and has one. -/
def attached (s : Store κ ν) (k : κ) : Option Nat := (KeyMap.get s.kv k).bind Prod.snd

/-- `Grant`: a fresh lease, `ttl` from now. -/
def grant (s : Store κ ν) (ttl : Int) : Nat × Store κ ν :=
  (s.granted + 1,
    { s with granted := s.granted + 1, leases := KeyMap.put s.leases (s.granted + 1) (s.now + ttl) })

/-- A lease ends and takes its keys with it. -/
def dropLease (s : Store κ ν) (lease : Nat) : Store κ ν :=
  { s with
    leases := KeyMap.erase s.leases lease
    kv := s.kv.filter fun entry => entry.2.2 ≠ some lease }

/-- `Revoke`: whether the lease was there to revoke. -/
def revoke (s : Store κ ν) (lease : Nat) : Bool × Store κ ν :=
  if alive s lease then (true, dropLease s lease) else (false, s)

/-- `KeepAliveOnce`: a live lease gets `ttl` from now again. -/
def keepAlive (s : Store κ ν) (lease : Nat) (ttl : Int) : Option (Store κ ν) :=
  if alive s lease then some { s with leases := KeyMap.put s.leases lease (s.now + ttl) } else none

/-- `Put`, with a lease if one is given. -/
def put (s : Store κ ν) (k : κ) (v : ν) (lease : Option Nat) : Option (Store κ ν) :=
  match lease with
  | some id => if alive s id then some { s with kv := KeyMap.put s.kv k (v, some id) } else none
  | none => some { s with kv := KeyMap.put s.kv k (v, none) }

def delete (s : Store κ ν) (k : κ) : Store κ ν := { s with kv := KeyMap.erase s.kv k }

/-- A transaction `If(Version(k) = 0).Then(Put(k, v, WithLease(lease)))`:
    whether it succeeded, `none` when the put itself fails. -/
def putIfAbsent (s : Store κ ν) (k : κ) (v : ν) (lease : Nat) : Option (Bool × Store κ ν) :=
  match KeyMap.get s.kv k with
  | some _ => some (false, s)
  | none => (put s k v (some lease)).map fun s' => (true, s')

/-- The clock moves on to `t`; every lease whose expiry has come ends. -/
def advance (s : Store κ ν) (t : Int) : Store κ ν :=
  let ended := (s.leases.filter fun entry => entry.2 ≤ t).map Prod.fst
  { ended.foldl dropLease s with now := max s.now t }

end LeaseStore
