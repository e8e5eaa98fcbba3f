import KafScale.Processor.Run
import KafScale.Lib.LeaseStore

/-!
Iceberg processors that share one etcd (`checkpoint/etcd.go` and `Run` in
`processor.go`). A processor claims a partition by putting its lease key with
a fresh lease if the key is absent, and a goroutine renews the lease every ten
seconds. Within a tick the segment loop loads the checkpoint, decodes, writes
to the sink and commits each segment with separate calls, so the other
processors, etcd's lease expiry and the clock interleave with them. A lost
lease is seen only between ticks, where `ReleaseLease` revokes the lease and
deletes the lease key whatever lease the key now has.

Each sink write and commit is logged with whether the writer's lease was live
and attached to the partition's key at that moment.
-/
namespace ProcessorLease
open LeaseStore ProcessorRun

inductive EtcdKey where
  | lease (partition : Nat)
  | offset (partition : Nat)
  deriving DecidableEq, Repr

inductive EtcdValue where
  | owner (worker : Nat)
  | offset (value : Int)
  deriving DecidableEq, Repr

structure ActiveLease where
  partition : Nat
  leaseID : Nat
  deriving DecidableEq, Repr

/-- Where the main loop is: between ticks, or in the segment loop with the
    segments still to go and what the current one has got to. -/
inductive Stage where
  | idle
  | listed (segments : List (List Record))
  | loaded (segments : List (List Record)) (checkpoint : Int)
  | decoded (segments : List (List Record)) (records : List Record)
  | written (segments : List (List Record)) (last : Int)
  deriving DecidableEq, Repr

structure Worker where
  lease : Option ActiveLease
  renewing : Bool
  lost : Bool
  stage : Stage
  deriving DecidableEq, Repr

structure World where
  etcd : Store EtcdKey EtcdValue
  workers : List Worker
  ttl : Int
  completed : List (Nat × List Record)
  sinkWrites : List (Nat × Bool × List Record)
  commits : List (Nat × Bool × Int)
  deriving DecidableEq, Repr

inductive LeaseCall where
  | tick (worker : Nat)
  | load (worker : Nat) (answers : Bool)
  | decode (worker : Nat) (ok : Bool)
  | write (worker : Nat) (ok : Bool)
  | commit (worker : Nat) (ok : Bool)
  | renew (worker : Nat)
  | leaseLost (worker : Nat)
  | advance (t : Int)
  deriving DecidableEq, Repr

/-- Whether `worker`'s lease is live and is the one the partition's key has. -/
def fenced (w : World) (worker : Nat) : Bool :=
  match (w.workers[worker]?).bind Worker.lease with
  | some active => alive w.etcd active.leaseID && attached w.etcd (.lease active.partition) == some active.leaseID
  | none => false

/-- `ClaimLease`: a granted lease, kept if the key was absent and revoked otherwise. -/
def claimLease (etcd : Store EtcdKey EtcdValue) (ttl : Int) (partition worker : Nat) :
    Option Nat × Store EtcdKey EtcdValue :=
  let (id, etcd) := grant etcd ttl
  match putIfAbsent etcd (.lease partition) (.owner worker) id with
  | some (true, etcd) => (some id, etcd)
  | _ => (none, (revoke etcd id).2)

/-- The claim loop of a tick: the first listed segment whose partition it gets. -/
def claimFirst (etcd : Store EtcdKey EtcdValue) (ttl : Int) (worker : Nat) :
    List (Nat × List Record) → Option ActiveLease × Store EtcdKey EtcdValue
  | [] => (none, etcd)
  | (partition, _) :: rest =>
    match claimLease etcd ttl partition worker with
    | (some id, etcd) => (some ⟨partition, id⟩, etcd)
    | (none, etcd) => claimFirst etcd ttl worker rest

def loadOffset (etcd : Store EtcdKey EtcdValue) (partition : Nat) : Int :=
  match (KeyMap.get etcd.kv (.offset partition)).map Prod.fst with
  | some (.offset value) => value
  | _ => -1

def setWorker (w : World) (worker : Nat) (x : Worker) : World :=
  { w with workers := w.workers.set worker x }

/-- The segment loop goes on with `rest`, or the tick ends. -/
def continueWith (rest : List (List Record)) : Stage :=
  if rest = [] then .idle else .listed rest

def leaseStep (w : World) : LeaseCall → Option World
  | .tick worker => do
    let x ← w.workers[worker]?
    guard (x.stage = .idle)
    match x.lease with
    | some active =>
      some (setWorker w worker
        { x with stage := continueWith ((w.completed.filter fun seg => seg.1 = active.partition).map Prod.snd) })
    | none =>
      match claimFirst w.etcd w.ttl worker w.completed with
      | (none, etcd) => some { w with etcd := etcd }
      | (some active, etcd) =>
        some (setWorker { w with etcd := etcd } worker
          { lease := some active, renewing := true, lost := false,
            stage := continueWith ((w.completed.filter fun seg => seg.1 = active.partition).map Prod.snd) })
  | .load worker answers => do
    let x ← w.workers[worker]?
    let active ← x.lease
    match x.stage with
    | .listed (segment :: rest) =>
      some (setWorker w worker
        { x with stage := if answers then .loaded (segment :: rest) (loadOffset w.etcd active.partition)
                          else continueWith rest })
    | _ => none
  | .decode worker ok => do
    let x ← w.workers[worker]?
    match x.stage with
    | .loaded (segment :: rest) offset =>
      let records := filterRecords segment offset
      some (setWorker w worker
        { x with stage := if ok ∧ records ≠ [] then .decoded (segment :: rest) records else continueWith rest })
    | _ => none
  | .write worker ok => do
    let x ← w.workers[worker]?
    match x.stage with
    | .decoded (_ :: rest) records =>
      let last := (records.getLast?.map Record.offset).getD 0
      if ok then
        some (setWorker { w with sinkWrites := w.sinkWrites ++ [(worker, fenced w worker, records)] } worker
          { x with stage := .written rest last })
      else some (setWorker w worker { x with stage := continueWith rest })
    | _ => none
  | .commit worker ok => do
    let x ← w.workers[worker]?
    let active ← x.lease
    match x.stage with
    | .written rest last =>
      -- `CommitOffset` is a plain `Put` of the offset key, with no lease compared
      let etcd := if ok then (put w.etcd (.offset active.partition) (.offset last) none).getD w.etcd else w.etcd
      some (setWorker { w with etcd := etcd, commits := w.commits ++ [(worker, fenced w worker, last)] } worker
        { x with stage := continueWith rest })
    | _ => none
  | .renew worker => do
    let x ← w.workers[worker]?
    let active ← x.lease
    guard x.renewing
    match keepAlive w.etcd active.leaseID w.ttl with
    | none => some (setWorker w worker { x with renewing := false, lost := true })
    | some etcd =>
      some { w with etcd := (put etcd (.lease active.partition) (.owner worker) (some active.leaseID)).getD etcd }
  | .leaseLost worker => do
    let x ← w.workers[worker]?
    guard (x.stage = .idle ∧ x.lost)
    match x.lease with
    | some active =>
      -- `ReleaseLease` revokes, then deletes the key whatever lease it is attached to
      let etcd := delete (revoke w.etcd active.leaseID).2 (.lease active.partition)
      some (setWorker { w with etcd := etcd } worker { x with lease := none, renewing := false, lost := false })
    | none => some (setWorker w worker { x with lost := false })
  | .advance t => some { w with etcd := advance w.etcd t }

/-! ### A stale processor -/

def segmentA : List Record := [⟨0, [0x61]⟩]

def segmentB : List Record := [⟨1, [0x62]⟩]

def idleWorker : Worker := ⟨none, false, false, .idle⟩

/-- Two processors, a 30 s lease time to live, and two segments of partition 0. -/
def twoProcessors : World := ⟨empty, [idleWorker, idleWorker], 30, [(0, segmentA), (0, segmentB)], [], []⟩

/-- Processor 0 claims partition 0 and decodes the first segment; its lease
    ends before a renewal; processor 1 claims the partition and writes and
    commits both segments; processor 0 then writes and commits the first
    segment, skips the second, fails to renew and releases the lease key. -/
def staleRun : List LeaseCall :=
  [.tick 0, .load 0 true, .decode 0 true,
    .advance 31,
    .tick 1, .load 1 true, .decode 1 true, .write 1 true, .commit 1 true,
    .load 1 true, .decode 1 true, .write 1 true, .commit 1 true,
    .write 0 true, .commit 0 true, .load 0 false,
    .renew 0, .leaseLost 0]

theorem stale_processor_breaks_lease :
    (LabelledRun.run leaseStep twoProcessors staleRun).map
        (fun w => (w.sinkWrites.map fun e => (e.1, e.2.1), w.commits)) =
      some ([(1, true), (1, true), (0, false)], [(1, true, 0), (1, true, 1), (0, false, 0)]) ∧
    (LabelledRun.run leaseStep twoProcessors (staleRun.take 13)).map (fun w => loadOffset w.etcd 0) = some 1 ∧
    (LabelledRun.run leaseStep twoProcessors (staleRun.take 15)).map (fun w => loadOffset w.etcd 0) = some 0 ∧
    (LabelledRun.run leaseStep twoProcessors (staleRun.take 17)).map
        (fun w => (attached w.etcd (.lease 0), alive w.etcd 2, (w.workers[1]?).bind Worker.lease)) =
      some (some 2, true, some ⟨0, 2⟩) ∧
    (LabelledRun.run leaseStep twoProcessors staleRun).map
        (fun w => (attached w.etcd (.lease 0), alive w.etcd 2, (w.workers[1]?).bind Worker.lease)) =
      some (none, true, some ⟨0, 2⟩) := by
  refine ⟨?_, ?_, ?_, ?_, ?_⟩ <;> decide +kernel

end ProcessorLease
