import SageGateway.Lib.GoMap
import SageGateway.Lib.GoString
import SageGateway.Lib.Lease
import SageGateway.Lib.Run

namespace SageGateway

structure FlagSpace where
  keySpace : GoString
  client : Bool
  defaultFlags : GoString → Bool

namespace FlagSpace

def globalKey (F : FlagSpace) (flag : GoString) : GoString := F.keySpace ++ flag

def serviceKey (F : FlagSpace) (flag serviceID : GoString) : GoString :=
  F.keySpace ++ flag ++ ":".toList ++ serviceID

end FlagSpace

inductive FlagChange where
  | set (flag : GoString) (enabled : Bool)
  | setForService (flag serviceID : GoString) (enabled : Bool)
  | delete (flag serviceID : GoString)
  | deleteGlobal (flag : GoString)
  deriving DecidableEq

namespace FlagChange

def key (F : FlagSpace) : FlagChange → GoString
  | .set flag _ => F.globalKey flag
  | .setForService flag serviceID _ => F.serviceKey flag serviceID
  | .delete flag serviceID =>
      if serviceID ≠ [] then F.serviceKey flag serviceID else F.globalKey flag
  | .deleteGlobal flag => F.globalKey flag

def value : FlagChange → Option Bool
  | .set _ enabled => some enabled
  | .setForService _ _ enabled => some enabled
  | .delete _ _ => none
  | .deleteGlobal _ => none

def defaults (d : GoMap GoString Bool) : FlagChange → GoMap GoString Bool
  | .deleteGlobal flag => d.del flag
  | _ => d

end FlagChange

inductive CallStage where
  | called
  | updated
  | written (ok : Bool)
  deriving DecidableEq

structure FlagCall where
  change : FlagChange
  stage : CallStage
  deriving DecidableEq

inductive FlagRefresh where
  | idle
  | scanning (throughout : List GoString)
  | reading (pending : List GoString) (next : GoMap GoString Bool)

def FlagRefresh.isIdle : FlagRefresh → Bool
  | .idle => true
  | _ => false

def FlagRefresh.without (key : GoString) : FlagRefresh → FlagRefresh
  | .scanning throughout => .scanning (throughout.filter fun k => k ≠ key)
  | r => r

structure FlagReplica where
  redis : GoMap GoString GoString
  snapshot : GoMap GoString Bool
  defaults : GoMap GoString Bool
  calls : GoMap Nat FlagCall
  refresh : FlagRefresh

def flagText (enabled : Bool) : GoString := if enabled then "1".toList else "0".toList

def flagOf (val : GoString) : Bool := val = "1".toList

theorem flagOf_flagText (enabled : Bool) : flagOf (flagText enabled) = enabled := by
  cases enabled <;> decide

namespace FlagReplica

def start (redis : GoMap GoString GoString) (overrides : GoMap GoString Bool) : FlagReplica :=
  ⟨redis,∅,overrides,∅,.idle⟩

def isEnabled (F : FlagSpace) (r : FlagReplica) (flag serviceID : GoString) : Bool :=
  match if serviceID ≠ [] then r.snapshot.get (F.serviceKey flag serviceID) else none with
  | some val => val
  | none =>
      match r.snapshot.get (F.globalKey flag) with
      | some val => val
      | none => (r.defaults.get flag).getD (F.defaultFlags flag)

def redisSet (r : FlagReplica) (key val : GoString) : FlagReplica :=
  { r with redis := r.redis.put key val }

def redisDel (r : FlagReplica) (key : GoString) : FlagReplica :=
  { r with redis := r.redis.del key, refresh := r.refresh.without key }

def updateSnapshot (r : FlagReplica) (key : GoString) : Option Bool → FlagReplica
  | none => { r with snapshot := r.snapshot.del key }
  | some value => { r with snapshot := r.snapshot.put key value }

def command (r : FlagReplica) (key : GoString) : Option Bool → FlagReplica
  | none => r.redisDel key
  | some value => r.redisSet key (flagText value)

def setCall (r : FlagReplica) (n : Nat) (c : FlagCall) : FlagReplica :=
  { r with calls := r.calls.put n c }

inductive Act where
  | start (n : Nat) (c : FlagChange)
  | update (n : Nat)
  | write (n : Nat) (reply : RemoteReply)
  | ret (n : Nat)
  | remoteSet (key val : GoString)
  | remoteDel (key : GoString)
  | scan
  | scanned (keys : List GoString)
  | get
  | store
  | fail
  deriving DecidableEq

def startCall (r : FlagReplica) (n : Nat) (c : FlagChange) : Option FlagReplica :=
  if r.calls.has n then none
  else some ({ r with defaults := c.defaults r.defaults }.setCall n ⟨c,.called⟩)

def update (F : FlagSpace) (r : FlagReplica) (n : Nat) : Option FlagReplica :=
  match r.calls.get n with
  | some ⟨c,.called⟩ => some ((r.updateSnapshot (c.key F) c.value).setCall n ⟨c,.updated⟩)
  | _ => none

def write (F : FlagSpace) (r : FlagReplica) (n : Nat) (reply : RemoteReply) : Option FlagReplica :=
  match r.calls.get n with
  | some ⟨c,.updated⟩ =>
      if F.client then
        some ((if reply.applied then r.command (c.key F) c.value else r).setCall n
          ⟨c,.written reply.isOk⟩)
      else some (r.setCall n ⟨c,.written true⟩)
  | _ => none

def ret (r : FlagReplica) (n : Nat) : Option FlagReplica :=
  match r.calls.get n with
  | some ⟨_,.written _⟩ => some { r with calls := r.calls.del n }
  | _ => none

def flagKeys (F : FlagSpace) (r : FlagReplica) : List GoString :=
  (r.redis.toList.map Prod.fst).filter fun k => F.keySpace.isPrefixOf k

def scan (F : FlagSpace) (r : FlagReplica) : Option FlagReplica :=
  match r.refresh with
  | .idle =>
      if F.client then
        some { r with refresh := .scanning (r.flagKeys F) }
      else none
  | _ => none

def scanned (r : FlagReplica) (keys : List GoString) : Option FlagReplica :=
  match r.refresh with
  | .scanning throughout =>
      if (∀ k ∈ throughout, k ∈ keys) ∧ keys.Nodup then
        some { r with refresh := .reading keys ∅ }
      else none
  | _ => none

def get (r : FlagReplica) : Option FlagReplica :=
  match r.refresh with
  | .reading (key :: pending) next =>
      match r.redis.get key with
      | none => some { r with refresh := .reading pending next }
      | some val => some { r with refresh := .reading pending (next.put key (flagOf val)) }
  | _ => none

def store (r : FlagReplica) : Option FlagReplica :=
  match r.refresh with
  | .reading [] next => some { r with snapshot := next, refresh := .idle }
  | _ => none

def fail (r : FlagReplica) : Option FlagReplica :=
  match r.refresh with
  | .idle => none
  | _ => some { r with refresh := .idle }

def step (F : FlagSpace) (r : FlagReplica) : Act → Option FlagReplica
  | .start n c => r.startCall n c
  | .update n => r.update F n
  | .write n reply => r.write F n reply
  | .ret n => r.ret n
  | .remoteSet key val => some (r.redisSet key val)
  | .remoteDel key => some (r.redisDel key)
  | .scan => r.scan F
  | .scanned keys => r.scanned keys
  | .get => r.get
  | .store => r.store
  | .fail => r.fail

def read (r : FlagReplica) (k : GoString) : Option Bool := (r.redis.get k).map flagOf

def Free (F : FlagSpace) (k : GoString) (r : FlagReplica) : Prop :=
  ∀ e ∈ r.calls.toList, e.2.change.key F ≠ k

instance (F : FlagSpace) (k : GoString) (r : FlagReplica) : Decidable (Free F k r) :=
  inferInstanceAs (Decidable (∀ e ∈ r.calls.toList, e.2.change.key F ≠ k))

theorem free_iff {F : FlagSpace} {k : GoString} {r : FlagReplica} :
    Free F k r ↔ ∀ n c, r.calls.get n = some c → c.change.key F ≠ k := by
  have hm := (GoMap.iterates_toList r.calls).mem_iff
  exact ⟨fun h n c hc => h (n,c) ((hm n c).mpr hc),fun h e he => h e.1 e.2 ((hm e.1 e.2).mp he)⟩

end FlagReplica

inductive FlagTracker where
  | quiet
  | sole (n : Nat)
  | standing (c : FlagChange)
  deriving DecidableEq

structure LoggedFlags where
  replica : FlagReplica
  tracker : FlagTracker

namespace LoggedFlags

open FlagReplica (Free)

def start (redis : GoMap GoString GoString) (overrides : GoMap GoString Bool) : LoggedFlags :=
  ⟨.start redis overrides,.quiet⟩

def begun (F : FlagSpace) (k : GoString) (s : LoggedFlags) (n : Nat) (c : FlagChange) :
    FlagTracker :=
  if c.key F = k then (if Free F k s.replica then .sole n else .quiet) else s.tracker

def returned (t : FlagTracker) (n : Nat) (c : FlagCall) : FlagTracker :=
  if t = .sole n then
    match c.stage with
    | .written true => .standing c.change
    | _ => .quiet
  else t

def track (F : FlagSpace) (k : GoString) (s : LoggedFlags) : FlagReplica.Act → FlagTracker
  | .start n c => s.begun F k n c
  | .ret n =>
      match s.replica.calls.get n with
      | some c => returned s.tracker n c
      | none => s.tracker
  | .remoteSet key _ => if key = k then .quiet else s.tracker
  | .remoteDel key => if key = k then .quiet else s.tracker
  | _ => s.tracker

def step (F : FlagSpace) (k : GoString) (s : LoggedFlags) (a : FlagReplica.Act) :
    Option LoggedFlags :=
  (s.replica.step F a).map fun r => ⟨r,s.track F k a⟩

def Apart (F : FlagSpace) (k : GoString) (s : LoggedFlags) : FlagReplica.Act → Prop
  | .start _ c => c.key F = k → s.replica.refresh.isIdle = true
  | .scan => Free F k s.replica
  | _ => True

instance (F : FlagSpace) (k : GoString) (s : LoggedFlags) : (a : FlagReplica.Act) →
    Decidable (Apart F k s a)
  | .start _ c => inferInstanceAs (Decidable (c.key F = k → _ = true))
  | .scan => inferInstanceAs (Decidable (Free F k s.replica))
  | .update _ | .write .. | .ret _ | .remoteSet .. | .remoteDel _ | .scanned _ | .get | .store
  | .fail => .isTrue trivial

end LoggedFlags

end SageGateway
