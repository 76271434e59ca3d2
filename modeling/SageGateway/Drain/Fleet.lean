import SageGateway.Drain.RedisStore

namespace SageGateway.Drain

inductive Call where
  | setting (e : Entry)
  | releasing (k : Key)
  | writing (e : Entry) (gen : Nat)
  | written (e : Entry) (gen : Nat) (result : WriteResult)
  | deleting (k : Key)
  | undoing (e : Entry) (result : WriteResult)
  deriving DecidableEq

structure RefreshRun where
  since : Int
  now : Int
  next : GoMap Key Entry
  expired : List GoString

inductive Refresh where
  | idle
  | began (since : Int)
  | read (since : Int) (all : GoMap GoString Payload)
  | parsed (run : RefreshRun)
  | retrying (run : RefreshRun) (todo : List Retry)
  | retried (run : RefreshRun) (retry : Retry) (result : WriteResult) (todo : List Retry)
  | undoing (run : RefreshRun) (k : Key) (todo : List Retry)
  | cleaning (expired : List GoString)

structure Replica where
  mem : MemoryStore
  keys : KeyStates
  refresh : Refresh

def Replica.new : Replica := ⟨.new,∅,.idle⟩

structure Fleet (ι : Type) where
  clock : Int
  hash : GoMap GoString Payload
  replicas : ι → Replica
  calls : GoMap Nat (ι × Call)

inductive Fate where
  | applied
  | appliedNoReply
  | lost
  deriving DecidableEq

def Fate.reaches : Fate → Bool
  | .lost => false
  | _ => true

def Fate.result : Fate → WriteResult
  | .applied => .ok
  | _ => .propagation

namespace Fleet

inductive Act (ι : Type) where
  | tick (t : Int)
  | set (n : Nat) (i : ι) (e : Entry)
  | release (n : Nat) (i : ι) (k : Key)
  | begin (n : Nat)
  | send (n : Nat) (fate : Fate)
  | finish (n : Nat)
  | hdel (n : Nat) (fate : Fate)
  | refresh (i : ι)
  | hgetall (i : ι) (ok : Bool)
  | parse (i : ι)
  | take (i : ι) (order : List (Key × KeyState))
  | resend (i : ι) (fate : Fate)
  | refinish (i : ι)
  | undo (i : ι) (fate : Fate)
  | replace (i : ι)
  | clean (i : ι) (fate : Fate)

variable {ι : Type} [DecidableEq ι]

def start (clock : Int) : Fleet ι := ⟨clock,∅,fun _ => .new,∅⟩

def setReplica (s : Fleet ι) (i : ι) (r : Replica) : Fleet ι :=
  { s with replicas := Function.update s.replicas i r }

def setCall (s : Fleet ι) (n : Nat) (i : ι) (c : Call) : Fleet ι :=
  { s with calls := s.calls.put n (i,c) }

def endCall (s : Fleet ι) (n : Nat) : Fleet ι := { s with calls := s.calls.del n }

def setRefresh (s : Fleet ι) (i : ι) (f : Refresh) : Fleet ι :=
  s.setReplica i { s.replicas i with refresh := f }

def hset (C : Codec) (s : Fleet ι) (e : Entry) (fate : Fate) : Fleet ι :=
  if fate.reaches then { s with hash := s.hash.put (redisField C e.key) e.toPayload } else s

def hdelFields (s : Fleet ι) (fields : List GoString) (fate : Fate) : Fleet ι :=
  if fate.reaches then { s with hash := fields.foldl GoMap.del s.hash } else s

def propagate (C : Codec) (s : Fleet ι) (e : Entry) (fate : Fate) : Fleet ι × WriteResult :=
  if e.untilAt ≤ s.clock then (s,.ok)
  else if C.marshals e.toPayload then (s.hset C e fate,fate.result)
  else (s,.encoding)

def setKeys (s : Fleet ι) (i : ι) (keys : KeyStates) : Fleet ι :=
  s.setReplica i { s.replicas i with keys := keys }

def setMem (s : Fleet ι) (i : ι) (mem : MemoryStore) : Fleet ι :=
  s.setReplica i { s.replicas i with mem := mem }

def beginCall (s : Fleet ι) (n : Nat) : Option (Fleet ι) :=
  match s.calls.get n with
  | some (i,.setting e) =>
      if e.untilAt ≤ s.clock then
        some ((s.setKeys i ((s.replicas i).keys.beginRelease e.key)).setCall n i (.deleting e.key))
      else
        let began := (s.replicas i).keys.beginSet e
        some ((s.setKeys i began.1).setCall n i (.writing e began.2))
  | some (i,.releasing k) =>
      some ((s.setKeys i ((s.replicas i).keys.beginRelease k)).setCall n i (.deleting k))
  | _ => none

def sendCall (C : Codec) (s : Fleet ι) (n : Nat) (fate : Fate) : Option (Fleet ι) :=
  match s.calls.get n with
  | some (i,.writing e gen) =>
      let out := s.propagate C e fate
      some (out.1.setCall n i (.written e gen out.2))
  | _ => none

def finishCall (s : Fleet ι) (n : Nat) : Option (Fleet ι) :=
  match s.calls.get n with
  | some (i,.written e gen result) =>
      let out := (s.replicas i).keys.finishWrite e gen result
      if out.2.compensate then some ((s.setKeys i out.1).setCall n i (.undoing e result))
      else some ((s.setKeys i out.1).endCall n)
  | _ => none

def hdelCall (C : Codec) (s : Fleet ι) (n : Nat) (fate : Fate) : Option (Fleet ι) :=
  match s.calls.get n with
  | some (_,.deleting k) => some ((s.hdelFields [redisField C k] fate).endCall n)
  | some (_,.undoing e _) => some ((s.hdelFields [redisField C e.key] fate).endCall n)
  | _ => none

def hgetall (s : Fleet ι) (i : ι) (ok : Bool) : Option (Fleet ι) :=
  match (s.replicas i).refresh with
  | .began since => some (s.setRefresh i (if ok then .read since s.hash else .idle))
  | _ => none

def parseRead (s : Fleet ι) (i : ι) : Option (Fleet ι) :=
  match (s.replicas i).refresh with
  | .read since all =>
      let snap := readSnapshot [] s.clock all.toList
      some (s.setRefresh i (.parsed ⟨since,s.clock,snap.next,snap.expired⟩))
  | _ => none

def takeRetries (s : Fleet ι) (i : ι) (order : List (Key × KeyState)) : Option (Fleet ι) :=
  match (s.replicas i).refresh with
  | .parsed run =>
      if GoMap.Iterates (s.replicas i).keys order then
        let out := KeyStates.takePending run.now order (s.replicas i).keys
        some (s.setReplica i { s.replicas i with keys := out.1, refresh := .retrying run out.2 })
      else none
  | _ => none

def resend (C : Codec) (s : Fleet ι) (i : ι) (fate : Fate) : Option (Fleet ι) :=
  match (s.replicas i).refresh with
  | .retrying run (r :: todo) =>
      let out := s.propagate C r.entry fate
      some (out.1.setRefresh i (.retried run r out.2 todo))
  | _ => none

def RefreshRun.keep (run : RefreshRun) (live : Option Entry) : RefreshRun :=
  match live with
  | some e => if run.now < e.untilAt then { run with next := run.next.put e.key e } else run
  | none => run

def refinish (s : Fleet ι) (i : ι) : Option (Fleet ι) :=
  match (s.replicas i).refresh with
  | .retried run r result todo =>
      let out := (s.replicas i).keys.finishWrite r.entry r.gen result
      let run' := RefreshRun.keep run out.2.live
      some (s.setReplica i { s.replicas i with
        keys := out.1
        refresh := if out.2.compensate then .undoing run' r.entry.key todo
          else .retrying run' todo })
  | _ => none

def undoRetry (C : Codec) (s : Fleet ι) (i : ι) (fate : Fate) : Option (Fleet ι) :=
  match (s.replicas i).refresh with
  | .undoing run k todo =>
      some ((s.hdelFields [redisField C k] fate).setRefresh i (.retrying run todo))
  | _ => none

def replaceMem (s : Fleet ι) (i : ι) : Option (Fleet ι) :=
  match (s.replicas i).refresh with
  | .retrying run [] =>
      some (s.setReplica i { s.replicas i with
        mem := (s.replicas i).mem.replaceAll s.clock run.next run.since
        refresh := if run.expired = [] then .idle else .cleaning run.expired })
  | _ => none

def cleanExpired (s : Fleet ι) (i : ι) (fate : Fate) : Option (Fleet ι) :=
  match (s.replicas i).refresh with
  | .cleaning expired => some ((s.hdelFields expired fate).setRefresh i .idle)
  | _ => none

def step (C : Codec) (s : Fleet ι) : Act ι → Option (Fleet ι)
  | .tick t => if s.clock ≤ t then some { s with clock := t } else none
  | .set n i e =>
      if s.calls.has n then none
      else some ((s.setMem i ((s.replicas i).mem.set C s.clock (e.lowered C))).setCall n i
        (.setting (e.lowered C)))
  | .release n i k =>
      if s.calls.has n then none
      else some ((s.setMem i ((s.replicas i).mem.release C s.clock (lowered C k))).setCall n i
        (.releasing (lowered C k)))
  | .begin n => s.beginCall n
  | .send n fate => s.sendCall C n fate
  | .finish n => s.finishCall n
  | .hdel n fate => s.hdelCall C n fate
  | .refresh i =>
      match (s.replicas i).refresh with
      | .idle => some (s.setRefresh i (.began s.clock))
      | _ => none
  | .hgetall i ok => s.hgetall i ok
  | .parse i => s.parseRead i
  | .take i order => s.takeRetries i order
  | .resend i fate => s.resend C i fate
  | .refinish i => s.refinish i
  | .undo i fate => s.undoRetry C i fate
  | .replace i => s.replaceMem i
  | .clean i fate => s.cleanExpired i fate

end Fleet

end SageGateway.Drain
