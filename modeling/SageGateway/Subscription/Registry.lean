import SageGateway.Lib.GoMap
import SageGateway.Lib.GoString
import Mathlib.Data.List.Sort

namespace SageGateway

abbrev Frame := GoString

abbrev RawID := GoString

inductive SubscriptionAction where
  | none
  | subscribe
  | unsubscribe
  | unsubscribeAll
  deriving DecidableEq

structure Span where
  index : Int
  len : Int
  deriving DecidableEq

structure ClientFrameInfo where
  action : SubscriptionAction
  requestID : RawID
  method : GoString
  topic : GoString
  periodic : Bool
  subscriptionID : RawID
  subscriptionIDSpan : Span
  deriving DecidableEq

inductive EndpointFrameKind where
  | other
  | response
  | notification
  deriving DecidableEq

structure EndpointFrameInfo where
  kind : EndpointFrameKind
  requestID : RawID
  subscriptionID : RawID
  subscriptionIDSpan : Span
  isError : Bool
  deriving DecidableEq

structure FrameReader where
  classifyClientFrame : Frame → ClientFrameInfo
  classifyEndpointFrame : Frame → EndpointFrameInfo
  arrayMembers : Frame → List Frame
  jsonRPCRequestID : Frame → RawID
  jsonRPCRequestIDSpan : Frame → Span
  isWriteRequest : Frame → Bool
  hash : Frame → Nat

def isJSONArray (data : Frame) : Bool :=
  (data.dropWhile fun c => c = ' ' || c = '\t' || c = '\r' || c = '\n').head? = some '['

def spliceSpan (data : Frame) (span : Span) (raw : RawID) : Frame :=
  if span.len ≤ 0 ∨ span.index < 0 ∨ (data.length : Int) < span.index + span.len then data
  else data.take span.index.toNat ++ raw ++ data.drop (span.index + span.len).toNat

structure Subscription where
  id : RawID
  endpointID : RawID
  method : GoString
  topic : GoString
  periodic : Bool
  request : Frame
  since : Int
  deriving DecidableEq

structure PendingSubscription where
  method : GoString
  topic : GoString
  periodic : Bool
  request : Frame
  deriving DecidableEq

structure InflightRequest where
  frame : Frame
  sent : Int
  deriving DecidableEq

structure DupWindow where
  cur : GoMap Nat Int
  prev : GoMap Nat Int
  curStart : Int

structure Registry where
  pending : GoMap RawID (List PendingSubscription)
  npending : Int
  active : GoMap RawID Subscription
  lastPeriodic : Option Int
  dropped : Nat
  toClient : GoMap RawID RawID
  replay : GoMap RawID RawID
  replays : Nat
  orphaned : GoMap RawID Unit
  recent : GoMap RawID DupWindow
  dupLimits : Option (Int → Int × Int)
  dupAge : Int
  dupBudget : Int
  dupReadAt : Int
  closed : GoMap RawID Unit
  inflight : GoMap RawID InflightRequest
  inflightBytes : Int
  reissue : List Frame

inductive NotificationKind where
  | none
  | ok
  | duplicate
  | unsolicited
  deriving DecidableEq

inductive Ack where
  | ok
  | error
  deriving DecidableEq

structure Notification where
  kind : NotificationKind
  topic : GoString
  gap : Int
  ack : Option Ack
  deriving DecidableEq

structure Replay where
  frames : List Frame
  lost : Nat
  abandoned : List Frame
  deriving DecidableEq

def maxTrackedSubscriptions : Nat := 1024

def maxInflightRequests : Nat := 256

def maxInflightBytes : Nat := 256 * 1024

def maxClosedIDs : Nat := 64

def secondNanos : Int := 1000000000

def defaultDuplicateWindow : Int := 20 * secondNanos

def defaultDuplicateBudget : Int := 16384

def dupGeneration : Int := 8192

def dupMinimal : Int := 4

def int64 (n : Int) : Int := Int.bmod n (2 ^ 64)

namespace DupWindow

def empty : DupWindow := ⟨∅,∅,0⟩

def close (d : DupWindow) (now limit window : Int) : DupWindow :=
  let age := int64 (now - d.curStart)
  if int64 (2 * window) ≤ age then ⟨∅,∅,now⟩
  else if window ≤ age ∨ limit ≤ d.cur.len then ⟨∅,d.cur,now⟩
  else d

def seen (d : DupWindow) (h : Nat) (now limit window : Int) : Option Int × DupWindow :=
  let (limit,window) := if window ≤ 0 then (dupMinimal,2 ^ 62) else (limit,window)
  let d' := d.close now limit window
  match d'.cur.get h with
  | some at' => (some (int64 (now - at')),d')
  | none =>
      match d'.prev.get h with
      | some at' => (some (int64 (now - at')),d')
      | none => (none,{ d' with cur := d'.cur.put h now })

end DupWindow

def ackOf (info : EndpointFrameInfo) : Ack :=
  if info.isError ∨ info.subscriptionID = [] then .error else .ok

def rawReplayID (n : Nat) : RawID := "\"sage-replay-".toList ++ Nat.toDigits 10 n ++ ['"']

namespace Registry

def new (dupLimits : Option (Int → Int × Int)) : Registry where
  pending := ∅
  npending := 0
  active := ∅
  lastPeriodic := none
  dropped := 0
  toClient := ∅
  replay := ∅
  replays := 0
  orphaned := ∅
  recent := ∅
  dupLimits := dupLimits
  dupAge := defaultDuplicateWindow
  dupBudget := defaultDuplicateBudget
  dupReadAt := 0
  closed := ∅
  inflight := ∅
  inflightBytes := 0
  reissue := []

def addBounded (set : GoMap RawID Unit) (id : RawID) : GoMap RawID Unit :=
  if maxClosedIDs ≤ set.len then (∅ : GoMap RawID Unit).put id () else set.put id ()

def markClosed (r : Registry) (endpointID : RawID) : Registry :=
  { r with closed := addBounded r.closed endpointID }

def forget (r : Registry) (sub : Subscription) : Registry :=
  let r' := { r with active := r.active.del sub.id, recent := r.recent.del sub.id }
  let r'' := r'.markClosed sub.endpointID
  if sub.endpointID ≠ sub.id then { r'' with toClient := r''.toClient.del sub.endpointID } else r''

def answered (r : Registry) (id : RawID) : Registry :=
  match r.inflight.get id with
  | some req =>
      { r with inflight := r.inflight.del id, inflightBytes := r.inflightBytes - req.frame.length }
  | none => r

def track (R : FrameReader) (now : Int) (r : Registry) (data : Frame) : Registry :=
  let id := R.jsonRPCRequestID data
  if id = [] then r
  else
    let r' := r.answered id
    if maxInflightRequests ≤ r'.inflight.len ∨ maxInflightBytes < r'.inflightBytes + data.length
    then r'
    else
      { r' with
        inflight := r'.inflight.put id ⟨data,now⟩
        inflightBytes := r'.inflightBytes + data.length }

def addPending (r : Registry) (info : ClientFrameInfo) (data : Frame) : Registry :=
  { r with
    pending := r.pending.put info.requestID
      ((r.pending.get info.requestID).getD [] ++ [⟨info.method,info.topic,info.periodic,data⟩])
    npending := r.npending + 1 }

def subscribe (r : Registry) (info : ClientFrameInfo) (data : Frame) : Registry :=
  if info.requestID = [] then r
  else if r.replay.has info.requestID then r
  else if maxTrackedSubscriptions ≤ r.npending then { r with dropped := r.dropped + 1 }
  else r.addPending info data

def unsubscribe (r : Registry) (info : ClientFrameInfo) (data : Frame) : Registry × Frame :=
  match r.active.get info.subscriptionID with
  | none => (r,data)
  | some sub =>
      (r.forget sub,
        if sub.endpointID ≠ sub.id then spliceSpan data info.subscriptionIDSpan sub.endpointID
        else data)

def unsubscribeAll (r : Registry) (order : List (RawID × Subscription)) : Registry :=
  { (order.foldl (fun r e => r.markClosed e.2.endpointID) r) with
    active := ∅, toClient := ∅, recent := ∅ }

def translateClientMember (R : FrameReader) (now : Int) (order : List (RawID × Subscription))
    (r : Registry) (data : Frame) (tracked : Bool) : Registry × Frame :=
  let info := R.classifyClientFrame data
  match info.action with
  | .none => (if tracked then r.track R now data else r,data)
  | .subscribe => (r.subscribe info data,data)
  | .unsubscribe => r.unsubscribe info data
  | .unsubscribeAll => (r.unsubscribeAll order,data)

def touch (r : Registry) (now : Int) (clientID : RawID) : Registry :=
  match r.active.get clientID with
  | some sub => if sub.periodic then { r with lastPeriodic := some now } else r
  | none => r

def topicOf (r : Registry) (clientID : RawID) : GoString :=
  ((r.active.get clientID).map Subscription.topic).getD []

def readLimits (r : Registry) (now : Int) : Registry :=
  match r.dupLimits with
  | some limits =>
      if secondNanos ≤ now - r.dupReadAt then
        { r with dupAge := (limits now).1, dupBudget := (limits now).2, dupReadAt := now }
      else r
  | none => r

def gradeLimit (r : Registry) : Int :=
  max 1 (min dupGeneration (r.dupBudget.tdiv (max 1 r.active.len)))

def grade (R : FrameReader) (now : Int) (r : Registry) (clientID : RawID) (data : Frame) :
    Registry × Notification :=
  let r' := r.readLimits now
  let window := (r'.recent.get clientID).getD DupWindow.empty
  let (gap,window') := window.seen (R.hash data) now r'.gradeLimit r'.dupAge
  let r'' := { r' with recent := r'.recent.put clientID window' }
  match gap with
  | some gap => (r'',⟨.duplicate,r.topicOf clientID,gap,none⟩)
  | none => (r'',⟨.ok,r.topicOf clientID,0,none⟩)

def completeReplay (now : Int) (r : Registry) (clientID : RawID) (info : EndpointFrameInfo) :
    Registry :=
  match r.active.get clientID with
  | none =>
      if info.isError ∨ info.subscriptionID = [] then r
      else { r with orphaned := addBounded r.orphaned info.subscriptionID }
  | some sub =>
      if info.isError ∨ info.subscriptionID = [] then r.forget sub
      else
        let unmapped :=
          if sub.endpointID ≠ sub.id then r.toClient.del sub.endpointID else r.toClient
        let sub' := { sub with endpointID := info.subscriptionID }
        { r with
          toClient :=
            if sub'.endpointID ≠ sub'.id then unmapped.put sub'.endpointID sub'.id else unmapped
          active := r.active.put clientID sub'
          recent := r.recent.del clientID
          lastPeriodic := if sub.periodic then some now else r.lastPeriodic }

def popPending (r : Registry) (id : RawID) (rest : List PendingSubscription) : Registry :=
  { r with
    pending := if rest = [] then r.pending.del id else r.pending.put id rest
    npending := r.npending - 1 }

def establish (now : Int) (r : Registry) (p : PendingSubscription) (id : RawID) : Registry :=
  { r with
    active := r.active.put id ⟨id,id,p.method,p.topic,p.periodic,p.request,now⟩
    closed := r.closed.del id
    lastPeriodic := if p.periodic then some now else r.lastPeriodic }

def completeSubscribe (now : Int) (r : Registry) (p : PendingSubscription)
    (info : EndpointFrameInfo) : Registry :=
  if info.isError ∨ info.subscriptionID = [] then r
  else if maxTrackedSubscriptions ≤ r.active.len then { r with dropped := r.dropped + 1 }
  else r.establish now p info.subscriptionID

def noNote : Notification := ⟨.none,[],0,none⟩

def respond (now : Int) (r : Registry) (data : Frame) (info : EndpointFrameInfo) :
    Registry × Option Frame × Notification :=
  let r' := r.answered info.requestID
  match r'.replay.get info.requestID with
  | some clientID =>
      ((({ r' with replay := r'.replay.del info.requestID } : Registry).completeReplay now clientID
        info),none,⟨.none,r'.topicOf clientID,0,some (ackOf info)⟩)
  | none =>
      match (r'.pending.get info.requestID).getD [] with
      | [] => (r',some data,noNote)
      | p :: rest =>
          ((r'.popPending info.requestID rest).completeSubscribe now p info,some data,
            ⟨.none,p.topic,0,some (ackOf info)⟩)

def notify (R : FrameReader) (now : Int) (r : Registry) (data : Frame) (info : EndpointFrameInfo) :
    Registry × Option Frame × Notification :=
  match r.toClient.get info.subscriptionID with
  | some clientID =>
      let (r',note) := (r.touch now clientID).grade R now clientID data
      (r',some (spliceSpan data info.subscriptionIDSpan clientID),note)
  | none =>
      match (r.active.get info.subscriptionID).filter fun sub => sub.endpointID = sub.id with
      | some sub =>
          let (r',note) := (r.touch now sub.id).grade R now sub.id data
          (r',some data,note)
      | none =>
          if r.orphaned.has info.subscriptionID then (r,none,noNote)
          else if r.closed.has info.subscriptionID ∨ 0 < r.dropped then (r,some data,noNote)
          else (r,some data,⟨.unsolicited,[],0,none⟩)

def translateEndpointMember (R : FrameReader) (now : Int) (r : Registry) (data : Frame) :
    Registry × Option Frame × Notification :=
  let info := R.classifyEndpointFrame data
  match info.kind with
  | .other => (r,some data,noNote)
  | .response => r.respond now data info
  | .notification => r.notify R now data info

def replaySubs (R : FrameReader) (now : Int) :
    List (RawID × Subscription) → Registry × List Frame → Registry × List Frame
  | [], out => out
  | (clientID,sub) :: rest, (r,frames) =>
      let span := R.jsonRPCRequestIDSpan sub.request
      if span.len = 0 then replaySubs R now rest (r,frames)
      else
        let raw := rawReplayID (r.replays + 1)
        replaySubs R now rest
          ({ r with
              replays := r.replays + 1
              replay := r.replay.put raw clientID
              lastPeriodic := if sub.periodic then some now else r.lastPeriodic },
            frames ++ [spliceSpan sub.request span raw])

def drainPending (r : Registry) (order : List (RawID × List PendingSubscription)) :
    Registry × List Frame :=
  ({ r with pending := ∅, npending := 0 },
    order.flatMap fun e => e.2.map PendingSubscription.request)

def lostRequests (order : List (RawID × InflightRequest)) : List InflightRequest :=
  (order.map Prod.snd).insertionSort fun a b => a.sent ≤ b.sent

def replayAll (R : FrameReader) (now : Int) (r : Registry) (subs : List (RawID × Subscription))
    (queues : List (RawID × List PendingSubscription)) (requests : List (RawID × InflightRequest)) :
    Registry × Replay :=
  let (r₁,subFrames) := replaySubs R now subs (r,[])
  let (r₂,pendingFrames) := r₁.drainPending queues
  let lost := lostRequests requests
  let resent := (lost.filter fun req => !R.isWriteRequest req.frame).map InflightRequest.frame
  ({ r₂ with reissue := [], inflight := ∅, inflightBytes := 0 },
    { frames := subFrames ++ pendingFrames ++ r.reissue ++ resent
      lost := resent.length
      abandoned := (lost.filter fun req => R.isWriteRequest req.frame).map InflightRequest.frame })

def reissueAnswer (R : FrameReader) (r : Registry) (data : Frame) : Registry × Bool :=
  let id := R.jsonRPCRequestID data
  if id = [] then (r,false)
  else match r.inflight.get id with
    | none => (r,false)
    | some req =>
        let r' := r.answered id
        ({ r' with reissue := r'.reissue ++ [req.frame] },true)

inductive Act where
  | client (now : Int) (order : List (RawID × Subscription)) (data : Frame) (tracked : Bool)
  | endpoint (now : Int) (data : Frame)
  | replay (now : Int) (subs : List (RawID × Subscription))
      (queues : List (RawID × List PendingSubscription))
      (requests : List (RawID × InflightRequest))
  | reissue (data : Frame)

def step (R : FrameReader) (r : Registry) : Act → Option Registry
  | .client now order data tracked =>
      if r.active.Iterates order then some (r.translateClientMember R now order data tracked).1
      else none
  | .endpoint now data => some (r.translateEndpointMember R now data).1
  | .replay now subs queues requests =>
      if r.active.Iterates subs ∧ r.pending.Iterates queues ∧ r.inflight.Iterates requests then
        some (r.replayAll R now subs queues requests).1
      else none
  | .reissue data => some (r.reissueAnswer R data).1

def translateClientFrame (R : FrameReader) (now : Int)
    (iter : GoMap RawID Subscription → List (RawID × Subscription)) (r : Registry) (data : Frame) :
    Registry × Frame :=
  if isJSONArray data then
    ((R.arrayMembers data).foldl
      (fun r m => (r.translateClientMember R now (iter r.active) m false).1) r,data)
  else r.translateClientMember R now (iter r.active) data true

def translateEndpointFrame (R : FrameReader) (now : Int) (r : Registry) (data : Frame) :
    Registry × Option Frame × Notification :=
  if isJSONArray data then
    ((R.arrayMembers data).foldl (fun r m => (r.translateEndpointMember R now m).1) r,
      some data,noNote)
  else r.translateEndpointMember R now data

end Registry

end SageGateway
