import SageGateway.Subscription.Registry

namespace SageGateway

inductive ProcessError where
  | sessionExpired
  | sign
  deriving DecidableEq

structure ReplayLoop where
  locked : Bool
  frames : List Frame
  writing : Bool
  deriving DecidableEq

structure Bridge where
  reg : Registry
  conn : Nat
  sessionActive : Bool
  losses : List Int
  loops : GoMap Nat ReplayLoop
  closed : Bool

inductive EndpointVerdict where
  | failed
  | control
  | reissue
  | pass
  deriving DecidableEq

inductive LostOutcome where
  | refused
  | failed
  | replaced (subs : List (RawID × Subscription)) (queues : List (RawID × List PendingSubscription))
      (requests : List (RawID × InflightRequest))

abbrev SubscriptionOrder := GoMap RawID Subscription → List (RawID × Subscription)

namespace Bridge

def defaultRebindLimit : Int := 3

def rebindWindow : Int := 10 * 60 * secondNanos

inductive Act where
  | client (now : Int) (iter : SubscriptionOrder) (data : Frame) (answered signed : Bool)
  | endpoint (conn : Nat) (now : Int) (data : Frame) (verdict : EndpointVerdict)
  | lost (conn : Nat) (now swapped : Int) (planned : Bool) (outcome : LostOutcome)
  | expire
  | shutdown
  | lock (conn : Nat)
  | process (conn : Nat) (now : Int) (iter : SubscriptionOrder) (signed : Bool)
  | write (conn : Nat) (ok : Bool)
  | finish (conn : Nat)

def start (r : Registry) : Bridge := ⟨r,0,true,[],∅,false⟩

def processClientMessage (R : FrameReader) (now : Int) (iter : SubscriptionOrder) (b : Bridge)
    (data : Frame) (signed : Bool) : Registry × Except ProcessError Frame :=
  if b.sessionActive then
    let (r,out) := b.reg.translateClientFrame R now iter data
    (r,if signed then .ok out else .error .sign)
  else (b.reg,.error .sessionExpired)

def routeClient (R : FrameReader) (now : Int) (iter : SubscriptionOrder) (b : Bridge) (data : Frame)
    (answered signed : Bool) : Bridge :=
  if answered then b
  else match b.processClientMessage R now iter data signed with
    | (r,.ok _) => { b with reg := r }
    | (r,.error _) => { b with reg := r, closed := true }

def routeEndpoint (R : FrameReader) (now : Int) (b : Bridge) (conn : Nat) (data : Frame)
    (verdict : EndpointVerdict) : Bridge :=
  if conn ≠ b.conn then b
  else match verdict with
    | .failed => b
    | .control => b
    | .reissue =>
        match b.reg.reissueAnswer R data with
        | (r,true) => { b with reg := r }
        | (r,false) => { b with reg := (r.translateEndpointFrame R now data).1 }
    | .pass => { b with reg := (b.reg.translateEndpointFrame R now data).1 }

def recentLosses (b : Bridge) (now : Int) : List Int :=
  b.losses.filter fun t => now - t < rebindWindow

def endpointMuFree (b : Bridge) : Bool := b.loops.toList.all fun e => !e.2.locked

def replaced (R : FrameReader) (b : Bridge) (now swapped : Int) (planned : Bool)
    (subs : List (RawID × Subscription)) (queues : List (RawID × List PendingSubscription))
    (requests : List (RawID × InflightRequest)) : Bridge :=
  let (r,replay) := b.reg.replayAll R now subs queues requests
  { b with
    reg := r
    conn := b.conn + 1
    sessionActive := true
    losses := if planned then b.losses else b.losses ++ [swapped]
    loops := b.loops.put (b.conn + 1) ⟨false,replay.frames,false⟩ }

def rebind (R : FrameReader) (rebindLimit : Int) (b : Bridge) (lost : Nat) (now swapped : Int)
    (planned : Bool) (outcome : LostOutcome) : Option Bridge :=
  if !b.endpointMuFree then none
  else if lost ≠ b.conn then some b
  else
    let b' := { b with losses := b.recentLosses now }
    if !planned ∧ rebindLimit ≤ b'.losses.length then some { b' with closed := true }
    else match outcome with
      | .refused => some { b' with closed := true }
      | .failed => some { b' with closed := true }
      | .replaced subs queues requests =>
          if b.reg.active.Iterates subs ∧ b.reg.pending.Iterates queues ∧
              b.reg.inflight.Iterates requests
          then some (b'.replaced R now swapped planned subs queues requests)
          else none

def setLoop (b : Bridge) (conn : Nat) (l : ReplayLoop) : Bridge :=
  { b with loops := b.loops.put conn l }

def endLoop (b : Bridge) (conn : Nat) : Bridge := { b with loops := b.loops.del conn }

def lockLoop (b : Bridge) (conn : Nat) : Option Bridge :=
  (b.loops.get conn).map fun l => b.setLoop conn { l with locked := true }

def processLoop (R : FrameReader) (now : Int) (iter : SubscriptionOrder) (b : Bridge) (conn : Nat)
    (signed : Bool) : Option Bridge :=
  match b.loops.get conn with
  | some ⟨true,frame :: frames,false⟩ =>
      match b.processClientMessage R now iter frame signed with
      | (r,.ok _) => some (({ b with reg := r } : Bridge).setLoop conn ⟨true,frames,true⟩)
      | (r,.error _) => some (({ b with reg := r } : Bridge).setLoop conn ⟨true,frames,false⟩)
  | _ => none

def writeLoop (b : Bridge) (conn : Nat) (ok : Bool) : Option Bridge :=
  match b.loops.get conn with
  | some ⟨true,frames,true⟩ =>
      if ok then some (b.setLoop conn ⟨true,frames,false⟩) else some (b.endLoop conn)
  | _ => none

def finishLoop (b : Bridge) (conn : Nat) : Option Bridge :=
  match b.loops.get conn with
  | some ⟨true,[],false⟩ => some (b.endLoop conn)
  | _ => none

def step (R : FrameReader) (rebindLimit : Int) (b : Bridge) (a : Act) : Option Bridge :=
  if b.closed then none
  else match a with
    | .client now iter data answered signed => some (b.routeClient R now iter data answered signed)
    | .endpoint conn now data verdict => some (b.routeEndpoint R now conn data verdict)
    | .lost conn now swapped planned outcome =>
        b.rebind R rebindLimit conn now swapped planned outcome
    | .expire => some { b with sessionActive := false }
    | .shutdown => some { b with closed := true }
    | .lock conn => b.lockLoop conn
    | .process conn now iter signed => b.processLoop R now iter conn signed
    | .write conn ok => b.writeLoop conn ok
    | .finish conn => b.finishLoop conn

end Bridge

end SageGateway
