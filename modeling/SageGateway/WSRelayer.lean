import SageGateway.Domain
import SageGateway.Lib.GoMap

namespace SageGateway

inductive OpenPhase where
  | opening
  | failed
  | up
  | done
  | closing
  | returned (started : Bool)
  deriving DecidableEq

inductive LostHandler where
  | resolving (lost : EndpointAddr)
  | dialled (lost next : EndpointAddr)
  deriving DecidableEq

def LostHandler.lost : LostHandler → EndpointAddr
  | resolving lost => lost
  | dialled lost _ => lost

structure WSConn where
  phase : OpenPhase
  current : EndpointAddr
  currentProc : Nat
  handler : Option LostHandler
  deriving DecidableEq

namespace WSConn

variable (c : WSConn)

def counted : Bool :=
  match c.phase with
  | .returned _ => false
  | _ => true

def started : Bool :=
  match c.phase with
  | .opening => false
  | .failed => false
  | .returned started => started
  | _ => true

def closed : Bool :=
  match c.phase with
  | .closing => true
  | .returned started => started
  | _ => false

end WSConn

structure WSRelayer where
  activeLoad : GoMap EndpointAddr Nat
  conns : GoMap Nat WSConn
  processors : Nat
  bound : List Nat
  released : List Nat

namespace WSRelayer

def incLoad (load : GoMap EndpointAddr Nat) (ep : EndpointAddr) : GoMap EndpointAddr Nat :=
  load.put ep ((load.get ep).getD 0 + 1)

def decLoad (load : GoMap EndpointAddr Nat) (ep : EndpointAddr) : GoMap EndpointAddr Nat :=
  match load.get ep with
  | none => load
  | some n => if n ≤ 1 then load.del ep else load.put ep (n - 1)

def new : WSRelayer := ⟨∅,∅,0,[],[]⟩

def setConn (r : WSRelayer) (n : Nat) (c : WSConn) : WSRelayer :=
    { r with conns := r.conns.put n c }

def bindSupplier (r : WSRelayer) (p : Nat) : WSRelayer := { r with bound := p :: r.bound }

def releaseSupplier (r : WSRelayer) (p : Nat) : WSRelayer := { r with released := p :: r.released }

def newProcessor (r : WSRelayer) : WSRelayer := { r with processors := r.processors + 1 }

def openConn (r : WSRelayer) (n : Nat) (addr : EndpointAddr) : WSRelayer :=
  ({ r with activeLoad := incLoad r.activeLoad addr }.newProcessor).setConn n
    ⟨.opening,addr,r.processors,none⟩

def startBridge (r : WSRelayer) (n : Nat) (c : WSConn) (ok : Bool) : Option WSRelayer :=
  match c.phase, ok with
  | .opening, true => some ((r.bindSupplier c.currentProc).setConn n { c with phase := .up })
  | .opening, false => some (r.setConn n { c with phase := .failed })
  | _, _ => none

def endpointLost (r : WSRelayer) (n : Nat) (c : WSConn) : Option WSRelayer :=
  match c.handler with
  | some _ => none
  | none =>
      if c.started then some (r.setConn n { c with handler := some (.resolving c.current) })
      else none

def rebindFailed (r : WSRelayer) (n : Nat) (c : WSConn) : Option WSRelayer :=
  c.handler.map fun _ => r.setConn n { c with handler := none }

def dialled (r : WSRelayer) (n : Nat) (c : WSConn) (next : EndpointAddr) : Option WSRelayer :=
  match c.handler with
  | some (.resolving lost) => some (r.setConn n { c with handler := some (.dialled lost next) })
  | _ => none

def swap (r : WSRelayer) (n : Nat) (c : WSConn) : Option WSRelayer :=
  match c.handler with
  | some (.dialled lost next) =>
      if c.closed then some (r.setConn n { c with handler := none })
      else
        let moved := { r with activeLoad := incLoad (decLoad r.activeLoad lost) next }
        some ((((moved.releaseSupplier c.currentProc).newProcessor).bindSupplier
          r.processors).setConn n
          { c with current := next, currentProc := r.processors, handler := none })
  | _ => none

def bridgeDone (r : WSRelayer) (n : Nat) (c : WSConn) : Option WSRelayer :=
  match c.phase with
  | .up => some (r.setConn n { c with phase := .done })
  | _ => none

def close (r : WSRelayer) (n : Nat) (c : WSConn) : Option WSRelayer :=
  match c.phase with
  | .done => some ((r.releaseSupplier c.currentProc).setConn n { c with phase := .closing })
  | _ => none

def returnOpen (r : WSRelayer) (n : Nat) (c : WSConn) : Option WSRelayer :=
  let left := { r with activeLoad := decLoad r.activeLoad c.current }
  match c.phase with
  | .failed => some (left.setConn n { c with phase := .returned false })
  | .closing => some (left.setConn n { c with phase := .returned true })
  | _ => none

inductive Act where
  | openConn (n : Nat) (addr : EndpointAddr)
  | startBridge (n : Nat) (ok : Bool)
  | endpointLost (n : Nat)
  | rebindFailed (n : Nat)
  | dialled (n : Nat) (next : EndpointAddr)
  | swap (n : Nat)
  | bridgeDone (n : Nat)
  | close (n : Nat)
  | returnOpen (n : Nat)
  deriving DecidableEq

def step (r : WSRelayer) : Act → Option WSRelayer
  | .openConn n addr => if r.conns.has n then none else some (r.openConn n addr)
  | .startBridge n ok => (r.conns.get n).bind fun c => r.startBridge n c ok
  | .endpointLost n => (r.conns.get n).bind (r.endpointLost n)
  | .rebindFailed n => (r.conns.get n).bind (r.rebindFailed n)
  | .dialled n next => (r.conns.get n).bind fun c => r.dialled n c next
  | .swap n => (r.conns.get n).bind (r.swap n)
  | .bridgeDone n => (r.conns.get n).bind (r.bridgeDone n)
  | .close n => (r.conns.get n).bind (r.close n)
  | .returnOpen n => (r.conns.get n).bind (r.returnOpen n)

end WSRelayer

end SageGateway
