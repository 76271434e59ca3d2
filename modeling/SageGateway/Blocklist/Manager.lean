import Mathlib.Data.List.Sort
import SageGateway.Blocklist
import SageGateway.Lib.GoTime
import SageGateway.Lib.Run

namespace SageGateway

def Platform.domainName (P : Platform) (s : GoString) : GoString := P.toLower (GoString.trimSpace s)

theorem asciiPlatform_domainName (s : GoString) :
    asciiPlatform.domainName (asciiPlatform.domainName s) = asciiPlatform.domainName s := by
  show (GoString.trimSpace ((GoString.trimSpace s).map Char.toLower)).map Char.toLower = _
  rw [GoString.trimSpace_map GoString.isSpace_toLower,GoString.trimSpace_trimSpace,List.map_map]
  exact List.map_congr_left fun c _ => GoString.toLower_toLower c

namespace Blocklist

structure Entry where
  domain : GoString
  rpcTypes : List GoString
  reason : GoString
  since : Int
  deriving DecidableEq

inductive ManagerError where
  | domainRequired
  | notFound
  | rejected (err : BlocklistError)
  deriving DecidableEq

-- What an accepted change sends to the backend.
inductive Change where
  | save (e : Entry)
  | delete (domain : GoString)
  deriving DecidableEq

namespace Change

def domain : Change → GoString
  | .save e => e.domain
  | .delete domain => domain

def value : Change → Option Entry
  | .save e => some e
  | .delete _ => none

end Change

structure Manager where
  base : List BlockedDomain
  entries : GoMap GoString Entry
  -- The union the protocol last accepted, none before the first.
  applied : Option (List BlockedDomain)

namespace Manager

def new (base : List BlockedDomain) : Manager := ⟨base,∅,none⟩

def entriesLocked (m : Manager) : List Entry :=
  (m.entries.toList.map Prod.snd).insertionSort fun a b => ¬ b.domain < a.domain

def union (m : Manager) : List BlockedDomain :=
  m.base ++ m.entriesLocked.map fun e => ⟨e.domain,e.rpcTypes⟩

section

variable (P : Platform) (env : GoString)

def applyLocked (m : Manager) : Except BlocklistError Manager :=
  (newDomainBlocklist P env m.union).map fun _ => { m with applied := some m.union }

def named (now : Int) (e : Entry) : Entry :=
  { e with
    domain := P.domainName e.domain
    rpcTypes := e.rpcTypes.map P.domainName
    since := if e.since = GoTime.zeroTime then now else e.since }

def set (m : Manager) (now : Int) (e : Entry) : Except ManagerError (Manager × Change) :=
  let e := named P now e
  if e.domain = [] then .error .domainRequired
  else
    match applyLocked P env { m with entries := m.entries.put e.domain e } with
    | .ok m' => .ok (m',.save e)
    | .error err => .error (.rejected err)

def release (m : Manager) (domain : GoString) : Except ManagerError (Manager × Change) :=
  let domain := P.domainName domain
  if m.entries.has domain = false then .error .notFound
  else
    match applyLocked P env { m with entries := m.entries.del domain } with
    | .ok m' => .ok (m',.delete domain)
    | .error err => .error (.rejected err)

def setBlockedDomains (m : Manager) (base : List BlockedDomain) : Manager :=
  match applyLocked P env { m with base := base } with
  | .ok m' => m'
  | .error _ => m

def nextOf (loaded : List Entry) : GoMap GoString Entry :=
  loaded.foldl (fun next e =>
    if P.domainName e.domain = [] then next
    else next.put (P.domainName e.domain) { e with domain := P.domainName e.domain }) ∅

def sameEntries (a b : GoMap GoString Entry) : Bool :=
  decide (a.len = b.len) && a.toList.all fun row => (b.get row.1).any fun e =>
    decide (row.2.reason = e.reason ∧ row.2.since = e.since ∧ row.2.rpcTypes = e.rpcTypes)

def reload (m : Manager) (loaded : List Entry) : Manager :=
  let next := nextOf P loaded
  if sameEntries m.entries next then m
  else
    match applyLocked P env { m with entries := next } with
    | .ok m' => m'
    | .error _ => m

end

end Manager

-- A field of the hash holds what its text decodes to, none where it does not.
abbrev Hash := GoMap GoString (Option Entry)

namespace Hash

def write (h : Hash) : Change → Hash
  | .save e => h.put e.domain (some e)
  | .delete domain => h.del domain

def loadRow (row : GoString × Option Entry) : Option Entry :=
  row.2.map fun e => if e.domain = [] then { e with domain := row.1 } else e

def load (rows : List (GoString × Option Entry)) : List Entry := rows.filterMap loadRow

end Hash

inductive Answer where
  | nil
  | errPropagation
  deriving DecidableEq

-- One accepted Set or Release: whether its write has reached the hash, and what it returned.
structure Call where
  change : Change
  arrived : Bool
  answer : Option Answer
  deriving DecidableEq

structure Replica where
  manager : Manager
  hash : Hash
  calls : List Call
  -- What the reload in progress read, between its Load and the lock.
  loaded : Option (List Entry)
  -- History: the last local change of an entry, until the hash receives a newer one of another
  -- replica.
  standing : GoMap GoString Change

inductive Act where
  | set (now : Int) (e : Entry)
  | release (domain : GoString)
  | arrive (n : Nat)
  | answer (n : Nat) (a : Answer)
  | load (rows : List (GoString × Option Entry))
  | reload
  | setBlockedDomains (base : List BlockedDomain)
  | peer (c : Change)
  deriving DecidableEq

namespace Replica

def new (base : List BlockedDomain) : Replica := ⟨.new base,∅,[],none,∅⟩

def accept (r : Replica) : Except ManagerError (Manager × Change) → Replica
  | .ok (m,c) => { r with
      manager := m
      calls := r.calls ++ [⟨c,false,none⟩]
      standing := r.standing.put c.domain c }
  | .error _ => r

variable (P : Platform) (env : GoString)

-- A nil answer means that the write arrived; an error leaves that open, and so may a late arrival.
def step (r : Replica) : Act → Option Replica
  | .set now e => some (r.accept (r.manager.set P env now e))
  | .release domain => some (r.accept (r.manager.release P env domain))
  | .arrive n =>
      match r.calls[n]? with
      | some c =>
          if c.arrived then none
          else some { r with
            hash := r.hash.write c.change
            calls := r.calls.set n { c with arrived := true } }
      | none => none
  | .answer n a =>
      match r.calls[n]? with
      | some c =>
          if c.answer.isSome ∨ a = .nil ∧ c.arrived = false then none
          else some { r with calls := r.calls.set n { c with answer := some a } }
      | none => none
  | .load rows =>
      if r.loaded.isNone ∧ GoMap.Iterates r.hash rows then
        some { r with loaded := some (Hash.load rows) }
      else none
  | .reload =>
      r.loaded.map fun loaded => { r with manager := r.manager.reload P env loaded, loaded := none }
  | .setBlockedDomains base => some { r with manager := r.manager.setBlockedDomains P env base }
  | .peer c =>
      if c.domain = [] ∨ P.domainName c.domain ≠ c.domain then none
      else some { r with hash := r.hash.write c, standing := r.standing.del c.domain }

end Replica

end Blocklist

end SageGateway
