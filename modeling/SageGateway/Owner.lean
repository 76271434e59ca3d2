import SageGateway.Domain
import SageGateway.Lib.GoMap

namespace SageGateway

def ownerCacheMax : Nat := 16384

def dedicatedMinSeen : Nat := 5

structure Owners where
  ownerBySupplier : GoMap GoString GoString
  ownerBySupplierLen : Nat
  tenancy : GoMap GoString (GoMap GoString GoString)
  tenancyLen : Nat
  dedicatedTo : GoMap GoString GoString

namespace Owners

def new : Owners := ⟨∅,0,∅,0,∅⟩

def isDedicated (seen n : Nat) : Bool := dedicatedMinSeen ≤ seen && 9 * seen ≤ 10 * n

def refreshDedicated (o : Owners) (operator : GoString) (sups : GoMap GoString GoString) : Owners :=
  let owners := sups.toList.map Prod.snd
  match owners.dedup.find? fun owner => isDedicated sups.len (owners.count owner) with
  | some owner => { o with dedicatedTo := o.dedicatedTo.put operator owner }
  | none => { o with dedicatedTo := o.dedicatedTo.del operator }

def recordSupplier (o : Owners) (supplier owner : GoString) : Owners :=
  let named := o.ownerBySupplier.put supplier owner
  if o.ownerBySupplier.has supplier then { o with ownerBySupplier := named }
  else if ownerCacheMax < o.ownerBySupplierLen + 1 then
    { o with ownerBySupplier := ∅, ownerBySupplierLen := 0 }
  else { o with ownerBySupplier := named, ownerBySupplierLen := o.ownerBySupplierLen + 1 }

def settle (o : Owners) (operator supplier owner : GoString) (sups : GoMap GoString GoString) :
    Owners :=
  let sups := sups.put supplier owner
  ({ o with tenancy := o.tenancy.put operator sups }).refreshDedicated operator sups

def recordTenant (o : Owners) (supplier owner operator : GoString) : Owners :=
  let sups := (o.tenancy.get operator).getD ∅
  match sups.get supplier with
  | some prev => if prev = owner then o else o.settle operator supplier owner sups
  | none =>
      if ownerCacheMax < o.tenancyLen + 1 then
        ({ o with tenancy := ∅, dedicatedTo := ∅, tenancyLen := 1 }).settle operator supplier owner
          ∅
      else ({ o with tenancyLen := o.tenancyLen + 1 }).settle operator supplier owner sups

def recordOwner (o : Owners) (supplier owner operator : GoString) : Owners :=
  if supplier = [] ∨ owner = [] then o
  else
    let o := o.recordSupplier supplier owner
    if operator = [] then o else o.recordTenant supplier owner operator

def dedicatedOwner (o : Owners) (operator : GoString) : GoString :=
  (o.dedicatedTo.get operator).getD []

end Owners

namespace EndpointAddr

def owner (o : Owners) (e : EndpointAddr) : GoString :=
  (o.ownerBySupplier.get (supplier e)).getD []

def party (P : Platform) (o : Owners) (e : EndpointAddr) : GoString :=
  let op := operator P e
  let owner := o.dedicatedOwner op
  if owner ≠ [] ∧ owner = e.owner o then owner else op

end EndpointAddr

structure Affiliates where
  operators : GoMap GoString Unit
  owners : GoMap GoString Unit

namespace Affiliates

variable (P : Platform) (o : Owners)

def add (a : Affiliates) (ep : EndpointAddr) : Affiliates :=
  let op := ep.operator P
  let owner := o.dedicatedOwner op
  { operators := if op = [] then a.operators else a.operators.put op ()
    owners := if owner ≠ [] ∧ owner = ep.owner o then a.owners.put owner () else a.owners }

def affiliatesOf (eps : List EndpointAddr) : Affiliates := eps.foldl (add P o) ⟨∅,∅⟩

def contains (a : Affiliates) (ep : EndpointAddr) : Bool :=
  let op := ep.operator P
  let owner := o.dedicatedOwner op
  a.operators.has op || decide (owner ≠ [] ∧ a.owners.has owner = true ∧ owner = ep.owner o)

end Affiliates

namespace EndpointAddr

def exclude (l : List EndpointAddr) (addrs : GoMap EndpointAddr Unit) : List EndpointAddr :=
  if addrs.len = 0 then l else l.filter fun a => !addrs.has a

def excludeAffiliates (P : Platform) (o : Owners) (l : List EndpointAddr) (a : Affiliates) :
    List EndpointAddr :=
  if l = [] ∨ a.operators.len = 0 ∧ a.owners.len = 0 then l
  else
    let out := l.filter fun ep => !a.contains P o ep
    if out = [] then l else out

end EndpointAddr

end SageGateway
