import SageGateway.Domain
import Mathlib.Algebra.BigOperators.Ring.List
import Mathlib.Tactic.FieldSimp
import Mathlib.Tactic.Linarith
import Mathlib.Tactic.Positivity
import Mathlib.Tactic.Ring

namespace SageGateway

def defaultMaxOperatorShare : ℚ := 1 / 2

def defaultTwoOperatorMaxShare : ℚ := 13 / 20

def defaultDisplacementCeiling : ℚ := 3

structure OperatorCapConfig where
  maxShare : ℚ
  twoOperatorMaxShare : ℚ
  displacementCeiling : ℚ

structure ResolvedCap where
  maxShare : ℚ
  twoOpShare : ℚ
  ceiling : ℚ
  deriving DecidableEq

def OperatorCapConfig.resolve (c : OperatorCapConfig) : Option ResolvedCap :=
  let maxShare := if c.maxShare = 0 then defaultMaxOperatorShare else c.maxShare
  if maxShare < 0 then none
  else
    let twoOpShare :=
      if c.twoOperatorMaxShare = 0 then defaultTwoOperatorMaxShare else c.twoOperatorMaxShare
    let ceiling :=
      if c.displacementCeiling = 0 then defaultDisplacementCeiling else c.displacementCeiling
    some ⟨maxShare,if twoOpShare < 0 then maxShare else twoOpShare,
      if ceiling < 0 then 0 else ceiling⟩

structure OpGroup where
  operator : GoString
  count : Nat
  mass : ℚ
  pick : EndpointAddr
  entitlement : ℚ
  weight : ℚ
  deriving DecidableEq

def eps : ℚ := 1 / 1000000000

namespace OpGroup

def clip (capShare : ℚ) (g : OpGroup) : OpGroup :=
  if capShare + eps < g.weight then { g with weight := capShare } else g

def limit (capShare ceiling : ℚ) (g : OpGroup) : ℚ :=
  if 0 < ceiling ∧ ceiling * g.entitlement < capShare then ceiling * g.entitlement else capShare

def room (capShare ceiling : ℚ) (g : OpGroup) : ℚ := g.limit capShare ceiling - g.weight

def fill (capShare ceiling give headroom : ℚ) (g : OpGroup) : OpGroup :=
  if 0 < g.room capShare ceiling then
    { g with weight := g.weight + give * g.room capShare ceiling / headroom }
  else g

def giveBack (capShare leftover overEntitlement : ℚ) (g : OpGroup) : OpGroup :=
  if capShare - eps ≤ g.weight ∧ capShare < g.entitlement then
    { g with weight := g.weight + leftover * g.entitlement / overEntitlement }
  else g

end OpGroup

def excess (capShare : ℚ) (groups : List OpGroup) : ℚ :=
  (groups.map fun g => if capShare + eps < g.weight then g.weight - capShare else 0).sum

def overEntitlement (capShare : ℚ) (groups : List OpGroup) : ℚ :=
  (groups.map fun g => if capShare + eps < g.weight then g.entitlement else 0).sum

def headroom (capShare ceiling : ℚ) (groups : List OpGroup) : ℚ :=
  (groups.map fun g => if 0 < g.room capShare ceiling then g.room capShare ceiling else 0).sum

def waterFill (groups : List OpGroup) (capShare ceiling : ℚ) : List OpGroup :=
  let excess := excess capShare groups
  let overEntitlement := overEntitlement capShare groups
  let groups := groups.map (OpGroup.clip capShare)
  if excess ≤ eps then groups
  else
    let headroom := headroom capShare ceiling groups
    let give := if excess ≤ headroom then excess else headroom
    let groups :=
      if eps < give then groups.map (OpGroup.fill capShare ceiling give headroom) else groups
    let leftover := excess - give
    if eps < leftover ∧ 0 < overEntitlement then
      groups.map (OpGroup.giveBack capShare leftover overEntitlement)
    else groups

def weightAt (weight : Option (Nat → ℚ)) (i : Nat) : ℚ := (weight.map fun w => w i).getD 1

def OpGroup.meet (draw w : ℚ) (ep : EndpointAddr) (g : OpGroup) : OpGroup :=
  { g with count := g.count + 1, mass := g.mass + w
           pick := if draw < w / (g.mass + w) then ep else g.pick }

def joinGroup (operator : GoString) (draw w : ℚ) (ep : EndpointAddr) : List OpGroup → List OpGroup
  | [] => [⟨operator,1,w,ep,0,0⟩]
  | g :: gs =>
      if g.operator = operator then g.meet draw w ep :: gs
      else g :: joinGroup operator draw w ep gs

def groupCandidates (P : Platform) (keep : Nat → Bool) (weight : Option (Nat → ℚ))
    (draw : Nat → ℚ) (candidates : List EndpointAddr) : List OpGroup :=
  candidates.zipIdx.foldl (fun groups p =>
    if keep p.2 && decide (0 < weightAt weight p.2) then
      joinGroup (p.1.operator P) (draw p.2) (weightAt weight p.2) p.1 groups
    else groups) []

def totalMass (groups : List OpGroup) : ℚ := (groups.map OpGroup.mass).sum

def entitle (groups : List OpGroup) : List OpGroup :=
  groups.map fun g =>
    { g with entitlement := g.mass / totalMass groups, weight := g.mass / totalMass groups }

def positiveTotal (weights : List ℚ) : ℚ := (weights.map fun w => if 0 < w then w else 0).sum

def spin : List ℚ → Nat → ℚ → Option Nat → Option Nat
  | [],_,_,last => last
  | w :: ws,i,r,last =>
      if w ≤ 0 then spin ws (i + 1) r last
      else if r < w then some i
      else spin ws (i + 1) (r - w) (some i)

def pickIndex (weights : List ℚ) (draw : ℚ) : Option Nat :=
  if positiveTotal weights ≤ 0 then none
  else spin weights 0 (draw * positiveTotal weights) none

def capShareFor (r : ResolvedCap) (operators : Nat) : ℚ :=
  if operators = 2 then r.twoOpShare else r.maxShare

-- The reservoir draws are indexed by candidate, the last draw picks the operator.
def cappedPickWeighted (P : Platform) (cfg : OperatorCapConfig) (keep : Nat → Bool)
    (weight : Option (Nat → ℚ)) (reservoir : Nat → ℚ) (draw : ℚ)
    (candidates : List EndpointAddr) : Option (GoString × EndpointAddr) :=
  match cfg.resolve with
  | none => none
  | some r =>
      let groups := groupCandidates P keep weight reservoir candidates
      if candidates.length < 2 ∨ groups.length < 2 ∨ totalMass groups ≤ 0 then none
      else
        let groups := waterFill (entitle groups) (capShareFor r groups.length) r.ceiling
        ((pickIndex (groups.map OpGroup.weight) draw).bind fun i => groups[i]?).map fun g =>
          (g.operator,g.pick)

end SageGateway
