import SageGateway.Lib.GoTime
import SageGateway.Lib.Votes
import SageGateway.Owner

namespace SageGateway

def maxUint64 : Nat := 18446744073709551615

def maxPlausibleBlockHeight : Nat := 1000000000000

def defaultWindowDuration : Int := 2 * GoTime.minute

def defaultMaxObservations : Nat := 1000

def defaultGracePeriod : Int := 30 * GoTime.second

def isPlausibleBlockHeight (height : Nat) : Bool := 0 < height && height ≤ maxPlausibleBlockHeight

def saturatingAdd (a b : Nat) : Nat := if maxUint64 - b < a then maxUint64 else a + b

def saturatingMul (a b : Nat) : Nat :=
  if a = 0 ∨ b = 0 then 0 else if maxUint64 / b < a then maxUint64 else a * b

structure BlockObs where
  endpoint : EndpointAddr
  height : Nat
  timestamp : Int
  fits : height ≤ maxUint64

structure BlockConsensus where
  observations : List BlockObs
  windowDuration : Int
  maxObservations : Nat
  syncAllowance : Nat
  perceived : Nat
  externalFloor : Nat
  graceStart : Int
  gracePeriod : Int

theorem maxPlausibleBlockHeight_le : maxPlausibleBlockHeight ≤ maxUint64 := by decide

theorem plausible_pos {height : Nat} (h : isPlausibleBlockHeight height) : 0 < height :=
  of_decide_eq_true (Bool.and_eq_true_iff.mp h).1

theorem plausible_le {height : Nat} (h : isPlausibleBlockHeight height) :
    height ≤ maxPlausibleBlockHeight := of_decide_eq_true (Bool.and_eq_true_iff.mp h).2

theorem plausible_fits {height : Nat} (h : isPlausibleBlockHeight height) : height ≤ maxUint64 :=
  (plausible_le h).trans maxPlausibleBlockHeight_le

namespace BlockConsensus

def newBlockConsensus (syncAllowance : Nat) (now : Int) : BlockConsensus where
  observations := []
  windowDuration := defaultWindowDuration
  maxObservations := defaultMaxObservations
  syncAllowance := syncAllowance
  perceived := 0
  externalFloor := 0
  graceStart := now
  gracePeriod := defaultGracePeriod

def voteKey (P : Platform) (o : Owners) (obs : BlockObs) : GoString :=
  let party := obs.endpoint.party P o
  if party = [] then obs.endpoint else party

def within (tolerance low high : Nat) : Bool := high - low ≤ tolerance

def partyAnchor (P : Platform) (o : Owners) (observations : List BlockObs) (tolerance : Nat) :
    Nat :=
  (Votes.anchor (within tolerance) (Votes.votes (voteKey P o) BlockObs.height observations)).getD 0

def keepHigher (outlierCap perceived : Nat) (obs : BlockObs) : Nat :=
  if obs.height ≤ outlierCap ∧ perceived < obs.height then obs.height else perceived

def highestUpTo (outlierCap : Nat) (observations : List BlockObs) : Nat :=
  observations.foldl (keepHigher outlierCap) 0

def tolerance (bc : BlockConsensus) : Nat := saturatingMul bc.syncAllowance 3

def inGrace (bc : BlockConsensus) (now : Int) : Bool := now < bc.graceStart + bc.gracePeriod

def effectiveFloor (bc : BlockConsensus) : Nat :=
  if bc.syncAllowance < bc.externalFloor then bc.externalFloor - bc.syncAllowance
  else bc.externalFloor

def applyExternalFloor (bc : BlockConsensus) (perceived : Nat) (now : Int) : Nat :=
  if bc.externalFloor = 0 ∨ bc.inGrace now then perceived
  else if perceived < bc.effectiveFloor then bc.effectiveFloor else perceived

def computePerceived (P : Platform) (o : Owners) (bc : BlockConsensus) (now : Int) : Nat :=
  if bc.observations = [] then bc.applyExternalFloor 0 now
  else
    let anchor := partyAnchor P o bc.observations bc.tolerance
    let outlierCap := saturatingAdd anchor bc.tolerance
    bc.applyExternalFloor (highestUpTo outlierCap bc.observations) now

def pruneOlderThan (bc : BlockConsensus) (cutoff : Int) : List BlockObs :=
  bc.observations.filter fun obs => !decide (obs.timestamp < cutoff)

def keptObservations (bc : BlockConsensus) (now : Int) : List BlockObs :=
  let kept := bc.pruneOlderThan (now - bc.windowDuration)
  if bc.maxObservations ≤ kept.length then kept.drop (bc.maxObservations / 4) else kept

def recompute (P : Platform) (o : Owners) (bc : BlockConsensus) (now : Int) : BlockConsensus :=
  { bc with perceived := bc.computePerceived P o now }

def addObservation (P : Platform) (o : Owners) (bc : BlockConsensus) (endpoint : EndpointAddr)
    (height : Nat) (now : Int) : BlockConsensus :=
  if h : isPlausibleBlockHeight height then
    let obs : BlockObs := ⟨endpoint,height,now,plausible_fits h⟩
    ({ bc with observations := bc.keptObservations now ++ [obs] }).recompute P o now
  else bc

def setExternalFloor (P : Platform) (o : Owners) (bc : BlockConsensus) (height : Nat) (now : Int) :
    BlockConsensus :=
  if height ≠ 0 ∧ isPlausibleBlockHeight height = false then bc
  else ({ bc with externalFloor := height }).recompute P o now

def setSyncAllowance (bc : BlockConsensus) (blocks : Nat) : BlockConsensus :=
  { bc with syncAllowance := blocks }

def reset (bc : BlockConsensus) (now : Int) : BlockConsensus :=
  { bc with observations := [], graceStart := now, perceived := 0, externalFloor := 0 }

end BlockConsensus

end SageGateway
