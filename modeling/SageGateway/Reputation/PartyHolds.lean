import SageGateway.Reputation.Parties
import SageGateway.Lib.Run

namespace SageGateway.Reputation

open List Option
open Function (update_eq_self update_of_ne update_self)

inductive Stage (F : Type) where
  | keys
  | heldStale (prev : List (PartyStale F))
  | stale (stale : List (PartyStale F))
  | heldTrust (stale : List (PartyStale F)) (prev : List (PartyTrust F))
  | trust (stale : List (PartyStale F)) (trust : List (PartyTrust F))
  | peer (stale : List (PartyStale F)) (trust : List (PartyTrust F)) (peer : PartyPenalties F)
  | view (v : ChronicView F)
  | stored (v : ChronicView F)

inductive Job (F : Type) where
  | adopting (seed : ChronicView F)
  | seeding (seed : ChronicView F)
  | ready
  | running (now : Int) (stage : Stage F)

structure Pod (F : Type) where
  heads : OpTracker F
  refusals : OpTracker F
  chronic : Option (ChronicView F)

structure Wiring (ι κ : Type) where
  home : ι → κ
  peer : ι → Option κ

structure Surroundings where
  staleGate : ServiceGate
  served : GoString → Bool
  readable : Bool
  leader : Bool

structure PartyNet (ι κ F : Type) where
  clock : Int
  pods : ι → Pod F
  stores : κ → PartyPenalties F
  jobs : GoMap Nat (ι × Job F)

namespace PartyNet

inductive Act (ι : Type) where
  | tick (t : Int)
  | recordHeadAnswer (i : ι) (svc party : GoString) (stale : Bool)
  | recordRefusal (i : ι) (svc party : GoString) (ts : Int)
  | refresh (n : Nat) (i : ι)
  | adopt (n : Nat) (i : ι) (readable : Bool)
  | advance (n : Nat) (env : Surroundings)

variable {ι κ F : Type} [DecidableEq ι] [DecidableEq κ] [Zero F] [One F] [Add F] [Sub F] [Mul F]
  [Div F] [Neg F] [NatCast F] [OfScientific F] [Preorder F] [DecidableLT F] [DecidableLE F]
  [DecidableEq F]

def newTracker (halfLife : Int) : OpTracker F :=
    { OpTracker.newOpTracker halfLife with dirty := none }

def start (clock : Int) : PartyNet ι κ F where
  clock := clock
  pods _ := ⟨newTracker staleShareHalfLife,newTracker refusalHalfLife,none⟩
  stores _ := ⟨[],[]⟩
  jobs := ∅

def setPod (s : PartyNet ι κ F) (i : ι) (p : Pod F) : PartyNet ι κ F :=
  { s with pods := Function.update s.pods i p }

def setJob (s : PartyNet ι κ F) (n : Nat) (i : ι) (j : Job F) : PartyNet ι κ F :=
  { s with jobs := s.jobs.put n (i,j) }

def endJob (s : PartyNet ι κ F) (n : Nat) : PartyNet ι κ F := { s with jobs := s.jobs.del n }

def setStore (s : PartyNet ι κ F) (c : κ) (p : PartyPenalties F) : PartyNet ι κ F :=
  { s with stores := Function.update s.stores c p }

def recordHeadAnswer (M : OpMath F) (p : Pod F) (svc party : GoString) (stale : Bool) (now : Int) :
    Pod F :=
  if party = [] then p
  else { p with heads := p.heads.record M ⟨svc,party,[]⟩ (if stale then 1 else 0) now }

def recordRefusal (M : OpMath F) (p : Pod F) (svc party : GoString) (ts : Int) : Pod F :=
  if party = [] then p else { p with refusals := p.refusals.record M ⟨svc,party,[]⟩ 0 ts }

def isBlank (chronic : Option (ChronicView F)) : Bool :=
  match chronic with
  | some v => v.stale.isEmpty && v.trust.isEmpty
  | none => true

def prevStale (p : Pod F) : List (PartyStale F) := (p.chronic.map ChronicView.stale).getD []

def prevTrust (p : Pod F) : List (PartyTrust F) := (p.chronic.map ChronicView.trust).getD []

def readPeerParties (W : Wiring ι κ) (s : PartyNet ι κ F) (i : ι) (readable : Bool) :
    PartyPenalties F :=
  match W.peer i with
  | some c => if readable then s.stores c else ⟨[],[]⟩
  | none => ⟨[],[]⟩

def adopt (W : Wiring ι κ) (s : PartyNet ι κ F) (n : Nat) (i : ι) (readable : Bool) :
    PartyNet ι κ F :=
  let p := s.stores (W.home i)
  if readable ∧ ¬ (p.stale.isEmpty ∧ p.trust.isEmpty) then
    s.setJob n i (.adopting (.adoptPartyPenalties p))
  else s

def headStats (M : OpMath F) (s : PartyNet ι κ F) (i : ι) (now : Int) : GoMap OpID
    (OperatorStat F) :=
  ((s.pods i).heads.snapshot M now).2

def refusalStats (M : OpMath F) (s : PartyNet ι κ F) (i : ι) (now : Int) :
    GoMap OpID (OperatorStat F) :=
  ((s.pods i).refusals.snapshot M now).2

def refreshBaselines (M : OpMath F) (W : Wiring ι κ) (env : Surroundings) (s : PartyNet ι κ F)
    (n : Nat) (i : ι) (now : Int) : Stage F → PartyNet ι κ F
  | .keys => s.setJob n i (.running now (.heldStale (prevStale (s.pods i))))
  | .heldStale prev =>
      let heads := ((s.pods i).heads.snapshot M now).1
      (s.setPod i { s.pods i with heads := heads }).setJob n i
        (.running now (.stale (partyStale (s.headStats M i now) env.staleGate prev now)))
  | .stale stale => s.setJob n i (.running now (.heldTrust stale (prevTrust (s.pods i))))
  | .heldTrust stale prev =>
      let refusals := ((s.pods i).refusals.snapshot M now).1
      (s.setPod i { s.pods i with refusals := refusals }).setJob n i (.running now
        (.trust stale (partyTrust stale (s.refusalStats M i now) prev now env.staleGate)))
  | .trust stale trust =>
      s.setJob n i (.running now (.peer stale trust (s.readPeerParties W i env.readable)))
  | .peer stale trust peer =>
      let merged := mergePeerParties stale trust peer env.served env.staleGate now
      s.setJob n i (.running now (.view (.ofParties merged.1 merged.2)))
  | .view v =>
      let s' := if env.leader then s.setStore (W.home i) v.storePartyPenalties else s
      s'.setJob n i (.running now (.stored v))
  | .stored v => (s.setPod i { s.pods i with chronic := some v }).endJob n

def advance (M : OpMath F) (W : Wiring ι κ) (env : Surroundings) (s : PartyNet ι κ F) (n : Nat)
    (i : ι) : Job F → PartyNet ι κ F
  | .adopting seed =>
      s.setJob n i (if isBlank (s.pods i).chronic then .seeding seed else .ready)
  | .seeding seed => (s.setPod i { s.pods i with chronic := some seed }).setJob n i .ready
  | .ready => s.setJob n i (.running s.clock .keys)
  | .running now stage => s.refreshBaselines M W env n i now stage

def step (M : OpMath F) (W : Wiring ι κ) (s : PartyNet ι κ F) : Act ι → Option (PartyNet ι κ F)
  | .tick t => if s.clock ≤ t then some { s with clock := t } else none
  | .recordHeadAnswer i svc party stale =>
      some (s.setPod i (recordHeadAnswer M (s.pods i) svc party stale s.clock))
  | .recordRefusal i svc party ts => some (s.setPod i (recordRefusal M (s.pods i) svc party ts))
  | .refresh n i => if s.jobs.has n then none else some (s.setJob n i .ready)
  | .adopt n i readable => if s.jobs.has n then none else some (s.adopt W n i readable)
  | .advance n env => (s.jobs.get n).map fun job => s.advance M W env n job.1 job.2

end PartyNet

structure Pricing (ι : Type) where
  pod : ι
  svc : GoString
  party : GoString
  time : Int

structure Distrust (ι : Type) where
  pod : ι
  party : GoString
  time : Int

structure PricedNet (ι κ F : Type) where
  net : PartyNet ι κ F
  priced : List (Pricing ι)
  distrusted : List (Distrust ι)
  asOf : ι → Int

namespace PricedNet

variable {ι κ F : Type} [DecidableEq ι] [DecidableEq κ] [Zero F] [One F] [Add F] [Sub F] [Mul F]
  [Div F] [Neg F] [NatCast F] [OfScientific F] [Preorder F] [DecidableLT F] [DecidableLE F]
  [DecidableEq F]

def start (clock : Int) : PricedNet ι κ F := ⟨.start clock,[],[],fun _ => clock⟩

def pricings (M : OpMath F) (net : PartyNet ι κ F) (env : Surroundings) (i : ι) (now : Int) :
    List (Pricing ι) :=
  (pricedPairs (net.headStats M i now) env.staleGate).map fun pair => ⟨i,pair.1,pair.2,now⟩

def distrusts (M : OpMath F) (net : PartyNet ι κ F) (env : Surroundings) (i : ι) (now : Int)
    (stale : List (PartyStale F)) : List (Distrust ι) :=
  let refusals := net.refusalStats M i now
  let parties := stale.map PartyStale.party ++ refusals.toList.map fun row => row.1.op
  (parties.filter fun party => freshEvidence stale refusals env.staleGate party).map
    fun party => ⟨i,party,now⟩

def watch (M : OpMath F) (s : PricedNet ι κ F) (net : PartyNet ι κ F) (env : Surroundings) (i : ι)
    (now : Int) : Stage F → PricedNet ι κ F
  | .heldStale _ => { s with net := net, priced := pricings M s.net env i now ++ s.priced }
  | .heldTrust stale _ =>
      { s with net := net, distrusted := distrusts M s.net env i now stale ++ s.distrusted }
  | .stored _ => { s with net := net, asOf := Function.update s.asOf i now }
  | _ => { s with net := net }

def step (M : OpMath F) (W : Wiring ι κ) (s : PricedNet ι κ F) (a : PartyNet.Act ι) :
    Option (PricedNet ι κ F) :=
  (s.net.step M W a).map fun net =>
    match a with
    | .advance n env =>
        match s.net.jobs.get n with
        | some (i,.running now stage) => s.watch M net env i now stage
        | _ => { s with net := net }
    | _ => { s with net := net }

def sinceRefresh (s : PricedNet ι κ F) (i : ι) : Int := s.net.clock - s.asOf i

def PricedWithin (s : PricedNet ι κ F) (id : OpID) (age : Int) : Prop :=
  ∃ e ∈ s.priced, e.svc = id.svc ∧ e.party = id.op ∧ e.time ≤ s.net.clock ∧
    s.net.clock - e.time < age

instance (s : PricedNet ι κ F) (id : OpID) (age : Int) : Decidable (s.PricedWithin id age) :=
  inferInstanceAs (Decidable (∃ e ∈ s.priced, _))

def DistrustedWithin (s : PricedNet ι κ F) (party : GoString) (age : Int) : Prop :=
  ∃ e ∈ s.distrusted, e.party = party ∧ e.time ≤ s.net.clock ∧ s.net.clock - e.time < age

structure Recent (s : PricedNet ι κ F) (i : ι) (v : ChronicView F) : Prop where
  refreshed : 0 ≤ s.sinceRefresh i
  stale : ∀ id penalty, v.stalePen.get id = some penalty →
    s.PricedWithin id (staleShareHold + s.sinceRefresh i)
  trust : ∀ party penalty, v.trustPen.get party = some penalty →
    s.DistrustedWithin party (trustHold + s.sinceRefresh i)

end PricedNet

section Backing

variable {ι F : Type} [Zero F] [Preorder F] (L L' : List (Pricing ι)) (T T' : List (Distrust ι))

def StaleFrom (svc party : GoString) (pricedAt : Int) : Prop :=
  ∃ e ∈ L, e.svc = svc ∧ e.party = party ∧ pricedAt ≤ e.time

def TrustFrom (party : GoString) (untilAt : Int) : Prop :=
  ∃ e ∈ T, e.party = party ∧ untilAt ≤ e.time + trustHold

def StaleBacked (stale : List (PartyStale F)) : Prop :=
  ∀ p ∈ stale, p.penalty < 0 → StaleFrom L p.serviceID p.party p.pricedAt

def TrustBacked (trust : List (PartyTrust F)) : Prop :=
  ∀ t ∈ trust, t.penalty < 0 → TrustFrom T t.party t.untilAt

def StaleLive (now : Int) (stale : List (PartyStale F)) : Prop :=
  ∀ p ∈ stale, p.penalty < 0 → GoTime.sub now p.pricedAt < staleShareHold

def TrustLive (now : Int) (trust : List (PartyTrust F)) : Prop :=
  ∀ t ∈ trust, t.penalty < 0 → now < t.untilAt

structure StoreBacked (p : PartyPenalties F) : Prop where
  stale : ∀ ps ∈ p.stale, ps.penalty < 0 →
    StaleFrom L ps.service ps.party (GoTime.ofUnix ps.pricedAt)
  trust : ∀ pt ∈ p.trust, TrustFrom T pt.party (GoTime.ofUnix pt.untilAt)

structure ViewBacked (now : Int) (v : ChronicView F) : Prop where
  stale : StaleBacked L v.stale
  trust : TrustBacked T v.trust
  stalePen : ∀ id penalty, v.stalePen.get id = some penalty →
    ∃ p ∈ v.stale, p.serviceID = id.svc ∧ p.party = id.op ∧ p.penalty < 0 ∧
      GoTime.sub now p.pricedAt < staleShareHold
  trustPen : ∀ party penalty, v.trustPen.get party = some penalty →
    ∃ t ∈ v.trust, t.party = party ∧ t.penalty < 0 ∧ now < t.untilAt

def StageBacked (now : Int) : Stage F → Prop
  | .keys => True
  | .heldStale prev => StaleBacked L prev
  | .stale stale => StaleBacked L stale ∧ StaleLive now stale
  | .heldTrust stale prev => (StaleBacked L stale ∧ StaleLive now stale) ∧ TrustBacked T prev
  | .trust stale trust =>
      (StaleBacked L stale ∧ StaleLive now stale) ∧ TrustBacked T trust ∧ TrustLive now trust
  | .peer stale trust peer =>
      (StaleBacked L stale ∧ StaleLive now stale) ∧ (TrustBacked T trust ∧ TrustLive now trust) ∧
        StoreBacked L T peer
  | .view v => ViewBacked L T now v
  | .stored v => ViewBacked L T now v

def JobBacked (clock : Int) : Job F → Prop
  | .adopting seed => ∀ now, ViewBacked L T now seed
  | .seeding seed => ∀ now, ViewBacked L T now seed
  | .ready => True
  | .running now stage => (GoTime.zeroTime ≤ now ∧ now ≤ clock) ∧ StageBacked L T now stage

variable {L L' T T'}

theorem StaleFrom.mono (hL : L ⊆ L') {svc party : GoString} {pricedAt : Int}
    (h : StaleFrom L svc party pricedAt) : StaleFrom L' svc party pricedAt := by
  obtain ⟨e,he,hr⟩ := h
  exact ⟨e,hL he,hr⟩

theorem TrustFrom.mono (hT : T ⊆ T') {party : GoString} {untilAt : Int}
    (h : TrustFrom T party untilAt) : TrustFrom T' party untilAt := by
  obtain ⟨e,he,hr⟩ := h
  exact ⟨e,hT he,hr⟩

variable {now : Int} {stale : List (PartyStale F)} {trust : List (PartyTrust F)}

theorem StaleBacked.mono (hL : L ⊆ L') (h : StaleBacked L stale) :
    StaleBacked L' stale := fun p hp hn => (h p hp hn).mono hL

theorem TrustBacked.mono (hT : T ⊆ T') (h : TrustBacked T trust) :
    TrustBacked T' trust := fun t ht hn => (h t ht hn).mono hT

section

variable (hL : L ⊆ L') (hT : T ⊆ T')

include hL hT

theorem StoreBacked.mono {p : PartyPenalties F} (h : StoreBacked L T p) : StoreBacked L' T' p :=
  ⟨fun ps hps hn => (h.stale ps hps hn).mono hL,fun pt hpt => (h.trust pt hpt).mono hT⟩

theorem ViewBacked.mono {v : ChronicView F} (h : ViewBacked L T now v) : ViewBacked L' T' now v :=
  ⟨h.stale.mono hL,h.trust.mono hT,h.stalePen,h.trustPen⟩

theorem StageBacked.mono :
    {stage : Stage F} → StageBacked L T now stage → StageBacked L' T' now stage
  | .keys, _ => trivial
  | .heldStale _, h => StaleBacked.mono hL h
  | .stale _, h => ⟨h.1.mono hL,h.2⟩
  | .heldTrust _ _, h => ⟨⟨h.1.1.mono hL,h.1.2⟩,h.2.mono hT⟩
  | .trust _ _, h => ⟨⟨h.1.1.mono hL,h.1.2⟩,h.2.1.mono hT,h.2.2⟩
  | .peer _ _ _, h => ⟨⟨h.1.1.mono hL,h.1.2⟩,⟨h.2.1.1.mono hT,h.2.1.2⟩,h.2.2.mono hL hT⟩
  | .view _, h | .stored _, h => ViewBacked.mono hL hT h

theorem JobBacked.mono {clock clock' : Int} (hc : clock ≤ clock') :
    {j : Job F} → JobBacked L T clock j → JobBacked L' T' clock' j
  | .adopting _, h | .seeding _, h => fun now => (h now).mono hL hT
  | .ready, _ => trivial
  | .running _ _, h => ⟨⟨h.1.1,h.1.2.trans hc⟩,h.2.mono hL hT⟩

end

theorem storeBacked_empty : StoreBacked L T (⟨[],[]⟩ : PartyPenalties F) := ⟨nofun,nofun⟩

section

variable [Neg F] [OfScientific F]

theorem StoreBacked.adopt {p : PartyPenalties F} (h : StoreBacked L T p) (now : Int) :
    ViewBacked L T now (ChronicView.adoptPartyPenalties p) := by
  refine ⟨?_,?_,nofun,nofun⟩
  · intro q hq hn
    obtain ⟨ps,hps,rfl⟩ := List.mem_map.mp hq
    exact h.stale ps hps hn
  · intro t ht _
    obtain ⟨pt,hpt,rfl⟩ := List.mem_map.mp ht
    exact h.trust pt hpt

end

variable [DecidableLT F]

theorem ViewBacked.store {v : ChronicView F} (h : ViewBacked L T now v) :
    StoreBacked L T v.storePartyPenalties := by
  constructor
  · intro ps hps hn
    obtain ⟨p,hp,rfl⟩ := List.mem_map.mp hps
    obtain ⟨e,he,hs,hpa,hle⟩ := h.stale p (mem_filter.mp hp).1 hn
    exact ⟨e,he,hs,hpa,(GoTime.ofUnix_unix_le _).trans hle⟩
  · intro pt hpt
    obtain ⟨t,ht,rfl⟩ := List.mem_map.mp hpt
    obtain ⟨hm,hn⟩ := mem_filter.mp ht
    obtain ⟨e,he,hpa,hle⟩ := h.trust t hm (of_decide_eq_true hn)
    exact ⟨e,he,hpa,(GoTime.ofUnix_unix_le _).trans hle⟩

theorem viewBacked_ofParties
    (hs : StaleBacked L stale) (hl : StaleLive now stale) (htr : TrustBacked T trust)
    (hu : TrustLive now trust) : ViewBacked L T now (ChronicView.ofParties stale trust) := by
  refine ⟨hs,htr,?_,?_⟩
  · intro id penalty hg
    rcases GoMap.get_putAll_eq_some hg with hno | hm
    · cases hno
    · obtain ⟨p,hp,heq⟩ := List.mem_map.mp hm
      cases heq
      obtain ⟨hp,hn⟩ := mem_filter.mp hp
      have hn := of_decide_eq_true hn
      exact ⟨p,hp,rfl,rfl,hn,hl p hp hn⟩
  · intro party penalty hg
    rcases GoMap.get_putAll_eq_some hg with hno | hm
    · cases hno
    · obtain ⟨t,ht,heq⟩ := List.mem_map.mp hm
      cases heq
      obtain ⟨ht,hn⟩ := mem_filter.mp ht
      have hn := of_decide_eq_true hn
      exact ⟨t,ht,rfl,hn,hu t ht hn⟩

variable [DecidableLE F] in
theorem backed_borrowStale (served : GoString → Bool) (staleOn : ServiceGate) (now : Int)
    {rows : List (StoredStale F)} (hr : ∀ ps ∈ rows, ps.penalty < 0 →
      StaleFrom L ps.service ps.party (GoTime.ofUnix ps.pricedAt))
    (hs : StaleBacked L stale) (hl : StaleLive now stale) :
    StaleBacked L (rows.foldl (borrowStale served staleOn now) stale) ∧
      StaleLive now (rows.foldl (borrowStale served staleOn now) stale) := by
  induction rows generalizing stale with
  | nil => exact ⟨hs,hl⟩
  | cons ps rows ih =>
    obtain ⟨hps,hr⟩ := forall_mem_cons.mp hr
    refine ih hr ?_ ?_
    · intro p hp hn
      rcases mem_borrowStale served staleOn now hp with
        ⟨q,hq,hsv,hpa,hpe,hat⟩ | ⟨hsv,hpa,hpe,hat,-⟩
      · rw [← hsv,← hpa,← hat]
        exact hs q hq (hpe ▸ hn)
      · rw [← hsv,← hpa,← hat]
        exact hps (hpe ▸ hn)
    · intro p hp hn
      rcases mem_borrowStale served staleOn now hp with
        ⟨q,hq,-,-,hpe,hat⟩ | ⟨-,-,-,-,hre⟩
      · rw [← hat]
        exact hl q hq (hpe ▸ hn)
      · exact hre

variable [Neg F] [OfScientific F] in
theorem backed_borrowTrust (now : Int) {rows : List StoredTrust}
    (hr : ∀ pt ∈ rows, TrustFrom T pt.party (GoTime.ofUnix pt.untilAt))
    (htr : TrustBacked T trust) (hl : TrustLive now trust) :
    TrustBacked T (rows.foldl (borrowTrust now) trust) ∧
      TrustLive now (rows.foldl (borrowTrust now) trust) := by
  induction rows generalizing trust with
  | nil => exact ⟨htr,hl⟩
  | cons pt rows ih =>
    obtain ⟨hpt,hr⟩ := forall_mem_cons.mp hr
    refine ih hr ?_ ?_
    · intro t ht hn
      rcases mem_borrowTrust now ht with ⟨q,hq,hp,hpe,hu⟩ | ⟨hp,hu,-⟩
      · rw [← hp,← hu]
        exact htr q hq (hpe ▸ hn)
      · rwa [← hp,← hu]
    · intro t ht hn
      rcases mem_borrowTrust now ht with ⟨q,hq,-,hpe,hu⟩ | ⟨-,-,hnow⟩
      · rw [← hu]
        exact hl q hq (hpe ▸ hn)
      · exact hnow

end Backing

namespace PricedNet

variable {ι κ F : Type} [Zero F] [Preorder F]

structure Inv (s : PricedNet ι κ F) : Prop where
  clock : GoTime.zeroTime ≤ s.net.clock
  asOf : ∀ i, s.asOf i ≤ s.net.clock
  priced : ∀ e ∈ s.priced, e.time ≤ s.net.clock
  distrusted : ∀ e ∈ s.distrusted, e.time ≤ s.net.clock
  views : ∀ i v, (s.net.pods i).chronic = some v → ViewBacked s.priced s.distrusted (s.asOf i) v
  stores : ∀ c, StoreBacked s.priced s.distrusted (s.net.stores c)
  jobs : ∀ n i j, s.net.jobs.get n = some (i,j) →
    JobBacked s.priced s.distrusted s.net.clock j

namespace Inv

variable {s : PricedNet ι κ F} (h : Inv s)

include h

theorem tick {t : Int} (ht : s.net.clock ≤ t) : Inv
    { s with net := { s.net with clock := t } } where
  __ := h
  clock := h.clock.trans ht
  asOf i := (h.asOf i).trans ht
  priced e he := (h.priced e he).trans ht
  distrusted e he := (h.distrusted e he).trans ht
  jobs n i j hj := (h.jobs n i j hj).mono (List.Subset.refl _) (List.Subset.refl _) ht

theorem setJob (n : Nat) (i : ι) {j : Job F} (hj : JobBacked s.priced s.distrusted s.net.clock j) :
    Inv { s with net := s.net.setJob n i j } where
  __ := h
  jobs m i' j' hget := by
    rcases GoMap.get_put_eq_some.mp hget with ⟨-,heq⟩ | ⟨-,hold⟩
    · cases heq
      exact hj
    · exact h.jobs m i' j' hold

theorem endJob (n : Nat) : Inv { s with net := s.net.endJob n } where
  __ := h
  jobs m i j hget := h.jobs m i j (GoMap.get_del_eq_some.mp hget).2

section

variable [DecidableEq ι]

theorem setView (i : ι) {p : Pod F} {asOf : Int} (ha : asOf ≤ s.net.clock)
    (hp : ∀ v, p.chronic = some v → ViewBacked s.priced s.distrusted asOf v) :
    Inv { s with net := s.net.setPod i p, asOf := Function.update s.asOf i asOf } where
  __ := h
  asOf i' := by
    by_cases hi : i' = i
    · subst hi
      simpa [PartyNet.setPod] using ha
    · simpa [PartyNet.setPod,update_of_ne hi] using h.asOf i'
  views i' v hv := by
    by_cases hi : i' = i
    · subst hi
      simp [PartyNet.setPod] at hv ⊢
      exact hp v hv
    · simp [PartyNet.setPod,update_of_ne hi] at hv ⊢
      exact h.views i' v hv

theorem setPod (i : ι) {p : Pod F}
    (hp : ∀ v, p.chronic = some v → ViewBacked s.priced s.distrusted (s.asOf i) v) :
    Inv { s with net := s.net.setPod i p } := by
  have hset := h.setView i (h.asOf i) hp
  rwa [update_eq_self] at hset

end

variable [DecidableEq κ] in
theorem setStore (c : κ) {p : PartyPenalties F} (hp : StoreBacked s.priced s.distrusted p) :
    Inv { s with net := s.net.setStore c p } where
  __ := h
  stores c' := by
    by_cases hc : c' = c
    · subst hc
      simpa [PartyNet.setStore] using hp
    · simpa [PartyNet.setStore,update_of_ne hc] using h.stores c'

theorem log {L : List (Pricing ι)} {T : List (Distrust ι)} (hL : ∀ e ∈ L, e.time ≤ s.net.clock)
    (hT : ∀ e ∈ T, e.time ≤ s.net.clock) :
    Inv { s with priced := L ++ s.priced, distrusted := T ++ s.distrusted } where
  clock := h.clock
  asOf := h.asOf
  priced e he := (mem_append.mp he).elim (hL e) (h.priced e)
  distrusted e he := (mem_append.mp he).elim (hT e) (h.distrusted e)
  views i v hv := (h.views i v hv).mono (subset_append_right L _) (subset_append_right T _)
  stores c := (h.stores c).mono (subset_append_right L _) (subset_append_right T _)
  jobs n i j hj := (h.jobs n i j hj).mono (subset_append_right L _)
    (subset_append_right T _) (Int.le_refl _)

theorem prevStale (i : ι) : StaleBacked s.priced (PartyNet.prevStale (s.net.pods i)) := by
  unfold PartyNet.prevStale
  cases hv : (s.net.pods i).chronic with
  | none => exact nofun
  | some v => exact (h.views i v hv).stale

theorem prevTrust (i : ι) : TrustBacked s.distrusted (PartyNet.prevTrust (s.net.pods i)) := by
  unfold PartyNet.prevTrust
  cases hv : (s.net.pods i).chronic with
  | none => exact nofun
  | some v => exact (h.views i v hv).trust

theorem readPeer (W : Wiring ι κ) (i : ι) (readable : Bool) :
    StoreBacked s.priced s.distrusted (s.net.readPeerParties W i readable) := by
  unfold PartyNet.readPeerParties
  split
  · split_ifs
    · exact h.stores _
    · exact storeBacked_empty
  · exact storeBacked_empty

theorem recent {i : ι} {v : ChronicView F} (hv : (s.net.pods i).chronic = some v) :
    s.Recent i v where
  refreshed := Int.sub_nonneg_of_le (h.asOf i)
  stale id penalty hget := by
    obtain ⟨p,hp,hs,hpa,hn,hl⟩ := (h.views i v hv).stalePen id penalty hget
    obtain ⟨e,he,hes,hep,hle⟩ := (h.views i v hv).stale p hp hn
    have hd := (GoTime.sub_lt_iff (by decide) (by decide)).mp hl
    refine ⟨e,he,hes.trans hs,hep.trans hpa,h.priced e he,?_⟩
    unfold sinceRefresh
    omega
  trust party penalty hget := by
    obtain ⟨t,ht,hpa,hn,hl⟩ := (h.views i v hv).trustPen party penalty hget
    obtain ⟨e,he,hep,hle⟩ := (h.views i v hv).trust t ht hn
    refine ⟨e,he,hep.trans hpa,h.distrusted e he,?_⟩
    unfold sinceRefresh
    omega

end Inv

theorem inv_start {clock : Int} (h : GoTime.zeroTime ≤ clock) :
    Inv (start clock : PricedNet ι κ F) where
  clock := h
  asOf _ := Int.le_refl _
  priced := nofun
  distrusted := nofun
  views _ _ hv := by cases hv
  stores _ := storeBacked_empty
  jobs _ _ _ hj := by cases hj

variable [One F] [Sub F] [Mul F] [Div F] [Neg F] [NatCast F] [OfScientific F] [DecidableLT F]
  [DecidableLE F]

theorem staleLive_partyStale (stats : GoMap OpID (OperatorStat F)) (on : ServiceGate)
    (prev : List (PartyStale F)) (now : Int) : StaleLive now (partyStale stats on prev now) := by
  intro p hp hn
  rcases mem_partyStale hp hn with ⟨-,hat⟩ | ⟨q,-,rfl,hl⟩
  · rw [hat,GoTime.sub_lt_iff (by decide) (by decide),Int.sub_self]
    decide
  · exact hl

theorem staleBacked_partyStale (M : OpMath F) (net : PartyNet ι κ F) (env : Surroundings) (i : ι)
    {now : Int} {L : List (Pricing ι)} {prev : List (PartyStale F)} (hpr : StaleBacked L prev) :
    StaleBacked (pricings M net env i now ++ L)
      (partyStale (net.headStats M i now) env.staleGate prev now) := by
  intro p hp hn
  rcases mem_partyStale hp hn with ⟨hpa,hat⟩ | ⟨q,hq,rfl,-⟩
  · exact ⟨⟨i,p.serviceID,p.party,now⟩,mem_append_left _ (List.mem_map.mpr ⟨_,hpa,rfl⟩),rfl,rfl,
      Int.le_of_eq hat⟩
  · exact (hpr q hq hn).mono (subset_append_right _ _)

omit [Zero F] [Sub F] [Div F] [Neg F] in
theorem mem_distrusts {M : OpMath F} {net : PartyNet ι κ F} {env : Surroundings} {i : ι} {now : Int}
    {stale : List (PartyStale F)} {party : GoString}
    (h : freshEvidence stale (net.refusalStats M i now) env.staleGate party) :
    ⟨i,party,now⟩ ∈ distrusts M net env i now stale := by
  refine List.mem_map.mpr ⟨party,mem_filter.mpr ⟨mem_append.mpr ?_,h⟩,rfl⟩
  rcases Bool.or_eq_true_iff.mp h with hs | hr
  · obtain ⟨p,hp,hf⟩ := countP_pos_iff.mp
      (Nat.lt_of_lt_of_le (by decide : 0 < trustStaleServices) (of_decide_eq_true hs))
    exact .inl (List.mem_map.mpr ⟨p,hp,of_decide_eq_true (Bool.and_eq_true_iff.mp hf).2⟩)
  · obtain ⟨row,hro,hf⟩ := countP_pos_iff.mp
      (Nat.lt_of_lt_of_le (by decide : 0 < trustRefusalServices) (of_decide_eq_true hr))
    exact .inr (List.mem_map.mpr ⟨row,hro,of_decide_eq_true (Bool.and_eq_true_iff.mp hf).2⟩)

omit [Sub F] [Div F] in
theorem trustBacked_partyTrust (M : OpMath F) (net : PartyNet ι κ F) (env : Surroundings) (i : ι)
    {now : Int} (hnow : GoTime.zeroTime ≤ now) {T : List (Distrust ι)}
    {stale : List (PartyStale F)} {prev : List (PartyTrust F)} (hpr : TrustBacked T prev) :
    TrustBacked (distrusts M net env i now stale ++ T)
      (partyTrust stale (net.refusalStats M i now) prev now env.staleGate) := by
  intro t ht hn
  obtain ⟨-,⟨hf,hu⟩ | ⟨q,hq,hp,hqn,hu⟩⟩ := mem_partyTrust ht hnow hn
  · exact ⟨⟨i,t.party,now⟩,mem_append_left _ (mem_distrusts hf),rfl,Int.le_of_eq hu⟩
  · rw [← hp,← hu]
    exact (hpr q hq hqn).mono (subset_append_right _ _)

variable [DecidableEq ι] [DecidableEq κ]

namespace Inv

variable {s : PricedNet ι κ F} (h : Inv s)

include h

section

variable {now : Int} (M : OpMath F) (W : Wiring ι κ) (env : Surroundings) (n : Nat) (i : ι)
  (hnow : GoTime.zeroTime ≤ now ∧ now ≤ s.net.clock)

include hnow

theorem priceStale {prev : List (PartyStale F)} (hp : StaleBacked s.priced prev) :
    Inv (s.watch M (s.net.refreshBaselines M W env n i now (.heldStale prev)) env i now
      (.heldStale prev)) := by
  have hl := h.log (L := pricings M s.net env i now) (T := []) (fun e he => by
    obtain ⟨pair,-,rfl⟩ := List.mem_map.mp he
    exact hnow.2) nofun
  have hpo := hl.setPod i (p := { s.net.pods i with
    heads := ((s.net.pods i).heads.snapshot M now).1 }) fun v hv => hl.views i v hv
  exact hpo.setJob n i ⟨hnow,staleBacked_partyStale M s.net env i hp,
    staleLive_partyStale (s.net.headStats M i now) env.staleGate prev now⟩

theorem priceTrust {stale : List (PartyStale F)} {prev : List (PartyTrust F)}
    (hs : StaleBacked s.priced stale ∧ StaleLive now stale)
    (hp : TrustBacked s.distrusted prev) :
    Inv (s.watch M (s.net.refreshBaselines M W env n i now (.heldTrust stale prev)) env i now
      (.heldTrust stale prev)) := by
  have hl := h.log (L := []) (T := distrusts M s.net env i now stale) nofun (fun e he => by
    obtain ⟨party,-,rfl⟩ := List.mem_map.mp he
    exact hnow.2)
  have hpo := hl.setPod i (p := { s.net.pods i with
    refusals := ((s.net.pods i).refusals.snapshot M now).1 }) fun v hv => hl.views i v hv
  exact hpo.setJob n i ⟨hnow,hs,trustBacked_partyTrust M s.net env i hnow.1 hp,
    fun t ht hn => (mem_partyTrust ht hnow.1 hn).1⟩

theorem refresh {stage : Stage F} (hs : StageBacked s.priced s.distrusted now stage) :
    Inv (s.watch M (s.net.refreshBaselines M W env n i now stage) env i now stage) := by
  cases stage with
  | keys => exact h.setJob n i ⟨hnow,h.prevStale i⟩
  | heldStale prev => exact h.priceStale M W env n i hnow hs
  | stale stale => exact h.setJob n i ⟨hnow,hs,h.prevTrust i⟩
  | heldTrust stale prev => exact h.priceTrust M W env n i hnow hs.1 hs.2
  | trust stale trust => exact h.setJob n i ⟨hnow,hs.1,hs.2,h.readPeer W i env.readable⟩
  | peer stale trust peer =>
    obtain ⟨⟨hsa,hl⟩,⟨ht,hu⟩,hp⟩ := hs
    obtain ⟨hs',hl'⟩ :=
      backed_borrowStale env.served env.staleGate now hp.stale hsa hl
    obtain ⟨ht',hu'⟩ := backed_borrowTrust now hp.trust ht hu
    exact h.setJob n i ⟨hnow,viewBacked_ofParties hs' hl' ht' hu'⟩
  | view v =>
    have hst : Inv { s with
        net := if env.leader then s.net.setStore (W.home i) v.storePartyPenalties else s.net } := by
      split_ifs
      · exact h.setStore (W.home i) (ViewBacked.store hs)
      · exact h
    refine hst.setJob n i ⟨?_,hs⟩
    split_ifs <;> exact hnow
  | stored v =>
    refine (h.setView i hnow.2 fun v' hv' => ?_).endJob n
    cases hv'
    exact hs

end

theorem advance (M : OpMath F) (W : Wiring ι κ) (env : Surroundings) {n : Nat} {i : ι} {j : Job F}
    (hj : s.net.jobs.get n = some (i,j)) (hr : ∀ now stage, j ≠ .running now stage) :
    Inv { s with net := s.net.advance M W env n i j } := by
  have hb := h.jobs n i j hj
  cases j with
  | adopting seed =>
    refine h.setJob n i ?_
    split_ifs
    · exact hb
    · trivial
  | seeding seed =>
    refine (h.setPod i fun v hv => ?_).setJob n i trivial
    cases hv
    exact hb _
  | ready => exact h.setJob n i ⟨⟨h.clock,Int.le_refl _⟩,trivial⟩
  | running now stage => exact absurd rfl (hr now stage)

variable [Add F] [DecidableEq F]

theorem step {M : OpMath F} {W : Wiring ι κ} {a : PartyNet.Act ι} {s' : PricedNet ι κ F}
    (hst : s.step M W a = some s') : Inv s' := by
  obtain ⟨net,hn,rfl⟩ := map_eq_some_iff.mp hst
  cases a with
  | tick t =>
    obtain ⟨ht,rfl⟩ := Run.guard_pos hn
    exact h.tick ht
  | recordHeadAnswer i svc party stale =>
    cases hn
    refine h.setPod i fun v hv => h.views i v ?_
    rw [← hv,PartyNet.recordHeadAnswer]
    split_ifs <;> rfl
  | recordRefusal i svc party ts =>
    cases hn
    refine h.setPod i fun v hv => h.views i v ?_
    rw [← hv,PartyNet.recordRefusal]
    split_ifs <;> rfl
  | refresh n i =>
    obtain ⟨-,rfl⟩ := Run.guard_neg hn
    exact h.setJob n i trivial
  | adopt n i readable =>
    obtain ⟨-,rfl⟩ := Run.guard_neg hn
    simp [PartyNet.adopt]
    split_ifs
    · exact h.setJob n i (h.stores (W.home i)).adopt
    · exact h
  | advance n env =>
    obtain ⟨⟨i,j⟩,hj,rfl⟩ := map_eq_some_iff.mp hn
    simp [hj]
    cases j with
    | running now stage =>
      obtain ⟨hnow,hs⟩ := h.jobs n i _ hj
      exact h.refresh M W env n i hnow hs
    | adopting seed | seeding seed | ready => exact h.advance M W env hj nofun

end Inv

variable [Add F] [DecidableEq F]

theorem penalties_in_force_are_recent (M : OpMath F) (W : Wiring ι κ) {clock : Int}
    (hclock : GoTime.zeroTime ≤ clock) {s : PricedNet ι κ F}
    (h : Run.Reaches (step M W) (fun _ _ => True) (start clock) s) {i : ι} {v : ChronicView F}
    (hv : (s.net.pods i).chronic = some v) : s.Recent i v :=
  (h.invariant Inv (inv_start hclock) fun _ _ _ hi _ hs => hi.step hs).recent hv

def undecayed : OpMath ℚ := ⟨fun _ _ => 1,200⟩

def borrower : Wiring Bool Bool := ⟨id,fun i => if i then some false else none⟩

def refreshed (n : Nat) (i : Bool) : List (PartyNet.Act Bool) :=
  .refresh n i :: replicate 9 (.advance n ⟨some fun _ => true,fun _ => true,true,true⟩)

def lender : List (PartyNet.Act Bool) :=
  replicate 50 (.recordHeadAnswer false "eth".toList ['a'] true) ++
    replicate 50 (.recordHeadAnswer false "eth".toList ['b'] false) ++
    replicate 10 (.recordRefusal false "eth".toList ['a'] 0) ++
    replicate 10 (.recordRefusal false "sol".toList ['a'] 0) ++ refreshed 0 false

def lent (t : Int) : List (PartyNet.Act Bool) := lender ++ [.tick t] ++ refreshed 1 true

theorem borrowed_penalty_keeps_its_clock :
    ∃ s v, Run.run (step undecayed borrower) (fun _ _ => True) (start 0)
        (lent (10 * GoTime.minute)) = some s ∧
      (s.net.pods true).chronic = some v ∧ s.sinceRefresh true = 0 ∧
      v.stalePen.get ⟨"eth".toList,['a'],[]⟩ = some (-40) ∧ v.trustPen.get ['a'] = some (-30) ∧
      s.Recent true v := by
  have hr : ((Run.run (step undecayed borrower) (fun _ _ => True) (start 0)
      (lent (10 * GoTime.minute))).bind fun s =>
      (s.net.pods true).chronic.map fun v =>
        (s.sinceRefresh true,v.stalePen.get ⟨"eth".toList,['a'],[]⟩,v.trustPen.get ['a'])) =
      some (0,some (-40),some (-30)) := by decide +kernel
  obtain ⟨s,hs,hvi⟩ := bind_eq_some_iff.mp hr
  obtain ⟨v,hv,he⟩ := map_eq_some_iff.mp hvi
  simp [Prod.mk.injEq] at he
  exact ⟨s,v,hs,hv,he.1,he.2.1,he.2.2,
    penalties_in_force_are_recent undecayed borrower (by decide) (Run.Reaches.start.run hs) hv⟩

theorem penalty_outlasts_its_hold_until_a_refresh :
    ∃ s v, Run.run (step undecayed borrower) (fun _ _ => True) (start 0)
        (lent (30 * GoTime.minute - 15 * GoTime.second) ++ [.tick (30 * GoTime.minute)]) = some s ∧
      (s.net.pods true).chronic = some v ∧
      v.stalePen.get ⟨"eth".toList,['a'],[]⟩ = some (-40) ∧
      ¬s.PricedWithin ⟨"eth".toList,['a'],[]⟩ staleShareHold := by
  have hr : ((Run.run (step undecayed borrower) (fun _ _ => True) (start 0)
      (lent (30 * GoTime.minute - 15 * GoTime.second) ++ [.tick (30 * GoTime.minute)])).bind
      fun s => (s.net.pods true).chronic.map fun v =>
        (v.stalePen.get ⟨"eth".toList,['a'],[]⟩,
          decide (s.PricedWithin ⟨"eth".toList,['a'],[]⟩ staleShareHold))) =
      some (some (-40),false) := by decide +kernel
  obtain ⟨s,hs,hvi⟩ := bind_eq_some_iff.mp hr
  obtain ⟨v,hv,he⟩ := map_eq_some_iff.mp hvi
  simp [Prod.mk.injEq] at he
  exact ⟨s,v,hs,hv,he.1,he.2⟩

end PricedNet

end SageGateway.Reputation
