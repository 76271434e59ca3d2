import SageGateway.Reputation.OpStats

namespace SageGateway.Reputation

open List

structure PartyStale (F : Type) where
  serviceID : GoString
  party : GoString
  share : F
  penalty : F
  excess : F
  pricedAt : Int
  held : Bool
  peer : Bool
  deriving DecidableEq

structure PartyTrust (F : Type) where
  party : GoString
  staleServices : Nat
  refusalServices : Nat
  penalty : F
  untilAt : Int
  peer : Bool
  deriving DecidableEq

structure StoredStale (F : Type) where
  service : GoString
  party : GoString
  penalty : F
  pricedAt : Int
  deriving DecidableEq

structure StoredTrust where
  party : GoString
  untilAt : Int
  deriving DecidableEq

structure PartyPenalties (F : Type) where
  stale : List (StoredStale F)
  trust : List StoredTrust

structure ChronicView (F : Type) where
  stale : List (PartyStale F)
  stalePen : GoMap OpID F
  trust : List (PartyTrust F)
  trustPen : GoMap GoString F

abbrev ServiceGate := Option (GoString → Bool)

def opens (gate : ServiceGate) (svc : GoString) : Bool :=
  match gate with
  | some on => on svc
  | none => false

def staleShareHalfLife : Int := 30 * GoTime.minute

def staleShareHold : Int := staleShareHalfLife

def refusalHalfLife : Int := GoTime.hour

def trustHold : Int := 24 * GoTime.hour

def trustStaleServices : Nat := 8

def trustRefusalServices : Nat := 2

section Model

variable {F : Type} [Zero F] [One F] [Add F] [Sub F] [Mul F] [Div F] [Neg F] [NatCast F]
  [OfScientific F] [Preorder F] [DecidableLT F] [DecidableLE F] [DecidableEq F]

def staleShareMinAnswers : F := ((50 : Nat) : F)

def staleShareFloor : F := 0.15

def staleShareFull : F := 0.45

def staleSharePenalty : F := -40.0

def trustRefusalMin : F := ((10 : Nat) : F)

def trustPenalty : F := -30.0

section StaleShare

def stalePenalty (excess : F) : F :=
  if excess ≤ staleShareFloor then 0
  else
    let part := (excess - staleShareFloor) / (staleShareFull - staleShareFloor)
    staleSharePenalty * if part < 1 then part else 1

def measuredParty (row : OpID × OperatorStat F) : Option (PartyStale F) :=
  if row.2.attempts < staleShareMinAnswers then none
  else some ⟨row.1.svc,row.1.op,row.2.failures / row.2.attempts,0,0,GoTime.zeroTime,false,false⟩

def measuredParties (stats : GoMap OpID (OperatorStat F)) : List (PartyStale F) :=
  stats.toList.filterMap measuredParty

def partiesOf (svc : GoString) (measured : List (PartyStale F)) : List (PartyStale F) :=
  measured.filter fun p => p.serviceID = svc

def bestShare (parties : List (PartyStale F)) : F :=
  parties.foldl (fun best p => if p.share < best then p.share else best) 1

def priceParty (on : ServiceGate) (now : Int) (svc : GoString) (parties : List (PartyStale F))
    (p : PartyStale F) : PartyStale F :=
  let best := bestShare parties
  let p := if 2 ≤ parties.length then { p with excess := p.share - best } else p
  if 2 ≤ parties.length ∧ opens on svc then
    { p with penalty := stalePenalty (p.share - best), pricedAt := now }
  else p

def priceService (on : ServiceGate) (now : Int) (measured : List (PartyStale F)) (svc : GoString) :
    List (PartyStale F) :=
  (partiesOf svc measured).map (priceParty on now svc (partiesOf svc measured))

def isMeasured (measured : List (PartyStale F)) (svc party : GoString) : Bool :=
  measured.any fun p => p.serviceID = svc && p.party = party

def carriesStale (on : ServiceGate) (now : Int) (measured : List (PartyStale F))
    (p : PartyStale F) : Bool :=
  p.penalty < 0 && !isMeasured measured p.serviceID p.party && opens on p.serviceID &&
    GoTime.sub now p.pricedAt < staleShareHold

def partyStale (stats : GoMap OpID (OperatorStat F)) (on : ServiceGate) (prev : List (PartyStale F))
    (now : Int) : List (PartyStale F) :=
  let measured := measuredParties stats
  ((measured.map PartyStale.serviceID).eraseDups.flatMap (priceService on now measured)) ++
    (prev.filter (carriesStale on now measured)).map fun p => { p with held := true }

def pricedPairs (stats : GoMap OpID (OperatorStat F)) (on : ServiceGate) :
    List (GoString × GoString) :=
  let measured := measuredParties stats
  (measured.filter fun p =>
    let parties := partiesOf p.serviceID measured
    2 ≤ parties.length && opens on p.serviceID &&
      stalePenalty (p.share - bestShare parties) < 0).map fun p => (p.serviceID,p.party)

end StaleShare

section Trust

abbrev Tally (F : Type) := GoMap GoString (PartyTrust F)

def Tally.of (tally : Tally F) (party : GoString) : PartyTrust F :=
  (GoMap.get tally party).getD ⟨party,0,0,0,GoTime.zeroTime,false⟩

def isStaleEvidence (vetted : ServiceGate) (p : PartyStale F) : Bool :=
  !p.held && staleShareFloor < p.excess && opens vetted p.serviceID

def isRefusalEvidence (row : OpID × OperatorStat F) : Bool := trustRefusalMin ≤ row.2.attempts

def tallyStale (vetted : ServiceGate) (tally : Tally F) (p : PartyStale F) : Tally F :=
  if isStaleEvidence vetted p then
    GoMap.put tally p.party
      { tally.of p.party with staleServices := (tally.of p.party).staleServices + 1 }
  else tally

def tallyRefusal (tally : Tally F) (row : OpID × OperatorStat F) : Tally F :=
  if isRefusalEvidence row then
    GoMap.put tally row.1.op
      { tally.of row.1.op with refusalServices := (tally.of row.1.op).refusalServices + 1 }
  else tally

def carryTrust (now : Int) (tally : Tally F) (p : PartyTrust F) : Tally F :=
  if p.penalty < 0 ∧ now < p.untilAt then
    GoMap.put tally p.party { tally.of p.party with untilAt := p.untilAt }
  else tally

def settleTrust (now : Int) (t : PartyTrust F) : PartyTrust F :=
  let t := if trustStaleServices ≤ t.staleServices ∨ trustRefusalServices ≤ t.refusalServices then
      { t with untilAt := now + trustHold }
    else t
  if now < t.untilAt then { t with penalty := trustPenalty } else t

def tallied (stale : List (PartyStale F)) (refusals : GoMap OpID (OperatorStat F))
    (prev : List (PartyTrust F)) (now : Int) (vetted : ServiceGate) : Tally F :=
  let counted := refusals.toList.foldl tallyRefusal (stale.foldl (tallyStale vetted) ∅)
  prev.foldl (carryTrust now) counted

def partyTrust (stale : List (PartyStale F)) (refusals : GoMap OpID (OperatorStat F))
    (prev : List (PartyTrust F)) (now : Int) (vetted : ServiceGate) : List (PartyTrust F) :=
  (GoMap.toList (tallied stale refusals prev now vetted)).map fun e => settleTrust now e.2

def staleEvidence (stale : List (PartyStale F)) (vetted : ServiceGate) (party : GoString) : Nat :=
  stale.countP fun p => isStaleEvidence vetted p && p.party = party

def refusalEvidence (refusals : GoMap OpID (OperatorStat F)) (party : GoString) : Nat :=
  refusals.toList.countP fun row => isRefusalEvidence row && row.1.op = party

def freshEvidence (stale : List (PartyStale F)) (refusals : GoMap OpID (OperatorStat F))
    (vetted : ServiceGate) (party : GoString) : Bool :=
  trustStaleServices ≤ staleEvidence stale vetted party ||
    trustRefusalServices ≤ refusalEvidence refusals party

end Trust

section Peers

def borrowStale (served : GoString → Bool) (staleOn : ServiceGate) (now : Int)
    (stale : List (PartyStale F)) (ps : StoredStale F) : List (PartyStale F) :=
  let pricedAt := GoTime.ofUnix ps.pricedAt
  if 0 ≤ ps.penalty ∨ ¬ GoTime.sub now pricedAt < staleShareHold ∨ served ps.service = false ∨
      opens staleOn ps.service = false then stale
  else match stale.findIdx? (fun p => p.serviceID = ps.service && p.party = ps.party) with
    | none => stale ++ [⟨ps.service,ps.party,0,ps.penalty,0,pricedAt,true,true⟩]
    | some i => stale.modify i fun p =>
        if ps.penalty < p.penalty then
          { p with penalty := ps.penalty, pricedAt := pricedAt, peer := true }
        else p

def borrowTrust (now : Int) (trust : List (PartyTrust F)) (pt : StoredTrust) :
    List (PartyTrust F) :=
  let untilAt := GoTime.ofUnix pt.untilAt
  if now < untilAt then
    match trust.findIdx? (fun t => t.party = pt.party) with
    | none => trust ++ [⟨pt.party,0,0,trustPenalty,untilAt,true⟩]
    | some i => trust.modify i fun t =>
        if trustPenalty < t.penalty then
          { t with penalty := trustPenalty, untilAt := untilAt, peer := true }
        else t
  else trust

def mergePeerParties (stale : List (PartyStale F)) (trust : List (PartyTrust F))
    (peer : PartyPenalties F) (served : GoString → Bool) (staleOn : ServiceGate) (now : Int) :
    List (PartyStale F) × List (PartyTrust F) :=
  (peer.stale.foldl (borrowStale served staleOn now) stale,peer.trust.foldl (borrowTrust now) trust)

end Peers

namespace ChronicView

def ofParties (stale : List (PartyStale F)) (trust : List (PartyTrust F)) : ChronicView F where
  stale := stale
  stalePen := GoMap.putAll ∅
    ((stale.filter fun p => p.penalty < 0).map fun p => (⟨p.serviceID,p.party,[]⟩,p.penalty))
  trust := trust
  trustPen := GoMap.putAll ∅
    ((trust.filter fun t => t.penalty < 0).map fun t => (t.party,t.penalty))

def storePartyPenalties (v : ChronicView F) : PartyPenalties F where
  stale := (v.stale.filter fun p => p.penalty < 0).map fun p =>
    ⟨p.serviceID,p.party,p.penalty,GoTime.unix p.pricedAt⟩
  trust := (v.trust.filter fun t => t.penalty < 0).map fun t => ⟨t.party,GoTime.unix t.untilAt⟩

def adoptPartyPenalties (p : PartyPenalties F) : ChronicView F where
  stale := p.stale.map fun st =>
    ⟨st.service,st.party,0,st.penalty,0,GoTime.ofUnix st.pricedAt,true,false⟩
  stalePen := ∅
  trust := p.trust.map fun t => ⟨t.party,0,0,trustPenalty,GoTime.ofUnix t.untilAt,false⟩
  trustPen := ∅

end ChronicView

end Model

variable {F : Type}

section Pricing

variable [Zero F] [Div F] [Preorder F] [DecidableLT F]

variable [NatCast F] in
theorem mem_measuredParties {stats : GoMap OpID (OperatorStat F)} {p : PartyStale F}
    (h : p ∈ measuredParties stats) : p.penalty = 0 := by
  obtain ⟨row,-,hr⟩ := mem_filterMap.mp h
  obtain ⟨-,hp⟩ := Option.ite_none_left_eq_some.mp hr
  cases hp
  rfl

variable [One F] [Sub F] [Mul F] [Neg F] [OfScientific F] [DecidableLE F]

theorem priceParty_same (on : ServiceGate) (now : Int) (svc : GoString)
    (parties : List (PartyStale F)) (p : PartyStale F) :
    (priceParty on now svc parties p).serviceID = p.serviceID ∧
      (priceParty on now svc parties p).party = p.party := by
  simp [priceParty]
  split_ifs <;> exact ⟨rfl,rfl⟩

theorem priceParty_priced {on : ServiceGate} {now : Int} {svc : GoString}
    {parties : List (PartyStale F)} {p : PartyStale F} (hz : p.penalty = 0)
    (hn : (priceParty on now svc parties p).penalty < 0) :
    ((2 ≤ parties.length ∧ opens on svc) ∧ stalePenalty (p.share - bestShare parties) < 0) ∧
      (priceParty on now svc parties p).pricedAt = now := by
  by_cases hp : 2 ≤ parties.length ∧ opens on svc
  · simp only [priceParty,if_pos hp,if_pos hp.1] at hn ⊢
    exact ⟨⟨hp,hn⟩,trivial⟩
  · simp [priceParty,if_neg hp] at hn
    split_ifs at hn <;> exact absurd (hz ▸ hn) (lt_irrefl _)

variable [NatCast F] in
theorem mem_partyStale {stats : GoMap OpID (OperatorStat F)} {on : ServiceGate}
    {prev : List (PartyStale F)} {now : Int} {p : PartyStale F}
    (h : p ∈ partyStale stats on prev now)
    (hn : p.penalty < 0) :
    ((p.serviceID,p.party) ∈ pricedPairs stats on ∧ p.pricedAt = now) ∨
      ∃ q ∈ prev, p = { q with held := true } ∧ GoTime.sub now q.pricedAt < staleShareHold := by
  rcases mem_append.mp h with hne | hold
  · obtain ⟨svc,-,hsv⟩ := mem_flatMap.mp hne
    obtain ⟨q,hq,rfl⟩ := mem_map.mp hsv
    obtain ⟨hm,hs⟩ := mem_filter.mp hq
    obtain ⟨hp,hat⟩ := priceParty_priced (mem_measuredParties hm) hn
    obtain ⟨hsa,hpa⟩ := priceParty_same on now svc (partiesOf svc (measuredParties stats)) q
    refine .inl ⟨?_,hat⟩
    rw [hsa,hpa]
    refine mem_map.mpr ⟨q,mem_filter.mpr ⟨hm,?_⟩,rfl⟩
    rw [of_decide_eq_true hs]
    simpa using hp
  · obtain ⟨q,hq,rfl⟩ := mem_map.mp hold
    obtain ⟨hm,hc⟩ := mem_filter.mp hq
    simp [carriesStale] at hc
    exact .inr ⟨q,hm,rfl,hc.2⟩

end Pricing

def PartyTrust.plus (t : PartyTrust F) (stale refusals : Nat) : PartyTrust F :=
  ⟨t.party,t.staleServices + stale,t.refusalServices + refusals,t.penalty,t.untilAt,t.peer⟩

theorem PartyTrust.plus_plus (t : PartyTrust F) (m n m' n' : Nat) :
    (t.plus m n).plus m' n' = t.plus (m + m') (n + n') := by
  simp only [PartyTrust.plus,Nat.add_assoc]

section Tallies

variable (vetted : ServiceGate) (now : Int) (party : GoString) [Zero F]

theorem of_put (tally : Tally F) (other : GoString) (t : PartyTrust F) :
    Tally.of (GoMap.put tally other t) party = if party = other then t else tally.of party := by
  rw [Tally.of,GoMap.get_put]
  split_ifs <;> rfl

section

variable [NatCast F] [Preorder F] [DecidableLE F]

theorem of_tallyRefusal (tally : Tally F) (row : OpID × OperatorStat F) :
    (tallyRefusal tally row).of party =
      (tally.of party).plus 0 (if isRefusalEvidence row && row.1.op = party then 1 else 0) := by
  unfold tallyRefusal
  by_cases hf : isRefusalEvidence row = true
  · rw [if_pos hf,of_put]
    by_cases hp : party = row.1.op
    · simp [hf,hp,PartyTrust.plus]
    · simp [hp,Ne.symm hp,PartyTrust.plus]
  · simp [hf,PartyTrust.plus]

theorem of_foldl_tallyRefusal (rows : List (OpID × OperatorStat F)) (tally : Tally F) :
    (rows.foldl tallyRefusal tally).of party = (tally.of party).plus 0
      (rows.countP fun row => isRefusalEvidence row && row.1.op = party) := by
  induction rows generalizing tally with
  | nil => rfl
  | cons row rows ih =>
    rw [foldl_cons,ih,of_tallyRefusal,PartyTrust.plus_plus,countP_cons,
      Nat.add_comm (countP _ rows)]

end

variable [Preorder F] [DecidableLT F]

theorem of_foldl_carryTrust (prev : List (PartyTrust F)) (tally : Tally F) :
    ∃ untilAt, (prev.foldl (carryTrust now) tally).of party =
        { tally.of party with untilAt := untilAt } ∧
      (untilAt = (tally.of party).untilAt ∨
        ∃ q ∈ prev, q.party = party ∧ q.penalty < 0 ∧ q.untilAt = untilAt) := by
  induction prev generalizing tally with
  | nil => exact ⟨_,rfl,.inl rfl⟩
  | cons p prev ih =>
    obtain ⟨untilAt,hof,hf⟩ := ih (carryTrust now tally p)
    rw [foldl_cons,hof]
    by_cases hc : (p.penalty < 0 ∧ now < p.untilAt) ∧ party = p.party
    · obtain ⟨hl,rfl⟩ := hc
      have hp : (carryTrust now tally p).of p.party =
          { tally.of p.party with untilAt := p.untilAt } := by
        rw [carryTrust,if_pos hl,of_put,if_pos rfl]
      rw [hp] at hf ⊢
      refine ⟨untilAt,rfl,.inr ?_⟩
      rcases hf with rfl | ⟨q,hq,hs⟩
      · exact ⟨p,.head _,rfl,hl.1,rfl⟩
      · exact ⟨q,.tail _ hq,hs⟩
    · have hk : (carryTrust now tally p).of party = tally.of party := by
        unfold carryTrust
        split_ifs with hl
        · rw [of_put,if_neg fun heq => hc ⟨hl,heq⟩]
        · rfl
      rw [hk] at hf ⊢
      refine ⟨untilAt,rfl,hf.imp_right ?_⟩
      rintro ⟨q,hq,hs⟩
      exact ⟨q,.tail _ hq,hs⟩

variable [OfScientific F]

theorem of_tallyStale (tally : Tally F) (p : PartyStale F) :
    (tallyStale vetted tally p).of party =
      (tally.of party).plus (if isStaleEvidence vetted p && p.party = party then 1 else 0) 0 := by
  unfold tallyStale
  by_cases hf : isStaleEvidence vetted p = true
  · rw [if_pos hf,of_put]
    by_cases hp : party = p.party
    · simp [hf,hp,PartyTrust.plus]
    · simp [hp,Ne.symm hp,PartyTrust.plus]
  · simp [hf,PartyTrust.plus]

theorem of_foldl_tallyStale (stale : List (PartyStale F)) (tally : Tally F) :
    (stale.foldl (tallyStale vetted) tally).of party =
      (tally.of party).plus (staleEvidence stale vetted party) 0 := by
  induction stale generalizing tally with
  | nil => rfl
  | cons p stale ih =>
    rw [foldl_cons,ih,of_tallyStale,PartyTrust.plus_plus,staleEvidence,staleEvidence,
      countP_cons,Nat.add_comm]

variable [NatCast F] [DecidableLE F]

theorem of_tallied (stale : List (PartyStale F)) (refusals : GoMap OpID (OperatorStat F))
    (prev : List (PartyTrust F)) :
    ∃ untilAt, (tallied stale refusals prev now vetted).of party =
        ⟨party,staleEvidence stale vetted party,refusalEvidence refusals party,0,untilAt,false⟩ ∧
      (untilAt = GoTime.zeroTime ∨
        ∃ q ∈ prev, q.party = party ∧ q.penalty < 0 ∧ q.untilAt = untilAt) := by
  obtain ⟨untilAt,hof,hf⟩ := of_foldl_carryTrust now party prev
    (refusals.toList.foldl tallyRefusal (stale.foldl (tallyStale vetted) ∅))
  have hc : (refusals.toList.foldl tallyRefusal (stale.foldl (tallyStale vetted) ∅)).of party =
      ⟨party,staleEvidence stale vetted party,refusalEvidence refusals party,0,GoTime.zeroTime,
        false⟩ := by
    rw [of_foldl_tallyRefusal,of_foldl_tallyStale]
    simp [Tally.of,PartyTrust.plus,refusalEvidence]
  rw [hc] at hof hf
  exact ⟨untilAt,hof,hf⟩

end Tallies

variable [Zero F] [Neg F] [NatCast F] [OfScientific F] [Preorder F] [DecidableLT F]
  [DecidableLE F] in
theorem mem_partyTrust {stale : List (PartyStale F)} {refusals : GoMap OpID (OperatorStat F)}
    {prev : List (PartyTrust F)} {now : Int} {vetted : ServiceGate} {t : PartyTrust F}
    (h : t ∈ partyTrust stale refusals prev now vetted) (hno : GoTime.zeroTime ≤ now)
    (hn : t.penalty < 0) :
    now < t.untilAt ∧ ((freshEvidence stale refusals vetted t.party ∧ t.untilAt = now + trustHold) ∨
      ∃ q ∈ prev, q.party = t.party ∧ q.penalty < 0 ∧ q.untilAt = t.untilAt) := by
  obtain ⟨⟨party,u⟩,hm,rfl⟩ := mem_map.mp h
  have hg := ((GoMap.iterates_toList _).mem_iff party u).mp hm
  obtain ⟨untilAt,hof,hfr⟩ := of_tallied vetted now party stale refusals prev
  have hu : u = (tallied stale refusals prev now vetted).of party := by
    rw [Tally.of,hg,Option.getD_some]
  rw [hof] at hu
  subst hu
  by_cases hf : trustStaleServices ≤ staleEvidence stale vetted party ∨
      trustRefusalServices ≤ refusalEvidence refusals party
  · have hp : now < now + trustHold := by
      have : 0 < trustHold := by decide
      omega
    have he : freshEvidence stale refusals vetted party = true := by
      simpa [freshEvidence] using hf
    simpa only [settleTrust,if_pos hf,if_pos hp] using ⟨hp,.inl ⟨he,trivial⟩⟩
  · simp [settleTrust,if_neg hf] at hn ⊢
    split_ifs at hn ⊢ with hl
    · refine ⟨hl,.inr ?_⟩
      rcases hfr with rfl | hpr
      · exact absurd hl (not_lt.mpr hno)
      · exact hpr
    · exact absurd hn (lt_irrefl _)

theorem mem_modify {α : Type} {f : α → α} {l : List α} {i : Nat} {a : α} (h : a ∈ l.modify i f) :
    a ∈ l ∨ ∃ b ∈ l, l[i]? = some b ∧ a = f b := by
  obtain ⟨j,hj⟩ := mem_iff_getElem?.mp h
  rw [List.getElem?_modify] at hj
  obtain ⟨b,hb,hab⟩ := Option.map_eq_some_iff.mp hj
  by_cases hij : i = j
  · subst hij
    rw [if_pos rfl] at hab
    exact .inr ⟨b,mem_of_getElem? hb,hb,hab.symm⟩
  · rw [if_neg hij] at hab
    exact .inl (hab ▸ mem_of_getElem? hb)

section Borrowed

variable (served : GoString → Bool) (staleOn : ServiceGate) (now : Int) [Preorder F] [DecidableLT F]

def SameStale (p q : PartyStale F) : Prop :=
  q.serviceID = p.serviceID ∧ q.party = p.party ∧ q.penalty = p.penalty ∧ q.pricedAt = p.pricedAt

def LentStale (now : Int) (p : PartyStale F) (ps : StoredStale F) : Prop :=
  ps.service = p.serviceID ∧ ps.party = p.party ∧ ps.penalty = p.penalty ∧
    GoTime.ofUnix ps.pricedAt = p.pricedAt ∧ GoTime.sub now p.pricedAt < staleShareHold

variable [Zero F] [DecidableLE F] in
theorem mem_borrowStale {stale : List (PartyStale F)} {ps : StoredStale F} {p : PartyStale F}
    (h : p ∈ borrowStale served staleOn now stale ps) :
    (∃ q ∈ stale, SameStale p q) ∨ LentStale now p ps := by
  simp only [borrowStale] at h
  split_ifs at h with hs
  · exact .inl ⟨p,h,rfl,rfl,rfl,rfl⟩
  · simp at hs
    split at h
    · rcases mem_append.mp h with hold | hn
      · exact .inl ⟨p,hold,rfl,rfl,rfl,rfl⟩
      · cases mem_singleton.mp hn
        exact .inr ⟨rfl,rfl,rfl,rfl,hs.2.1⟩
    · rename_i i hf
      rcases mem_modify h with hold | ⟨q,hq,hg,rfl⟩
      · exact .inl ⟨p,hold,rfl,rfl,rfl,rfl⟩
      · obtain ⟨hi,hp,-⟩ := findIdx?_eq_some_iff_getElem.mp hf
        cases (List.getElem?_eq_getElem hi).symm.trans hg
        simp at hp
        split_ifs
        · exact .inr ⟨hp.1.symm,hp.2.symm,rfl,rfl,hs.2.1⟩
        · exact .inl ⟨_,hq,rfl,rfl,rfl,rfl⟩

variable [Neg F] [OfScientific F] in
theorem mem_borrowTrust {trust : List (PartyTrust F)} {pt : StoredTrust} {t : PartyTrust F}
    (h : t ∈ borrowTrust now trust pt) :
    (∃ q ∈ trust, q.party = t.party ∧ q.penalty = t.penalty ∧ q.untilAt = t.untilAt) ∨
      (pt.party = t.party ∧ GoTime.ofUnix pt.untilAt = t.untilAt ∧ now < t.untilAt) := by
  simp [borrowTrust] at h
  split_ifs at h with hl
  · split at h
    · rcases mem_append.mp h with hold | hn
      · exact .inl ⟨t,hold,rfl,rfl,rfl⟩
      · cases mem_singleton.mp hn
        exact .inr ⟨rfl,rfl,hl⟩
    · rename_i i hf
      rcases mem_modify h with hold | ⟨q,hq,hg,rfl⟩
      · exact .inl ⟨t,hold,rfl,rfl,rfl⟩
      · obtain ⟨hi,hp,-⟩ := findIdx?_eq_some_iff_getElem.mp hf
        cases (List.getElem?_eq_getElem hi).symm.trans hg
        split_ifs
        · exact .inr ⟨(of_decide_eq_true hp).symm,rfl,hl⟩
        · exact .inl ⟨_,hq,rfl,rfl,rfl⟩
  · exact .inl ⟨t,h,rfl,rfl,rfl⟩

end Borrowed

end SageGateway.Reputation
