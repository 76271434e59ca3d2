import SageGateway.BlockConsensus
import SageGateway.Lib.Run

namespace SageGateway

open List

theorem saturatingMul_le (a b : Nat) : saturatingMul a b ≤ maxUint64 := by
  unfold saturatingMul
  split_ifs with hz hbi
  · exact Nat.zero_le _
  · exact Nat.le_refl _
  · have hb : 0 < b := by omega
    exact (Nat.le_div_iff_mul_le hb).mp (Nat.not_lt.mp hbi)

theorem le_saturatingAdd {a : Nat} (b : Nat) (h : a ≤ maxUint64) : a ≤ saturatingAdd a b := by
  unfold saturatingAdd
  split_ifs <;> omega

theorem le_saturatingAdd_of_le_add {a b c : Nat} (ha : a ≤ maxUint64) (h : a ≤ b + c) :
    a ≤ saturatingAdd b c := by
  unfold saturatingAdd
  split_ifs <;> omega

theorem saturatingAdd_mono {a a' b : Nat} (hb : b ≤ maxUint64) (h : a ≤ a') :
    saturatingAdd a b ≤ saturatingAdd a' b := by
  unfold saturatingAdd
  split_ifs <;> omega

namespace BlockConsensus

section Highest

section

variable (outlierCap : Nat) (l : List BlockObs)

theorem le_foldl_keepHigher (perceived : Nat) :
    perceived ≤ l.foldl (keepHigher outlierCap) perceived ∧
      ∀ obs ∈ l, obs.height ≤ outlierCap →
        obs.height ≤ l.foldl (keepHigher outlierCap) perceived := by
  induction l generalizing perceived with
  | nil => exact ⟨Nat.le_refl _,nofun⟩
  | cons first l ih =>
    obtain ⟨hs,hr⟩ := ih (keepHigher outlierCap perceived first)
    have hk : perceived ≤ keepHigher outlierCap perceived first ∧
        (first.height ≤ outlierCap → first.height ≤ keepHigher outlierCap perceived first) := by
      unfold keepHigher
      split_ifs <;> omega
    refine ⟨hk.1.trans hs,fun obs ho hc => ?_⟩
    rcases mem_cons.mp ho with rfl | ho
    · exact (hk.2 hc).trans hs
    · exact hr obs ho hc

theorem foldl_keepHigher_mem (perceived : Nat) :
    l.foldl (keepHigher outlierCap) perceived = perceived ∨
      ∃ obs ∈ l, obs.height ≤ outlierCap ∧ obs.height = l.foldl
    (keepHigher outlierCap) perceived := by
  induction l generalizing perceived with
  | nil => exact .inl rfl
  | cons first l ih =>
    rcases ih (keepHigher outlierCap perceived first) with hs | ⟨obs,ho,hh⟩
    · rw [foldl_cons,hs]
      unfold keepHigher
      split_ifs with hhi
      · exact .inr ⟨first,.head _,hhi.1,rfl⟩
      · exact .inl rfl
    · exact .inr ⟨obs,.tail _ ho,hh⟩

theorem highestUpTo_cases : highestUpTo outlierCap l = 0 ∨
      ∃ obs ∈ l, obs.height ≤ outlierCap ∧ obs.height = highestUpTo outlierCap l :=
  foldl_keepHigher_mem outlierCap l 0

theorem highestUpTo_le : highestUpTo outlierCap l ≤ outlierCap := by
  rcases highestUpTo_cases outlierCap l with hz | ⟨obs,-,hle,heq⟩
  · exact hz ▸ Nat.zero_le _
  · exact heq ▸ hle

end

theorem le_highestUpTo {outlierCap : Nat} {l : List BlockObs} {obs : BlockObs} (h : obs ∈ l)
    (hc : obs.height ≤ outlierCap) : obs.height ≤ highestUpTo outlierCap l :=
  (le_foldl_keepHigher outlierCap l 0).2 obs h hc

theorem highestUpTo_mono {cap cap' : Nat} {l l' : List BlockObs} (hc : cap ≤ cap')
    (hs : l ⊆ l') : highestUpTo cap l ≤ highestUpTo cap' l' := by
  rcases highestUpTo_cases cap l with hz | ⟨obs,ho,hle,heq⟩
  · exact hz ▸ Nat.zero_le _
  · rw [← heq]
    exact le_highestUpTo (hs ho) (hle.trans hc)

end Highest

section Anchor

variable {P : Platform} {o : Owners} {l : List BlockObs}

theorem within_convex (tolerance : Nat) : Votes.Convex (within tolerance) := by
  intro u w v huw hwv hc
  have hle := of_decide_eq_true hc
  exact decide_eq_true (by omega)

theorem partyAnchor_some (h : l ≠ []) (tolerance : Nat) :
    Votes.anchor (within tolerance) (Votes.votes (voteKey P o) BlockObs.height l) =
      some (partyAnchor P o l tolerance) := by
  obtain ⟨a,ha⟩ := Votes.anchor_isSome (within tolerance)
    (Votes.votes_ne_nil (voteKey P o) BlockObs.height h)
  rw [partyAnchor,ha,Option.getD_some]

theorem partyAnchor_mem (h : l ≠ []) (tolerance : Nat) :
    ∃ obs ∈ l, obs.height = partyAnchor P o l tolerance :=
  Votes.mem_votes (Votes.anchor_mem (partyAnchor_some h tolerance))

theorem partyAnchor_le_of_one_key {tolerance H : Nat} {k : GoString}
    (hon : ∀ obs ∈ l, H < obs.height → voteKey P o obs = k)
    (ho : ∃ obs ∈ l, voteKey P o obs ≠ k) :
    partyAnchor P o l tolerance ≤ saturatingAdd H tolerance := by
  have hl : l ≠ [] := by
    obtain ⟨obs,hob,-⟩ := ho
    exact ne_nil_of_mem hob
  have hf : partyAnchor P o l tolerance ≤ maxUint64 := by
    obtain ⟨obs,-,heq⟩ := partyAnchor_mem (P := P) (o := o) hl tolerance
    exact heq ▸ obs.fits
  refine le_saturatingAdd_of_le_add hf ?_
  rcases Votes.anchor_of_one_group_above hon ho (partyAnchor_some hl tolerance) with
    hle | ⟨w,hw,hc⟩
  · omega
  · have := of_decide_eq_true hc
    omega

end Anchor

section Head

variable (P : Platform) (o : Owners) (bc : BlockConsensus)

def outlierCap : Nat := saturatingAdd (partyAnchor P o bc.observations bc.tolerance) bc.tolerance

theorem tolerance_le : bc.tolerance ≤ maxUint64 := saturatingMul_le _ _

theorem applyExternalFloor_mono {p p' : Nat} (h : p ≤ p') (now : Int) :
    bc.applyExternalFloor p now ≤ bc.applyExternalFloor p' now := by
  unfold applyExternalFloor
  split_ifs <;> omega

theorem le_applyExternalFloor (p : Nat) (now : Int) : p ≤ bc.applyExternalFloor p now := by
  unfold applyExternalFloor
  split_ifs <;> omega

theorem computePerceived_of_ne_nil (h : bc.observations ≠ []) (now : Int) :
    bc.computePerceived P o now =
      bc.applyExternalFloor (highestUpTo (bc.outlierCap P o) bc.observations) now := by
  unfold computePerceived
  rw [if_neg h,outlierCap]

theorem computePerceived_pos (hp : ∀ obs ∈ bc.observations, 0 < obs.height)
    (h : bc.observations ≠ []) (now : Int) : 0 < bc.computePerceived P o now := by
  rw [computePerceived_of_ne_nil P o bc h now]
  obtain ⟨obs,ho,heq⟩ := partyAnchor_mem (P := P) (o := o) h bc.tolerance
  have hc : obs.height ≤ bc.outlierCap P o := by
    rw [outlierCap,← heq]
    exact le_saturatingAdd _ obs.fits
  calc 0 < obs.height := hp obs ho
    _ ≤ highestUpTo (bc.outlierCap P o) bc.observations := le_highestUpTo ho hc
    _ ≤ _ := le_applyExternalFloor bc _ now

def partyVotes : List Nat := Votes.votes (voteKey P o) BlockObs.height bc.observations

-- Some vote that another one corroborates, or the lower median where none is, lies at most the
-- tolerance below the height.
def Lifts (height : Nat) : Prop :=
  (∃ v, Votes.Backs (within bc.tolerance) (bc.partyVotes P o) v ∧
    height ≤ saturatingAdd v bc.tolerance) ∨
  (∀ v, ¬Votes.Backs (within bc.tolerance) (bc.partyVotes P o) v) ∧
    ∃ m, Votes.lowMiddle (bc.partyVotes P o) = some m ∧ height ≤ saturatingAdd m bc.tolerance

theorem le_outlierCap_iff (h : bc.observations ≠ []) (height : Nat) :
    height ≤ bc.outlierCap P o ↔ bc.Lifts P o height := by
  rcases Votes.anchor_cases (within_convex _) (partyAnchor_some (P := P) (o := o) h bc.tolerance)
    with ⟨hb,htop⟩ | ⟨hn,hm⟩
  · constructor
    · exact fun hle => .inl ⟨_,hb,hle⟩
    · rintro (⟨v,hv,hle⟩ | ⟨hn,-⟩)
      · exact hle.trans (saturatingAdd_mono bc.tolerance_le (htop v hv))
      · exact absurd hb (hn _)
  · constructor
    · exact fun hle => .inr ⟨hn,_,hm,hle⟩
    · rintro (⟨v,hv,-⟩ | ⟨-,m,hm',hle⟩)
      · exact absurd hv (hn v)
      · cases hm.symm.trans hm'
        exact hle

theorem highestUpTo_le_iff {cap B : Nat} {l : List BlockObs} :
    highestUpTo cap l ≤ B ↔ ∀ obs ∈ l, B < obs.height → ¬obs.height ≤ cap := by
  constructor
  · intro h obs ho hlt hle
    exact absurd ((le_highestUpTo ho hle).trans h) (Nat.not_le.mpr hlt)
  · intro h
    rcases highestUpTo_cases cap l with hz | ⟨obs,ho,hle,heq⟩
    · exact hz ▸ Nat.zero_le _
    · exact heq ▸ Nat.not_lt.mp fun hlt => h obs ho hlt hle

theorem one_key_cannot_lift_head (now : Int) (hfloor : bc.externalFloor = 0)
    (hseen : bc.observations ≠ []) (H : Nat) :
    let bound := saturatingAdd (saturatingAdd H bc.tolerance) bc.tolerance
    (bc.computePerceived P o now ≤ bound ↔
      ∀ obs ∈ bc.observations, bound < obs.height → ¬bc.Lifts P o obs.height) ∧
    ∀ k, (∀ obs ∈ bc.observations, H < obs.height → voteKey P o obs = k) →
      (∃ obs ∈ bc.observations, voteKey P o obs ≠ k) →
        bc.computePerceived P o now ≤ bound := by
  intro bound
  rw [computePerceived_of_ne_nil P o bc hseen now,applyExternalFloor,if_pos (.inl hfloor)]
  refine ⟨?_,fun k hone hother => ?_⟩
  · simp only [highestUpTo_le_iff,le_outlierCap_iff P o bc hseen]
  · calc highestUpTo (bc.outlierCap P o) bc.observations ≤ bc.outlierCap P o := highestUpTo_le _ _
      _ ≤ _ := saturatingAdd_mono bc.tolerance_le (partyAnchor_le_of_one_key hone hother)

theorem split_operator_lifts_head :
    let op := "op.example".toList
    let tables := (range 10).foldl (fun o n => Owners.recordOwner o ('s' :: Nat.toDigits 10 n)
      (if n = 9 then "tenant".toList else "brand".toList) op) .new
    let add := fun (bc : BlockConsensus) (e : String) (height : Nat) =>
      bc.addObservation asciiPlatform tables e.toList height 0
    let bc := add (add (add (newBlockConsensus 5 0) "s0-https://a.op.example" 1000000)
      "s9-https://b.op.example" 1000000) "t-https://other.example" 100
    (∀ obs ∈ bc.observations, 100 < obs.height → obs.endpoint.operator asciiPlatform = op) ∧
      (∃ obs ∈ bc.observations, obs.endpoint.operator asciiPlatform ≠ op) ∧ bc.externalFloor = 0 ∧
      saturatingAdd (saturatingAdd 100 bc.tolerance) bc.tolerance <
        bc.computePerceived asciiPlatform tables 0 := by
  decide +kernel

theorem shared_operator_stays_bounded :
    let add := fun (bc : BlockConsensus) (e : String) (height : Nat) =>
      bc.addObservation asciiPlatform .new e.toList height 0
    let bc := add (add (add (newBlockConsensus 5 0) "s0-https://a.op.example" 1000000)
      "s9-https://b.op.example" 1000000) "t-https://other.example" 100
    bc.computePerceived asciiPlatform .new 0 ≤
      saturatingAdd (saturatingAdd 100 bc.tolerance) bc.tolerance := by
  intro add bc
  exact (one_key_cannot_lift_head asciiPlatform .new bc 0 rfl (by decide +kernel) 100).2
    "op.example".toList (by decide +kernel) (by decide +kernel)

theorem computePerceived_le
    (hh : ∀ obs ∈ bc.observations, obs.height ≤ maxPlausibleBlockHeight)
    (hf : bc.externalFloor ≤ maxPlausibleBlockHeight) (now : Int) :
    bc.computePerceived P o now ≤ maxPlausibleBlockHeight := by
  have he : bc.effectiveFloor ≤ maxPlausibleBlockHeight := by
    unfold effectiveFloor
    split_ifs <;> omega
  have ha : ∀ p ≤ maxPlausibleBlockHeight,
      bc.applyExternalFloor p now ≤ maxPlausibleBlockHeight := by
    intro p hp
    unfold applyExternalFloor
    split_ifs <;> omega
  by_cases hne : bc.observations = []
  · rw [computePerceived,if_pos hne]
    exact ha 0 (Nat.zero_le _)
  · rw [computePerceived_of_ne_nil P o bc hne now]
    refine ha _ ?_
    rcases highestUpTo_cases (bc.outlierCap P o) bc.observations with hz | ⟨obs,ho,-,heq⟩
    · exact hz ▸ Nat.zero_le _
    · exact heq ▸ hh obs ho

def vote (k : GoString) : Option Nat := Votes.voteOf (voteKey P o) BlockObs.height bc.observations k

def TwoAgree : Prop :=
  ∃ k k' high low, k' ≠ k ∧ bc.vote P o k = some high ∧ bc.vote P o k' = some low ∧ low ≤ high ∧
    high ≤ low + bc.tolerance

theorem computePerceived_mono (hag : bc.TwoAgree P o) {new all : List BlockObs}
    (hal : all.Perm (bc.observations ++ new))
    (hn : ∀ x ∈ new, ∀ y ∈ bc.observations, voteKey P o x ≠ voteKey P o y) (now : Int) :
    bc.computePerceived P o now ≤ ({ bc with observations := all }).computePerceived P o now := by
  obtain ⟨k,k',high,low,hne,hh,hl,hle,hc⟩ := hag
  have hw : within bc.tolerance low high := decide_eq_true (by omega)
  have hb := Votes.backs_of_close hne hl hh hle hw
  have hs : bc.observations ≠ [] := by
    obtain ⟨obs,ho,-⟩ := Votes.voteOf_mem hh
    exact ne_nil_of_mem ho
  have hsu : bc.observations ⊆ all := fun obs ho =>
    hal.mem_iff.mpr (mem_append_left new ho)
  have hs' : all ≠ [] := fun hni => hs (subset_nil.mp (hni ▸ hsu))
  obtain ⟨a,a',ha,ha',haa⟩ := Votes.anchor_mono (within_convex _)
    (Votes.votes_subperm BlockObs.height hal hn) hb
  have han : partyAnchor P o bc.observations bc.tolerance ≤ partyAnchor P o all bc.tolerance := by
    rwa [partyAnchor,partyAnchor,ha,ha']
  rw [computePerceived_of_ne_nil P o bc hs now,computePerceived_of_ne_nil P o _ hs' now]
  refine applyExternalFloor_mono bc (highestUpTo_mono ?_ hsu) now
  exact saturatingAdd_mono bc.tolerance_le han

end Head

end BlockConsensus

structure ConsensusRun where
  clock : Int
  consensus : BlockConsensus

namespace ConsensusRun

inductive Act where
  | tick (t : Int)
  | addObservation (o : Owners) (endpoint : EndpointAddr) (height : Nat) (now : Int)
  | setExternalFloor (o : Owners) (height : Nat)
  | setSyncAllowance (blocks : Nat)
  | reset

def start (syncAllowance : Nat) (clock : Int) : ConsensusRun :=
  ⟨clock,.newBlockConsensus syncAllowance clock⟩

def step (P : Platform) (s : ConsensusRun) : Act → Option ConsensusRun
  | .tick t => if s.clock ≤ t then some { s with clock := t } else none
  | .addObservation o endpoint height now =>
      if now ≤ s.clock then
        some { s with consensus := s.consensus.addObservation P o endpoint height now }
      else none
  | .setExternalFloor o height =>
      some { s with consensus := s.consensus.setExternalFloor P o height s.clock }
  | .setSyncAllowance blocks => some { s with consensus := s.consensus.setSyncAllowance blocks }
  | .reset => some { s with consensus := s.consensus.reset s.clock }

def holdsEffectiveFloor (s : ConsensusRun) : Bool :=
  s.consensus.externalFloor ≠ 0 && !s.consensus.inGrace s.clock

def endsGraceUnseen (s : ConsensusRun) : Act → Bool
  | .tick t => s.consensus.observations.isEmpty && s.consensus.externalFloor ≠ 0 &&
      s.consensus.inGrace s.clock && !s.consensus.inGrace t
  | _ => false

def Allowed (s : ConsensusRun) (a : Act) : Prop := s.endsGraceUnseen a = false

instance (s : ConsensusRun) (a : Act) : Decidable (Allowed s a) :=
  inferInstanceAs (Decidable (_ = _))

structure Plausible (bc : BlockConsensus) : Prop where
  observed : ∀ obs ∈ bc.observations, isPlausibleBlockHeight obs.height
  floor : bc.externalFloor ≤ maxPlausibleBlockHeight
  perceived : bc.perceived ≤ maxPlausibleBlockHeight

def ZeroWhenBlind (s : ConsensusRun) : Prop :=
  s.consensus.perceived = 0 → s.consensus.observations = [] ∧ s.holdsEffectiveFloor = false

section Invariants

variable {P : Platform} {o : Owners} {bc : BlockConsensus}

theorem plausible_recompute (ho : ∀ obs ∈ bc.observations, isPlausibleBlockHeight obs.height)
    (hf : bc.externalFloor ≤ maxPlausibleBlockHeight) (now : Int) :
    Plausible (bc.recompute P o now) :=
  ⟨ho,hf,BlockConsensus.computePerceived_le P o bc (fun obs h => plausible_le (ho obs h))
    hf now⟩

theorem keptObservations_subset (now : Int) : bc.keptObservations now ⊆ bc.observations := by
  intro obs ho
  simp [BlockConsensus.keptObservations] at ho
  split_ifs at ho
  · exact (mem_filter.mp (mem_of_mem_drop ho)).1
  · exact (mem_filter.mp ho).1

theorem plausible_addObservation (h : Plausible bc) (endpoint : EndpointAddr) (height : Nat)
    (now : Int) : Plausible (bc.addObservation P o endpoint height now) := by
  unfold BlockConsensus.addObservation
  split_ifs with hl
  · refine plausible_recompute ?_ ?_ now
    · intro obs ho
      rcases mem_append.mp ho with hold | hn
      · exact h.observed obs (keptObservations_subset now hold)
      · cases mem_singleton.mp hn
        exact hl
    · exact h.floor
  · exact h

theorem plausible_setExternalFloor (h : Plausible bc) (height : Nat) (now : Int) :
    Plausible (bc.setExternalFloor P o height now) := by
  unfold BlockConsensus.setExternalFloor
  split_ifs with hr
  · exact h
  · refine plausible_recompute ?_ ?_ now
    · exact h.observed
    by_cases hz : height = 0
    · exact hz ▸ Nat.zero_le _
    · exact plausible_le (by simpa [hz] using hr)

theorem plausible_step {s s' : ConsensusRun} {a : Act} (h : Plausible s.consensus)
    (hs : s.step P a = some s') : Plausible s'.consensus := by
  cases a with
  | tick t =>
    obtain ⟨-,rfl⟩ := Run.guard_pos hs
    exact h
  | addObservation o endpoint height now =>
    obtain ⟨-,rfl⟩ := Run.guard_pos hs
    exact plausible_addObservation h endpoint height now
  | setExternalFloor o height =>
    cases hs
    exact plausible_setExternalFloor h height s.clock
  | setSyncAllowance blocks =>
    cases hs
    exact { h with }
  | reset =>
    cases hs
    exact ⟨nofun,Nat.zero_le _,Nat.zero_le _⟩

theorem floor_idle_of_zero {now : Int} (h : bc.applyExternalFloor 0 now = 0) :
    holdsEffectiveFloor ⟨now,bc⟩ = false := by
  by_contra hh
  obtain ⟨hf,hg⟩ := Bool.and_eq_true_iff.mp (Bool.eq_true_of_not_eq_false hh)
  have hf := of_decide_eq_true hf
  have ha : ¬ (bc.externalFloor = 0 ∨ bc.inGrace now = true) := by
    rintro (hz | hin)
    · exact hf hz
    · rw [Bool.not_eq_true'] at hg
      exact absurd (hg.symm.trans hin) (by decide)
  have hp : 0 < bc.effectiveFloor := by
    unfold BlockConsensus.effectiveFloor
    split_ifs <;> omega
  rw [BlockConsensus.applyExternalFloor,if_neg ha,if_pos hp] at h
  omega

theorem zeroWhenBlind_recompute {clock now : Int}
    (ho : ∀ obs ∈ bc.observations, isPlausibleBlockHeight obs.height)
    (hn : bc.observations = [] → now = clock) :
    ZeroWhenBlind ⟨clock,bc.recompute P o now⟩ := by
  intro hz
  by_cases hne : bc.observations = []
  · have hc := hn hne
    subst hc
    refine ⟨hne,?_⟩
    have ha : bc.applyExternalFloor 0 now = 0 := by
      rwa [← show bc.computePerceived P o now = bc.applyExternalFloor 0 now by
        rw [BlockConsensus.computePerceived,if_pos hne]]
    exact floor_idle_of_zero ha
  · exact absurd hz (Nat.ne_of_gt
      (BlockConsensus.computePerceived_pos P o bc (fun obs h => plausible_pos (ho obs h)) hne now))

theorem zeroWhenBlind_step {s s' : ConsensusRun} {a : Act} (hl : Plausible s.consensus)
    (h : ZeroWhenBlind s) (hok : Allowed s a) (hs : s.step P a = some s') :
    ZeroWhenBlind s' := by
  cases a with
  | tick t =>
    obtain ⟨-,rfl⟩ := Run.guard_pos hs
    intro hz
    obtain ⟨hn,hid⟩ := h hz
    refine ⟨hn,?_⟩
    simp only [Allowed,endsGraceUnseen,hn,isEmpty_nil,Bool.true_and] at hok
    simp only [holdsEffectiveFloor] at hid ⊢
    cases hf : decide (s.consensus.externalFloor ≠ 0) with
    | false => rfl
    | true =>
      simp [hf] at hid hok ⊢
      simpa [hid] using hok
  | addObservation o endpoint height now =>
    obtain ⟨-,rfl⟩ := Run.guard_pos hs
    have ho := (plausible_addObservation (P := P) (o := o) hl endpoint height now).observed
    unfold BlockConsensus.addObservation at ho ⊢
    split_ifs at ho ⊢
    · exact zeroWhenBlind_recompute ho fun hni => by simp at hni
    · exact h
  | setExternalFloor o height =>
    cases hs
    unfold BlockConsensus.setExternalFloor
    split_ifs
    · exact h
    · exact zeroWhenBlind_recompute hl.observed fun _ => rfl
  | setSyncAllowance blocks =>
    cases hs
    exact h
  | reset =>
    cases hs
    exact fun _ => ⟨rfl,rfl⟩

end Invariants

theorem parties_behind_cannot_lower_head (P : Platform) :
    (∀ (o : Owners) (bc : BlockConsensus) (new all : List BlockObs) (now : Int), bc.TwoAgree P o →
      all.Perm (bc.observations ++ new) →
      (∀ x ∈ new, ∀ y ∈ bc.observations,
        BlockConsensus.voteKey P o x ≠ BlockConsensus.voteKey P o y) →
      bc.computePerceived P o now ≤ ({ bc with observations := all }).computePerceived P o now) ∧
    (∀ syncAllowance clock s,
      Run.Reaches (step P) (fun _ _ => True) (start syncAllowance clock) s →
        s.consensus.perceived ≤ maxPlausibleBlockHeight) ∧
    ∀ syncAllowance clock s, Run.Reaches (step P) Allowed (start syncAllowance clock) s →
      ZeroWhenBlind s := by
  have hst : ∀ syncAllowance clock, Plausible (start syncAllowance clock).consensus :=
    fun _ _ => ⟨nofun,Nat.zero_le _,Nat.zero_le _⟩
  refine ⟨?_,?_,?_⟩
  · intro o bc new all now ha hal hn
    exact bc.computePerceived_mono P o ha hal hn now
  · intro syncAllowance clock s h
    exact (h.invariant (fun s => Plausible s.consensus) (hst syncAllowance clock)
      fun _ _ _ hi _ hs => plausible_step hi hs).perceived
  · intro syncAllowance clock s h
    refine (h.invariant (fun s => Plausible s.consensus ∧ ZeroWhenBlind s)
      ⟨hst syncAllowance clock,fun _ => ⟨rfl,rfl⟩⟩ fun _ _ _ hi hok hs => ?_).2
    exact ⟨plausible_step hi.1 hs,zeroWhenBlind_step hi.1 hi.2 hok hs⟩

theorem stuck_party_and_late_floor :
    let low : BlockObs := ⟨"u-https://stuck.example".toList,5,0,by decide⟩
    let bc := ((BlockConsensus.newBlockConsensus 5 0).addObservation asciiPlatform .new
      "s-https://a.example".toList 100 0).addObservation asciiPlatform .new
      "t-https://b.example".toList 104 0
    let acts :=
    [Act.addObservation .new "s-https://a.example".toList 100 0,.setExternalFloor .new 900,
      .tick (60 * GoTime.second),.setSyncAllowance 7]
    bc.computePerceived asciiPlatform .new 0 ≤
        ({ bc with observations := low :: bc.observations }).computePerceived asciiPlatform .new 0 ∧
      ∃ s, Run.run (step asciiPlatform) Allowed (start 5 0) acts = some s ∧
        s.consensus.perceived = 100 ∧ ZeroWhenBlind s := by
  intro low bc acts
  obtain ⟨hm,-,hz⟩ := parties_behind_cannot_lower_head asciiPlatform
  have ha : bc.TwoAgree asciiPlatform .new :=
    ⟨"b.example".toList,"a.example".toList,104,100,by decide,by decide +kernel,by decide +kernel,
      by decide,by decide +kernel⟩
  exact ⟨hm .new bc [low] _ 0 ha (perm_append_singleton low bc.observations).symm
    (by decide +kernel),Run.ends_and acts (by decide +kernel) fun s hs _ => hz 5 0 s hs⟩

theorem floor_of_grace_stays_unseen :
    ∃ s, Run.run (step asciiPlatform) (fun _ _ => True) (start 5 0)
        [.setExternalFloor .new 900,.tick (60 * GoTime.second),.setSyncAllowance 7] = some s ∧
      s.consensus.perceived = 0 ∧ s.holdsEffectiveFloor = true ∧ ¬ ZeroWhenBlind s := by
  obtain ⟨s,hs,hz,hf⟩ : ∃ s, Run.run (step asciiPlatform) (fun _ _ => True) (start 5 0)
      [.setExternalFloor .new 900,.tick (60 * GoTime.second),.setSyncAllowance 7] = some s ∧
      s.consensus.perceived = 0 ∧ s.holdsEffectiveFloor = true := Run.ends _ (by decide +kernel)
  exact ⟨s,hs,hz,hf,fun h => absurd ((h hz).2.symm.trans hf) (by decide)⟩

end ConsensusRun

end SageGateway
