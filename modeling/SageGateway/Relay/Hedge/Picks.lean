import SageGateway.Relay.Hedge.Outcome
import SageGateway.Relay.Retry

namespace SageGateway

open List Option
open Function (update_of_ne update_self)

namespace EndpointAddr

theorem mem_exclude {l : List EndpointAddr} {addrs : GoMap EndpointAddr Unit} {ep : EndpointAddr}
    (h : ep ∈ exclude l addrs) : ep ∈ l ∧ addrs.has ep = false := by
  unfold exclude at h
  split at h
  · next hl => exact ⟨h,by rw [GoMap.has,GoMap.get_of_len_zero hl]; rfl⟩
  · obtain ⟨hm,hn⟩ := mem_filter.mp h
    exact ⟨hm,(Bool.not_eq_true' _).mp hn⟩

theorem excludeAffiliates_subset {P : Platform} {o : Owners} {l : List EndpointAddr}
    {a : Affiliates} : excludeAffiliates P o l a ⊆ l := by
  unfold excludeAffiliates
  split
  · exact List.Subset.refl l
  · dsimp only
    split
    · exact List.Subset.refl l
    · exact filter_subset_self l

theorem excludeAffiliates_ne {P : Platform} {o : Owners} {l : List EndpointAddr}
    {a : Affiliates} (h : l ≠ []) : excludeAffiliates P o l a ≠ [] := by
  unfold excludeAffiliates
  split
  · exact h
  · dsimp only
    split
    · exact h
    · next hne => exact hne

end EndpointAddr

namespace HedgeRace

variable {R : Type} {P : Platform} {s s' : HedgeRace R} {ctx₀ : RelayContext R}

theorem hedgeList_subset {v : HedgeView} : s.hedgeList P v ⊆ s.ctx.endpoints := by
  unfold hedgeList
  split
  · exact List.Subset.refl _
  · unfold HedgeView.hedgeEndpoints
    have hex : ∀ addrs, EndpointAddr.exclude s.ctx.endpoints addrs ⊆ s.ctx.endpoints :=
      fun _ _ hep => (EndpointAddr.mem_exclude hep).1
    dsimp only
    split
    · split
      · exact hex _
      · exact List.Subset.trans EndpointAddr.excludeAffiliates_subset (hex _)
    · exact hex _

theorem rehedgeEndpoints_some {v : HedgeView} {full tried left : List EndpointAddr}
    (h : v.rehedgeEndpoints P full tried = some left) : left ≠ [] ∧ left ⊆ full := by
  obtain ⟨hne,rfl⟩ := Run.guard_neg h
  exact ⟨fun hn => hne (.inl hn),filter_subset_self full⟩

inductive ArmStep (P : Platform) (ctx₀ : RelayContext R) (s : HedgeRace R) (act : HedgeAct R)
    (a : HedgeArm) : ArmRun R → Prop
  | select {r : ArmRun R} {v : SelectView} (ha : s.arm a = some r) (hr : r.stage = .running)
      (hnew : r.selectedEndpoint = none) (hact : act = .select a v) :
      ArmStep P ctx₀ s act a (r.select a v)
  | finish {r : ArmRun R} {response : Option R} {heuristicResult : Option AnalysisResult}
      {ctxErr err : Option GoError} (ha : s.arm a = some r) (hr : r.stage = .running) :
      ArmStep P ctx₀ s act a (r.finish a response heuristicResult ctxErr err)
  | report {r : ArmRun R} {res : HedgeResult R} (ha : s.arm a = some r)
      (hr : r.stage = .returned res) : ArmStep P ctx₀ s act a { r with stage := .reported res }
  | launch {v : HedgeView} {endpoints : List EndpointAddr} (ha : s.arm a = none)
      (hctx : s.ctx = ctx₀) (hsub : endpoints ⊆ ctx₀.endpoints)
      (hlist : endpoints ≠ [] ∨ act = .delayElapses v ∧ endpoints = s.hedgeList P v) :
      ArmStep P ctx₀ s act a (.launch (hedgeClone ctx₀ endpoints) v.now)

theorem arm_setArm {act : HedgeAct R} {a : HedgeArm} {r : ArmRun R}
    (h : ArmStep P ctx₀ s act a r) (b : HedgeArm) :
    (s.setArm a r).arm b = s.arm b ∨
      ∃ r', (s.setArm a r).arm b = some r' ∧ ArmStep P ctx₀ s act b r' := by
  by_cases hb : b = a
  · subst hb
    exact .inr ⟨r,update_self _ _ _,h⟩
  · exact .inl (update_of_ne hb _ _)

theorem arm_send (a b : HedgeArm) (res : HedgeResult R) : (s.send a res).arm b = s.arm b := by
  cases a with
  | primary | hedge | rehedge => rfl

theorem step_arm {act : HedgeAct R} (hs : s.Sound ctx₀) (h : s.step P act = some s')
    (b : HedgeArm) : s'.arm b = s.arm b ∨ ∃ r, s'.arm b = some r ∧ ArmStep P ctx₀ s act b r := by
  cases act with
  | select a v =>
    obtain ⟨r,ha,h⟩ := bind_eq_some_iff.mp h
    split at h
    · next hr hnw =>
      cases h
      exact arm_setArm (.select ha hr hnw rfl) b
    · cases h
  | finish a response heuristicResult ctxErr err =>
    obtain ⟨r,ha,h⟩ := bind_eq_some_iff.mp h
    split at h
    · next hr =>
      cases h
      exact arm_setArm (.finish ha hr) b
    · cases h
  | report a =>
    obtain ⟨r,ha,h⟩ := bind_eq_some_iff.mp h
    split at h
    · next res hr _ =>
      cases h
      rw [arm_send]
      exact arm_setArm (.report ha hr) b
    · cases h
  | contextEnds e =>
    obtain ⟨-,rfl⟩ := Run.guard_pos h
    exact .inl rfl
  | delayElapses v =>
    simp [step] at h
    split at h
    · next hwa =>
      cases h
      have hc := hs.control
      unfold Control at hc
      rw [hwa] at hc
      obtain ⟨hp,-,hh,-⟩ := hc
      have hn := not_isSome_iff_eq_none.mp (Bool.eq_false_iff.mp hh)
      unfold delayElapsed
      split
      · exact .inl rfl
      · have hl : ArmStep P ctx₀ s (.delayElapses v) .hedge
            (.launch (hedgeClone ctx₀ (s.hedgeList P v)) v.now) :=
          .launch hn hp.ctx (hp.ctx ▸ hedgeList_subset) (.inr ⟨rfl,rfl⟩)
        rw [← hp.ctx] at hl ⊢
        exact arm_setArm hl b
    · cases h
  | receivePrimary =>
    obtain ⟨res,-,h⟩ := bind_eq_some_iff.mp h
    have hw := receivePrimary_wires h
    exact .inl (congrFun (congrArg Wires.arm hw) b)
  | receiveHedge v =>
    obtain ⟨res,hch,h⟩ := bind_eq_some_iff.mp h
    unfold receiveHedge at h
    split at h
    · next hwa =>
      cases h
      rcases raceHedge_wires P v res
        ({ s with hedgeCh := none, received := s.received ++ [res] } : HedgeRace R) with
        hw | ⟨hre,hw | ⟨tried,left,hle,hw⟩⟩
      · exact .inl (congrFun (congrArg Wires.arm hw) b)
      · exact .inl (congrFun (congrArg Wires.arm hw) b)
      · have hn : s.arm .rehedge = none := by
          cases ht : s.arm .rehedge with
          | none => rfl
          | some r => cases hre.symm.trans (hs.wires.rehedge (isSome_of_eq_some ht)).1
        have hp := (hs.control.awaited (by rw [hwa]; intro _ hwr; cases hwr)).1
        obtain ⟨hne,hsu⟩ := rehedgeEndpoints_some hle
        have hl : ArmStep P ctx₀ s (.receiveHedge v) .rehedge
            (.launch (hedgeClone ctx₀ left) v.now) :=
          .launch hn hp.ctx (hp.ctx ▸ hsu) (.inl hne)
        have har := congrFun (congrArg Wires.arm hw) b
        rw [show (raceHedge P v res _).arm b = _ from har]
        rw [← hp.ctx] at hl ⊢
        exact arm_setArm hl b
    · cases h
  | seeDone =>
    obtain ⟨e,he,h⟩ := bind_eq_some_iff.mp h
    exact .inl (congrFun (congrArg Wires.arm (seeDone_gaveUp hs.control he h).1) b)

theorem arm_invariant {act : HedgeAct R} (Inv : ArmRun R → Prop) (hs : s.Sound ctx₀)
    (h : s.step P act = some s') (hin : ∀ a r, s.arm a = some r → Inv r)
    (hst : ∀ a r, ArmStep P ctx₀ s act a r → Inv r) : ∀ a r, s'.arm a = some r → Inv r := by
  intro a r hr
  rcases step_arm hs h a with hsa | ⟨r',hr',ha⟩
  · exact hin a r (hsa.symm.trans hr)
  · cases hr'.symm.trans hr
    exact hst a r ha

def isReturned : HedgeWait → Bool
  | .returned _ => true
  | _ => false

def Orderly (P : Platform) (s : HedgeRace R) : HedgeAct R → Prop
  | .select a _ => a = .primary → isReturned s.wait = false
  | .delayElapses v => s.ctx.attemptKind = attemptRetry → s.hedgeList P v ≠ []
  | _ => True

instance (P : Platform) (s : HedgeRace R) (act : HedgeAct R) : Decidable (Orderly P s act) :=
  match act with
  | .select a _ => inferInstanceAs (Decidable (a = .primary → isReturned s.wait = false))
  | .delayElapses v =>
      inferInstanceAs (Decidable (s.ctx.attemptKind = attemptRetry → s.hedgeList P v ≠ []))
  | .finish .. | .report _ | .contextEnds _ | .receivePrimary | .receiveHedge _ | .seeDone =>
      .isTrue trivial

def sentTo (s : HedgeRace R) (a : HedgeArm) : List EndpointAddr :=
  ((s.selected a).filter fun ep => decide (ep ≠ [])).toList

def sent (s : HedgeRace R) : List EndpointAddr :=
  s.sentTo .primary ++ (s.sentTo .hedge ++ s.sentTo .rehedge)

def armFailed (r : ArmRun R) : Bool :=
  match r.stage with
  | .running => false
  | .returned res => res.err.isSome
  | .reported res => res.err.isSome

def lostTo (s : HedgeRace R) (a : HedgeArm) : List EndpointAddr :=
  if (s.arm a).any armFailed then s.sentTo a else []

def lost (s : HedgeRace R) : List EndpointAddr := s.lostTo .hedge ++ s.lostTo .rehedge

theorem mem_sentTo {a : HedgeArm} {ep : EndpointAddr} (h : ep ∈ s.sentTo a) :
    ∃ r, s.arm a = some r ∧ r.selectedEndpoint = some ep ∧ ep ≠ [] := by
  obtain ⟨hs,hne⟩ := filter_eq_some_iff.mp (mem_toList.mp h)
  obtain ⟨r,hr,hep⟩ := bind_eq_some_iff.mp hs
  exact ⟨r,hr,hep,of_decide_eq_true hne⟩

end HedgeRace

structure ArmRun.Within {R : Type} (pool : List EndpointAddr) (r : ArmRun R) : Prop where
  endpoints : r.ctx.endpoints ≠ []
  subset : r.ctx.endpoints ⊆ pool
  selected : ∀ ep, r.selectedEndpoint = some ep → ep ∈ pool

theorem ArmRun.Within.select {R : Type} {pool : List EndpointAddr} {r : ArmRun R}
    (h : r.Within pool) (a : HedgeArm) (v : SelectView) : (r.select a v).Within pool := by
  obtain ⟨hne,hs,hp⟩ := SelectView.narrow_kept (v := v) r.ctx.attemptKind h.endpoints
  unfold ArmRun.select
  dsimp only
  split
  · next ep hep =>
    refine ⟨hne,List.Subset.trans hs h.subset,fun ep' he' => ?_⟩
    cases he'
    exact h.subset (hp ep hep)
  · exact ⟨hne,List.Subset.trans hs h.subset,h.selected⟩

structure ArmRun.Tracked {R : Type} (r : ArmRun R) : Prop where
  endpoint : r.ctx.endpoint = r.selectedEndpoint.getD []
  returned : ∀ res, r.stage = .returned res → res.ctx.endpoint = r.ctx.endpoint
  reported : ∀ res, r.stage = .reported res → res.ctx.endpoint = r.ctx.endpoint

theorem ArmRun.Tracked.select {R : Type} {r : ArmRun R} (h : r.Tracked)
    (hr : r.stage = .running) (a : HedgeArm) (v : SelectView) : (r.select a v).Tracked := by
  unfold ArmRun.select
  dsimp only
  split
  · refine ⟨rfl,?_,?_⟩
    · intro res hre
      cases hr.symm.trans hre
    · intro res hre
      cases hr.symm.trans hre
  · refine ⟨h.endpoint,?_,?_⟩
    · rintro res ⟨⟩
      rfl
    · rintro res ⟨⟩

namespace HedgeRace

variable {R : Type} {P : Platform} {s s' : HedgeRace R} {ctx₀ : RelayContext R}

variable {act : HedgeAct R} {g : HedgeGate} {ctx : RelayContext R}

theorem within_step (hk : ctx₀.attemptKind = attemptRetry)
    (hs : s.Sound ctx₀) (hok : Orderly P s act) (h : s.step P act = some s')
    (hin : ∀ a r, s.arm a = some r → r.Within ctx₀.endpoints) :
    ∀ a r, s'.arm a = some r → r.Within ctx₀.endpoints := by
  refine arm_invariant _ hs h hin ?_
  rintro a r (⟨ha,hr,-,-⟩ | ⟨ha,-⟩ | ⟨ha,-⟩ | ⟨ha,hc,hsu,hl⟩)
  · exact (hin a _ ha).select a _
  · exact ⟨(hin a _ ha).endpoints,(hin a _ ha).subset,(hin a _ ha).selected⟩
  · exact ⟨(hin a _ ha).endpoints,(hin a _ ha).subset,(hin a _ ha).selected⟩
  · refine ⟨?_,hsu,?_⟩
    · rcases hl with hne | ⟨rfl,rfl⟩
      · exact hne
      · exact hok (hc ▸ hk)
    · nofun

theorem tracked_step (hs : s.Sound ctx₀) (h : s.step P act = some s')
    (hin : ∀ a r, s.arm a = some r → r.Tracked) : ∀ a r, s'.arm a = some r → r.Tracked := by
  refine arm_invariant _ hs h hin ?_
  rintro a r (⟨ha,hr,-,-⟩ | ⟨ha,-⟩ | ⟨ha,hr⟩ | ⟨-,-,-,-⟩)
  · exact (hin a _ ha).select hr a _
  · refine ⟨(hin a _ ha).endpoint,?_,?_⟩
    · rintro res ⟨⟩
      rfl
    · rintro res ⟨⟩
  · refine ⟨(hin a _ ha).endpoint,?_,?_⟩
    · rintro res ⟨⟩
    · rintro res ⟨⟩
      exact (hin a _ ha).returned _ hr
  · refine ⟨rfl,?_,?_⟩
    · rintro res ⟨⟩
    · rintro res ⟨⟩

def Settles (s s' : HedgeRace R) : Prop :=
  isReturned s'.wait = false ∨ ∃ res, s'.merged = s.merged ++ [res]

theorem settle_settles (h : isReturned s.wait = false) : Settles s s.settle := by
  unfold settle
  split
  · split
    · exact .inr ⟨_,rfl⟩
    · exact .inl h
  · exact .inl h

theorem racePrimary_settles {res : HedgeResult R} (h : isReturned s.wait = false) :
    Settles s (s.racePrimary res) := by
  unfold racePrimary
  dsimp only
  split
  · exact .inr ⟨_,rfl⟩
  · split
    · split
      · exact .inr ⟨_,rfl⟩
      · exact settle_settles (s := { s with primaryRes := some res }) h
    · exact settle_settles (s := { s with primaryRes := some res }) h

theorem tryRehedge_waits (v : HedgeView) (res : HedgeResult R) :
    (s.tryRehedge P v res).wait = s.wait ∧ (s.tryRehedge P v res).merged = s.merged := by
  unfold tryRehedge
  split
  · dsimp only
    split
    · exact ⟨rfl,rfl⟩
    · exact ⟨rfl,rfl⟩
  · exact ⟨rfl,rfl⟩

theorem hedgeFailed_settles (v : HedgeView) (res : HedgeResult R) (h : isReturned s.wait = false) :
    Settles s (s.hedgeFailed P v res) := by
  obtain ⟨hw,hm⟩ := tryRehedge_waits (P := P) (s := s) v res
  have hse : Settles s (s.tryRehedge P v res).settle := by
    have hs := settle_settles (s := s.tryRehedge P v res) (hw ▸ h)
    unfold Settles at hs ⊢
    rwa [hm] at hs
  unfold hedgeFailed
  split
  · split
    · exact .inr ⟨_,rfl⟩
    · exact hse
  · exact hse

theorem raceHedge_settles (v : HedgeView) (res : HedgeResult R) (h : isReturned s.wait = false) :
    Settles s (s.raceHedge P v res) := by
  unfold raceHedge
  split
  · unfold suppressRuledOut
    dsimp only
    split
    · exact .inr ⟨_,rfl⟩
    · exact .inl rfl
  · split
    · exact .inr ⟨_,rfl⟩
    · exact hedgeFailed_settles (s := { s with hedgeRes := some res, hedgeDone := true }) v res h

theorem receivePrimary_settles {res : HedgeResult R} (h : s.receivePrimary res = some s') :
    Settles s s' := by
  unfold receivePrimary at h
  dsimp only at h
  split at h
  · cases h
    split
    · exact .inr ⟨_,rfl⟩
    · exact .inr ⟨_,rfl⟩
  · cases h
    exact .inr ⟨_,rfl⟩
  · next hw =>
    cases h
    refine racePrimary_settles
      (s := { s with primaryCh := none, received := s.received ++ [res] }) ?_
    exact congrArg isReturned hw
  · cases h
    exact .inr ⟨_,rfl⟩
  · cases h

def Left (s : HedgeRace R) : Prop :=
  isReturned s.wait = true → s.merged = [] → ∀ p ∈ s.primaryPick, s.ctx.endpoint = p

theorem Left.of_settles (h : Settles s s') : s'.Left := by
  intro hr hn
  rcases h with hw | ⟨res,hm⟩
  · cases hw.symm.trans hr
  · exact absurd (hm.symm.trans hn)
      (append_ne_nil_of_right_ne_nil _ (cons_ne_nil res []))

theorem deadlineInFlight_endpoint {p : EndpointAddr}
    (hct : ctx.endpoint = []) (hp : p ≠ []) (e : ContextEnd)
    (picks : List (Option EndpointAddr)) :
    (deadlineInFlight ctx e (some p :: picks)).1.endpoint = p := by
  unfold deadlineInFlight
  dsimp only
  have hc : List.filterMap id (some p :: picks) = p :: picks.filterMap id := rfl
  rw [if_pos hct,hc,filter_cons_of_pos (by simpa using hp)]
  rfl

theorem picksInFlight_eq : ∃ picks, s.picksInFlight = s.selected .primary :: picks := by
  unfold picksInFlight
  split
  · exact ⟨_,rfl⟩
  · exact ⟨_,rfl⟩

theorem selected_setArm_ne {a b : HedgeArm} {r : ArmRun R} (hb : b ≠ a) :
    (s.setArm a r).selected b = s.selected b :=
  congrArg (fun o => Option.bind o ArmRun.selectedEndpoint) (update_of_ne hb _ _)

theorem selected_setArm {a b : HedgeArm} {r r' : ArmRun R} (ha : s.arm a = some r)
    (hse : r'.selectedEndpoint = r.selectedEndpoint) :
    (s.setArm a r').selected b = s.selected b := by
  by_cases hb : b = a
  · subst hb
    have hs : (s.setArm b r').arm b = some r' := update_self _ _ _
    rwa [selected,selected,hs,ha]
  · exact selected_setArm_ne hb

theorem Left.same (h : s.Left) (hc : s'.ctx = s.ctx) (hw : s'.wait = s.wait)
    (hm : s'.merged = s.merged) (hs : s'.selected .primary = s.selected .primary) :
    s'.Left := by
  unfold Left primaryPick
  rwa [hc,hw,hm,hs]

theorem left_step (hc : ctx₀.endpoint = []) (hs : s.Sound ctx₀)
    (hok : Orderly P s act) (h : s.step P act = some s') (hl : s.Left) : s'.Left := by
  cases act with
  | select a v =>
    obtain ⟨r,ha,h⟩ := bind_eq_some_iff.mp h
    split at h
    · cases h
      by_cases hpr : a = .primary
      · intro hr
        cases (hok hpr).symm.trans hr
      · exact hl.same rfl rfl rfl (selected_setArm_ne (Ne.symm hpr))
    · cases h
  | finish a response heuristicResult ctxErr err =>
    obtain ⟨r,ha,h⟩ := bind_eq_some_iff.mp h
    split at h
    · cases h
      exact hl.same rfl rfl rfl (selected_setArm ha rfl)
    · cases h
  | report a =>
    obtain ⟨r,ha,h⟩ := bind_eq_some_iff.mp h
    split at h
    · next res _ _ =>
      cases h
      have hse : (s.setArm a { r with stage := .reported res }).selected .primary =
          s.selected .primary := selected_setArm ha rfl
      cases a with
      | primary | hedge | rehedge => exact hl.same rfl rfl rfl hse
    · cases h
  | contextEnds e =>
    obtain ⟨-,rfl⟩ := Run.guard_pos h
    exact hl
  | delayElapses v =>
    simp [step] at h
    split at h
    · cases h
      refine Left.of_settles (s := s) (.inl ?_)
      unfold delayElapsed
      split
      · rfl
      · rfl
    · cases h
  | receivePrimary =>
    obtain ⟨res,-,h⟩ := bind_eq_some_iff.mp h
    exact .of_settles (receivePrimary_settles h)
  | receiveHedge v =>
    obtain ⟨res,-,h⟩ := bind_eq_some_iff.mp h
    unfold receiveHedge at h
    split at h
    · next hw =>
      cases h
      exact .of_settles (raceHedge_settles v res (congrArg isReturned hw))
    · cases h
  | seeDone =>
    obtain ⟨e,he,h⟩ := bind_eq_some_iff.mp h
    unfold seeDone at h
    split at h
    · cases h
    · next hw =>
      cases h
      intro _ _ p hp
      obtain ⟨hse,hne⟩ := filter_eq_some_iff.mp hp
      have hse : s.selected .primary = some p := hse
      obtain ⟨picks,hpi⟩ := picksInFlight_eq (s := s)
      have hem : s.ctx.endpoint = [] := by
        rwa [(hs.control.awaited hw).1.ctx]
      have hen := deadlineInFlight_endpoint hem (of_decide_eq_true hne) e picks
      rwa [← hse,← hpi] at hen

structure Placed (ctx₀ : RelayContext R) (s : HedgeRace R) : Prop where
  sound : s.Sound ctx₀
  tracked : ∀ a r, s.arm a = some r → r.Tracked
  left : s.Left

theorem placed_of_reaches (hc : ctx.endpoint = [])
    (h : Run.Reaches (step P) (Orderly P) (start g ctx) s) : s.Placed (start g ctx).ctx := by
  refine h.invariant (Placed (start g ctx).ctx) ⟨sound_start g ctx,?_,?_⟩ ?_
  · intro a r hr
    cases a with
    | primary =>
      cases hr
      refine ⟨hc,?_,?_⟩
      · rintro res ⟨⟩
      · rintro res ⟨⟩
    | hedge | rehedge => cases hr
  · nofun
  · intro s act s' hs hok hst
    have hsa : (start g ctx).ctx.endpoint = [] := hc
    exact ⟨sound_step hs.sound hst,tracked_step hs.sound hst hs.tracked,
      left_step hsa hs.sound hok hst hs.left⟩

theorem sent_within (hk : ctx.attemptKind = attemptRetry)
    (hne : ctx.endpoints ≠ []) (h : Run.Reaches (step P) (Orderly P) (start g ctx) s)
    {ep : EndpointAddr} (hep : ep ∈ s.sent) : ep ∈ ctx.endpoints := by
  have hf : (start g ctx).ctx.endpoints = ctx.endpoints := fillFrom_of_ne hne
  have hin : s.Sound (start g ctx).ctx ∧ ∀ a r, s.arm a = some r → r.Within ctx.endpoints := by
    refine h.invariant (fun s => s.Sound (start g ctx).ctx ∧
      ∀ a r, s.arm a = some r → r.Within ctx.endpoints) ⟨sound_start g ctx,?_⟩ ?_
    · intro a r hr
      cases a with
      | primary =>
        cases hr
        refine ⟨?_,?_,?_⟩
        · exact fun hn => hne (hf.symm.trans hn)
        · intro ep hep
          rwa [← hf]
        · nofun
      | hedge | rehedge => cases hr
    · rintro s act s' ⟨hs,hw⟩ hok hst
      refine ⟨sound_step hs hst,?_⟩
      rw [← hf] at hw ⊢
      exact within_step hk hs hok hst hw
  have hm : ∀ a, ep ∈ s.sentTo a → ep ∈ ctx.endpoints := by
    intro a ha
    obtain ⟨r,hr,hse,-⟩ := mem_sentTo ha
    exact (hin.2 a r hr).selected ep hse
  rcases mem_append.mp hep with hep | hep
  · exact hm _ hep
  · rcases mem_append.mp hep with hep | hep
    · exact hm _ hep
    · exact hm _ hep

theorem primary_left (hc : ctx.endpoint = [])
    (h : Run.Reaches (step P) (Orderly P) (start g ctx) s) {err : GoError}
    (hwa : s.wait = .returned (some err)) {ep : EndpointAddr} (hep : ep ∈ s.sentTo .primary) :
    ep = s.ctx.endpoint := by
  have hs := placed_of_reaches hc h
  obtain ⟨r,hr,hse,hne⟩ := mem_sentTo hep
  rcases hs.sound.returned hwa with ⟨res,hw⟩ | hg
  · have ha : res.arm = .primary := hw.primary (hw.err ▸ some_ne_none err)
    obtain ⟨r',hr',hst⟩ := hw.reported
    rw [ha] at hr'
    cases hr.symm.trans hr'
    have ht := hs.tracked _ _ hr
    rw [hw.ctx]
    change ep = res.ctx.endpoint
    rw [ht.reported res hst,ht.endpoint,hse]
    rfl
  · have hp : ep ∈ s.primaryPick := mem_toList.mp hep
    exact (hs.left (congrArg isReturned hwa) hg.merged ep hp).symm

end HedgeRace

end SageGateway
