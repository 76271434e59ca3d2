import SageGateway.Relay.Hedge

namespace SageGateway.HedgeRace

open List Option
open Function (update_of_ne)

variable {R : Type}

def launched (s : HedgeRace R) (a : HedgeArm) : Bool := (s.arm a).isSome

structure Wires (R : Type) where
  arm : HedgeArm → Option (ArmRun R)
  primaryCh : Option (HedgeResult R)
  hedgeCh : Option (HedgeResult R)
  rehedged : Bool

def wires (s : HedgeRace R) : Wires R := ⟨s.arm,s.primaryCh,s.hedgeCh,s.rehedged⟩

def Wires.Reported (w : Wires R) (a : HedgeArm) (res : HedgeResult R) : Prop :=
  ∃ r, w.arm a = some r ∧ r.stage = .reported res

structure Wires.Sound (w : Wires R) : Prop where
  own : ∀ a r res, w.arm a = some r → r.stage = .returned res → res.arm = a
  primary : ∀ res, w.primaryCh = some res → res.arm = .primary ∧ w.Reported .primary res
  hedge : ∀ res, w.hedgeCh = some res → w.Reported res.arm res ∧
    (res.arm = .hedge ∧ w.arm .rehedge = none ∨ res.arm = .rehedge)
  rehedge : (w.arm .rehedge).isSome = true → w.rehedged = true ∧ ∃ res, w.Reported .hedge res

theorem settle_wires (s : HedgeRace R) : s.settle.wires = s.wires := by
  unfold settle
  split
  · split
    · rfl
    · rfl
  · rfl

theorem racePrimary_wires (s : HedgeRace R) (res : HedgeResult R) :
    (s.racePrimary res).wires = s.wires := by
  unfold racePrimary
  dsimp only
  split
  · rfl
  · split
    · split
      · rfl
      · rw [settle_wires]
        rfl
    · rw [settle_wires]
      rfl

theorem receivePrimary_wires {s s' : HedgeRace R} {res : HedgeResult R}
    (h : s.receivePrimary res = some s') : s'.wires = { s.wires with primaryCh := none } := by
  unfold receivePrimary at h
  dsimp only at h
  split at h
  · cases h
    split
    · rfl
    · rfl
  · cases h
    rfl
  · cases h
    rw [racePrimary_wires]
    rfl
  · cases h
    rfl
  · cases h

def Rewired (P : Platform) (v : HedgeView) (ctx : RelayContext R) (w w' : Wires R) : Prop :=
  w' = w ∨ w.rehedged = false ∧ (w' = { w with rehedged := true } ∨
    ∃ tried left, v.rehedgeEndpoints P ctx.endpoints tried = some left ∧
      w' = { w with
        arm := Function.update w.arm .rehedge (some (.launch (hedgeClone ctx left) v.now))
        rehedged := true })

theorem tryRehedge_wires (P : Platform) (v : HedgeView) (res : HedgeResult R) (s : HedgeRace R) :
    Rewired P v s.ctx s.wires (s.tryRehedge P v res).wires := by
  unfold tryRehedge
  split
  · next h =>
    obtain ⟨⟨-,hre⟩,-⟩ := (Bool.and_eq_true _ _).mp h |>.imp_left (Bool.and_eq_true _ _).mp
    rw [Bool.not_eq_true'] at hre
    dsimp only
    split
    · next left hl => exact .inr ⟨hre,.inr ⟨_,left,hl,rfl⟩⟩
    · exact .inr ⟨hre,.inl rfl⟩
  · exact .inl rfl

theorem raceHedge_wires (P : Platform) (v : HedgeView) (res : HedgeResult R) (s : HedgeRace R) :
    Rewired P v s.ctx s.wires (s.raceHedge P v res).wires := by
  unfold raceHedge
  split
  · unfold suppressRuledOut
    dsimp only
    split
    · exact .inl rfl
    · exact .inl rfl
  · dsimp only
    split
    · exact .inl rfl
    · unfold hedgeFailed
      split
      · split
        · exact .inl rfl
        · rw [settle_wires]
          exact tryRehedge_wires P v res _
      · rw [settle_wires]
        exact tryRehedge_wires P v res _

namespace Wires

variable {w : Wires R} {a : HedgeArm} {r r' : ArmRun R} {res : HedgeResult R}

def setArm (w : Wires R) (a : HedgeArm) (r : ArmRun R) : Wires R :=
  { w with arm := Function.update w.arm a (some r) }

def channel (w : Wires R) : HedgeArm → Option (HedgeResult R)
  | .primary => w.primaryCh
  | .hedge => w.hedgeCh
  | .rehedge => w.hedgeCh

theorem arm_setArm_self : (w.setArm a r).arm a = some r := Function.update_self a _ _

theorem arm_setArm_ne {b : HedgeArm} (h : b ≠ a) : (w.setArm a r).arm b = w.arm b :=
  update_of_ne h _ _

theorem Reported.setArm {b : HedgeArm} (h : w.Reported b res) (ha : w.arm a = some r)
    (hr : ∀ res, r.stage ≠ .reported res) : (w.setArm a r').Reported b res := by
  obtain ⟨q,hq,hs⟩ := h
  have hne : b ≠ a := by
    rintro rfl
    cases ha.symm.trans hq
    exact hr res hs
  exact ⟨q,(arm_setArm_ne hne).trans hq,hs⟩

theorem isSome_setArm {b : HedgeArm} (ha : w.arm a = some r) :
    ((w.setArm a r').arm b).isSome = (w.arm b).isSome := by
  by_cases hb : b = a
  · subst hb
    rw [arm_setArm_self,ha]
    rfl
  · rw [arm_setArm_ne hb]

theorem Sound.own_setArm (h : w.Sound) (ho : ∀ res, r'.stage = .returned res → res.arm = a) :
    ∀ b q res, (w.setArm a r').arm b = some q → q.stage = .returned res → res.arm = b := by
  intro b q res hq hs
  by_cases hb : b = a
  · subst hb
    cases arm_setArm_self.symm.trans hq
    exact ho res hs
  · exact h.own b q res ((arm_setArm_ne hb).symm.trans hq) hs

theorem Sound.advance (h : w.Sound) (ha : w.arm a = some r) (hr : ∀ res, r.stage ≠ .reported res)
    (ho : ∀ res, r'.stage = .returned res → res.arm = a) : (w.setArm a r').Sound where
  own := h.own_setArm ho
  primary res hres := ⟨(h.primary res hres).1,(h.primary res hres).2.setArm ha hr⟩
  hedge res hres := by
    obtain ⟨hrp,hs⟩ := h.hedge res hres
    refine ⟨hrp.setArm ha hr,hs.imp_left fun hh => ⟨hh.1,?_⟩⟩
    have hn : ((w.setArm a r').arm .rehedge).isSome = false := by
      rw [isSome_setArm ha,hh.2]
      rfl
    exact not_isSome_iff_eq_none.mp (Bool.eq_false_iff.mp hn)
  rehedge hsome := by
    obtain ⟨hre,res,hres⟩ := h.rehedge ((isSome_setArm ha).symm.trans hsome)
    exact ⟨hre,res,hres.setArm ha hr⟩

theorem Sound.channel_idle (h : w.Sound) (ha : w.arm a = some r) (hr : r.stage = .returned res) :
    w.channel a = none := by
  have hn : ∀ {q b}, w.Reported b q → b ≠ a := by
    rintro q b ⟨r',hr',hq⟩ rfl
    cases ha.symm.trans hr'
    cases hr.symm.trans hq
  cases a with
  | primary =>
    cases hch : w.primaryCh with
    | none => exact hch
    | some q => exact absurd rfl (hn (h.primary q hch).2)
  | hedge =>
    cases hch : w.hedgeCh with
    | none => exact hch
    | some q =>
      obtain ⟨hre,⟨har,-⟩ | har⟩ := h.hedge q hch
      · exact absurd har (hn hre)
      · obtain ⟨q',hq',-⟩ := hre
        rw [har] at hq'
        obtain ⟨-,res',hre'⟩ := h.rehedge (isSome_of_eq_some hq')
        exact absurd rfl (hn hre')
  | rehedge =>
    cases hch : w.hedgeCh with
    | none => exact hch
    | some q =>
      obtain ⟨hre,⟨-,hno⟩ | har⟩ := h.hedge q hch
      · cases ha.symm.trans hno
      · exact absurd har (hn hre)

def report (w : Wires R) (a : HedgeArm) (r : ArmRun R) (res : HedgeResult R) : Wires R :=
  match a with
  | .primary => { w.setArm a { r with stage := .reported res } with primaryCh := some res }
  | .hedge => { w.setArm a { r with stage := .reported res } with hedgeCh := some res }
  | .rehedge => { w.setArm a { r with stage := .reported res } with hedgeCh := some res }

theorem Sound.report (h : w.Sound) (ha : w.arm a = some r) (hr : r.stage = .returned res) :
    (w.report a r res).Sound := by
  have hset : (w.setArm a { r with stage := .reported res }).Sound := by
    refine h.advance ha ?_ ?_
    · intro q hq
      cases hr.symm.trans hq
    · rintro q ⟨⟩
  have hrp : (w.setArm a { r with stage := .reported res }).Reported a res :=
    ⟨_,arm_setArm_self,rfl⟩
  have har : res.arm = a := h.own a r res ha hr
  cases a with
  | primary =>
    refine { hset with primary := ?_ }
    rintro q ⟨⟩
    exact ⟨har,hrp⟩
  | hedge =>
    refine { hset with hedge := ?_ }
    rintro q ⟨⟩
    rw [har]
    refine ⟨hrp,.inl ⟨rfl,?_⟩⟩
    cases hre : w.arm .rehedge with
    | none =>
      exact (arm_setArm_ne (a := .hedge) (r := { r with stage := .reported res })
        (by decide)).trans hre
    | some q =>
      obtain ⟨-,res',r',hr',hre'⟩ := h.rehedge (isSome_of_eq_some hre)
      cases ha.symm.trans hr'
      cases hr.symm.trans hre'
  | rehedge =>
    refine { hset with hedge := ?_ }
    rintro q ⟨⟩
    rw [har]
    exact ⟨hrp,.inr rfl⟩

theorem Sound.own_running (h : w.Sound) (hr : r.stage = .running) :
    ∀ b q res, (w.setArm a r).arm b = some q → q.stage = .returned res → res.arm = b := by
  refine h.own_setArm ?_
  intro res hre
  cases hr.symm.trans hre

theorem Sound.launch (h : w.Sound) (hh : w.arm .hedge = none) (hre : w.arm .rehedge = none)
    (hr : r.stage = .running) : (w.setArm .hedge r).Sound := by
  refine ⟨h.own_running hr,?_,?_,?_⟩
  · intro res hrs
    obtain ⟨ha,q,hq,hst⟩ := h.primary res hrs
    exact ⟨ha,q,(arm_setArm_ne (by decide)).trans hq,hst⟩
  · intro res hrs
    obtain ⟨⟨q,hq,-⟩,⟨ha,-⟩ | ha⟩ := h.hedge res hrs
    · rw [ha,hh] at hq
      cases hq
    · rw [ha,hre] at hq
      cases hq
  · intro hs
    rw [arm_setArm_ne (by decide),hre] at hs
    cases hs

theorem Sound.receiveHedge {P : Platform} {v : HedgeView} {ctx : RelayContext R} {w' : Wires R}
    (h : w.Sound) (hch : w.hedgeCh = some res)
    (hw : Rewired P v ctx { w with hedgeCh := none } w') : w'.Sound := by
  have hd : ({ w with hedgeCh := none } : Wires R).Sound :=
    { h with hedge := (fun _ hq => by cases hq) }
  rcases hw with rfl | ⟨hre,rfl | ⟨tried,left,-,rfl⟩⟩
  · exact hd
  · exact ⟨h.own,h.primary,hd.hedge,fun hso => ⟨rfl,(h.rehedge hso).2⟩⟩
  · -- only the hedge arm can have reported before a third arm was decided on
    obtain ⟨⟨q,hq,hs⟩,⟨ha,-⟩ | ha⟩ := h.hedge res hch
    · rw [ha] at hq
      refine ⟨hd.own_running rfl,?_,(fun _ hp => by cases hp),
        fun _ => ⟨rfl,res,q,?_,hs⟩⟩
      · intro p hp
        obtain ⟨hpa,q',hq',hs'⟩ := h.primary p hp
        exact ⟨hpa,q',(arm_setArm_ne (w := w) (by decide)).trans hq',hs'⟩
      · exact (arm_setArm_ne (w := w) (by decide)).trans hq
    · rw [ha] at hq
      obtain ⟨ht,-⟩ := h.rehedge (isSome_of_eq_some hq)
      cases hre.symm.trans ht

end Wires

structure Pending (ctx₀ : RelayContext R) (s : HedgeRace R) : Prop where
  ctx : s.ctx = ctx₀
  merged : s.merged = []
  failed : ∀ res ∈ s.received, res.err ≠ none
  reported : ∀ res ∈ s.received, s.wires.Reported res.arm res
  primary : s.launched .primary = true

def Awaited (s : HedgeRace R) (a : HedgeArm) : Prop :=
  s.launched a = true ∧ ∀ res ∈ s.received, res.arm ≠ a

structure Racing (s : HedgeRace R) : Prop where
  primaryDone : ∀ res, s.primaryRes = some res → res ∈ s.received ∧ res.arm = .primary
  primaryOpen : s.primaryRes = none → s.Awaited .primary
  hedgeDone : s.hedgeDone = true → ∀ res, s.hedgeRes = some res → res.err ≠ none
  hedgeOpen : s.hedgeDone = false → ∃ a, a ≠ .primary ∧ s.Awaited a

structure Won (ctx₀ : RelayContext R) (s : HedgeRace R) (err : Option GoError)
    (res : HedgeResult R) : Prop where
  received : res ∈ s.received
  reported : s.wires.Reported res.arm res
  merged : s.merged = [res]
  ctx : s.ctx = mergeContext ctx₀ res.ctx
  err : err = res.err
  others : ∀ r ∈ s.received, r.err = none → r = res
  primary : res.err ≠ none → res.arm = .primary

structure GaveUp (ctx₀ : RelayContext R) (s : HedgeRace R) (err : Option GoError) : Prop where
  merged : s.merged = []
  ended : ∃ e picks, s.ended = some e ∧ s.ctx = (deadlineInFlight ctx₀ e picks).1 ∧
    err = some (deadlineInFlight ctx₀ e picks).2
  failed : ∀ res ∈ s.received, res.err ≠ none
  awaited : ∃ a, s.Awaited a

def Control (ctx₀ : RelayContext R) (s : HedgeRace R) : Prop :=
  match s.wait with
  | .delay => s.Pending ctx₀ ∧ s.received = [] ∧ s.launched .hedge = false ∧
      s.launched .rehedge = false ∧ s.primaryRes = none ∧ s.hedgeDone = false
  | .suppressed => s.Pending ctx₀ ∧ s.received = []
  | .racing => s.Pending ctx₀ ∧ s.Racing ∧ (s.primaryRes.isSome = true → s.hedgeDone = false)
  | .ruledOut => s.Pending ctx₀ ∧ s.Awaited .primary
  | .returned err => (∃ res, s.Won ctx₀ err res) ∨ s.GaveUp ctx₀ err

section

variable {ctx₀ : RelayContext R} {s s' : HedgeRace R} {res : HedgeResult R}

variable {r r' : ArmRun R} {a : HedgeArm} {err : Option GoError}

theorem reported_of_arm (ha : s'.arm = s.arm) (h : s.wires.Reported a res) :
    s'.wires.Reported a res := by
  obtain ⟨r,hr,hs⟩ := h
  exact ⟨r,(congrFun ha a).trans hr,hs⟩

theorem Pending.won (h : s.Pending ctx₀) (hme : res ∈ s.received) (hp : res.arm = .primary)
    (hre : s'.received = s.received) (hc : s'.ctx = mergeContext s.ctx res.ctx)
    (hm : s'.merged = s.merged ++ [res]) (hw : s'.wires = s.wires) :
    s'.Won ctx₀ res.err res where
  received := hre ▸ hme
  reported := hw ▸ h.reported res hme
  merged := by rw [hm,h.merged]; rfl
  ctx := by rw [hc,h.ctx]
  err := rfl
  others r hr hnone := absurd hnone (h.failed r (hre ▸ hr))
  primary _ := hp

theorem Pending.wins (h : s.Pending ctx₀) (hrp : s.wires.Reported res.arm res)
    (ha : s'.arm = s.arm) (hre : s'.received = s.received ++ [res])
    (hc : s'.ctx = mergeContext s.ctx res.ctx) (hm : s'.merged = s.merged ++ [res])
    (hp : res.err ≠ none → res.arm = .primary) : s'.Won ctx₀ res.err res where
  reported := reported_of_arm ha hrp
  received := by rw [hre]; exact mem_append_right _ (mem_singleton_self res)
  merged := by rw [hm,h.merged]; rfl
  ctx := by rw [hc,h.ctx]
  err := rfl
  others r hr hnone := by
    rw [hre] at hr
    rcases mem_append.mp hr with hr | hr
    · exact absurd hnone (h.failed r hr)
    · exact mem_singleton.mp hr
  primary := hp

theorem Pending.receive (h : s.Pending ctx₀) (hf : res.err ≠ none)
    (hrp : s.wires.Reported res.arm res) (hre : s'.received = s.received ++ [res])
    (hc : s'.ctx = s.ctx) (hm : s'.merged = s.merged) (ha : s'.arm = s.arm) :
    s'.Pending ctx₀ := by
  refine ⟨hc.trans h.ctx,hm.trans h.merged,?_,?_,?_⟩
  · intro r hr
    rw [hre] at hr
    rcases mem_append.mp hr with hr | hr
    · exact h.failed r hr
    · exact mem_singleton.mp hr ▸ hf
  · intro r hr
    rw [hre] at hr
    refine reported_of_arm ha ?_
    rcases mem_append.mp hr with hr | hr
    · exact h.reported r hr
    · exact mem_singleton.mp hr ▸ hrp
  · exact (congrArg (fun f => (f HedgeArm.primary).isSome) ha).trans h.primary

theorem settle_control (hw : s.wait = .racing) (h : s.Pending ctx₀) (hr : s.Racing) :
    s.settle.Control ctx₀ := by
  unfold settle
  split
  · next res hre =>
    obtain ⟨hm,ha⟩ := hr.primaryDone res hre
    split
    · exact .inl ⟨res,h.won hm ha rfl rfl rfl rfl⟩
    · next hd =>
      unfold Control
      rw [hw]
      exact ⟨h,hr,fun _ => Bool.eq_false_iff.mpr hd⟩
  · next hn =>
    unfold Control
    rw [hw]
    refine ⟨h,hr,fun hs => ?_⟩
    rw [hn] at hs
    cases hs

theorem Awaited.append (h : s.Awaited a) (hne : res.arm ≠ a)
    (hl : s'.launched a = true) (hre : s'.received = s.received ++ [res]) :
    s'.Awaited a := by
  refine ⟨hl,?_⟩
  intro r hr
  rw [hre] at hr
  rcases mem_append.mp hr with hr | hr
  · exact h.2 r hr
  · exact mem_singleton.mp hr ▸ hne

theorem mem_receive (s : HedgeRace R) (res : HedgeResult R) : res ∈ s.received ++ [res] :=
  mem_append_right _ (mem_singleton_self res)

theorem racePrimary_control (hw : s.wait = .racing) (h : s.Pending ctx₀) (hr : s.Racing)
    (har : res.arm = .primary) (hre : s.wires.Reported res.arm res) :
    (racePrimary res
      { s with primaryCh := none, received := s.received ++ [res] }).Control ctx₀ := by
  unfold racePrimary
  dsimp only
  split
  · next hok =>
    have hn := isNone_iff_eq_none.mp hok
    exact .inl ⟨res,hn ▸ h.wins hre rfl rfl rfl rfl fun hne => absurd hn hne⟩
  · next hf =>
    have hf : res.err ≠ none := fun hn => hf (isNone_iff_eq_none.mpr hn)
    have hra : ({ s with primaryCh := none, received := s.received ++ [res],
                           primaryRes := some res } : HedgeRace R).Racing := by
      refine ⟨?_,nofun,hr.hedgeDone,?_⟩
      · rintro q ⟨⟩
        exact ⟨mem_receive s res,har⟩
      · intro ho
        obtain ⟨a,hne,ha⟩ := hr.hedgeOpen ho
        exact ⟨a,hne,ha.append (har ▸ hne.symm) ha.1 rfl⟩
    have hp : ({ s with primaryCh := none, received := s.received ++ [res],
                           primaryRes := some res } : HedgeRace R).Pending ctx₀ :=
      h.receive hf hre rfl rfl rfl rfl
    split
    · next won hd hwo =>
      split
      · next hok => exact absurd (isNone_iff_eq_none.mp hok) (hr.hedgeDone hd won hwo)
      · exact settle_control hw hp hra
    · exact settle_control hw hp hra

theorem tryRehedge_racing (P : Platform) (v : HedgeView) (res : HedgeResult R)
    (h : s.Pending ctx₀) (hr : s.Racing) (hw : s.wait = .racing)
    (hre : s.rehedged = false → s.arm .rehedge = none) :
    (s.tryRehedge P v res).wait = .racing ∧ (s.tryRehedge P v res).Pending ctx₀ ∧
      (s.tryRehedge P v res).Racing := by
  unfold tryRehedge
  split
  · next hgo =>
    obtain ⟨⟨ho,hn⟩,-⟩ := (Bool.and_eq_true _ _).mp hgo |>.imp_left (Bool.and_eq_true _ _).mp
    rw [Bool.not_eq_true'] at hn
    dsimp only
    split
    · next left hle =>
      -- the third arm is new: nothing received so far can be its result
      have hl : ∀ a, s.launched a = true →
          (s.launchHedge v .rehedge left).launched a = true := by
        intro a ha
        by_cases hb : a = .rehedge
        · subst hb
          rfl
        · exact (congrArg isSome (update_of_ne hb _ _)).trans ha
      have hne : ∀ res ∈ s.received, res.arm ≠ .rehedge := by
        intro res hrs heq
        obtain ⟨r,hr,-⟩ := h.reported res hrs
        cases (heq ▸ hr).symm.trans (hre hn)
      refine ⟨hw,⟨h.ctx,h.merged,h.failed,?_,hl _ h.primary⟩,?_⟩
      · intro res hrs
        obtain ⟨r,hr,hs⟩ := h.reported res hrs
        exact ⟨r,(update_of_ne (hne res hrs) _ _).trans hr,hs⟩
      · refine ⟨hr.primaryDone,?_,nofun,fun _ => ⟨.rehedge,by decide,rfl,hne⟩⟩
        exact fun hno => ⟨hl _ h.primary,(hr.primaryOpen hno).2⟩
    · exact ⟨hw,{ h with },
        { hr with }⟩
  · exact ⟨hw,h,hr⟩

theorem raceHedge_control (P : Platform) (v : HedgeView) (hwa : s.wait = .racing)
    (h : s.Pending ctx₀) (hr : s.Racing) (hrp : s.wires.Reported res.arm res)
    (har : res.arm ≠ .primary) (hre : s.rehedged = false → s.arm .rehedge = none) :
    (raceHedge P v res
      { s with hedgeCh := none, received := s.received ++ [res] }).Control ctx₀ := by
  unfold raceHedge
  split
  · next hru =>
    have hf : res.err ≠ none := by
      intro hn
      rw [hn] at hru
      cases hru
    have hp : ({ s with hedgeCh := none, received := s.received ++ [res] } :
        HedgeRace R).Pending ctx₀ := h.receive hf hrp rfl rfl rfl rfl
    unfold suppressRuledOut
    dsimp only
    split
    · next won hw =>
      obtain ⟨hm,hpr⟩ := hr.primaryDone won hw
      exact .inl ⟨won,hp.won (mem_append_left _ hm) hpr rfl rfl rfl rfl⟩
    · next hn =>
      have ha := hr.primaryOpen hn
      exact ⟨{ hp with },
        ha.append har ha.1 rfl⟩
  · dsimp only
    split
    · next hok =>
      have hn := isNone_iff_eq_none.mp hok
      exact .inl ⟨res,hn ▸ h.wins hrp rfl rfl rfl rfl fun hne => absurd hn hne⟩
    · next hf =>
      have hf : res.err ≠ none := fun hn => hf (isNone_iff_eq_none.mpr hn)
      have hp : ({ s with hedgeCh := none, received := s.received ++ [res],
                            hedgeRes := some res, hedgeDone := true } : HedgeRace R).Pending ctx₀ :=
        h.receive hf hrp rfl rfl rfl rfl
      have hra : ({ s with hedgeCh := none, received := s.received ++ [res],
                             hedgeRes := some res, hedgeDone := true } : HedgeRace R).Racing := by
        refine ⟨?_,?_,?_,nofun⟩
        · intro q hq
          obtain ⟨hm,hpr⟩ := hr.primaryDone q hq
          exact ⟨mem_append_left _ hm,hpr⟩
        · intro hn
          have ha := hr.primaryOpen hn
          exact ha.append har ha.1 rfl
        · rintro _ q ⟨⟩
          exact hf
      obtain ⟨hw',hp',hr'⟩ := tryRehedge_racing P v res hp hra hwa hre
      unfold hedgeFailed
      split
      · next won hw =>
        split
        · next hok =>
          obtain ⟨hm,-⟩ := hr.primaryDone won hw
          exact absurd (isNone_iff_eq_none.mp hok) (h.failed won hm)
        · exact settle_control hw' hp' hr'
      · exact settle_control hw' hp' hr'

structure SameControl (s s' : HedgeRace R) : Prop where
  ctx : s'.ctx = s.ctx
  wait : s'.wait = s.wait
  launched : ∀ a, s'.launched a = s.launched a
  reported : ∀ a res, s.wires.Reported a res → s'.wires.Reported a res
  received : s'.received = s.received
  merged : s'.merged = s.merged
  primaryRes : s'.primaryRes = s.primaryRes
  hedgeRes : s'.hedgeRes = s.hedgeRes
  hedgeDone : s'.hedgeDone = s.hedgeDone
  ended : ∀ e, s.ended = some e → s'.ended = some e

theorem Awaited.same (h : s.Awaited a) (hs : SameControl s s') : s'.Awaited a :=
  ⟨(hs.launched a).trans h.1,fun r hr => h.2 r (hs.received ▸ hr)⟩

theorem Pending.same (h : s.Pending ctx₀) (hs : SameControl s s') : s'.Pending ctx₀ where
  ctx := hs.ctx.trans h.ctx
  merged := hs.merged.trans h.merged
  failed r hr := h.failed r (hs.received ▸ hr)
  reported r hr := hs.reported r.arm r (h.reported r (hs.received ▸ hr))
  primary := (hs.launched .primary).trans h.primary

theorem Racing.same (h : s.Racing) (hs : SameControl s s') : s'.Racing where
  primaryDone res hres := by
    rw [hs.received]
    exact h.primaryDone res (hs.primaryRes ▸ hres)
  primaryOpen hnone := (h.primaryOpen (hs.primaryRes ▸ hnone)).same hs
  hedgeDone hd res hres := h.hedgeDone (hs.hedgeDone ▸ hd) res (hs.hedgeRes ▸ hres)
  hedgeOpen hopen := by
    obtain ⟨a,hne,ha⟩ := h.hedgeOpen (hs.hedgeDone ▸ hopen)
    exact ⟨a,hne,ha.same hs⟩

theorem Won.same (h : s.Won ctx₀ err res) (hs : SameControl s s') :
    s'.Won ctx₀ err res where
  __ := h
  received := hs.received ▸ h.received
  reported := hs.reported res.arm res h.reported
  merged := hs.merged.trans h.merged
  ctx := hs.ctx.trans h.ctx
  others r hr := h.others r (hs.received ▸ hr)

theorem GaveUp.same (h : s.GaveUp ctx₀ err) (hs : SameControl s s') :
    s'.GaveUp ctx₀ err where
  merged := hs.merged.trans h.merged
  ended := by
    obtain ⟨e,picks,he,hc,her⟩ := h.ended
    exact ⟨e,picks,hs.ended e he,hs.ctx.trans hc,her⟩
  failed r hr := h.failed r (hs.received ▸ hr)
  awaited := by
    obtain ⟨a,ha⟩ := h.awaited
    exact ⟨a,ha.same hs⟩

theorem Control.same (h : s.Control ctx₀) (hs : SameControl s s') : s'.Control ctx₀ := by
  unfold Control at h ⊢
  rw [hs.wait]
  cases hw : s.wait with
  | delay =>
    rw [hw] at h
    obtain ⟨hp,hrc,hh,hre,hpr,hd⟩ := h
    exact ⟨hp.same hs,hs.received.trans hrc,(hs.launched _).trans hh,
      (hs.launched _).trans hre,hs.primaryRes.trans hpr,hs.hedgeDone.trans hd⟩
  | suppressed =>
    rw [hw] at h
    exact ⟨h.1.same hs,hs.received.trans h.2⟩
  | racing =>
    rw [hw] at h
    obtain ⟨hp,hr,hb⟩ := h
    refine ⟨hp.same hs,hr.same hs,?_⟩
    rwa [hs.primaryRes,hs.hedgeDone]
  | ruledOut =>
    rw [hw] at h
    exact ⟨h.1.same hs,h.2.same hs⟩
  | returned err =>
    rw [hw] at h
    rcases h with ⟨res,hwo⟩ | hg
    · exact .inl ⟨res,hwo.same hs⟩
    · exact .inr (hg.same hs)

theorem Control.awaited (h : s.Control ctx₀) (hw : ∀ err, s.wait ≠ .returned err) :
    s.Pending ctx₀ ∧ ∃ a, s.Awaited a := by
  unfold Control at h
  cases hwa : s.wait with
  | delay =>
    rw [hwa] at h
    refine ⟨h.1,.primary,h.1.primary,fun r hr => ?_⟩
    rw [h.2.1] at hr
    cases hr
  | suppressed =>
    rw [hwa] at h
    refine ⟨h.1,.primary,h.1.primary,fun r hr => ?_⟩
    rw [h.2] at hr
    cases hr
  | racing =>
    rw [hwa] at h
    obtain ⟨hp,hr,hb⟩ := h
    cases hpr : s.primaryRes with
    | none => exact ⟨hp,.primary,hr.primaryOpen hpr⟩
    | some res =>
      obtain ⟨a,-,ha⟩ := hr.hedgeOpen (hb (isSome_of_eq_some hpr))
      exact ⟨hp,a,ha⟩
  | ruledOut =>
    rw [hwa] at h
    exact ⟨h.1,.primary,h.2⟩
  | returned err => exact absurd hwa (hw err)

theorem seeDone_gaveUp {e : ContextEnd} (h : s.Control ctx₀) (he : s.ended = some e)
    (hs : s.seeDone e = some s') :
    s'.wires = s.wires ∧ ∃ err, s'.wait = .returned err ∧ s'.GaveUp ctx₀ err := by
  unfold seeDone at hs
  split at hs
  · cases hs
  · next hw =>
    obtain ⟨hp,a,ha⟩ := h.awaited hw
    cases hs
    refine ⟨rfl,_,rfl,hp.merged,⟨e,s.picksInFlight,he,?_,?_⟩,hp.failed,a,ha⟩
    · rw [← hp.ctx]
      rfl
    · rfl

theorem receivePrimary_control (h : s.Control ctx₀) (ha : res.arm = .primary)
    (hr : s.wires.Reported res.arm res)
    (hs : s.receivePrimary res = some s') : s'.Control ctx₀ := by
  unfold Control at h
  unfold receivePrimary at hs
  dsimp only at hs
  split at hs
  · next hw =>
    rw [hw] at h
    cases hs
    split
    · exact .inl ⟨res,h.1.wins hr rfl rfl rfl rfl fun _ => ha⟩
    · exact .inl ⟨res,h.1.wins hr rfl rfl rfl rfl fun _ => ha⟩
  · next hw =>
    rw [hw] at h
    cases hs
    exact .inl ⟨res,h.1.wins hr rfl rfl rfl rfl fun _ => ha⟩
  · next hw =>
    rw [hw] at h
    cases hs
    exact racePrimary_control hw h.1 h.2.1 ha hr
  · next hw =>
    rw [hw] at h
    cases hs
    exact .inl ⟨res,h.1.wins hr rfl rfl rfl rfl fun _ => ha⟩
  · cases hs

theorem delayElapsed_launched (v : HedgeView) (endpoints : List EndpointAddr)
    (h : s.Pending ctx₀) (hre : s.received = []) (hpr : s.primaryRes = none)
    (hd : s.hedgeDone = false) :
    ({ s.launchHedge v .hedge endpoints with wait := .racing } : HedgeRace R).Control ctx₀ := by
  have hn : ∀ r ∈ s.received, False := by
    rw [hre]
    exact fun r hr => not_mem_nil hr
  refine ⟨{ h with reported := fun r hr => (hn r hr).elim },
    ⟨?_,?_,?_,?_⟩,fun _ => hd⟩
  · intro r hr
    cases hpr.symm.trans hr
  · exact fun _ => ⟨h.primary,fun r hr => (hn r hr).elim⟩
  · intro ht
    cases hd.symm.trans ht
  · exact fun _ => ⟨.hedge,by decide,rfl,fun r hr => (hn r hr).elim⟩

theorem delayElapsed_sound (P : Platform) (v : HedgeView) (hw : s.wires.Sound)
    (hwa : s.wait = .delay) (h : s.Control ctx₀) :
    (s.delayElapsed P v).wires.Sound ∧ (s.delayElapsed P v).Control ctx₀ := by
  unfold Control at h
  rw [hwa] at h
  obtain ⟨hp,hr,hh,hre,hpr,hd⟩ := h
  have hh := not_isSome_iff_eq_none.mp (Bool.eq_false_iff.mp hh)
  have hre := not_isSome_iff_eq_none.mp (Bool.eq_false_iff.mp hre)
  unfold delayElapsed
  split
  · exact ⟨hw,{ hp with },hr⟩
  · exact ⟨hw.launch hh hre rfl,delayElapsed_launched v _ hp hr hpr hd⟩

structure Sound (ctx₀ : RelayContext R) (s : HedgeRace R) : Prop where
  wires : s.wires.Sound
  control : s.Control ctx₀

theorem launched_setArm {b : HedgeArm} (h : s.arm a = some r) :
    (s.setArm a r').launched b = s.launched b := Wires.isSome_setArm (w := s.wires) h

theorem SameControl.setArm (ha : s.arm a = some r)
    (hr : ∀ res, r.stage ≠ .reported res) : SameControl s (s.setArm a r') :=
  ⟨rfl,rfl,fun _ => launched_setArm ha,fun _ _ h => h.setArm ha hr,rfl,rfl,rfl,rfl,rfl,fun _ => id⟩

theorem sound_setArm (hs : s.Sound ctx₀) (ha : s.arm a = some r)
    (hr : r.stage = .running) (ho : ∀ res, r'.stage = .returned res → res.arm = a) :
    (s.setArm a r').Sound ctx₀ where
  wires := hs.wires.advance ha (by intro res hre; cases hr.symm.trans hre) ho
  control := hs.control.same (.setArm ha (by intro res hre; cases hr.symm.trans hre))

theorem SameControl.send (h : SameControl s s') :
    SameControl s (s'.send a res) := by
  cases a with
  | primary | hedge | rehedge =>
    exact { h with }

theorem wires_report :
    ((s.setArm a { r with stage := .reported res }).send a res).wires = s.wires.report a r res := by
  cases a with
  | primary | hedge | rehedge => rfl

theorem select_own {v : SelectView} (hr : r.stage = .running) :
    ∀ res, (r.select a v).stage = .returned res → res.arm = a := by
  intro res hre
  unfold ArmRun.select at hre
  dsimp only at hre
  split at hre
  · cases hr.symm.trans hre
  · cases hre
    rfl

theorem receiveHedge_sound (P : Platform) (v : HedgeView) (hs : s.Sound ctx₀)
    (hch : s.hedgeCh = some res) (h : s.receiveHedge P v res = some s') : s'.Sound ctx₀ := by
  unfold receiveHedge at h
  split at h
  · next hw =>
    cases h
    have hc := hs.control
    unfold Control at hc
    rw [hw] at hc
    obtain ⟨hr,hsi⟩ := hs.wires.hedge res hch
    refine ⟨hs.wires.receiveHedge hch (raceHedge_wires P v res _),
      raceHedge_control P v hw hc.1 hc.2.1 hr ?_ ?_⟩
    · rcases hsi with ⟨ha,-⟩ | ha
      · rw [ha]
        decide
      · rw [ha]
        decide
    · intro hre
      cases ht : s.arm .rehedge with
      | none => rfl
      | some r => cases hre.symm.trans (hs.wires.rehedge (isSome_of_eq_some ht)).1
  · cases h

theorem sound_step {P : Platform} {a : HedgeAct R} (hs : s.Sound ctx₀)
    (h : s.step P a = some s') : s'.Sound ctx₀ := by
  cases a with
  | select a v =>
    obtain ⟨r,ha,h⟩ := bind_eq_some_iff.mp h
    split at h
    · next hr _ =>
      cases h
      exact sound_setArm hs ha hr (select_own hr)
    · cases h
  | finish a response heuristicResult ctxErr err =>
    obtain ⟨r,ha,h⟩ := bind_eq_some_iff.mp h
    split at h
    · next hr =>
      cases h
      refine sound_setArm hs ha hr fun res hrs => ?_
      cases hrs
      rfl
    · cases h
  | report a =>
    obtain ⟨r,ha,h⟩ := bind_eq_some_iff.mp h
    split at h
    · next res hr _ =>
      cases h
      refine ⟨?_,hs.control.same (SameControl.setArm ha ?_).send⟩
      · rw [wires_report]
        exact hs.wires.report ha hr
      · intro q hq
        cases hr.symm.trans hq
    · cases h
  | contextEnds e =>
    obtain ⟨hn,rfl⟩ := Run.guard_pos h
    refine ⟨hs.wires,hs.control.same
      ⟨rfl,rfl,fun _ => rfl,fun _ _ => id,rfl,rfl,rfl,rfl,rfl,fun e' he' => ?_⟩⟩
    rw [he'] at hn
    cases hn
  | delayElapses v =>
    simp [step] at h
    split at h
    · next hwa =>
      cases h
      obtain ⟨hw,hc⟩ := delayElapsed_sound P v hs.wires hwa hs.control
      exact ⟨hw,hc⟩
    · cases h
  | receivePrimary =>
    obtain ⟨res,hch,h⟩ := bind_eq_some_iff.mp h
    obtain ⟨har,hre⟩ := hs.wires.primary res hch
    rw [← har] at hre
    refine ⟨?_,receivePrimary_control hs.control har hre h⟩
    rw [receivePrimary_wires h]
    exact ⟨hs.wires.own,(fun _ hq => by cases hq),hs.wires.hedge,hs.wires.rehedge⟩
  | receiveHedge v =>
    obtain ⟨res,hch,h⟩ := bind_eq_some_iff.mp h
    exact receiveHedge_sound P v hs hch h
  | seeDone =>
    obtain ⟨e,he,h⟩ := bind_eq_some_iff.mp h
    obtain ⟨hw,err,hwa,hg⟩ := seeDone_gaveUp hs.control he h
    refine ⟨hw ▸ hs.wires,?_⟩
    unfold Control
    rw [hwa]
    exact .inr hg

theorem sound_start (g : HedgeGate) (ctx : RelayContext R) :
    (start g ctx).Sound (start g ctx).ctx := by
  have har : ∀ a r, (start g ctx).arm a = some r → r.stage = .running := by
    intro a r ha
    cases a with
    | primary =>
      cases ha
      rfl
    | hedge | rehedge => cases ha
  refine ⟨⟨?_,?_,?_,?_⟩,⟨rfl,rfl,?_,?_,rfl⟩,rfl,rfl,rfl,rfl,rfl⟩
  · intro a r res ha hr
    cases (har a r ha).symm.trans hr
  · rintro res ⟨⟩
  · rintro res ⟨⟩
  · nofun
  · rintro res ⟨⟩
  · rintro res ⟨⟩

theorem sound_of_reaches {P : Platform} {g : HedgeGate} {ctx : RelayContext R}
    (h : Run.Reaches (step P) (fun _ _ => True) (start g ctx) s) : s.Sound (start g ctx).ctx :=
  h.invariant (Sound (start g ctx).ctx) (sound_start g ctx) fun _ _ _ hs _ hst =>
    sound_step hs hst

theorem Sound.returned (h : s.Sound ctx₀) (hw : s.wait = .returned err) :
    (∃ res, s.Won ctx₀ err res) ∨ s.GaveUp ctx₀ err := by
  have hc := h.control
  unfold Control at hc
  rwa [hw] at hc

theorem Sound.merged_le (h : s.Sound ctx₀) : s.merged.length ≤ 1 := by
  cases hw : s.wait with
  | returned err =>
    rcases h.returned hw with ⟨res,hwo⟩ | hg
    · rw [hwo.merged]
      exact Nat.le_refl 1
    · rw [hg.merged]
      exact Nat.zero_le 1
  | _ =>
    rw [(h.control.awaited (by rw [hw]; exact fun _ => by nofun)).1.merged]
    exact Nat.zero_le 1

theorem Sound.report_enabled (h : s.Sound ctx₀) (P : Platform)
    (ha : s.arm a = some r) (hr : r.stage = .returned res) :
    (s.step P (.report a)).isSome = true := by
  have hid : s.channel a = none := by
    have hw := h.wires.channel_idle ha hr
    cases a with
    | primary | hedge | rehedge => exact hw
  simp [step,ha,hr,hid]

theorem hedge_race_settles_as_its_merged_arm (P : Platform) (g : HedgeGate) (ctx : RelayContext R)
    (s : HedgeRace R) (h : Run.Reaches (step P) (fun _ _ => True) (start g ctx) s) :
    (∀ err, s.wait = .returned err →
      (err = none ↔ ∃ res ∈ s.received, s.merged = [res] ∧ res.err = none) ∧
      (∀ res ∈ s.received, res.err = none →
        err = none ∧ s.merged = [res] ∧ s.ctx = mergeContext (start g ctx).ctx res.ctx) ∧
      ((∀ res ∈ s.received, res.err ≠ none) →
        (s.ended = none ∨ ∀ a, s.launched a = true → ∃ res ∈ s.received, res.arm = a) →
        ∃ res ∈ s.received, res.arm = .primary ∧ err = res.err ∧ s.merged = [res] ∧
          s.ctx = mergeContext (start g ctx).ctx res.ctx) ∧
      (s.merged = [] ↔ s.GaveUp (start g ctx).ctx err)) ∧
    (∀ s', s.step P .seeDone = some s' →
      ∃ err, s'.wait = .returned err ∧ s'.GaveUp (start g ctx).ctx err) ∧
    s.merged.length ≤ 1 ∧
    ∀ a r res, s.arm a = some r → r.stage = .returned res →
      (s.step P (.report a)).isSome = true := by
  have hs := sound_of_reaches h
  refine ⟨fun err hwa => ?_,fun s' hst => ?_,hs.merged_le,
    fun a r res ha hr => hs.report_enabled P ha hr⟩
  · rcases hs.returned hwa with ⟨won,hw⟩ | hg
    · refine ⟨⟨?_,?_⟩,?_,?_,?_⟩
      · exact fun hn => ⟨won,hw.received,hw.merged,hw.err ▸ hn⟩
      · rintro ⟨res,-,hm,hok⟩
        cases hm.symm.trans hw.merged
        exact hw.err.trans hok
      · intro res hre hok
        cases hw.others res hre hok
        exact ⟨hw.err.trans hok,hw.merged,hw.ctx⟩
      · intro hf _
        exact ⟨won,hw.received,hw.primary (hf won hw.received),hw.err,hw.merged,hw.ctx⟩
      · exact ⟨fun hm => (by cases hm.symm.trans hw.merged),fun hg => hg.merged⟩
    · obtain ⟨e,picks,he,-,her⟩ := hg.ended
      refine ⟨⟨?_,?_⟩,?_,?_,iff_of_true hg.merged hg⟩
      · intro hn
        cases her.symm.trans hn
      · rintro ⟨res,-,hm,-⟩
        cases hm.symm.trans hg.merged
      · exact fun res hre hok => absurd hok (hg.failed res hre)
      · rintro - (hn | hal)
        · cases hn.symm.trans he
        · obtain ⟨a,hl,haw⟩ := hg.awaited
          obtain ⟨res,hre,har⟩ := hal a hl
          exact absurd har (haw res hre)
  · obtain ⟨e,he,hst⟩ := bind_eq_some_iff.mp hst
    exact (seeDone_gaveUp hs.control he hst).2

end

def hosts : List EndpointAddr :=
  ["supplierA-https://rpc.alpha.net".toList,"supplierB-https://rpc.beta.net".toList,
    "supplierC-https://rpc.gamma.net".toList]

def firstOf : SelectView where
  affinity := none
  provider := none
  broken := none
  blocked := none
  vouched := none
  plugin := none
  ruledOut := none
  selectBest l := l.headD []
  plugin_subset _ h := by cases h
  best_mem := SelectView.headD_mem

def openGate : HedgeGate := ⟨false,true,500,0,1,none,0⟩

def hedgedCall : RelayContext Nat := ⟨some 3000,[],hosts,none,none,none,[],[]⟩

def rehedging : HedgeView := ⟨500,.new,false,true,none⟩

def refused : GoError := .newRelayError .rateLimit "relay refused".toList none true

def timedOut : GoError := .newRelayError .transport "relay send failed".toList none true

def fails (a : HedgeArm) (err : GoError) : List (HedgeAct Nat) :=
  [.finish a none none (some err) (some err),.report a]

def thirdArmInFlight : List (HedgeAct Nat) :=
  [.select .primary firstOf,.delayElapses rehedging,.select .hedge firstOf] ++
    fails .hedge refused ++ [.receiveHedge rehedging,.select .rehedge firstOf] ++
    fails .primary timedOut ++ [.receivePrimary,.contextEnds .deadlineExceeded,.seeDone]

def report (s : HedgeRace Nat) :
    HedgeWait × List (HedgeArm × Option GoError) × List HedgeArm × EndpointAddr :=
  (s.wait,s.received.map fun res => (res.arm,res.err),s.merged.map HedgeResult.arm,s.ctx.endpoint)

theorem context_end_leaves_the_failed_primary_unmerged :
    ∃ s err, Run.Reaches (step asciiPlatform) (fun _ _ => True) (start openGate hedgedCall) s ∧
      report s = (.returned (some err),[(.hedge,some refused),(.primary,some timedOut)],[],
        "supplierA-https://rpc.alpha.net".toList) ∧ err ≠ timedOut := by
  have hru : (Run.run (step asciiPlatform) (fun _ _ => True) (start openGate hedgedCall)
      thirdArmInFlight).map report = some
        (.returned (some (.newRelayError .transport ("hedge: attempt deadline exceeded with " ++
            "rpc.alpha.net, rpc.gamma.net in flight").toList
            (some ContextEnd.deadlineExceeded.err) true)),
          [(.hedge,some refused),(.primary,some timedOut)],[],
          "supplierA-https://rpc.alpha.net".toList) := by decide +kernel
  obtain ⟨s,hs,hr⟩ := map_eq_some_iff.mp hru
  exact ⟨s,_,Run.Reaches.start.run hs,hr,by decide⟩

def hedgeAnswers : List (HedgeAct Nat) :=
  [.select .primary firstOf,.delayElapses rehedging,.select .hedge firstOf] ++
    fails .primary timedOut ++ [.receivePrimary,.finish .hedge (some 7) none none none,
      .report .hedge,.receiveHedge rehedging]

theorem hedge_answers_after_the_primary_failed :
    ∃ s res, report s = (.returned none,[(.primary,some timedOut),(.hedge,none)],[.hedge],
        "supplierB-https://rpc.beta.net".toList) ∧
      res ∈ s.received ∧ s.merged = [res] ∧ res.err = none ∧
      s.ctx = mergeContext (start openGate hedgedCall).ctx res.ctx ∧ s.merged.length ≤ 1 := by
  have hru : (Run.run (step asciiPlatform) (fun _ _ => True) (start openGate hedgedCall)
      hedgeAnswers).map report = some (.returned none,[(.primary,some timedOut),(.hedge,none)],
        [.hedge],"supplierB-https://rpc.beta.net".toList) := by decide +kernel
  obtain ⟨s,hs,hr⟩ := map_eq_some_iff.mp hru
  have hw : s.wait = .returned none := congrArg Prod.fst hr
  obtain ⟨hre,-,hm,-⟩ := hedge_race_settles_as_its_merged_arm asciiPlatform openGate
    hedgedCall s (Run.Reaches.start.run hs)
  obtain ⟨hif,hsu,-⟩ := hre none hw
  obtain ⟨res,hrs,ho,hok⟩ := hif.mp rfl
  exact ⟨s,res,hr,hrs,ho,hok,(hsu res hrs hok).2.2,hm⟩

end SageGateway.HedgeRace
