import SageGateway.Bridge.Concurrent
import SageGateway.Lib.Run

namespace SageGateway

open List Option

namespace BridgeEvent

def endpointUsed : BridgeEvent → Option Nat
  | .started conn _ _ => some conn
  | .delivered conn => some conn
  | .counted conn => some conn
  | _ => none

def lossStart : BridgeEvent → Option Int
  | .started _ now false => some now
  | _ => none

def lossStamp : BridgeEvent → Option Int
  | .replaced _ now false => some now
  | _ => none

def Clean (newer older : BridgeEvent) : Prop :=
  ∀ conn now planned, older = .replaced conn now planned → newer.endpointUsed ≠ some conn

end BridgeEvent

def lossStarts (log : List BridgeEvent) : List Int := log.filterMap BridgeEvent.lossStart

def lossStamps (log : List BridgeEvent) : List Int := log.filterMap BridgeEvent.lossStamp

structure LoggedBridge where
  bridge : SharedBridge
  log : List BridgeEvent

namespace LoggedBridge

def start (clock : Int) : LoggedBridge := ⟨.start clock,[]⟩

def step (o : RebindOptions) (s : LoggedBridge) (a : SharedBridge.Act) : Option LoggedBridge :=
  (s.bridge.step o a).map fun r => ⟨r.1,r.2 ++ s.log⟩

def startsLoss (o : RebindOptions) (s : LoggedBridge) (a : SharedBridge.Act) : Bool :=
  (s.bridge.step o a).any fun r => !(lossStarts r.2).isEmpty

def Unabandoned (o : RebindOptions) (s : LoggedBridge) (a : SharedBridge.Act) : Prop :=
  s.startsLoss o a = true → .abandoned false ∉ s.log

instance (o : RebindOptions) (s : LoggedBridge) (a : SharedBridge.Act) :
    Decidable (Unabandoned o s a) :=
  inferInstanceAs (Decidable (_ → _))

structure Separated (s : LoggedBridge) : Prop where
  sound : s.bridge.Sound
  below : ∀ conn now planned, .replaced conn now planned ∈ s.log → conn < s.bridge.endpointConn
  clean : s.log.Pairwise BridgeEvent.Clean
  unlimited : .limited true ∉ s.log

variable {o : RebindOptions} {s s' : LoggedBridge} {a : SharedBridge.Act}

theorem separated_start (clock : Int) : Separated (start clock) where
  sound := SharedBridge.sound_start clock
  below conn now planned h := by cases h
  clean := .nil
  unlimited h := by cases h

variable {b : SharedBridge}

theorem Separated.push (h : Separated s) (hs : b.Sound) {e : BridgeEvent}
    (hc : s.bridge.endpointConn ≤ b.endpointConn)
    (hr : ∀ conn now planned, e = .replaced conn now planned → conn < b.endpointConn)
    (hu : ∀ conn, e.endpointUsed = some conn → conn = s.bridge.endpointConn)
    (hl : e ≠ .limited true) : Separated ⟨b,e :: s.log⟩ where
  sound := hs
  below conn now planned hmem := by
    rcases mem_cons.mp hmem with heq | hmem
    · exact hr conn now planned heq.symm
    · exact (h.below conn now planned hmem).trans_le hc
  clean := by
    refine pairwise_cons.mpr ⟨?_,h.clean⟩
    rintro older hmem conn now planned rfl hc'
    have hlt := h.below conn now planned hmem
    rw [hu conn hc'] at hlt
    exact Nat.lt_irrefl _ hlt
  unlimited hmem := by
    rcases mem_cons.mp hmem with heq | hmem
    · exact hl heq.symm
    · exact h.unlimited hmem

theorem Separated.step (h : Separated s) (hst : s.step o a = some s') : Separated s' := by
  obtain ⟨⟨b,evs⟩,hr,rfl⟩ := map_eq_some_iff.mp hst
  obtain ⟨hs,hre⟩ := SharedBridge.follows_step h.sound hr
  cases hre with
  | quiet _ hco =>
    exact ⟨hs,fun conn now planned he => hco ▸ h.below conn now planned he,h.clean,
      h.unlimited⟩
  | started planned _ hco =>
    exact h.push hs hco.ge (fun _ _ _ he => by cases he)
      (fun _ hc => (some.inj hc).symm) (fun he => by cases he)
  | limited _ hco | abandoned planned _ hco =>
    exact h.push hs hco.ge (fun _ _ _ he => by cases he) (fun _ hc => by cases hc)
      (fun he => by cases he)
  | replaced planned _ hco =>
    have hlt : s.bridge.endpointConn < b.endpointConn := hco ▸ Nat.lt_succ_self _
    exact h.push hs hlt.le (fun _ _ _ he => by cases he; exact hlt)
      (fun _ hc => by cases hc) (fun he => by cases he)
  | delivered _ hco | counted _ hco =>
    exact h.push hs hco.ge (fun _ _ _ he => by cases he)
      (fun _ hc => (some.inj hc).symm) (fun he => by cases he)

def pendingStamp (rebinding : Option Bool) (clock : Int) : List Int :=
  if rebinding = some false then [clock] else []

structure Windowed (o : RebindOptions) (s : LoggedBridge) : Prop where
  sound : s.bridge.Sound
  spaced : SlidingWindow.Spaced Bridge.rebindWindow o.rebindLimit.toNat (lossStarts s.log)
  kept : SlidingWindow.Kept Bridge.rebindWindow s.bridge.clock (lossStamps s.log) s.bridge.losses
  paired : .abandoned false ∉ s.log → List.Forall₂ (· ≤ ·) (lossStarts s.log)
    (pendingStamp s.bridge.rebinding s.bridge.clock ++ lossStamps s.log)

theorem windowed_start (o : RebindOptions) (clock : Int) : Windowed o (start clock) where
  sound := SharedBridge.sound_start clock
  spaced := trivial
  kept := SlidingWindow.Kept.nil _ _
  paired _ := .nil

theorem forall2_pendingStamp {rebinding : Option Bool} {clock later : Int} (hle : clock ≤ later)
    {starts stamps : List Int}
    (h : List.Forall₂ (· ≤ ·) starts (pendingStamp rebinding clock ++ stamps)) :
    List.Forall₂ (· ≤ ·) starts (pendingStamp rebinding later ++ stamps) := by
  unfold pendingStamp at h ⊢
  split at h
  · next ho =>
    rw [if_pos ho]
    cases h with
    | cons hs hr => exact .cons (hs.trans hle) hr
  · next ho =>
    rwa [if_neg ho]

theorem Windowed.kept_prunes (h : Windowed o s)
    (hp : SharedBridge.Prunes s.bridge b) :
    SlidingWindow.Kept Bridge.rebindWindow s.bridge.clock (lossStamps s.log) b.losses := by
  rcases hp with heq | ⟨now,hn,heq⟩
  · rw [heq]
    exact h.kept
  · rw [heq]
    exact h.kept.recent hn

theorem Windowed.push (h : Windowed o s) (hso : b.Sound) {e : BridgeEvent}
    (hsa : e.lossStart = none) (hsm : e.lossStamp = none)
    (hc : b.clock = s.bridge.clock) (hl : SharedBridge.Prunes s.bridge b)
    (ho : e ≠ .abandoned false →
      pendingStamp b.rebinding b.clock = pendingStamp s.bridge.rebinding s.bridge.clock) :
    Windowed o ⟨b,e :: s.log⟩ := by
  have hs : lossStarts (e :: s.log) = lossStarts s.log := filterMap_cons_none hsa
  have hst : lossStamps (e :: s.log) = lossStamps s.log := filterMap_cons_none hsm
  refine ⟨hso,?_,?_,?_⟩
  · exact hs.symm ▸ h.spaced
  · rw [hc,hst]
    exact h.kept_prunes hl
  · intro hm
    obtain ⟨hne,hm⟩ := not_or.mp (mem_cons.not.mp hm)
    rw [hs,hst,ho fun he => hne he.symm]
    exact h.paired hm

theorem Windowed.start_loss (h : Windowed o s) (hs : b.Sound)
    (hc : b.clock = s.bridge.clock) (hl : SharedBridge.Prunes s.bridge b)
    (ho : s.bridge.rebinding = none) (ho' : b.rebinding = some false)
    (hli : b.losses.length < o.rebindLimit) (hm : .abandoned false ∉ s.log) (conn : Nat) :
    Windowed o ⟨b,.started conn s.bridge.clock false :: s.log⟩ := by
  have hk := h.kept_prunes hl
  have hp : List.Forall₂ (· ≤ ·) (lossStarts s.log) (lossStamps s.log) := by
    simpa [pendingStamp,ho] using h.paired hm
  refine ⟨hs,⟨?_,h.spaced⟩,hc.symm ▸ hk,fun _ => ?_⟩
  · have hle := hk.recent_le hp
    show (SlidingWindow.recent _ s.bridge.clock (lossStarts s.log)).length < _
    omega
  · rw [ho',hc]
    exact .cons (Int.le_refl _) hp

theorem Windowed.replace_loss (h : Windowed o s) (hs : b.Sound)
    (hc : b.clock = s.bridge.clock) (hl : b.losses = s.bridge.losses ++ [s.bridge.clock])
    (ho : s.bridge.rebinding = some false) (ho' : b.rebinding = none) (conn : Nat) :
    Windowed o ⟨b,.replaced conn s.bridge.clock false :: s.log⟩ := by
  refine ⟨hs,h.spaced,?_,?_⟩
  · rw [hc,hl]
    exact h.kept.stamp (by decide)
  · intro hm
    have hp := h.paired (not_or.mp (mem_cons.not.mp hm)).2
    rw [ho] at hp
    rw [ho']
    exact hp

theorem Windowed.step (h : Windowed o s) (hok : Unabandoned o s a)
    (hst : s.step o a = some s') : Windowed o s' := by
  obtain ⟨⟨b,evs⟩,hr,rfl⟩ := map_eq_some_iff.mp hst
  obtain ⟨hs,hre⟩ := SharedBridge.follows_step h.sound hr
  cases hre with
  | quiet hc _ hl ho =>
    refine ⟨hs,h.spaced,(h.kept_prunes hl).mono hc,fun hm => ?_⟩
    exact ho.symm ▸ forall2_pendingStamp hc (h.paired hm)
  | started planned hc _ hl ho ho' hli =>
    cases planned with
    | false =>
      refine h.start_loss hs hc hl ho ho' (hli rfl) (hok ?_) _
      rw [startsLoss,hr]
      rfl
    | true =>
      refine h.push hs rfl rfl hc hl fun _ => ?_
      rw [ho,ho']
      rfl
  | limited hc _ hl ho =>
    exact h.push hs rfl rfl hc hl fun _ => by rw [ho,hc]
  | abandoned planned hc _ hl ho ho' =>
    refine h.push hs rfl rfl hc (Or.inl hl) fun hne => ?_
    cases planned with
    | false => exact absurd rfl hne
    | true =>
      rw [ho,ho']
      rfl
  | replaced planned hc _ hl ho ho' =>
    cases planned with
    | false => exact h.replace_loss hs hc hl ho ho' _
    | true =>
      refine h.push hs rfl rfl hc (Or.inl hl) fun _ => ?_
      rw [ho,ho']
      rfl
  | delivered hc _ hl ho | counted hc _ hl ho =>
    exact h.push hs rfl rfl hc (Or.inl hl) fun _ => by rw [ho,hc]

theorem rebinds_bounded_and_clean (o : RebindOptions) (clock : Int) :
    (∀ s, Run.Reaches (step o) (fun _ _ => True) (start clock) s →
      .limited true ∉ s.log ∧ s.log.Pairwise BridgeEvent.Clean) ∧
    (∀ s, Run.Reaches (step o) (Unabandoned o) (start clock) s → ∀ t,
      (SlidingWindow.within Bridge.rebindWindow t (lossStarts s.log)).length ≤
        o.rebindLimit.toNat) := by
  constructor
  · intro s hs
    have h := hs.invariant Separated (separated_start clock) fun _ _ _ h _ hst => h.step hst
    exact ⟨h.unlimited,h.clean⟩
  · intro s hs t
    have h := hs.invariant (Windowed o) (windowed_start o clock)
      fun _ _ _ h hok hst => h.step hok hst
    exact h.spaced.within_le t

def defaultOptions : RebindOptions := ⟨Bridge.defaultRebindLimit,true,true⟩

def replacedLoss (n conn : Nat) : List SharedBridge.Act :=
  .endpointGone n conn :: List.replicate 5 (.advance n true)

def queuedStall : List SharedBridge.Act :=
  replacedLoss 1 0 ++ replacedLoss 2 1 ++
    [.endpointGone 3 2,.advance 3 true,.advance 3 true,.advance 3 true,.advance 3 true,
      .replaceEndpoint 4 false,.advance 4 true,.advance 3 false,
      .advance 4 true,.advance 4 true,.advance 4 true]

theorem failed_rebind_lets_queued_loss_start_a_fourth :
    ∃ s, Run.Reaches (step defaultOptions) (fun _ _ => True) (start 0) s ∧
      defaultOptions.rebindLimit.toNat <
        (SlidingWindow.within Bridge.rebindWindow 0 (lossStarts s.log)).length :=
  Run.reaches queuedStall (by decide +kernel)

def lossesThenLimit : List SharedBridge.Act :=
  replacedLoss 1 0 ++ replacedLoss 2 1 ++ replacedLoss 3 2 ++
    [.replaceEndpoint 4 true,.advance 4 true,.advance 4 true,.advance 4 true,.advance 4 true,
      .advance 4 true,.read 3,.read 4,.route,.settle .sent,.route,.settle .sent,.observe,
      .endpointGone 5 4,.advance 5 true,.advance 5 true,.advance 5 true,.advance 5 true]

theorem three_losses_spend_the_limit :
    ∃ s : LoggedBridge, lossStarts s.log = [0,0,0] ∧
      s.log.head? = some (.limited false) ∧ .delivered 4 ∈ s.log ∧
      (.limited true ∉ s.log ∧ s.log.Pairwise BridgeEvent.Clean) ∧
      ∀ t, (SlidingWindow.within Bridge.rebindWindow t (lossStarts s.log)).length ≤
        defaultOptions.rebindLimit.toNat := by
  obtain ⟨s,hr,hst,hh,hd⟩ : ∃ s, Run.Reaches (step defaultOptions) (Unabandoned defaultOptions)
      (start 0) s ∧ lossStarts s.log = [0,0,0] ∧ s.log.head? = some (.limited false) ∧
      .delivered 4 ∈ s.log := Run.reaches lossesThenLimit (by decide +kernel)
  obtain ⟨hc,hb⟩ := rebinds_bounded_and_clean defaultOptions 0
  refine ⟨s,hst,hh,hd,hc s ?_,hb s hr⟩
  exact hr.mono fun _ _ _ => trivial

end LoggedBridge

end SageGateway
