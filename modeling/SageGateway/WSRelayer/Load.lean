import SageGateway.WSRelayer
import SageGateway.Lib.Run

namespace SageGateway

open Option GoMap

namespace WSConn

variable (c : WSConn)

def countedOn (ep : EndpointAddr) : Bool := c.counted && c.current = ep

def unbound (p : Nat) : Bool := !c.started && c.currentProc = p

def unreleased (p : Nat) : Bool := !c.closed && c.currentProc = p

def serving : Bool := c.started && !c.closed

theorem counted_of_serving {c : WSConn} (h : c.serving = true) : c.counted = true := by
  obtain ⟨phase,current,proc,handler⟩ := c
  cases phase <;> simp_all [serving,started,closed,counted]

theorem not_closed_of_not_started {c : WSConn} (h : c.started = false) : c.closed = false := by
  obtain ⟨phase,current,proc,handler⟩ := c
  cases phase <;> simp_all [started,closed]

end WSConn

namespace WSRelayer

def loadOf (load : GoMap EndpointAddr Nat) (ep : EndpointAddr) : Nat := (load.get ep).getD 0

theorem loadOf_incLoad (load : GoMap EndpointAddr Nat) (a ep : EndpointAddr) :
    loadOf (incLoad load a) ep = loadOf load ep + (decide (a = ep)).toNat := by
  by_cases h : a = ep
  · subst h
    simp [loadOf,incLoad]
  · simp [loadOf,incLoad,get_put_ne _ _ (Ne.symm h),h]

theorem loadOf_decLoad (load : GoMap EndpointAddr Nat) {a : EndpointAddr} (hp : 0 < loadOf load a)
    (ep : EndpointAddr) :
    loadOf (decLoad load a) ep + (decide (a = ep)).toNat = loadOf load ep := by
  unfold loadOf decLoad at *
  cases hget : load.get a with
  | none => simp [hget] at hp
  | some n =>
    by_cases h : a = ep
    · subst h
      by_cases hn : n ≤ 1
      · simp [hget,hn,get_del_self] at hp ⊢
        omega
      · simp [hget,hn,get_put_self]
        omega
    · have hne : ep ≠ a := Ne.symm h
      by_cases hn : n ≤ 1
      · simp [hn,get_del_ne _ hne,h]
      · simp [hn,get_put_ne _ _ hne,h]

def created (processors p : Nat) : Nat := if p < processors then 1 else 0

theorem created_succ (processors p : Nat) :
    created (processors + 1) p = created processors p + (decide (processors = p)).toNat := by
  rcases Nat.lt_trichotomy p processors with h | rfl | h
  · simp [created,h,Nat.lt_succ_of_lt h,(Nat.ne_of_lt h).symm]
  · simp [created]
  · have hlt : ¬p < processors := by omega
    have hs : ¬p < processors + 1 := by omega
    simp [created,hlt,hs,Nat.ne_of_lt h]

theorem count_cons_toNat (l : List Nat) (a p : Nat) :
    (a :: l).count p = l.count p + (decide (a = p)).toNat := by
  by_cases h : a = p <;> simp [h]

structure Balanced (r : WSRelayer) : Prop where
  load : ∀ ep, loadOf r.activeLoad ep = r.conns.count fun c => c.countedOn ep
  bound : ∀ p, r.bound.count p + r.conns.count (fun c => c.unbound p) = created r.processors p
  released : ∀ p,
    r.released.count p + r.conns.count (fun c => c.unreleased p) = created r.processors p
  lost : ∀ n c h, r.conns.get n = some c → c.handler = some h →
    c.started = true ∧ h.lost = c.current

theorem balanced_new : Balanced new where
  load ep := rfl
  bound p := rfl
  released p := rfl
  lost n c h hget := by cases hget

namespace Balanced

variable {r : WSRelayer} {n : Nat} {c : WSConn}

theorem load_pos (h : Balanced r) (hget : r.conns.get n = some c) (hc : c.counted = true) :
    0 < loadOf r.activeLoad c.current := by
  rw [h.load]
  exact count_pos hget (by simp [WSConn.countedOn,hc])

variable {r' : WSRelayer}

theorem update (h : Balanced r) (hget : r.conns.get n = some c) {c' : WSConn}
    (hc : r'.conns = r.conns.put n c')
    (hl : ∀ ep, loadOf r'.activeLoad ep + (c.countedOn ep).toNat =
      (c'.countedOn ep).toNat + loadOf r.activeLoad ep)
    (hbo : ∀ p, r'.bound.count p + (c'.unbound p).toNat + created r.processors p =
      r.bound.count p + (c.unbound p).toNat + created r'.processors p)
    (hr : ∀ p, r'.released.count p + (c'.unreleased p).toNat + created r.processors p =
      r.released.count p + (c.unreleased p).toNat + created r'.processors p)
    (hlo : ∀ hd, c'.handler = some hd → c'.started = true ∧ hd.lost = c'.current) :
    Balanced r' where
  load ep := by
    have hp := count_put_some (fun c => c.countedOn ep) hget c'
    have hb := h.load ep
    have hs := hl ep
    rw [hc]
    omega
  bound p := by
    have hp := count_put_some (fun c => c.unbound p) hget c'
    have hb := h.bound p
    have hs := hbo p
    rw [hc]
    omega
  released p := by
    have hp := count_put_some (fun c => c.unreleased p) hget c'
    have hb := h.released p
    have hs := hr p
    rw [hc]
    omega
  lost j d hd hj hh := by
    rw [hc] at hj
    rcases get_put_eq_some.mp hj with ⟨-,rfl⟩ | ⟨-,hj⟩
    · exact hlo hd hh
    · exact h.lost j d hd hj hh

theorem setConn (h : Balanced r) (hget : r.conns.get n = some c) {c' : WSConn}
    (hc : c'.counted = c.counted) (hs : c'.started = c.started)
    (hcl : c'.closed = c.closed) (hcu : c'.current = c.current)
    (hp : c'.currentProc = c.currentProc)
    (hl : ∀ hd, c'.handler = some hd → c'.started = true ∧ hd.lost = c'.current) :
    Balanced (r.setConn n c') := by
  refine h.update hget rfl (fun ep => ?_) (fun p => ?_) (fun p => ?_) hl
  · simp [WSConn.countedOn,hc,hcu]
    exact Nat.add_comm _ _
  · simp [WSConn.unbound,hs,hp]
    rfl
  · simp [WSConn.unreleased,hcl,hp]
    rfl

theorem openConn (h : Balanced r) (hget : r.conns.get n = none) (addr : EndpointAddr) :
    Balanced (r.openConn n addr) where
  load ep := by
    have hp : (r.openConn n addr).conns.count (fun c => c.countedOn ep) =
        (decide (addr = ep)).toNat + r.conns.count fun c => c.countedOn ep :=
      count_put_none _ hget _
    have hin : loadOf (r.openConn n addr).activeLoad ep = _ := loadOf_incLoad r.activeLoad addr ep
    rw [hp,hin,h.load,Nat.add_comm]
  bound p := by
    have hp : (r.openConn n addr).conns.count (fun c => c.unbound p) =
        (decide (r.processors = p)).toNat + r.conns.count fun c => c.unbound p :=
      count_put_none _ hget _
    have hs : created (r.openConn n addr).processors p = _ := created_succ r.processors p
    have hsa : (r.openConn n addr).bound = r.bound := rfl
    have hb := h.bound p
    rw [hp,hsa]
    omega
  released p := by
    have hp : (r.openConn n addr).conns.count (fun c => c.unreleased p) =
        (decide (r.processors = p)).toNat + r.conns.count fun c => c.unreleased p :=
      count_put_none _ hget _
    have hs : created (r.openConn n addr).processors p = _ := created_succ r.processors p
    have hsa : (r.openConn n addr).released = r.released := rfl
    have hb := h.released p
    rw [hp,hsa]
    omega
  lost j d hd hj hh := by
    rcases get_put_eq_some.mp hj with ⟨-,rfl⟩ | ⟨-,hj⟩
    · cases hh
    · exact h.lost j d hd hj hh

section

variable (h : Balanced r) (hget : r.conns.get n = some c)

include h hget

theorem startBridge {ok : Bool} (hs : r.startBridge n c ok = some r') : Balanced r' := by
  obtain ⟨phase,current,proc,handler⟩ := c
  have hid : phase = .opening → handler = none := by
    rintro rfl
    cases handler with
    | none => rfl
    | some hd => cases (h.lost n _ hd hget rfl).1
  cases phase with
  | opening =>
    cases hid rfl
    cases ok with
    | true =>
      cases hs
      refine h.update hget rfl (fun ep => Nat.add_comm _ _) (fun p => ?_) (fun p => rfl) nofun
      exact congrArg (· + created r.processors p) (count_cons_toNat r.bound proc p)
    | false =>
      cases hs
      exact h.setConn hget rfl rfl rfl rfl rfl nofun
  | _ => cases ok <;> cases hs

theorem endpointLost (hs : r.endpointLost n c = some r') : Balanced r' := by
  unfold WSRelayer.endpointLost at hs
  split at hs
  · cases hs
  · obtain ⟨hst,rfl⟩ := Run.guard_pos hs
    refine h.setConn hget rfl rfl rfl rfl rfl ?_
    rintro hd ⟨⟩
    exact ⟨hst,rfl⟩

theorem rebindFailed (hs : r.rebindFailed n c = some r') : Balanced r' := by
  obtain ⟨hd,-,rfl⟩ := map_eq_some_iff.mp hs
  exact h.setConn hget rfl rfl rfl rfl rfl nofun

theorem dialled {next : EndpointAddr} (hs : r.dialled n c next = some r') : Balanced r' := by
  unfold WSRelayer.dialled at hs
  split at hs
  · rename_i lost hh
    cases hs
    refine h.setConn hget rfl rfl rfl rfl rfl ?_
    rintro hd ⟨⟩
    exact h.lost n c (.resolving lost) hget hh
  · cases hs

theorem replaced (hs : c.serving = true) (next : EndpointAddr)
    (hco : r'.conns = r.conns.put n
      { c with current := next, currentProc := r.processors, handler := none })
    (hl : r'.activeLoad = incLoad (decLoad r.activeLoad c.current) next)
    (hb : r'.bound = r.processors :: r.bound)
    (hr : r'.released = c.currentProc :: r.released)
    (hp : r'.processors = r.processors + 1) : Balanced r' := by
  have hc := WSConn.counted_of_serving hs
  obtain ⟨hst,hcl⟩ := Bool.and_eq_true_iff.mp hs
  refine h.update hget hco (fun ep => ?_) (fun p => ?_) (fun p => ?_) nofun
  · have hin := loadOf_incLoad (decLoad r.activeLoad c.current) next ep
    have hd := loadOf_decLoad r.activeLoad (h.load_pos hget hc) ep
    have hold : c.countedOn ep = decide (c.current = ep) := by simp [WSConn.countedOn,hc]
    have hn : (c.counted && decide (next = ep)) = decide (next = ep) := by simp [hc]
    rw [hl,hold]
    show _ = (c.counted && decide (next = ep)).toNat + _
    rw [hn]
    omega
  · have hold : c.unbound p = false := by simp [WSConn.unbound,hst]
    have hn : (!c.started && decide (r.processors = p)) = false := by simp [hst]
    rw [hb,hp,count_cons_toNat,created_succ,hold]
    show _ + (!c.started && decide (r.processors = p)).toNat + _ = _
    rw [hn]
    omega
  · have hold : c.unreleased p = decide (c.currentProc = p) := by
      simpa [WSConn.unreleased] using fun _ => hcl
    have hn : (!c.closed && decide (r.processors = p)) = decide (r.processors = p) := by
      simp [hcl]
    rw [hr,hp,count_cons_toNat,created_succ,hold]
    show _ + (!c.closed && decide (r.processors = p)).toNat + _ = _
    rw [hn]
    omega

theorem swap (hs : r.swap n c = some r') : Balanced r' := by
  unfold WSRelayer.swap at hs
  split at hs
  · rename_i lost next hh
    obtain ⟨hst,hl⟩ := h.lost n c _ hget hh
    subst hl
    split at hs
    · cases hs
      exact h.setConn hget rfl rfl rfl rfl rfl nofun
    · rename_i ho
      have hse : c.serving = true := by simp [WSConn.serving,hst,ho]
      cases hs
      exact h.replaced hget hse next rfl rfl rfl rfl rfl
  · cases hs

theorem bridgeDone (hs : r.bridgeDone n c = some r') : Balanced r' := by
  have hhe := fun hd hh => h.lost n c hd hget hh
  obtain ⟨phase,current,proc,handler⟩ := c
  cases phase with
  | up =>
    cases hs
    exact h.setConn hget rfl rfl rfl rfl rfl hhe
  | _ => cases hs

theorem close (hs : r.close n c = some r') : Balanced r' := by
  have hhe := fun hd hh => h.lost n c hd hget hh
  obtain ⟨phase,current,proc,handler⟩ := c
  cases phase with
  | done =>
    cases hs
    refine h.update hget rfl (fun ep => Nat.add_comm _ _) (fun p => rfl) (fun p => ?_) hhe
    exact congrArg (· + created r.processors p) (count_cons_toNat r.released proc p)
  | _ => cases hs

theorem returnOpen (hs : r.returnOpen n c = some r') : Balanced r' := by
  have hp := h.load_pos hget
  have hhe := fun hd hh => h.lost n c hd hget hh
  obtain ⟨phase,current,proc,handler⟩ := c
  cases phase with
  | failed | closing =>
    cases hs
    refine h.update hget rfl (fun ep => ?_) (fun p => rfl) (fun p => rfl) hhe
    exact (loadOf_decLoad r.activeLoad (hp rfl) ep).trans (Nat.zero_add _).symm
  | _ => cases hs

end

end Balanced

theorem balanced_step (r : WSRelayer) (a : Act) (r' : WSRelayer) (h : Balanced r)
    (hs : r.step a = some r') : Balanced r' := by
  cases a with
  | openConn n addr =>
    obtain ⟨hf,rfl⟩ := Run.guard_neg hs
    exact h.openConn (by simpa [has] using hf) addr
  | startBridge n ok =>
    obtain ⟨c,hget,hs⟩ := bind_eq_some_iff.mp hs
    exact h.startBridge hget hs
  | endpointLost n =>
    obtain ⟨c,hget,hs⟩ := bind_eq_some_iff.mp hs
    exact h.endpointLost hget hs
  | rebindFailed n =>
    obtain ⟨c,hget,hs⟩ := bind_eq_some_iff.mp hs
    exact h.rebindFailed hget hs
  | dialled n next =>
    obtain ⟨c,hget,hs⟩ := bind_eq_some_iff.mp hs
    exact h.dialled hget hs
  | swap n =>
    obtain ⟨c,hget,hs⟩ := bind_eq_some_iff.mp hs
    exact h.swap hget hs
  | bridgeDone n =>
    obtain ⟨c,hget,hs⟩ := bind_eq_some_iff.mp hs
    exact h.bridgeDone hget hs
  | close n =>
    obtain ⟨c,hget,hs⟩ := bind_eq_some_iff.mp hs
    exact h.close hget hs
  | returnOpen n =>
    obtain ⟨c,hget,hs⟩ := bind_eq_some_iff.mp hs
    exact h.returnOpen hget hs

structure Accounted (r : WSRelayer) : Prop where
  load : ∀ ep, loadOf r.activeLoad ep = r.conns.count fun c => c.countedOn ep
  unstarted : ∀ n c, r.conns.get n = some c → c.started = false →
    r.bound.count c.currentProc = 0 ∧ r.released.count c.currentProc = 0
  serving : ∀ n c, r.conns.get n = some c → c.serving = true →
    r.bound.count c.currentProc = 1 ∧ r.released.count c.currentProc = 0
  retired : ∀ p < r.processors,
    (∀ n c, r.conns.get n = some c → c.currentProc = p → c.closed = true) →
      r.bound.count p = 1 ∧ r.released.count p = 1

theorem created_le (processors p : Nat) : created processors p ≤ 1 := by
  unfold created
  split_ifs <;> omega

namespace Balanced

variable {r : WSRelayer} {n : Nat} {c : WSConn}

theorem unstarted (h : Balanced r) (hget : r.conns.get n = some c) (hs : c.started = false) :
    r.bound.count c.currentProc = 0 ∧ r.released.count c.currentProc = 0 := by
  have hc := WSConn.not_closed_of_not_started hs
  have hun : 0 < r.conns.count fun d => d.unbound c.currentProc :=
    count_pos hget (by simp [WSConn.unbound,hs])
  have hu : 0 < r.conns.count fun d => d.unreleased c.currentProc :=
    count_pos hget (by simp [WSConn.unreleased,hc])
  have ho := created_le r.processors c.currentProc
  have hb := h.bound c.currentProc
  have hr := h.released c.currentProc
  omega

theorem serving (h : Balanced r) (hget : r.conns.get n = some c) (hs : c.serving = true) :
    r.bound.count c.currentProc = 1 ∧ r.released.count c.currentProc = 0 := by
  obtain ⟨hst,hc⟩ := Bool.and_eq_true_iff.mp hs
  have hlt : (r.conns.count fun d => d.unbound c.currentProc) <
      r.conns.count fun d => d.unreleased c.currentProc := by
    refine count_lt_count hget (fun d hd => ?_) ?_ ?_
    · obtain ⟨hd,hp⟩ := Bool.and_eq_true_iff.mp hd
      have ho := WSConn.not_closed_of_not_started (Bool.not_eq_true' _ |>.mp hd)
      exact Bool.and_eq_true_iff.mpr ⟨by rw [ho]; rfl,hp⟩
    · exact Bool.and_eq_true_iff.mpr ⟨hc,decide_eq_true rfl⟩
    · simp [WSConn.unbound,hst]
  have hon := created_le r.processors c.currentProc
  have hb := h.bound c.currentProc
  have hr := h.released c.currentProc
  omega

theorem retired (h : Balanced r) {p : Nat} (hp : p < r.processors)
    (ha : ∀ n c, r.conns.get n = some c → c.currentProc = p → c.closed = true) :
    r.bound.count p = 1 ∧ r.released.count p = 1 := by
  have hu : (r.conns.count fun d => d.unreleased p) = 0 := by
    refine count_eq_zero fun j d hj => ?_
    by_cases hpr : d.currentProc = p
    · simp [WSConn.unreleased,ha j d hj hpr]
    · simp [WSConn.unreleased,hpr]
  have hun : (r.conns.count fun d => d.unbound p) = 0 := by
    refine count_eq_zero fun j d hj => ?_
    by_cases hpr : d.currentProc = p
    · have hs : d.started = true := by
        by_contra hno
        have ho := WSConn.not_closed_of_not_started (Bool.not_eq_true _ |>.mp hno)
        cases (ha j d hj hpr).symm.trans ho
      simp [WSConn.unbound,hs]
    · simp [WSConn.unbound,hpr]
  have hb := h.bound p
  have hr := h.released p
  have hc : created r.processors p = 1 := if_pos hp
  omega

end Balanced

theorem load_and_bindings_balance {r : WSRelayer}
    (h : Run.Reaches step (fun _ _ => True) new r) : Accounted r := by
  have hb := h.invariant Balanced balanced_new fun r a r' hr _ hs =>
    balanced_step r a r' hr hs
  exact {
    load := hb.load
    unstarted := fun n c hget => hb.unstarted hget
    serving := fun n c hget => hb.serving hget
    retired := fun p hp => hb.retired hp }

theorem close_races_rebind :
    ∃ r, Run.Reaches step (fun _ _ => True) new r ∧
      (r.activeLoad.toList,r.bound,r.released) = ([("b".toList,1)],[1,2,0],[2,0]) ∧ Accounted r :=
  Run.reaches_and [.openConn 0 "a".toList,.startBridge 0 true,.openConn 1 "b".toList,
    .endpointLost 0,.dialled 0 "c".toList,.swap 0,.endpointLost 0,.dialled 0 "b".toList,
    .bridgeDone 0,.close 0,.startBridge 1 true,.swap 0,.returnOpen 0] (by decide +kernel)
    fun _ hr _ => load_and_bindings_balance hr

theorem failed_start_never_bound :
    ∃ r, Run.Reaches step (fun _ _ => True) new r ∧
      (∀ n c, r.conns.get n = some c → c.counted = false) ∧
      ∃ p < r.processors, r.bound.count p = 0 ∧ r.released.count p = 0 := by
  obtain ⟨r,hs,hc,hp,hb,hr⟩ : ∃ r, Run.Reaches step (fun _ _ => True)
      new r ∧ r.conns.count WSConn.counted = 0 ∧ r.processors = 1 ∧ r.bound = [] ∧
      r.released = [] :=
    Run.reaches [.openConn 0 "a".toList,.startBridge 0 false,.returnOpen 0] (by decide +kernel)
  refine ⟨r,hs,fun n c hget => ?_,0,by omega,by simp [hb],by simp [hr]⟩
  by_contra ho
  have hpo := count_pos hget (Bool.not_eq_false _ |>.mp ho)
  omega

end WSRelayer

end SageGateway
