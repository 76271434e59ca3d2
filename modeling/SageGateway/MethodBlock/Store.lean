import Mathlib.Algebra.Ring.Nat
import SageGateway.Config.MethodBlocks

namespace SageGateway.MethodBlock

open Option GoMap

structure MethodMark where
  expiry : Int
  escalates : Bool
  deriving DecidableEq

namespace MethodMark

def live (now : Int) (mk : MethodMark) : Bool := decide (now < mk.expiry)

def counts (now : Int) (mk : MethodMark) : Bool := mk.live now && mk.escalates

end MethodMark

structure HostState where
  hostUntil : Int
  methods : GoMap GoString MethodMark

def maxMethodsPerHost : Nat := 128

namespace HostState

def new : HostState := ⟨GoTime.zeroTime,∅⟩

def live (now : Int) (methods : GoMap GoString MethodMark) : GoMap GoString MethodMark :=
  methods.filter fun _ mk => mk.live now

-- The cap is about live marks, so what has expired goes first.
def makeRoom (now : Int) (known : Bool) (methods : GoMap GoString MethodMark) :
    GoMap GoString MethodMark :=
  if known = false ∧ maxMethodsPerHost ≤ methods.len then live now methods else methods

def mark (h : HostState) (now expiry escalation : Int) (method : GoString) (escalates : Bool) :
    HostState × Bool :=
  if now < h.hostUntil then (h,false)
  else
    let prev := h.methods.get method
    let known := prev.isSome
    let kept := makeRoom now known h.methods
    if known = false ∧ maxMethodsPerHost ≤ kept.len then ({ h with methods := kept },false)
    else
      let counts := escalates || prev.any (MethodMark.counts now)
      let methods := live now (kept.put method ⟨expiry,counts⟩)
      if escalates = true ∧ 0 < escalation ∧ escalation ≤ methods.count MethodMark.escalates then
        (⟨expiry,∅⟩,true)
      else ({ h with methods := methods },false)

def sweep (now : Int) (h : HostState) : Option HostState :=
  let methods := live now h.methods
  if methods.len = 0 ∧ ¬ now < h.hostUntil then none else some { h with methods := methods }

end HostState

structure Store where
  settings : MethodBlockSettings
  byService : GoMap GoString (GoMap GoString HostState)

namespace Store

def new (settings : MethodBlockSettings) : Store := ⟨settings,∅⟩

def host (s : Store) (service host : GoString) : Option HostState :=
  (s.byService.get service).bind fun hosts => hosts.get host

def putHost (s : Store) (service host : GoString) (h : HostState) : Store :=
  { s with byService := s.byService.put service (((s.byService.get service).getD ∅).put host h) }

def lifetime (s : Store) (escalates : Bool) : Int :=
  if escalates = false ∧ 0 < s.settings.clientTTL then s.settings.clientTTL else s.settings.ttl

def mark (s : Store) (now : Int) (service host method : GoString) (escalates : Bool) :
    Store × Bool :=
  if host = [] ∨ method = [] then (s,false)
  else if s.settings.ttl ≤ 0 then (s,false)
  else
    let h := ((s.host service host).getD .new).mark now (now + s.lifetime escalates)
      s.settings.escalation method escalates
    (s.putHost service host h.1,h.2)

def clear (s : Store) (now : Int) (service : GoString) : Store × Nat :=
  let blocks := ((s.byService.get service).getD ∅).toList.map fun row =>
    (if now < row.2.hostUntil then 1 else 0) + row.2.methods.count (MethodMark.live now)
  ({ s with byService := s.byService.del service },blocks.sum)

def sweep (s : Store) (now : Int) : Store :=
  { s with byService := s.byService.filterMap fun _ hosts =>
      let kept := hosts.filterMap fun _ h => h.sweep now
      if kept.len = 0 then none else some kept }

def held (s : Store) (service host method : GoString) : Option MethodMark :=
  (s.host service host).bind fun h => h.methods.get method

end Store

namespace HostState

variable {h : HostState} {now expiry escalation : Int} {method m : GoString} {escalates : Bool}
  {mk : MethodMark}

theorem get_live (methods : GoMap GoString MethodMark) :
    (live now methods).get m = some mk ↔ methods.get m = some mk ∧ now < mk.expiry := by
  rw [live,GoMap.get_filter,filter_eq_some_iff,MethodMark.live,decide_eq_true_iff]

theorem get_makeRoom {known : Bool} {methods : GoMap GoString MethodMark}
    (hg : (makeRoom now known methods).get m = some mk) : methods.get m = some mk := by
  unfold makeRoom at hg
  split at hg
  · exact ((get_live _).mp hg).1
  · exact hg

theorem get_recorded {known : Bool} {methods : GoMap GoString MethodMark} {own : MethodMark}
    (hg : (live now ((makeRoom now known methods).put method own)).get m = some mk) :
    (methods.get m = some mk ∨ m = method ∧ mk = own) ∧ now < mk.expiry := by
  obtain ⟨hp,hl⟩ := (get_live _).mp hg
  refine ⟨?_,hl⟩
  rcases get_put_eq_some.mp hp with ⟨rfl,rfl⟩ | ⟨-,hold⟩
  · exact .inr ⟨rfl,rfl⟩
  · exact .inl (get_makeRoom hold)

theorem mark_cases (h : HostState) (now expiry escalation : Int) (method : GoString)
    (escalates : Bool) :
    ∃ methods : GoMap GoString MethodMark,
      (∀ m mk, methods.get m = some mk → h.methods.get m = some mk ∨ m = method ∧
        mk = ⟨expiry,escalates || (h.methods.get method).any (MethodMark.counts now)⟩) ∧
      (h.mark now expiry escalation method escalates = ({ h with methods := methods },false) ∨
        escalates = true ∧ escalation ≤ methods.count MethodMark.escalates ∧
          (∀ m mk, methods.get m = some mk → now < mk.expiry) ∧
          h.mark now expiry escalation method escalates = (⟨expiry,∅⟩,true)) := by
  unfold mark
  split
  · exact ⟨h.methods,fun m mk hg => .inl hg,.inl rfl⟩
  · dsimp only
    split
    · exact ⟨_,fun m mk hg => .inl (get_makeRoom hg),.inl rfl⟩
    · refine ⟨live now ((makeRoom now (h.methods.get method).isSome h.methods).put method
        ⟨expiry,escalates || (h.methods.get method).any (MethodMark.counts now)⟩),
        fun m mk hg => (get_recorded hg).1,?_⟩
      split
      · next hc => exact .inr ⟨hc.1,hc.2.2,fun m mk hg => (get_recorded hg).2,rfl⟩
      · exact .inl rfl

theorem sweep_methods {h' : HostState} (hs : h.sweep now = some h')
    (hg : h'.methods.get m = some mk) : h.methods.get m = some mk := by
  obtain ⟨-,rfl⟩ := Run.guard_neg hs
  exact ((get_live _).mp hg).1

end HostState

namespace Store

variable {s : Store} {now : Int} {service host method service' host' m : GoString}
  {escalates : Bool} {mk : MethodMark}

theorem host_putHost (h : HostState) :
    (s.putHost service host h).host service' host' =
      if service' = service ∧ host' = host then some h else s.host service' host' := by
  unfold Store.host putHost
  rw [get_put]
  by_cases hs : service' = service
  · subst hs
    rw [if_pos rfl,bind_some,get_put]
    by_cases hh : host' = host
    · rw [if_pos hh,if_pos ⟨rfl,hh⟩]
    · rw [if_neg hh,if_neg (fun ha => hh ha.2)]
      cases s.byService.get service' with
      | none | some hosts => rfl
  · rw [if_neg hs,if_neg (fun ha => hs ha.1)]

theorem held_getD (s : Store) (service host m : GoString) :
    ((s.host service host).getD .new).methods.get m = s.held service host m := by
  unfold held
  cases s.host service host with
  | none | some h => rfl

theorem held_mark (hh : (s.mark now service host method escalates).1.held service' host' m =
    some mk) :
    s.held service' host' m = some mk ∨ (service' = service ∧ host' = host ∧ m = method) ∧
      mk = ⟨now + s.lifetime escalates,
        escalates || (s.held service host method).any (MethodMark.counts now)⟩ := by
  unfold mark at hh
  split at hh
  · exact .inl hh
  · split at hh
    · exact .inl hh
    · rw [held,host_putHost] at hh
      split at hh
      · next hs =>
        obtain ⟨rfl,rfl⟩ := hs
        obtain ⟨methods,hm,hma | ⟨-,-,-,hma⟩⟩ :=
          ((s.host service' host').getD .new).mark_cases now (now + s.lifetime escalates)
            s.settings.escalation method escalates
        · rw [hma] at hh
          rcases hm m mk hh with hold | ⟨rfl,hn⟩
          · exact .inl ((held_getD ..).symm.trans hold)
          · rw [held_getD] at hn
            exact .inr ⟨⟨rfl,rfl,rfl⟩,hn⟩
        · rw [hma] at hh
          cases hh
      · exact .inl hh

theorem held_clear (now : Int) (hh : (s.clear now service).1.held service' host' m = some mk) :
    s.held service' host' m = some mk := by
  unfold held Store.host clear at hh
  rw [get_del] at hh
  split at hh
  · cases hh
  · exact hh

theorem held_sweep (hhe : (s.sweep now).held service' host' m = some mk) :
    s.held service' host' m = some mk := by
  obtain ⟨h',hho,hg⟩ := bind_eq_some_iff.mp hhe
  obtain ⟨hosts',hs,hin⟩ := bind_eq_some_iff.mp hho
  rw [sweep,get_filterMap] at hs
  obtain ⟨hosts,hb,hk⟩ := bind_eq_some_iff.mp hs
  obtain ⟨-,rfl⟩ := Run.guard_neg hk
  rw [get_filterMap] at hin
  obtain ⟨h,hh,hsw⟩ := bind_eq_some_iff.mp hin
  refine bind_eq_some_iff.mpr ⟨h,bind_eq_some_iff.mpr ⟨hosts,hb,hh⟩,?_⟩
  exact HostState.sweep_methods hsw hg

theorem mark_escalated (he : (s.mark now service host method escalates).2 = true) :
    escalates = true ∧ ∃ methods : List GoString, methods.Nodup ∧
      s.settings.escalation ≤ methods.length ∧
      ∀ m ∈ methods, m = method ∨
        ∃ mk, s.held service host m = some mk ∧ mk.escalates = true ∧ now < mk.expiry := by
  unfold mark at he
  split at he
  · cases he
  · split at he
    · cases he
    · obtain ⟨marks,hma,hmr | ⟨hs,hco,hl,-⟩⟩ :=
        ((s.host service host).getD .new).mark_cases now (now + s.lifetime escalates)
          s.settings.escalation method escalates
      · rw [hmr] at he
        cases he
      · obtain ⟨methods,hn,hle,hme⟩ := keys_of_count MethodMark.escalates marks
        refine ⟨hs,methods,hn,by rw [hle]; exact hco,fun m hm => ?_⟩
        obtain ⟨mk,hg,hc⟩ := hme m hm
        rcases hma m mk hg with hold | ⟨ho,-⟩
        · rw [held_getD] at hold
          exact .inr ⟨mk,hold,hc,hl m mk hg⟩
        · exact .inl ho

theorem ttl_pos_of_mark (he : (s.mark now service host method escalates).2 = true) :
    0 < s.settings.ttl := by
  unfold mark at he
  split at he
  · cases he
  · split at he
    · cases he
    · next hp => exact Int.not_le.mp hp

theorem settings_mark : (s.mark now service host method escalates).1.settings = s.settings := by
  unfold mark
  split
  · rfl
  · split
    · rfl
    · rfl

end Store

end SageGateway.MethodBlock
