import SageGateway.Autodrain.Engine
import SageGateway.Lib.Run
import SageGateway.Lib.SlidingWindow

namespace SageGateway.Autodrain

open List Option

open Drain (Key Entry)

namespace Engine

variable {D : Deps} {e : Engine} {k : Key} {now : Int} {active : Key → List Entry}

theorem reconcileKey_frame (row : Key × Int) :
    (e.reconcileKey D now active row).lastBySvc = e.lastBySvc ∧
      (e.reconcileKey D now active row).recent = e.recent := by
  unfold reconcileKey
  split
  · exact ⟨rfl,rfl⟩
  · split
    · exact ⟨rfl,rfl⟩
    · split
      · exact ⟨rfl,rfl⟩
      · exact ⟨rfl,rfl⟩

def releases (D : Deps) (now : Int) (active : Key → List Entry) (row : Key × Int) : Bool :=
  Decidable.decide (now < row.2) && (D.find row.1 (active row.1)).isNone

theorem suppressed_reconcileKey (row : Key × Int) :
    (e.reconcileKey D now active row).suppressed.get k =
      if k = row.1 ∧ releases D now active row = true then some (now + suppressFor)
      else e.suppressed.get k := by
  unfold reconcileKey releases
  by_cases he : row.2 ≤ now
  · simp [he,Int.not_lt.mpr he]
  · rw [if_neg he]
    cases hf : D.find row.1 (active row.1) with
    | none =>
      simp [GoMap.get_put,Int.not_le.mp he]
    | some entry =>
      simp
      split
      · rfl
      · rfl

theorem rows_frame (rows : List (Key × Int)) :
    (rows.foldl (reconcileKey D now active) e).lastBySvc = e.lastBySvc ∧
      (rows.foldl (reconcileKey D now active) e).recent = e.recent := by
  induction rows generalizing e with
  | nil => exact ⟨rfl,rfl⟩
  | cons row rows ih =>
    obtain ⟨hl,hr⟩ : (e.reconcileKey D now active row).lastBySvc = _ ∧ _ :=
      reconcileKey_frame row
    exact ⟨ih.1.trans hl,ih.2.trans hr⟩

theorem rows_suppressed (rows : List (Key × Int)) :
    (rows.foldl (reconcileKey D now active) e).suppressed.get k =
      if ∃ row ∈ rows, k = row.1 ∧ releases D now active row = true then some (now + suppressFor)
      else e.suppressed.get k := by
  induction rows generalizing e with
  | nil => simp
  | cons row rows ih =>
    rw [foldl_cons,ih,suppressed_reconcileKey]
    by_cases hr : k = row.1 ∧ releases D now active row = true
    · simp [hr]
    · simp only [hr,if_false,exists_mem_cons_iff,false_or]

theorem reconcile_lastBySvc : (e.reconcile D now active).lastBySvc = e.lastBySvc :=
  (rows_frame e.live.toList).1

theorem reconcile_recent :
    (e.reconcile D now active).recent = SlidingWindow.recent GoTime.hour now e.recent := by
  unfold reconcile
  dsimp only
  rw [(rows_frame e.live.toList).2]
  refine filter_congr fun t _ => ?_
  rw [decide_eq_decide]
  omega

-- Either the time is over, or the key is still held back until then.
def HeldBack (e : Engine) (clock : Int) (k : Key) (t : Int) : Prop :=
  t + suppressFor ≤ clock ∨ ∃ u, e.suppressed.get k = some u ∧ t + suppressFor ≤ u

theorem reconcile_suppressed :
    (e.reconcile D now active).suppressed.get k =
      (if ∃ row ∈ e.live.toList, k = row.1 ∧ releases D now active row = true then
        some (now + suppressFor) else e.suppressed.get k).filter
          fun u => Decidable.decide (now < u) := by
  unfold reconcile
  rw [GoMap.get_filter,rows_suppressed]

theorem HeldBack.reconcile {clock t : Int} (h : e.HeldBack clock k t) (hc : clock ≤ now)
    (ht : t ≤ now) : (e.reconcile D now active).HeldBack now k t := by
  unfold HeldBack
  rw [reconcile_suppressed]
  split
  · have hk : now < now + suppressFor := Int.lt_add_of_pos_right now (by decide)
    rw [filter_some,decide_eq_true hk]
    exact .inr ⟨_,rfl,Int.add_le_add_right ht _⟩
  · rcases h with ho | ⟨u,hu,hle⟩
    · exact .inl (ho.trans hc)
    · by_cases hn : now < u
      · rw [hu,filter_some,decide_eq_true hn]
        exact .inr ⟨u,rfl,hle⟩
      · exact .inl (hle.trans (Int.not_lt.mp hn))

theorem heldBack_of_released (h : k ∈ Watched.released D now active e.live) :
    (e.reconcile D now active).HeldBack now k now := by
  obtain ⟨row,hr,rfl⟩ := List.mem_map.mp h
  obtain ⟨hm,hre⟩ := mem_filter.mp hr
  have hk : now < now + suppressFor := Int.lt_add_of_pos_right now (by decide)
  refine .inr ⟨now + suppressFor,?_,le_rfl⟩
  rw [reconcile_suppressed,if_pos ⟨row,hm,rfl,hre⟩,filter_some,decide_eq_true hk]
  rfl

variable (D e k now) in
theorem decide_cases (act : Bool) (ev : Event) (a : Answers) (hset : a.set ≠ .errPropagation) :
    ((e.decide D k now act ev a).1 = e ∧ Watched.noted k now (e.decide D k now act ev a).2 = []) ∨
      ((e.suppressed.get k).any fun u => Decidable.decide (now < u)) = false ∧
        e.rateLimited k.serviceID now = false ∧ (e.decide D k now act ev a).1 = e.place D k now ∧
        Watched.noted k now (e.decide D k now act ev a).2 = [.placed k now] := by
  unfold decide
  split
  · split
    · exact .inl ⟨rfl,rfl⟩
    · exact .inl ⟨rfl,rfl⟩
  · split
    · exact .inl ⟨rfl,rfl⟩
    split
    · exact .inl ⟨rfl,rfl⟩
    split
    · exact .inl ⟨rfl,rfl⟩
    split
    · exact .inl ⟨rfl,rfl⟩
    split
    · exact .inl ⟨rfl,rfl⟩
    next hs =>
    split
    · exact .inl ⟨rfl,rfl⟩
    split
    · exact .inl ⟨rfl,rfl⟩
    next hr =>
    split
    · exact .inl ⟨rfl,rfl⟩
    cases ha : a.set with
    | done => exact .inr ⟨Bool.eq_false_iff.mpr hs,Bool.eq_false_iff.mpr hr,rfl,rfl⟩
    | errPropagation => exact absurd ha hset
    | failed => exact .inl ⟨rfl,rfl⟩

end Engine

def Note.time : Note → Int
  | .placed _ t | .noticed _ t => t

def ServiceApart (later earlier : Key × Int) : Prop :=
  later.1.serviceID = earlier.1.serviceID → earlier.2 + serviceGap ≤ later.2

def ReleaseKept (later earlier : Note) : Prop :=
  ∀ k s t, later = .placed k s → earlier = .noticed k t → t + suppressFor ≤ s

namespace Watched

def times (w : Watched) : List Int := w.drains.map Prod.snd

structure Limited (w : Watched) : Prop where
  past : ∀ note ∈ w.log, note.time ≤ w.clock
  spaced : SlidingWindow.Spaced GoTime.hour maxPerHour w.times
  kept : SlidingWindow.Kept GoTime.hour w.clock w.times w.engine.recent
  last : ∀ d ∈ w.drains, ∃ u, w.engine.lastBySvc.get d.1.serviceID = some u ∧ d.2 ≤ u
  apart : w.drains.Pairwise ServiceApart
  held : ∀ k t, .noticed k t ∈ w.log → w.engine.HeldBack w.clock k t
  released : w.log.Pairwise ReleaseKept

section

variable {D : Deps} {w : Watched} {now : Int}

theorem limited_new (clock : Int) : (new clock).Limited where
  past _ h := by cases h
  spaced := trivial
  kept := .nil _ _
  last _ h := by cases h
  apart := .nil
  held _ _ h := by cases h
  released := .nil

theorem drains_noticed (ks : List Key) (log : List Note) :
    (ks.map (Note.noticed · now) ++ log).filterMap placedAt = log.filterMap placedAt := by
  induction ks with
  | nil => rfl
  | cons k ks ih => exact ih

theorem mem_drains {d : Key × Int} : d ∈ w.drains ↔ .placed d.1 d.2 ∈ w.log := by
  unfold drains
  rw [mem_filterMap]
  constructor
  · rintro ⟨note,hn,hd⟩
    cases note with
    | placed k t =>
      cases hd
      exact hn
    | noticed k t => cases hd
  · exact fun hn => ⟨_,hn,rfl⟩

theorem Limited.reconcile (h : w.Limited) (hc : w.clock ≤ now) (active : Key → List Entry) :
    Limited ⟨w.engine.reconcile D now active,now,
      (Watched.released D now active w.engine.live).map (Note.noticed · now) ++ w.log⟩ := by
  have hd : drains ⟨w.engine.reconcile D now active,now,
      (Watched.released D now active w.engine.live).map (Note.noticed · now) ++ w.log⟩ = w.drains :=
    drains_noticed _ _
  refine ⟨?_,?_,?_,?_,?_,?_,?_⟩
  · intro note hn
    rcases mem_append.mp hn with hne | hold
    · obtain ⟨k,-,rfl⟩ := List.mem_map.mp hne
      exact le_rfl
    · exact (h.past note hold).trans hc
  · rw [times,hd]
    exact h.spaced
  · rw [times,hd,Engine.reconcile_recent]
    exact (h.kept.mono hc).recent le_rfl
  · rw [hd,Engine.reconcile_lastBySvc]
    exact h.last
  · rw [hd]
    exact h.apart
  · intro k t hn
    rcases mem_append.mp hn with hne | hold
    · obtain ⟨k',hk,heq⟩ := List.mem_map.mp hne
      cases heq
      exact Engine.heldBack_of_released hk
    · exact (h.held k t hold).reconcile hc ((h.past _ hold).trans hc)
  · refine pairwise_append.mpr ⟨?_,h.released,?_⟩
    · refine pairwise_map.mpr (pairwise_of_forall fun _ _ => ?_)
      nofun
    · intro note hne _ _ k s t hp
      obtain ⟨k',-,rfl⟩ := List.mem_map.mp hne
      cases hp

theorem Limited.place (h : w.Limited) {k : Key}
    (hs : ((w.engine.suppressed.get k).any fun u => decide (w.clock < u)) = false)
    (hr : w.engine.rateLimited k.serviceID w.clock = false) :
    Limited { w with engine := w.engine.place D k w.clock, log := .placed k w.clock :: w.log } := by
  obtain ⟨hl,hro⟩ := Bool.or_eq_false_iff.mp hr
  have hf : w.engine.recent.length < maxPerHour := Nat.not_le.mp (of_decide_eq_false hro)
  refine ⟨?_,?_,?_,?_,?_,?_,?_⟩
  · intro note hn
    rcases mem_cons.mp hn with rfl | hold
    · exact le_rfl
    · exact h.past note hold
  · refine ⟨?_,h.spaced⟩
    exact (h.kept.recent_le (forall₂_same.mpr fun _ _ => le_rfl)).trans_lt hf
  · exact h.kept.stamp (by decide)
  · intro d hd
    show ∃ u, (w.engine.lastBySvc.put k.serviceID w.clock).get d.1.serviceID = some u ∧ d.2 ≤ u
    rw [GoMap.get_put]
    rcases mem_cons.mp hd with rfl | hold
    · exact ⟨w.clock,if_pos rfl,le_rfl⟩
    · split
      · exact ⟨w.clock,rfl,h.past _ (mem_drains.mp hold)⟩
      · exact h.last d hold
  · refine pairwise_cons.mpr ⟨fun d hd hsv => ?_,h.apart⟩
    obtain ⟨u,hu,hle⟩ := h.last d hd
    have hs' : k.serviceID = d.1.serviceID := hsv
    rw [hs',hu,any_some,decide_eq_false_iff_not,
      GoTime.sub_lt_iff (by decide) (by decide)] at hl
    omega
  · intro k' t hn
    rcases mem_cons.mp hn with heq | hold
    · cases heq
    · exact h.held k' t hold
  · refine pairwise_cons.mpr ⟨fun note hn => ?_,h.released⟩
    intro k' s t hp hno
    cases hp
    rw [hno] at hn
    rcases h.held k t hn with ho | ⟨u,hu,hle⟩
    · exact ho
    · rw [hu,any_some,decide_eq_false_iff_not] at hs
      exact hle.trans (Int.not_lt.mp hs)

theorem Limited.consider (h : w.Limited) {c : Candidate} (hset : c.answers.set ≠ .errPropagation) :
    (w.consider D w.clock c).Limited ∧ (w.consider D w.clock c).clock = w.clock := by
  unfold Watched.consider
  split
  · exact ⟨h,rfl⟩
  · refine ⟨?_,rfl⟩
    dsimp only
    obtain ⟨he,hn⟩ | ⟨hs,hr,he,hn⟩ := Engine.decide_cases D w.engine c.key
      w.clock c.live c.event c.answers hset
    · rwa [he,hn]
    · rw [he,hn]
      exact h.place hs hr

theorem Limited.candidates (h : w.Limited) {cs : List Candidate}
    (hset : ∀ c ∈ cs, c.answers.set ≠ .errPropagation) :
    (cs.foldl (Watched.consider D w.clock) w).Limited := by
  induction cs generalizing w with
  | nil => exact h
  | cons c cs ih =>
    obtain ⟨hn,hc⟩ := h.consider (D := D) (hset c (.head _))
    have hr := ih hn fun x hx => hset x (mem_cons_of_mem c hx)
    rwa [hc] at hr

theorem limited_evaluate {w' : Watched} {ev : Evaluation} (h : w.Limited)
    (hset : ∀ c ∈ ev.candidates, c.answers.set ≠ .errPropagation)
    (hs : w.evaluate D ev = some w') : w'.Limited := by
  unfold evaluate at hs
  split at hs
  · cases hs
  · next hno =>
    have hc := Int.not_lt.mp hno
    split at hs
    · cases hs
      refine { h with
        past := fun note hn => (h.past note hn).trans hc
        kept := h.kept.mono hc
        held := fun k t hn => ?_ }
      exact (h.held k t hn).imp_left fun ho => ho.trans hc
    · cases hs
      exact (h.reconcile hc ev.active).candidates hset

end

theorem auto_drains_keep_their_limits {D : Deps} {clock : Int} {w : Watched}
    (h : Run.Reaches (evaluate D)
      (fun _ ev => ∀ c ∈ ev.candidates, c.answers.set ≠ .errPropagation) (new clock) w) :
    (∀ t, (SlidingWindow.within GoTime.hour t w.times).length ≤ maxPerHour) ∧
      w.drains.Pairwise ServiceApart ∧ w.log.Pairwise ReleaseKept := by
  have hl := h.invariant Limited (limited_new clock)
    fun _ _ _ hs hset hst => limited_evaluate hs hset hst
  exact ⟨hl.spaced.within_le,hl.apart,hl.released⟩

def plainDeps : Deps := ⟨asciiPlatform,.new,GoString.equalFoldASCII,0⟩

def alphaKey (svc rpc : String) : Key := ⟨svc.toList,"alpha.net".toList,rpc.toList⟩

def failingEvent : Event := ⟨.collapse,300,0,300,0,100,1 / 10,0,false," 20 collapse picks".toList⟩

def drainOf (now : Int) (k : Key) : Entry :=
  ⟨⟨now + plainDeps.drainLength,reasonPrefix ++ failingEvent.evidence⟩,k⟩

-- The store answers with the drains already in force on this instance.
def failing (now : Int) (answer : SetAnswer) (before : List Key) (k : Key) : Candidate where
  key := k
  event := failingEvent
  autoDrain := true
  autoDrainShadow := false
  autoDrainChainAnswers := false
  answers :=
    { covering := (before.filter fun b => b.serviceID = k.serviceID).map (drainOf now)
      pool := (before.filter fun b => b.serviceID = k.serviceID).map (drainOf now)
      fleet := [before.map (drainOf now)]
      endpoints :=
        ["supplierA-https://rpc.alpha.net".toList,"supplierB-https://rpc.beta.net".toList]
      vouched := fun _ => true
      set := answer }

def fourKeys : List Key :=
  [alphaKey "eth" "json_rpc",alphaKey "eth" "rest",alphaKey "base" "json_rpc",
    alphaKey "poly" "json_rpc"]

def failingTogether (answer : SetAnswer) : List Candidate :=
  fourKeys.zipIdx.map fun row => failing 0 answer (fourKeys.take row.2) row.1

def unreachableRedis : List Evaluation := [⟨0,true,fun _ => [],failingTogether .errPropagation⟩]

theorem unpropagated_drains_escape_the_limits :
    ∃ w, Run.Reaches (evaluate plainDeps) (fun _ _ => True) (new 0) w ∧
      (SlidingWindow.within GoTime.hour 0 w.times).length = maxPerHour + 1 ∧
      w.drains = (fourKeys.map fun k => (k,0)).reverse ∧ ¬ w.drains.Pairwise ServiceApart := by
  refine Run.reaches_of (P := fun w => w.drains = (fourKeys.map fun k => (k,0)).reverse)
    unreachableRedis (by decide +kernel) fun w _ hd => ⟨?_,hd,fun ha => ?_⟩
  · rw [times,hd]
    decide
  · rw [hd] at ha
    have hg := pairwise_iff_getElem.mp ha 2 3 (by decide) (by decide) (by decide) rfl
    exact absurd hg (by decide)

-- The second key of one service and the fourth of the hour are refused; an hour later one more is
-- not.
def reachableRedis : List Evaluation :=
  [⟨0,true,fun k => [drainOf 0 k],failingTogether .done⟩,
    ⟨GoTime.hour,true,fun k => if k = alphaKey "base" "json_rpc" then [] else [drainOf 0 k],
      [failing GoTime.hour .done [] (alphaKey "base" "json_rpc"),
        failing GoTime.hour .done [] (alphaKey "sol" "json_rpc")]⟩]

instance (ev : Evaluation) : Decidable (∀ c ∈ ev.candidates, c.answers.set ≠ .errPropagation) :=
  List.decidableBAll _ _

theorem propagated_drains_keep_the_limits :
    ∃ w, Run.Reaches (evaluate plainDeps)
        (fun _ ev => ∀ c ∈ ev.candidates, c.answers.set ≠ .errPropagation) (new 0) w ∧
      w.log = [.placed (alphaKey "sol" "json_rpc") GoTime.hour,
        .noticed (alphaKey "base" "json_rpc") GoTime.hour,.placed (alphaKey "poly" "json_rpc") 0,
        .placed (alphaKey "base" "json_rpc") 0,.placed (alphaKey "eth" "json_rpc") 0] ∧
      ∀ t, (SlidingWindow.within GoTime.hour t w.times).length ≤ maxPerHour :=
  Run.reaches_and reachableRedis (by decide +kernel) fun _ hr _ =>
    (auto_drains_keep_their_limits hr).1

end Watched

end SageGateway.Autodrain
