import SageGateway.Lib.GoMap
import SageGateway.Lib.GoString
import SageGateway.Lib.GoTime
import Mathlib.Tactic.Ring

namespace SageGateway.Reputation

open List Option

structure OpID where
  svc : GoString
  op : GoString
  rpc : GoString
  deriving DecidableEq

structure OperatorStat (F : Type) where
  attempts : F
  failures : F
  updatedAt : Int
  cleanRun : Int
  healedAt : Int
  deriving DecidableEq

structure OpMath (F : Type) where
  fade : Int → Int → F
  minOperatorAttempts : F

def defaultOperatorHalfLife : Int := 360 * GoTime.minute

def operatorHealAfter : Int := 20

def operatorHealHalfLife : Int := 60 * GoTime.minute

structure OpTracker (F : Type) where
  halfLife : Int
  stats : GoMap OpID (OperatorStat F)
  dirty : Option (GoMap OpID Unit)

namespace OperatorStat

section Decay

variable {F : Type} [Mul F]

def elapsed (s : OperatorStat F) (now : Int) : Int := GoTime.sub now (GoTime.ofUnix s.updatedAt)

def decayTo (M : OpMath F) (s : OperatorStat F) (now halfLife : Int) : OperatorStat F :=
  if s.updatedAt ≤ 0 ∨ halfLife ≤ 0 then { s with updatedAt := GoTime.unix now }
  else if s.elapsed now ≤ 0 then s
  else { s with
    attempts := s.attempts * M.fade (s.elapsed now) halfLife
    failures := s.failures * M.fade (s.elapsed now) halfLife
    updatedAt := GoTime.unix now }

def charge (s : OperatorStat F) (now halfLife : Int) : Int :=
  if s.updatedAt ≤ 0 ∨ halfLife ≤ 0 then 0
  else if s.elapsed now ≤ 0 then 0 else s.elapsed now

end Decay

variable {F : Type} [Zero F] [One F] [Add F] [Mul F] [Div F] [LT F] [DecidableLT F] [DecidableEq F]

def zero : OperatorStat F := ⟨0,0,0,0,0⟩

def rate (M : OpMath F) (s : OperatorStat F) : F :=
  if s.attempts < M.minOperatorAttempts then 0
  else if s.failures / s.attempts < 1 then s.failures / s.attempts else 1

def rateAt (M : OpMath F) (s : OperatorStat F) (now : Int) : F :=
  if s.healedAt ≤ 0 ∨ s.rate M = 0 then s.rate M
  else if GoTime.sub now (GoTime.ofUnix s.healedAt) ≤ 0 then s.rate M
  else s.rate M * M.fade (GoTime.sub now (GoTime.ofUnix s.healedAt)) operatorHealHalfLife

def keepForgiveness (M : OpMath F) (s : OperatorStat F) (failure : F) (now : Int) :
    OperatorStat F :=
  if 0 < failure ∧ 0 < s.healedAt ∧ 0 < s.rate M then
    { s with failures := s.failures * (s.rateAt M now / s.rate M) }
  else s

def cleanRunAfter (s : OperatorStat F) (failure : F) (now : Int) : OperatorStat F :=
  if 0 < failure then { s with cleanRun := 0, healedAt := 0 }
  else if s.cleanRun + 1 = operatorHealAfter then
    { s with cleanRun := s.cleanRun + 1, healedAt := GoTime.unix now }
  else { s with cleanRun := s.cleanRun + 1 }

def counted (M : OpMath F) (s : OperatorStat F) (failure : F) (now : Int) : OperatorStat F :=
  let st := keepForgiveness M { s with attempts := s.attempts + 1 } failure now
  cleanRunAfter { st with failures := st.failures + failure } failure now

def countedN (s : OperatorStat F) (n failures : F) : OperatorStat F :=
  { s with attempts := s.attempts + n, failures := s.failures + failures }

end OperatorStat

namespace OpTracker

variable {F : Type} [Zero F] [One F] [Add F] [Mul F] [Div F] [LT F] [DecidableLT F] [DecidableEq F]

def newOpTracker (halfLife : Int) : OpTracker F :=
  ⟨if halfLife ≤ 0 then defaultOperatorHalfLife else halfLife,∅,some ∅⟩

def stat (t : OpTracker F) (id : OpID) : OperatorStat F := (t.stats.get id).getD .zero

def record (M : OpMath F) (t : OpTracker F) (id : OpID) (failure : F) (now : Int) : OpTracker F :=
  let st := ((t.stat id).decayTo M now t.halfLife).counted M failure now
  { t with stats := t.stats.put id st, dirty := t.dirty.map fun d => d.put id () }

def recordN (M : OpMath F) (t : OpTracker F) (id : OpID) (n failures : F) (now : Int) :
    OpTracker F :=
  let st := ((t.stat id).decayTo M now t.halfLife).countedN n failures
  { t with stats := t.stats.put id st }

def snapshot (M : OpMath F) (t : OpTracker F) (now : Int) :
    OpTracker F × GoMap OpID (OperatorStat F) :=
  let aged := t.stats.toList.map fun e => (e.1,e.2.decayTo M now t.halfLife)
  ({ t with
      stats := t.stats.filter fun _ st => !decide ((st.decayTo M now t.halfLife).attempts < 1) },
    GoMap.putAll ∅ (aged.filter fun e => !decide (e.2.attempts < 1)))

inductive Evidence (F : Type) where
  | attempt (failure : F)
  | batch (n failures : F)

def Evidence.weight : Evidence F → F
  | .attempt _ => 1
  | .batch n _ => n

structure Update (F : Type) where
  evidence : Evidence F
  now : Int

def apply (M : OpMath F) (id : OpID) (t : OpTracker F) (u : Update F) : OpTracker F :=
  match u.evidence with
  | .attempt failure => t.record M id failure u.now
  | .batch n failures => t.recordN M id n failures u.now

def applyAll (M : OpMath F) (id : OpID) (t : OpTracker F) (us : List (Update F)) : OpTracker F :=
  us.foldl (apply M id) t

def charged (M : OpMath F) (id : OpID) : OpTracker F → List (Update F) → Int
  | _, [] => 0
  | t, u :: us => (t.stat id).charge u.now t.halfLife + charged M id (t.apply M id u) us

end OpTracker

namespace OperatorStat

section Charge

variable {F : Type} {now : Int} {s : OperatorStat F}

theorem charge_le {prev : Int} (halfLife : Int)
    (hs : GoTime.unix prev ≤ s.updatedAt) (h : prev ≤ now) :
    s.charge now halfLife ≤ now - prev + GoTime.subsecond prev := by
  have hsu := GoTime.subsecond_nonneg prev
  have hp := GoTime.ofUnix_unix prev
  have hst := GoTime.ofUnix_le_ofUnix hs
  unfold charge
  split_ifs with hfr hf
  · omega
  · omega
  · have ha : GoTime.ofUnix s.updatedAt ≤ now := by
      rw [elapsed,GoTime.sub_le_zero_iff] at hf
      omega
    have hle := GoTime.sub_le_diff ha
    unfold elapsed
    omega

theorem charge_eq {prev halfLife : Int} (hl : 0 < halfLife)
    (hp : 0 < GoTime.unix prev) (hs : s.updatedAt = GoTime.unix prev) (h : prev ≤ now)
    (hm : now - prev + GoTime.second ≤ GoTime.maxDuration) :
    s.charge now halfLife = now - prev + GoTime.subsecond prev := by
  have hsu := GoTime.subsecond_nonneg prev
  have hlt := GoTime.subsecond_lt prev
  have hst := GoTime.ofUnix_unix prev
  have he : s.elapsed now = now - prev + GoTime.subsecond prev := by
    rw [elapsed,hs,GoTime.sub_eq_diff (by omega) (by omega)]
    omega
  rw [charge,he]
  split_ifs <;> omega

theorem charge_congr {s' : OperatorStat F} (h : s'.updatedAt = s.updatedAt) (now halfLife : Int) :
    s'.charge now halfLife = s.charge now halfLife := by
  unfold charge elapsed
  rw [h]

variable [Mul F]

theorem updatedAt_decayTo (M : OpMath F) (s : OperatorStat F) (now halfLife : Int) :
    GoTime.unix now ≤ (s.decayTo M now halfLife).updatedAt := by
  unfold decayTo
  split_ifs with hfr hf
  · exact le_refl _
  · have hle := GoTime.unix_le_unix ((GoTime.sub_le_zero_iff _ _).mp hf)
    rwa [GoTime.unix_ofUnix] at hle
  · exact le_refl _

theorem updatedAt_decayTo_eq (M : OpMath F) (halfLife : Int)
    (h : s.updatedAt ≤ GoTime.unix now) : (s.decayTo M now halfLife).updatedAt =
    GoTime.unix now := by
  refine le_antisymm ?_ (updatedAt_decayTo M s now halfLife)
  unfold decayTo
  split_ifs
  · exact le_refl _
  · exact h
  · exact le_refl _

theorem updatedAt_decayTo_congr (M : OpMath F) {s' : OperatorStat F}
    (h : s'.updatedAt = s.updatedAt) (now halfLife : Int) :
    (s'.decayTo M now halfLife).updatedAt = (s.decayTo M now halfLife).updatedAt := by
  have he : s'.elapsed now = s.elapsed now := by rw [elapsed,h,elapsed]
  unfold decayTo
  rw [h,he]
  split_ifs
  · rfl
  · exact h
  · rfl

end Charge

variable {F : Type} [Zero F] [One F] [Add F] [Mul F] [Div F] [LT F] [DecidableLT F] [DecidableEq F]

theorem attempts_counted (M : OpMath F) (s : OperatorStat F) (failure : F) (now : Int) :
    (s.counted M failure now).attempts = s.attempts + 1 := by
  simp [counted,cleanRunAfter,keepForgiveness]
  split_ifs <;> rfl

theorem updatedAt_counted (M : OpMath F) (s : OperatorStat F) (failure : F) (now : Int) :
    (s.counted M failure now).updatedAt = s.updatedAt := by
  simp [counted,cleanRunAfter,keepForgiveness]
  split_ifs <;> rfl

end OperatorStat

namespace OpTracker

variable {F : Type} {us : List (Update F)} {u : Update F}

def subseconds (us : List (Update F)) : Int := (us.map fun u => GoTime.subsecond u.now).sum

def lastTime (u : Update F) (us : List (Update F)) : Int :=
  ((u :: us).getLast (List.cons_ne_nil u us)).now

abbrev InOrder (us : List (Update F)) : Prop := us.Pairwise fun u v => u.now ≤ v.now

theorem lastTime_cons (u v : Update F) (us : List (Update F)) :
    lastTime u (v :: us) = lastTime v us := by
  unfold lastTime
  rw [getLast_cons]

theorem le_lastTime (h : InOrder (u :: us)) :
    u.now ≤ lastTime u us := by
  induction us generalizing u with
  | nil => exact le_refl _
  | cons v us ih =>
    obtain ⟨hu,hus⟩ := pairwise_cons.mp h
    exact (hu v (.head _)).trans (ih hus)

theorem subseconds_dropLast_cons (u v : Update F) (us : List (Update F)) :
    subseconds (u :: v :: us).dropLast =
      GoTime.subsecond u.now + subseconds (v :: us).dropLast := by
  simp [subseconds]

variable [Zero F] [One F] [Add F] [Mul F] [Div F] [LT F] [DecidableLT F] [DecidableEq F]

section

variable (M : OpMath F) (id : OpID) (t : OpTracker F) (u : Update F)

theorem halfLife_apply : (t.apply M id u).halfLife = t.halfLife := by
  obtain ⟨evidence,now⟩ := u
  cases evidence <;> rfl

theorem updatedAt_apply : ((t.apply M id u).stat id).updatedAt =
      ((t.stat id).decayTo M u.now t.halfLife).updatedAt := by
  obtain ⟨evidence,now⟩ := u
  cases evidence with
  | attempt failure =>
    simp [apply,record,stat,GoMap.get_put_self]
    exact OperatorStat.updatedAt_counted M _ failure now
  | batch n failures =>
    simp [apply,recordN,stat,GoMap.get_put_self,OperatorStat.countedN]

theorem attempts_apply : ((t.apply M id u).stat id).attempts =
      ((t.stat id).decayTo M u.now t.halfLife).attempts + u.evidence.weight := by
  obtain ⟨evidence,now⟩ := u
  cases evidence with
  | attempt failure =>
    simp [apply,record,stat,GoMap.get_put_self]
    exact OperatorStat.attempts_counted M _ failure now
  | batch n failures =>
    simp [apply,recordN,stat,GoMap.get_put_self,OperatorStat.countedN,Evidence.weight]

end

theorem charged_le (M : OpMath F) (id : OpID) {t : OpTracker F} (h : InOrder (u :: us))
    (hs : GoTime.unix u.now ≤ (t.stat id).updatedAt) :
    t.charged M id us ≤ lastTime u us - u.now + subseconds (u :: us).dropLast := by
  induction us generalizing t u with
  | nil => simp [charged,lastTime,subseconds]
  | cons v us ih =>
    obtain ⟨hu,hus⟩ := pairwise_cons.mp h
    have hs' : GoTime.unix v.now ≤ ((t.apply M id v).stat id).updatedAt := by
      rw [updatedAt_apply]
      exact OperatorStat.updatedAt_decayTo M _ _ _
    have hr := ih hus hs'
    have hf := OperatorStat.charge_le t.halfLife hs (hu v (.head _))
    rw [lastTime_cons,subseconds_dropLast_cons,charged]
    omega

theorem charged_eq (M : OpMath F) (id : OpID) {t : OpTracker F} (h : InOrder (u :: us))
    (hl : 0 < t.halfLife)
    (hp : 0 < GoTime.unix u.now) (hs : (t.stat id).updatedAt = GoTime.unix u.now)
    (hm : lastTime u us - u.now + GoTime.second ≤ GoTime.maxDuration) :
    t.charged M id us = lastTime u us - u.now + subseconds (u :: us).dropLast := by
  induction us generalizing t u with
  | nil => simp [charged,lastTime,subseconds]
  | cons v us ih =>
    obtain ⟨hu,hus⟩ := pairwise_cons.mp h
    have hle := hu v (.head _)
    have hla := le_lastTime hus
    rw [lastTime_cons] at hm
    have hun := GoTime.unix_le_unix hle
    have hs' : ((t.apply M id v).stat id).updatedAt = GoTime.unix v.now := by
      rw [updatedAt_apply]
      exact OperatorStat.updatedAt_decayTo_eq M _ (hs.trans_le hun)
    have hl' : 0 < (t.apply M id v).halfLife := by rwa [halfLife_apply]
    have hr := ih hus hl' (by omega) hs' (by omega)
    have hf := OperatorStat.charge_eq hl hp hs hle (by omega)
    rw [lastTime_cons,subseconds_dropLast_cons,charged,hf]
    omega

abbrev Live (t : OpTracker F) (id : OpID) (u : Update F) (us : List (Update F)) : Prop :=
  0 < t.halfLife ∧ 0 < GoTime.unix u.now ∧ (t.stat id).updatedAt ≤ GoTime.unix u.now ∧
    lastTime u us - u.now + GoTime.second ≤ GoTime.maxDuration

theorem decay_charge_bounded (M : OpMath F) (t : OpTracker F) (id : OpID) (u : Update F)
    (us : List (Update F)) (h : InOrder (u :: us)) :
    (subseconds (u :: us).dropLast ≤ GoTime.second →
      (t.apply M id u).charged M id us ≤ lastTime u us - u.now + GoTime.second) ∧
    (t.Live id u us →
      ((t.apply M id u).charged M id us ≤ lastTime u us - u.now + GoTime.second ↔
        subseconds (u :: us).dropLast ≤ GoTime.second)) := by
  constructor
  · intro hsu
    have hs : GoTime.unix u.now ≤ ((t.apply M id u).stat id).updatedAt := by
      rw [updatedAt_apply]
      exact OperatorStat.updatedAt_decayTo M _ _ _
    have hle := charged_le M id h hs
    omega
  · rintro ⟨hl,hp,hold,hm⟩
    have hs : ((t.apply M id u).stat id).updatedAt = GoTime.unix u.now := by
      rw [updatedAt_apply]
      exact OperatorStat.updatedAt_decayTo_eq M _ hold
    rw [charged_eq M id h (by rwa [halfLife_apply]) hp hs hm]
    omega

theorem calls_in_budget_charge_the_clock :
    let fade : OpMath Int := ⟨fun _ _ => 1,200⟩
    let id : OpID := ⟨"eth".toList,"a.example".toList,[]⟩
    let calls : List (Update Int) :=
      [⟨.attempt 0,101 * GoTime.second⟩,⟨.batch 30 2,101 * GoTime.second + 900000000⟩,
        ⟨.attempt 1,160 * GoTime.second⟩]
    subseconds (⟨.attempt 0,100 * GoTime.second⟩ :: calls).dropLast ≤ GoTime.second ∧
      ((newOpTracker 0).apply fade id ⟨.attempt 0,100 * GoTime.second⟩).charged fade id calls ≤
        60 * GoTime.second + GoTime.second :=
  ⟨by decide,(decay_charge_bounded _ _ _ _ _ (by decide)).1 (by decide)⟩

theorem repeated_calls_overcharge :
    let fade : OpMath Int := ⟨fun _ _ => 1,200⟩
    let id : OpID := ⟨"eth".toList,"a.example".toList,[]⟩
    let call : Update Int := ⟨.attempt 0,100 * GoTime.second + 900000000⟩
    InOrder [call,call,call] ∧
      lastTime call [call,call] - call.now + GoTime.second <
        ((newOpTracker 0).apply fade id call).charged fade id [call,call] := by
  decide

section Weight

variable {R : Type} [CommRing R]

theorem attempts_decayTo {M : OpMath R} {halfLife : Int} (hz : M.fade 0 halfLife = 1)
    (s : OperatorStat R) (now : Int) :
    (s.decayTo M now halfLife).attempts = s.attempts * M.fade (s.charge now halfLife) halfLife := by
  unfold OperatorStat.decayTo OperatorStat.charge
  split_ifs
  · rw [hz,mul_one]
  · rw [hz,mul_one]
  · rfl

variable [Div R] [LT R] [DecidableLT R] [DecidableEq R]

theorem attempts_applyAll_add {M : OpMath R} (id : OpID) {t t' : OpTracker R} {w : R}
    (hz : M.fade 0 t.halfLife = 1)
    (had : ∀ a b, M.fade (a + b) t.halfLife = M.fade a t.halfLife * M.fade b t.halfLife)
    (hl : t'.halfLife = t.halfLife) (hs : (t'.stat id).updatedAt = (t.stat id).updatedAt)
    (ha : (t'.stat id).attempts = (t.stat id).attempts + w) (us : List (Update R)) :
    ((t'.applyAll M id us).stat id).attempts =
      ((t.applyAll M id us).stat id).attempts + w * M.fade (t.charged M id us) t.halfLife := by
  induction us generalizing t t' w with
  | nil => simp [applyAll,charged,hz,ha]
  | cons u us ih =>
    have hc := OperatorStat.charge_congr hs u.now t.halfLife
    have hn : ((t'.apply M id u).stat id).attempts = ((t.apply M id u).stat id).attempts +
        w * M.fade ((t.stat id).charge u.now t.halfLife) t.halfLife := by
      rw [attempts_apply,attempts_apply,hl,attempts_decayTo hz,attempts_decayTo hz,hc,
        ha]
      ring
    have hs' : ((t'.apply M id u).stat id).updatedAt = ((t.apply M id u).stat id).updatedAt := by
      rw [updatedAt_apply,updatedAt_apply,hl]
      exact OperatorStat.updatedAt_decayTo_congr M hs u.now t.halfLife
    have hr := ih (by rwa [halfLife_apply]) (by rwa [halfLife_apply])
      (by rw [halfLife_apply,halfLife_apply,hl]) hs' hn
    rw [halfLife_apply] at hr
    simp [applyAll,charged] at hr ⊢
    rw [hr,had,mul_assoc]

end Weight

end OpTracker

end SageGateway.Reputation
