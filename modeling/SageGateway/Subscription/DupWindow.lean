import SageGateway.Lib.Run
import SageGateway.Subscription.Registry

namespace SageGateway

open List GoMap

theorem int64_of_range {n : Int} (hlo : -2 ^ 63 ≤ n) (hhi : n < 2 ^ 63) : int64 n = n := by
  unfold int64
  rw [Int.bmod_def]
  split <;> omega

theorem int64_wraps {n : Int} (hlo : 2 ^ 63 ≤ n) (hhi : n < 2 ^ 64) : int64 n = n - 2 ^ 64 := by
  unfold int64
  rw [Int.bmod_def]
  split <;> omega

namespace DupWindow

structure Call where
  hash : Nat
  time : Int
  gap : Option Int
  deriving DecidableEq

-- One subscription's window and its calls, newest first.
structure Watched where
  window : DupWindow
  log : List Call

-- When the hash was last recorded, and the other hashes that came since.
def since (h : Nat) : List Call → Option (Int × Finset Nat)
  | [] => none
  | c :: log =>
      if c.hash = h ∧ c.gap = none then some (c.time,∅)
      else (since h log).map fun r => (r.1,if c.hash = h then r.2 else insert c.hash r.2)

namespace Watched

def new : Watched := ⟨.empty,[]⟩

def step (limit window : Int) (w : Watched) (a : Nat × Int) : Option Watched :=
  let (gap,d) := w.window.seen a.1 a.2 limit window
  some ⟨d,⟨a.1,a.2,gap⟩ :: w.log⟩

def InOrder (w : Watched) (a : Nat × Int) : Prop :=
  (-2 ^ 63 ≤ a.2 ∧ a.2 < 2 ^ 63) ∧ ∀ c ∈ w.log, c.time ≤ a.2

instance (w : Watched) (a : Nat × Int) : Decidable (InOrder w a) :=
  inferInstanceAs (Decidable (_ ∧ _))

end Watched

section Lookup

variable {d : DupWindow} {h k : Nat} {now t limit window : Int}

def lookup (d : DupWindow) (h : Nat) (now : Int) : Option Int × DupWindow :=
  match d.cur.get h with
  | some at' => (some (int64 (now - at')),d)
  | none =>
      match d.prev.get h with
      | some at' => (some (int64 (now - at')),d)
      | none => (none,{ d with cur := d.cur.put h now })

def limits (limit window : Int) : Int × Int :=
  if window ≤ 0 then (dupMinimal,2 ^ 62) else (limit,window)

theorem step_eq (w : Watched) (a : Nat × Int) :
    w.step limit window a =
      let r := (w.window.close a.2 (limits limit window).1 (limits limit window).2).lookup a.1 a.2
      some ⟨r.2,⟨a.1,a.2,r.1⟩ :: w.log⟩ := rfl

theorem close_cases (d : DupWindow) (now limit window : Int) :
    int64 (2 * window) ≤ int64 (now - d.curStart) ∧ d.close now limit window = ⟨∅,∅,now⟩ ∨
    (window ≤ int64 (now - d.curStart) ∨ limit ≤ d.cur.len) ∧
      ¬int64 (2 * window) ≤ int64 (now - d.curStart) ∧ d.close now limit window = ⟨∅,d.cur,now⟩ ∨
    ¬window ≤ int64 (now - d.curStart) ∧ ¬limit ≤ d.cur.len ∧ d.close now limit window = d := by
  unfold close
  dsimp only
  split
  · next hold => exact .inl ⟨hold,rfl⟩
  · next hold =>
    split
    · next hc => exact .inr (.inl ⟨hc,hold,rfl⟩)
    · next ho => exact .inr (.inr ⟨fun h => ho (.inl h),fun h => ho (.inr h),rfl⟩)

theorem lookup_cases (d : DupWindow) (h : Nat) (now : Int) :
    (∃ t, (d.cur.get h = some t ∨ d.cur.get h = none ∧ d.prev.get h = some t) ∧
      d.lookup h now = (some (int64 (now - t)),d)) ∨
    d.cur.get h = none ∧ d.prev.get h = none ∧
      d.lookup h now = (none,{ d with cur := d.cur.put h now }) := by
  unfold lookup
  cases hc : d.cur.get h with
  | some t => exact .inl ⟨t,.inl rfl,rfl⟩
  | none =>
    cases hp : d.prev.get h with
    | some t => exact .inl ⟨t,.inr ⟨rfl,rfl⟩,rfl⟩
    | none => exact .inr ⟨rfl,rfl,rfl⟩

theorem get_of_close (hg : (d.close now limit window).cur.get h = some t ∨
    (d.close now limit window).prev.get h = some t) :
    d.cur.get h = some t ∨ d.prev.get h = some t := by
  rcases close_cases d now limit window with ⟨-,heq⟩ | ⟨-,-,heq⟩ | ⟨-,-,heq⟩
  · rw [heq] at hg
    simp at hg
  · rw [heq] at hg
    simp [get_empty,reduceCtorEq] at hg
    exact .inl hg
  · rwa [heq] at hg

end Lookup

section Invariant

variable {limit window now t : Int} {h : Nat} {others : Finset Nat} {d : DupWindow}
  {w w' : Watched} {log : List Call}

def Expired (limit window : Int) (log : List Call) (t : Int) (others : Finset Nat) : Prop :=
  (∃ c ∈ log, window ≤ c.time - t) ∨ limit ≤ others.card

-- A recorded hash is in the current generation, or in the previous one with everything of the
-- current one newer, or its time or its count is over.
inductive Kept (limit window : Int) (d : DupWindow) (log : List Call) (h : Nat) (t : Int)
    (others : Finset Nat) : Prop
  | current (hget : d.cur.get h = some t) (hage : int64 (t - d.curStart) < window)
      (hstart : d.curStart ≤ t ∨ d.curStart = 0)
  | previous (hcur : d.cur.get h = none) (hget : d.prev.get h = some t) (hstart : t ≤ d.curStart)
      (hnewer : ∀ k v, d.cur.get k = some v → k ∈ others)
  | expired (h : Expired limit window log t others)

structure Timed (d : DupWindow) (log : List Call) : Prop where
  range : ∀ c ∈ log, -2 ^ 63 ≤ c.time ∧ c.time < 2 ^ 63
  start : d.curStart = 0 ∨ ∃ c ∈ log, c.time = d.curStart

structure Recorded (limit window : Int) (w : Watched) : Prop where
  timed : Timed w.window w.log
  known : ∀ {h t}, w.window.cur.get h = some t ∨ w.window.prev.get h = some t →
    since h w.log ≠ none
  kept : ∀ {h t others}, since h w.log = some (t,others) →
    t ∈ w.log.map Call.time ∧
      (0 < window → window < 2 ^ 62 → Kept limit window w.window w.log h t others)

-- No age between a start and a later call is taken for a longer one: a difference past the range
-- wraps to a negative age.
theorem age_le (hn : -2 ^ 63 ≤ now ∧ now < 2 ^ 63) {s b : Int} (hs : -2 ^ 63 ≤ s)
    (hle : s ≤ now ∨ s = 0) (hb : now - s ≤ b) : int64 (now - s) ≤ b := by
  by_cases hhi : now - s < 2 ^ 63
  · rwa [int64_of_range (by omega) hhi]
  · rw [int64_wraps (by omega) (by omega)]
    omega

theorem Timed.start_le (ht : Timed d log) (hl : ∀ c ∈ log, c.time ≤ now) :
    d.curStart ≤ now ∨ d.curStart = 0 := by
  rcases ht.start with hz | ⟨c,hc,heq⟩
  · exact .inr hz
  · exact .inl (heq ▸ hl c hc)

theorem Timed.start_ge (ht : Timed d log) : -2 ^ 63 ≤ d.curStart := by
  rcases ht.start with hz | ⟨c,hc,heq⟩
  · omega
  · exact heq ▸ (ht.range c hc).1

theorem Kept.close (hke : Kept limit window d log h t others) (hti : Timed d log)
    (hp : 0 < window) (hm : window < 2 ^ 62) (hno : -2 ^ 63 ≤ now ∧ now < 2 ^ 63)
    (hl : ∀ c ∈ log, c.time ≤ now) (ht : t ∈ log.map Call.time) :
    Kept limit window (d.close now limit window) log h t others ∨ window ≤ now - t := by
  have htw : int64 (2 * window) = 2 * window := int64_of_range (by omega) (by omega)
  have hr : -2 ^ 63 ≤ t ∧ t ≤ now := by
    obtain ⟨c,hc,rfl⟩ := mem_map.mp ht
    exact ⟨(hti.range c hc).1,hl c hc⟩
  have hge := hti.start_ge
  have hle := hti.start_le hl
  by_cases hin : window ≤ now - t
  · exact .inr hin
  refine .inl ?_
  cases hke with
  | expired h => exact .expired h
  | current hg ha hs =>
    have hw : int64 (now - d.curStart) ≤ 2 * window - 1 := by
      by_cases hf : t - d.curStart < 2 ^ 63
      · rw [int64_of_range (by omega) hf] at ha
        exact age_le hno hge hle (by omega)
      · rw [int64_wraps (by omega) (by omega)]
        omega
    rcases close_cases d now limit window with ⟨hold,-⟩ | ⟨-,-,heq⟩ | ⟨-,-,heq⟩
    · omega
    · rw [heq]
      exact .previous (get_empty h) hg hr.2 fun k v hk => by simp at hk
    · rw [heq]
      exact .current hg ha hs
  | previous hcu hg hs hn =>
    have hw : int64 (now - d.curStart) ≤ window - 1 :=
      age_le hno hge hle (by omega)
    rcases close_cases d now limit window with ⟨hold,-⟩ | ⟨ha | hfu,-⟩ | ⟨-,-,heq⟩
    · omega
    · omega
    · exact .expired (.inr (hfu.trans (Int.ofNat_le.mpr (len_le_card hn))))
    · rw [heq]
      exact .previous hcu hg hs hn

variable (limit window) in
theorem Timed.close (ht : Timed d log) (c : Call)
    (hr : -2 ^ 63 ≤ c.time ∧ c.time < 2 ^ 63) :
    Timed (d.close c.time limit window) (c :: log) := by
  refine ⟨forall_mem_cons.mpr ⟨hr,ht.range⟩,?_⟩
  rcases close_cases d c.time limit window with ⟨-,heq⟩ | ⟨-,-,heq⟩ | ⟨-,-,heq⟩
  · rw [heq]
    exact .inr ⟨c,.head _,rfl⟩
  · rw [heq]
    exact .inr ⟨c,.head _,rfl⟩
  · rw [heq]
    exact ht.start.imp_right fun ⟨b,hb,hs⟩ => ⟨b,.tail _ hb,hs⟩

theorem Kept.cons (hke : Kept limit window d log h t others) {c : Call}
    {others' : Finset Nat} (hsu : others ⊆ others') :
    Kept limit window d (c :: log) h t others' := by
  cases hke with
  | current hg ha hs => exact .current hg ha hs
  | previous hc hg hs hn =>
    exact .previous hc hg hs fun k v hk => hsu (hn k v hk)
  | expired h =>
    rcases h with ⟨b,hb,hw⟩ | hf
    · exact .expired (.inl ⟨b,.tail _ hb,hw⟩)
    · have := Finset.card_le_card hsu
      exact .expired (.inr (by omega))

theorem Kept.put (hke : Kept limit window d log h t others) {k : Nat} (hk : h ≠ k)
    (hm : k ∈ others) : Kept limit window { d with cur := d.cur.put k now } log h t others := by
  cases hke with
  | current hg ha hs =>
    exact .current ((get_put_ne _ _ hk).trans hg) ha hs
  | previous hc hg hs hn =>
    refine .previous ((get_put_ne _ _ hk).trans hc) hg hs fun j v hj => ?_
    rcases get_put_eq_some.mp hj with ⟨rfl,-⟩ | ⟨-,hj⟩
    · exact hm
    · exact hn j v hj
  | expired h => exact .expired h

variable (d now limit) in
theorem age_of_close (hp : 0 < window) :
    int64 (now - (d.close now limit window).curStart) < window := by
  have hz : int64 (now - now) = 0 := by
    rw [Int.sub_self]
    rfl
  rcases close_cases d now limit window with ⟨-,heq⟩ | ⟨-,-,heq⟩ | ⟨ha,-,heq⟩
  · rwa [heq,hz]
  · rwa [heq,hz]
  · rw [heq]
    exact Int.not_le.mp ha

theorem limits_of_pos (hp : 0 < window) : limits limit window = (limit,window) :=
  if_neg (Int.not_le.mpr hp)

theorem since_cons_recorded (h : Nat) (now : Int) (log : List Call) :
    since h (⟨h,now,none⟩ :: log) = some (now,∅) := if_pos ⟨rfl,rfl⟩

theorem since_cons (c : Call) (hc : ¬(c.hash = h ∧ c.gap = none)) (log : List Call) :
    since h (c :: log) =
      (since h log).map fun r => (r.1,if c.hash = h then r.2 else insert c.hash r.2) := if_neg hc

theorem Recorded.step (hw : Recorded limit window w) {a : Nat × Int} (hok : w.InOrder a)
    (hst : w.step limit window a = some w') : Recorded limit window w' := by
  obtain ⟨k,now⟩ := a
  obtain ⟨hno,hl⟩ := hok
  rw [step_eq] at hst
  cases hst
  set d := w.window.close now (limits limit window).1 (limits limit window).2 with hd
  have hkn : ∀ {h t}, d.cur.get h = some t ∨ d.prev.get h = some t →
      since h w.log ≠ none := fun hg => hw.known (get_of_close hg)
  have hcl : ∀ {h t others}, since h w.log = some (t,others) → 0 < window → window < 2 ^ 62 →
      ∀ c : Call, c.time = now → ∀ others', others ⊆ others' →
        Kept limit window d (c :: w.log) h t others' := by
    intro h t others hs hp hm c hc others' hsu
    obtain ⟨ht,hke⟩ := hw.kept hs
    rw [limits_of_pos hp] at hd
    rcases (hke hp hm).close hw.timed hp hm hno hl ht with hke | ho
    · rw [hd]
      exact hke.cons hsu
    · exact .expired (.inl ⟨c,.head _,by rw [hc]; exact ho⟩)
  rcases lookup_cases d k now with ⟨t₀,hf,heq⟩ | ⟨hcu,hpr,heq⟩
  · rw [heq]
    have hga : ∀ h, ¬(k = h ∧ some (int64 (now - t₀)) = none) := fun h hc => by cases hc.2
    refine ⟨hw.timed.close _ _ ⟨k,now,_⟩ hno,fun {h t} hg => ?_,fun {h t others} hs => ?_⟩
    · rw [since_cons _ (hga h)]
      simpa using hkn hg
    · rw [since_cons _ (hga h)] at hs
      obtain ⟨⟨t₁,others₁⟩,hold,hn⟩ := Option.map_eq_some_iff.mp hs
      cases hn
      refine ⟨.tail _ (hw.kept hold).1,fun hp hm => ?_⟩
      refine hcl hold hp hm _ rfl _ ?_
      split
      · exact Finset.Subset.refl _
      · exact Finset.subset_insert _ _
  · rw [heq]
    have hti := hw.timed.close (limits limit window).1 (limits limit window).2
      ⟨k,now,none⟩ hno
    refine ⟨{ hti with },fun {h t} hg => ?_,fun {h t others} hs => ?_⟩
    · by_cases hk : k = h
      · subst hk
        rw [since_cons_recorded]
        exact Option.some_ne_none _
      · rw [since_cons _ (fun hc => hk hc.1)]
        have hg' : d.cur.get h = some t ∨ d.prev.get h = some t := by
          rcases hg with hg | hg
          · exact .inl ((get_put_ne _ _ (Ne.symm hk)).symm.trans hg)
          · exact .inr hg
        simpa using hkn hg'
    · by_cases hk : k = h
      · subst hk
        rw [since_cons_recorded] at hs
        cases hs
        refine ⟨.head _,fun hp _ => ?_⟩
        have ha := age_of_close limit now w.window hp
        rw [limits_of_pos hp] at hd
        refine .current (get_put_self _ _ _) (by rw [hd]; exact ha) ?_
        exact hti.start_le (forall_mem_cons.mpr ⟨Int.le_refl _,hl⟩)
      · rw [since_cons _ (fun hc => hk hc.1)] at hs
        obtain ⟨⟨t₁,others₁⟩,hold,hn⟩ := Option.map_eq_some_iff.mp hs
        rw [if_neg hk] at hn
        cases hn
        refine ⟨.tail _ (hw.kept hold).1,fun hp hm => ?_⟩
        exact (hcl hold hp hm ⟨k,now,none⟩ rfl _ (Finset.subset_insert _ _)).put
          (Ne.symm hk) (Finset.mem_insert_self _ _)

end Invariant

namespace Watched

variable {limit window : Int} {w : Watched}

end Watched

end DupWindow

end SageGateway
