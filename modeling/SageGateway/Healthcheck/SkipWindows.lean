import SageGateway.Healthcheck.TrafficSkip

namespace SageGateway.Healthcheck.Probing

open List Option

variable {k : TrafficKey} {name : GoString} {n : Nat} {p p' : Probing}

def own (k : TrafficKey) (name : GoString) (log : List Decision) : List Decision :=
  log.filter fun d => decide (d.check.key = k ∧ d.check.name = name)

-- The check is decided once a cycle, no other check of its backend moves the backend's reading, and
-- the reading is not dropped for its age.
def Undisturbed (k : TrafficKey) (name : GoString) (p : Probing) : Act → Prop
  | .beginCycle _ => True
  | .due c => ∀ now ∈ p.cycle, c.asks = true → c.key = k →
      if c.name = name then (k,name) ∉ p.decided else p.skipper.Leaves c now
  | .endCycle => ∀ now ∈ p.cycle, ∀ b ∈ p.skipper.prev.get k,
      p.skipper.next.has k = true ∨ now - maxBaselineAge ≤ b.time

instance (k : TrafficKey) (name : GoString) (p : Probing) : ∀ a, Decidable (Undisturbed k name p a)
  | .beginCycle _ => .isTrue trivial
  | .due c => inferInstanceAs (Decidable (∀ now ∈ p.cycle, c.asks = true → c.key = k →
      if c.name = name then (k,name) ∉ p.decided else p.skipper.Leaves c now))
  | .endCycle => inferInstanceAs (Decidable (∀ now ∈ p.cycle, ∀ b ∈ p.skipper.prev.get k,
      p.skipper.next.has k = true ∨ now - maxBaselineAge ≤ b.time))

def Exact (n : Nat) (k : TrafficKey) (name : GoString) (log : List Decision) : Prop :=
  ∀ later d past, log = later ++ d :: past → d.check.key = k → d.check.name = name →
    (d.skipped = true ↔ ∃ b, windowOf (own k name past) = some b ∧ Covers n b d.time d.check)

variable {d : Decision} {now : Int}

theorem Exact.cons {log : List Decision} (h : Exact n k name log)
    (hd : d.check.key = k → d.check.name = name →
      (d.skipped = true ↔ ∃ b, windowOf (own k name log) = some b ∧ Covers n b d.time d.check)) :
    Exact n k name (d :: log) := by
  intro later e past hl
  cases later with
  | nil =>
    cases hl
    exact hd
  | cons first later =>
    obtain ⟨-,hr⟩ := List.cons.inj hl
    exact h later e past hr

structure Own (n : Nat) (k : TrafficKey) (name : GoString) (p : Probing) : Prop where
  threshold : p.skipper.minSignals = n
  window : ∀ now ∈ p.cycle, p.skipper.window k = windowOf (own k name p.log)
  -- What the check will be compared with, until it is decided in this cycle.
  baseline : p.cycle = none ∨ (k,name) ∉ p.decided →
    p.skipper.prev.get k = windowOf (own k name p.log)
  exact : Exact n k name p.log

theorem own_new (n : Nat) (k : TrafficKey) (name : GoString) : Own n k name (new n) where
  threshold := rfl
  window _ h := by cases h
  baseline _ := rfl
  exact later d past h := by cases later <;> cases h

theorem Own.beginCycle (h : Own n k name p) (hc : p.cycle = none) (now : Int) :
    Own n k name
      { p with skipper := p.skipper.beginCycle, cycle := some now, decided := [] } where
  __ := h
  window _ _ := h.baseline (.inl hc)
  baseline _ := h.baseline (.inl hc)

theorem Own.endCycle (h : Own n k name p) (hc : p.cycle = some now)
    (ha : ∀ b ∈ p.skipper.prev.get k,
      p.skipper.next.has k = true ∨ now - maxBaselineAge ≤ b.time) :
    Own n k name { p with skipper := p.skipper.endCycle now, cycle := none } where
  __ := h
  window _ hnow := by cases hnow
  baseline _ := by
    refine Eq.trans ?_ (h.window now hc)
    show (p.skipper.endCycle now).prev.get k = (p.skipper.next.get k).or (p.skipper.prev.get k)
    rw [TrafficSkipper.get_endCycle]
    cases hp : p.skipper.prev.get k with
    | none => rw [elim_none,or_none]
    | some b =>
      rw [elim_some,TrafficSkipper.carried]
      rcases ha b hp with hh | hy
      · obtain ⟨v,hv⟩ := (GoMap.has_iff _ _).mp hh
        rw [hv]
        rfl
      · rw [if_neg (Int.not_lt.mpr hy)]

theorem own_cons {log : List Decision} :
    own k name (d :: log) =
      if d.check.key = k ∧ d.check.name = name then d :: own k name log else own k name log := by
  simp only [own,filter_cons,decide_eq_true_eq]

theorem window_decided {t : TrafficSkipper} {c : DueCheck} {past : List Decision}
    (hp : t.prev.get c.key = windowOf past) (hw : t.window c.key = windowOf past)
    (b : Bool) : (t.skip c now).1.window c.key = windowOf (⟨now,c,b⟩ :: past) := by
  rw [windowOf]
  obtain ⟨hn,ht⟩ | ⟨signals,ht,hn⟩ := t.skip_next c now
  · rwa [ht,TrafficSkipper.window,hn,TrafficSkipper.skip_prev.1]
  · rw [ht,TrafficSkipper.window,hn,GoMap.get_put_self,hp]
    cases windowOf past with
    | none => rfl
    | some b => exact apply_ite some _ _ _

theorem Own.due (h : Own n k name p) {c : DueCheck} (hc : p.cycle = some now)
    (hok : c.key = k → if c.name = name then (k,name) ∉ p.decided
      else p.skipper.Leaves c now) :
    Own n k name { p with
      skipper := (p.skipper.skip c now).1
      log := ⟨now,c,(p.skipper.skip c now).2⟩ :: p.log
      decided := (c.key,c.name) :: p.decided } := by
  by_cases ho : c.key = k ∧ c.name = name
  · obtain ⟨rfl,rfl⟩ := ho
    have hf : (c.key,c.name) ∉ p.decided := by
      have hif := hok rfl
      rwa [if_pos rfl] at hif
    have hp := h.baseline (.inr hf)
    constructor
    case threshold => exact TrafficSkipper.skip_prev.2.trans h.threshold
    case window =>
      intro _ _
      rw [own_cons,if_pos ⟨rfl,rfl⟩]
      exact window_decided hp (h.window now hc) _
    case baseline =>
      rintro (hnn | hno)
      · cases hc.symm.trans hnn
      · exact absurd (.head _) hno
    case exact =>
      refine h.exact.cons fun _ _ => ?_
      rw [TrafficSkipper.skip_iff,hp,h.threshold]
  · have hs : own k name (⟨now,c,(p.skipper.skip c now).2⟩ :: p.log) = own k name p.log := by
      rw [own_cons,if_neg ho]
    have hw : (p.skipper.skip c now).1.window k = p.skipper.window k := by
      by_cases hk : c.key = k
      · have hif := hok hk
        rw [if_neg (fun hn => ho ⟨hk,hn⟩)] at hif
        exact hk ▸ TrafficSkipper.window_skip hif
      · unfold TrafficSkipper.window
        rw [TrafficSkipper.skip_prev.1]
        obtain ⟨hne,-⟩ | ⟨signals,-,hne⟩ := p.skipper.skip_next c now
        · rw [hne]
        · rw [hne,GoMap.get_put_ne _ _ (Ne.symm hk)]
    constructor
    case threshold => exact TrafficSkipper.skip_prev.2.trans h.threshold
    case window =>
      intro _ _
      rw [hs,hw]
      exact h.window now hc
    case baseline =>
      intro hfr
      rw [hs,TrafficSkipper.skip_prev.1]
      refine h.baseline (hfr.imp_right fun hno hm => hno (.tail _ hm))
    case exact => exact h.exact.cons fun hk hn => absurd ⟨hk,hn⟩ ho

theorem Own.step (h : Own n k name p) {a : Act} (hok : Undisturbed k name p a)
    (hs : p.step a = some p') : Own n k name p' := by
  cases a with
  | beginCycle now =>
    obtain ⟨hc,rfl⟩ := Run.guard_neg hs
    exact h.beginCycle (not_isSome_iff_eq_none.mp hc) now
  | due c =>
    obtain ⟨now,hc,rfl⟩ := map_eq_some_iff.mp hs
    unfold TrafficSkipper.skipCoveredByTraffic
    cases ha : c.asks with
    | false => exact h
    | true => exact h.due hc (hok now hc ha)
  | endCycle =>
    obtain ⟨now,hc,rfl⟩ := map_eq_some_iff.mp hs
    exact h.endCycle hc (hok now hc)

theorem skipped_exactly_when_covered (h : Run.Reaches step (Undisturbed k name) (new n) p)
    {later past : List Decision} {d : Decision} (hlog : p.log = later ++ d :: past)
    (hkey : d.check.key = k) (hname : d.check.name = name) :
    d.skipped = true ↔ ∃ b, windowOf (own k name past) = some b ∧ Covers n b d.time d.check := by
  have how : Own n k name p :=
    h.invariant _ (own_new n k name) fun _ _ _ ho hok hs => ho.step hok hs
  exact how.exact later d past hlog hkey hname

-- Without any condition a skip rests on a reading of the same backend, taken a whole interval ago.
structure Taken (n : Nat) (p : Probing) : Prop where
  threshold : p.skipper.minSignals = n
  prev : ∀ k b, p.skipper.prev.get k = some b →
    ∃ d ∈ p.log, d.check.key = k ∧ d.check.traffic = some b.signals ∧ d.time = b.time
  next : ∀ k b, p.skipper.next.get k = some b →
    ∃ d ∈ p.log, d.check.key = k ∧ d.check.traffic = some b.signals ∧ d.time = b.time
  covered : ∀ later d past, p.log = later ++ d :: past → d.skipped = true →
    ∃ e ∈ past, e.check.key = d.check.key ∧
      ∃ signals, e.check.traffic = some signals ∧ Covers n ⟨signals,e.time⟩ d.time d.check

theorem Taken.due (h : Taken n p) (c : DueCheck) (now : Int) :
    Taken n { p with
      skipper := (p.skipper.skip c now).1
      log := ⟨now,c,(p.skipper.skip c now).2⟩ :: p.log
      decided := (c.key,c.name) :: p.decided } := by
  have hp : ∀ k b, p.skipper.prev.get k = some b →
      ∃ d ∈ (⟨now,c,(p.skipper.skip c now).2⟩ : Decision) :: p.log,
        d.check.key = k ∧ d.check.traffic = some b.signals ∧ d.time = b.time := by
    intro k b hb
    obtain ⟨d,hd,hf⟩ := h.prev k b hb
    exact ⟨d,.tail _ hd,hf⟩
  have hn : ∀ k b, p.skipper.next.get k = some b →
      ∃ d ∈ (⟨now,c,(p.skipper.skip c now).2⟩ : Decision) :: p.log,
        d.check.key = k ∧ d.check.traffic = some b.signals ∧ d.time = b.time := by
    intro k b hb
    obtain ⟨d,hd,hf⟩ := h.next k b hb
    exact ⟨d,.tail _ hd,hf⟩
  constructor
  case threshold => exact TrafficSkipper.skip_prev.2.trans h.threshold
  case prev =>
    intro k b hb
    rw [TrafficSkipper.skip_prev.1] at hb
    exact hp k b hb
  case next =>
    intro k b hb
    obtain ⟨heq,-⟩ | ⟨signals,ht,heq⟩ := p.skipper.skip_next c now
    · rw [heq] at hb
      exact hn k b hb
    · rw [heq] at hb
      rcases GoMap.get_put_eq_some.mp hb with ⟨rfl,hr⟩ | ⟨-,hold⟩
      · cases hg : p.skipper.prev.get c.key with
        | none =>
          rw [hg] at hr
          cases hr
          exact ⟨_,.head _,rfl,ht,rfl⟩
        | some before =>
          rw [hg] at hr
          dsimp only at hr
          split at hr
          · cases hr
            exact hp c.key _ hg
          · cases hr
            exact ⟨_,.head _,rfl,ht,rfl⟩
      · exact hn k b hold
  case covered =>
    intro later d past hl hs
    cases later with
    | nil =>
      cases hl
      obtain ⟨b,hb,hc⟩ := TrafficSkipper.skip_iff.mp hs
      obtain ⟨e,he,hk,ht,hti⟩ := h.prev c.key b hb
      rw [h.threshold] at hc
      exact ⟨e,he,hk,b.signals,ht,by rw [hti]; exact hc⟩
    | cons first later =>
      obtain ⟨-,hre⟩ := List.cons.inj hl
      exact h.covered later d past hre hs

theorem Taken.step (h : Taken n p) {a : Act} (hs : p.step a = some p') : Taken n p' := by
  cases a with
  | beginCycle now =>
    obtain ⟨-,rfl⟩ := Run.guard_neg hs
    exact { h with next := (fun k b hb => by cases hb) }
  | due c =>
    obtain ⟨now,-,rfl⟩ := map_eq_some_iff.mp hs
    unfold TrafficSkipper.skipCoveredByTraffic
    cases ha : c.asks with
    | false => exact h
    | true => exact h.due c now
  | endCycle =>
    obtain ⟨now,-,rfl⟩ := map_eq_some_iff.mp hs
    have hk : ∀ k b, (p.skipper.endCycle now).prev.get k = some b →
        ∃ d ∈ p.log, d.check.key = k ∧ d.check.traffic = some b.signals ∧ d.time = b.time := by
      intro k b hb
      rw [TrafficSkipper.get_endCycle] at hb
      cases hp : p.skipper.prev.get k with
      | none =>
        rw [hp] at hb
        exact h.next k b hb
      | some before =>
        rw [hp,elim_some] at hb
        rcases or_eq_some_iff.mp hb with hn | ⟨-,hold⟩
        · exact h.next k b hn
        · obtain ⟨-,rfl⟩ := Run.guard_neg hold
          exact h.prev k _ hp
    exact ⟨h.threshold,hk,hk,h.covered⟩

theorem skipped_checks_had_traffic {ok : Probing → Act → Prop} (h : Run.Reaches step ok (new n) p)
    {later past : List Decision} (hl : p.log = later ++ d :: past)
    (hs : d.skipped = true) :
    ∃ e ∈ past, e.check.key = d.check.key ∧
      ∃ signals, e.check.traffic = some signals ∧ Covers n ⟨signals,e.time⟩ d.time d.check := by
  have hta : Taken n p := by
    refine h.invariant _ ⟨rfl,fun k b hb => ?_,fun k b hb => ?_,fun later d past hl => ?_⟩
      fun _ _ _ ht _ hst => ht.step hst
    · cases hb
    · cases hb
    · cases later <;> cases hl
  exact hta.covered later d past hl hs

def backendKey (backend : String) : TrafficKey := ⟨"eth".toList,backend.toList,.jsonRPC⟩

def checkOf (backend name : String) (interval : Int) (signals : Nat) : DueCheck :=
  ⟨backendKey backend,name.toList,false,interval * GoTime.second,true,false,true,some signals⟩

-- One cycle a minute, a thousand signals in each; the slow check is due every fifth.
def cycleOf (backend : String) (i : Nat) (slow : Bool) : List Act :=
  [.beginCycle (60 * i * GoTime.second),.due (checkOf backend "block_height" 60 (1000 * i))] ++
    (if slow then [.due (checkOf "alpha" "chain_id" 300 (1000 * i))] else []) ++ [.endCycle]

def sixCycles (backend : String) : List Act :=
  (List.range 6).flatMap fun i => cycleOf backend i (decide (i % 5 = 0))

theorem busy_backend_skip_had_traffic :
    ∃ p, Run.Reaches step (fun _ _ => True) (new 20) p ∧ ∃ d past, p.log = d :: past ∧
      d.skipped = true ∧ ∃ e ∈ past, e.check.key = d.check.key ∧
        ∃ signals, e.check.traffic = some signals ∧
          Covers 20 ⟨signals,e.time⟩ d.time d.check := by
  refine Run.reaches_of (P := fun p => p.log.head? =
    some ⟨60 * GoTime.second,checkOf "alpha" "block_height" 60 1000,true⟩)
    (cycleOf "alpha" 0 false ++ cycleOf "alpha" 1 false) (by decide +kernel) fun p hr hh => ?_
  obtain ⟨past,hl⟩ := head?_eq_some_iff.mp hh
  have hs : p.log = [] ++ _ :: past := hl
  exact ⟨_,past,hl,rfl,skipped_checks_had_traffic hr hs rfl⟩

theorem fast_check_keeps_slow_one_waiting :
    ∃ p, Run.Reaches step (fun _ _ => True) (new 20) p ∧ ∃ d past, p.log = d :: past ∧
      d.check = checkOf "alpha" "chain_id" 300 5000 ∧ d.skipped = false ∧
      ∃ b, windowOf (own (backendKey "alpha") "chain_id".toList past) = some b ∧
        Covers 20 b d.time d.check := by
  refine Run.reaches_of (P := fun p =>
    p.log.head? = some ⟨300 * GoTime.second,checkOf "alpha" "chain_id" 300 5000,false⟩ ∧
    windowOf (own (backendKey "alpha") "chain_id".toList p.log.tail) = some ⟨0,0⟩)
    (sixCycles "alpha") (by decide +kernel) ?_
  rintro p - ⟨hh,hw⟩
  obtain ⟨past,hl⟩ := head?_eq_some_iff.mp hh
  rw [hl] at hw
  exact ⟨_,past,hl,rfl,rfl,_,hw,by decide,5000,rfl,by decide⟩

theorem lone_check_is_skipped :
    ∃ p, Run.Reaches step (Undisturbed (backendKey "alpha") "chain_id".toList) (new 20) p ∧
      ∃ d past, p.log = d :: past ∧ d.check = checkOf "alpha" "chain_id" 300 5000 ∧
      d.skipped = true ∧ ∃ b, windowOf (own (backendKey "alpha") "chain_id".toList past) = some b ∧
        Covers 20 b d.time d.check := by
  refine Run.reaches_of (P := fun p =>
    p.log.head? = some ⟨300 * GoTime.second,checkOf "alpha" "chain_id" 300 5000,true⟩)
    (sixCycles "beta") (by decide +kernel) fun p hr hh => ?_
  obtain ⟨past,hl⟩ := head?_eq_some_iff.mp hh
  have hs : p.log = [] ++ _ :: past := hl
  have he := skipped_exactly_when_covered hr hs rfl rfl
  exact ⟨_,past,hl,rfl,rfl,he.mp rfl⟩

end SageGateway.Healthcheck.Probing
