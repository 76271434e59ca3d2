import Mathlib.Data.Finset.Card
import SageGateway.Domain
import SageGateway.Lib.GoTime
import SageGateway.Lib.Run

namespace SageGateway.Healthcheck

-- What one pass over the configured services finds: the RPC type of each check, and the size of the
-- pool behind it, none when it could not be asked.
structure Services where
  configured : Finset GoString
  pluginChecks : GoString → List RPCType
  configuredChecks : GoString → List RPCType
  probeEndpoints : GoString → RPCType → Option Nat

namespace Services

variable (v : Services)

def probeable (service : GoString) : Bool :=
  decide (0 < (v.pluginChecks service).length) || decide (0 < (v.configuredChecks service).length)

def hasProbeableEndpoint (service : GoString) : Bool :=
  (v.pluginChecks service ++ v.configuredChecks service).any fun rpcType =>
    (v.probeEndpoints service rpcType).all fun n => decide (0 < n)

def probeableServices : Finset GoString := v.configured.filter fun s => v.probeable s = true

def coverable : Finset GoString :=
  v.probeableServices.filter fun s => v.hasProbeableEndpoint s = true

end Services

def warmThresholdFor (n : Nat) : Nat := (n * 3 + 3) / 4

def warmDeadline : Int := 2 * GoTime.minute

structure WarmGate where
  coveredServices : Finset GoString
  warm : Bool
  warmThresholdSet : Bool
  warmThreshold : Nat
  warmUnprobeable : Nat
  warmStartedAt : Option Int
  warmReleased : Bool
  -- History: the services the threshold is three quarters of.
  counted : Finset GoString

namespace WarmGate

def new : WarmGate := ⟨∅,false,false,0,0,none,false,∅⟩

def ensureWarmThresholdLocked (g : WarmGate) (v : Services) : WarmGate :=
  if g.warmThresholdSet then g
  else { g with
    warmThreshold := warmThresholdFor v.probeableServices.card
    warmThresholdSet := true
    counted := v.probeableServices }

def met (g : WarmGate) : Bool :=
  decide (g.warmThreshold = 0) || decide (g.warmThreshold ≤ g.coveredServices.card)

def credit (g : WarmGate) (v : Services) (svc : GoString) : WarmGate :=
  ({ g with coveredServices := insert svc g.coveredServices }).ensureWarmThresholdLocked v

def recount (g : WarmGate) (v : Services) : WarmGate :=
  { g with
    warmThreshold := warmThresholdFor v.coverable.card
    warmThresholdSet := true
    warmUnprobeable := (v.probeableServices \ v.coverable).card
    counted := v.coverable }

def latch (g : WarmGate) : WarmGate := if g.met then { g with warm := true } else g

-- Coverage short of the threshold: the deadline's clock starts with the first question. The clock
-- is read twice, at asked and at now.
def await (g : WarmGate) (asked now : Int) : WarmGate :=
  let startedAt := g.warmStartedAt.getD asked
  if GoTime.sub now startedAt < warmDeadline then { g with warmStartedAt := some startedAt }
  else { g with warmStartedAt := some startedAt, warmReleased := true, warm := true }

end WarmGate

structure Latch where
  covered : Finset GoString
  counted : Finset GoString

-- Each call with what it read of warm and of the services before the lock, maybe old by then.
inductive WarmAct where
  | markCovered (sawWarm : Bool) (configured : Finset GoString) (v : Services) (svc : GoString)
  | refreshWarmDenominator (sawWarm : Bool) (v : Services)
  | askWarm (sawWarm : Bool) (v : Services) (asked now : Int)
  | warmProgress (v : Services)

structure Warming where
  gate : WarmGate
  -- History: what was covered and counted each time the threshold was found met.
  latches : List Latch

namespace Warming

def new : Warming := ⟨.new,[]⟩

def decided (w : Warming) (g : WarmGate) : Warming :=
  ⟨g.latch,if g.met then ⟨g.coveredServices,g.counted⟩ :: w.latches else w.latches⟩

def locked (w : Warming) : WarmAct → Warming
  | .markCovered _ configured v svc =>
      if svc ∈ configured then w.decided (w.gate.credit v svc) else w
  | .refreshWarmDenominator _ v => w.decided (w.gate.recount v)
  | .askWarm _ v asked now =>
      let g := w.gate.ensureWarmThresholdLocked v
      if g.met then w.decided g else { w with gate := g.await asked now }
  | .warmProgress v => { w with gate := w.gate.ensureWarmThresholdLocked v }

def sawWarm : WarmAct → Bool
  | .markCovered saw _ _ _ => saw
  | .refreshWarmDenominator saw _ => saw
  | .askWarm saw _ _ _ => saw
  | .warmProgress _ => false

def step (w : Warming) (a : WarmAct) : Option Warming :=
  if sawWarm a then if w.gate.warm then some w else none else some (w.locked a)

-- Whoever is credited is counted, and no recount leaves out a service already credited.
def CreditsCounted (w : Warming) : WarmAct → Prop
  | .markCovered _ configured v svc =>
      svc ∈ configured → svc ∈ (w.gate.ensureWarmThresholdLocked v).counted
  | .refreshWarmDenominator _ v => w.gate.coveredServices ⊆ v.coverable
  | _ => True

instance (w : Warming) : ∀ a, Decidable (CreditsCounted w a)
  | .markCovered _ _ _ _ => inferInstanceAs (Decidable (_ → _))
  | .refreshWarmDenominator _ v =>
      inferInstanceAs (Decidable (w.gate.coveredServices ⊆ v.coverable))
  | .askWarm .. | .warmProgress _ => .isTrue trivial

structure Counted (g : WarmGate) : Prop where
  subset : g.coveredServices ⊆ g.counted
  threshold : g.warmThresholdSet = true → g.warmThreshold = warmThresholdFor g.counted.card
  unset : g.warmThresholdSet = false → g.coveredServices = ∅

def ThreeQuarters (l : Latch) : Prop := 3 * l.counted.card ≤ 4 * (l.covered ∩ l.counted).card

variable {w w' : Warming} {g : WarmGate} {v : Services} {asked now : Int}

theorem Counted.ensure (h : Counted g) (v : Services) :
    Counted (g.ensureWarmThresholdLocked v) ∧
      (g.ensureWarmThresholdLocked v).warmThresholdSet = true := by
  unfold WarmGate.ensureWarmThresholdLocked
  split
  · next hset => exact ⟨h,hset⟩
  · next hu =>
    refine ⟨⟨?_,fun _ => rfl,fun hf => by cases hf⟩,rfl⟩
    rw [h.unset (Bool.eq_false_iff.mpr hu)]
    exact Finset.empty_subset _

theorem credit_eq (g : WarmGate) (v : Services) (svc : GoString) :
    g.credit v svc = { g.ensureWarmThresholdLocked v with
      coveredServices := insert svc g.coveredServices } := by
  unfold WarmGate.credit WarmGate.ensureWarmThresholdLocked
  split
  · rfl
  · rfl

theorem ensure_covered (g : WarmGate) (v : Services) :
    (g.ensureWarmThresholdLocked v).coveredServices = g.coveredServices := by
  unfold WarmGate.ensureWarmThresholdLocked
  split
  · rfl
  · rfl

theorem Counted.credit (h : Counted g) {svc : GoString}
    (hsv : svc ∈ (g.ensureWarmThresholdLocked v).counted) :
    Counted (g.credit v svc) ∧ (g.credit v svc).warmThresholdSet = true := by
  obtain ⟨hc,hset⟩ := h.ensure v
  rw [credit_eq]
  refine ⟨⟨?_,hc.threshold,fun hu => ?_⟩,hset⟩
  · have hs := hc.subset
    rw [ensure_covered] at hs
    exact Finset.insert_subset hsv hs
  · cases hset.symm.trans hu

theorem Counted.recount (hc : g.coveredServices ⊆ v.coverable) :
    Counted (g.recount v) ∧ (g.recount v).warmThresholdSet = true :=
  ⟨⟨hc,fun _ => rfl,(fun hu => by cases hu)⟩,rfl⟩

variable (asked now) in
theorem Counted.await (h : Counted g) : Counted (g.await asked now) := by
  unfold WarmGate.await
  dsimp only
  split
  · exact { h with }
  · exact { h with }

-- The covered services all count, so their number is that of the counted ones among them.
theorem Counted.threeQuarters (h : Counted g) (hset : g.warmThresholdSet = true)
    (hm : g.met = true) : ThreeQuarters ⟨g.coveredServices,g.counted⟩ := by
  unfold ThreeQuarters
  dsimp only
  rw [Finset.inter_eq_left.mpr h.subset]
  have ht := h.threshold hset
  unfold warmThresholdFor at ht
  unfold WarmGate.met at hm
  rw [Bool.or_eq_true,decide_eq_true_iff,decide_eq_true_iff] at hm
  omega

-- Neither the threshold nor the covered services move the latch itself.
def SameLatch (g g' : WarmGate) : Prop := g'.warm = g.warm ∧ g'.warmReleased = g.warmReleased

theorem ensure_sameLatch (g : WarmGate) (v : Services) :
    SameLatch g (g.ensureWarmThresholdLocked v) := by
  unfold WarmGate.ensureWarmThresholdLocked
  split
  · exact ⟨rfl,rfl⟩
  · exact ⟨rfl,rfl⟩

theorem credit_sameLatch (g : WarmGate) (v : Services) (svc : GoString) :
    SameLatch g (g.credit v svc) := by
  rw [credit_eq]
  exact ensure_sameLatch g v

theorem await_released (h : (g.await asked now).warmReleased = false) :
    (g.await asked now).warm = g.warm ∧ g.warmReleased = false := by
  unfold WarmGate.await at h ⊢
  dsimp only at h ⊢
  split at h
  · next he =>
    rw [if_pos he]
    exact ⟨rfl,h⟩
  · cases h

structure Sound (w : Warming) : Prop where
  counted : Counted w.gate
  latched : ∀ l ∈ w.latches, ThreeQuarters l
  recorded : w.gate.warm = true → w.gate.warmReleased = false → w.latches ≠ []

theorem decided_of_met (w : Warming) (hm : g.met = true) :
    w.decided g = ⟨{ g with warm := true },⟨g.coveredServices,g.counted⟩ :: w.latches⟩ := by
  unfold Warming.decided WarmGate.latch
  rw [if_pos hm,if_pos hm]

theorem decided_of_not_met (w : Warming) (hm : ¬g.met = true) :
    w.decided g = { w with gate := g } := by
  unfold Warming.decided WarmGate.latch
  rw [if_neg hm,if_neg hm]

theorem Sound.decided (h : Sound w) (hg : Counted g) (hset : g.warmThresholdSet = true)
    (hs : SameLatch w.gate g) : Sound (w.decided g) := by
  by_cases hm : g.met = true
  · rw [decided_of_met w hm]
    refine ⟨{ hg with },fun l hl => ?_,fun _ _ => List.cons_ne_nil _ _⟩
    rcases List.mem_cons.mp hl with rfl | hold
    · exact hg.threeQuarters hset hm
    · exact h.latched l hold
  · rw [decided_of_not_met w hm]
    refine ⟨hg,h.latched,fun hw hr => ?_⟩
    exact h.recorded (hs.1.symm.trans hw) (hs.2.symm.trans hr)

theorem Sound.locked (h : Sound w) {a : WarmAct} (hok : CreditsCounted w a) :
    Sound (w.locked a) := by
  cases a with
  | markCovered saw configured v svc =>
    unfold Warming.locked
    dsimp only
    split
    · next hc =>
      obtain ⟨hg,hset⟩ := h.counted.credit (hok hc)
      exact h.decided hg hset (credit_sameLatch w.gate v svc)
    · exact h
  | refreshWarmDenominator saw v =>
    obtain ⟨hg,hset⟩ := Counted.recount hok
    exact h.decided hg hset ⟨rfl,rfl⟩
  | askWarm saw v asked now =>
    obtain ⟨hg,hset⟩ := h.counted.ensure v
    have hs := ensure_sameLatch w.gate v
    unfold Warming.locked
    dsimp only
    split
    · exact h.decided hg hset hs
    · refine ⟨hg.await asked now,h.latched,fun hw hr => ?_⟩
      obtain ⟨hsw,hu⟩ := await_released hr
      exact h.recorded (hs.1.symm.trans (hsw.symm.trans hw))
        (hs.2.symm.trans hu)
  | warmProgress v =>
    have hs := ensure_sameLatch w.gate v
    refine ⟨(h.counted.ensure v).1,h.latched,fun hw hr => ?_⟩
    exact h.recorded (hs.1.symm.trans hw) (hs.2.symm.trans hr)

theorem Sound.step (h : Sound w) {a : WarmAct} (hok : CreditsCounted w a)
    (hs : w.step a = some w') : Sound w' := by
  unfold Warming.step at hs
  split at hs
  · obtain ⟨-,rfl⟩ := Run.guard_pos hs
    exact h
  · cases hs
    exact h.locked hok

theorem warm_latch_covers_three_quarters (h : Run.Reaches step CreditsCounted new w) :
    (∀ l ∈ w.latches, 3 * l.counted.card ≤ 4 * (l.covered ∩ l.counted).card) ∧
      (w.gate.warm = true → w.gate.warmReleased = false → w.latches ≠ []) := by
  have hc : Counted WarmGate.new :=
    ⟨Finset.empty_subset _,fun h => (by cases h),fun _ => rfl⟩
  have hn : Sound new := ⟨hc,fun _ hl => (by cases hl),fun hw _ => (by cases hw)⟩
  have hso : Sound w := h.invariant _ hn fun _ _ _ hs hok hst => hs.step hok hst
  exact ⟨hso.latched,hso.recorded⟩

def named (names : List String) : Finset GoString := (names.map String.toList).toFinset

-- Four services with checks and endpoints, three on the passthrough plugin.
def sevenServices : Services where
  configured := named ["eth","base","poly","sol","pass1","pass2","pass3"]
  pluginChecks s := if s ∈ named ["eth","base","poly","sol"] then [.jsonRPC] else []
  configuredChecks _ := []
  probeEndpoints _ _ := some 2

def seedOf (names : List String) : List WarmAct :=
  names.map fun s => .markCovered false sevenServices.configured sevenServices s.toList

theorem passthrough_seeds_latch_warm :
    ∃ w, Run.Reaches step (fun _ _ => True) new w ∧ w.gate.warm = true ∧
      w.gate.warmReleased = false ∧ ∃ l ∈ w.latches, l.counted = named ["eth","base","poly","sol"] ∧
        l.covered = named ["pass1","pass2","pass3"] ∧ l.covered ∩ l.counted = ∅ :=
  Run.reaches_of (P := fun w => w.gate.warm = true ∧ w.gate.warmReleased = false ∧
      ∃ l ∈ w.latches, l.counted = named ["eth","base","poly","sol"] ∧
        l.covered = named ["pass1","pass2","pass3"] ∧ l.covered ∩ l.counted = ∅)
    (seedOf ["pass1","pass2","pass3"]) (by decide +kernel) fun _ _ h => h

theorem probed_services_latch_warm :
    ∃ w, Run.Reaches step CreditsCounted new w ∧ w.gate.warm = true ∧
      ∃ l ∈ w.latches, l.counted = named ["eth","base","poly","sol"] ∧
        3 * l.counted.card ≤ 4 * (l.covered ∩ l.counted).card := by
  refine Run.reaches_of (P := fun w => w.gate.warm = true ∧
    ∃ l ∈ w.latches, l.counted = named ["eth","base","poly","sol"])
    (.refreshWarmDenominator false sevenServices :: seedOf ["eth","poly","sol"])
    (by decide +kernel) ?_
  rintro w hr ⟨hw,l,hm,hl⟩
  exact ⟨hw,l,hm,hl,(warm_latch_covers_three_quarters hr).1 l hm⟩

end Warming

end SageGateway.Healthcheck
