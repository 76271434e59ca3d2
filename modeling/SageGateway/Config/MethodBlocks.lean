import SageGateway.Override.TuningStore
import SageGateway.Lib.GoTime

namespace SageGateway

structure MethodBlocksConfig where
  ttl : Int
  escalationThreshold : Int
  clientTTL : Int
  deriving DecidableEq

def effectiveOr (whenZero value : Int) : Int :=
  if value < 0 then 0 else if value = 0 then whenZero else value

namespace MethodBlocksConfig

def effectiveTTL (m : MethodBlocksConfig) : Int := effectiveOr (5 * GoTime.minute) m.ttl

def effectiveClientTTL (m : MethodBlocksConfig) : Int :=
  effectiveOr (30 * GoTime.minute) m.clientTTL

def effectiveEscalation (m : MethodBlocksConfig) : Int := effectiveOr 3 m.escalationThreshold

end MethodBlocksConfig

def knobMethodBlockTTL : GoString := "method_blocks.ttl".toList

def knobMethodBlockClientTTL : GoString := "method_blocks.client_ttl".toList

def knobMethodBlockEscalation : GoString := "method_blocks.escalation_threshold".toList

structure MethodBlockSettings where
  ttl : Int
  clientTTL : Int
  escalation : Int
  deriving DecidableEq

def MethodBlocksConfig.settings (m : MethodBlocksConfig) : MethodBlockSettings :=
  ⟨m.effectiveTTL,m.effectiveClientTTL,m.effectiveEscalation⟩

structure TunedBlocks where
  boot : MethodBlocksConfig
  config : MethodBlocksConfig
  tuning : TuningStore
  blocks : MethodBlockSettings

namespace TunedBlocks

def start (boot : MethodBlocksConfig) : TunedBlocks := ⟨boot,boot,.empty,boot.settings⟩

def changeHook (s : TunedBlocks) : TunedBlocks :=
  let mb := s.boot
  { s with blocks :=
      ⟨s.tuning.duration knobMethodBlockTTL [] mb.effectiveTTL,
        s.tuning.duration knobMethodBlockClientTTL [] mb.effectiveClientTTL,
        s.tuning.int knobMethodBlockEscalation [] mb.effectiveEscalation⟩ }

def set (P : KnobParser) (s : TunedBlocks) (now : Int) (name serviceID raw : GoString)
    (persisted : Bool) : TunedBlocks :=
  match P.parse name raw with
  | some _ =>
      if persisted then
        { s with tuning := s.tuning.set P now name serviceID raw }.changeHook
      else s
  | none => s

def delete (s : TunedBlocks) (name serviceID : GoString) : TunedBlocks :=
  { s with tuning := s.tuning.delete name serviceID }.changeHook

def apply (s : TunedBlocks) (next : MethodBlocksConfig) : TunedBlocks :=
  if next ≠ s.config then { s with config := next, blocks := next.settings }
  else { s with config := next }

inductive Act where
  | set (now : Int) (name serviceID raw : GoString) (persisted : Bool)
  | delete (name serviceID : GoString)
  | apply (next : MethodBlocksConfig)
  deriving DecidableEq

def step (P : KnobParser) (s : TunedBlocks) : Act → Option TunedBlocks
  | .set now name serviceID raw persisted => some (s.set P now name serviceID raw persisted)
  | .delete name serviceID => some (s.delete name serviceID)
  | .apply next => some (s.apply next)

def overridden (s : TunedBlocks) (name : GoString) : Option TuningValue :=
  (s.tuning.global.get name).map TuningOverride.value

def expected (s : TunedBlocks) : MethodBlockSettings :=
  ⟨((s.overridden knobMethodBlockTTL).map TuningValue.dur).getD s.config.effectiveTTL,
    ((s.overridden knobMethodBlockClientTTL).map TuningValue.dur).getD s.config.effectiveClientTTL,
    ((s.overridden knobMethodBlockEscalation).map TuningValue.int).getD
      s.config.effectiveEscalation⟩

def Untuned (s : TunedBlocks) : Prop :=
  s.tuning.global.get knobMethodBlockTTL = none ∧
    s.tuning.global.get knobMethodBlockClientTTL = none ∧
    s.tuning.global.get knobMethodBlockEscalation = none

instance (s : TunedBlocks) : Decidable (Untuned s) :=
  inferInstanceAs (Decidable (_ ∧ _ ∧ _))

def Unmixed (s : TunedBlocks) : Act → Prop
  | .set _ _ _ _ _ => s.config.settings = s.boot.settings
  | .delete _ _ => s.config.settings = s.boot.settings
  | .apply next => next ≠ s.config → Untuned s

instance (s : TunedBlocks) : ∀ a, Decidable (Unmixed s a)
  | .set _ _ _ _ _ => inferInstanceAs (Decidable (_ = _))
  | .delete _ _ => inferInstanceAs (Decidable (_ = _))
  | .apply _ => inferInstanceAs (Decidable (_ → _))

structure Resolved (s : TunedBlocks) : Prop where
  named : ∀ name, (s.tuning.service.get name).bind (fun m => m.get []) = none
  blocks : s.blocks = s.expected

variable {P : KnobParser} {s s' : TunedBlocks}

theorem lookup_global (h : ∀ name, (s.tuning.service.get name).bind (fun m => m.get []) = none)
    (name : GoString) : s.tuning.lookup name [] = s.overridden name := by
  rw [TuningStore.lookup,h name]
  rfl

theorem resolved_changeHook
    (h : ∀ name, (s.tuning.service.get name).bind (fun m => m.get []) = none)
    (hb : s.config.settings = s.boot.settings) : Resolved s.changeHook := by
  refine ⟨h,?_⟩
  obtain ⟨ht,hc,he⟩ := MethodBlockSettings.mk.inj hb
  show MethodBlockSettings.mk _ _ _ = MethodBlockSettings.mk _ _ _
  rw [TuningStore.duration,TuningStore.duration,TuningStore.int,lookup_global h,lookup_global h,
    lookup_global h,← ht,← hc,← he]
  rfl

theorem resolved_start (boot : MethodBlocksConfig) : Resolved (start boot) where
  named _ := rfl
  blocks := rfl

theorem Resolved.set (h : Resolved s) (hb : s.config.settings = s.boot.settings) (now : Int)
    (name serviceID raw : GoString) (persisted : Bool) :
    Resolved (s.set P now name serviceID raw persisted) := by
  unfold TunedBlocks.set
  split
  · next v hv =>
    split
    · refine resolved_changeHook ?_ ?_
      · intro name'
        rw [TuningStore.set_eq hv,TuningStore.get_service_put]
        exact h.named name'
      · exact hb
    · exact h
  · exact h

theorem Resolved.delete (h : Resolved s) (hb : s.config.settings = s.boot.settings)
    (name serviceID : GoString) : Resolved (s.delete name serviceID) := by
  refine resolved_changeHook (fun name' => ?_) ?_
  · by_cases hid : serviceID = []
    · subst hid
      exact h.named name'
    · refine (TuningStore.get_service_delete hid name' []).trans ?_
      rw [if_neg fun heq => hid heq.2.symm]
      exact h.named name'
  · exact hb

theorem Resolved.apply (h : Resolved s) {next : MethodBlocksConfig}
    (hu : next ≠ s.config → Untuned s) : Resolved (s.apply next) := by
  unfold TunedBlocks.apply
  split
  · next hne =>
    obtain ⟨ht,hc,he⟩ := hu hne
    refine ⟨h.named,?_⟩
    simp [expected,overridden,ht,hc,he]
    rfl
  · next heq =>
    obtain rfl := not_not.mp heq
    exact h

theorem Resolved.step (h : Resolved s) {a : Act} (hok : Unmixed s a)
    (hs : s.step P a = some s') : Resolved s' := by
  cases a with
  | set now name serviceID raw persisted =>
    cases hs
    exact h.set hok now name serviceID raw persisted
  | delete name serviceID =>
    cases hs
    exact h.delete hok name serviceID
  | apply next =>
    cases hs
    exact h.apply hok

theorem method_blocks_follow_override_then_config (P : KnobParser) (boot : MethodBlocksConfig)
    {s : TunedBlocks} (hs : Run.Reaches (step P) Unmixed (start boot) s) : s.blocks = s.expected :=
  (hs.invariant Resolved (resolved_start boot) fun _ _ _ h hok hst => h.step hok hst).blocks

def blockParser : KnobParser where
  parse name raw :=
    if name = knobMethodBlockTTL ∨ name = knobMethodBlockEscalation then some ⟨7,7,raw⟩ else none
  slash_free name raw v h := by
    obtain ⟨hname,-⟩ := Option.ite_none_right_eq_some.mp h
    rcases hname with rfl | rfl <;> decide

def bootBlocks : MethodBlocksConfig := ⟨60,0,0⟩

def reloadedBlocks : MethodBlocksConfig := ⟨90,0,0⟩

theorem reload_drops_override_and_hook_drops_reload :
    (∃ s, Run.Reaches (step blockParser) (fun _ _ => True) (start bootBlocks) s ∧
      s.overridden knobMethodBlockTTL = some ⟨7,7,"7ns".toList⟩ ∧ s.blocks.ttl = 90) ∧
    ∃ s, Run.Reaches (step blockParser) (fun _ _ => True) (start bootBlocks) s ∧
      s.overridden knobMethodBlockTTL = none ∧ s.config.effectiveTTL = 90 ∧ s.blocks.ttl = 60 :=
  ⟨Run.reaches [.set 0 knobMethodBlockTTL [] "7ns".toList true,.apply reloadedBlocks]
      (by decide +kernel),
    Run.reaches [.apply reloadedBlocks,.set 0 knobMethodBlockEscalation [] "7".toList true]
      (by decide +kernel)⟩

theorem override_set_deleted_then_reload :
    ∃ s : TunedBlocks, s.blocks.ttl = 90 ∧ s.blocks = s.expected :=
  Run.reached_and [.set 0 knobMethodBlockTTL [] "7ns".toList true,.delete knobMethodBlockTTL [],
    .apply reloadedBlocks] (by decide +kernel) fun _ hs _ =>
    method_blocks_follow_override_then_config blockParser bootBlocks hs

end TunedBlocks

end SageGateway
