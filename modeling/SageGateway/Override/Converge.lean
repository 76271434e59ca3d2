import SageGateway.Override.CheckOverrides
import SageGateway.Override.ExternalSources
import SageGateway.Override.TuningStore

namespace SageGateway

namespace OverrideSeam

variable {K Q V L : Type}

def Quiet (r : SeamReplica K Q L) : Prop :=
  r.calls.len = 0 ∧ r.listing.isNone = true ∧ r.polled = true

instance (r : SeamReplica K Q L) : Decidable (Quiet r) :=
  inferInstanceAs (Decidable (_ ∧ _ ∧ _))

def Converges [DecidableEq K] (M : OverrideSeam K Q V L) : Prop :=
  ∀ locals overrides, M.Sound locals → SeamReplica.WellFormed M overrides →
    ∀ r, Run.Reaches (SeamReplica.step M) (SeamReplica.Apart M) (.start locals overrides) r →
      Quiet r → ∀ k, M.held r.locals k = r.desired M k

def Diverges (M : OverrideSeam K Q V L) (locals : L) : Prop :=
  ∃ r k, Run.Reaches (SeamReplica.step M) (fun _ _ => True) (.start locals ∅) r ∧
    Quiet r ∧ M.held r.locals k ≠ r.desired M k

theorem converges [DecidableEq K] (M : OverrideSeam K Q V L) : M.Converges := by
  intro locals overrides hs hst r hr hq
  obtain ⟨hc,hl,hp⟩ := hq
  exact SeamReplica.held_eq_desired hs hst hr hc
    (Option.isNone_iff_eq_none.mp hl) hp

def setAndPoll (M : OverrideSeam K Q V L) (k : K) (q : Q) : List (SeamAct K Q) :=
  [.poll,.apply 0 [],.set 1 k q,.advance 1 true 1,.advance 1 true 1,.poll,
    .apply 2 [(M.key k,M.encode q)]]

def removeFailing (M : OverrideSeam K Q V L) (k : K) (q : Q) : List (SeamAct K Q) :=
  setAndPoll M k q ++ [.remove 2 k,.advance 2 false 3,.advance 2 true 3,.poll]

def setAndRemove (M : OverrideSeam K Q V L) (k : K) (q : Q) : List (SeamAct K Q) :=
  setAndPoll M k q ++ [.remove 2 k,.advance 2 true 3,.advance 2 true 3,.poll,.apply 4 []]

theorem diverges_of_run [DecidableEq V] {M : OverrideSeam K Q V L} {locals : L} {k : K} {q : Q}
    (h : (Run.run (SeamReplica.step M) (fun _ _ => True) (.start locals ∅)
      (removeFailing M k q)).map
        (fun r => decide (Quiet r ∧ M.held r.locals k ≠ r.desired M k)) = some true) :
    M.Diverges locals := by
  obtain ⟨r,hr,hf⟩ := Option.map_eq_some_iff.mp h
  obtain ⟨hq,hne⟩ := of_decide_eq_true hf
  exact ⟨r,k,Run.Reaches.start.run hr,hq,hne⟩

end OverrideSeam

def textChecks : CheckCodec GoString GoString where
  known _ := true
  block _ spec := some spec
  buildsClean _ := true
  marshal spec := spec
  unmarshal raw := some raw
  unmarshal_marshal _ _ := rfl

def textSources : SourceCodec Char where
  setterFor _ := true
  validate _ := true
  encodeSources sources := sources
  decodeSources raw := some raw
  decode_encode _ _ := rfl

def retriesName : GoString := "retry.max_retries".toList

def retriesParser : KnobParser where
  parse name raw := if name = retriesName then some ⟨0,0,raw⟩ else none
  slash_free name raw v h := by
    obtain ⟨rfl,-⟩ := Option.ite_none_right_eq_some.mp h
    decide

def retriesKey : KnobKey := ⟨retriesName,[],by decide⟩

theorem admin_overrides_converge {Spec Block Source : Type} (C : CheckCodec Spec Block)
    (E : SourceCodec Source) (P : KnobParser) :
    (CheckOverrides.seam C).Converges ∧ (ExternalSources.seam E).Converges ∧
      (TuningStore.seam P).Converges :=
  ⟨OverrideSeam.converges _,OverrideSeam.converges _,OverrideSeam.converges _⟩

theorem failed_delete_is_never_repaired :
    (CheckOverrides.seam textChecks).Diverges ∅ ∧ (ExternalSources.seam textSources).Diverges ∅ ∧
      (TuningStore.seam retriesParser).Diverges .empty := by
  refine ⟨?_,?_,?_⟩
  · exact OverrideSeam.diverges_of_run (k := "eth".toList) (q := "checks".toList)
      (by decide +kernel)
  · exact OverrideSeam.diverges_of_run (k := "eth".toList) (q := "url".toList) (by decide +kernel)
  · exact OverrideSeam.diverges_of_run (k := retriesKey) (q := "3".toList) (by decide +kernel)

theorem tuning_override_set_and_removed :
    ∃ r, Run.Reaches (SeamReplica.step (TuningStore.seam retriesParser))
        (SeamReplica.Apart (TuningStore.seam retriesParser)) (.start .empty ∅) r ∧
      OverrideSeam.Quiet r ∧
      ∀ k, r.locals.held k = r.desired (TuningStore.seam retriesParser) k :=
  Run.reaches_and (OverrideSeam.setAndRemove (TuningStore.seam retriesParser) retriesKey
    "3".toList) (by decide +kernel)
    ((admin_overrides_converge textChecks textSources retriesParser).2.2 .empty ∅ trivial
      fun _ _ h => by cases h)

end SageGateway
