import SageGateway.Config.Document
import SageGateway.Lib.Run

namespace SageGateway

open List Option GoMap

inductive ReportKey where
  | key (σ : ConfigSection)
  | featureFlags
  | healthChecks
  deriving DecidableEq

def ReportKey.text : ReportKey → GoString
  | .key σ => σ.text
  | .featureFlags => "feature_flags".toList
  | .healthChecks => "gateway_config.active_health_checks".toList

inductive ReportKey.Mentions : ReportKey → ConfigSection → Prop
  | self (σ : ConfigSection) : Mentions (.key σ) σ
  | member (g : ServiceList) (id : GoString) (f : ServiceField) :
      Mentions (.key (.services g)) (.service g id f)
  | healthChecks (f : HealthCheckField) : Mentions .healthChecks (.field (.healthCheck f))

inductive ReloadWarning where
  | config (text : GoString)
  | unavailable (key : ReportKey) (why : GoString)
  | failed (key : ReportKey) (err : GoString)
  | flagIgnored (name : GoString)
  | flagNotSet (name err : GoString)
  | flagNotCleared (name err : GoString)
  | healthCheck (text : GoString)
  deriving DecidableEq

namespace ReloadWarning

def text : ReloadWarning → GoString
  | .config w => w
  | .unavailable key why => key.text ++ " changed but is NOT in effect: ".toList ++ why
  | .failed key err =>
      key.text ++ " changed but could not be applied, and is NOT in effect: ".toList ++ err
  | .flagIgnored name =>
      "feature flag \"".toList ++ name ++
        "\" ignored: SAGE has no such flag, and setting it has no effect".toList
  | .flagNotSet name err =>
      "feature flag \"".toList ++ name ++ "\" could not be set: ".toList ++ err
  | .flagNotCleared name err =>
      "feature flag \"".toList ++ name ++ "\" could not be cleared: ".toList ++ err
  | .healthCheck w => "health check config: ".toList ++ w

def about : ReloadWarning → Option ReportKey
  | .unavailable key _ => some key
  | .failed key _ => some key
  | .flagIgnored name => some (.key (.flag name))
  | .flagNotSet name _ => some (.key (.flag name))
  | .flagNotCleared name _ => some (.key (.flag name))
  | .config _ => none
  | .healthCheck _ => none

theorem text_carries_key {w : ReloadWarning} {κ : ReportKey} (h : w.about = some κ) :
    κ.text <:+: w.text := by
  cases w with
  | config text | healthCheck text => cases h
  | unavailable key why | failed key err =>
    cases h
    exact ⟨[],_,(append_assoc _ _ _).symm⟩
  | flagIgnored name =>
    cases h
    exact ⟨_,_,rfl⟩
  | flagNotSet name err | flagNotCleared name err =>
    cases h
    exact ⟨_,_,(append_assoc _ _ _).symm⟩

end ReloadWarning

structure ReloadSeams (V : Type) where
  flags : Bool
  healthExe : Bool
  blockedDomains : Bool
  methodBlocks : Bool
  reputationRetuner : Bool
  wsConnections : Bool
  isKnownFlag : GoString → Bool
  checkWarnings : V → List GoString

structure SeamErrors where
  setBlockedDomains : Option GoString
  setFlag : GoString → Option GoString
  deleteGlobal : GoString → Option GoString

structure ReloadResult where
  applied : List ReportKey
  needsRestart : List ConfigSection
  warnings : List ReloadWarning
  deriving DecidableEq

def ReloadResult.Names (res : ReloadResult) (σ : ConfigSection) : Prop :=
  (∃ κ ∈ res.needsRestart, (ReportKey.key κ).Mentions σ) ∨
  ∃ w ∈ res.warnings, ∃ κ, w.about = some κ ∧ κ.Mentions σ

structure ReloadedApp (V : Type) where
  boot : ConfigDoc V
  config : ConfigDoc V
  seam : FieldPath → V
  flags : GoMap GoString Bool

inductive ReadFrom where
  | wired
  | snapshot
  | seam
  deriving DecidableEq

def FieldPath.readFrom : FieldPath → ReadFrom
  | .top _ => .wired
  | .router .maxRequestBodyBytes => .snapshot
  | .router .maxResponseBodyBytes => .snapshot
  | .router _ => .wired
  | .admin _ => .wired
  | .concurrency _ => .snapshot
  | .webSocket .maxConcurrentConnections => .seam
  | .webSocket _ => .wired
  | .gateway .retry => .snapshot
  | .gateway .blockedDomains => .seam
  | .gateway .methodBlocks => .seam
  | .gateway _ => .wired
  | .defaults .retry => .snapshot
  | .defaults .timeout => .snapshot
  | .defaults .staticRoutes => .snapshot
  | .defaults _ => .wired
  | .reputation .enabled => .wired
  | .reputation .storageType => .wired
  | .reputation .keyGranularity => .wired
  | .reputation .initialScore => .wired
  | .reputation .recoveryTimeout => .wired
  | .reputation _ => .seam
  | .healthCheck .localChecks => .seam
  | .healthCheck .disableBackendURLDedup => .seam
  | .healthCheck _ => .wired
  | .unified _ => .wired
  | .unifiedDefaults .retry => .snapshot
  | .unifiedDefaults .timeout => .snapshot
  | .unifiedDefaults .staticRoutes => .snapshot
  | .unifiedDefaults _ => .wired

def ServiceField.readFrom : ServiceField → ReadFrom
  | .retry => .snapshot
  | .timeout => .snapshot
  | .staticRoutes => .snapshot
  | _ => .wired

structure SectionView (V : Type) where
  value : FieldPath → V
  flag : GoString → Option Bool
  listed : ServiceList → GoString → Bool
  service : ServiceList → GoString → ServiceField → Option V

def SectionView.Agrees {V : Type} (v w : SectionView V) : ConfigSection → Prop
  | .field p => v.value p = w.value p
  | .flag name => v.flag name = w.flag name
  | .services g => ∀ id, v.listed g id = w.listed g id
  | .service g id f => v.service g id f = w.service g id f

namespace SectionView

variable {V : Type} {u v w : SectionView V} {σ : ConfigSection}

theorem Agrees.symm (h : v.Agrees w σ) : w.Agrees v σ := by
  cases σ with
  | services g => exact fun id => (h id).symm
  | _ => exact Eq.symm h

theorem Agrees.trans (h : u.Agrees v σ) (h' : v.Agrees w σ) : u.Agrees w σ := by
  cases σ with
  | services g => exact fun id => (h id).trans (h' id)
  | _ => exact Eq.trans h h'

end SectionView

variable {V : Type}

def ConfigDoc.view (c : ConfigDoc V) : SectionView V where
  value := c.value
  flag := c.featureFlags.get
  listed g id := (servicesByID (c.services g)).has id
  service g id f := ((servicesByID (c.services g)).get id).map fun svc => svc.field f

namespace ReloadedApp

def start (boot : ConfigDoc V) : ReloadedApp V := ⟨boot,boot,boot.value,boot.featureFlags⟩

def running (a : ReloadedApp V) : SectionView V where
  value p :=
    match p.readFrom with
    | .wired => a.boot.value p
    | .snapshot => a.config.value p
    | .seam => a.seam p
  flag := a.flags.get
  listed := a.boot.view.listed
  service g id f :=
    match f.readFrom with
    | .snapshot => a.config.view.service g id f
    | _ => a.boot.view.service g id f

def InEffect (a : ReloadedApp V) (c : ConfigDoc V) (σ : ConfigSection) : Prop :=
  a.running.Agrees c.view σ

end ReloadedApp

structure SeamOutcome where
  applied : List ReportKey
  warnings : List ReloadWarning
  written : List FieldPath

def SeamOutcome.untouched : SeamOutcome := ⟨[],[],[]⟩

def reachSeam (present : Bool) (why : GoString) (err : Option GoString) (keys : List ReportKey)
    (warnings : List ReloadWarning) (written : List FieldPath) : SeamOutcome :=
  if present then
    match err with
    | none => ⟨keys,warnings,written⟩
    | some e => ⟨[],keys.map fun κ => .failed κ e,[]⟩
  else ⟨[],keys.map fun κ => .unavailable κ why,[]⟩

def applyHealthChecks (env : ReloadSeams V) (marks : List DiffMark) (next : ConfigDoc V) :
    SeamOutcome :=
  if .healthChecks ∈ marks then
    reachSeam env.healthExe "no health check executor is running".toList none [.healthChecks]
      ((env.checkWarnings (next.value (.healthCheck .localChecks))).map .healthCheck)
      [.healthCheck .localChecks,.healthCheck .disableBackendURLDedup]
  else .untouched

def applyBlockedDomains (env : ReloadSeams V) (errs : SeamErrors) (marks : List DiffMark) :
    SeamOutcome :=
  if .blockedDomains ∈ marks then
    reachSeam env.blockedDomains
      ("this gateway is running the mock protocol backend, " ++
        "which does not consult a blocklist").toList
      errs.setBlockedDomains [.key (.field (.gateway .blockedDomains))] []
      [.gateway .blockedDomains]
  else .untouched

def applyMethodBlocks (env : ReloadSeams V) (marks : List DiffMark) : SeamOutcome :=
  if .methodBlocks ∈ marks then
    reachSeam env.methodBlocks "no method-block store is wired".toList none
      [.key (.field (.gateway .methodBlocks))] [] [.gateway .methodBlocks]
  else .untouched

def reputationKeys (marks : List DiffMark) : List ReportKey :=
  marks.filterMap fun
    | .reputation σ => some (.key σ)
    | _ => none

def retuned : List FieldPath := (reputationSeams.getD []).map .reputation

def applyReputation (env : ReloadSeams V) (marks : List DiffMark) : SeamOutcome :=
  if reputationKeys marks = [] then .untouched
  else
    reachSeam env.reputationRetuner "the reputation service cannot be retuned".toList none
      (reputationKeys marks) [] retuned

def applyWSConnections (env : ReloadSeams V) (marks : List DiffMark) : SeamOutcome :=
  if .wsConnections ∈ marks then
    reachSeam env.wsConnections "no WebSocket relayer is running".toList none
      [.key (.field (.webSocket .maxConcurrentConnections))] []
      [.webSocket .maxConcurrentConnections]
  else .untouched

def removedFlags (old next : GoMap GoString Bool) : List GoString :=
  (old.toList.map Prod.fst).filter fun name => !next.has name

structure FlagOutcome where
  flags : GoMap GoString Bool
  warnings : List ReloadWarning

def flagWarnings (env : ReloadSeams V) (errs : SeamErrors) (name : GoString) :
    List ReloadWarning :=
  (if env.isKnownFlag name then [] else [.flagIgnored name]) ++
    (errs.setFlag name).toList.map fun err => .flagNotSet name err

def applyFlags (env : ReloadSeams V) (errs : SeamErrors) (flags old next : GoMap GoString Bool) :
    FlagOutcome :=
  if env.flags then
    let held := flags.putAll (next.toList.filter fun e => (errs.setFlag e.1).isNone)
    let removed := removedFlags old next
    ⟨(removed.filter fun name => (errs.deleteGlobal name).isNone).foldl GoMap.del held,
      next.toList.flatMap (fun e => flagWarnings env errs e.1) ++
        removed.flatMap fun name =>
          (errs.deleteGlobal name).toList.map fun err => .flagNotCleared name err⟩
  else ⟨flags,[]⟩

def restarts (marks : List DiffMark) : List ConfigSection :=
  (marks.filterMap fun
    | .restart σ => some σ
    | _ => none).dedup

def snapshotKeys (marks : List DiffMark) : List ReportKey :=
  (marks.filterMap fun
    | .applyDefault σ => some (.key σ)
    | _ => none).dedup

def flagsSection (env : ReloadSeams V) (errs : SeamErrors) (marks : List DiffMark)
    (flags old next : GoMap GoString Bool) : FlagOutcome :=
  if .flags ∈ marks then applyFlags env errs flags old next else ⟨flags,[]⟩

def seamSections (env : ReloadSeams V) (errs : SeamErrors) (marks : List DiffMark)
    (next : ConfigDoc V) : List SeamOutcome :=
  [applyHealthChecks env marks next,applyBlockedDomains env errs marks,applyMethodBlocks env marks,
    applyReputation env marks,applyWSConnections env marks]

def ConfigSection.StaticRoutes : ConfigSection → Prop
  | .field (.defaults .staticRoutes) => True
  | .field (.unifiedDefaults .staticRoutes) => True
  | .service _ _ .staticRoutes => True
  | _ => False

theorem FieldPath.fate (p : FieldPath) :
    (p.readFrom = .wired ∧ p.mark = .restart (.field p)) ∨
    (p.readFrom ≠ .wired ∧ ∀ σ, p.mark = .restart σ → σ = .field p ∧ σ.StaticRoutes) ∨
    ∃ f, p = .healthCheck f := by
  cases p with
  | healthCheck f => exact .inr (.inr ⟨f,rfl⟩)
  | top f | admin f | unified f => exact .inl ⟨rfl,rfl⟩
  | concurrency f => exact .inr (.inl ⟨nofun,nofun⟩)
  | defaults f | unifiedDefaults f =>
    cases f with
    | staticRoutes => exact .inr (.inl ⟨nofun,fun σ h => by cases h; exact ⟨rfl,trivial⟩⟩)
    | _ => first | exact .inl ⟨rfl,rfl⟩ | exact .inr (.inl ⟨nofun,nofun⟩)
  | router f | webSocket f | gateway f | reputation f =>
    cases f <;> first | exact .inl ⟨rfl,rfl⟩ | exact .inr (.inl ⟨nofun,nofun⟩)

theorem ServiceField.fate (g : ServiceList) (id : GoString) (f : ServiceField) :
    (f.readFrom = .wired ∧
      leafMark (.service g id) .applyDefault retryTimeout f = .restart (.service g id f)) ∨
    (f.readFrom = .snapshot ∧
      ∀ σ, leafMark (.service g id) .applyDefault retryTimeout f = .restart σ →
        σ = .service g id f ∧ σ.StaticRoutes) := by
  cases f with
  | staticRoutes => exact .inr ⟨rfl,fun σ h => by cases h; exact ⟨rfl,trivial⟩⟩
  | _ => first | exact .inl ⟨rfl,rfl⟩ | exact .inr ⟨rfl,nofun⟩

theorem mem_restarts {marks : List DiffMark} {σ : ConfigSection} :
    σ ∈ restarts marks ↔ .restart σ ∈ marks := by
  unfold restarts
  simp
  constructor
  · rintro ⟨m,hm,heq⟩
    cases m <;> cases heq
    exact hm
  · intro h
    exact ⟨_,h,rfl⟩

theorem mem_reputationKeys {marks : List DiffMark} {σ : ConfigSection}
    (h : .reputation σ ∈ marks) : .key σ ∈ reputationKeys marks :=
  mem_filterMap.mpr ⟨_,h,rfl⟩

section Outcome

def SeamOutcome.Handles (o : SeamOutcome) (p : FieldPath) : Prop :=
  p ∈ o.written ∨ ∃ w ∈ o.warnings, ∃ κ, w.about = some κ ∧ κ.Mentions (.field p)

theorem reachSeam_handles {present : Bool} {why : GoString} {err : Option GoString}
    {keys : List ReportKey} {warnings : List ReloadWarning} {written : List FieldPath}
    {p : FieldPath} {κ : ReportKey} (hp : p ∈ written) (hκ : κ ∈ keys)
    (hm : κ.Mentions (.field p)) : (reachSeam present why err keys warnings written).Handles p := by
  cases present with
  | false => exact .inr ⟨_,List.mem_map.mpr ⟨κ,hκ,rfl⟩,κ,rfl,hm⟩
  | true =>
    cases err with
    | none => exact .inl hp
    | some e => exact .inr ⟨_,List.mem_map.mpr ⟨κ,hκ,rfl⟩,κ,rfl,hm⟩

theorem marked_reachSeam_handles {m : DiffMark} {marks : List DiffMark} (h : m ∈ marks)
    {present : Bool} {why : GoString} {err : Option GoString} {keys : List ReportKey}
    {warnings : List ReloadWarning} {written : List FieldPath} {p : FieldPath} {κ : ReportKey}
    (hp : p ∈ written) (hκ : κ ∈ keys) (hm : κ.Mentions (.field p)) :
    (if m ∈ marks then reachSeam present why err keys warnings written
      else SeamOutcome.untouched).Handles p := by
  rw [if_pos h]
  exact reachSeam_handles hp hκ hm

variable {env : ReloadSeams V} {errs : SeamErrors} {marks : List DiffMark} {next : ConfigDoc V}

variable (next) in
theorem applyHealthChecks_unavailable (h : .healthChecks ∈ marks) (he : env.healthExe = false) :
    ∃ w ∈ (applyHealthChecks env marks next).warnings, w.about = some .healthChecks := by
  unfold applyHealthChecks
  rw [if_pos h,he]
  exact ⟨_,mem_singleton.mpr rfl,rfl⟩

theorem applyReputation_handles {f : ReputationField}
    (h : .reputation (.field (.reputation f)) ∈ marks) (hf : FieldPath.reputation f ∈ retuned) :
    (applyReputation env marks).Handles (.reputation f) := by
  have hk := mem_reputationKeys h
  unfold applyReputation
  rw [if_neg (ne_nil_of_mem hk)]
  exact reachSeam_handles hf hk (.self _)

variable (env errs next) in
theorem seamSections_handle {p : FieldPath} (hm : p.mark ∈ marks) (hp : p.readFrom = .seam) :
    ∃ o ∈ seamSections env errs marks next, o.Handles p := by
  have ho {q : FieldPath} : q ∈ [q] := mem_singleton.mpr rfl
  have hk {κ : ReportKey} : κ ∈ [κ] := mem_singleton.mpr rfl
  cases p with
  | healthCheck f =>
    refine ⟨applyHealthChecks env marks next,by simp [seamSections],?_⟩
    refine marked_reachSeam_handles hm ?_ hk (.healthChecks f)
    cases f with
    | localChecks | disableBackendURLDedup => decide
    | _ => cases hp
  | webSocket f =>
    refine ⟨applyWSConnections env marks,by simp [seamSections],?_⟩
    cases f with
    | maxConcurrentConnections => exact marked_reachSeam_handles hm ho hk (.self _)
    | _ => cases hp
  | gateway f =>
    cases f with
    | blockedDomains =>
      exact ⟨applyBlockedDomains env errs marks,by simp [seamSections],
        marked_reachSeam_handles hm ho hk (.self _)⟩
    | methodBlocks =>
      exact ⟨applyMethodBlocks env marks,by simp [seamSections],
        marked_reachSeam_handles hm ho hk (.self _)⟩
    | _ => cases hp
  | reputation f =>
    refine ⟨applyReputation env marks,by simp [seamSections],?_⟩
    cases f <;> first | contradiction | exact applyReputation_handles hm (by decide)
  | router f | defaults f | unifiedDefaults f => cases f <;> cases hp
  | _ => cases hp

end Outcome

section Flags

variable {env : ReloadSeams V} {errs : SeamErrors} {flags old next : GoMap GoString Bool}
  {name : GoString}

theorem mem_removedFlags :
    name ∈ removedFlags old next ↔ (∃ b, old.get name = some b) ∧ next.get name = none := by
  unfold removedFlags
  rw [mem_filter,List.mem_map]
  simp only [has,Bool.not_eq_true',isSome_eq_false_iff,isNone_iff_eq_none]
  refine and_congr_left fun _ => ?_
  constructor
  · rintro ⟨⟨k,b⟩,he,rfl⟩
    exact ⟨b,((iterates_toList old).mem_iff k b).mp he⟩
  · rintro ⟨b,hb⟩
    exact ⟨(name,b),((iterates_toList old).mem_iff name b).mpr hb,rfl⟩

theorem get_setFlags (hset : errs.setFlag name = none) {b : Bool} (h : next.get name = some b) :
    (flags.putAll (next.toList.filter fun e => (errs.setFlag e.1).isNone)).get name = some b := by
  have hm := ((iterates_toList next).mem_iff name b).mpr h
  refine get_putAll_of_mem ?_ (mem_filter.mpr ⟨hm,by rw [hset]; rfl⟩)
  exact (iterates_toList next).nodup.sublist (filter_sublist.map _)

theorem get_setFlags_skipped (h : next.get name = none ∨ errs.setFlag name ≠ none) :
    (flags.putAll (next.toList.filter fun e => (errs.setFlag e.1).isNone)).get name =
      flags.get name := by
  refine get_putAll_of_notMem fun hm => ?_
  obtain ⟨⟨k,b⟩,he,rfl⟩ := List.mem_map.mp hm
  obtain ⟨he,hok⟩ := mem_filter.mp he
  rcases h with h | h
  · cases (((iterates_toList next).mem_iff k b).mp he).symm.trans h
  · exact h (isNone_iff_eq_none.mp hok)

theorem applyFlags_keeps (h : flags.get name = next.get name) :
    (applyFlags env errs flags old next).flags.get name = next.get name := by
  unfold applyFlags
  split
  · rw [get_foldl_del]
    split
    · rename_i hm
      exact (mem_removedFlags.mp (mem_filter.mp hm).1).2.symm
    · cases hn : next.get name with
      | none => rw [get_setFlags_skipped (.inl hn),h,hn]
      | some b =>
        by_cases hset : errs.setFlag name = none
        · exact get_setFlags hset hn
        · rw [get_setFlags_skipped (.inr hset),h,hn]
  · exact h

variable (errs flags) in
theorem applyFlags_handles (hf : env.flags = true) (h : old.get name ≠ next.get name) :
    (applyFlags env errs flags old next).flags.get name = next.get name ∨
    ∃ w ∈ (applyFlags env errs flags old next).warnings, w.about = some (.key (.flag name)) := by
  unfold applyFlags
  rw [if_pos hf]
  rw [get_foldl_del]
  cases hn : next.get name with
  | none =>
    have hold : ∃ b, old.get name = some b := ne_none_iff_exists'.mp (hn ▸ h)
    have hr := mem_removedFlags.mpr ⟨hold,hn⟩
    cases hdel : errs.deleteGlobal name with
    | none =>
      left
      rw [if_pos (mem_filter.mpr ⟨hr,by rw [hdel]; rfl⟩)]
    | some err =>
      refine .inr ⟨.flagNotCleared name err,mem_append_right _ ?_,rfl⟩
      exact mem_flatMap.mpr ⟨name,hr,by rw [hdel]; exact mem_singleton.mpr rfl⟩
  | some b =>
    cases hset : errs.setFlag name with
    | none =>
      left
      rw [if_neg fun hm => ?_]
      · exact get_setFlags hset hn
      · have hno := (mem_removedFlags.mp (mem_filter.mp hm).1).2
        cases hn.symm.trans hno
    | some err =>
      refine .inr ⟨.flagNotSet name err,mem_append_left _ ?_,rfl⟩
      refine mem_flatMap.mpr ⟨(name,b),((iterates_toList next).mem_iff name b).mpr hn,
        mem_append_right _ ?_⟩
      rw [hset]
      exact mem_singleton.mpr rfl

end Flags

variable [DecidableEq V]

namespace ReloadedApp

def apply (env : ReloadSeams V) (errs : SeamErrors) (a : ReloadedApp V) (next : ConfigDoc V) :
    ReloadedApp V × ReloadResult :=
  let marks := diffConfig a.config next
  let flags := flagsSection env errs marks a.flags a.config.featureFlags next.featureFlags
  let seams := seamSections env errs marks next
  let written := seams.flatMap SeamOutcome.written
  (⟨a.boot,next,fun p => if p ∈ written then next.value p else a.seam p,flags.flags⟩,
    { applied := snapshotKeys marks ++ (if .flags ∈ marks then [.featureFlags] else []) ++
        seams.flatMap SeamOutcome.applied
      needsRestart := restarts marks
      warnings := next.warnings.map .config ++ flags.warnings ++
        seams.flatMap SeamOutcome.warnings })

end ReloadedApp

section Law

variable {env : ReloadSeams V} {errs : SeamErrors} {a : ReloadedApp V} {next : ConfigDoc V}
  {σ : ConfigSection}

namespace ReloadedApp

theorem apply_inEffect_of_inEffect (h : a.InEffect next σ) :
    (a.apply env errs next).1.InEffect next σ := by
  cases σ with
  | field p =>
    simp [InEffect,SectionView.Agrees,running,apply] at h ⊢
    cases hp : p.readFrom with
    | wired =>
      rwa [hp] at h
    | snapshot => rfl
    | seam =>
      rw [hp] at h
      dsimp only at h ⊢
      split
      · rfl
      · exact h
  | flag name =>
    simp [InEffect,SectionView.Agrees,running,apply,flagsSection] at h ⊢
    split
    · exact applyFlags_keeps h
    · exact h
  | services g => exact h
  | service g id f =>
    simp [InEffect,SectionView.Agrees,running,apply] at h ⊢
    cases hf : f.readFrom with
    | snapshot => rfl
    | _ =>
      rwa [hf] at h

end ReloadedApp

def AnsweredBy (env : ReloadSeams V) : ConfigSection → Prop
  | .field (.healthCheck f) =>
      (FieldPath.healthCheck f).readFrom = .seam ∨ env.healthExe = false
  | .flag _ => env.flags = true
  | _ => True

namespace ReloadedApp

theorem apply_field_handled {p : FieldPath} (hc : a.config.value p ≠ next.value p)
    (han : AnsweredBy env (.field p)) :
    (a.apply env errs next).1.InEffect next (.field p) ∨
      (a.apply env errs next).2.Names (.field p) := by
  have hma := mark_mem_diffConfig hc
  have hs (hp : p.readFrom = .seam) : (a.apply env errs next).1.InEffect next (.field p) ∨
      (a.apply env errs next).2.Names (.field p) := by
    obtain ⟨o,ho,hwr | ⟨w,hw,κ,ha,hm⟩⟩ := seamSections_handle env errs next hma hp
    · left
      simp only [InEffect,SectionView.Agrees,running,hp,apply]
      exact if_pos (mem_flatMap.mpr ⟨o,ho,hwr⟩)
    · exact .inr (.inr ⟨w,mem_append_right _ (mem_flatMap.mpr ⟨o,ho,hw⟩),κ,ha,hm⟩)
  obtain ⟨-,hr⟩ | ⟨hne,-⟩ | ⟨f,rfl⟩ := p.fate
  · rw [hr] at hma
    exact .inr (.inl ⟨_,mem_restarts.mpr hma,.self _⟩)
  · cases hp : p.readFrom with
    | wired => exact absurd hp hne
    | snapshot =>
      left
      simp [InEffect,SectionView.Agrees,running,hp]
      rfl
    | seam => exact hs hp
  · rcases han with hp | he
    · exact hs hp
    · obtain ⟨w,hw,ha⟩ := applyHealthChecks_unavailable next hma he
      refine .inr (.inr ⟨w,mem_append_right _ ?_,_,ha,.healthChecks f⟩)
      exact mem_flatMap.mpr ⟨_,.head _,hw⟩

theorem apply_flag_handled {name : GoString}
    (hc : a.config.featureFlags.get name ≠ next.featureFlags.get name)
    (hf : env.flags = true) :
    (a.apply env errs next).1.InEffect next (.flag name) ∨
      (a.apply env errs next).2.Names (.flag name) := by
  have hs : flagsSection env errs (diffConfig a.config next) a.flags a.config.featureFlags
      next.featureFlags = applyFlags env errs a.flags a.config.featureFlags next.featureFlags :=
    if_pos (flags_mem_diffConfig hc)
  obtain heq | ⟨w,hw,ha⟩ := applyFlags_handles errs a.flags hf hc
  · left
    simp [InEffect,SectionView.Agrees,running,apply,hs]
    exact heq
  · refine .inr (.inr ⟨w,?_,_,ha,.self _⟩)
    simpa only [apply,hs] using mem_append_left _ (mem_append_right _ hw)

theorem apply_services_handled {g : ServiceList} (hc : ServicesDiffer g a.config next) :
    (a.apply env errs next).2.Names (.services g) :=
  .inl ⟨_,mem_restarts.mpr (services_mem_diffConfig (.inl ⟨hc,rfl⟩)),.self _⟩

theorem apply_service_handled {g : ServiceList} {id : GoString} {f : ServiceField}
    (hc : a.config.view.service g id f ≠ next.view.service g id f) :
    (a.apply env errs next).1.InEffect next (.service g id f) ∨
      (a.apply env errs next).2.Names (.service g id f) := by
  by_cases hl : a.config.view.listed g id = next.view.listed g id
  · obtain ⟨-,hm⟩ | ⟨hf,-⟩ := ServiceField.fate g id f
    · have hd : ServiceDiffers g id f a.config next := by
        simp [ConfigDoc.view,has] at hc hl
        cases hold : (servicesByID (a.config.services g)).get id with
        | none =>
          rw [hold] at hc hl
          rw [isSome_eq_false_iff.mp hl.symm |> isNone_iff_eq_none.mp] at hc
          exact absurd rfl hc
        | some before =>
          rw [hold] at hc hl
          obtain ⟨after,hn⟩ := isSome_iff_exists.mp hl.symm
          rw [hn] at hc
          exact ⟨before,after,hold,hn,fun heq => hc (congrArg some heq)⟩
      have hme := services_mem_diffConfig (.inr ⟨id,f,hd,rfl⟩)
      rw [hm] at hme
      exact .inr (.inl ⟨_,mem_restarts.mpr hme,.self _⟩)
    · left
      simp [InEffect,SectionView.Agrees,running,hf]
      rfl
  · exact .inr (.inl ⟨_,mem_restarts.mpr (services_mem_diffConfig (.inl ⟨⟨id,hl⟩,rfl⟩)),
      .member g id f⟩)

theorem apply_handles (hc : ¬a.config.view.Agrees next.view σ) (ha : AnsweredBy env σ) :
    (a.apply env errs next).1.InEffect next σ ∨ (a.apply env errs next).2.Names σ := by
  cases σ with
  | field p => exact apply_field_handled hc ha
  | flag name => exact apply_flag_handled hc ha
  | services g => exact .inr (apply_services_handled (not_forall.mp hc))
  | service g id f => exact apply_service_handled hc

theorem needsRestart_spec (h : σ ∈ (a.apply env errs next).2.needsRestart) :
    ¬a.config.view.Agrees next.view σ ∧
      (¬σ.StaticRoutes → (a.apply env errs next).1.InEffect next σ → a.InEffect next σ) := by
  obtain ⟨p,hne,hm⟩ | ⟨g,⟨hd,hm⟩ | ⟨id,f,⟨before,after,hold,hn,hne⟩,hm⟩⟩ | hm :=
    mem_diffConfig (mem_restarts.mp h)
  · obtain ⟨hp,hr⟩ | ⟨-,hr⟩ | ⟨f,rfl⟩ := p.fate
    · rw [hr] at hm
      cases hm
      refine ⟨hne,fun _ he => ?_⟩
      simp [InEffect,SectionView.Agrees,running,hp] at he ⊢
      exact he
    · obtain ⟨rfl,hst⟩ := hr σ hm.symm
      exact ⟨hne,fun hns => absurd hst hns⟩
    · cases hm
  · cases hm
    exact ⟨fun ha => hd.elim fun id hid => hid (ha id),fun _ => id⟩
  · have hd : ¬a.config.view.Agrees next.view (.service g id f) := by
      simp only [SectionView.Agrees,ConfigDoc.view,hold,hn,map_some]
      exact fun ha => hne (some.inj ha)
    obtain ⟨hf,hl⟩ | ⟨-,hl⟩ := ServiceField.fate g id f
    · rw [hl] at hm
      cases hm
      refine ⟨hd,fun _ he => ?_⟩
      simp [InEffect,SectionView.Agrees,running,hf] at he ⊢
      exact he
    · obtain ⟨rfl,hst⟩ := hl σ hm.symm
      exact ⟨hd,fun hns => absurd hst hns⟩
  · cases hm

end ReloadedApp

def Tracked (env : ReloadSeams V) (a : ReloadedApp V) (next : ConfigDoc V) (σ : ConfigSection) :
    Prop :=
  (a.InEffect a.config σ ∨ ¬a.config.view.Agrees next.view σ ∧ ¬a.InEffect next σ) ∧
  (a.config.view.Agrees next.view σ ∨ AnsweredBy env σ ∧ ¬σ.StaticRoutes)

def Truthful (a : ReloadedApp V) (next : ConfigDoc V) (res : ReloadResult) (σ : ConfigSection) :
    Prop :=
  (¬a.InEffect next σ → res.Names σ) ∧ (σ ∈ res.needsRestart → ¬a.InEffect next σ)

theorem apply_truthful (h : Tracked env a next σ) :
    Truthful (a.apply env errs next).1 next (a.apply env errs next).2 σ := by
  have hm (hne : ¬a.InEffect next σ) : ¬a.config.view.Agrees next.view σ := by
    intro ha
    rcases h.1 with hin | ⟨hc,-⟩
    · exact hne (hin.trans ha)
    · exact hc ha
  constructor
  · intro ho
    have hc := hm fun hin => ho (ReloadedApp.apply_inEffect_of_inEffect hin)
    exact (ReloadedApp.apply_handles hc (h.2.resolve_left hc).1).resolve_left ho
  · intro hme hin
    obtain ⟨hc,hb⟩ := ReloadedApp.needsRestart_spec hme
    have hbefore := hb (h.2.resolve_left hc).2 hin
    rcases h.1 with hold | ⟨-,hne⟩
    · exact hc (hold.symm.trans hbefore)
    · exact hne hbefore

end Law

structure ReloadCall (V : Type) where
  errs : SeamErrors
  next : ConfigDoc V

structure ReloadHistory (V : Type) where
  app : ReloadedApp V
  last : Option (ConfigDoc V × ReloadResult)

namespace ReloadHistory

def start (boot : ConfigDoc V) : ReloadHistory V := ⟨.start boot,none⟩

def step (env : ReloadSeams V) (s : ReloadHistory V) (c : ReloadCall V) :
    Option (ReloadHistory V) :=
  let out := s.app.apply env c.errs c.next
  some ⟨out.1,some (c.next,out.2)⟩

def TrackedCall (env : ReloadSeams V) (σ : ConfigSection) (s : ReloadHistory V)
    (c : ReloadCall V) : Prop :=
  Tracked env s.app c.next σ

theorem reload_reports_what_is_not_in_effect {env : ReloadSeams V} {boot : ConfigDoc V}
    {σ : ConfigSection} {s : ReloadHistory V}
    (h : Run.Reaches (step env) (TrackedCall env σ) (start boot) s) {next : ConfigDoc V}
    {res : ReloadResult} (hlast : s.last = some (next,res)) :
    (¬s.app.InEffect next σ → res.Names σ) ∧
    (σ ∈ res.needsRestart → ¬s.app.InEffect next σ) := by
  cases h with
  | start => cases hlast
  | next _ hok hs =>
    cases hs
    cases hlast
    exact apply_truthful hok

def blankConfig : ConfigDoc Nat := ⟨fun _ => 0,fun _ => [],∅,[]⟩

def everySeam : ReloadSeams Nat :=
  ⟨true,true,true,true,true,true,fun _ => true,fun _ => []⟩

def noErrors : SeamErrors := ⟨none,fun _ => none,fun _ => none⟩

def edit (p : FieldPath) (v : Nat) : ReloadCall Nat :=
  ⟨noErrors,{ blankConfig with value := fun q => if q = p then v else 0 }⟩

def enableFlag (name : GoString) : ReloadCall Nat :=
  ⟨noErrors,{ blankConfig with featureFlags := GoMap.put ∅ name true }⟩

theorem not_names_of_silent {res : ReloadResult} {σ : ConfigSection} (hr : res.needsRestart = [])
    (hw : res.warnings = []) : ¬res.Names σ := by
  rintro (⟨κ,hκ,-⟩ | ⟨w,hm,-⟩)
  · rw [hr] at hκ
    cases hκ
  · rw [hw] at hm
    cases hm

def Unreported (env : ReloadSeams Nat) (σ : ConfigSection) : Prop :=
  ∃ s next res, Run.Reaches (step env) (fun _ _ => True) (start blankConfig) s ∧
    s.last = some (next,res) ∧ ¬s.app.InEffect next σ ∧ ¬res.Names σ

def Overreported (env : ReloadSeams Nat) (σ : ConfigSection) : Prop :=
  ∃ boot s next res, Run.Reaches (step env) (fun _ _ => True) (start boot) s ∧
    s.last = some (next,res) ∧ s.app.InEffect next σ ∧ σ ∈ res.needsRestart

def routed (v : Nat) : ConfigDoc Nat :=
  { blankConfig with
    services := fun _ => [⟨"eth".toList,fun f => if f = .staticRoutes then v else 0⟩] }

theorem unchanged_snapshot_hides_what_is_not_in_effect :
    Unreported everySeam (.field (.top .redis)) ∧
    Unreported everySeam (.field (.healthCheck .interval)) ∧
    Unreported { everySeam with flags := false } (.flag "health_checks".toList) ∧
    Overreported everySeam (.field (.top .redis)) ∧
    Overreported everySeam (.service .gateway "eth".toList .staticRoutes) := by
  refine ⟨?_,?_,?_,?_,?_⟩
  · -- the same edit loaded twice: the second diff is empty, the process still runs the boot value
    refine ⟨_,_,_,(Run.Reaches.start.next (a := edit (.top .redis) 1) trivial rfl).next
      (a := edit (.top .redis) 1) trivial rfl,rfl,?_,not_names_of_silent ?_ ?_⟩
    · exact Nat.zero_ne_one
    · decide +kernel
    · decide +kernel
  · refine ⟨_,_,_,Run.Reaches.start.next (a := edit (.healthCheck .interval) 1) trivial rfl,rfl,
      ?_,not_names_of_silent ?_ ?_⟩
    · exact Nat.zero_ne_one
    · decide +kernel
    · decide +kernel
  · refine ⟨_,_,_,Run.Reaches.start.next (a := enableFlag "health_checks".toList) trivial rfl,rfl,
      ?_,not_names_of_silent ?_ ?_⟩
    · simp [ReloadedApp.InEffect,SectionView.Agrees]
      decide +kernel
    · decide +kernel
    · decide +kernel
  · -- back to the boot value: the diff against the snapshot asks for a restart nothing needs
    refine ⟨blankConfig,_,_,_,(Run.Reaches.start.next (a := edit (.top .redis) 1) trivial rfl).next
      (a := edit (.top .redis) 0) trivial rfl,rfl,?_,?_⟩
    · exact Eq.refl 0
    · decide +kernel
  · -- the routes are read from the new snapshot, yet the diff lists them with the wired fields
    refine ⟨routed 0,_,_,_,Run.Reaches.start.next (a := ⟨noErrors,routed 1⟩) trivial rfl,rfl,
      ?_,?_⟩
    · rfl
    · decide +kernel

theorem two_edits_of_a_wired_section_are_reported :
    ∃ s next res, Run.Reaches (step everySeam) (TrackedCall everySeam (.field (.top .redis)))
      (start blankConfig) s ∧ s.last = some (next,res) ∧
      ¬s.app.InEffect next (.field (.top .redis)) ∧ res.Names (.field (.top .redis)) := by
  have hf : Run.Reaches (step everySeam) (TrackedCall everySeam (.field (.top .redis)))
      (start blankConfig) _ :=
    Run.Reaches.start.next (a := edit (.top .redis) 1) ⟨.inl rfl,.inr ⟨trivial,id⟩⟩ rfl
  have hm : (1 : Nat) ≠ 2 ∧ (0 : Nat) ≠ 2 := by decide
  have hs := hf.next (a := edit (.top .redis) 2) ⟨.inr hm,.inr ⟨trivial,id⟩⟩ rfl
  exact ⟨_,_,_,hs,rfl,hm.2,(reload_reports_what_is_not_in_effect hs rfl).1 hm.2⟩

end ReloadHistory

end SageGateway
