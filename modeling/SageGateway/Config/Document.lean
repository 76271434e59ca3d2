import SageGateway.Lib.GoMap
import SageGateway.Lib.GoString

namespace SageGateway

open List

inductive TopField where
  | redis | logger | metrics | fullNode | protocol
  deriving DecidableEq

inductive RouterField where
  | port | readTimeout | writeTimeout | idleTimeout | maxRequestBodyBytes | maxResponseBodyBytes
  | maxRequestHeaderBytes | websocketMessageBufferSize | trustedProxies
  deriving DecidableEq

inductive AdminField where
  | addr | authToken | maxDrain
  deriving DecidableEq

inductive ConcurrencyField where
  | maxConcurrentRelays | maxBatchPayloads | maxBatchConcurrency | maxBatchWindow
  | batchRejectMessage
  deriving DecidableEq

inductive WebSocketField where
  | frameObservationSampleRate | closeObservationSampleRate | maxConcurrentConnections
  deriving DecidableEq

inductive GatewayField where
  | gatewayMode | gatewayAddress | gatewayPrivateKeyHex | ownedAppsPrivateKeys | ownedAppsAddresses
  | retry | middlewareChain | blockedDomains | methodBlocks | observationPipeline | latencyProfiles
  | endpointPolicy
  deriving DecidableEq

inductive DefaultsField where
  | retry | timeout | reputation | staticRoutes
  deriving DecidableEq

inductive ReputationField where
  | enabled | storageType | keyGranularity | initialScore | minThreshold | recoveryTimeout
  | maxOperatorShare | maxOperatorShareTwoOperators | operatorDisplacementCeiling
  | chronicHalfLifeAttempts | chronicOnsetRate | chronicFullRate | tieredSelection | signalImpacts
  deriving DecidableEq

inductive HealthCheckField where
  | enabled | disabled | interval | maxWorkers | disableBackendURLDedup | probeTimeout
  | minTrafficSignals | peerProbeStream | localChecks
  deriving DecidableEq

inductive UnifiedField where
  | latencyProfiles | middlewareChain
  deriving DecidableEq

inductive ServiceField where
  | type | rpcTypes | syncAllowance | debugReferenceURL | debugReferenceWSURL | latencyProfile
  | chainID | timeout | retry | externalBlockSources | blockedSuppliers | rpcTypeFallbacks
  | staticRoutes
  deriving DecidableEq

def TopField.yamlKey : TopField → GoString
  | .redis => "redis_config".toList
  | .logger => "logger_config".toList
  | .metrics => "metrics_config".toList
  | .fullNode => "full_node_config".toList
  | .protocol => "protocol".toList

def RouterField.all : List RouterField :=
  [.port,.readTimeout,.writeTimeout,.idleTimeout,.maxRequestBodyBytes,.maxResponseBodyBytes,
    .maxRequestHeaderBytes,.websocketMessageBufferSize,.trustedProxies]

def RouterField.yamlKey : RouterField → GoString
  | .port => "port".toList
  | .readTimeout => "read_timeout".toList
  | .writeTimeout => "write_timeout".toList
  | .idleTimeout => "idle_timeout".toList
  | .maxRequestBodyBytes => "max_request_body_bytes".toList
  | .maxResponseBodyBytes => "max_response_body_bytes".toList
  | .maxRequestHeaderBytes => "max_request_header_bytes".toList
  | .websocketMessageBufferSize => "websocket_message_buffer_size".toList
  | .trustedProxies => "trusted_proxies".toList

def AdminField.all : List AdminField := [.addr,.authToken,.maxDrain]

def AdminField.yamlKey : AdminField → GoString
  | .addr => "addr".toList
  | .authToken => "auth_token".toList
  | .maxDrain => "max_drain".toList

def ConcurrencyField.all : List ConcurrencyField :=
  [.maxConcurrentRelays,.maxBatchPayloads,.maxBatchConcurrency,.maxBatchWindow,
    .batchRejectMessage]

def ConcurrencyField.yamlKey : ConcurrencyField → GoString
  | .maxConcurrentRelays => "max_concurrent_relays".toList
  | .maxBatchPayloads => "max_batch_payloads".toList
  | .maxBatchConcurrency => "max_batch_concurrency".toList
  | .maxBatchWindow => "max_batch_window".toList
  | .batchRejectMessage => "batch_reject_message".toList

def WebSocketField.all : List WebSocketField :=
  [.frameObservationSampleRate,.closeObservationSampleRate,.maxConcurrentConnections]

def WebSocketField.yamlKey : WebSocketField → GoString
  | .frameObservationSampleRate => "frame_observation_sample_rate".toList
  | .closeObservationSampleRate => "close_observation_sample_rate".toList
  | .maxConcurrentConnections => "max_concurrent_connections".toList

def GatewayField.yamlKey : GatewayField → GoString
  | .gatewayMode => "gateway_mode".toList
  | .gatewayAddress => "gateway_address".toList
  | .gatewayPrivateKeyHex => "gateway_private_key_hex".toList
  | .ownedAppsPrivateKeys => "owned_apps_private_keys_hex".toList
  | .ownedAppsAddresses => "owned_apps_addresses".toList
  | .retry => "retry_config".toList
  | .middlewareChain => "middleware_chain".toList
  | .blockedDomains => "blocked_domains".toList
  | .methodBlocks => "method_blocks".toList
  | .observationPipeline => "observation_pipeline".toList
  | .latencyProfiles => "latency_profiles".toList
  | .endpointPolicy => "endpoint_policy".toList

def DefaultsField.all : List DefaultsField := [.retry,.timeout,.reputation,.staticRoutes]

def DefaultsField.yamlKey : DefaultsField → GoString
  | .retry => "retry_config".toList
  | .timeout => "timeout_config".toList
  | .reputation => "reputation_config".toList
  | .staticRoutes => "static_routes".toList

def ReputationField.all : List ReputationField :=
  [.enabled,.storageType,.keyGranularity,.initialScore,.minThreshold,.recoveryTimeout,
    .maxOperatorShare,.maxOperatorShareTwoOperators,.operatorDisplacementCeiling,
    .chronicHalfLifeAttempts,.chronicOnsetRate,.chronicFullRate,.tieredSelection,.signalImpacts]

def ReputationField.yamlKey : ReputationField → GoString
  | .enabled => "enabled".toList
  | .storageType => "storage_type".toList
  | .keyGranularity => "key_granularity".toList
  | .initialScore => "initial_score".toList
  | .minThreshold => "min_threshold".toList
  | .recoveryTimeout => "recovery_timeout".toList
  | .maxOperatorShare => "max_operator_share".toList
  | .maxOperatorShareTwoOperators => "max_operator_share_two_operators".toList
  | .operatorDisplacementCeiling => "operator_displacement_ceiling".toList
  | .chronicHalfLifeAttempts => "chronic_half_life_attempts".toList
  | .chronicOnsetRate => "chronic_onset_rate".toList
  | .chronicFullRate => "chronic_full_rate".toList
  | .tieredSelection => "tiered_selection".toList
  | .signalImpacts => "signal_impacts".toList

def HealthCheckField.all : List HealthCheckField :=
  [.enabled,.disabled,.interval,.maxWorkers,.disableBackendURLDedup,.probeTimeout,
    .minTrafficSignals,.peerProbeStream,.localChecks]

def HealthCheckField.yamlKey : HealthCheckField → GoString
  | .enabled => "enabled".toList
  | .disabled => "disabled".toList
  | .interval => "interval".toList
  | .maxWorkers => "max_workers".toList
  | .disableBackendURLDedup => "disable_backend_url_dedup".toList
  | .probeTimeout => "probe_timeout".toList
  | .minTrafficSignals => "min_traffic_signals".toList
  | .peerProbeStream => "peer_probe_stream".toList
  | .localChecks => "local".toList

def UnifiedField.yamlKey : UnifiedField → GoString
  | .latencyProfiles => "latency_profiles".toList
  | .middlewareChain => "middleware_chain".toList

def ServiceField.all : List ServiceField :=
  [.type,.rpcTypes,.syncAllowance,.debugReferenceURL,.debugReferenceWSURL,.latencyProfile,.chainID,
    .timeout,.retry,.externalBlockSources,.blockedSuppliers,.rpcTypeFallbacks,.staticRoutes]

def ServiceField.yamlKey : ServiceField → GoString
  | .type => "type".toList
  | .rpcTypes => "rpc_types".toList
  | .syncAllowance => "sync_allowance".toList
  | .debugReferenceURL => "debug_reference_url".toList
  | .debugReferenceWSURL => "debug_reference_ws_url".toList
  | .latencyProfile => "latency_profile".toList
  | .chainID => "chain_id".toList
  | .timeout => "timeout_config".toList
  | .retry => "retry_config".toList
  | .externalBlockSources => "external_block_sources".toList
  | .blockedSuppliers => "blocked_suppliers".toList
  | .rpcTypeFallbacks => "rpc_type_fallbacks".toList
  | .staticRoutes => "static_routes".toList

inductive FieldPath where
  | top (f : TopField)
  | router (f : RouterField)
  | admin (f : AdminField)
  | concurrency (f : ConcurrencyField)
  | webSocket (f : WebSocketField)
  | gateway (f : GatewayField)
  | defaults (f : DefaultsField)
  | reputation (f : ReputationField)
  | healthCheck (f : HealthCheckField)
  | unified (f : UnifiedField)
  | unifiedDefaults (f : DefaultsField)
  deriving DecidableEq

def FieldPath.text : FieldPath → GoString
  | .top f => f.yamlKey
  | .router f => "router_config.".toList ++ f.yamlKey
  | .admin f => "admin_config.".toList ++ f.yamlKey
  | .concurrency f => "concurrency_config.".toList ++ f.yamlKey
  | .webSocket f => "websocket_config.".toList ++ f.yamlKey
  | .gateway f => "gateway_config.".toList ++ f.yamlKey
  | .defaults f => "gateway_config.defaults.".toList ++ f.yamlKey
  | .reputation f => "gateway_config.reputation_config.".toList ++ f.yamlKey
  | .healthCheck f => "gateway_config.active_health_checks.".toList ++ f.yamlKey
  | .unified f => "gateway_config.unified_services.".toList ++ f.yamlKey
  | .unifiedDefaults f => "gateway_config.unified_services.defaults.".toList ++ f.yamlKey

inductive ServiceList where
  | gateway
  | unified
  deriving DecidableEq

def ServiceList.text : ServiceList → GoString
  | .gateway => "gateway_config.services".toList
  | .unified => "gateway_config.unified_services.services".toList

inductive ConfigSection where
  | field (p : FieldPath)
  | flag (name : GoString)
  | services (g : ServiceList)
  | service (g : ServiceList) (id : GoString) (f : ServiceField)
  deriving DecidableEq

def ConfigSection.text : ConfigSection → GoString
  | .field p => p.text
  | .flag name => name
  | .services g => g.text
  | .service g id f => g.text ++ "[".toList ++ id ++ "].".toList ++ f.yamlKey

structure ServiceDoc (V : Type) where
  id : GoString
  field : ServiceField → V

structure ConfigDoc (V : Type) where
  value : FieldPath → V
  services : ServiceList → List (ServiceDoc V)
  featureFlags : GoMap GoString Bool
  warnings : List GoString

inductive DiffMark where
  | restart (σ : ConfigSection)
  | applyDefault (σ : ConfigSection)
  | reputation (σ : ConfigSection)
  | wsConnections
  | flags
  | healthChecks
  | blockedDomains
  | methodBlocks
  deriving DecidableEq

variable {V : Type} [DecidableEq V]

def servicesByID (services : List (ServiceDoc V)) : GoMap GoString (ServiceDoc V) :=
  services.foldl (fun out svc => if out.has svc.id then out else out.put svc.id svc) ∅

def leafMark {F : Type} [DecidableEq F] (key : F → ConfigSection) (apply : ConfigSection → DiffMark)
    (seamed : Option (List F)) (f : F) : DiffMark :=
  if seamed.all fun l => decide (f ∈ l) then apply (key f) else .restart (key f)

def diffLeavesExcept {F : Type} [DecidableEq F] (all : List F) (key : F → ConfigSection)
    (old next : F → V) (apply : ConfigSection → DiffMark) (seamed : Option (List F)) :
    List DiffMark :=
  all.flatMap fun f => if old f = next f then [] else [leafMark key apply seamed f]

def diffWhole (p : FieldPath) (mark : DiffMark) (old next : ConfigDoc V) : List DiffMark :=
  if old.value p = next.value p then [] else [mark]

def retryTimeout : Option (List ServiceField) := some [.retry,.timeout]

def diffServices (g : ServiceList) (old next : List (ServiceDoc V)) : List DiffMark :=
  let oldByID := servicesByID old
  let nextByID := servicesByID next
  (nextByID.toList.flatMap fun e =>
    match oldByID.get e.1 with
    | none => [.restart (.services g)]
    | some before =>
        diffLeavesExcept ServiceField.all (.service g e.1) before.field e.2.field .applyDefault
          retryTimeout) ++
  oldByID.toList.flatMap fun e =>
    if nextByID.has e.1 then [] else [.restart (.services g)]

def defaultsSeams : Option (List DefaultsField) := some [.retry,.timeout]

def diffUnified (old next : ConfigDoc V) : List DiffMark :=
  diffLeavesExcept DefaultsField.all (fun f => .field (.unifiedDefaults f))
    (fun f => old.value (.unifiedDefaults f)) (fun f => next.value (.unifiedDefaults f))
    .applyDefault defaultsSeams ++
  diffServices .unified (old.services .unified) (next.services .unified) ++
  diffWhole (.unified .latencyProfiles) (.restart (.field (.unified .latencyProfiles))) old next ++
  diffWhole (.unified .middlewareChain) (.restart (.field (.unified .middlewareChain))) old next

def reputationSeams : Option (List ReputationField) :=
  some [.minThreshold,.maxOperatorShare,.maxOperatorShareTwoOperators,.operatorDisplacementCeiling,
    .chronicHalfLifeAttempts,.chronicOnsetRate,.chronicFullRate,.tieredSelection,.signalImpacts]

inductive GatewayMember where
  | field (f : GatewayField)
  | reputation
  | services
  | unifiedServices
  | healthChecks
  | defaults
  deriving DecidableEq

def GatewayMember.all : List GatewayMember :=
  [.field .gatewayMode,.field .gatewayAddress,.field .gatewayPrivateKeyHex,
    .field .ownedAppsPrivateKeys,.field .ownedAppsAddresses,.reputation,.services,.unifiedServices,
    .field .retry,.field .middlewareChain,.field .blockedDomains,.field .methodBlocks,.healthChecks,
    .field .observationPipeline,.field .latencyProfiles,.defaults,.field .endpointPolicy]

def gatewayMark : GatewayField → DiffMark
  | .retry => .applyDefault (.field (.gateway .retry))
  | .blockedDomains => .blockedDomains
  | .methodBlocks => .methodBlocks
  | f => .restart (.field (.gateway f))

def diffGateway (old next : ConfigDoc V) : List DiffMark :=
  GatewayMember.all.flatMap fun
    | .field f => diffWhole (.gateway f) (gatewayMark f) old next
    | .defaults =>
        diffLeavesExcept DefaultsField.all (fun f => .field (.defaults f))
          (fun f => old.value (.defaults f)) (fun f => next.value (.defaults f)) .applyDefault
          defaultsSeams
    | .reputation =>
        diffLeavesExcept ReputationField.all (fun f => .field (.reputation f))
          (fun f => old.value (.reputation f)) (fun f => next.value (.reputation f)) .reputation
          reputationSeams
    | .healthChecks =>
        if HealthCheckField.all.all fun f =>
            decide (old.value (.healthCheck f) = next.value (.healthCheck f))
        then [] else [.healthChecks]
    | .services => diffServices .gateway (old.services .gateway) (next.services .gateway)
    | .unifiedServices => diffUnified old next

def deepEqualFlags (old next : GoMap GoString Bool) : Bool :=
  old.len == next.len && old.toList.all fun e => next.get e.1 == some e.2

inductive ConfigMember where
  | field (f : TopField)
  | router
  | admin
  | concurrency
  | gateway
  | featureFlags
  | webSocket
  deriving DecidableEq

def ConfigMember.all : List ConfigMember :=
  [.field .redis,.router,.field .logger,.field .metrics,.admin,.concurrency,.field .fullNode,
    .gateway,.featureFlags,.webSocket,.field .protocol]

def routerSeams : Option (List RouterField) := some [.maxRequestBodyBytes,.maxResponseBodyBytes]

def webSocketSeams : Option (List WebSocketField) := some [.maxConcurrentConnections]

def diffConfig (old next : ConfigDoc V) : List DiffMark :=
  ConfigMember.all.flatMap fun
    | .gateway => diffGateway old next
    | .featureFlags => if deepEqualFlags old.featureFlags next.featureFlags then [] else [.flags]
    | .concurrency =>
        diffLeavesExcept ConcurrencyField.all (fun f => .field (.concurrency f))
          (fun f => old.value (.concurrency f)) (fun f => next.value (.concurrency f)) .applyDefault
          none
    | .router =>
        diffLeavesExcept RouterField.all (fun f => .field (.router f))
          (fun f => old.value (.router f)) (fun f => next.value (.router f)) .applyDefault
          routerSeams
    | .webSocket =>
        diffLeavesExcept WebSocketField.all (fun f => .field (.webSocket f))
          (fun f => old.value (.webSocket f)) (fun f => next.value (.webSocket f))
          (fun _ => .wsConnections) webSocketSeams
    | .admin =>
        diffLeavesExcept AdminField.all (fun f => .field (.admin f))
          (fun f => old.value (.admin f)) (fun f => next.value (.admin f)) .restart none
    | .field f => diffWhole (.top f) (.restart (.field (.top f))) old next

def FieldPath.mark : FieldPath → DiffMark
  | .top f => .restart (.field (.top f))
  | .router f => leafMark (fun f => .field (.router f)) .applyDefault routerSeams f
  | .admin f => leafMark (fun f => .field (.admin f)) .restart none f
  | .concurrency f => leafMark (fun f => .field (.concurrency f)) .applyDefault none f
  | .webSocket f =>
      leafMark (fun f => .field (.webSocket f)) (fun _ => .wsConnections) webSocketSeams f
  | .gateway f => gatewayMark f
  | .defaults f => leafMark (fun f => .field (.defaults f)) .applyDefault defaultsSeams f
  | .reputation f => leafMark (fun f => .field (.reputation f)) .reputation reputationSeams f
  | .healthCheck _ => .healthChecks
  | .unified f => .restart (.field (.unified f))
  | .unifiedDefaults f =>
      leafMark (fun f => .field (.unifiedDefaults f)) .applyDefault defaultsSeams f

theorem mem_diffLeavesExcept {F : Type} [DecidableEq F] {all : List F} (ha : ∀ f, f ∈ all)
    {key : F → ConfigSection} {old next : F → V} {apply : ConfigSection → DiffMark}
    {seamed : Option (List F)} {m : DiffMark} :
    m ∈ diffLeavesExcept all key old next apply seamed ↔
      ∃ f, old f ≠ next f ∧ m = leafMark key apply seamed f := by
  unfold diffLeavesExcept
  rw [mem_flatMap]
  constructor
  · rintro ⟨f,-,hm⟩
    split at hm
    · cases hm
    · exact ⟨f,‹_›,mem_singleton.mp hm⟩
  · rintro ⟨f,hne,rfl⟩
    refine ⟨f,ha f,?_⟩
    rw [if_neg hne]
    exact mem_singleton.mpr rfl

theorem mem_diffWhole {p : FieldPath} {mark m : DiffMark} {old next : ConfigDoc V} :
    m ∈ diffWhole p mark old next ↔ old.value p ≠ next.value p ∧ m = mark := by
  unfold diffWhole
  split <;> simp_all

theorem RouterField.mem_all (f : RouterField) : f ∈ all := by cases f <;> decide

theorem AdminField.mem_all (f : AdminField) : f ∈ all := by cases f <;> decide

theorem ConcurrencyField.mem_all (f : ConcurrencyField) : f ∈ all := by cases f <;> decide

theorem WebSocketField.mem_all (f : WebSocketField) : f ∈ all := by cases f <;> decide

theorem DefaultsField.mem_all (f : DefaultsField) : f ∈ all := by cases f <;> decide

theorem ReputationField.mem_all (f : ReputationField) : f ∈ all := by cases f <;> decide

theorem HealthCheckField.mem_all (f : HealthCheckField) : f ∈ all := by cases f <;> decide

theorem ServiceField.mem_all (f : ServiceField) : f ∈ all := by cases f <;> decide

theorem GatewayMember.mem_all (t : GatewayMember) : t ∈ all := by
  cases t with
  | field f => cases f <;> decide
  | _ => decide

theorem ConfigMember.mem_all (t : ConfigMember) : t ∈ all := by
  cases t with
  | field f => cases f <;> decide
  | _ => decide

def ServicesDiffer (g : ServiceList) (old next : ConfigDoc V) : Prop :=
  ∃ id, (servicesByID (old.services g)).has id ≠ (servicesByID (next.services g)).has id

def ServiceDiffers (g : ServiceList) (id : GoString) (f : ServiceField) (old next : ConfigDoc V) :
    Prop :=
  ∃ before after, (servicesByID (old.services g)).get id = some before ∧
    (servicesByID (next.services g)).get id = some after ∧ before.field f ≠ after.field f

def ServiceMark (g : ServiceList) (old next : ConfigDoc V) (m : DiffMark) : Prop :=
  (ServicesDiffer g old next ∧ m = .restart (.services g)) ∨
  ∃ id f, ServiceDiffers g id f old next ∧
    m = leafMark (.service g id) .applyDefault retryTimeout f

omit [DecidableEq V] in
theorem servicesDiffer_iff {g : ServiceList} {old next : ConfigDoc V} :
    ServicesDiffer g old next ↔
      (∃ id after, (servicesByID (next.services g)).get id = some after ∧
        (servicesByID (old.services g)).get id = none) ∨
      (∃ id before, (servicesByID (old.services g)).get id = some before ∧
        (servicesByID (next.services g)).has id = false) := by
  unfold ServicesDiffer GoMap.has
  constructor
  · rintro ⟨id,hne⟩
    cases hold : (servicesByID (old.services g)).get id with
    | none =>
      rw [hold] at hne
      obtain ⟨after,hn⟩ := Option.isSome_iff_exists.mp
        (Bool.of_not_eq_false fun h => hne h.symm)
      exact .inl ⟨id,after,hn,hold⟩
    | some before =>
      rw [hold] at hne
      exact .inr ⟨id,before,hold,Bool.of_not_eq_true fun h => hne h.symm⟩
  · rintro (⟨id,after,hn,hold⟩ | ⟨id,before,hold,hn⟩)
    · exact ⟨id,by rw [hn,hold]; exact Bool.false_ne_true⟩
    · exact ⟨id,by rw [hn,hold]; exact Bool.false_ne_true.symm⟩

variable {next old : ConfigDoc V} {m : DiffMark}

theorem mem_diffServices {g : ServiceList} :
    m ∈ diffServices g (old.services g) (next.services g) ↔ ServiceMark g old next m := by
  have hme {l : List (ServiceDoc V)} (e : GoString × ServiceDoc V) :=
    (GoMap.iterates_toList (servicesByID l)).mem_iff e.1 e.2
  unfold diffServices ServiceMark
  simp only [mem_append,mem_flatMap]
  rw [servicesDiffer_iff]
  constructor
  · rintro (⟨e,he,hm⟩ | ⟨e,he,hm⟩)
    · have hn := (hme e).mp he
      cases hold : (servicesByID (old.services g)).get e.1 with
      | none =>
        rw [hold] at hm
        exact .inl ⟨.inl ⟨e.1,e.2,hn,hold⟩,mem_singleton.mp hm⟩
      | some before =>
        rw [hold] at hm
        obtain ⟨f,hne,rfl⟩ := (mem_diffLeavesExcept ServiceField.mem_all).mp hm
        exact .inr ⟨e.1,f,⟨before,e.2,hold,hn,hne⟩,rfl⟩
    · split at hm
      · cases hm
      · exact .inl ⟨.inr ⟨e.1,e.2,(hme e).mp he,Bool.of_not_eq_true ‹_›⟩,
          mem_singleton.mp hm⟩
  · rintro (⟨⟨id,after,hn,hold⟩ | ⟨id,before,hold,hn⟩,rfl⟩ |
      ⟨id,f,⟨before,after,hold,hn,hne⟩,rfl⟩)
    · refine .inl ⟨(id,after),(hme (id,after)).mpr hn,?_⟩
      simpa only [hold] using mem_singleton.mpr rfl
    · refine .inr ⟨(id,before),(hme (id,before)).mpr hold,?_⟩
      simp only [hn]
      exact mem_singleton.mpr rfl
    · refine .inl ⟨(id,after),(hme (id,after)).mpr hn,?_⟩
      simpa [hold] using (mem_diffLeavesExcept ServiceField.mem_all).mpr ⟨f,hne,rfl⟩

def FieldMark (old next : ConfigDoc V) (m : DiffMark) : Prop :=
  ∃ p, old.value p ≠ next.value p ∧ m = p.mark

theorem mem_diffUnified
    (h : m ∈ diffUnified old next) : FieldMark old next m ∨ ServiceMark .unified old next m := by
  unfold diffUnified at h
  simp only [mem_append,mem_diffServices,mem_diffWhole,
    mem_diffLeavesExcept DefaultsField.mem_all] at h
  obtain ((⟨f,hne,rfl⟩ | hs) | ⟨hne,rfl⟩) | ⟨hne,rfl⟩ := h
  · exact .inl ⟨.unifiedDefaults f,hne,rfl⟩
  · exact .inr hs
  · exact .inl ⟨_,hne,rfl⟩
  · exact .inl ⟨_,hne,rfl⟩

theorem mem_diffGateway
    (h : m ∈ diffGateway old next) : FieldMark old next m ∨ ∃ g, ServiceMark g old next m := by
  obtain ⟨t,-,hm⟩ := mem_flatMap.mp h
  cases t with
  | field f =>
    obtain ⟨hne,rfl⟩ := mem_diffWhole.mp hm
    exact .inl ⟨.gateway f,hne,rfl⟩
  | reputation =>
    obtain ⟨f,hne,rfl⟩ := (mem_diffLeavesExcept ReputationField.mem_all).mp hm
    exact .inl ⟨.reputation f,hne,rfl⟩
  | services => exact .inr ⟨.gateway,mem_diffServices.mp hm⟩
  | unifiedServices => exact (mem_diffUnified hm).imp_right fun hs => ⟨.unified,hs⟩
  | healthChecks =>
    dsimp only at hm
    split at hm
    · cases hm
    · rename_i ha
      simp at ha
      obtain ⟨f,-,hne⟩ := ha
      exact .inl ⟨.healthCheck f,hne,mem_singleton.mp hm⟩
  | defaults =>
    obtain ⟨f,hne,rfl⟩ := (mem_diffLeavesExcept DefaultsField.mem_all).mp hm
    exact .inl ⟨.defaults f,hne,rfl⟩

theorem mem_diffConfig (h : m ∈ diffConfig old next) :
    FieldMark old next m ∨ (∃ g, ServiceMark g old next m) ∨ m = .flags := by
  obtain ⟨t,-,hm⟩ := mem_flatMap.mp h
  cases t with
  | field f =>
    obtain ⟨hne,rfl⟩ := mem_diffWhole.mp hm
    exact .inl ⟨.top f,hne,rfl⟩
  | router =>
    obtain ⟨f,hne,rfl⟩ := (mem_diffLeavesExcept RouterField.mem_all).mp hm
    exact .inl ⟨.router f,hne,rfl⟩
  | admin =>
    obtain ⟨f,hne,rfl⟩ := (mem_diffLeavesExcept AdminField.mem_all).mp hm
    exact .inl ⟨.admin f,hne,rfl⟩
  | concurrency =>
    obtain ⟨f,hne,rfl⟩ := (mem_diffLeavesExcept ConcurrencyField.mem_all).mp hm
    exact .inl ⟨.concurrency f,hne,rfl⟩
  | gateway => exact (mem_diffGateway hm).imp_right .inl
  | featureFlags =>
    dsimp only at hm
    split at hm
    · cases hm
    · exact .inr (.inr (mem_singleton.mp hm))
  | webSocket =>
    obtain ⟨f,hne,rfl⟩ := (mem_diffLeavesExcept WebSocketField.mem_all).mp hm
    exact .inl ⟨.webSocket f,hne,rfl⟩

theorem mem_diffConfig_of_gateway
    (h : m ∈ diffGateway old next) : m ∈ diffConfig old next :=
  mem_flatMap.mpr ⟨.gateway,ConfigMember.mem_all _,h⟩

theorem mem_diffConfig_of_unified
    (h : m ∈ diffUnified old next) : m ∈ diffConfig old next :=
  mem_diffConfig_of_gateway (mem_flatMap.mpr ⟨.unifiedServices,GatewayMember.mem_all _,h⟩)

theorem services_mem_diffConfig {g : ServiceList}
    (h : ServiceMark g old next m) : m ∈ diffConfig old next := by
  cases g with
  | gateway =>
    exact mem_diffConfig_of_gateway
      (mem_flatMap.mpr ⟨.services,GatewayMember.mem_all _,mem_diffServices.mpr h⟩)
  | unified =>
    refine mem_diffConfig_of_unified ?_
    simp [diffUnified,mem_diffServices.mpr h]

theorem mark_mem_diffConfig {p : FieldPath}
    (h : old.value p ≠ next.value p) : p.mark ∈ diffConfig old next := by
  have hc {m} t h : m ∈ diffConfig old next := mem_flatMap.mpr ⟨t,ConfigMember.mem_all t,h⟩
  have hg {m} t h : m ∈ diffConfig old next :=
    mem_diffConfig_of_gateway (mem_flatMap.mpr ⟨t,GatewayMember.mem_all t,h⟩)
  cases p with
  | top f => exact hc (.field f) (mem_diffWhole.mpr ⟨h,rfl⟩)
  | router f => exact hc .router ((mem_diffLeavesExcept RouterField.mem_all).mpr ⟨f,h,rfl⟩)
  | admin f => exact hc .admin ((mem_diffLeavesExcept AdminField.mem_all).mpr ⟨f,h,rfl⟩)
  | concurrency f =>
    exact hc .concurrency ((mem_diffLeavesExcept ConcurrencyField.mem_all).mpr ⟨f,h,rfl⟩)
  | webSocket f =>
    exact hc .webSocket ((mem_diffLeavesExcept WebSocketField.mem_all).mpr ⟨f,h,rfl⟩)
  | gateway f => exact hg (.field f) (mem_diffWhole.mpr ⟨h,rfl⟩)
  | defaults f => exact hg .defaults ((mem_diffLeavesExcept DefaultsField.mem_all).mpr ⟨f,h,rfl⟩)
  | reputation f =>
    exact hg .reputation ((mem_diffLeavesExcept ReputationField.mem_all).mpr ⟨f,h,rfl⟩)
  | healthCheck f =>
    refine hg .healthChecks ?_
    rw [if_neg fun ha => h (of_decide_eq_true
      (all_eq_true.mp ha f (HealthCheckField.mem_all f)))]
    exact mem_singleton.mpr rfl
  | unified f =>
    refine mem_diffConfig_of_unified ?_
    cases f <;> simp [diffUnified,mem_diffWhole,h,FieldPath.mark]
  | unifiedDefaults f =>
    refine mem_diffConfig_of_unified ?_
    simp only [diffUnified,mem_append]
    exact .inl (.inl (.inl ((mem_diffLeavesExcept DefaultsField.mem_all).mpr ⟨f,h,rfl⟩)))

theorem deepEqualFlags_get {old next : GoMap GoString Bool} (h : deepEqualFlags old next = true)
    (name : GoString) : old.get name = next.get name := by
  unfold deepEqualFlags at h
  simp only [Bool.and_eq_true,beq_iff_eq,all_eq_true] at h
  refine GoMap.get_eq_of_subset (fun k v hk => ?_) (Nat.le_of_eq h.1.symm) name
  exact h.2 (k,v) ((GoMap.iterates_toList old).mem_iff k v |>.mpr hk)

theorem flags_mem_diffConfig {name : GoString}
    (h : old.featureFlags.get name ≠ next.featureFlags.get name) :
    .flags ∈ diffConfig old next := by
  refine mem_flatMap.mpr ⟨.featureFlags,ConfigMember.mem_all _,?_⟩
  rw [if_neg fun heq => h (deepEqualFlags_get heq name)]
  exact mem_singleton.mpr rfl

end SageGateway
