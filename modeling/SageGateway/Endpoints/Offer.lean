import SageGateway.Endpoints

namespace SageGateway.Protocol

variable {P : Platform} (p : Protocol P) (now : Int) (svc : ServiceID)

def Allowed (ep : Endpoint) (url : GoString) (t : RPCType) : Prop :=
  (DomainBlocklist.isBlockedEndpoint p.blockedDomains url ep.ownerAddr t).1 = false ∧
  p.drained svc url t = false ∧ p.supplierBlocked svc ep.supplierAddr = false ∧
  p.endpointPolicy.policyRejects url = false ∧ p.overServedOut svc ep = false

instance (ep : Endpoint) (url : GoString) (t : RPCType) : Decidable (p.Allowed svc ep url t) :=
  inferInstanceAs (Decidable (_ ∧ _))

def Eligible (ep : Endpoint) (t : RPCType) : Prop :=
  ∃ url, p.endpointURL svc ep t = some url ∧ p.Allowed svc ep url t

def Blacklisted (ep : Endpoint) : Prop := p.bl.isBlacklisted now svc ep.supplierAddr = true

structure OfferSound (session : Session) (t : RPCType) (res : List EndpointAddr) : Prop where
  dialable : ∀ addr ∈ res, ∃ ep, session.get addr = some ep ∧ p.Eligible svc ep t
  lastResort : ∀ addr ∈ res, ∀ ep, session.get addr = some ep → p.Blacklisted now svc ep →
    ∀ addr' ep', session.get addr' = some ep' → p.Eligible svc ep' t → p.Blacklisted now svc ep'
  nonempty : (∃ addr ep, session.get addr = some ep ∧ p.Eligible svc ep t) → res ≠ []

variable {p now svc}

variable {ep : Endpoint} {Q : Endpoint → Prop} {t : RPCType} {session : Session}

theorem judge_eq_benched_iff {url : GoString} :
    p.judge now svc ep url t = .benched ↔ p.Allowed svc ep url t ∧ p.Blacklisted now svc ep := by
  unfold judge Allowed Blacklisted
  split_ifs <;> simp_all

theorem judge_eq_offered_iff {url : GoString} :
    p.judge now svc ep url t = .offered ↔ p.Allowed svc ep url t ∧ ¬p.Blacklisted now svc ep := by
  unfold judge Allowed Blacklisted
  split_ifs <;> simp_all

theorem mem_collect (t lookup : RPCType) (skip : Bool) (order : List (EndpointAddr × Endpoint))
    (addr : EndpointAddr) :
    (addr ∈ (p.collect now svc true t lookup skip order).1 ↔
      ∃ ep url, (addr,ep) ∈ order ∧ candidateURL t lookup skip ep = some url ∧
        p.Allowed svc ep url t ∧ ¬p.Blacklisted now svc ep) ∧
    (addr ∈ (p.collect now svc true t lookup skip order).2 ↔
      ∃ ep url, (addr,ep) ∈ order ∧ candidateURL t lookup skip ep = some url ∧
        p.Allowed svc ep url t ∧ p.Blacklisted now svc ep) := by
  simp only [← judge_eq_offered_iff,← judge_eq_benched_iff]
  induction order with
  | nil => simp [collect]
  | cons e rest ih =>
    obtain ⟨a,ep⟩ := e
    simp only [collect,if_true,List.mem_cons,Prod.mk.injEq]
    cases hu : candidateURL t lookup skip ep with
    | none =>
      refine ⟨ih.1.trans ?_,ih.2.trans ?_⟩
      all_goals
        constructor
        · rintro ⟨ep',url,hm,hc⟩
          exact ⟨ep',url,.inr hm,hc⟩
        · rintro ⟨ep',url,⟨rfl,rfl⟩ | hm,hc⟩
          · simp [hu] at hc
          · exact ⟨ep',url,hm,hc⟩
    | some url =>
      cases hj : p.judge now svc ep url t <;> simp_all [or_and_right,exists_or]

def IsPool (session : Session) (Q : Endpoint → Prop) (pool : List EndpointAddr) : Prop :=
  ∀ addr, addr ∈ pool ↔ ∃ ep, session.get addr = some ep ∧ Q ep

theorem IsPool.not_of_nil (h : IsPool session Q [])
    {addr : EndpointAddr} (hep : session.get addr = some ep) : ¬Q ep := by
  intro hq
  have hm := (h addr).mpr ⟨ep,hep,hq⟩
  cases hm

theorem IsPool.eq_nil {pool : List EndpointAddr}
    (h : IsPool session Q pool) (hq : ∀ addr ep, session.get addr = some ep → ¬Q ep) :
    pool = [] := by
  refine List.eq_nil_iff_forall_not_mem.mpr fun addr hm => ?_
  obtain ⟨ep,hep,hQ⟩ := (h addr).mp hm
  exact hq addr ep hep hQ

theorem collect_isPool {order : List (EndpointAddr × Endpoint)}
    (hit : session.Iterates order) (t lookup : RPCType) (skip : Bool) :
    IsPool session (fun ep => (∃ url, candidateURL t lookup skip ep = some url ∧
        p.Allowed svc ep url t) ∧ ¬p.Blacklisted now svc ep)
      (p.collect now svc true t lookup skip order).1 ∧
    IsPool session (fun ep => (∃ url, candidateURL t lookup skip ep = some url ∧
        p.Allowed svc ep url t) ∧ p.Blacklisted now svc ep)
      (p.collect now svc true t lookup skip order).2 := by
  have h := @mem_collect P p now svc t lookup skip order
  constructor
  all_goals
    intro addr
    first | rw [(h addr).1] | rw [(h addr).2]
    simp only [hit.mem_iff]
    constructor
    · rintro ⟨ep,url,hep,hc,ha,hb⟩
      exact ⟨ep,hep,⟨url,hc,ha⟩,hb⟩
    · rintro ⟨ep,hep,⟨url,hc,ha⟩,hb⟩
      exact ⟨ep,url,hep,hc,ha,hb⟩

theorem OfferSound.of_clean {pool : List EndpointAddr}
    (hp : IsPool session (fun ep => Q ep ∧ ¬p.Blacklisted now svc ep) pool)
    (hne : pool ≠ [])
    (he : ∀ addr ep, session.get addr = some ep → Q ep → p.Eligible svc ep t) :
    p.OfferSound now svc session t pool := by
  refine ⟨?_,?_,fun _ => hne⟩
  · intro addr hm
    obtain ⟨ep,hep,hq,-⟩ := (hp addr).mp hm
    exact ⟨ep,hep,he addr ep hep hq⟩
  · intro addr hm ep hep hbl
    obtain ⟨ep',he',-,hnb⟩ := (hp addr).mp hm
    rw [hep] at he'
    cases he'
    exact absurd hbl hnb

theorem offerSound_iff_of_pools {R₁ B₁ R₂ res : List EndpointAddr}
    {Q₁ Q₂ : Endpoint → Prop}
    (hR₁ : IsPool session (fun ep => Q₁ ep ∧ ¬p.Blacklisted now svc ep) R₁)
    (hB₁ : IsPool session (fun ep => Q₁ ep ∧ p.Blacklisted now svc ep) B₁)
    (hR₂ : IsPool session (fun ep => Q₂ ep ∧ ¬p.Blacklisted now svc ep) R₂)
    (hel : ∀ addr ep, session.get addr = some ep → (p.Eligible svc ep t ↔ Q₁ ep ∨ Q₂ ep))
    (hr : (R₁ ≠ [] ∧ res = R₁) ∨ (R₂ ≠ [] ∧ res = R₂) ∨ (R₁ = [] ∧ R₂ = [] ∧ res = B₁)) :
    p.OfferSound now svc session t res ↔
      ¬((∃ addr ep, session.get addr = some ep ∧ p.Eligible svc ep t) ∧
        ∀ addr ep, session.get addr = some ep → p.Eligible svc ep t →
          p.Blacklisted now svc ep ∧ ¬Q₁ ep) := by
  constructor
  · rintro hs ⟨hex,ha⟩
    have h₁ : R₁ = [] := hR₁.eq_nil fun addr ep hep hq =>
      hq.2 (ha addr ep hep ((hel addr ep hep).mpr (.inl hq.1))).1
    have h₂ : R₂ = [] := hR₂.eq_nil fun addr ep hep hq =>
      hq.2 (ha addr ep hep ((hel addr ep hep).mpr (.inr hq.1))).1
    have h₃ : B₁ = [] := hB₁.eq_nil fun addr ep hep hq =>
      (ha addr ep hep ((hel addr ep hep).mpr (.inl hq.1))).2 hq.1
    refine hs.nonempty hex ?_
    rcases hr with ⟨hne,-⟩ | ⟨hne,-⟩ | ⟨-,-,rfl⟩
    · exact absurd h₁ hne
    · exact absurd h₂ hne
    · exact h₃
  · intro hn
    rcases hr with ⟨hne,rfl⟩ | ⟨hne,rfl⟩ | ⟨rfl,rfl,rfl⟩
    · exact .of_clean hR₁ hne fun addr ep hep hq => (hel addr ep hep).mpr (.inl hq)
    · exact .of_clean hR₂ hne fun addr ep hep hq => (hel addr ep hep).mpr (.inr hq)
    · have hbl : ∀ addr ep, session.get addr = some ep → p.Eligible svc ep t →
          p.Blacklisted now svc ep := by
        intro addr ep hep he
        by_contra hnb
        rcases (hel addr ep hep).mp he with hq | hq
        · exact hR₁.not_of_nil hep ⟨hq,hnb⟩
        · exact hR₂.not_of_nil hep ⟨hq,hnb⟩
      refine ⟨?_,fun _ _ _ _ _ => hbl,?_⟩
      · intro addr hm
        obtain ⟨ep,hep,hq,-⟩ := (hB₁ addr).mp hm
        exact ⟨ep,hep,(hel addr ep hep).mpr (.inl hq)⟩
      · rintro hex rfl
        refine hn ⟨hex,fun addr ep hep he => ⟨hbl addr ep hep he,fun hq => ?_⟩⟩
        exact hB₁.not_of_nil hep ⟨hq,hbl addr ep hep he⟩

variable (p now svc) in
def OfferCondition (session : Session) (t : RPCType) : Prop :=
  if t = .unknown then
    ∀ addr ep, session.get addr = some ep → ¬p.Allowed svc ep ep.publicURL t
  else
    ¬((∃ addr ep, session.get addr = some ep ∧ (ep.getURL t).isSome) ∧
      (∃ addr ep, session.get addr = some ep ∧ p.Eligible svc ep t) ∧
      ∀ addr ep, session.get addr = some ep → p.Eligible svc ep t →
        p.Blacklisted now svc ep ∧ ep.getURL t = none)

variable {session : Session} {order order' : List (EndpointAddr × Endpoint)}

theorem anyStakes_iff (hit : session.Iterates order) (t : RPCType) :
    anyStakes order t = true ↔
      ∃ addr ep, session.get addr = some ep ∧ (ep.getURL t).isSome := by
  simp [anyStakes,Prod.exists,hit.mem_iff]

theorem endpointURL_unknown (ep : Endpoint) : p.endpointURL svc ep .unknown = none := by
  have hr : p.resolve svc .unknown = none := by
    unfold resolve
    cases hm : p.rpcFallbacks.get svc with
    | none => rfl
    | some m => exact p.validated svc m hm
  simp [endpointURL,ep.getURL_unknown,hr]

theorem offer_unknown_sound_iff (hit : session.Iterates order) :
    p.OfferSound now svc session .unknown (p.offer now svc true true order order' .unknown) ↔
      p.OfferCondition now svc session .unknown := by
  have hp := @collect_isPool P p now svc session order hit .unknown .unknown false
  have hn : ∀ ep, ¬p.Eligible svc ep .unknown := by
    rintro ep ⟨url,hu,-⟩
    simp [endpointURL_unknown] at hu
  have ho : p.offer now svc true true order order' .unknown =
      if (p.collect now svc true .unknown .unknown false order).1 = [] then
        (p.collect now svc true .unknown .unknown false order).2
      else (p.collect now svc true .unknown .unknown false order).1 := by
    simp [offer,secondPass,requestedFallback,lookupType]
  rw [ho]
  constructor
  · intro hs addr ep hep hal
    have hq : ∃ url, candidateURL .unknown .unknown false ep = some url ∧
        p.Allowed svc ep url .unknown := ⟨ep.publicURL,by simp [candidateURL],hal⟩
    have hem : ∀ a, a ∉ (if (p.collect now svc true .unknown .unknown false order).1 = [] then
        (p.collect now svc true .unknown .unknown false order).2
        else (p.collect now svc true .unknown .unknown false order).1) := by
      intro a ha
      obtain ⟨ep',-,he⟩ := hs.dialable a ha
      exact hn ep' he
    split_ifs at hem with hni
    · by_cases hb : p.Blacklisted now svc ep
      · exact hem addr ((hp.2 addr).mpr ⟨ep,hep,hq,hb⟩)
      · exact (hni ▸ hp.1).not_of_nil hep ⟨hq,hb⟩
    · obtain ⟨a,ha⟩ := List.exists_mem_of_ne_nil _ hni
      exact hem a ha
  · intro hc
    have hno : ∀ addr ep, session.get addr = some ep →
        ¬∃ url, candidateURL .unknown .unknown false ep = some url ∧
          p.Allowed svc ep url .unknown := by
      rintro addr ep hep ⟨url,hu,ha⟩
      simp [candidateURL,Option.some.injEq] at hu
      exact hc addr ep hep (hu ▸ ha)
    have h₁ := hp.1.eq_nil fun addr ep hep hq => hno addr ep hep hq.1
    have h₂ := hp.2.eq_nil fun addr ep hep hq => hno addr ep hep hq.1
    rw [h₁,h₂]
    refine ⟨by simp,by simp,?_⟩
    rintro ⟨addr,ep,-,he⟩
    exact absurd he (hn ep)

theorem offerSound_of_one_pass {lookup : RPCType} {pass : List EndpointAddr × List EndpointAddr}
    (hp : pass = p.collect now svc true t lookup false order) (hit : session.Iterates order)
    (hu : ∀ addr ep, session.get addr = some ep →
      candidateURL t lookup false ep = p.endpointURL svc ep t) :
    p.OfferSound now svc session t (if pass.1 = [] then pass.2 else pass.1) := by
  obtain ⟨hR,hB⟩ := @collect_isPool P p now svc session order hit t lookup false
  rw [← hp] at hR hB
  have hel : ∀ addr ep, session.get addr = some ep → (p.Eligible svc ep t ↔
      (∃ url, candidateURL t lookup false ep = some url ∧ p.Allowed svc ep url t) ∨ False) := by
    intro addr ep hep
    rw [or_false,hu addr ep hep]
    rfl
  have hn : IsPool session (fun ep => False ∧ ¬p.Blacklisted now svc ep) [] := by
    intro addr
    simp
  refine (offerSound_iff_of_pools hR hB hn hel ?_).mpr ?_
  · split_ifs with hni
    · exact .inr (.inr ⟨hni,rfl,rfl⟩)
    · exact .inl ⟨hni,rfl⟩
  · rintro ⟨⟨addr,ep,hep,he⟩,ha⟩
    exact (ha addr ep hep he).2 (((hel addr ep hep).mp he).resolve_right id)

theorem offerSound_iff_of_two_passes {fallback : RPCType} (ht : t ≠ .unknown)
    (hf : p.resolve svc t = some fallback) (hst : anyStakes order t = true)
    (hit : session.Iterates order) (hi' : session.Iterates order') :
    p.OfferSound now svc session t (p.offer now svc true true order order' t) ↔
      ¬((∃ addr ep, session.get addr = some ep ∧ p.Eligible svc ep t) ∧
        ∀ addr ep, session.get addr = some ep → p.Eligible svc ep t →
          p.Blacklisted now svc ep ∧ ep.getURL t = none) := by
  obtain ⟨hR₁,hB₁⟩ := @collect_isPool P p now svc session order hit t t false
  obtain ⟨hR₂,-⟩ := @collect_isPool P p now svc session order' hi' t fallback true
  have hfi : ∀ ep, candidateURL t t false ep = ep.getURL t := by
    simp [candidateURL,ht]
  have hse : ∀ ep, candidateURL t fallback true ep =
      if (ep.getURL t).isSome then none else ep.getURL fallback := by
    simp [candidateURL,ht]
  have hel : ∀ addr ep, session.get addr = some ep → (p.Eligible svc ep t ↔
      (∃ url, candidateURL t t false ep = some url ∧ p.Allowed svc ep url t) ∨
      ∃ url, candidateURL t fallback true ep = some url ∧ p.Allowed svc ep url t) := by
    intro addr ep _
    rw [hfi,hse,Eligible,endpointURL,hf]
    cases ep.getURL t <;> simp
  have hfa : p.requestedFallback svc t = some fallback := by simp [requestedFallback,ht,hf]
  have hl : p.lookupType svc order t = t := by simp [lookupType,hfa,hst]
  rw [offerSound_iff_of_pools hR₁ hB₁ hR₂ hel ?_]
  · refine not_congr (and_congr_right fun _ => ?_)
    refine forall_congr' fun addr => forall_congr' fun ep => forall_congr' fun hep =>
      forall_congr' fun he => and_congr_right fun _ => ?_
    rw [hfi]
    rcases (hel addr ep hep).mp he with ⟨url,hur,ha⟩ | ⟨url,hur,ha⟩
    · rw [hfi] at hur
      simp [hur,ha]
    · rw [hse] at hur
      split_ifs at hur with hs
      simp [Option.not_isSome_iff_eq_none.mp hs]
  · simp [offer,secondPass,hfa,hl]
    by_cases hu : p.unusable svc t (p.collect now svc true t t false order).1 true = true
    · by_cases h₂ : (p.collect now svc true t fallback true order').1 = []
      · by_cases h₁ : (p.collect now svc true t t false order).1 = [] <;> simp [hu,h₁,h₂]
      · simp [hu,h₂]
    · have h₁ : (p.collect now svc true t t false order).1 ≠ [] := by
        intro hn
        simp [unusable,hn] at hu
      simp [hu,h₁]

theorem endpointURL_of_no_fallback (hf : p.resolve svc t = none) (ep : Endpoint) :
    p.endpointURL svc ep t = ep.getURL t := by
  cases hg : ep.getURL t <;> simp [endpointURL,hg,hf]

theorem offerSound_of_no_fallback (ht : t ≠ .unknown) (hf : p.resolve svc t = none)
    (hit : session.Iterates order) :
    p.OfferSound now svc session t (p.offer now svc true true order order' t) := by
  have hfa : p.requestedFallback svc t = none := by simp [requestedFallback,hf]
  have hl : p.lookupType svc order t = t := by simp [lookupType,hfa]
  simp [offer,secondPass,hfa,hl]
  refine offerSound_of_one_pass rfl hit fun addr ep _ => ?_
  simp [candidateURL,ht,endpointURL_of_no_fallback hf]

theorem getURL_of_no_staker (hst : anyStakes order t = false)
    (hit : session.Iterates order) {addr : EndpointAddr}
    (hep : session.get addr = some ep) : ep.getURL t = none := by
  by_contra hs
  have ha := (anyStakes_iff hit t).mpr ⟨addr,ep,hep,Option.isSome_iff_ne_none.mpr hs⟩
  simp [hst] at ha

theorem offerSound_of_no_staker {fallback : RPCType} (ht : t ≠ .unknown)
    (hf : p.resolve svc t = some fallback) (hs : anyStakes order t = false)
    (hit : session.Iterates order) (hi' : session.Iterates order') :
    p.OfferSound now svc session t (p.offer now svc true true order order' t) := by
  have hfa : p.requestedFallback svc t = some fallback := by simp [requestedFallback,ht,hf]
  have hl : p.lookupType svc order t = fallback := by simp [lookupType,hfa,hs]
  have hfb : fallback = t → (p.collect now svc true t fallback true order').1 = [] := by
    rintro rfl
    obtain ⟨hR₂,-⟩ := @collect_isPool P p now svc session order' hi' fallback fallback true
    refine hR₂.eq_nil ?_
    rintro addr ep hep ⟨⟨url,hu,-⟩,-⟩
    simp [candidateURL,ht,getURL_of_no_staker hs hit hep] at hu
  have hse : p.secondPass now svc true true order order' t
      (p.collect now svc true t fallback false order) =
        p.collect now svc true t fallback false order := by
    simp only [secondPass,hfa,hl,true_and]
    split_ifs with h hn
    · rfl
    · exact absurd (hfb h.1) hn
    · rfl
  simp [offer,hl,hse]
  refine offerSound_of_one_pass rfl hit fun addr ep hep => ?_
  simp [candidateURL,ht,endpointURL,getURL_of_no_staker hs hit hep,hf]

theorem offer_sound_iff (ht : t ≠ .unknown) (hit : session.Iterates order)
    (hi' : session.Iterates order') :
    p.OfferSound now svc session t (p.offer now svc true true order order' t) ↔
      p.OfferCondition now svc session t := by
  rw [OfferCondition,if_neg ht,← anyStakes_iff hit]
  cases hf : p.resolve svc t with
  | none =>
    refine iff_of_true (offerSound_of_no_fallback ht hf hit) ?_
    rintro ⟨-,⟨addr,ep,hep,he⟩,ha⟩
    have hn := (ha addr ep hep he).2
    obtain ⟨url,hu,-⟩ := he
    simp [endpointURL_of_no_fallback hf,hn] at hu
  | some fallback =>
    cases hs : anyStakes order t with
    | true =>
      rw [offerSound_iff_of_two_passes ht hf hs hit hi']
      simp
    | false => exact iff_of_true (offerSound_of_no_staker ht hf hs hit hi') (by simp)

theorem availableEndpoints_sound_iff (p : Protocol P) (now : Int) (svc : ServiceID)
    (session : Session) (iter iter' : Session → List (EndpointAddr × Endpoint))
    (hit : session.Iterates (iter session)) (hit' : session.Iterates (iter' session))
    (t : RPCType) :
    ∃ res, p.availableEndpoints now svc (.ok session) iter iter' t = .ok res ∧
      (p.OfferSound now svc session t res ↔ p.OfferCondition now svc session t) := by
  refine ⟨_,rfl,?_⟩
  by_cases ht : t = .unknown
  · subst ht
    exact offer_unknown_sound_iff hit
  · exact offer_sound_iff ht hit hit'

def cometStaker : Endpoint where
  supplierAddr := "pokt1a".toList
  ownerAddr := []
  urls := (∅ : GoMap RPCType GoString).put .cometBFT "https://a.example".toList
  sessionEnd := none
  known := by decide

def jsonStaker : Endpoint where
  supplierAddr := "pokt1b".toList
  ownerAddr := []
  urls := (∅ : GoMap RPCType GoString).put .jsonRPC "https://b.example".toList
  sessionEnd := none
  known := by decide

def benchedFallback : Protocol asciiPlatform where
  rpcFallbacks := (∅ : GoMap ServiceID (GoMap RPCType RPCType)).put "cosmos".toList
    ((∅ : GoMap RPCType RPCType).put .cometBFT .jsonRPC)
  blockedDomains := none
  drains := none
  blockedSuppliers := (∅ : GoMap ServiceID (GoMap GoString Unit)).put "cosmos".toList
    ((∅ : GoMap GoString Unit).put "pokt1a".toList ())
  endpointPolicy := ⟨true,true⟩
  overServed := some ∅
  bl := ⟨(∅ : GoMap (ServiceID × GoString) Int).put ("cosmos".toList,"pokt1b".toList) 900⟩
  ruledOut := none
  validated := by
    intro svc m h
    rw [GoMap.get_put] at h
    split_ifs at h
    · cases h
      decide
    · cases h

def twoStakers : Session :=
  ((∅ : Session).put cometStaker.addr cometStaker).put jsonStaker.addr jsonStaker

theorem benched_fallback_pool_is_dropped :
    benchedFallback.availableEndpoints 0 "cosmos".toList (.ok twoStakers) GoMap.toList
      GoMap.toList .cometBFT = .ok [] ∧
    twoStakers.get jsonStaker.addr = some jsonStaker ∧
    benchedFallback.Eligible "cosmos".toList jsonStaker .cometBFT :=
  ⟨by decide,rfl,"https://b.example".toList,by decide,by decide⟩

theorem json_pool_is_sound :
    ∃ res, benchedFallback.availableEndpoints 0 "cosmos".toList (.ok twoStakers) GoMap.toList
        GoMap.toList .jsonRPC = .ok res ∧
      benchedFallback.OfferSound 0 "cosmos".toList twoStakers .jsonRPC res := by
  obtain ⟨res,hr,hif⟩ := availableEndpoints_sound_iff benchedFallback 0 "cosmos".toList
    twoStakers GoMap.toList GoMap.toList (GoMap.iterates_toList _) (GoMap.iterates_toList _)
    .jsonRPC
  refine ⟨res,hr,hif.mpr ?_⟩
  rintro ⟨-,-,ha⟩
  have hb := (ha jsonStaker.addr jsonStaker rfl ⟨"https://b.example".toList,by decide,by decide⟩).2
  exact absurd hb (by decide)

end SageGateway.Protocol
