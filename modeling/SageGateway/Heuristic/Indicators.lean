import SageGateway.Lib.Json
import SageGateway.Relay.Context

namespace SageGateway.Heuristic

open List

open Json (Bytes ascii)

inductive Severity where
  | none
  | minor
  | major
  | critical
  | fatal
  deriving DecidableEq

structure AnalysisResult where
  shouldRetry : Bool := false
  shouldCircuitBreak : Bool := false
  shouldPenalize : Bool := false
  penaltySeverity : Severity := .none
  attribution : ErrorAttribution := .unknown
  -- in hundredths
  confidence : Nat := 0
  reason : Bytes
  details : Bytes
  methodBlocking : Bool := false
  deriving DecidableEq

def foldByte (c : UInt8) : UInt8 := if 65 ≤ c ∧ c ≤ 90 then c + 32 else c

def matchFoldAt (haystack : Bytes) (start : Nat) (needle : Bytes) : Bool :=
  needle.isPrefixOf ((haystack.drop start).map foldByte)

def containsFold (haystack needle : Bytes) : Bool :=
  (List.range (haystack.length + 1)).any fun i => matchFoldAt haystack i needle

theorem containsFold_iff {haystack needle : Bytes} :
    containsFold haystack needle = true ↔ needle <:+: haystack.map foldByte := by
  simp [containsFold,matchFoldAt]
  constructor
  · rintro ⟨i,-,hp⟩
    exact hp.isInfix.trans (drop_suffix i _).isInfix
  · rintro ⟨s,t,h⟩
    have hl := congrArg length h
    simp at hl
    exact ⟨s.length,by omega,t,by rw [← h,append_assoc,drop_left]⟩

theorem containsFold_mono {haystack p w : Bytes} (hp : p <:+: w)
    (h : containsFold haystack w = true) : containsFold haystack p = true :=
  containsFold_iff.mpr (hp.trans (containsFold_iff.mp h))

structure Indicator where
  pattern : Bytes
  attribution : ErrorAttribution
  severity : Severity
  reason : Bytes
  methodBlocking : Bool := false
  deriving DecidableEq

def chainState (pattern reason : String) : Indicator :=
  ⟨ascii pattern,.blockchain,.none,ascii reason,false⟩

def unservedMethod (pattern reason : String) : Indicator :=
  ⟨ascii pattern,.blockchain,.none,ascii reason,true⟩

def infrastructure (pattern : String) (severity : Severity) (reason : String) : Indicator :=
  ⟨ascii pattern,.supplier,severity,ascii reason,false⟩

def indicators : List Indicator := [
  chainState "missing trie node" "missing_trie_node",
  chainState "node is unhealthy" "node_unhealthy",
  chainState "block not found" "block_not_found",
  chainState "header not found" "header_not_found",
  chainState "state not available" "state_not_available",
  chainState "pruned state" "pruned_state",
  chainState "metadata is not found" "pbss_pruned_state",
  chainState "historical state" "historical_state",
  chainState "state has been pruned" "state_pruned",
  chainState "block has been pruned" "block_pruned",
  chainState "has been pruned" "pruned",
  chainState "is pruned" "pruned",
  chainState "no state available for block" "state_not_available",
  chainState "no state found for block" "state_not_available",
  chainState "height is not available" "height_not_available",
  chainState "lowest height is" "height_not_available",
  chainState "haven't been fully indexed" "not_indexed",
  chainState "not been fully indexed" "not_indexed",
  unservedMethod "lite fullnode" "lite_fullnode",
  unservedMethod "api is not supported" "api_not_supported",
  unservedMethod "indexing is disabled" "indexing_disabled",
  chainState "excluded from account secondary indexes" "account_index_excluded",
  infrastructure "connection refused" .critical "connection_refused",
  infrastructure "connection reset" .critical "connection_reset",
  infrastructure "timeout" .major "timeout",
  infrastructure "bad gateway" .critical "bad_gateway",
  infrastructure "service unavailable" .critical "service_unavailable",
  infrastructure "gateway timeout" .critical "gateway_timeout",
  infrastructure "502 bad gateway" .critical "bad_gateway_502",
  infrastructure "503 service unavailable" .critical "service_unavailable_503",
  infrastructure "504 gateway timeout" .critical "gateway_timeout_504"]

def capabilityLimitationPatterns : List Bytes := [
  "missing trie node","metadata is not found","state not available","historical state",
  "has been pruned","no state available for block","no state found for block","is pruned",
  "pruned history","old data not available","height is not available",
  "haven't been fully indexed","not been fully indexed","lite fullnode",
  "api is not supported"].map ascii

def Indicator.result (ind : Indicator) : AnalysisResult where
  shouldRetry := true
  shouldCircuitBreak := ind.severity = .critical || ind.severity = .fatal
  shouldPenalize := ind.attribution = .supplier
  penaltySeverity := ind.severity
  attribution := ind.attribution
  confidence := 60
  reason := ind.reason
  details := ascii "indicator match: " ++ ind.pattern
  methodBlocking := ind.methodBlocking

-- gjson's reading of a body: whether it is valid JSON, and its top-level string values
structure Gjson where
  validBytes : Bytes → Bool
  topLevelStrings : Bytes → List Bytes

variable (gjson : Gjson) (documentIsAnswer : Bool) (body : Bytes)

def searchArea : Bytes := body.take 2048

def inTopLevelString (pattern : Bytes) : Bool :=
  (gjson.topLevelStrings body).any fun v => containsFold v pattern

def Indicator.matched (ind : Indicator) : Bool :=
  containsFold (searchArea body) ind.pattern &&
    !(documentIsAnswer && gjson.validBytes body && decide (ind.attribution = .supplier) &&
      !inTopLevelString gjson body ind.pattern)

def matchIndicator : Option AnalysisResult :=
  if body = [] then none
  else (indicators.find? (Indicator.matched gjson documentIsAnswer body)).map Indicator.result

theorem find?_pairwise {α : Type} {r : α → α → Prop} {p : α → Bool} {l : List α} {m e : α}
    (hr : l.Pairwise r) (hm : l.find? p = some m) (he : e ∈ l) (hpe : p e = true) :
    e = m ∨ r m e := by
  obtain ⟨-,as,bs,rfl,has⟩ := find?_eq_some_iff_append.mp hm
  rcases mem_append.mp he with he | he
  · exact absurd hpe (by simpa using has e he)
  · rcases mem_cons.mp he with rfl | he
    · exact .inl rfl
    · exact .inr ((pairwise_cons.mp (pairwise_append.mp hr).2.1).1 e he)

def uncatalogued : List Bytes := [ascii "pruned history",ascii "old data not available"]

-- An entry's wording that never gives the verdict, and the wording inside it that comes first.
def shadows : List (Bytes × Bytes) :=
  [("gateway timeout","timeout"),("502 bad gateway","bad gateway"),
    ("503 service unavailable","service unavailable"),("504 gateway timeout","timeout")].map
      fun p => (ascii p.1,ascii p.2)

theorem indicators_chain_first :
    indicators.Pairwise fun m e => e.attribution = .blockchain → m.attribution = .blockchain := by
  decide +kernel

theorem indicators_specific_first :
    indicators.Pairwise fun m e => m.pattern <:+: e.pattern → ∃ p ∈ shadows, p.1 = e.pattern ∧
      m ∉ indicators.takeWhile fun i => i.pattern ≠ p.2 := by
  decide +kernel

theorem indicators_shadow_first : indicators.Pairwise fun m e => ∀ p ∈ shadows,
    e.pattern = p.2 → m ∈ indicators.takeWhile fun i => i.pattern ≠ p.2 := by
  decide +kernel

theorem shadows_entry : ∀ p ∈ shadows, p.2 <:+: p.1 ∧ p.1 ≠ p.2 ∧
    (∃ s ∈ indicators, s.pattern = p.2 ∧ s.attribution = .supplier) ∧
    ∀ e ∈ indicators, e.pattern = p.1 → e.attribution = .supplier := by
  decide +kernel

theorem uncatalogued_absent : ∀ w ∈ uncatalogued, w ∈ capabilityLimitationPatterns ∧
    ∀ ind ∈ indicators, containsFold (searchArea w) ind.pattern = false := by
  decide +kernel

theorem capability_indicator : ∀ w ∈ capabilityLimitationPatterns, w ∉ uncatalogued →
    ∃ ind ∈ indicators, ind.attribution = .blockchain ∧ ind.pattern <:+: w := by
  decide +kernel

variable {gjson : Gjson} {documentIsAnswer : Bool} {body : Bytes}

theorem Indicator.body_ne_nil {ind : Indicator} (hm : ind ∈ indicators)
    (h : ind.matched gjson documentIsAnswer body = true) : body ≠ [] := by
  rintro rfl
  have he : ∀ e ∈ indicators, containsFold [] e.pattern = false := by decide +kernel
  have hin := (Bool.and_eq_true_iff.mp h).1
  rw [show searchArea [] = [] from rfl,he ind hm] at hin
  cases hin

theorem matchIndicator_first {ind : Indicator} (hme : ind ∈ indicators)
    (h : ind.matched gjson documentIsAnswer body = true) :
    ∃ m, indicators.find? (Indicator.matched gjson documentIsAnswer body) = some m ∧
      matchIndicator gjson documentIsAnswer body = some m.result := by
  obtain ⟨m,hm⟩ := Option.isSome_iff_exists.mp (find?_isSome.mpr ⟨ind,hme,h⟩)
  refine ⟨m,hm,?_⟩
  rw [matchIndicator,if_neg (Indicator.body_ne_nil hme h),hm]
  rfl

theorem Indicator.matched_of_chain {ind : Indicator} (hc : ind.attribution = .blockchain)
    (h : containsFold (searchArea body) ind.pattern = true) :
    ind.matched gjson documentIsAnswer body = true := by
  simp [Indicator.matched,h,hc]

theorem Indicator.matched_of_infix {s e : Indicator} (hs : s.attribution = .supplier)
    (he : e.attribution = .supplier) (hin : s.pattern <:+: e.pattern)
    (h : e.matched gjson documentIsAnswer body = true) :
    s.matched gjson documentIsAnswer body = true := by
  have hc : ∀ v, containsFold v e.pattern = true → containsFold v s.pattern = true :=
    fun v => containsFold_mono hin
  have ht : inTopLevelString gjson body e.pattern = true →
      inTopLevelString gjson body s.pattern = true := by
    simp only [inTopLevelString,any_eq_true]
    rintro ⟨v,hv,hm⟩
    exact ⟨v,hv,hc v hm⟩
  simp only [matched,hs,he,Bool.and_eq_true,Bool.not_eq_true',Bool.and_eq_false_iff] at h ⊢
  refine ⟨hc _ h.1,h.2.imp_right fun hn => ?_⟩
  simpa using ht (by simpa using hn)

def ChainWording (body : Bytes) : Prop :=
  ∃ ind ∈ indicators, ind.attribution = .blockchain ∧
    containsFold (searchArea body) ind.pattern = true

theorem chainWording_of_capability {w : Bytes} (hw : w ∈ capabilityLimitationPatterns)
    (hu : w ∉ uncatalogued) (h : containsFold (searchArea body) w = true) : ChainWording body := by
  obtain ⟨ind,hme,hc,hin⟩ := capability_indicator w hw hu
  exact ⟨ind,hme,hc,containsFold_mono hin h⟩

theorem blockchain_verdict_iff : (∃ r, matchIndicator gjson documentIsAnswer body = some r ∧
    r.attribution = .blockchain) ↔ ChainWording body := by
  constructor
  · rintro ⟨r,hr,hc⟩
    rw [matchIndicator] at hr
    split_ifs at hr
    obtain ⟨m,hm,rfl⟩ := Option.map_eq_some_iff.mp hr
    have hma : m.matched gjson documentIsAnswer body = true := find?_some hm
    exact ⟨m,mem_of_find?_eq_some hm,hc,(Bool.and_eq_true_iff.mp hma).1⟩
  · rintro ⟨ind,hme,hc,h⟩
    have hma : ind.matched gjson documentIsAnswer body = true := ind.matched_of_chain hc h
    obtain ⟨m,hm,hv⟩ := matchIndicator_first hme hma
    refine ⟨m.result,hv,?_⟩
    rcases find?_pairwise indicators_chain_first hm hme hma with rfl | hf
    · exact hc
    · exact hf hc

def MostSpecific (gjson : Gjson) (documentIsAnswer : Bool) (body : Bytes) (m : Indicator) : Prop :=
  ∀ e ∈ indicators, e.matched gjson documentIsAnswer body = true →
    m.pattern <:+: e.pattern → e = m

def Preceded (gjson : Gjson) (documentIsAnswer : Bool) (body : Bytes) : Prop :=
  ∀ e ∈ indicators, e.matched gjson documentIsAnswer body = true → ∀ s, (e.pattern,s) ∈ shadows →
    ∃ i ∈ indicators.takeWhile fun i => i.pattern ≠ s,
      i.matched gjson documentIsAnswer body = true

theorem mostSpecific_iff {m : Indicator}
    (hm : indicators.find? (Indicator.matched gjson documentIsAnswer body) = some m) :
    MostSpecific gjson documentIsAnswer body m ↔ Preceded gjson documentIsAnswer body := by
  constructor
  · intro h e he hme s hs
    obtain ⟨hin,hne,⟨se,hse,rfl,ha⟩,hsup⟩ := shadows_entry _ hs
    have hma := se.matched_of_infix ha (hsup e he rfl) hin hme
    rcases find?_pairwise indicators_shadow_first hm hse hma with rfl | hf
    · exact absurd (congrArg Indicator.pattern (h e he hme hin)) hne
    · exact ⟨m,hf _ hs rfl,find?_some hm⟩
  · intro h e he hme hin
    refine (find?_pairwise indicators_specific_first hm he hme).resolve_right fun hf => ?_
    obtain ⟨p,hp,hpe,hout⟩ := hf hin
    obtain ⟨i,hi,hma⟩ := h e he hme p.2 (hpe ▸ hp)
    obtain ⟨x,hx⟩ := Option.isSome_iff_exists.mp (find?_isSome.mpr ⟨i,hi,hma⟩)
    have hxm := (( takeWhile_prefix _).find?_eq_some hx).symm.trans hm
    cases hxm
    exact hout (mem_of_find?_eq_some hx)

theorem uncatalogued_unmatched (gjson : Gjson) (documentIsAnswer : Bool) : ∀ w ∈ uncatalogued,
    w ∈ capabilityLimitationPatterns ∧ matchIndicator gjson documentIsAnswer w = none := by
  intro w hw
  obtain ⟨hc,hn⟩ := uncatalogued_absent w hw
  refine ⟨hc,?_⟩
  have hf : indicators.find? (Indicator.matched gjson documentIsAnswer w) = none :=
    find?_eq_none.mpr fun ind hi => by simp [Indicator.matched,hn ind hi]
  rw [matchIndicator,hf]
  split_ifs <;> rfl

theorem catalogues_agree (gjson : Gjson) (documentIsAnswer : Bool) (body : Bytes) :
    ((∃ r, matchIndicator gjson documentIsAnswer body = some r ∧ r.attribution = .blockchain) ↔
      ChainWording body) ∧
    (∀ w ∈ capabilityLimitationPatterns, w ∉ uncatalogued →
      containsFold (searchArea body) w = true → ChainWording body) ∧
    (∀ w ∈ uncatalogued, w ∈ capabilityLimitationPatterns ∧
      matchIndicator gjson documentIsAnswer w = none) ∧
    ∀ ind ∈ indicators, ind.matched gjson documentIsAnswer body = true →
      ∃ m ∈ indicators, m.matched gjson documentIsAnswer body = true ∧
        matchIndicator gjson documentIsAnswer body = some m.result ∧
        (MostSpecific gjson documentIsAnswer body m ↔ Preceded gjson documentIsAnswer body) := by
  refine ⟨blockchain_verdict_iff,fun w => chainWording_of_capability,uncatalogued_unmatched _ _,?_⟩
  intro ind hme h
  obtain ⟨m,hm,hv⟩ := matchIndicator_first hme h
  exact ⟨m,mem_of_find?_eq_some hm,find?_some hm,hv,mostSpecific_iff hm⟩

def noDocument : Gjson := ⟨fun _ => false,fun _ => []⟩

theorem pruned_state_with_bad_gateway :
    ∃ r, matchIndicator noDocument false (ascii "502: State has been PRUNED, bad gateway") =
      some r ∧ r.attribution = .blockchain :=
  have h := catalogues_agree noDocument false (ascii "502: State has been PRUNED, bad gateway")
  h.1.mpr (h.2.1 (ascii "has been pruned") (by decide +kernel) (by decide +kernel)
    (by decide +kernel))

theorem pruned_history_and_gateway_timeout :
    ascii "pruned history" ∈ capabilityLimitationPatterns ∧
    matchIndicator noDocument false (ascii "pruned history unavailable") = none ∧
    infrastructure "gateway timeout" .critical "gateway_timeout" ∈ indicators ∧
    matchIndicator noDocument false (ascii "gateway timeout") =
      some (infrastructure "timeout" .major "timeout").result := by
  decide +kernel

end SageGateway.Heuristic
