import SageGateway.Relay.Context

namespace SageGateway

def attemptHedge : GoString := "hedge".toList

def errHedgeRuledOut : GoError :=
  ⟨.text "hedge: every endpoint left for it is ruled out".toList,[]⟩

def errNoEndpoint : GoError :=
  .newRelayError .protocol "no endpoint available for service".toList none false

def prioritize (list : List EndpointAddr) (preferred : EndpointAddr) : List EndpointAddr :=
  if preferred ∈ list then preferred :: list.erase preferred else list

theorem mem_prioritize {list : List EndpointAddr} {preferred ep : EndpointAddr} :
    ep ∈ prioritize list preferred ↔ ep ∈ list := by
  unfold prioritize
  split
  · next h => exact (List.perm_cons_erase h).mem_iff.symm
  · exact Iff.rfl

def fillFrom (provider : Option (Except GoError (List EndpointAddr))) (eps : List EndpointAddr) :
    List EndpointAddr :=
  match eps,provider with
  | [],some (.ok fetched) => fetched
  | _,_ => eps

theorem fillFrom_of_ne {provider : Option (Except GoError (List EndpointAddr))}
    {eps : List EndpointAddr} (h : eps ≠ []) : fillFrom provider eps = eps := by
  unfold fillFrom
  split
  · exact absurd rfl h
  · rfl

structure SelectView where
  affinity : Option EndpointAddr
  provider : Option (Except GoError (List EndpointAddr))
  broken : Option (EndpointAddr → Bool)
  blocked : Option (EndpointAddr → Bool)
  vouched : Option (EndpointAddr → Bool)
  plugin : Option (List EndpointAddr → Except GoError (List EndpointAddr))
  ruledOut : Option (EndpointAddr → Bool)
  selectBest : List EndpointAddr → EndpointAddr
  plugin_subset : ∀ filter ∈ plugin, ∀ l kept, filter l = .ok kept → kept ⊆ l
  best_mem : ∀ l, l ≠ [] → selectBest l ∈ l

namespace SelectView

variable (v : SelectView)

def anyVouched (eps : List EndpointAddr) : Bool :=
  match v.vouched with
  | none => true
  | some vouched => eps.any vouched

def keepsVouchedCapacity (narrowed full : List EndpointAddr) : Bool :=
  match v.vouched with
  | none => true
  | some vouched =>
      let known := full.countP vouched
      decide (min known (max 2 ((known + 1) / 2)) ≤ narrowed.countP vouched)

def allRuledOut (eps : List EndpointAddr) : Bool :=
  match v.ruledOut with
  | none => false
  | some ruledOut => eps.all ruledOut

def supplierAffinity (eps : List EndpointAddr) : List EndpointAddr :=
  match v.affinity with
  | none => eps
  | some preferred => prioritize eps preferred

def fillEndpoints (eps : List EndpointAddr) : List EndpointAddr := fillFrom v.provider eps

def circuitBreak (eps : List EndpointAddr) : List EndpointAddr :=
  match v.broken with
  | none => eps
  | some broken =>
      let eps := v.fillEndpoints eps
      let healthy := eps.filter fun ep => !broken ep
      if healthy = [] then eps else healthy

def methodBlocks (eps : List EndpointAddr) : List EndpointAddr :=
  match v.blocked with
  | none => eps
  | some blocked =>
      let eps := v.fillEndpoints eps
      let filtered := eps.filter fun ep => !blocked ep
      if filtered = [] ∨ filtered.length < eps.length ∧
          (v.anyVouched filtered = false ∨ v.keepsVouchedCapacity filtered eps = false) then eps
      else filtered

def candidates (eps : List EndpointAddr) : List EndpointAddr :=
  match v.plugin with
  | none => eps
  | some filter =>
      match filter eps with
      | .error _ => eps
      | .ok filtered =>
          if filtered = [] then eps
          else if filtered.length < eps.length ∧ v.anyVouched filtered = false ∧
              v.anyVouched eps = true then eps
          else filtered

def selectEndpoint (attemptKind : GoString) (eps : List EndpointAddr) :
    List EndpointAddr × Except GoError EndpointAddr :=
  match eps,v.provider with
  | [],some (.error err) => ([],.error err)
  | _,_ =>
      let eps := v.fillEndpoints eps
      let candidates := v.candidates eps
      (eps,if candidates = [] then .error errNoEndpoint
        else if attemptKind = attemptHedge ∧ v.allRuledOut candidates = true then
          .error errHedgeRuledOut
        else .ok (v.selectBest candidates))

def narrow (attemptKind : GoString) (eps : List EndpointAddr) :
    List EndpointAddr × Except GoError EndpointAddr :=
  v.selectEndpoint attemptKind (v.methodBlocks (v.circuitBreak (v.supplierAffinity eps)))

variable {v} {eps : List EndpointAddr}

theorem fillEndpoints_of_ne (h : eps ≠ []) : v.fillEndpoints eps = eps := fillFrom_of_ne h

theorem supplierAffinity_kept (h : eps ≠ []) :
    v.supplierAffinity eps ≠ [] ∧ v.supplierAffinity eps ⊆ eps := by
  unfold supplierAffinity
  cases v.affinity with
  | none => exact ⟨h,List.Subset.refl eps⟩
  | some preferred =>
    refine ⟨?_,fun _ hep => mem_prioritize.mp hep⟩
    obtain ⟨ep,hep⟩ := List.exists_mem_of_ne_nil eps h
    exact List.ne_nil_of_mem (mem_prioritize.mpr hep)

theorem circuitBreak_kept (h : eps ≠ []) :
    v.circuitBreak eps ≠ [] ∧ v.circuitBreak eps ⊆ eps := by
  unfold circuitBreak
  cases v.broken with
  | none => exact ⟨h,List.Subset.refl eps⟩
  | some broken =>
    dsimp only
    rw [fillEndpoints_of_ne h]
    split
    · exact ⟨h,List.Subset.refl eps⟩
    · next hne => exact ⟨hne,List.filter_subset_self eps⟩

theorem methodBlocks_kept (h : eps ≠ []) :
    v.methodBlocks eps ≠ [] ∧ v.methodBlocks eps ⊆ eps := by
  unfold methodBlocks
  cases v.blocked with
  | none => exact ⟨h,List.Subset.refl eps⟩
  | some blocked =>
    dsimp only
    rw [fillEndpoints_of_ne h]
    split
    · exact ⟨h,List.Subset.refl eps⟩
    · next hne => exact ⟨fun hn => hne (.inl hn),List.filter_subset_self eps⟩

theorem candidates_subset : v.candidates eps ⊆ eps := by
  unfold candidates
  split
  · exact List.Subset.refl eps
  · next filter hf =>
    split
    · exact List.Subset.refl eps
    · next kept hk =>
      split
      · exact List.Subset.refl eps
      · split
        · exact List.Subset.refl eps
        · exact v.plugin_subset filter hf eps kept hk

theorem selectEndpoint_kept (kind : GoString) (h : eps ≠ []) :
    (v.selectEndpoint kind eps).1 = eps ∧
      ∀ pick, (v.selectEndpoint kind eps).2 = .ok pick → pick ∈ eps := by
  unfold selectEndpoint
  split
  · exact absurd rfl h
  · dsimp only
    rw [fillEndpoints_of_ne h]
    refine ⟨rfl,fun pick hp => ?_⟩
    split at hp
    · cases hp
    · next hne =>
      split at hp
      · cases hp
      · cases hp
        exact candidates_subset (v.best_mem _ hne)

theorem narrow_kept (kind : GoString) (h : eps ≠ []) :
    (v.narrow kind eps).1 ≠ [] ∧ (v.narrow kind eps).1 ⊆ eps ∧
      ∀ pick, (v.narrow kind eps).2 = .ok pick → pick ∈ eps := by
  have ha := supplierAffinity_kept (v := v) h
  have hbr := circuitBreak_kept (v := v) ha.1
  have hb := methodBlocks_kept (v := v) hbr.1
  have hsu := List.Subset.trans hb.2 (List.Subset.trans hbr.2 ha.2)
  have hs := selectEndpoint_kept (v := v) kind hb.1
  unfold narrow
  rw [hs.1]
  exact ⟨hb.1,hsu,fun pick hp => hsu (hs.2 pick hp)⟩

def offered (v : SelectView) (attemptKind : GoString) (eps : List EndpointAddr) :
    Except GoError (List EndpointAddr) :=
  match eps,v.provider with
  | [],some (.error err) => .error err
  | _,_ =>
      let candidates := v.candidates (v.fillEndpoints eps)
      if candidates = [] then .error errNoEndpoint
      else if attemptKind = attemptHedge ∧ v.allRuledOut candidates = true then
        .error errHedgeRuledOut
      else .ok candidates

theorem selectEndpoint_offered (kind : GoString) :
    (v.selectEndpoint kind eps).2 = (v.offered kind eps).map v.selectBest := by
  unfold selectEndpoint offered
  split
  · rfl
  · dsimp only
    split_ifs <;> rfl

theorem offered_ok {kind : GoString} {l : List EndpointAddr} (h : v.offered kind eps = .ok l) :
    l ≠ [] ∧ l = v.candidates (v.fillEndpoints eps) := by
  unfold offered at h
  split at h
  · cases h
  · dsimp only at h
    split_ifs at h with hn
    cases h
    exact ⟨hn,rfl⟩

theorem methodBlocks_capacity {vouched : EndpointAddr → Bool} (hv : v.vouched = some vouched)
    (h : eps ≠ []) : min (eps.countP vouched) (max 2 ((eps.countP vouched + 1) / 2)) ≤
      (v.methodBlocks eps).countP vouched := by
  unfold methodBlocks
  cases v.blocked with
  | none => exact Nat.min_le_left _ _
  | some blocked =>
    dsimp only
    rw [fillEndpoints_of_ne h]
    split
    · exact Nat.min_le_left _ _
    · next hk =>
      rcases Nat.lt_or_ge (eps.filter fun ep => !blocked ep).length eps.length with hlt | hge
      · have hc : v.keepsVouchedCapacity _ eps ≠ false := fun hc =>
          hk (.inr ⟨hlt,.inr hc⟩)
        simp only [keepsVouchedCapacity,hv] at hc
        exact of_decide_eq_true (Bool.eq_true_of_not_eq_false hc)
      · rw [List.filter_sublist.eq_of_length_le hge]
        exact Nat.min_le_left _ _

theorem candidates_vouched {vouched : EndpointAddr → Bool} (hv : v.vouched = some vouched)
    (hf : ∀ filter ∈ v.plugin, ∀ l kept, filter l = .ok kept → kept.Subperm l)
    (h : ∃ ep ∈ eps, vouched ep = true) : ∃ ep ∈ v.candidates eps, vouched ep = true := by
  unfold candidates
  split
  · exact h
  next filter hp =>
  split
  · exact h
  next kept hk =>
  split
  · exact h
  split
  · exact h
  next hg =>
  rcases Nat.lt_or_ge kept.length eps.length with hlt | hge
  · by_contra hn
    exact hg ⟨hlt,by simpa [anyVouched,hv] using hn,by simpa [anyVouched,hv] using h⟩
  · -- a filter that removes nothing only reorders the pool
    obtain ⟨ep,hep,hvo⟩ := h
    have hpe := (hf filter hp eps kept hk).perm_of_length_le hge
    exact ⟨ep,hpe.mem_iff.mpr hep,hvo⟩

theorem narrowing_keeps_vouched_capacity (v : SelectView) (kind : GoString)
    {vouched : EndpointAddr → Bool} (hv : v.vouched = some vouched)
    (hfilter : ∀ filter ∈ v.plugin, ∀ l kept, filter l = .ok kept → kept.Subperm l)
    {pool : List EndpointAddr} (hpool : pool ≠ []) :
    let healthy := v.circuitBreak pool
    let opened := v.methodBlocks healthy
    let known := healthy.countP vouched
    min known (max 2 ((known + 1) / 2)) ≤ opened.countP vouched ∧
      (v.selectEndpoint kind opened).2 = (v.offered kind opened).map v.selectBest ∧
      ∀ l, v.offered kind opened = .ok l →
        l ≠ [] ∧ ((∃ ep ∈ opened, vouched ep = true) → ∃ ep ∈ l, vouched ep = true) := by
  intro healthy opened known
  have hh : healthy ≠ [] := (circuitBreak_kept hpool).1
  refine ⟨methodBlocks_capacity hv hh,selectEndpoint_offered kind,fun l hl => ?_⟩
  obtain ⟨hne,rfl⟩ := offered_ok hl
  refine ⟨hne,fun h => ?_⟩
  rw [fillEndpoints_of_ne (methodBlocks_kept hh).1]
  exact candidates_vouched hv hfilter h

theorem headD_mem (l : List EndpointAddr) (h : l ≠ []) : l.headD [] ∈ l := by
  cases l with
  | nil => exact absurd rfl h
  | cons ep l => exact List.mem_cons_self

-- Four hosts, three of them vouched for: one is broken, one is blocked for the method, and the
-- plugin would keep the unvouched one alone.
def crowded : SelectView where
  affinity := none
  provider := none
  broken := some fun ep => ep = ['a']
  blocked := some fun ep => ep = ['b']
  vouched := some fun ep => ep ≠ ['d']
  plugin := some fun l => .ok (l.filter fun ep => ep = ['d'])
  ruledOut := none
  selectBest l := l.headD []
  plugin_subset _ hf l kept hkept := by
    cases hf
    cases hkept
    exact List.filter_subset_self l
  best_mem := headD_mem

theorem crowded_pool_keeps_its_vouched :
    ∃ l, crowded.offered [] (crowded.methodBlocks (crowded.circuitBreak
        [['a'],['b'],['c'],['d']])) = .ok l ∧ l ≠ [] ∧ ∃ ep ∈ l, decide (ep ≠ ['d']) = true := by
  obtain ⟨-,-,h⟩ := narrowing_keeps_vouched_capacity crowded [] rfl
    (fun _ hf l _ hk => by
      cases hf
      cases hk
      exact List.filter_sublist.subperm)
    (List.cons_ne_nil ['a'] [['b'],['c'],['d']])
  obtain ⟨hne,hv⟩ := h [['b'],['c'],['d']] rfl
  exact ⟨_,rfl,hne,hv ⟨['b'],by decide,by decide⟩⟩

end SelectView

end SageGateway
