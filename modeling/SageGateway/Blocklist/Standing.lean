import SageGateway.Blocklist.Manager

namespace SageGateway.Blocklist

open List GoMap

variable {P : Platform} {env : GoString}

namespace Change

def Proper (P : Platform) : Change → Prop
  | .save e => e.domain ≠ [] ∧ P.domainName e.domain = e.domain
  | .delete _ => True

end Change

namespace Hash

def Proper (P : Platform) (h : Hash) : Prop :=
  ∀ field v, h.get field = some v → ∃ e, v = some e ∧ e.domain = field ∧ (Change.save e).Proper P

theorem get_write (h : Hash) (c : Change) (d : GoString) :
    (h.write c).get d = if d = c.domain then c.value.map some else h.get d := by
  cases c with
  | save e => exact get_put ..
  | delete domain => exact get_del ..

theorem Proper.write {h : Hash} (hh : h.Proper P) {c : Change} (hc : c.Proper P) :
    (h.write c).Proper P := by
  intro field v hg
  rw [get_write] at hg
  split at hg
  · next hf =>
    cases c with
    | save e =>
      cases hg
      exact ⟨e,rfl,hf.symm,hc⟩
    | delete domain => cases hg
  · exact hh field v hg

theorem nextOf_load {rows : List (GoString × Option Entry)}
    (hro : ∀ row ∈ rows, ∃ e, row.2 = some e ∧ e.domain = row.1 ∧ (Change.save e).Proper P) :
    Manager.nextOf P (load rows) =
      GoMap.putAll ∅ (rows.filterMap fun row => row.2.map (Prod.mk row.1)) := by
  unfold Manager.nextOf putAll
  generalize (∅ : GoMap GoString Entry) = m
  induction rows generalizing m with
  | nil => rfl
  | cons row rows ih =>
    have hre := ih fun r hr => hro r (mem_cons_of_mem row hr)
    obtain ⟨field,v⟩ := row
    obtain ⟨e,rfl,rfl,hne,hn⟩ := hro (field,v) (.head _)
    have hl : loadRow (e.domain,some e) = some e := by
      rw [loadRow,Option.map_some,if_neg hne]
    rw [load,filterMap_cons_some hl,foldl_cons,hn,if_neg hne]
    exact hre _

theorem Proper.next {h : Hash} (hh : h.Proper P) {rows : List (GoString × Option Entry)}
    (hr : GoMap.Iterates h rows) (d : GoString) :
    (Manager.nextOf P (load rows)).get d = (h.get d).bind id := by
  have hp : ∀ row ∈ rows, ∃ e, row.2 = some e ∧ e.domain = row.1 ∧ (Change.save e).Proper P :=
    fun row hro => hh row.1 row.2 ((hr.mem_iff _ _).mp hro)
  rw [nextOf_load hp]
  have hk : List.Sublist ((rows.filterMap fun row => row.2.map (Prod.mk row.1)).map Prod.fst)
      (rows.map Prod.fst) := by
    clear hp hr
    induction rows with
    | nil => exact .slnil
    | cons row rows ih =>
      rw [filterMap_cons]
      cases row.2 with
      | none => exact ih.cons _
      | some e => exact ih.cons_cons _
  cases hg : h.get d with
  | none =>
    rw [get_putAll_of_notMem]
    · rfl
    · intro hm
      obtain ⟨row,hro,hd⟩ := mem_map.mp (hk.subset hm)
      subst hd
      cases ((hr.mem_iff row.1 row.2).mp hro).symm.trans hg
  | some v =>
    obtain ⟨e,rfl,-,-⟩ := hh d v hg
    refine get_putAll_of_mem (hr.nodup.sublist hk) ?_
    exact mem_filterMap.mpr ⟨(d,some e),(hr.mem_iff _ _).mpr hg,rfl⟩

end Hash

namespace Manager

variable {m m' : Manager} {c : Change}

theorem applyLocked_ok (h : applyLocked P env m = .ok m') :
    m'.entries = m.entries ∧ m'.applied = some m'.union := by
  unfold applyLocked at h
  cases hn : newDomainBlocklist P env m.union with
  | error err =>
    rw [hn] at h
    cases h
  | ok b =>
    rw [hn] at h
    cases h
    exact ⟨rfl,rfl⟩

structure Accepted (P : Platform) (m m' : Manager) (c : Change) : Prop where
  proper : c.Proper P
  entries : ∀ d, m'.entries.get d = if d = c.domain then c.value else m.entries.get d
  applied : m'.applied = some m'.union

theorem set_ok (hf : ∀ s, P.domainName (P.domainName s) = P.domainName s) {now : Int} {e : Entry}
    (h : m.set P env now e = .ok (m',c)) :
    c.domain = P.domainName e.domain ∧ Accepted P m m' c := by
  unfold set at h
  dsimp only at h
  split at h
  · cases h
  · next hne =>
    split at h
    · next m₁ hap =>
      cases h
      obtain ⟨he,ha⟩ := applyLocked_ok hap
      refine ⟨rfl,⟨hne,hf e.domain⟩,fun d => ?_,ha⟩
      rw [he]
      exact get_put ..
    · cases h

theorem release_ok {domain : GoString} (h : m.release P env domain = .ok (m',c)) :
    c.domain = P.domainName domain ∧ Accepted P m m' c := by
  unfold release at h
  dsimp only at h
  split at h
  · cases h
  · split at h
    · next m₁ hap =>
      cases h
      obtain ⟨he,ha⟩ := applyLocked_ok hap
      refine ⟨rfl,trivial,fun d => ?_,ha⟩
      rw [he]
      exact get_del ..
    · cases h

theorem reload_cases (m : Manager) (loaded : List Entry) :
    m.reload P env loaded = m ∨
      (m.reload P env loaded).entries = nextOf P loaded ∧
        (m.reload P env loaded).applied = some (m.reload P env loaded).union := by
  unfold reload
  dsimp only
  split
  · exact .inl rfl
  · split
    · next m₁ ha => exact .inr (applyLocked_ok ha)
    · exact .inl rfl

theorem setBlockedDomains_cases (m : Manager) (base : List BlockedDomain) :
    m.setBlockedDomains P env base = m ∨
      (m.setBlockedDomains P env base).entries = m.entries ∧
        (m.setBlockedDomains P env base).applied =
          some (m.setBlockedDomains P env base).union := by
  unfold setBlockedDomains
  split
  · next m₁ hap =>
    obtain ⟨he,ha⟩ := applyLocked_ok hap
    exact .inr ⟨he,ha⟩
  · exact .inl rfl

end Manager

namespace Replica

variable {d : GoString} {r r' : Replica} {c : Change}

def pending (r : Replica) (d : GoString) : Bool :=
  r.calls.any fun call => decide (call.change.domain = d) && !call.arrived

-- The entry's writes reach the hash one after another, each before a reload reads it, and no reload
-- is between its read and its effect when the entry is changed.
def Orderly (P : Platform) (d : GoString) (r : Replica) : Act → Prop
  | .set _ e => P.domainName e.domain = d → r.pending d = false ∧ r.loaded = none
  | .release domain => P.domainName domain = d → r.pending d = false ∧ r.loaded = none
  | .load _ => r.pending d = false
  | _ => True

structure Sound (P : Platform) (r : Replica) : Prop where
  hash : r.hash.Proper P
  calls : ∀ call ∈ r.calls, call.change.Proper P

structure Kept (P : Platform) (d : GoString) (r : Replica) (c : Change) : Prop where
  own : ∀ call ∈ r.calls, call.change.domain = d → call.arrived = false → call.change = c
  stored : r.pending d = false → r.hash.get d = c.value.map some
  entries : r.manager.entries.get d = c.value
  applied : r.manager.applied = some r.manager.union
  loaded : ∀ loaded, r.loaded = some loaded → (Manager.nextOf P loaded).get d = c.value

def Stands (P : Platform) (d : GoString) (r : Replica) : Prop :=
  Sound P r ∧ ∀ c, r.standing.get d = some c → Kept P d r c

theorem pending_false_iff :
    r.pending d = false ↔ ∀ call ∈ r.calls, call.change.domain = d → call.arrived = true := by
  unfold pending
  rw [any_eq_false]
  refine forall₂_congr fun call _ => ?_
  rw [Bool.and_eq_true,decide_eq_true_iff,Bool.not_eq_true',not_and,Bool.not_eq_false]

theorem stands_new (P : Platform) (d : GoString) (base : List BlockedDomain) :
    Stands P d (new base) := by
  refine ⟨⟨fun field v h => ?_,fun call h => ?_⟩,fun c h => ?_⟩
  · cases h
  · cases h
  · cases h

section

variable (h : Stands P d r)

include h

theorem Stands.accepted {m : Manager}
    (hq : c.domain = d → r.pending d = false ∧ r.loaded = none)
    (hac : Manager.Accepted P r.manager m c) : Stands P d (r.accept (.ok (m,c))) := by
  refine ⟨⟨h.1.hash,fun call hc => ?_⟩,fun c' hs => ?_⟩
  · rcases mem_append.mp hc with hold | hn
    · exact h.1.calls call hold
    · cases mem_singleton.mp hn
      exact hac.proper
  · rcases get_put_eq_some.mp hs with ⟨hd,rfl⟩ | ⟨hd,hold⟩
    · obtain ⟨hp,hl⟩ := hq hd.symm
      constructor
      case own =>
        intro call hc hdo ha
        rcases mem_append.mp hc with hold | hn
        · rw [pending_false_iff.mp hp call hold hdo] at ha
          cases ha
        · cases mem_singleton.mp hn
          rfl
      case stored =>
        intro hno
        have ha := pending_false_iff.mp hno ⟨c,false,none⟩ (by simp [accept]) hd.symm
        cases ha
      case entries =>
        show m.entries.get d = _
        rw [hac.entries,if_pos hd]
      case applied => exact hac.applied
      case loaded =>
        intro loaded hso
        cases hl.symm.trans hso
    · have hk := h.2 c' hold
      have hp : (r.accept (.ok (m,c))).pending d = r.pending d := by
        simp [pending,accept,Ne.symm hd]
      constructor
      case own =>
        intro call hc hdo ha
        rcases mem_append.mp hc with hc | hn
        · exact hk.own call hc hdo ha
        · cases mem_singleton.mp hn
          exact absurd hdo.symm hd
      case stored =>
        intro hno
        exact hk.stored (hp.symm.trans hno)
      case entries =>
        show m.entries.get d = _
        rw [hac.entries,if_neg hd]
        exact hk.entries
      case applied => exact hac.applied
      case loaded => exact hk.loaded

theorem Stands.accept {domain : GoString}
    (hq : domain = d → r.pending d = false ∧ r.loaded = none)
    {result : Except ManagerError (Manager × Change)}
    (hr : ∀ m c, result = .ok (m,c) → c.domain = domain ∧ Manager.Accepted P r.manager m c) :
    Stands P d (r.accept result) := by
  cases result with
  | error err => exact h
  | ok mc =>
    obtain ⟨m,c⟩ := mc
    obtain ⟨hdo,ha⟩ := hr m c rfl
    exact h.accepted (fun hd => hq (hdo.symm.trans hd)) ha

theorem Stands.frame {calls : List Call} (hpr : ∀ call ∈ calls, call.change.Proper P)
    (hcl : ∀ call ∈ calls, call.change.domain = d → call.arrived = false →
      ∃ old ∈ r.calls, old.change = call.change ∧ old.arrived = false)
    (hp : ∀ old ∈ r.calls, old.change.domain = d → old.arrived = false →
      ∃ call ∈ calls, call.change.domain = d ∧ call.arrived = false) :
    Stands P d { r with calls := calls } := by
  refine ⟨⟨h.1.hash,hpr⟩,fun c hs => ?_⟩
  have hk := h.2 c hs
  refine { hk with own := fun call hc hd ha => ?_, stored := fun hn => ?_ }
  · obtain ⟨old,hold,hch,hw⟩ := hcl call hc hd ha
    rw [← hch] at hd ⊢
    exact hk.own old hold hd hw
  · refine hk.stored (pending_false_iff.mpr fun old hold hd => ?_)
    cases hw : old.arrived with
    | true => rfl
    | false =>
      obtain ⟨call,hc,hcd,hca⟩ := hp old hold hd hw
      cases (pending_false_iff.mp hn call hc hcd).symm.trans hca

theorem Stands.manager {m : Manager}
    (he : ∀ c, r.standing.get d = some c → r.manager.entries.get d = c.value →
      m.entries.get d = c.value)
    (ha : r.manager.applied = some r.manager.union → m.applied = some m.union)
    {loaded : Option (List Entry)} (hlo : loaded = r.loaded ∨ loaded = none) :
    Stands P d { r with manager := m, loaded := loaded } := by
  refine ⟨⟨h.1.hash,h.1.calls⟩,fun c hs => ?_⟩
  have hk := h.2 c hs
  refine ⟨hk.own,hk.stored,he c hs hk.entries,ha hk.applied,?_⟩
  intro l hl
  rcases hlo with rfl | rfl
  · exact hk.loaded l hl
  · cases hl

theorem Stands.arrive {n : Nat} {call : Call} (hc : r.calls[n]? = some call)
    (hw : call.arrived = false) :
    Stands P d { r with
      hash := r.hash.write call.change
      calls := r.calls.set n { call with arrived := true } } := by
  have hm : call ∈ r.calls := mem_of_getElem? hc
  have hset : ∀ other ∈ r.calls.set n { call with arrived := true },
      other ∈ r.calls ∨ other = { call with arrived := true } := fun other =>
    mem_or_eq_of_mem_set
  refine ⟨⟨h.1.hash.write (h.1.calls call hm),fun other ho => ?_⟩,fun c hs => ?_⟩
  · rcases hset other ho with hold | rfl
    · exact h.1.calls other hold
    · exact h.1.calls call hm
  · have hk := h.2 c hs
    refine { hk with own := fun other ho hdo hl => ?_, stored := fun hn => ?_ }
    · rcases hset other ho with hold | rfl
      · exact hk.own other hold hdo hl
      · cases hl
    · rw [Hash.get_write]
      split
      · next hd => rw [hk.own call hm hd.symm hw]
      · next hd =>
        refine hk.stored (pending_false_iff.mpr fun other ho hdo => ?_)
        obtain ⟨i,hi⟩ := mem_iff_getElem?.mp ho
        have hne : n ≠ i := by
          rintro rfl
          cases hc.symm.trans hi
          exact hd hdo.symm
        refine pending_false_iff.mp hn other ?_ hdo
        exact mem_of_getElem? ((List.getElem?_set_ne hne).trans hi)

theorem Stands.peer (hc : c.Proper P) :
    Stands P d { r with hash := r.hash.write c, standing := r.standing.del c.domain } := by
  refine ⟨⟨h.1.hash.write hc,h.1.calls⟩,fun c' hs => ?_⟩
  obtain ⟨hd,hold⟩ := get_del_eq_some.mp hs
  have hk := h.2 c' hold
  refine { hk with stored := fun hn => ?_ }
  rw [Hash.get_write,if_neg hd]
  exact hk.stored hn

theorem Stands.load (hq : r.pending d = false)
    {rows : List (GoString × Option Entry)} (hr : GoMap.Iterates r.hash rows) :
    Stands P d { r with loaded := some (Hash.load rows) } := by
  refine ⟨⟨h.1.hash,h.1.calls⟩,fun c hs => ?_⟩
  have hk := h.2 c hs
  refine { hk with loaded := fun loaded hl => ?_ }
  cases hl
  rw [h.1.hash.next hr,hk.stored hq]
  cases c with
  | save e | delete domain => rfl

theorem Stands.answer {n : Nat} {call : Call} (hc : r.calls[n]? = some call)
    (a : Answer) : Stands P d { r with calls := r.calls.set n { call with answer := some a } } := by
  have hm : call ∈ r.calls := mem_of_getElem? hc
  refine h.frame (fun other ho => ?_) (fun other ho hd hl => ?_)
    fun old hold hd hl => ?_
  · rcases mem_or_eq_of_mem_set ho with hold | rfl
    · exact h.1.calls other hold
    · exact h.1.calls call hm
  · rcases mem_or_eq_of_mem_set ho with hold | rfl
    · exact ⟨other,hold,rfl,hl⟩
    · exact ⟨call,hm,rfl,hl⟩
  · obtain ⟨i,hi⟩ := mem_iff_getElem?.mp hold
    by_cases hn : n = i
    · subst hn
      cases hc.symm.trans hi
      exact ⟨_,mem_of_getElem? (List.getElem?_set_self (List.getElem?_eq_some_iff.mp hi).1),
        hd,hl⟩
    · exact ⟨old,mem_of_getElem? ((List.getElem?_set_ne hn).trans hi),hd,hl⟩

end

theorem Stands.step (hf : ∀ s, P.domainName (P.domainName s) = P.domainName s) (h : Stands P d r)
    {a : Act} (hok : Orderly P d r a) (hs : r.step P env a = some r') : Stands P d r' := by
  cases a with
  | set now e =>
    cases hs
    exact h.accept hok fun m c hr => Manager.set_ok hf hr
  | release domain =>
    cases hs
    exact h.accept hok fun m c hr => Manager.release_ok hr
  | arrive n =>
    unfold Replica.step at hs
    dsimp only at hs
    split at hs
    · next call hc =>
      obtain ⟨hw,rfl⟩ := Run.guard_neg hs
      exact h.arrive hc (Bool.eq_false_iff.mpr hw)
    · cases hs
  | answer n a =>
    unfold Replica.step at hs
    dsimp only at hs
    split at hs
    · next call hc =>
      obtain ⟨-,rfl⟩ := Run.guard_neg hs
      exact h.answer hc a
    · cases hs
  | load rows =>
    obtain ⟨hco,rfl⟩ := Run.guard_pos hs
    exact h.load hok hco.2
  | reload =>
    obtain ⟨loaded,hl,rfl⟩ := Option.map_eq_some_iff.mp hs
    refine h.manager (fun c hst he => ?_) (fun ha => ?_) (.inr rfl)
    · rcases r.manager.reload_cases loaded with heq | ⟨heq,-⟩
      · rwa [heq]
      · rw [heq]
        exact (h.2 c hst).loaded loaded hl
    · rcases r.manager.reload_cases loaded with heq | ⟨-,heq⟩
      · rwa [heq]
      · exact heq
  | setBlockedDomains base =>
    cases hs
    refine h.manager (fun c _ he => ?_) (fun ha => ?_) (.inl rfl)
    · rcases r.manager.setBlockedDomains_cases base with heq | ⟨heq,-⟩
      · rwa [heq]
      · rwa [heq]
    · rcases r.manager.setBlockedDomains_cases base with heq | ⟨-,heq⟩
      · rwa [heq]
      · exact heq
  | peer c =>
    obtain ⟨hco,rfl⟩ := Run.guard_neg hs
    obtain ⟨hne,hn⟩ := not_or.mp hco
    refine h.peer ?_
    cases c with
    | save e => exact ⟨hne,not_not.mp hn⟩
    | delete domain => trivial

theorem accepted_changes_stand (hfold : ∀ s, P.domainName (P.domainName s) = P.domainName s)
    {base : List BlockedDomain}
    (h : Run.Reaches (Replica.step P env) (Orderly P d) (new base) r) {c : Change}
    (hc : r.standing.get d = some c) :
    r.manager.entries.get d = c.value ∧ r.manager.applied = some r.manager.union := by
  have hst : Stands P d r :=
    h.invariant _ (stands_new P d base) fun _ _ _ hs hok hse => hs.step hfold hok hse
  exact ⟨(hst.2 c hc).entries,(hst.2 c hc).applied⟩

instance (r : Replica) : ∀ a, Decidable (Orderly P d r a)
  | .set _ _ => inferInstanceAs (Decidable (_ → _))
  | .release _ => inferInstanceAs (Decidable (_ → _))
  | .load _ => inferInstanceAs (Decidable (_ = _))
  | .arrive _ | .answer .. | .reload | .setBlockedDomains _ | .peer _ => .isTrue trivial

def banOf (domain : String) (since : Int) : Entry := ⟨domain.toList,[],"abuse".toList,since⟩

-- The ban stands on this replica until the next poll reads the hash it never reached.
def lostBan : List Act :=
  [.set 7 (banOf " Evil.example" GoTime.zeroTime),.answer 0 .errPropagation,.load [],.reload]

theorem reload_undoes_unpropagated_ban :
    ∃ r, Run.Reaches (Replica.step asciiPlatform []) (fun _ _ => True) (new []) r ∧
      r.calls = [⟨.save (banOf "evil.example" 7),false,some .errPropagation⟩] ∧
      r.standing.get "evil.example".toList = some (.save (banOf "evil.example" 7)) ∧
      r.manager.entries.get "evil.example".toList = none ∧ r.manager.applied = some [] :=
  Run.reaches lostBan (by decide +kernel)

-- Another replica's ban of another domain comes in with the same poll.
def sharedBan : List Act :=
  [.set 7 (banOf " Evil.example" GoTime.zeroTime),.arrive 0,.answer 0 .nil,
    .peer (.save (banOf "bad.example" 9)),
    .load [("bad.example".toList,some (banOf "bad.example" 9)),
      ("evil.example".toList,some (banOf "evil.example" 7))],
    .reload]

theorem shared_ban_survives_reload :
    ∃ r, Run.Reaches (Replica.step asciiPlatform []) (Orderly asciiPlatform "evil.example".toList)
        (new []) r ∧
      r.manager.union = [⟨"bad.example".toList,[]⟩,⟨"evil.example".toList,[]⟩] ∧
      r.manager.entries.get "evil.example".toList = some (banOf "evil.example" 7) ∧
      r.manager.applied = some r.manager.union := by
  obtain ⟨r,hr,hs,hu⟩ : ∃ r, Run.Reaches (Replica.step asciiPlatform [])
      (Orderly asciiPlatform "evil.example".toList) (new []) r ∧
      r.standing.get "evil.example".toList = some (.save (banOf "evil.example" 7)) ∧
      r.manager.union = [⟨"bad.example".toList,[]⟩,⟨"evil.example".toList,[]⟩] :=
    Run.reaches sharedBan (by decide +kernel)
  exact ⟨r,hr,hu,accepted_changes_stand asciiPlatform_domainName hr hs⟩

end Replica

end SageGateway.Blocklist
