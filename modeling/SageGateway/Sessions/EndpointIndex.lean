import SageGateway.Endpoints
import SageGateway.Owner
import SageGateway.Sessions
import SageGateway.Lib.OwnedIndex
import SageGateway.Lib.Run

namespace SageGateway

open List Option GoMap

def rpcTypeMapping : ChainRPCType → Option RPCType
  | .jsonRPC => some .jsonRPC
  | .rest => some .rest
  | .cometBFT => some .cometBFT
  | .webSocket => some .webSocket
  | .grpc => some .grpc
  | .unknownRPC => none

def stakeURL (urls : GoMap RPCType GoString) (se : SupplierEndpoint) : GoMap RPCType GoString :=
  match rpcTypeMapping se.rpcType with
  | some t => urls.put t se.url
  | none => urls

theorem stakeURL_unknown (urls : GoMap RPCType GoString) (se : SupplierEndpoint) :
    (stakeURL urls se).get .unknown = urls.get .unknown := by
  unfold stakeURL
  cases se.rpcType with
  | unknownRPC => rfl
  | _ => exact get_put_ne _ _ (by decide)

def stakedURLs (ses : List SupplierEndpoint) : GoMap RPCType GoString := ses.foldl stakeURL ∅

theorem stakedURLs_unknown (ses : List SupplierEndpoint) :
    (stakedURLs ses).get .unknown = none := by
  induction ses using reverseRecOn with
  | nil => rfl
  | append_singleton ses se ih =>
    rw [stakedURLs,foldl_append]
    exact (stakeURL_unknown _ se).trans ih

namespace ChainSession

variable (session : ChainSession)

def owners : GoMap GoString GoString :=
  GoMap.putAll ∅ ((session.suppliers.filterMap id).map fun s => (s.operatorAddress,s.ownerAddress))

def endpoint (first : SupplierEndpoint) (ses : List SupplierEndpoint) : Endpoint where
  supplierAddr := first.supplier
  ownerAddr := (session.owners.get first.supplier).getD []
  urls := stakedURLs ses
  sessionEnd := session.header.map SessionHeader.sessionEndBlockHeight
  known := stakedURLs_unknown ses

def addEndpoint (result : GoMap EndpointAddr Endpoint) (ses : List SupplierEndpoint) :
    GoMap EndpointAddr Endpoint :=
  match ses with
  | [] => result
  | first :: _ =>
      let ep := session.endpoint first ses
      result.put ep.addr ep

def endpointsFromSession : Option (GoMap EndpointAddr Endpoint) :=
  session.allEndpoints.map fun all =>
    all.toList.foldl (fun result row => session.addEndpoint result row.2) ∅

def endpoints : GoMap EndpointAddr Endpoint := session.endpointsFromSession.getD ∅

def serviceID : ServiceID := (session.header.map SessionHeader.serviceID).getD []

def sessionEnd : Nat :=
  match session.header with
  | some h => if 0 < h.sessionEndBlockHeight then h.sessionEndBlockHeight.toNat else 0
  | none => 0

end ChainSession

structure CachedEndpoints where
  serial : Nat
  serviceID : ServiceID
  endpoints : GoMap EndpointAddr Endpoint
  sessionEnd : Nat

namespace CachedEndpoints

def faces (c : CachedEndpoints) : List ((EndpointAddr × RPCType) × Endpoint) :=
  c.endpoints.toList.flatMap fun e => e.2.urls.toList.map fun u => ((e.1,u.1),e.2)

def serviceAddrs (c : CachedEndpoints) : List ((ServiceID × EndpointAddr) × Endpoint) :=
  c.endpoints.toList.map fun e => ((c.serviceID,e.1),e.2)

theorem mem_serviceAddrs {c : CachedEndpoints} {svc : ServiceID} {addr : EndpointAddr}
    {ep : Endpoint} :
    ((svc,addr),ep) ∈ c.serviceAddrs ↔ svc = c.serviceID ∧ c.endpoints.get addr = some ep := by
  rw [← (iterates_toList c.endpoints).mem_iff]
  constructor
  · intro h
    obtain ⟨e,he,heq⟩ := List.mem_map.mp h
    cases heq
    exact ⟨rfl,he⟩
  · rintro ⟨rfl,h⟩
    exact List.mem_map.mpr ⟨_,h,rfl⟩

end CachedEndpoints

structure EndpointTables where
  endpointCache : GoMap GoString CachedEndpoints
  byFace : GoMap (EndpointAddr × RPCType) (Owned Endpoint)
  byServiceAddr : GoMap (ServiceID × EndpointAddr) (Owned Endpoint)
  highestSessionEnd : Nat
  owners : Owners
  nextSerial : Nat

namespace EndpointTables

def new : EndpointTables := ⟨∅,∅,∅,0,.new,0⟩

def keepFrom (cache : GoMap GoString CachedEndpoints) (floor : Nat) :
    GoMap GoString CachedEndpoints :=
  cache.filter fun _ c => !decide (c.sessionEnd < floor)

def staleBefore (cache : GoMap GoString CachedEndpoints) (floor : Nat) : List CachedEndpoints :=
  (cache.toList.map Prod.snd).filter fun c => c.sessionEnd < floor

def rowsOf {K : Type} (keys : CachedEndpoints → List (K × Endpoint))
    (stale : List CachedEndpoints) :
    List (Nat × List K) :=
  stale.map fun c => (c.serial,(keys c).map Prod.fst)

def evictStaleEndpointsOnRollover (t : EndpointTables) (sessionEnd : Nat) : EndpointTables :=
  if sessionEnd = 0 ∨ sessionEnd ≤ t.highestSessionEnd then t
  else
    let prevHighest := t.highestSessionEnd
    let stale := staleBefore t.endpointCache prevHighest
    { t with
      highestSessionEnd := sessionEnd
      endpointCache := keepFrom t.endpointCache prevHighest
      byFace := OwnedIndex.withdrawAll t.byFace (rowsOf CachedEndpoints.faces stale)
      byServiceAddr :=
        OwnedIndex.withdrawAll t.byServiceAddr (rowsOf CachedEndpoints.serviceAddrs stale) }

def recordOwners (P : Platform) (o : Owners) (c : CachedEndpoints) : Owners :=
  c.endpoints.toList.foldl (fun o e =>
    o.recordOwner e.2.supplierAddr e.2.ownerAddr (EndpointAddr.operator P e.1)) o

def extract (P : Platform) (t : EndpointTables) (sessionID : GoString) (c : CachedEndpoints) :
    EndpointTables where
  endpointCache := t.endpointCache.put sessionID c
  byFace := OwnedIndex.publish t.byFace c.serial c.faces
  byServiceAddr := OwnedIndex.publish t.byServiceAddr c.serial c.serviceAddrs
  highestSessionEnd := t.highestSessionEnd
  owners := recordOwners P t.owners c
  nextSerial := t.nextSerial + 1

def cachedOf (t : EndpointTables) (session : ChainSession) : CachedEndpoints :=
  ⟨t.nextSerial,session.serviceID,session.endpoints,session.sessionEnd⟩

def getOrCreateEndpoints (P : Platform) (t : EndpointTables) (session : ChainSession) :
    EndpointTables × GoMap EndpointAddr Endpoint :=
  match t.endpointCache.get session.sessionID with
  | some c => (t,c.endpoints)
  | none =>
      let c := t.cachedOf session
      ((t.extract P session.sessionID c).evictStaleEndpointsOnRollover c.sessionEnd,c.endpoints)

def lookupEndpoint (t : EndpointTables) (svc : ServiceID) (addr : EndpointAddr) :
    Option (Owned Endpoint) := t.byServiceAddr.get (svc,addr)

def lookupAnyEndpoint (t : EndpointTables) (addr : EndpointAddr) (rpcType : RPCType) :
    Option (Owned Endpoint) := t.byFace.get (addr,rpcType)

def step (P : Platform) (t : EndpointTables) (session : ChainSession) : Option EndpointTables :=
  some (t.getOrCreateEndpoints P session).1

def shares (c : CachedEndpoints) (session : ChainSession) : Bool :=
  c.serviceID = session.serviceID && c.endpoints.toList.any fun e => session.endpoints.has e.1

def InOrder (t : EndpointTables) (session : ChainSession) : Prop :=
  (t.endpointCache.has session.sessionID || t.endpointCache.toList.all fun e =>
    !shares e.2 session || e.2.sessionEnd ≤ session.sessionEnd) = true

instance (t : EndpointTables) (session : ChainSession) : Decidable (InOrder t session) :=
  inferInstanceAs (Decidable (_ = true))

def Found (t : EndpointTables) : Prop :=
  ∀ id c addr ep, t.endpointCache.get id = some c → c.endpoints.get addr = some ep →
    (t.lookupEndpoint c.serviceID addr).isSome = true

def Belongs (t : EndpointTables) : Prop :=
  ∀ svc addr r, t.lookupEndpoint svc addr = some r →
    ∃ id c, t.endpointCache.get id = some c ∧ c.serial = r.owner ∧ c.serviceID = svc ∧
      c.endpoints.get addr = some r.value

section Holding

variable {K : Type} (keys : CachedEndpoints → List (K × Endpoint))

def Holds (cache : GoMap GoString CachedEndpoints) (o rank : Nat) (k : K) (ep : Endpoint) : Prop :=
  ∃ id c, cache.get id = some c ∧ c.serial = o ∧ c.sessionEnd = rank ∧ (k,ep) ∈ keys c

def OneOwner (cache : GoMap GoString CachedEndpoints) : Prop :=
  ∀ id id' c c', cache.get id = some c → cache.get id' = some c' → c.serial = c'.serial → c = c'

variable {keys} {cache : GoMap GoString CachedEndpoints}

variable {c : CachedEndpoints} {ep : Endpoint} {k : K} {floor o rank : Nat}

theorem holds_put_iff {id : GoString} (hid : cache.get id = none) :
    Holds keys (cache.put id c) o rank k ep ↔
      Holds keys cache o rank k ep ∨ (c.serial = o ∧ c.sessionEnd = rank ∧ (k,ep) ∈ keys c) := by
  constructor
  · rintro ⟨id',c',hg,hr⟩
    rcases get_put_eq_some.mp hg with ⟨rfl,rfl⟩ | ⟨-,hg⟩
    · exact .inr hr
    · exact .inl ⟨id',c',hg,hr⟩
  · rintro (⟨id',c',hg,hr⟩ | hr)
    · have hne : id' ≠ id := by
        rintro rfl
        cases hid.symm.trans hg
      exact ⟨id',c',(get_put_ne _ _ hne).trans hg,hr⟩
    · exact ⟨id,c,get_put_self _ _ _,hr⟩

theorem get_keepFrom {id : GoString} :
    (keepFrom cache floor).get id = some c ↔ cache.get id = some c ∧ floor ≤ c.sessionEnd := by
  rw [keepFrom,GoMap.get_filter]
  simp

theorem mem_staleBefore :
    c ∈ staleBefore cache floor ↔ (∃ id, cache.get id = some c) ∧ c.sessionEnd < floor := by
  simp [staleBefore,Prod.exists,(iterates_toList cache).mem_iff]

theorem holds_keepFrom_iff :
    Holds keys (keepFrom cache floor) o rank k ep ↔ Holds keys cache o rank k ep ∧
    floor ≤ rank := by
  constructor
  · rintro ⟨id,c,hg,hs,rfl,hm⟩
    obtain ⟨hg,hf⟩ := get_keepFrom.mp hg
    exact ⟨⟨id,c,hg,hs,rfl,hm⟩,hf⟩
  · rintro ⟨⟨id,c,hg,hs,rfl,hm⟩,hf⟩
    exact ⟨id,c,get_keepFrom.mpr ⟨hg,hf⟩,hs,rfl,hm⟩

theorem row_of_holds
    (h : Holds keys cache o rank k ep) (hl : rank < floor) :
    ∃ row ∈ rowsOf keys (staleBefore cache floor), o = row.1 ∧ k ∈ row.2 := by
  obtain ⟨id,c,hg,rfl,rfl,hm⟩ := h
  have hs := mem_staleBefore.mpr ⟨⟨id,hg⟩,hl⟩
  exact ⟨_,List.mem_map.mpr ⟨c,hs,rfl⟩,rfl,List.mem_map.mpr ⟨_,hm,rfl⟩⟩

theorem rank_of_row (hon : OneOwner cache)
    (h : Holds keys cache o rank k ep)
    (hr : ∃ row ∈ rowsOf keys (staleBefore cache floor), o = row.1 ∧ k ∈ row.2) :
    rank < floor := by
  obtain ⟨id,c,hg,rfl,rfl,-⟩ := h
  obtain ⟨row,hr,ho,-⟩ := hr
  obtain ⟨c',hs,rfl⟩ := List.mem_map.mp hr
  obtain ⟨⟨id',hg'⟩,hl⟩ := mem_staleBefore.mp hs
  rwa [hon id id' c c' hg hg' ho]

end Holding

structure Sound (t : EndpointTables) : Prop where
  below : ∀ id c, t.endpointCache.get id = some c → c.serial < t.nextSerial
  oneOwner : OneOwner t.endpointCache
  faces : OwnedIndex.Backed t.byFace (Holds CachedEndpoints.faces t.endpointCache)
  addrs : OwnedIndex.Backed t.byServiceAddr (Holds CachedEndpoints.serviceAddrs t.endpointCache)

def Complete (t : EndpointTables) : Prop :=
  OwnedIndex.Covered t.byServiceAddr (Holds CachedEndpoints.serviceAddrs t.endpointCache)

variable {session : ChainSession} {t : EndpointTables} {P : Platform}

theorem Sound.evict (h : Sound t) (sessionEnd : Nat) :
    Sound (t.evictStaleEndpointsOnRollover sessionEnd) := by
  by_cases hold : sessionEnd = 0 ∨ sessionEnd ≤ t.highestSessionEnd
  · rwa [evictStaleEndpointsOnRollover,if_pos hold]
  · rw [evictStaleEndpointsOnRollover,if_neg hold]
    exact {
      below := fun id c hg => h.below id c (get_keepFrom.mp hg).1
      oneOwner := fun id id' c c' hg hg' =>
        h.oneOwner id id' c c' (get_keepFrom.mp hg).1 (get_keepFrom.mp hg').1
      faces := h.faces.withdrawAll (fun _ _ _ _ => holds_keepFrom_iff) fun _ _ _ _ => row_of_holds
      addrs := h.addrs.withdrawAll (fun _ _ _ _ => holds_keepFrom_iff) fun _ _ _ _ => row_of_holds }

theorem Complete.evict (h : Complete t) (hs : Sound t) (sessionEnd : Nat) :
    Complete (t.evictStaleEndpointsOnRollover sessionEnd) := by
  by_cases hold : sessionEnd = 0 ∨ sessionEnd ≤ t.highestSessionEnd
  · rwa [evictStaleEndpointsOnRollover,if_pos hold]
  · rw [evictStaleEndpointsOnRollover,if_neg hold]
    exact OwnedIndex.Covered.withdrawAll (fun _ _ _ _ => holds_keepFrom_iff) h
      fun _ _ _ _ => rank_of_row hs.oneOwner

theorem Sound.extract (h : Sound t) (P : Platform)
    (hid : t.endpointCache.get session.sessionID = none) :
    Sound (t.extract P session.sessionID (t.cachedOf session)) where
  below id c hget := by
    rcases get_put_eq_some.mp hget with ⟨-,rfl⟩ | ⟨-,hget⟩
    · exact Nat.lt_succ_self _
    · exact Nat.lt_succ_of_lt (h.below id c hget)
  oneOwner id id' c c' hget hg' hserial := by
    rcases get_put_eq_some.mp hget with ⟨-,rfl⟩ | ⟨-,hget⟩ <;>
      rcases get_put_eq_some.mp hg' with ⟨-,rfl⟩ | ⟨-,hg'⟩
    · rfl
    · exact absurd hserial.symm (Nat.ne_of_lt (h.below id' c' hg'))
    · exact absurd hserial (Nat.ne_of_lt (h.below id c hget))
    · exact h.oneOwner id id' c c' hget hg' hserial
  faces := h.faces.publish (fun _ _ _ _ hh => (holds_put_iff hid).mpr (.inl hh))
    fun _ _ hm => (holds_put_iff hid).mpr (.inr ⟨rfl,rfl,hm⟩)
  addrs := h.addrs.publish (fun _ _ _ _ hh => (holds_put_iff hid).mpr (.inl hh))
    fun _ _ hm => (holds_put_iff hid).mpr (.inr ⟨rfl,rfl,hm⟩)

theorem InOrder.rank_le (h : InOrder t session)
    (hid : t.endpointCache.get session.sessionID = none) {o rank : Nat}
    {k : ServiceID × EndpointAddr}
    {ep ep' : Endpoint} (hh : Holds CachedEndpoints.serviceAddrs t.endpointCache o rank k ep)
    (hn : (k,ep') ∈ (t.cachedOf session).serviceAddrs) : rank ≤ session.sessionEnd := by
  obtain ⟨id,c,hg,-,rfl,hm⟩ := hh
  obtain ⟨hsv,ha⟩ := CachedEndpoints.mem_serviceAddrs.mp hm
  obtain ⟨hs',ha'⟩ := CachedEndpoints.mem_serviceAddrs.mp hn
  have hs : shares c session = true := by
    refine Bool.and_eq_true_iff.mpr ⟨decide_eq_true (hsv.symm.trans hs'),?_⟩
    refine List.any_eq_true.mpr ⟨_,((iterates_toList _).mem_iff _ _).mpr ha,?_⟩
    exact (has_iff _ _).mpr ⟨_,ha'⟩
  simp only [InOrder,has,hid,isSome_none,Bool.false_or,List.all_eq_true] at h
  have hc := h (id,c) (((iterates_toList _).mem_iff _ _).mpr hg)
  simpa [hs] using hc

theorem Complete.extract (h : Complete t) (P : Platform)
    (hid : t.endpointCache.get session.sessionID = none)
    (hok : InOrder t session) : Complete (t.extract P session.sessionID (t.cachedOf session)) := by
  refine OwnedIndex.Covered.publish (fun _ _ _ _ hh => (holds_put_iff hid).mpr (.inl hh))
    (fun _ _ hm => (holds_put_iff hid).mpr (.inr ⟨rfl,rfl,hm⟩)) h ?_
    fun _ _ _ _ _ hh hm => hok.rank_le hid hh hm
  intro o rank k ep hh
  rcases (holds_put_iff hid).mp hh with hb | ⟨-,hr,hm⟩
  · exact .inl hb
  · exact .inr ⟨hr.symm,hm⟩

theorem sound_step {t' : EndpointTables} (h : Sound t)
    (hs : t.step P session = some t') : Sound t' := by
  cases hs
  unfold getOrCreateEndpoints
  split
  · exact h
  · rename_i hid
    exact (h.extract P hid).evict _

theorem complete_step {t' : EndpointTables}
    (h : Sound t ∧ Complete t) (hok : InOrder t session) (hs : t.step P session = some t') :
    Sound t' ∧ Complete t' := by
  refine ⟨sound_step h.1 hs,?_⟩
  cases hs
  unfold getOrCreateEndpoints
  split
  · exact h.2
  · rename_i hid
    exact (h.2.extract P hid hok).evict (h.1.extract P hid) _

theorem sound_new : Sound new where
  below id c h := by cases h
  oneOwner id id' c c' h := by cases h
  faces k r h := by cases h
  addrs k r h := by cases h

theorem complete_new : Complete new := by
  rintro o rank k ep ⟨id,c,h,-⟩
  cases h

theorem Sound.belongs (h : Sound t) : Belongs t := by
  intro svc addr r hg
  obtain ⟨rank,id,c,hc,hs,-,hm⟩ := h.addrs (svc,addr) r hg
  obtain ⟨hsv,ha⟩ := CachedEndpoints.mem_serviceAddrs.mp hm
  exact ⟨id,c,hc,hs,hsv.symm,ha⟩

theorem Complete.found (h : Complete t) : Found t := by
  intro id c addr ep hc ha
  obtain ⟨r,-,hg,-⟩ := h c.serial c.sessionEnd (c.serviceID,addr) ep
    ⟨id,c,hc,rfl,rfl,CachedEndpoints.mem_serviceAddrs.mpr ⟨rfl,ha⟩⟩
  exact isSome_iff_exists.mpr ⟨r,hg⟩

theorem sound_reaches {ok : EndpointTables → ChainSession → Prop}
    (h : Run.Reaches (step P) ok new t) : Sound t :=
  h.invariant Sound sound_new fun _ _ _ hs _ hst => sound_step hs hst

theorem cached_endpoints_are_indexed (P : Platform) :
    (∀ t, Run.Reaches (step P) (fun _ _ => True) new t → Belongs t) ∧
      ∀ t, Run.Reaches (step P) InOrder new t → Found t := by
  constructor
  · intro t ht
    exact (sound_reaches ht).belongs
  · intro t ht
    have hb := ht.invariant (fun t => Sound t ∧ Complete t) ⟨sound_new,complete_new⟩
      fun _ _ _ h hok hs => complete_step h hok hs
    exact hb.2.found

def sampleSession (id supplier : String) (sessionEnd : Int) : ChainSession :=
  ⟨id.toList,some ⟨"eth".toList,sessionEnd⟩,[some ⟨supplier.toList,"owner".toList⟩],
    some ((∅ : GoMap GoString (List SupplierEndpoint)).put supplier.toList
      [⟨supplier.toList,.jsonRPC,"https://rpc.example".toList⟩])⟩

def sampleAddr : EndpointAddr := "a-https://rpc.example".toList

def heldAndFound (t : EndpointTables) : Option Bool × Bool :=
  ((t.endpointCache.get "s2".toList).map fun c =>
      c.serviceID = "eth".toList && c.endpoints.has sampleAddr,
    (t.lookupEndpoint "eth".toList sampleAddr).isSome)

theorem rollover_keeps_held_session_indexed :
    ∃ t, Run.Reaches (step asciiPlatform) InOrder new t ∧ heldAndFound t = (some true,true) ∧
      Found t :=
  Run.reaches_and [sampleSession "s1" "a" 10,sampleSession "s2" "a" 20,sampleSession "s3" "b" 30]
    (by decide +kernel) fun t hr _ => (cached_endpoints_are_indexed asciiPlatform).2 t hr

theorem late_extraction_hides_held_session :
    ∃ t, Run.Reaches (step asciiPlatform) (fun _ _ => True) new t ∧
      heldAndFound t = (some true,false) ∧ ¬Found t := by
  refine Run.reaches_and
    [sampleSession "s2" "a" 20,sampleSession "s1" "a" 10,sampleSession "s3" "b" 30]
    (by decide +kernel) fun t _ hv hf => ?_
  obtain ⟨hh,hm⟩ := Prod.mk.inj hv
  obtain ⟨c,hca,hc⟩ := map_eq_some_iff.mp hh
  obtain ⟨hs,ha⟩ := Bool.and_eq_true_iff.mp hc
  obtain ⟨ep,hep⟩ := (has_iff _ _).mp ha
  have hl := hf _ c sampleAddr ep hca hep
  rw [of_decide_eq_true hs,hm] at hl
  cases hl

end EndpointTables

end SageGateway
