import SageGateway.Healthcheck.Schedule
import SageGateway.Healthcheck.TrafficSkip

namespace SageGateway.Healthcheck.Peer

open List GoMap
open GoTime (sub zeroTime)

structure Settings where
  -- peerMaxAge, zero where the function is nil
  maxAge : GoString → Int
  serviceInterval : GoString → Int
  -- the plugin's checks, then the configured ones
  checks : GoString → List Check

structure Result where
  service : GoString
  endpoint : EndpointAddr
  siblings : List EndpointAddr
  check : GoString
  rpcType : Option RPCType
  transportError : GoString
  probedAt : Int

structure Sessions where
  configured : GoString → Bool
  probeEndpoints : GoString → RPCType → Option (List EndpointAddr)
  backendKey : GoString → EndpointAddr → RPCType → GoString

structure Applied where
  key : ProbeKey
  result : Result
  arrived : Int

structure State where
  peerSeen : GoMap ProbeKey Int
  applied : List Applied

variable (S : Settings)

def peerAgeLimit (service check : GoString) : Int :=
  if 0 < S.maxAge service then S.maxAge service
  else
    match (S.checks service).find? (·.name = check) with
    | some c => max c.interval (S.serviceInterval service)
    | none => S.serviceInterval service

def window (service : GoString) (c : Check) : Int :=
  if S.maxAge service ≤ 0 then max c.interval (S.serviceInterval service) else S.maxAge service

def record (e : State) (pk : ProbeKey) (stamp : Int) : State :=
  if (e.peerSeen.get pk).getD zeroTime < stamp then
    { e with peerSeen := e.peerSeen.put pk stamp }
  else e

def land (now : Int) (r : Result) (pk : ProbeKey) (e : State) : State :=
  let stamp := if r.probedAt = zeroTime then now else r.probedAt
  let e :=
    if sub now stamp ≤ peerAgeLimit S r.service r.check then
      { e with applied := e.applied ++ [⟨pk,r,now⟩] }
    else e
  record e pk stamp

def applyPeerResult (v : Sessions) (now : Int) (r : Result) (e : State) : State :=
  if ¬v.configured r.service then e
  else if r.transportError ≠ [] then e
  else
    let rpcType := r.rpcType.getD .jsonRPC
    match v.probeEndpoints r.service rpcType with
    | none => e
    | some eps =>
        let key := v.backendKey r.service r.endpoint rpcType
        match eps.filter fun ep => v.backendKey r.service ep rpcType = key with
        | [] => e
        | first :: rest =>
            let own := first :: rest
            let endpoint := if r.endpoint ∈ own then r.endpoint else first
            land S now { r with endpoint,siblings := own } ⟨r.service,key,r.check⟩ e

def prunePeerSeen (now : Int) (e : State) : State :=
  { e with peerSeen := e.peerSeen.filter fun _ stamp => now - maxBaselineAge ≤ stamp }

-- flag is the presence of a peer source and the peer_probe_skip flag of the service.
def coveredByPeer (e : State) (flag : Bool) (key : ProbeKey) (c : Check) (now : Int) : Bool :=
  flag && (e.peerSeen.get key).any fun stamp => sub now stamp < window S key.service c

inductive Event where
  | result (v : Sessions) (now : Int) (r : Result)
  | prune (now : Int)

def State.step (e : State) : Event → State
  | .result v now r => applyPeerResult S v now r e
  | .prune now => prunePeerSeen now e

-- The local clock is not past the decision, and no result of the check is stamped ahead of it.
def Event.Timely (check : GoString) (decided : Int) : Event → Prop
  | .result _ now r => now ≤ decided ∧ (r.check = check → r.probedAt ≤ now)
  | .prune _ => True

def Backed (key : ProbeKey) (now : Int) (e : State) : Prop :=
  ∀ stamp, e.peerSeen.get key = some stamp → ∃ arrived ≤ now, stamp ≤ arrived ∧
    (sub arrived stamp ≤ peerAgeLimit S key.service key.check →
      ∃ a ∈ e.applied, a.key = key ∧ a.arrived = arrived)

theorem sub_mono {t t' u u' : Int} (ht : t ≤ t') (hu : u' ≤ u) : sub t u ≤ sub t' u' := by
  unfold sub
  split_ifs <;> simp [GoTime.maxDuration,GoTime.minDuration] at * <;> omega

section Runs

variable {S} {key : ProbeKey} {now : Int} {e : State}

theorem Backed.record (h : Backed S key now e) {pk : ProbeKey} {stamp : Int}
    (hp : pk = key → ∃ arrived ≤ now, stamp ≤ arrived ∧
      (sub arrived stamp ≤ peerAgeLimit S key.service key.check →
        ∃ a ∈ e.applied, a.key = key ∧ a.arrived = arrived)) :
    Backed S key now (record e pk stamp) := by
  unfold Peer.record
  split_ifs
  · intro w hw
    rcases get_put_eq_some.mp hw with ⟨rfl,rfl⟩ | ⟨_,hw⟩
    · exact hp rfl
    · exact h w hw
  · exact h

theorem Backed.land (h : Backed S key now e) {t : Int} {r : Result} {pk : ProbeKey}
    (hs : pk.service = r.service) (hc : pk.check = r.check) (ht : t ≤ now)
    (hr : r.check = key.check → r.probedAt ≤ t) : Backed S key now (land S t r pk e) := by
  unfold Peer.land
  generalize hat : (if r.probedAt = zeroTime then t else r.probedAt) = stamp
  have hle : pk = key → stamp ≤ t := fun hk => by
    rw [← hat]
    split_ifs
    · exact le_rfl
    · exact hr (by rw [← hc,hk])
  dsimp only
  split_ifs with hlim
  · refine Backed.record (fun w hw => ?_) fun hk =>
      ⟨t,ht,hle hk,fun _ => ⟨_,mem_append_right _ (mem_singleton_self _),hk,rfl⟩⟩
    obtain ⟨arr,h₁,h₂,h₃⟩ := h w hw
    refine ⟨arr,h₁,h₂,fun hl => ?_⟩
    obtain ⟨a,ha,hk⟩ := h₃ hl
    exact ⟨a,mem_append_left _ ha,hk⟩
  · rw [← hs,← hc] at hlim
    exact h.record fun hk => ⟨t,ht,hle hk,fun hl => absurd (hk ▸ hl) hlim⟩

theorem Backed.step (h : Backed S key now e) {ev : Event} (ht : ev.Timely key.check now) :
    Backed S key now (e.step S ev) := by
  cases ev with
  | prune t =>
    intro stamp hat
    simp [State.step,prunePeerSeen,get_filter] at hat
    exact h stamp hat.1
  | result v t r =>
    simp only [State.step,applyPeerResult]
    split
    · exact h
    split
    · exact h
    split
    · exact h
    split
    · exact h
    · exact h.land rfl rfl ht.1 ht.2

theorem Backed.run {events : List Event} (h : Backed S key now e)
    (ht : ∀ ev ∈ events, ev.Timely key.check now) :
    Backed S key now (events.foldl (State.step S) e) := by
  induction events generalizing e with
  | nil => exact h
  | cons ev events ih =>
    obtain ⟨h₀,ht⟩ := forall_mem_cons.mp ht
    exact ih (h.step h₀) ht

end Runs

theorem skip_backed_by_applied_result (events : List Event) (flag : Bool) (key : ProbeKey)
    (c : Check) (now : Int) (hname : c.name = key.check)
    (hwindow : window S key.service c ≤ peerAgeLimit S key.service c.name)
    (ht : ∀ ev ∈ events, ev.Timely key.check now)
    (hcov : coveredByPeer S (events.foldl (State.step S) ⟨∅,[]⟩) flag key c now = true) :
    ∃ a ∈ (events.foldl (State.step S) ⟨∅,[]⟩).applied, a.key = key ∧ a.arrived ≤ now ∧
      sub now a.arrived < window S key.service c := by
  have hb : Backed S key now (events.foldl (State.step S) ⟨∅,[]⟩) :=
    Backed.run (fun _ h => by simp at h) ht
  generalize events.foldl (State.step S) ⟨∅,[]⟩ = e at hb hcov
  rw [coveredByPeer,Bool.and_eq_true,Option.any_eq_true] at hcov
  obtain ⟨_,stamp,hat,hlt⟩ := hcov
  obtain ⟨arr,harr,hle,happ⟩ := hb stamp hat
  have hlt := of_decide_eq_true hlt
  have hlim := (sub_mono harr le_rfl).trans (hlt.le.trans hwindow)
  obtain ⟨a,ha,hk,rfl⟩ := happ (hname ▸ hlim)
  exact ⟨a,ha,hk,harr,(sub_mono le_rfl hle).trans_lt hlt⟩

def chainId (interval : Int) : Check := ⟨"chain_id".toList,interval,false⟩

def minuteChecks (intervals : List Int) : Settings :=
  ⟨fun _ => 0,fun _ => GoTime.minute,fun _ => intervals.map chainId⟩

def alpha : EndpointAddr := "s1-https://alpha".toList

def alphaKey : ProbeKey := ⟨"eth".toList,"https://alpha".toList,"chain_id".toList⟩

def oneBackend : Sessions := ⟨fun _ => true,fun _ _ => some [alpha],fun _ _ _ => alphaKey.backend⟩

def stamped (now probedAt : Int) : Event :=
  .result oneBackend now ⟨alphaKey.service,alpha,[],alphaKey.check,none,[],probedAt⟩

def after (intervals : List Int) (events : List Event) : State :=
  events.foldl (State.step (minuteChecks intervals)) ⟨∅,[]⟩

-- The first is too old to be applied, the third is older than the second and comes after it.
def threeResults : List Event :=
  [stamped (3 * GoTime.minute) GoTime.minute,
    stamped (190 * GoTime.second) (185 * GoTime.second),
    stamped (200 * GoTime.second) (170 * GoTime.second)]

theorem fresh_result_covers :
    (after [0] threeResults).applied.map (·.arrived) = [190 * GoTime.second,200 * GoTime.second] ∧
      ∃ a ∈ (after [0] threeResults).applied, a.key = alphaKey ∧
        a.arrived ≤ 4 * GoTime.minute ∧ sub (4 * GoTime.minute) a.arrived < GoTime.minute := by
  have ht : ∀ ev ∈ threeResults, ev.Timely alphaKey.check (4 * GoTime.minute) := by
    simp [threeResults,stamped,Event.Timely,GoTime.minute,GoTime.second]
  exact ⟨by decide +kernel,skip_backed_by_applied_result (minuteChecks [0]) threeResults true
    alphaKey (chainId 0) (4 * GoTime.minute) rfl (by decide) ht (by decide +kernel)⟩

-- A stamp ahead of the clock covers long after its arrival; a second check of one name, with a
-- longer interval, is covered by a result that was too old to be applied.
theorem stale_peer_covers :
    (coveredByPeer (minuteChecks [0]) (after [0] [stamped 0 GoTime.hour]) true alphaKey
        (chainId 0) (30 * GoTime.minute) = true ∧
      ∀ a ∈ (after [0] [stamped 0 GoTime.hour]).applied,
        GoTime.minute ≤ sub (30 * GoTime.minute) a.arrived) ∧
    coveredByPeer (minuteChecks [0,GoTime.hour]) (after [0,GoTime.hour]
        [stamped (2 * GoTime.minute) 1]) true alphaKey (chainId GoTime.hour)
        (3 * GoTime.minute) = true ∧
      (after [0,GoTime.hour] [stamped (2 * GoTime.minute) 1]).applied = [] :=
  ⟨⟨by decide,by decide⟩,by decide,rfl⟩

end SageGateway.Healthcheck.Peer
