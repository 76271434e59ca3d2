import SageGateway.Subscription.Ids
import SageGateway.Subscription.Ledger

namespace SageGateway.Owed

open List Option GoMap

def IsRequest (R : FrameReader) (id : RawID) (f : Frame) : Prop :=
  (R.classifyClientFrame f).action = .none ∧ R.jsonRPCRequestID f = id

instance (R : FrameReader) (id : RawID) (f : Frame) : Decidable (IsRequest R id f) :=
  inferInstanceAs (Decidable (_ ∧ _))

def settle (R : FrameReader) (owed : List Frame) (id : RawID) : List Frame :=
  owed.filter fun f => ¬IsRequest R id f

def acceptMember (R : FrameReader) (r : Registry) (owed : List Frame) (data : Frame)
    (tracked : Bool) : List Frame :=
  match (R.classifyClientFrame data).action with
  | .none =>
      if tracked ∧ R.jsonRPCRequestID data ≠ [] then
        settle R owed (R.jsonRPCRequestID data) ++ if r.tracksRequest R data then [data] else []
      else owed
  | .subscribe => owed ++ if r.tracksSubscribe (R.classifyClientFrame data) then [data] else []
  | _ => owed

def answerMember (R : FrameReader) (r : Registry) (owed : List Frame) (data : Frame) : List Frame :=
  let info := R.classifyEndpointFrame data
  if info.kind = .response ∧ r.replay.get info.requestID = none then
    match (r.pending.get info.requestID).getD [] with
    | [] => settle R owed info.requestID
    | p :: _ => (settle R owed info.requestID).erase p.request
  else owed

def acceptMembers (R : FrameReader) (now : Int)
    (iter : GoMap RawID Subscription → List (RawID × Subscription)) :
    Registry → List Frame → List Frame → List Frame
  | _, owed, [] => owed
  | r, owed, m :: ms =>
      acceptMembers R now iter (r.translateClientMember R now (iter r.active) m false).1
        (acceptMember R r owed m false) ms

def acceptFrame (R : FrameReader) (now : Int)
    (iter : GoMap RawID Subscription → List (RawID × Subscription)) (r : Registry)
    (owed : List Frame) (data : Frame) : List Frame :=
  if isJSONArray data then acceptMembers R now iter r owed (R.arrayMembers data)
  else acceptMember R r owed data true

def answerMembers (R : FrameReader) (now : Int) : Registry → List Frame → List Frame → List Frame
  | _, owed, [] => owed
  | r, owed, m :: ms =>
      answerMembers R now (r.translateEndpointMember R now m).1 (answerMember R r owed m) ms

def answerFrame (R : FrameReader) (now : Int) (r : Registry) (owed : List Frame) (data : Frame) :
    List Frame :=
  if isJSONArray data then answerMembers R now r owed (R.arrayMembers data)
  else answerMember R r owed data

def Filed (R : FrameReader) (inflight : GoMap RawID InflightRequest) : Prop :=
  ∀ id req, inflight.get id = some req → IsRequest R id req.frame

structure Covered (R : FrameReader) (l : Ledger) (owed : List Frame) (elsewhere : Frame → Nat) :
    Prop where
  filed : Filed R l.inflight
  counted : ∀ f, owed.count f ≤ l.count f + elsewhere f

def Separate (r : Registry) : Prop :=
  ∀ e ∈ r.inflight.toList, r.replay.get e.1 = none

instance (r : Registry) : Decidable (Separate r) :=
  inferInstanceAs (Decidable (∀ e ∈ _, _))

def Undisturbing (R : FrameReader) (r : Registry) (f : Frame) : Prop :=
  isJSONArray f = false → (R.classifyClientFrame f).action = .none →
    r.inflight.get (R.jsonRPCRequestID f) = none

instance (R : FrameReader) (r : Registry) (f : Frame) : Decidable (Undisturbing R r f) :=
  inferInstanceAs (Decidable (_ → _ → _))

def Retracks (R : FrameReader) (r : Registry) (f : Frame) : Prop :=
  isJSONArray f = false ∧
    match (R.classifyClientFrame f).action with
    | .none => r.tracksRequest R f = true
    | .subscribe => r.tracksSubscribe (R.classifyClientFrame f) = true
    | _ => False

instance (R : FrameReader) (r : Registry) (f : Frame) : Decidable (Retracks R r f) := by
  unfold Retracks
  split <;> infer_instance

variable {R : FrameReader} {now : Int} {r : Registry} {owed : List Frame} {extra : Frame → Nat}
  {iter : GoMap RawID Subscription → List (RawID × Subscription)}

theorem count_settle_le (owed : List Frame) (id : RawID) (f : Frame) :
    (settle R owed id).count f ≤ owed.count f := List.filter_sublist.count_le f

variable {data f : Frame} {id : RawID}

theorem count_settle_of_isRequest (h : IsRequest R id f)
    (owed : List Frame) : (settle R owed id).count f = 0 := by
  refine count_eq_zero_of_not_mem fun hm => ?_
  simp [settle,h] at hm

theorem Covered.answered (h : Covered R r.ledger owed extra) (id : RawID) :
    Covered R (r.answered id).ledger (settle R owed id) extra where
  filed j req hj := h.filed j req (Registry.get_of_answered hj)
  counted f := by
    have hc := r.count_answered id f
    have hle := count_settle_le (R := R) owed id f
    have hf := h.counted f
    cases hg : r.inflight.get id with
    | none =>
      simp [Registry.inflightCount,hg] at hc
      omega
    | some req =>
      by_cases heq : req.frame = f
      · rw [count_settle_of_isRequest (heq ▸ h.filed id req hg)]
        exact Nat.zero_le _
      · simp [Registry.inflightCount,hg,Ledger.requests,heq]
          at hc
        omega

theorem Filed.track (hf : Filed R r.inflight)
    (ha : (R.classifyClientFrame data).action = .none) :
    Filed R (r.track R now data).inflight := by
  intro id req h
  simp [Registry.track] at h
  split_ifs at h
  · exact hf id req h
  · exact hf id req (Registry.get_of_answered h)
  · simp [get_put] at h
    split_ifs at h with hid
    · cases h
      exact ⟨ha,hid.symm⟩
    · exact hf id req (Registry.get_of_answered h)

theorem subscribe_inflight (info : ClientFrameInfo) (data : Frame) :
    (r.subscribe info data).inflight = r.inflight := by
  unfold Registry.subscribe
  split_ifs <;> rfl

section

variable (h : Covered R r.ledger owed extra)

include h

theorem Covered.track
    (ha : (R.classifyClientFrame data).action = .none) (hid : R.jsonRPCRequestID data ≠ []) :
    Covered R (r.track R now data).ledger (settle R owed (R.jsonRPCRequestID data) ++
      if r.tracksRequest R data then [data] else []) extra := by
  refine ⟨Filed.track h.filed ha,fun f => ?_⟩
  have hf := (h.answered (R.jsonRPCRequestID data)).counted f
  rw [Registry.count_track r data f hid,count_append]
  split_ifs
  · omega
  · rw [count_nil]
    omega

theorem Covered.subscribe (info : ClientFrameInfo) (data : Frame) :
    Covered R (r.subscribe info data).ledger
      (owed ++ if r.tracksSubscribe info then [data] else []) extra := by
  refine ⟨?_,fun f => ?_⟩
  · rw [show (r.subscribe info data).ledger.inflight = r.inflight from subscribe_inflight _ _]
    exact h.filed
  · have hf := h.counted f
    rw [Registry.count_subscribe,count_append]
    split_ifs
    · omega
    · rw [count_nil]
      omega

theorem Covered.clientMember (order : List (RawID × Subscription)) (data : Frame) (tracked : Bool) :
    Covered R (r.translateClientMember R now order data tracked).1.ledger
      (acceptMember R r owed data tracked) extra := by
  cases ha : (R.classifyClientFrame data).action with
  | none =>
    simp [Registry.translateClientMember,acceptMember,ha]
    by_cases hid : R.jsonRPCRequestID data = []
    · have hs : r.track R now data = r := by simp [Registry.track,hid]
      simpa [hid,hs] using h
    · cases tracked with
      | false => simpa using h
      | true => simpa [hid] using h.track ha hid
  | subscribe =>
    simpa [Registry.translateClientMember,acceptMember,ha] using h.subscribe _ data
  | unsubscribe =>
    simpa [Registry.translateClientMember,acceptMember,ha,Registry.unsubscribe_ledger] using h
  | unsubscribeAll =>
    simpa [Registry.translateClientMember,acceptMember,ha,Registry.unsubscribeAll_ledger] using h

theorem Covered.clientMembers (members : List Frame) : Covered R (members.foldl
        (fun r m => (r.translateClientMember R now (iter r.active) m false).1) r).ledger
      (acceptMembers R now iter r owed members) extra := by
  induction members generalizing r owed with
  | nil => exact h
  | cons m members ih => exact ih (h.clientMember (iter r.active) m false)

theorem Covered.clientFrame (data : Frame) :
    Covered R (r.translateClientFrame R now iter data).1.ledger
      (acceptFrame R now iter r owed data) extra := by
  unfold Registry.translateClientFrame acceptFrame
  split_ifs
  · exact h.clientMembers _
  · exact h.clientMember _ data true

end

theorem Separate.get (hs : Separate r) {raw : RawID}
    (h : r.replay.get id = some raw) : r.inflight.get id = none := by
  refine eq_none_iff_forall_ne_some.mpr fun req hr => ?_
  have hm : (id,req) ∈ r.inflight.toList :=
    ((iterates_toList r.inflight).mem_iff id req).mpr hr
  rw [hs _ hm] at h
  cases h

theorem answered_pending (id : RawID) : (r.answered id).pending = r.pending := by
  obtain ⟨m,b,h⟩ := r.answered_eq id
  rw [h]

theorem answered_replay (id : RawID) : (r.answered id).replay = r.replay := by
  obtain ⟨m,b,h⟩ := r.answered_eq id
  rw [h]

theorem Covered.popPending (h : Covered R r.ledger owed extra)
    {p : PendingSubscription} {rest : List PendingSubscription}
    (hg : r.pending.get id = some (p :: rest)) :
    Covered R (r.popPending id rest).ledger (owed.erase p.request) extra := by
  refine ⟨h.filed,fun f => ?_⟩
  have hp := Registry.count_popPending r hg f
  have hf := h.counted f
  rw [count_singleton] at hp
  rw [count_erase]
  omega

theorem Covered.endpointMember (h : Covered R r.ledger owed extra) (hs : Separate r)
    (data : Frame) :
    Covered R (r.translateEndpointMember R now data).1.ledger
    (answerMember R r owed data) extra := by
  simp [Registry.translateEndpointMember,answerMember]
  cases hk : (R.classifyEndpointFrame data).kind with
  | other | notification => simpa using h
  | response =>
    have ha := h.answered (R.classifyEndpointFrame data).requestID
    simp [Registry.respond,answered_replay,answered_pending]
    cases hr : r.replay.get (R.classifyEndpointFrame data).requestID with
    | some clientID =>
      simp [Registry.completeReplay_ledger,Registry.answered_of_get_none (hs.get hr)]
      exact h
    | none =>
      cases hq : r.pending.get (R.classifyEndpointFrame data).requestID with
      | none => exact ha
      | some queue =>
        cases queue with
        | nil => exact ha
        | cons p rest =>
          simp [Registry.completeSubscribe_ledger]
          exact ha.popPending (by rw [answered_pending,hq])

theorem endpointMember_inflight {req : InflightRequest}
    (h : (r.translateEndpointMember R now data).1.inflight.get id = some req) :
    r.inflight.get id = some req := by
  change (r.translateEndpointMember R now data).1.ledger.inflight.get id = some req at h
  simp [Registry.translateEndpointMember] at h
  split at h
  · exact h
  · simp [Registry.respond] at h
    split at h
    · rw [Registry.completeReplay_ledger] at h
      exact Registry.get_of_answered h
    · split at h
      · exact Registry.get_of_answered h
      · rw [Registry.completeSubscribe_ledger] at h
        exact Registry.get_of_answered h
  · rwa [Registry.notify_ledger] at h

theorem ackEvent_ne_replayed (info : EndpointFrameInfo) (subs : List (RawID × Subscription)) :
    r.ackEvent now info ≠ .replayed subs := by
  unfold Registry.ackEvent
  split
  · split
    · simp
    · split_ifs <;> simp
  · split
    · simp
    · split_ifs <;> simp

theorem endpointMember_replay (h : r.replay.get id = none) :
    (r.translateEndpointMember R now data).1.replay.get id = none := by
  have hv := @Registry.view_step R r _ (.endpoint now data) rfl
  have hne : ∀ subs, r.idEvent R (.endpoint now data) ≠ .replayed subs := by
    intro subs
    simp [Registry.idEvent]
    split
    · exact ackEvent_ne_replayed _ subs
    · simp
  change (r.translateEndpointMember R now data).1.view.replay.get id = none
  rw [hv]
  cases hev : r.idEvent R (.endpoint now data) with
  | replayed subs => exact absurd hev (hne subs)
  | _ => simp [IdView.apply,IdView.forget,IdView.remap,get_del,Registry.view,h]

theorem Separate.endpointMember (hs : Separate r) (data : Frame) :
    Separate (r.translateEndpointMember R now data).1 := by
  rintro ⟨id,req⟩ hm
  have hg := ((iterates_toList _).mem_iff id req).mp hm
  exact endpointMember_replay
    (hs _ (((iterates_toList _).mem_iff id req).mpr (endpointMember_inflight hg)))

theorem Covered.endpointMembers (h : Covered R r.ledger owed extra) (hs : Separate r)
    (members : List Frame) :
    Covered R (members.foldl (fun r m => (r.translateEndpointMember R now m).1) r).ledger
      (answerMembers R now r owed members) extra := by
  induction members generalizing r owed with
  | nil => exact h
  | cons m members ih => exact ih (h.endpointMember hs m) (hs.endpointMember m)

theorem Covered.endpointFrame (h : Covered R r.ledger owed extra) (hs : Separate r)
    (data : Frame) :
    Covered R (r.translateEndpointFrame R now data).1.ledger (answerFrame R now r owed data)
      extra := by
  unfold Registry.translateEndpointFrame answerFrame
  split_ifs
  · exact h.endpointMembers hs _
  · exact h.endpointMember hs data

theorem Covered.reissueAnswer (h : Covered R r.ledger owed extra) (data : Frame) :
    Covered R (r.reissueAnswer R data).1.ledger owed extra := by
  simp [Registry.reissueAnswer]
  split_ifs with hid
  · exact h
  · cases hg : r.inflight.get (R.jsonRPCRequestID data) with
    | none => exact h
    | some req =>
      refine ⟨fun j req' hj => h.filed j req' (Registry.get_of_answered hj),fun f => ?_⟩
      have hc := r.count_answered (R.jsonRPCRequestID data) f
      have hf := h.counted f
      simp [Registry.inflightCount,hg,Ledger.requests,Registry.ledger,Ledger.count] at hc hf
      simp only [Registry.ledger,Ledger.count,count_append,count_singleton,beq_iff_eq]
      omega

theorem count_members_le (r : Registry) (members : List Frame) (g : Frame) :
    r.ledger.count g ≤ (members.foldl
      (fun r m => (r.translateClientMember R now (iter r.active) m false).1) r).ledger.count g := by
  induction members generalizing r with
  | nil => exact le_rfl
  | cons m members ih =>
    refine le_trans ?_ (ih _)
    simp [Registry.translateClientMember]
    split
    · exact le_rfl
    · rw [Registry.count_subscribe]
      exact Nat.le_add_right _ _
    · rw [Registry.unsubscribe_ledger]
    · rw [Registry.unsubscribeAll_ledger]

theorem count_retrack_le (hd : Undisturbing R r f) (g : Frame) :
    r.ledger.count g + (if Retracks R r f then [f].count g else 0) ≤
      (r.translateClientFrame R now iter f).1.ledger.count g := by
  unfold Registry.translateClientFrame
  by_cases ha : isJSONArray f = true
  · rw [if_pos ha,if_neg fun hre => Bool.false_ne_true (hre.1.symm.trans ha)]
    exact count_members_le r _ g
  · have ha' : isJSONArray f = false := Bool.not_eq_true _ ▸ ha
    rw [if_neg ha]
    cases hac : (R.classifyClientFrame f).action with
    | none =>
      simp only [Registry.translateClientMember,Retracks,hac,ha',true_and]
      by_cases hid : R.jsonRPCRequestID f = []
      · simp [Registry.tracksRequest,Registry.track,hid]
      · rw [if_true,Registry.count_track r f g hid,Registry.answered_of_get_none (hd ha' hac)]
    | subscribe =>
      simp [Registry.translateClientMember,Retracks,hac,ha']
      rw [Registry.count_subscribe]
    | unsubscribe | unsubscribeAll => simp [Registry.translateClientMember,Retracks,hac]

theorem Covered.drop (h : Covered R r.ledger owed extra) {frames : List Frame}
    {extra' : Frame → Nat} (hx : ∀ g, extra' g + frames.count g = extra g)
    (hgo : ∀ f ∈ frames, f ∉ owed) : Covered R r.ledger owed extra' := by
  refine ⟨h.filed,fun g => ?_⟩
  have hg := h.counted g
  have hxg := hx g
  by_cases hm : g ∈ frames
  · rw [count_eq_zero_of_not_mem (hgo g hm)]
    exact Nat.zero_le _
  · rw [count_eq_zero_of_not_mem hm] at hxg
    omega

theorem Covered.retrack (h : Covered R r.ledger owed extra) {extra' : Frame → Nat}
    (hx : ∀ g, extra' g + [f].count g = extra g) (hd : Undisturbing R r f)
    (hok : Retracks R r f ∨ f ∉ owed) :
    Covered R (r.translateClientFrame R now iter f).1.ledger owed extra' := by
  refine ⟨(@Covered.clientFrame R now r owed extra iter h f).filed,fun g => ?_⟩
  have hle := @count_retrack_le R now r iter f hd g
  rcases hok with hre | hgo
  · have hg := h.counted g
    have hxg := hx g
    rw [if_pos hre] at hle
    omega
  · have hdr := (h.drop hx fun f' hf' => mem_singleton.mp hf' ▸ hgo).counted g
    omega

theorem count_diff (owed gone : List Frame) (f : Frame) :
    (owed.diff gone).count f = owed.count f - gone.count f := by
  induction gone generalizing owed with
  | nil => rfl
  | cons g gone ih =>
    rw [diff_cons,ih,count_erase,count_cons]
    omega

theorem Covered.replayAll (h : Covered R r.ledger owed extra)
    {subs : List (RawID × Subscription)} {queues : List (RawID × List PendingSubscription)}
    {requests : List (RawID × InflightRequest)} (hq : r.pending.Iterates queues)
    (hr : r.inflight.Iterates requests) :
    Covered R (r.replayAll R now subs queues requests).1.ledger
      (owed.diff (r.replayAll R now subs queues requests).2.abandoned)
      fun f => extra f + (r.replayAll R now subs queues requests).2.frames.count f := by
  constructor
  · intro id req hg
    simp [Registry.replayAll,Registry.ledger] at hg
  · intro f
    have hc := @Registry.count_replayAll R now r subs queues requests hq hr f
    have hf := h.counted f
    rw [count_diff]
    omega

end SageGateway.Owed
