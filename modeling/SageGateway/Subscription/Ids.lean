import SageGateway.Subscription.Registry
import SageGateway.Lib.Run

namespace SageGateway

structure IdView where
  active : GoMap RawID Subscription
  toClient : GoMap RawID RawID
  replay : GoMap RawID RawID
  replays : Nat

inductive IdEvent where
  | quiet
  | closed (sub : Subscription)
  | closedAll
  | orphanAck (raw : RawID)
  | refusedAck (raw : RawID) (sub : Subscription)
  | remapped (raw clientID : RawID) (sub : Subscription) (x : RawID)
  | established (sub : Subscription)
  | replayed (subs : List (RawID × Subscription))

namespace IdView

def unmap (v : IdView) (sub : Subscription) : GoMap RawID RawID :=
  if sub.endpointID ≠ sub.id then v.toClient.del sub.endpointID else v.toClient

def forget (v : IdView) (sub : Subscription) : IdView :=
  { v with active := v.active.del sub.id, toClient := v.unmap sub }

def remap (v : IdView) (clientID : RawID) (sub : Subscription) (x : RawID) : IdView :=
  { v with
    toClient := if x ≠ sub.id then (v.unmap sub).put x sub.id else v.unmap sub
    active := v.active.put clientID { sub with endpointID := x } }

def assigned (R : FrameReader) : Nat → List (RawID × Subscription) → List (RawID × RawID)
  | _, [] => []
  | n, (clientID,sub) :: rest =>
      if (R.jsonRPCRequestIDSpan sub.request).len = 0 then assigned R n rest
      else (rawReplayID (n + 1),clientID) :: assigned R (n + 1) rest

def apply (R : FrameReader) (v : IdView) : IdEvent → IdView
  | .quiet => v
  | .closed sub => v.forget sub
  | .closedAll => { v with active := ∅, toClient := ∅ }
  | .orphanAck raw => { v with replay := v.replay.del raw }
  | .refusedAck raw sub => { v with replay := v.replay.del raw }.forget sub
  | .remapped raw clientID sub x => { v with replay := v.replay.del raw }.remap clientID sub x
  | .established sub => { v with active := v.active.put sub.id sub }
  | .replayed subs =>
      { v with
        replay := v.replay.putAll (assigned R v.replays subs)
        replays := v.replays + (assigned R v.replays subs).length }

end IdView

def IdEvent.Fits (v : IdView) : IdEvent → Prop
  | .closed sub => ∃ c, v.active.get c = some sub
  | .refusedAck _ sub => ∃ c, v.active.get c = some sub
  | .remapped raw c sub _ => v.active.get c = some sub ∧ v.replay.get raw = some c
  | .established sub => sub.endpointID = sub.id
  | .replayed subs => v.active.Iterates subs
  | _ => True

namespace Registry

def view (r : Registry) : IdView := ⟨r.active,r.toClient,r.replay,r.replays⟩

def ackEvent (now : Int) (r : Registry) (info : EndpointFrameInfo) : IdEvent :=
  match r.replay.get info.requestID with
  | some clientID =>
      match r.active.get clientID with
      | none => .orphanAck info.requestID
      | some sub =>
          if info.isError ∨ info.subscriptionID = [] then .refusedAck info.requestID sub
          else .remapped info.requestID clientID sub info.subscriptionID
  | none =>
      match (r.pending.get info.requestID).getD [] with
      | [] => .quiet
      | p :: _ =>
          if info.isError ∨ info.subscriptionID = [] then .quiet
          else if maxTrackedSubscriptions ≤ r.active.len then .quiet
          else .established ⟨info.subscriptionID,info.subscriptionID,p.method,p.topic,p.periodic,
            p.request,now⟩

def idEvent (R : FrameReader) (r : Registry) : Act → IdEvent
  | .client _ _ data _ =>
      match (R.classifyClientFrame data).action with
      | .unsubscribe =>
          match r.active.get (R.classifyClientFrame data).subscriptionID with
          | some sub => .closed sub
          | none => .quiet
      | .unsubscribeAll => .closedAll
      | _ => .quiet
  | .endpoint now data =>
      match (R.classifyEndpointFrame data).kind with
      | .response => r.ackEvent now (R.classifyEndpointFrame data)
      | _ => .quiet
  | .replay _ subs _ _ => .replayed subs
  | .reissue _ => .quiet

section Views

variable (R : FrameReader) (now : Int) (r : Registry)

theorem view_forget (sub : Subscription) : (r.forget sub).view = r.view.forget sub := by
  unfold forget IdView.forget IdView.unmap
  split_ifs <;> rfl

theorem answered_eq (id : RawID) :
    ∃ m b, r.answered id = { r with inflight := m, inflightBytes := b } := by
  unfold answered
  split
  · exact ⟨_,_,rfl⟩
  · exact ⟨r.inflight,r.inflightBytes,rfl⟩

@[simp] theorem view_answered (id : RawID) : (r.answered id).view = r.view := by
  obtain ⟨m,b,h⟩ := r.answered_eq id
  rw [h]
  rfl

@[simp] theorem view_track (data : Frame) : (r.track R now data).view = r.view := by
  unfold track
  dsimp only
  split_ifs
  · rfl
  · exact r.view_answered _
  · exact r.view_answered _

@[simp] theorem view_subscribe (info : ClientFrameInfo) (data : Frame) :
    (r.subscribe info data).view = r.view := by
  unfold subscribe
  split_ifs <;> rfl

theorem view_unsubscribeAll (order : List (RawID × Subscription)) :
    (r.unsubscribeAll order).view = { r.view with active := ∅, toClient := ∅ } := by
  have h : ∀ r : Registry,
      (order.foldl (fun r e => r.markClosed e.2.endpointID) r).view = r.view := by
    induction order with
    | nil => exact fun _ => rfl
    | cons e order ih => exact fun r => ih _
  have hr := h r
  simp [view,IdView.mk.injEq] at hr
  simp [unsubscribeAll,view,hr.2.2.1,hr.2.2.2]

@[simp] theorem view_touch (id : RawID) : (r.touch now id).view = r.view := by
  unfold touch
  split
  · split_ifs <;> rfl
  · rfl

@[simp] theorem view_grade (id : RawID) (data : Frame) :
    (r.grade R now id data).1.view = r.view := by
  have h : (r.readLimits now).view = r.view := by
    unfold readLimits
    split
    · split_ifs <;> rfl
    · rfl
  unfold grade
  dsimp only
  split <;> exact h

@[simp] theorem view_notify (data : Frame) (info : EndpointFrameInfo) :
    (r.notify R now data info).1.view = r.view := by
  unfold notify
  split
  · simp
  · split
    · simp
    · split_ifs <;> rfl

theorem view_completeReplay (clientID : RawID) (info : EndpointFrameInfo) :
    (r.completeReplay now clientID info).view =
      match r.active.get clientID with
      | none => r.view
      | some sub =>
          if info.isError ∨ info.subscriptionID = [] then r.view.forget sub
          else r.view.remap clientID sub info.subscriptionID := by
  unfold completeReplay
  cases r.active.get clientID with
  | none =>
    split_ifs <;> rfl
  | some sub =>
    by_cases h : info.isError ∨ info.subscriptionID = []
    · simpa [if_pos h] using r.view_forget sub
    · simp only [if_neg h]
      rfl

theorem view_respond (data : Frame) (info : EndpointFrameInfo) :
    (r.respond now data info).1.view = r.view.apply R (r.ackEvent now info) := by
  obtain ⟨m,b,h⟩ := r.answered_eq info.requestID
  unfold respond ackEvent
  rw [h]
  dsimp only
  cases hr : r.replay.get info.requestID with
  | some clientID =>
    simp [view_completeReplay]
    cases ha : r.active.get clientID with
    | none => rfl
    | some sub =>
      by_cases he : info.isError ∨ info.subscriptionID = []
      · simp [if_pos he]
        rfl
      · simp [if_neg he]
        rfl
  | none =>
    cases hq : (r.pending.get info.requestID).getD [] with
    | nil => rfl
    | cons p rest =>
      simp [completeSubscribe,popPending]
      split_ifs <;> rfl

theorem view_replaySubs (subs : List (RawID × Subscription)) (frames : List Frame) :
    (replaySubs R now subs (r,frames)).1.view = r.view.apply R (.replayed subs) := by
  induction subs generalizing r frames with
  | nil => rfl
  | cons e subs ih =>
    obtain ⟨clientID,sub⟩ := e
    by_cases h : (R.jsonRPCRequestIDSpan sub.request).len = 0
    · simp [replaySubs,if_pos h,ih]
      simp [IdView.apply,IdView.assigned,if_pos h]
    · simp [replaySubs,if_neg h,ih]
      simp [IdView.apply,IdView.assigned,if_neg h,view]
      simp [GoMap.putAll]
      omega

end Views

theorem view_step {R : FrameReader} {r r' : Registry} {a : Act} (h : r.step R a = some r') :
    r'.view = r.view.apply R (r.idEvent R a) := by
  cases a with
  | client now order data tracked =>
    obtain ⟨-,rfl⟩ := Run.guard_pos h
    unfold translateClientMember idEvent
    dsimp only
    cases (R.classifyClientFrame data).action with
    | none =>
      split_ifs
      · exact r.view_track R now data
      · rfl
    | subscribe => exact r.view_subscribe _ data
    | unsubscribe =>
      unfold unsubscribe
      cases r.active.get (R.classifyClientFrame data).subscriptionID with
      | none => rfl
      | some sub => exact r.view_forget sub
    | unsubscribeAll => exact r.view_unsubscribeAll order
  | endpoint now data =>
    cases h
    unfold translateEndpointMember idEvent
    dsimp only
    cases (R.classifyEndpointFrame data).kind with
    | other => rfl
    | response => exact r.view_respond R now data _
    | notification => exact r.view_notify R now data _
  | replay now subs queues requests =>
    obtain ⟨-,rfl⟩ := Run.guard_pos h
    exact r.view_replaySubs R now subs []
  | reissue data =>
    cases h
    unfold reissueAnswer
    dsimp only
    split_ifs
    · rfl
    · split
      · rfl
      · exact r.view_answered _

theorem ackEvent_fits (now : Int) (r : Registry) (info : EndpointFrameInfo) :
    (r.ackEvent now info).Fits r.view := by
  unfold ackEvent
  split
  · rename_i clientID hr
    split
    · exact trivial
    · rename_i sub ha
      split_ifs
      · exact ⟨clientID,ha⟩
      · exact ⟨ha,hr⟩
  · split
    · exact trivial
    · split_ifs
      · exact trivial
      · exact trivial
      · exact rfl

theorem idEvent_fits {R : FrameReader} {r r' : Registry} {a : Act} (h : r.step R a = some r') :
    (r.idEvent R a).Fits r.view := by
  cases a with
  | client now order data tracked =>
    simp [idEvent]
    split
    · split
      · rename_i sub hs
        exact ⟨_,hs⟩
      · exact trivial
    · exact trivial
    · exact trivial
  | endpoint now data =>
    simp [idEvent]
    split
    · exact ackEvent_fits now r _
    · exact trivial
  | replay now subs queues requests => exact (Option.ite_none_right_eq_some.mp h).1.1
  | reissue data => exact trivial

section Frames

variable {iter : GoMap RawID Subscription → List (RawID × Subscription)}
  (hiter : ∀ m, GoMap.Iterates m (iter m))

include hiter in
theorem clientMembers_run (R : FrameReader) (now : Int) (r : Registry) (members : List Frame) :
    ∃ acts, Run.run (step R) (fun _ _ => True) r acts = some (members.foldl
      (fun r m => (r.translateClientMember R now (iter r.active) m false).1) r) := by
  induction members generalizing r with
  | nil => exact ⟨[],rfl⟩
  | cons m members ih =>
    obtain ⟨acts,ha⟩ := ih (r.translateClientMember R now (iter r.active) m false).1
    refine ⟨.client now (iter r.active) m false :: acts,?_⟩
    simp [Run.run,step,hiter,ha]

include hiter in
theorem translateClientFrame_run (R : FrameReader) (now : Int) (r : Registry) (data : Frame) :
    ∃ acts, Run.run (step R) (fun _ _ => True) r acts =
      some (r.translateClientFrame R now iter data).1 := by
  unfold translateClientFrame
  split_ifs
  · exact clientMembers_run hiter R now r _
  · refine ⟨[.client now (iter r.active) data true],?_⟩
    simp [Run.run,step,hiter]

end Frames

theorem endpointMembers_run (R : FrameReader) (now : Int) (r : Registry) (members : List Frame) :
    ∃ acts, Run.run (step R) (fun _ _ => True) r acts =
      some (members.foldl (fun r m => (r.translateEndpointMember R now m).1) r) := by
  induction members generalizing r with
  | nil => exact ⟨[],rfl⟩
  | cons m members ih =>
    obtain ⟨acts,ha⟩ := ih (r.translateEndpointMember R now m).1
    refine ⟨.endpoint now m :: acts,?_⟩
    simp [Run.run,step,ha]

theorem translateEndpointFrame_run (R : FrameReader) (now : Int) (r : Registry) (data : Frame) :
    ∃ acts, Run.run (step R) (fun _ _ => True) r acts =
      some (r.translateEndpointFrame R now data).1 := by
  unfold translateEndpointFrame
  split_ifs
  · exact endpointMembers_run R now r _
  · exact ⟨[.endpoint now data],by simp [Run.run,step]⟩

end Registry

end SageGateway
