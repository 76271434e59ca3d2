import SageGateway.Subscription.Registry

namespace SageGateway

open List GoMap

structure Ledger where
  pending : GoMap RawID (List PendingSubscription)
  npending : Int
  inflight : GoMap RawID InflightRequest
  inflightBytes : Int
  reissue : List Frame

namespace Ledger

def subscribes (f : Frame) (_ : RawID) (queue : List PendingSubscription) : Nat :=
  queue.countP fun p => p.request = f

def requests (f : Frame) (_ : RawID) (req : InflightRequest) : Nat := if req.frame = f then 1 else 0

def count (l : Ledger) (f : Frame) : Nat :=
  l.pending.total (subscribes f) + l.inflight.total (requests f) + l.reissue.count f

end Ledger

namespace Registry

def ledger (r : Registry) : Ledger := ⟨r.pending,r.npending,r.inflight,r.inflightBytes,r.reissue⟩

variable {R : FrameReader} {now : Int}

section

variable (r : Registry)

@[simp] theorem forget_ledger (sub : Subscription) : (r.forget sub).ledger = r.ledger := by
  unfold forget
  split_ifs <;> rfl

@[simp] theorem unsubscribe_ledger (info : ClientFrameInfo) (data : Frame) :
    (r.unsubscribe info data).1.ledger = r.ledger := by
  unfold unsubscribe
  split
  · rfl
  · exact forget_ledger r _

theorem markClosed_foldl_ledger (order : List (RawID × Subscription)) :
    (order.foldl (fun r e => r.markClosed e.2.endpointID) r).ledger = r.ledger := by
  induction order generalizing r with
  | nil => rfl
  | cons e order ih => exact ih (r.markClosed e.2.endpointID)

@[simp] theorem unsubscribeAll_ledger (order : List (RawID × Subscription)) :
    (r.unsubscribeAll order).ledger = r.ledger := markClosed_foldl_ledger r order

@[simp] theorem touch_ledger (clientID : RawID) : (r.touch now clientID).ledger = r.ledger := by
  unfold touch
  split
  · split_ifs <;> rfl
  · rfl

@[simp] theorem grade_ledger (clientID : RawID) (data : Frame) :
    (r.grade R now clientID data).1.ledger = r.ledger := by
  have hr : (r.readLimits now).ledger = r.ledger := by
    unfold readLimits
    split
    · split_ifs <;> rfl
    · rfl
  unfold grade
  dsimp only
  split <;> exact hr

@[simp] theorem notify_ledger (data : Frame) (info : EndpointFrameInfo) :
    (r.notify R now data info).1.ledger = r.ledger := by
  simp [notify]
  split
  · simp
  · split
    · simp
    · split_ifs <;> rfl

@[simp] theorem completeReplay_ledger (clientID : RawID) (info : EndpointFrameInfo) :
    (r.completeReplay now clientID info).ledger = r.ledger := by
  unfold completeReplay
  split
  · split_ifs <;> rfl
  · split
    · exact forget_ledger r _
    · rfl

@[simp] theorem completeSubscribe_ledger (p : PendingSubscription)
    (info : EndpointFrameInfo) : (r.completeSubscribe now p info).ledger = r.ledger := by
  unfold completeSubscribe
  split_ifs <;> rfl

theorem replaySubs_ledger (subs : List (RawID × Subscription)) (frames : List Frame) :
    (replaySubs R now subs (r,frames)).1.ledger = r.ledger := by
  induction subs generalizing r frames with
  | nil => rfl
  | cons e subs ih =>
    simp [replaySubs]
    split_ifs <;> exact ih _ _

end

def tracksRequest (R : FrameReader) (r : Registry) (data : Frame) : Bool :=
  let id := R.jsonRPCRequestID data
  decide (id ≠ [] ∧ (r.answered id).inflight.len < maxInflightRequests ∧
    (r.answered id).inflightBytes + data.length ≤ maxInflightBytes)

def tracksSubscribe (r : Registry) (info : ClientFrameInfo) : Bool :=
  decide (info.requestID ≠ [] ∧ r.replay.has info.requestID = false ∧
    r.npending < maxTrackedSubscriptions)

def inflightCount (r : Registry) (id : RawID) (f : Frame) : Nat :=
  (r.inflight.get id).elim 0 (Ledger.requests f id)

theorem answered_inflight (r : Registry) (id : RawID) :
    (r.answered id).inflight.get id = none := by
  unfold answered
  split
  · exact get_del_self _ _
  · assumption

variable {id : RawID} {r : Registry}

theorem get_of_answered {j : RawID} {req : InflightRequest}
    (h : (r.answered id).inflight.get j = some req) : r.inflight.get j = some req := by
  unfold answered at h
  split at h
  · simp only [get_del] at h
    split_ifs at h
    exact h
  · exact h

theorem answered_of_get_none (h : r.inflight.get id = none) :
    r.answered id = r := by
  unfold answered
  rw [h]

theorem count_answered (r : Registry) (id : RawID) (f : Frame) :
    (r.answered id).ledger.count f + r.inflightCount id f = r.ledger.count f := by
  have h := total_del_add (Ledger.requests f) r.inflight id
  unfold answered inflightCount
  cases hg : r.inflight.get id with
  | none => rfl
  | some req =>
    rw [hg] at h
    simp only [ledger,Ledger.count]
    omega

theorem count_track (r : Registry) (data f : Frame) (hid : R.jsonRPCRequestID data ≠ []) :
    (r.track R now data).ledger.count f = (r.answered (R.jsonRPCRequestID data)).ledger.count f +
      if r.tracksRequest R data then [data].count f else 0 := by
  have h := total_put_add (Ledger.requests f)
    (r.answered (R.jsonRPCRequestID data)).inflight (R.jsonRPCRequestID data) ⟨data,now⟩
  rw [answered_inflight] at h
  simp [Ledger.requests] at h
  unfold track tracksRequest
  simp [hid]
  split_ifs with hc hr hr
  · grind
  · rfl
  · simp [ledger,Ledger.count]
    grind
  · grind

theorem count_addPending (r : Registry) (info : ClientFrameInfo) (data f : Frame) :
    (r.addPending info data).ledger.count f = r.ledger.count f + [data].count f := by
  have h := total_put_add (Ledger.subscribes f) r.pending info.requestID
    ((r.pending.get info.requestID).getD [] ++ [⟨info.method,info.topic,info.periodic,data⟩])
  have hq : (r.pending.get info.requestID).elim 0 (Ledger.subscribes f info.requestID) =
      ((r.pending.get info.requestID).getD []).countP fun p => p.request = f := by
    cases r.pending.get info.requestID <;> rfl
  simp [hq,Ledger.subscribes] at h
  simp [addPending,ledger,Ledger.count]
  grind

theorem count_subscribe (r : Registry) (info : ClientFrameInfo) (data f : Frame) :
    (r.subscribe info data).ledger.count f = r.ledger.count f +
      if r.tracksSubscribe info then [data].count f else 0 := by
  unfold subscribe tracksSubscribe
  split_ifs with hid hre hc hr hr hr
  all_goals first
    | exact count_addPending r info data f
    | rfl
    | grind

theorem count_popPending (r : Registry) {p : PendingSubscription}
    {rest : List PendingSubscription} (hg : r.pending.get id = some (p :: rest)) (f : Frame) :
    (r.popPending id rest).ledger.count f + [p.request].count f = r.ledger.count f := by
  have hp := total_put_add (Ledger.subscribes f) r.pending id rest
  have hdel := total_del_add (Ledger.subscribes f) r.pending id
  simp only [hg,Option.elim_some,Ledger.subscribes,countP_cons,decide_eq_true_eq] at hp hdel
  simp only [popPending,ledger,Ledger.count,count_singleton,beq_iff_eq]
  split
  · rename_i hr
    grind
  · omega

theorem count_map_frames {α : Type} (g : α → Frame) (l : List α) (f : Frame) :
    (l.map g).count f = l.countP fun a => g a = f := by
  rw [List.count,countP_map]
  exact countP_congr fun a _ => by simp

theorem count_drainPending {queues : List (RawID × List PendingSubscription)}
    (hq : r.pending.Iterates queues) (f : Frame) :
    (r.drainPending queues).2.count f = r.pending.total (Ledger.subscribes f) := by
  rw [hq.total,drainPending,count_flatMap]
  exact congrArg sum (map_congr_left fun e _ => count_map_frames _ e.2 f)

theorem count_lostRequests {requests : List (RawID × InflightRequest)}
    (hr : r.inflight.Iterates requests) (f : Frame) :
    (lostRequests requests).countP (fun req => req.frame = f) =
      r.inflight.total (Ledger.requests f) := by
  rw [hr.total,lostRequests,(perm_insertionSort _ _).countP_eq]
  clear hr
  induction requests with
  | nil => rfl
  | cons e requests ih =>
    simp only [map_cons,countP_cons,sum_cons,ih,Ledger.requests,decide_eq_true_eq]
    exact Nat.add_comm _ _

theorem count_replayAll {subs : List (RawID × Subscription)}
    {queues : List (RawID × List PendingSubscription)} {requests : List (RawID × InflightRequest)}
    (hq : r.pending.Iterates queues) (hr : r.inflight.Iterates requests) (f : Frame) :
    (r.replayAll R now subs queues requests).2.frames.count f +
        (r.replayAll R now subs queues requests).2.abandoned.count f =
      (replaySubs R now subs (r,[])).2.count f + r.ledger.count f := by
  have hl := @replaySubs_ledger R now r subs []
  have hp : (replaySubs R now subs (r,[])).1.pending = r.pending :=
    congrArg Ledger.pending hl
  have hd := @count_drainPending (replaySubs R now subs (r,[])).1 queues (hp ▸ hq) f
  have hlo := count_lostRequests hr f
  rw [countP_eq_countP_filter_add _ _ fun req => !R.isWriteRequest req.frame] at hlo
  rw [hp] at hd
  simp at hlo
  simp [replayAll,hd,count_map_frames,ledger,Ledger.count]
  omega

end Registry

end SageGateway
