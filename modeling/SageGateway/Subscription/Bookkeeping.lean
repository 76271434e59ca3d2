import SageGateway.Lib.Run
import SageGateway.Subscription.FlatReader
import SageGateway.Subscription.Ledger

namespace SageGateway

open List Option GoMap

namespace Ledger

-- The two counters say what the maps hold, and the maps stay within their caps.
structure Balanced (l : Ledger) : Prop where
  npending : l.npending = l.pending.total fun _ queue => (queue.length : Int)
  pendingCap : l.npending ≤ maxTrackedSubscriptions
  queues : ∀ {id queue}, l.pending.get id = some queue → queue ≠ []
  inflightBytes : l.inflightBytes = l.inflight.total fun _ req => (req.frame.length : Int)
  bytesCap : l.inflightBytes ≤ maxInflightBytes
  inflightCap : l.inflight.len ≤ maxInflightRequests

end Ledger

namespace Registry

variable {R : FrameReader} {now : Int} {r r' : Registry}

open Ledger

theorem balanced_new (dupLimits : Option (Int → Int × Int)) :
    (Registry.new dupLimits).ledger.Balanced :=
  ⟨rfl,Int.natCast_nonneg _,nofun,rfl,Int.natCast_nonneg _,Nat.zero_le _⟩

section

variable (h : r.ledger.Balanced)

include h

theorem balanced_answered (id : RawID) : (r.answered id).ledger.Balanced := by
  cases hg : r.inflight.get id with
  | none =>
    rwa [answered_of_get_none hg]
  | some req =>
    have ht := total_del_add (fun _ req => (req.frame.length : Int)) r.inflight id
    have hb := h.inflightBytes
    have hc := h.bytesCap
    have hl := (len_del_le r.inflight id).trans h.inflightCap
    unfold answered
    rw [hg] at ht ⊢
    simp [ledger] at ht hb hc ⊢
    exact ⟨h.npending,h.pendingCap,h.queues,by dsimp only; omega,by dsimp only; omega,hl⟩

theorem balanced_track (data : Frame) : (r.track R now data).ledger.Balanced := by
  unfold track
  dsimp only
  split
  · exact h
  · have ha := balanced_answered h (R.jsonRPCRequestID data)
    split
    · exact ha
    · next hr =>
      have ht := total_put_add (fun _ req => (req.frame.length : Int))
        (r.answered (R.jsonRPCRequestID data)).inflight (R.jsonRPCRequestID data) ⟨data,now⟩
      have hl := len_put_le (r.answered (R.jsonRPCRequestID data)).inflight
        (R.jsonRPCRequestID data) ⟨data,now⟩
      have hb := ha.inflightBytes
      rw [answered_inflight] at ht
      simp [ledger] at ht hb ⊢
      refine ⟨ha.npending,ha.pendingCap,ha.queues,?_,?_,?_⟩
      · dsimp only
        omega
      · dsimp only
        omega
      · dsimp only
        omega

theorem balanced_addPending (hr : r.npending < maxTrackedSubscriptions)
    (info : ClientFrameInfo) (data : Frame) : (r.addPending info data).ledger.Balanced := by
  have ht := total_put_add (fun _ queue => (queue.length : Int)) r.pending info.requestID
    ((r.pending.get info.requestID).getD [] ++ [⟨info.method,info.topic,info.periodic,data⟩])
  have hq : (r.pending.get info.requestID).elim 0 (fun queue => (queue.length : Int)) =
      ((r.pending.get info.requestID).getD []).length := by
    cases r.pending.get info.requestID with
    | none | some queue => rfl
  have hc := h.npending
  rw [length_append,length_singleton] at ht
  simp [ledger,addPending] at hc ⊢
  refine ⟨?_,?_,fun {id queue} hg => ?_,h.inflightBytes,h.bytesCap,h.inflightCap⟩
  · dsimp only
    omega
  · dsimp only
    omega
  · rcases get_put_eq_some.mp hg with ⟨-,rfl⟩ | ⟨-,hg⟩
    · exact append_ne_nil_of_right_ne_nil _ (cons_ne_nil _ _)
    · exact h.queues hg

theorem balanced_subscribe (info : ClientFrameInfo) (data : Frame) :
    (r.subscribe info data).ledger.Balanced := by
  unfold subscribe
  split
  · exact h
  split
  · exact h
  split
  · exact h
  · next hr => exact balanced_addPending h (Int.not_le.mp hr) info data

theorem balanced_popPending {id : RawID} {p : PendingSubscription}
    {rest : List PendingSubscription} (hg : r.pending.get id = some (p :: rest)) :
    (r.popPending id rest).ledger.Balanced := by
  have hp := total_put_add (fun _ queue => (queue.length : Int)) r.pending id rest
  have hdel := total_del_add (fun _ queue => (queue.length : Int)) r.pending id
  have hc := h.npending
  have hca := h.pendingCap
  simp [hg] at hp hdel
  simp [ledger,popPending] at hc hca ⊢
  by_cases hr : rest = []
  · subst hr
    simp
    refine ⟨?_,?_,fun hq => ?_,h.inflightBytes,h.bytesCap,h.inflightCap⟩
    · dsimp only
      simp at hdel
      omega
    · dsimp only
      omega
    · exact h.queues (get_del_eq_some.mp hq).2
  · simp [if_neg hr]
    refine ⟨?_,?_,fun hq => ?_,h.inflightBytes,h.bytesCap,h.inflightCap⟩
    · dsimp only
      omega
    · dsimp only
      omega
    · rcases get_put_eq_some.mp hq with ⟨-,rfl⟩ | ⟨-,hq⟩
      · exact hr
      · exact h.queues hq

theorem balanced_client (order : List (RawID × Subscription)) (data : Frame) (tracked : Bool) :
    (r.translateClientMember R now order data tracked).1.ledger.Balanced := by
  unfold translateClientMember
  dsimp only
  split
  · split
    · exact balanced_track h data
    · exact h
  · exact balanced_subscribe h _ data
  · rwa [unsubscribe_ledger]
  · rwa [unsubscribeAll_ledger]

theorem balanced_respond (data : Frame) (info : EndpointFrameInfo) :
    (r.respond now data info).1.ledger.Balanced := by
  have ha := balanced_answered h info.requestID
  unfold respond
  dsimp only
  split
  · rw [completeReplay_ledger]
    exact { ha with }
  · split
    · exact ha
    · next p rest hq =>
      rw [completeSubscribe_ledger]
      refine @balanced_popPending _ ha _ p rest ?_
      cases hg : (r.answered info.requestID).pending.get info.requestID with
      | none =>
        rw [hg] at hq
        cases hq
      | some queue =>
        rw [hg] at hq
        exact congrArg some hq

theorem balanced_endpoint (data : Frame) :
    (r.translateEndpointMember R now data).1.ledger.Balanced := by
  unfold translateEndpointMember
  dsimp only
  split
  · exact h
  · exact balanced_respond h data _
  · rwa [notify_ledger]

theorem balanced_reissue (data : Frame) : (r.reissueAnswer R data).1.ledger.Balanced := by
  unfold reissueAnswer
  dsimp only
  split
  · exact h
  · split
    · exact h
    · have ha := balanced_answered h (R.jsonRPCRequestID data)
      exact { ha with }

theorem balanced_step {a : Act} (hs : r.step R a = some r') : r'.ledger.Balanced := by
  cases a with
  | client now order data tracked =>
    obtain ⟨-,rfl⟩ := Run.guard_pos hs
    exact balanced_client h order data tracked
  | endpoint now data =>
    cases hs
    exact balanced_endpoint h data
  | replay now subs queues requests =>
    obtain ⟨-,rfl⟩ := Run.guard_pos hs
    exact ⟨rfl,Int.natCast_nonneg _,nofun,rfl,Int.natCast_nonneg _,Nat.zero_le _⟩
  | reissue data =>
    cases hs
    exact balanced_reissue h data

end

theorem count_abandoned {subs : List (RawID × Subscription)}
    {queues : List (RawID × List PendingSubscription)} {requests : List (RawID × InflightRequest)}
    (hr : r.inflight.Iterates requests) (f : Frame) :
    (r.replayAll R now subs queues requests).2.abandoned.count f =
      if R.isWriteRequest f then r.inflight.total (Ledger.requests f) else 0 := by
  rw [← count_lostRequests hr f]
  simp only [replayAll,count_map_frames,countP_filter]
  split_ifs with hw
  · refine countP_congr fun req _ => ?_
    simp
    rintro rfl
    exact hw
  · refine countP_eq_zero.mpr fun req _ => ?_
    simp only [Bool.and_eq_true,decide_eq_true_eq,not_and]
    rintro rfl
    exact hw

-- A frame is listed once for every entry that carries it: a write the endpoint may have taken is
-- abandoned, everything else is sent again behind the resubscribes.
structure ListsTracked (R : FrameReader) (r : Registry) (resubscribes : List Frame)
    (replay : Replay) : Prop where
  frames : ∀ f, replay.frames.count f = resubscribes.count f +
    r.pending.total (Ledger.subscribes f) + r.reissue.count f +
      if R.isWriteRequest f then 0 else r.inflight.total (Ledger.requests f)
  abandoned : ∀ f, replay.abandoned.count f =
    if R.isWriteRequest f then r.inflight.total (Ledger.requests f) else 0

theorem replayAll_listsTracked {subs : List (RawID × Subscription)}
    {queues : List (RawID × List PendingSubscription)} {requests : List (RawID × InflightRequest)}
    (hq : r.pending.Iterates queues) (hr : r.inflight.Iterates requests) :
    ListsTracked R r (replaySubs R now subs (r,[])).2
      (r.replayAll R now subs queues requests).2 := by
  refine ⟨fun f => ?_,count_abandoned hr⟩
  have hc := @count_replayAll R now r subs queues requests hq hr f
  have ha := @count_abandoned R now r subs queues requests hr f
  simp [ledger,Ledger.count] at hc
  split_ifs at ha ⊢ <;> omega

theorem bookkeeping_balanced (R : FrameReader) (dupLimits : Option (Int → Int × Int))
    {r : Registry} (h : Run.Reaches (step R) (fun _ _ => True) (.new dupLimits) r) :
    r.ledger.Balanced ∧ ∀ now subs queues requests, r.pending.Iterates queues →
      r.inflight.Iterates requests → ListsTracked R r (replaySubs R now subs (r,[])).2
        (r.replayAll R now subs queues requests).2 :=
  ⟨h.invariant (fun r => r.ledger.Balanced) (balanced_new dupLimits)
    fun _ _ _ hr _ hs => balanced_step hr hs,
    fun _ _ _ _ hq hr => replayAll_listsTracked hq hr⟩

def sendTransaction (id : String) : Frame :=
  "\x7b\"id\":".toList ++ id.toList ++ ",\"method\":\"sendTransaction\"\x7d".toList

theorem reconnect_lists_write_as_abandoned :
    ∃ r, Run.run (step flatReader) (fun _ _ => True) (.new none)
        [.client 0 [] (slotSubscribe "1") true,.client 1 [] (sendTransaction "2") true,
          .client 2 [] (slotSubscribe "1") true] = some r ∧
      r.npending = 2 ∧ r.inflightBytes = 35 ∧ r.ledger.Balanced ∧
      (r.replayAll flatReader 3 [] r.pending.toList r.inflight.toList).2.abandoned.count
        (sendTransaction "2") = 1 := by
  refine Run.ends_of (P := fun r => r.npending = 2 ∧ r.inflightBytes = 35 ∧
    r.inflight.total (Ledger.requests (sendTransaction "2")) = 1) _ (by decide +kernel) ?_
  rintro r hr ⟨hn,hi,ht⟩
  obtain ⟨hb,hl⟩ := bookkeeping_balanced flatReader none hr
  refine ⟨hn,hi,hb,?_⟩
  rw [(hl 3 [] _ _ (iterates_toList _) (iterates_toList _)).abandoned,ht]
  rfl

end Registry

end SageGateway
