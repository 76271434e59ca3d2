import SageGateway.Drain.Effects
import Mathlib.Algebra.Order.Group.Multiset

namespace SageGateway.Drain

open List Option GoMap

structure Write where
  entry : Entry
  gen : Nat
  result : Option WriteResult
  deriving DecidableEq

def Write.ofKey (k : Key) (w : Write) : Multiset Write := if w.entry.key = k then {w} else 0

theorem Write.ofKey_pos {k : Key} {w : Write} (h : w.entry.key = k) : w.ofKey k = {w} := if_pos h

theorem Write.ofKey_neg {k : Key} {w : Write} (h : w.entry.key ≠ k) : w.ofKey k = 0 := if_neg h

theorem Write.mem_ofKey {k : Key} {w : Write} (h : w.entry.key = k) : w ∈ w.ofKey k := by
  rw [ofKey_pos h]
  exact Multiset.mem_singleton_self w

def Retry.unsent (r : Retry) : Write := ⟨r.entry,r.gen,none⟩

def Retry.sent (r : Retry) (result : WriteResult) : Write := ⟨r.entry,r.gen,some result⟩

def Call.writes (k : Key) : Call → Multiset Write
  | .writing e gen => (Retry.unsent ⟨e,gen⟩).ofKey k
  | .written e gen result => (Retry.sent ⟨e,gen⟩ result).ofKey k
  | _ => 0

def Call.dels (k : Key) : Call → Nat
  | .deleting k' => if k' = k then 1 else 0
  | .undoing e _ => if e.key = k then 1 else 0
  | _ => 0

def retryWrites (k : Key) (todo : List Retry) : Multiset Write :=
  (todo.map fun r => r.unsent.ofKey k).sum

def Refresh.writes (k : Key) : Refresh → Multiset Write
  | .retrying _ todo => retryWrites k todo
  | .retried _ r result todo => (r.sent result).ofKey k + retryWrites k todo
  | .undoing _ _ todo => retryWrites k todo
  | _ => 0

def Refresh.dels (k : Key) : Refresh → Nat
  | .undoing _ k' _ => if k' = k then 1 else 0
  | _ => 0

@[ext] structure KeyView where
  record : Option KeyState
  writes : Multiset Write
  dels : Nat

inductive KeyEvent where
  | quiet
  | beganSet (e : Entry)
  | beganRelease
  | sent (r : Retry) (result : WriteResult)
  | finished (r : Retry) (result : WriteResult)
  | took (now : Int)
  | deleted
  deriving DecidableEq

namespace KeyView

def state (v : KeyView) : KeyState := v.record.getD .zero

def taken (now : Int) (record : Option KeyState) : Multiset Write :=
  match record with
  | some st =>
      if st.pending = true ∧ now < st.entry.untilAt then {Retry.unsent ⟨st.entry,st.gen⟩} else 0
  | none => 0

def apply (v : KeyView) : KeyEvent → KeyView
  | .quiet => v
  | .beganSet e =>
      { v with
        record := some (v.state.beginSet e)
        writes := {Retry.unsent ⟨e,(v.state.beginSet e).gen⟩} + v.writes }
  | .beganRelease => { v with record := v.state.beginRelease.settled, dels := v.dels + 1 }
  | .sent r result => { v with writes := {r.sent result} + v.writes.erase r.unsent }
  | .finished r result =>
      { record := (v.state.finish r.entry r.gen result).1.settled
        writes := v.writes.erase (r.sent result)
        dels := v.dels + if (v.state.finish r.entry r.gen result).2.compensate then 1 else 0 }
  | .took now =>
      { v with
        record := v.record.bind (KeyState.taken now)
        writes := v.writes + taken now v.record }
  | .deleted => { v with dels := v.dels - 1 }

end KeyView

def KeyState.OwnedBy (k : Key) (st : KeyState) : Prop := st.entry.key = k ∨ st.entry = zeroEntry

theorem KeyState.OwnedBy.key_of_live {k : Key} {st : KeyState} (h : st.OwnedBy k) {now : Int}
    (hz : zeroTime ≤ now) (hl : now < st.entry.untilAt) : st.entry.key = k := by
  rcases h with hk | hn
  · exact hk
  · rw [hn] at hl
    exact absurd hl (not_lt.mpr hz)

theorem retryWrites_takePending (k : Key) {now : Int} (hz : zeroTime ≤ now)
    {order : List (Key × KeyState)} (ho : ∀ e ∈ order, e.2.OwnedBy e.1) (keys : KeyStates) :
    retryWrites k (KeyStates.takePending now order keys).2 =
      (order.map fun e => if e.1 = k then KeyView.taken now (some e.2) else 0).sum := by
  induction order generalizing keys with
  | nil => rfl
  | cons e order ih =>
    obtain ⟨j,st⟩ := e
    have hr : ∀ e ∈ order, e.2.OwnedBy e.1 := fun e he => ho e (.tail _ he)
    unfold KeyStates.takePending
    by_cases hp : st.pending = true
    · by_cases hl : now < st.entry.untilAt
      · have how : st.entry.key = j := (ho _ (.head _)).key_of_live hz hl
        rw [if_pos hp,if_pos hl]
        simp [retryWrites]
        rw [← retryWrites,ih hr]
        simp [KeyView.taken,hp,hl,Write.ofKey,Retry.unsent,how]
      · rw [if_pos hp,if_neg hl,ih hr]
        simp [KeyView.taken,hl]
    · rw [if_neg hp,ih hr]
      simp [KeyView.taken,hp]

namespace Fleet

def view (k : Key) (s : Fleet Unit) : KeyView where
  record := GoMap.get (s.replicas ()).keys k
  writes := s.calls.total (fun _ c => c.2.writes k) + (s.replicas ()).refresh.writes k
  dels := s.calls.total (fun _ c => c.2.dels k) + (s.replicas ()).refresh.dels k

def beginEvent (k : Key) (s : Fleet Unit) (n : Nat) : KeyEvent :=
  match s.calls.get n with
  | some (_,.setting e) =>
      if e.key = k then if e.untilAt ≤ s.clock then .beganRelease else .beganSet e else .quiet
  | some (_,.releasing k') => if k' = k then .beganRelease else .quiet
  | _ => .quiet

def keyEvent (C : Codec) (k : Key) (s : Fleet Unit) : Act Unit → KeyEvent
  | .begin n => beginEvent k s n
  | .send n fate =>
      match s.calls.get n with
      | some (_,.writing e gen) =>
          if e.key = k then .sent ⟨e,gen⟩ (s.propagate C e fate).2 else .quiet
      | _ => .quiet
  | .finish n =>
      match s.calls.get n with
      | some (_,.written e gen result) => if e.key = k then .finished ⟨e,gen⟩ result else .quiet
      | _ => .quiet
  | .hdel n _ =>
      match s.calls.get n with
      | some (_,.deleting k') => if k' = k then .deleted else .quiet
      | some (_,.undoing e _) => if e.key = k then .deleted else .quiet
      | _ => .quiet
  | .take _ _ =>
      match (s.replicas ()).refresh with
      | .parsed run => .took run.now
      | _ => .quiet
  | .resend _ fate =>
      match (s.replicas ()).refresh with
      | .retrying _ (r :: _) =>
          if r.entry.key = k then .sent r (s.propagate C r.entry fate).2 else .quiet
      | _ => .quiet
  | .refinish _ =>
      match (s.replicas ()).refresh with
      | .retried _ r result _ => if r.entry.key = k then .finished r result else .quiet
      | _ => .quiet
  | .undo _ _ =>
      match (s.replicas ()).refresh with
      | .undoing _ k' _ => if k' = k then .deleted else .quiet
      | _ => .quiet
  | _ => .quiet

variable {C : Codec} {k : Key} {s s' : Fleet Unit}

theorem setReplica_self (s : Fleet Unit) (i : Unit) (r : Replica) :
    (s.setReplica i r).replicas () = r := by
  cases i
  simp [setReplica]

theorem setKeys_keys (s : Fleet Unit) (i : Unit) (keys : KeyStates) :
    ((s.setKeys i keys).replicas ()).keys = keys := by
  rw [setKeys,setReplica_self]

theorem setKeys_refresh (s : Fleet Unit) (i : Unit) (keys : KeyStates) :
    ((s.setKeys i keys).replicas ()).refresh = (s.replicas ()).refresh := by
  rw [setKeys,setReplica_self]

def otherWrites (k : Key) (s : Fleet Unit) (n : Nat) : Multiset Write :=
  (s.calls.del n).total (fun _ c => c.2.writes k) + (s.replicas ()).refresh.writes k

def otherDels (k : Key) (s : Fleet Unit) (n : Nat) : Nat :=
  (s.calls.del n).total (fun _ c => c.2.dels k) + (s.replicas ()).refresh.dels k

variable {c : Call} {fate : Fate} {n : Nat} {i : Unit}

theorem view_of_call (h : s.calls.get n = some (i,c)) :
    s.view k = ⟨GoMap.get (s.replicas ()).keys k,c.writes k + otherWrites k s n,
      c.dels k + otherDels k s n⟩ := by
  ext1
  · rfl
  · simp only [view,otherWrites,total_del_some _ h,add_assoc]
  · simp only [view,otherDels,total_del_some _ h,add_assoc]

theorem view_put {n : Nat} {i : Unit} {c : Call} (hc : s'.calls = s.calls.put n (i,c))
    (hr : (s'.replicas ()).refresh = (s.replicas ()).refresh) :
    s'.view k = ⟨GoMap.get (s'.replicas ()).keys k,c.writes k + otherWrites k s n,
      c.dels k + otherDels k s n⟩ := by
  ext1
  · rfl
  · simp only [view,otherWrites,hc,hr,total_put,add_assoc]
  · simp only [view,otherDels,hc,hr,total_put,add_assoc]

theorem view_del (hc : s'.calls = s.calls.del n)
    (hr : (s'.replicas ()).refresh = (s.replicas ()).refresh) :
    s'.view k = ⟨GoMap.get (s'.replicas ()).keys k,otherWrites k s n,otherDels k s n⟩ := by
  simp [view,otherWrites,otherDels,hc,hr]

theorem view_setKeys_setCall (s : Fleet Unit) (i : Unit) (keys : KeyStates) (n : Nat) (c : Call) :
    ((s.setKeys i keys).setCall n i c).view k =
      ⟨GoMap.get keys k,c.writes k + otherWrites k s n,c.dels k + otherDels k s n⟩ := by
  have h := @view_put k s ((s.setKeys i keys).setCall n i c) n i c rfl (setKeys_refresh s i keys)
  rwa [show (((s.setKeys i keys).setCall n i c).replicas ()).keys = keys
    from setKeys_keys s i keys] at h

theorem view_setKeys_endCall (s : Fleet Unit) (i : Unit) (keys : KeyStates) (n : Nat) :
    ((s.setKeys i keys).endCall n).view k =
      ⟨GoMap.get keys k,otherWrites k s n,otherDels k s n⟩ := by
  have h := @view_del k s ((s.setKeys i keys).endCall n) n rfl (setKeys_refresh s i keys)
  rwa [show (((s.setKeys i keys).endCall n).replicas ()).keys = keys
    from setKeys_keys s i keys] at h

theorem view_newCall {r : Replica} (hf : ¬s.calls.has n = true)
    (hg : c.writes k = 0) (hd : c.dels k = 0) (hk : r.keys = (s.replicas ()).keys)
    (hr : r.refresh = (s.replicas ()).refresh) :
    ((s.setReplica i r).setCall n i c).view k = s.view k := by
  have hn : s.calls.get n = none := not_isSome_iff_eq_none.mp hf
  have hre : ((s.setReplica i r).setCall n i c).replicas () = r := setReplica_self s i r
  rw [@view_put k s _ n i c rfl (by rw [hre,hr]),hre,hk,hg,hd,zero_add]
  simp [view,otherWrites,otherDels,total_del_none _ hn]

theorem view_beginSet {e : Entry} (h : s.calls.get n = some (i,.setting e)) :
    ((s.setKeys i ((s.replicas ()).keys.beginSet e).1).setCall n i
        (.writing e ((s.replicas ()).keys.beginSet e).2)).view k =
      (s.view k).apply (if e.key = k then .beganSet e else .quiet) := by
  rw [view_of_call h,view_setKeys_setCall,KeyStates.get_beginSet]
  split_ifs with hk hk' hk'
  · subst hk
    simp [KeyView.apply,Call.writes,Call.dels,Write.ofKey,Retry.unsent,KeyStates.beginSet,
      KeyView.state,KeyStates.state]
  · exact absurd hk.symm hk'
  · exact absurd hk'.symm hk
  · simp [KeyView.apply,Call.writes,Call.dels,Write.ofKey,Retry.unsent,hk']

theorem view_beginRelease {k' : Key}
    (h : s.calls.get n = some (i,c)) (hg : c.writes k = 0) (hd : c.dels k = 0) :
    ((s.setKeys i ((s.replicas ()).keys.beginRelease k')).setCall n i (.deleting k')).view k =
      (s.view k).apply (if k' = k then .beganRelease else .quiet) := by
  rw [view_of_call h,view_setKeys_setCall,KeyStates.get_beginRelease,hg,hd]
  split_ifs with hk hk' hk'
  · subst hk
    simp [KeyView.apply,Call.writes,Call.dels,KeyView.state,KeyStates.state,add_comm]
  · exact absurd hk.symm hk'
  · exact absurd hk'.symm hk
  · simp [KeyView.apply,Call.writes,Call.dels,hk']

theorem view_beginCall (h : s.beginCall n = some s') :
    s'.view k = (s.view k).apply (beginEvent k s n) := by
  unfold beginCall at h
  split at h
  · rename_i i e hg
    cases i
    split_ifs at h with hl
    · cases h
      rw [view_beginRelease hg rfl rfl]
      simp [beginEvent,hg,hl]
    · cases h
      rw [view_beginSet hg]
      simp [beginEvent,hg,hl]
  · rename_i i k' hg
    cases i
    cases h
    rw [view_beginRelease hg rfl rfl]
    simp [beginEvent,hg]
  · cases h

theorem apply_sent {v : KeyView} (r : Retry) (result : WriteResult) {rest : Multiset Write}
    (h : v.writes = r.unsent.ofKey k + rest) :
    v.apply (if r.entry.key = k then .sent r result else .quiet) =
      { v with writes := (r.sent result).ofKey k + rest } := by
  split_ifs with hk
  · simp only [KeyView.apply,h]
    rw [Write.ofKey_pos (w := r.sent result) hk,Write.ofKey_pos (w := r.unsent) hk,
      Multiset.singleton_add r.unsent,Multiset.erase_cons_head]
  · rw [Write.ofKey_neg (w := r.sent result) hk,← Write.ofKey_neg (w := r.unsent) hk,← h]
    rfl

theorem apply_finished {v : KeyView} (r : Retry) (result : WriteResult) {rest : Multiset Write}
    {keys : KeyStates} (hr : v.record = GoMap.get keys k)
    (hw : v.writes = (r.sent result).ofKey k + rest) :
    v.apply (if r.entry.key = k then .finished r result else .quiet) =
      ⟨GoMap.get (keys.finishWrite r.entry r.gen result).1 k,rest,
        v.dels + if r.entry.key = k ∧
          (keys.finishWrite r.entry r.gen result).2.compensate = true then 1 else 0⟩ := by
  rw [KeyStates.get_finishWrite]
  by_cases hk : r.entry.key = k
  · subst hk
    simp only [if_true,true_and,KeyView.apply,hw,KeyView.state,hr]
    rw [Write.ofKey_pos (k := r.entry.key) (w := r.sent result) rfl,Multiset.singleton_add,
      Multiset.erase_cons_head]
    rfl
  · rw [Write.ofKey_neg (w := r.sent result) hk,zero_add] at hw
    simp [KeyView.apply,hk,Ne.symm hk,← hr,← hw]

theorem view_sendCall (h : s.sendCall C n fate = some s') :
    s'.view k = (s.view k).apply (keyEvent C k s (.send n fate)) := by
  unfold sendCall at h
  split at h
  · rename_i i e gen hg
    cases h
    simp [propagate_spec i e fate,keyEvent,hg]
    rw [view_of_call hg]
    refine Eq.trans (@view_put k s _ n i _ rfl rfl) (Eq.symm ?_)
    exact apply_sent ⟨e,gen⟩ _ rfl
  · cases h

theorem view_afterFinish {e : Entry} {gen : Nat} {result : WriteResult}
    (h : s.finishCall n = some s') (hg : s.calls.get n = some (i,.written e gen result)) :
    s'.view k = ⟨GoMap.get ((s.replicas ()).keys.finishWrite e gen result).1 k,otherWrites k s n,
      otherDels k s n + if e.key = k ∧
        ((s.replicas ()).keys.finishWrite e gen result).2.compensate = true then 1 else 0⟩ := by
  unfold finishCall at h
  simp [hg] at h
  split_ifs at h with hc
  · cases h
    rw [view_setKeys_setCall]
    simp [hc,Call.writes,Call.dels,add_comm]
  · cases h
    rw [view_setKeys_endCall]
    simp [hc]

theorem view_finishCall (h : s.finishCall n = some s') :
    s'.view k = (s.view k).apply (keyEvent C k s (.finish n)) := by
  have h' := h
  unfold finishCall at h'
  split at h'
  · rename_i i e gen result hg
    have he : keyEvent C k s (.finish n) =
        if e.key = k then .finished ⟨e,gen⟩ result else .quiet := by simp [keyEvent,hg]
    rw [he,view_afterFinish h hg,view_of_call hg,apply_finished ⟨e,gen⟩ result rfl rfl]
    simp [Call.dels]
  · cases h'

theorem view_hdel_endCall (s : Fleet Unit) (fields : List GoString) (fate : Fate) (n : Nat) :
    ((s.hdelFields fields fate).endCall n).view k =
      ⟨GoMap.get (s.replicas ()).keys k,otherWrites k s n,otherDels k s n⟩ := by
  unfold hdelFields
  split_ifs
  · exact view_del rfl rfl
  · exact view_del rfl rfl

theorem view_hdelCall (h : s.hdelCall C n fate = some s') :
    s'.view k = (s.view k).apply (keyEvent C k s (.hdel n fate)) := by
  unfold hdelCall at h
  split at h
  · rename_i i k' hg
    cases h
    rw [view_of_call hg,view_hdel_endCall]
    simp [keyEvent,hg,Call.writes,Call.dels]
    split_ifs <;> simp [KeyView.apply]
  · rename_i i e result hg
    cases h
    rw [view_of_call hg,view_hdel_endCall]
    simp [keyEvent,hg,Call.writes,Call.dels]
    split_ifs <;> simp [KeyView.apply]
  · cases h

theorem view_setReplica (s : Fleet Unit) (i : Unit) (r : Replica) :
    (s.setReplica i r).view k = ⟨GoMap.get r.keys k,
      s.calls.total (fun _ c => c.2.writes k) + r.refresh.writes k,
      s.calls.total (fun _ c => c.2.dels k) + r.refresh.dels k⟩ := by
  have hr := setReplica_self s i r
  ext1
  · simp [view,hr]
  · rfl
  · rfl

theorem view_setRefresh {f : Refresh} (hg : f.writes k = (s.replicas ()).refresh.writes k)
    (hd : f.dels k = (s.replicas ()).refresh.dels k) : (s.setRefresh i f).view k = s.view k := by
  rw [setRefresh,view_setReplica,hg,hd]
  rfl

theorem view_parseRead (h : s.parseRead i = some s') : s'.view k = s.view k := by
  unfold parseRead at h
  split at h
  · rename_i since all hg
    cases h
    exact view_setRefresh (by rw [hg]; rfl) (by rw [hg]; rfl)
  · cases h

theorem view_hgetall {ok : Bool} (h : s.hgetall i ok = some s') :
    s'.view k = s.view k := by
  unfold hgetall at h
  split at h
  · rename_i since hg
    cases h
    cases ok with
    | true | false => exact view_setRefresh (by rw [hg]; rfl) (by rw [hg]; rfl)
  · cases h

theorem view_resend (h : s.resend C i fate = some s') :
    s'.view k = (s.view k).apply (keyEvent C k s (.resend i fate)) := by
  cases i
  unfold resend at h
  split at h
  · rename_i run r todo hg
    cases h
    have hw : (s.view k).writes = r.unsent.ofKey k +
        (s.calls.total (fun _ c => c.2.writes k) + retryWrites k todo) := by
      simpa [view,hg,Refresh.writes,retryWrites] using add_left_comm _ _ _
    simp [propagate_spec () r.entry fate,keyEvent,hg]
    rw [apply_sent r _ hw]
    refine Eq.trans (view_setReplica _ () _) ?_
    ext1
    · rfl
    · exact add_left_comm _ _ _
    · simp [view,hg]
      rfl
  · cases h

theorem view_takeRetries {order : List (Key × KeyState)}
    (ho : ∀ j st, GoMap.get (s.replicas ()).keys j = some st → st.OwnedBy j)
    (hn : ∀ run, (s.replicas ()).refresh = .parsed run → zeroTime ≤ run.now)
    (h : s.takeRetries i order = some s') :
    s'.view k = (s.view k).apply (keyEvent C k s (.take i order)) := by
  cases i
  unfold takeRetries at h
  split at h
  · rename_i run hg
    obtain ⟨hie,hs⟩ := ite_none_right_eq_some.mp h
    cases hs
    have hr : retryWrites k (KeyStates.takePending run.now order (s.replicas ()).keys).2 =
        KeyView.taken run.now (GoMap.get (s.replicas ()).keys k) := by
      rw [retryWrites_takePending k (hn run hg)
        fun e he => ho e.1 e.2 ((hie.mem_iff e.1 e.2).mp he)]
      refine (hie.total fun j st =>
        if j = k then KeyView.taken run.now (some st) else 0).symm.trans ?_
      rw [total_single]
      cases GoMap.get (s.replicas ()).keys k <;> rfl
    rw [view_setReplica]
    simp [keyEvent,hg,KeyView.apply,view,Refresh.writes,Refresh.dels,hr,
      KeyStates.get_takePending run.now hie]
  · cases h

theorem writes_afterRetry (run : RefreshRun) (k' : Key) (todo : List Retry) (undo : Bool) :
    (if undo = true then Refresh.undoing run k' todo else .retrying run todo).writes k =
      retryWrites k todo := by cases undo <;> rfl

theorem dels_afterRetry (run : RefreshRun) (k' : Key) (todo : List Retry) (undo : Bool) :
    (if undo = true then Refresh.undoing run k' todo else .retrying run todo).dels k =
      if k' = k ∧ undo = true then 1 else 0 := by cases undo <;> simp [Refresh.dels]

theorem view_refinish (h : s.refinish i = some s') :
    s'.view k = (s.view k).apply (keyEvent C k s (.refinish i)) := by
  cases i
  unfold refinish at h
  split at h
  · rename_i run r result todo hg
    cases h
    have he : keyEvent C k s (.refinish ()) =
        if r.entry.key = k then .finished r result else .quiet := by
      simp [keyEvent,hg]
    have hw : (s.view k).writes = (r.sent result).ofKey k +
        (s.calls.total (fun _ c => c.2.writes k) + retryWrites k todo) := by
      simpa [view,hg,Refresh.writes] using add_left_comm _ _ _
    rw [he,view_setReplica,writes_afterRetry,dels_afterRetry,apply_finished r result rfl hw]
    simp [view,hg,Refresh.dels]
  · cases h

theorem view_undoRetry (h : s.undoRetry C i fate = some s') :
    s'.view k = (s.view k).apply (keyEvent C k s (.undo i fate)) := by
  cases i
  unfold undoRetry at h
  split at h
  · rename_i run k' todo hg
    cases h
    rw [hdelFields_spec (C := C) (),setRefresh,view_setReplica]
    simp [keyEvent,hg,view,Refresh.writes,Refresh.dels]
    split_ifs <;> simp [KeyView.apply]
  · cases h

theorem view_replaceMem (h : s.replaceMem i = some s') : s'.view k = s.view k := by
  cases i
  unfold replaceMem at h
  split at h
  · rename_i run hg
    cases h
    simp only [view,hg]
    split_ifs <;> rfl
  · cases h

theorem view_cleanExpired (h : s.cleanExpired i fate = some s') :
    s'.view k = s.view k := by
  unfold cleanExpired at h
  split at h
  · rename_i expired hg
    cases h
    unfold hdelFields
    split_ifs
    · exact @view_setRefresh k s i _ (by rw [hg]; rfl) (by rw [hg]; rfl)
    · exact @view_setRefresh k s i _ (by rw [hg]; rfl) (by rw [hg]; rfl)
  · cases h

theorem view_step {a : Act Unit}
    (ho : ∀ j st, GoMap.get (s.replicas ()).keys j = some st → st.OwnedBy j)
    (hn : ∀ run, (s.replicas ()).refresh = .parsed run → zeroTime ≤ run.now)
    (h : s.step C a = some s') : s'.view k = (s.view k).apply (keyEvent C k s a) := by
  cases a with
  | tick t =>
    obtain ⟨-,hs⟩ := ite_none_right_eq_some.mp h
    cases hs
    rfl
  | set n i e | release n i k' =>
    obtain ⟨hf,hs⟩ := ite_none_left_eq_some.mp h
    cases hs
    exact view_newCall hf rfl rfl rfl rfl
  | begin n => exact view_beginCall h
  | send n fate => exact view_sendCall h
  | finish n => exact view_finishCall h
  | hdel n fate => exact view_hdelCall h
  | refresh i =>
    simp [step] at h
    split at h
    · rename_i hg
      cases h
      exact view_setRefresh (by rw [hg]; rfl) (by rw [hg]; rfl)
    · cases h
  | hgetall i ok => exact view_hgetall h
  | parse i => exact view_parseRead h
  | take i order => exact view_takeRetries ho hn h
  | resend i fate => exact view_resend h
  | refinish i => exact view_refinish h
  | undo i fate => exact view_undoRetry h
  | replace i => exact view_replaceMem h
  | clean i fate => exact view_cleanExpired h

def fieldAfter (C : Codec) (k : Key) (field : Option Payload) : Option Command → Option Payload
  | some (.hset e) => if redisField C e.key = redisField C k then some e.toPayload else field
  | some (.hdel fields) => if redisField C k ∈ fields then none else field
  | none => field

theorem field_step {a : Act Unit} (h : s.step C a = some s') :
    s'.hash.get (redisField C k) =
      fieldAfter C k (s.hash.get (redisField C k)) ((command C s a).map Prod.snd) := by
  rw [(step_effect h).hash]
  cases command C s a with
  | none => rfl
  | some c =>
    obtain ⟨i,c⟩ := c
    cases c with
    | hset e =>
      simp only [hashAfter,elim_some,Command.apply,get_put,map_some,fieldAfter,
        eq_comm]
    | hdel fields =>
      simp [hashAfter,Command.apply,get_foldl_del,fieldAfter]

end Fleet

def KeyEvent.Silent : KeyEvent → Prop
  | .sent .. => False
  | .deleted => False
  | _ => True

inductive KeyCommand (C : Codec) (k : Key) (clock : Int) : KeyEvent → Option Command → Prop
  | plain (ev : KeyEvent) (h : ev.Silent) : KeyCommand C k clock ev none
  | stored (r : Retry) (result : WriteResult) (h : r.entry.key = k) :
      KeyCommand C k clock (.sent r result) (some (.hset r.entry))
  | unstored (r : Retry) (result : WriteResult)
      (h : result = .propagation ∨ r.entry.untilAt ≤ clock ∨ C.marshals r.entry.toPayload = false) :
      KeyCommand C k clock (.sent r result) none
  | undelivered : KeyCommand C k clock .deleted none
  | deleted : KeyCommand C k clock .deleted (some (.hdel [redisField C k]))
  | stores (e : Entry) (h : e.key ≠ k) : KeyCommand C k clock .quiet (some (.hset e))
  | removes (fields : List GoString) : KeyCommand C k clock .quiet (some (.hdel fields))

namespace Fleet

variable {C : Codec} {k : Key} {s s' : Fleet Unit}

theorem sent_command (s : Fleet Unit) (i : Unit) (r : Retry) (fate : Fate) :
    KeyCommand C k s.clock
      (if r.entry.key = k then .sent r (s.propagate C r.entry fate).2 else .quiet)
      ((sent C s i r.entry fate).map Prod.snd) := by
  unfold sent
  split_ifs with hk hs hs
  · exact .stored r _ hk
  · refine .unstored r _ ?_
    by_cases hl : s.clock < r.entry.untilAt
    · cases hm : C.marshals r.entry.toPayload with
      | false => exact .inr (.inr rfl)
      | true =>
        have hlo : fate = .lost := by
          cases fate with
          | lost => rfl
          | applied | appliedNoReply => exact absurd ⟨hl,hm,rfl⟩ hs
        left
        simp [propagate,not_le.mpr hl,hm,hlo,Fate.result]
    · exact .inr (.inl (not_lt.mp hl))
  · exact .stores r.entry hk
  · exact .plain .quiet trivial

theorem removed_command (s : Fleet Unit) (i : Unit) (k' : Key) (fate : Fate) :
    KeyCommand C k s.clock (if k' = k then .deleted else .quiet)
      ((removed i [redisField C k'] fate).map Prod.snd) := by
  unfold removed
  split_ifs with hk hf hf
  · exact hk ▸ .deleted
  · exact .undelivered
  · exact .removes _
  · exact .plain .quiet trivial

theorem cleaned_command (s : Fleet Unit) (i : Unit) (fields : List GoString) (fate : Fate) :
    KeyCommand C k s.clock .quiet ((removed i fields fate).map Prod.snd) := by
  unfold removed
  split_ifs
  · exact .removes fields
  · exact .plain .quiet trivial

theorem beginEvent_silent (s : Fleet Unit) (n : Nat) : (beginEvent k s n).Silent := by
  unfold beginEvent
  split
  · split_ifs <;> trivial
  · split_ifs <;> trivial
  · trivial

theorem finish_silent (r : Retry) (result : WriteResult) :
    (if r.entry.key = k then KeyEvent.finished r result else .quiet).Silent := by
  split_ifs <;> trivial

theorem key_command (s : Fleet Unit) (a : Act Unit) :
    KeyCommand C k s.clock (keyEvent C k s a) ((command C s a).map Prod.snd) := by
  have hq : KeyCommand C k s.clock .quiet none := .plain _ trivial
  cases a with
  | begin n => exact .plain _ (beginEvent_silent s n)
  | send n fate =>
    rcases hg : s.calls.get n with _ | ⟨i,c⟩
    · simpa [keyEvent,command,hg] using hq
    cases c with
    | writing e gen => simpa [keyEvent,command,hg] using sent_command s i ⟨e,gen⟩ fate
    | _ => simpa [keyEvent,command,hg] using hq
  | finish n =>
    refine .plain _ ?_
    simp only [keyEvent]
    split
    · exact finish_silent ⟨_,_⟩ _
    · trivial
  | hdel n fate =>
    rcases hg : s.calls.get n with _ | ⟨i,c⟩
    · simpa [keyEvent,command,hg] using hq
    cases c with
    | deleting k' => simpa [keyEvent,command,hg] using removed_command s i k' fate
    | undoing e result => simpa [keyEvent,command,hg] using removed_command s i e.key fate
    | _ => simpa [keyEvent,command,hg] using hq
  | take i order =>
    refine .plain _ ?_
    simp [keyEvent]
    split <;> trivial
  | resend i fate =>
    rcases hg : (s.replicas ()).refresh with _ | _ | _ | _ | ⟨run,_ | ⟨r,todo⟩⟩ | _ | _ | _ | _
    case retrying.cons => simpa only [keyEvent,command,hg] using sent_command s () r fate
    all_goals simpa [keyEvent,command,hg] using hq
  | refinish i =>
    refine .plain _ ?_
    simp only [keyEvent]
    split
    · exact finish_silent _ _
    · trivial
  | undo i fate =>
    cases hg : (s.replicas ()).refresh with
    | undoing run k' todo => simpa [keyEvent,command,hg] using removed_command s () k' fate
    | _ => simpa [keyEvent,command,hg] using hq
  | clean i fate =>
    cases hg : (s.replicas ()).refresh with
    | cleaning expired => simpa only [keyEvent,command,hg] using cleaned_command s () expired fate
    | _ => simpa [keyEvent,command,hg] using hq
  | _ => exact hq

structure Prepared (s : Fleet Unit) : Prop where
  owned : ∀ j st, GoMap.get (s.replicas ()).keys j = some st → st.OwnedBy j
  clock : zeroTime ≤ s.clock
  run : ∀ run, (s.replicas ()).refresh = .parsed run → zeroTime ≤ run.now ∧ run.now ≤ s.clock

theorem Prepared.view_step (hp : Prepared s) {a : Act Unit} (h : s.step C a = some s') (k : Key) :
    s'.view k = (s.view k).apply (keyEvent C k s a) :=
  Fleet.view_step hp.owned (fun run hr => (hp.run run hr).1) h

theorem mem_writes_of_call {n : Nat} {i : Unit} {c : Call} (h : s.calls.get n = some (i,c))
    {w : Write} (hw : w ∈ c.writes k) : w ∈ (s.view k).writes := by
  rw [view_of_call h]
  exact Multiset.mem_add.mpr (.inl hw)

theorem mem_writes_of_refresh {w : Write} (hw : w ∈ (s.replicas ()).refresh.writes k) :
    w ∈ (s.view k).writes := Multiset.mem_add.mpr (.inr hw)

end Fleet

def KeyEvent.Fits (k : Key) (clock : Int) (v : KeyView) : KeyEvent → Prop
  | .beganSet e => e.key = k
  | .sent r _ => r.unsent ∈ v.writes
  | .finished r result => r.entry.key = k ∧ r.sent result ∈ v.writes
  | .took now => now ≤ clock
  | _ => True

namespace Fleet

variable {C : Codec} {k : Key} {s s' : Fleet Unit}

theorem Prepared.fits (hp : Prepared s) (a : Act Unit) :
    (keyEvent C k s a).Fits k s.clock (s.view k) := by
  unfold keyEvent
  split
  · unfold beginEvent
    split
    · split_ifs with hk hl
      · trivial
      · exact hk
      · trivial
    · split_ifs <;> trivial
    · trivial
  · split
    · rename_i i e gen hg
      split_ifs with hk
      · exact mem_writes_of_call hg (Write.mem_ofKey (w := Retry.unsent ⟨e,gen⟩) hk)
      · trivial
    · trivial
  · split
    · rename_i i e gen result hg
      split_ifs with hk
      · exact ⟨hk,mem_writes_of_call hg (Write.mem_ofKey (w := Retry.sent ⟨e,gen⟩ result) hk)⟩
      · trivial
    · trivial
  · split
    · split_ifs <;> trivial
    · split_ifs <;> trivial
    · trivial
  · split
    · rename_i run hg
      exact (hp.run run hg).2
    · trivial
  · split
    · rename_i run r todo hg
      split_ifs with hk
      · refine mem_writes_of_refresh ?_
        rw [hg]
        exact Multiset.mem_add.mpr (.inl (Write.mem_ofKey (w := r.unsent) hk))
      · trivial
    · trivial
  · split
    · rename_i run r result todo hg
      split_ifs with hk
      · refine ⟨hk,mem_writes_of_refresh ?_⟩
        rw [hg]
        exact Multiset.mem_add.mpr (.inl (Write.mem_ofKey (w := r.sent result) hk))
      · trivial
    · trivial
  · split
    · split_ifs <;> trivial
    · trivial
  · trivial

end Fleet

namespace KeyState

theorem eq_of_settled {st st' : KeyState} (h : st.settled = some st') : st' = st := by
  unfold settled at h
  split_ifs at h
  exact (some.inj h).symm

theorem OwnedBy.finish {k : Key} {st : KeyState} (h : st.OwnedBy k) {e : Entry} (he : e.key = k)
    (gen : Nat) (result : WriteResult) : (st.finish e gen result).1.OwnedBy k := by
  unfold KeyState.finish
  dsimp only
  split_ifs
  · exact h
  · exact h
  · cases result with
    | propagation => exact .inl he
    | _ => exact h

theorem OwnedBy.taken {k : Key} {st st' : KeyState} (h : st.OwnedBy k) {now : Int}
    (ht : st.taken now = some st') : st'.OwnedBy k := by
  unfold KeyState.taken at ht
  split_ifs at ht
  · cases ht
    exact h
  · rw [eq_of_settled ht]
    exact .inr rfl
  · cases ht
    exact h

end KeyState

theorem KeyView.apply_owned {k : Key} {clock : Int} {v : KeyView} {ev : KeyEvent}
    (h : ∀ st, v.record = some st → st.OwnedBy k) (hf : ev.Fits k clock v) {st : KeyState}
    (hst : (v.apply ev).record = some st) : st.OwnedBy k := by
  have hs : v.state.OwnedBy k := by
    unfold KeyView.state
    cases hr : v.record with
    | none => exact .inr rfl
    | some st => exact h st hr
  cases ev with
  | beganSet e =>
    cases hst
    exact .inl hf
  | beganRelease =>
    rw [KeyState.eq_of_settled hst]
    exact .inr rfl
  | finished r result =>
    rw [KeyState.eq_of_settled hst]
    exact hs.finish hf.1 r.gen result
  | took now =>
    obtain ⟨st₀,hr,ht⟩ := bind_eq_some_iff.mp hst
    exact (h st₀ hr).taken ht
  | quiet | sent r result | deleted => exact h st hst

theorem Fleet.Prepared.step {C : Codec} {s s' : Fleet Unit} (hp : Prepared s) {a : Act Unit}
    (h : s.step C a = some s') : Prepared s' where
  owned k st hst := by
    have hr : (s'.view k).record = some st := hst
    rw [hp.view_step h k] at hr
    exact KeyView.apply_owned (hp.owned k) (hp.fits a) hr
  clock := hp.clock.trans (clock_le h)
  run run hrun := by
    have hs := (step_effect h).refresh ()
    rw [hrun] at hs
    generalize hf : (s.replicas ()).refresh = f at hs
    cases hs with
    | other => exact ⟨(hp.run run hf).1,(hp.run run hf).2.trans (clock_le h)⟩
    | parse since all => exact ⟨hp.clock,clock_le h⟩

theorem Fleet.prepared_start {clock : Int} (h : zeroTime ≤ clock) : Prepared (.start clock) where
  owned _ _ hst := nomatch hst
  clock := h
  run _ hrun := nomatch hrun

end SageGateway.Drain
