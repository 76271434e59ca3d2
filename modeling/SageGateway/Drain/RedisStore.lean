import SageGateway.Drain.Store

namespace SageGateway.Drain

open List GoMap

def zeroTime : Int := -62135596800 * 1000000000

def zeroEntry : Entry := ⟨⟨zeroTime,[]⟩,⟨[],[],[]⟩⟩

structure KeyState where
  entry : Entry
  pending : Bool
  inflight : Int
  gen : Nat
  released : Bool
  deriving DecidableEq

inductive WriteResult where
  | ok
  | propagation
  | encoding
  deriving DecidableEq

structure Retry where
  entry : Entry
  gen : Nat
  deriving DecidableEq

structure Finished where
  live : Option Entry
  compensate : Bool
  deriving DecidableEq

namespace KeyState

def zero : KeyState := ⟨zeroEntry,false,0,0,false⟩

def beginSet (st : KeyState) (e : Entry) : KeyState :=
  { st with gen := st.gen + 1, released := false, entry := e, inflight := st.inflight + 1 }

def beginRelease (st : KeyState) : KeyState :=
  { st with gen := st.gen + 1, released := true, pending := false, entry := zeroEntry }

def finish (st : KeyState) (e : Entry) (gen : Nat) (result : WriteResult) : KeyState × Finished :=
  let st' : KeyState := { st with inflight := st.inflight - 1 }
  if st'.gen ≠ gen ∧ st'.released then (st',⟨none,true⟩)
  else if st'.gen ≠ gen then ({ st' with pending := true },⟨some st'.entry,false⟩)
  else match result with
    | .ok => ({ st' with pending := false },⟨some e,false⟩)
    | .encoding => ({ st' with pending := false },⟨some e,false⟩)
    | .propagation => ({ st' with pending := true, entry := e },⟨some e,false⟩)

def retried (st : KeyState) : KeyState := { st with inflight := st.inflight + 1 }

def expire (st : KeyState) : KeyState := { st with pending := false, entry := zeroEntry }

def settled (st : KeyState) : Option KeyState :=
  if st.pending = false ∧ st.inflight = 0 then none else some st

def taken (now : Int) (st : KeyState) : Option KeyState :=
  if st.pending then if now < st.entry.untilAt then some st.retried else st.expire.settled
  else some st

end KeyState

abbrev KeyStates := GoMap Key KeyState

namespace KeyStates

def state (keys : KeyStates) (k : Key) : KeyState := (GoMap.get keys k).getD .zero

def forget (keys : KeyStates) (k : Key) (st : KeyState) : KeyStates :=
  if st.pending = false ∧ st.inflight = 0 then GoMap.del keys k else GoMap.put keys k st

def beginSet (keys : KeyStates) (e : Entry) : KeyStates × Nat :=
  let st := (keys.state e.key).beginSet e
  (GoMap.put keys e.key st,st.gen)

def beginRelease (keys : KeyStates) (k : Key) : KeyStates :=
  keys.forget k (keys.state k).beginRelease

def finishWrite (keys : KeyStates) (e : Entry) (gen : Nat) (result : WriteResult) :
    KeyStates × Finished :=
  let out := (keys.state e.key).finish e gen result
  (keys.forget e.key out.1,out.2)

def takePending (now : Int) : List (Key × KeyState) → KeyStates → KeyStates × List Retry
  | [], keys => (keys,[])
  | (k,st) :: rest, keys =>
      if st.pending then
        if now < st.entry.untilAt then
          let (keys',out) := takePending now rest (GoMap.put keys k st.retried)
          (keys',⟨st.entry,st.gen⟩ :: out)
        else takePending now rest (keys.forget k st.expire)
      else takePending now rest keys

theorem get_forget (keys : KeyStates) (k j : Key) (st : KeyState) :
    GoMap.get (keys.forget k st) j = if j = k then st.settled else GoMap.get keys j := by
  unfold forget KeyState.settled
  split_ifs with hg hj hj
  · rw [hj,get_del_self]
  · exact get_del_ne keys hj
  · rw [hj,get_put_self]
  · exact get_put_ne keys st hj

theorem get_beginSet (keys : KeyStates) (e : Entry) (j : Key) :
    GoMap.get (keys.beginSet e).1 j =
      if j = e.key then some ((keys.state e.key).beginSet e) else GoMap.get keys j :=
  get_put _ _ _ _

theorem get_beginRelease (keys : KeyStates) (k j : Key) :
    GoMap.get (keys.beginRelease k) j =
      if j = k then (keys.state k).beginRelease.settled else GoMap.get keys j :=
  get_forget keys k j _

theorem get_finishWrite (keys : KeyStates) (e : Entry) (gen : Nat) (result : WriteResult)
    (j : Key) :
    GoMap.get (keys.finishWrite e gen result).1 j =
      if j = e.key then ((keys.state e.key).finish e gen result).1.settled
      else GoMap.get keys j := get_forget keys e.key j _

theorem get_takePending_of_notMem (now : Int) (order : List (Key × KeyState)) (keys : KeyStates)
    {k : Key} (hk : k ∉ order.map Prod.fst) :
    GoMap.get (takePending now order keys).1 k = GoMap.get keys k := by
  induction order generalizing keys with
  | nil => rfl
  | cons e order ih =>
    simp only [map_cons,mem_cons,not_or] at hk
    unfold takePending
    split_ifs
    · exact (ih _ hk.2).trans (get_put_ne keys _ hk.1)
    · rw [ih _ hk.2,get_forget,if_neg hk.1]
    · exact ih _ hk.2

theorem get_takePending_of_mem (now : Int) {order : List (Key × KeyState)} (keys : KeyStates)
    (hn : (order.map Prod.fst).Nodup) {k : Key} {st : KeyState} (hk : (k,st) ∈ order)
    (hg : GoMap.get keys k = some st) :
    GoMap.get (takePending now order keys).1 k = st.taken now := by
  induction order generalizing keys with
  | nil => cases hk
  | cons e order ih =>
    obtain ⟨j,st'⟩ := e
    obtain ⟨hj,hr⟩ := nodup_cons.mp hn
    rcases mem_cons.mp hk with heq | hm
    · cases heq
      unfold takePending KeyState.taken
      split_ifs
      · exact (get_takePending_of_notMem now order _ hj).trans (get_put_self _ _ _)
      · rw [get_takePending_of_notMem now order _ hj,get_forget,if_pos rfl]
      · exact (get_takePending_of_notMem now order _ hj).trans hg
    · have hne : k ≠ j := fun h => hj (mem_map.mpr ⟨(k,st),hm,h⟩)
      unfold takePending
      split_ifs
      · exact ih _ hr hm ((get_put_ne keys _ hne).trans hg)
      · exact ih _ hr hm (by rw [get_forget,if_neg hne,hg])
      · exact ih _ hr hm hg

theorem get_takePending (now : Int) {order : List (Key × KeyState)} {keys : KeyStates}
    (hie : GoMap.Iterates keys order) (k : Key) :
    GoMap.get (takePending now order keys).1 k = (GoMap.get keys k).bind (KeyState.taken now) := by
  cases hg : GoMap.get keys k with
  | none =>
    refine (get_takePending_of_notMem now order keys fun hm => ?_).trans hg
    obtain ⟨⟨j,st⟩,he,hj⟩ := mem_map.mp hm
    cases hj
    have hs := (hie.mem_iff j st).mp he
    cases hg.symm.trans hs
  | some st =>
    exact get_takePending_of_mem now keys hie.nodup ((hie.mem_iff k st).mpr hg) hg

end KeyStates

structure Snapshot where
  next : GoMap Key Entry
  expired : List GoString

def readRow (follow : GoString) (now : Int) (out : Snapshot) (row : GoString × Payload) :
    Snapshot :=
  match parseRedisField row.1 with
  | none => out
  | some k =>
      if row.2.untilAt ≤ now then { out with expired := out.expired ++ [row.1] }
      else if follow ≠ [] ∧ follow.isPrefixOf row.2.reason = false then out
      else { out with next := out.next.put k ⟨row.2,k⟩ }

def readSnapshot (follow : GoString) (now : Int) (all : List (GoString × Payload)) : Snapshot :=
  all.foldl (readRow follow now) ⟨∅,[]⟩

variable {field : GoString} {now : Int} {k : Key}

theorem eq_render_of_parse (h : parseRedisField field = some k) :
    field = k.serviceID ++ [':'] ++ k.operator ++ [':'] ++
      if k.rpcType = [] then allRPCTypes else k.rpcType := by
  have hj : [':'].intercalate (field.splitOn ':') = field := intercalate_splitOn ':'
  unfold parseRedisField GoString.split at h
  split at h
  · rename_i service operator rpc hs
    split_ifs at h with he ha
    · cases h
      rw [← hj,hs,ha]
      simp [intercalate]
    · cases h
      have hr : rpc ≠ [] := fun hn => he (Or.inr (Or.inr hn))
      rw [← hj,hs]
      simp [intercalate,hr]
  · cases h

theorem readRow_get_ne {row : GoString × Payload}
    (h : parseRedisField row.1 ≠ some k) (out : Snapshot) :
    (readRow [] now out row).next.get k = out.next.get k := by
  unfold readRow
  split
  · rfl
  · rename_i j hj
    split_ifs
    · rfl
    · simp_all
    · exact get_put_ne _ _ fun hk => h (hk ▸ hj)

theorem foldl_readRow_get_of_notMem
    (hf : parseRedisField field = some k) {rows : List (GoString × Payload)}
    (h : field ∉ rows.map Prod.fst) (out : Snapshot) :
    (rows.foldl (readRow [] now) out).next.get k = out.next.get k := by
  induction rows generalizing out with
  | nil => rfl
  | cons row rows ih =>
    obtain ⟨hro,hr⟩ := not_or.mp (fun hm => h (mem_cons.mpr hm))
    rw [foldl_cons,ih hr]
    refine readRow_get_ne (fun hp => hro ?_) out
    exact (eq_render_of_parse hf).trans (eq_render_of_parse hp).symm

theorem foldl_readRow_get_of_mem {p : Payload}
    (hf : parseRedisField field = some k) (hl : now < p.untilAt)
    {rows : List (GoString × Payload)} (hn : (rows.map Prod.fst).Nodup) (h : (field,p) ∈ rows)
    (out : Snapshot) : (rows.foldl (readRow [] now) out).next.get k = some ⟨p,k⟩ := by
  induction rows generalizing out with
  | nil => cases h
  | cons row rows ih =>
    obtain ⟨hro,hr⟩ := nodup_cons.mp hn
    rcases mem_cons.mp h with rfl | hm
    · rw [foldl_cons,foldl_readRow_get_of_notMem hf hro]
      simp [readRow,hf,not_le.mpr hl]
    · exact ih hr hm _

theorem readSnapshot_get {p : Payload}
    {all : GoMap GoString Payload} (hf : parseRedisField field = some k)
    (hl : now < p.untilAt) (h : all.get field = some p) :
    (readSnapshot [] now all.toList).next.get k = some ⟨p,k⟩ :=
  foldl_readRow_get_of_mem hf hl (iterates_toList all).nodup
    (((iterates_toList all).mem_iff field p).mpr h) _

end SageGateway.Drain
