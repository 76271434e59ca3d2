import SageGateway.Lib.Terminated
import SageGateway.Reputation
import Mathlib.Algebra.Ring.Int.Defs
import Mathlib.Data.List.Sort

namespace SageGateway.Reputation

open List Option GoMap

variable {F : Type}

abbrev Id := ServiceName × GoString

section Operations

variable [Zero F] [One F] [Add F] [Sub F] [Mul F] [LT F] [DecidableLT F] [DecidableEq F]

variable (cfg : Config F)

def write (s : Service F) (now : Int) (key : GoString) (st : State F) : Service F × Bool :=
  if cfg.storageUp then
    ({ s with storage := s.storage.put key (st.stamp now) },true)
  else (s,false)

def enqueue (s : Service F) (key : GoString) (st : State F) : Service F :=
  if cfg.isLeader then { s with pending := s.pending.put key st } else s

def inShard (svc : ServiceName) (key : GoString) (id : Id) : Bool :=
  id.1 = svc && cfg.shardOf id.2 = cfg.shardOf key

def maxScoresPerServiceShard : Nat := 4096

def shardLen (s : Service F) (svc : ServiceName) (key : GoString) : Nat :=
  (s.cache.toList.filter fun e => inShard cfg svc key e.1).length

def pruneUninformative (sc : Scoring F) (svc : ServiceName) (key : GoString)
    (cache : GoMap Id (State F)) : GoMap Id (State F) :=
  cache.filter fun id v =>
    !(inShard cfg svc key id && v.score = cfg.initialScore && sc.penalty v.rate = 0)

def cacheFor (sc : Scoring F) (s : Service F) (svc : ServiceName) (key : GoString) :
    GoMap Id (State F) :=
  if s.cache.has (svc,key) then s.cache
  else if maxScoresPerServiceShard ≤ shardLen cfg s svc key then
    pruneUninformative cfg sc svc key s.cache
  else s.cache

def recordSignal (sc : Scoring F) (s : Service F) (now : Int) (svc : ServiceName)
    (endpoint : EndpointAddr) (t : RPCType) (signal : Signal) : Service F :=
  let key := cfg.keyOf endpoint t
  let prev := (s.cache.get (svc,key)).getD (.start (sc.initialScoreOf svc key))
  let st := applySignal cfg sc prev (signal.timestamp.getD now) t signal
  enqueue cfg { s with cache := (cacheFor cfg sc s svc key).put (svc,key) st } (scoreKey svc key) st

def stateOf (s : Service F) (id : Id) : State F := (s.cache.get id).getD (.start cfg.initialScore)

def rebaseKey (floor : F) (svc : ServiceName) (s : Service F) (key : GoString) : Service F × Bool :=
  if floor < (stateOf cfg s (svc,key)).score then
    let st := { stateOf cfg s (svc,key) with score := floor }
    (enqueue cfg { s with cache := s.cache.put (svc,key) st } (scoreKey svc key) st,true)
  else (s,false)

def rebaseLoop (floor : F) (svc : ServiceName) :
    List GoString → List GoString → Service F → Nat → Service F × Nat
  | [], _, s, n => (s,n)
  | key :: keys, seen, s, n =>
      if key ∈ seen then rebaseLoop floor svc keys seen s n
      else
        let (s',lowered) := rebaseKey cfg floor svc s key
        rebaseLoop floor svc keys (key :: seen) s' (if lowered then n + 1 else n)

def rebaseAfterDrain (floor : F) (s : Service F) (svc : ServiceName) (endpoints : List EndpointAddr)
    (t : RPCType) : Service F × Nat :=
  rebaseLoop cfg floor svc (endpoints.map fun ep => cfg.keyOf ep t) [] s 0

def resetKeys (order : List (Id × State F)) (svc : ServiceName) (target : GoString) :
    List GoString :=
  (order.filter fun e => e.1.1 = svc && resetTargets e.1.2 target).map fun e => e.1.2

def forceWrites (now : Int) (svc : ServiceName) (fresh : State F) :
    List GoString → Service F → Bool → Service F × Bool
  | [], s, dropped => (s,dropped)
  | key :: keys, s, dropped =>
      let (s',ok) := write cfg s now (scoreKey svc key) fresh
      forceWrites now svc fresh keys s' (dropped || !ok)

inductive ResetError where
  | noScore
  | writeFailed
  deriving DecidableEq

def resetMatching (s : Service F) (now : Int) (order : List (Id × State F)) (svc : ServiceName)
    (target : GoString) : Service F × List GoString × Option ResetError :=
  let reset := resetKeys order svc target
  let fresh : State F := .start cfg.initialScore
  if reset = [] then (s,[],some .noScore)
  else
    let s' := { s with cache := s.cache.putAll ((reset.map fun key => (svc,key)).map (·,fresh)) }
    let (s'',dropped) := forceWrites cfg now svc fresh reset s' false
    (s'',reset.mergeSort (fun a b => !decide (b < a)),if dropped then some .writeFailed else none)

def maxWriteBatch : Nat := 4096

def flush (s : Service F) (chunk : List (GoString × State F)) : Service F :=
  if cfg.storageUp then { s with storage := s.storage.putAll chunk } else s

def flushLoop (now : Int) :
    List (GoString × State F) → List (GoString × State F) → Service F → Service F
  | [], chunk, s => flush cfg s chunk
  | (key,st) :: rest, chunk, s =>
      let chunk' := chunk ++ [(key,st.stamp now)]
      if chunk'.length = maxWriteBatch then flushLoop now rest [] (flush cfg s chunk')
      else flushLoop now rest chunk' s

def flushPending (s : Service F) (now : Int) (order : List (GoString × State F)) : Service F :=
  if order = [] then s else flushLoop cfg now order [] { s with pending := ∅ }

end Operations

inductive Call (F : Type) where
  | record (sc : Scoring F) (now : Int) (svc : ServiceName) (endpoint : EndpointAddr) (t : RPCType)
      (signal : Signal)
  | rebase (floor : F) (svc : ServiceName) (endpoints : List EndpointAddr) (t : RPCType)
  | reset (now : Int) (order : List (Id × State F)) (svc : ServiceName) (target : GoString)
  | flush (now : Int) (order : List (GoString × State F))

section

variable [Zero F] [One F] [Add F] [Sub F] [Mul F] [LT F] [DecidableLT F] [DecidableEq F]

def step (cfg : Config F) (s : Service F) : Call F → Option (Service F)
  | .record sc now svc endpoint t signal => some (recordSignal cfg sc s now svc endpoint t signal)
  | .rebase floor svc endpoints t => some (rebaseAfterDrain cfg floor s svc endpoints t).1
  | .reset now order svc target =>
      if s.cache.Iterates order then some (resetMatching cfg s now order svc target).1 else none
  | .flush now order =>
      if s.pending.Iterates order then some (flushPending cfg s now order) else none

def State.persisted (st : State F) : F × F × UInt64 × UInt64 × Int :=
  (st.score,st.rate,st.attempts,st.trafficAttempts,st.lastTraffic)

def keyOfId (id : Id) : GoString := scoreKey id.1 id.2

def lowers (cfg : Config F) (s : Service F) (floor : F) (svc : ServiceName) (keys : List GoString)
    (id : Id) : Bool :=
  id.1 = svc && id.2 ∈ keys && floor < (stateOf cfg s id).score

def resetHits (s : Service F) (svc : ServiceName) (target : GoString) (id : Id) : Bool :=
  id.1 = svc && resetTargets id.2 target && s.cache.has id

def pendingDiffers (cfg : Config F) (s : Service F) (id : Id) : Bool :=
  match s.pending.get (keyOfId id) with
  | some st => st.persisted ≠ (State.start cfg.initialScore).persisted
  | none => false

def staleAfter (cfg : Config F) (s : Service F) (stale : Id → Bool) : Call F → Id → Bool
  | .record _ _ svc endpoint t _, id => if id = (svc,cfg.keyOf endpoint t) then false else stale id
  | .rebase floor svc endpoints t, id =>
      if lowers cfg s floor svc (endpoints.map fun ep => cfg.keyOf ep t) id then false else stale id
  | .reset _ _ svc target, id =>
      if resetHits s svc target id then pendingDiffers cfg s id else stale id
  | .flush _ _, id => stale id

def trackedStep (cfg : Config F) (x : Service F × (Id → Bool)) (c : Call F) :
    Option (Service F × (Id → Bool)) :=
  (step cfg x.1 c).map fun s => (s,staleAfter cfg x.1 x.2 c)

end

def queued (s : Service F) (key : GoString) : Option (State F) :=
  (s.pending.get key).or (s.storage.get key)

def Queued (s : Service F) (id : Id) (st : State F) : Prop :=
  (queued s (keyOfId id)).map State.persisted = some st.persisted

def Tracks (s : Service F) (stale : Id → Bool) : Prop :=
  ∀ id st, s.cache.get id = some st → (stale id = false ↔ Queued s id st)

@[simp] theorem State.persisted_stamp (st : State F) (now : Int) :
    (st.stamp now).persisted = st.persisted := rfl

theorem scoreKey_eq_keyOfId (svc : ServiceName) (key : GoString) :
    scoreKey svc key = keyOfId (svc,key) := rfl

theorem keyOfId_injective : Function.Injective keyOfId := by
  rintro ⟨⟨a,ha⟩,x⟩ ⟨⟨b,hb⟩,y⟩ h
  obtain ⟨rfl,rfl⟩ := Terminated.split_first ha hb h
  rfl

section Invariant

variable {cfg : Config F} {s : Service F} {stale : Id → Bool} {order : List (Id × State F)}

theorem queued_enqueue (hl : cfg.isLeader = true) (cache : GoMap Id (State F)) (id id' : Id)
    (st : State F) :
    queued (enqueue cfg { s with cache := cache } (keyOfId id) st) (keyOfId id') =
      if id' = id then some st else queued s (keyOfId id') := by
  simp only [enqueue,hl,if_true,queued,get_put,keyOfId_injective.eq_iff]
  split_ifs <;> simp

theorem cache_enqueue (cache : GoMap Id (State F)) (key : GoString) (st : State F) :
    (enqueue cfg { s with cache := cache } key st).cache = cache := by
  unfold enqueue
  split_ifs <;> rfl

theorem forceWrites_eq (hup : cfg.storageUp = true) (now : Int) (svc : ServiceName)
    (fresh : State F) (keys : List GoString) (s : Service F) (dropped : Bool) :
    (forceWrites cfg now svc fresh keys s dropped).1 =
      { s with
        storage := s.storage.putAll
          ((keys.map (scoreKey svc)).map fun key => (key,fresh.stamp now)) } := by
  induction keys generalizing s dropped with
  | nil => rfl
  | cons key keys ih =>
    simp [forceWrites,write,hup,ih]
    rfl

theorem mem_resetKeys (hit : s.cache.Iterates order)
    (svc : ServiceName) (target key : GoString) :
    key ∈ resetKeys order svc target ↔ resetHits s svc target (svc,key) = true := by
  simp only [resetKeys,resetHits,List.mem_map,mem_filter,Bool.and_eq_true,decide_eq_true_eq,
    has_iff]
  constructor
  · rintro ⟨⟨⟨svc',key'⟩,st⟩,⟨hm,rfl,ht⟩,rfl⟩
    exact ⟨⟨trivial,ht⟩,st,(hit.mem_iff _ _).mp hm⟩
  · rintro ⟨⟨-,ht⟩,st,hst⟩
    exact ⟨((svc,key),st),⟨(hit.mem_iff _ _).mpr hst,rfl,ht⟩,rfl⟩

theorem flushLoop_eq (hup : cfg.storageUp = true) (now : Int)
    (order chunk : List (GoString × State F)) (s : Service F) :
    flushLoop cfg now order chunk s =
      { s with
        storage := s.storage.putAll
          (chunk ++ order.map fun e => (e.1,e.2.stamp now)) } := by
  induction order generalizing chunk s with
  | nil => simp [flushLoop,flush,hup]
  | cons e order ih =>
    simp only [flushLoop,ih]
    split_ifs
    · simp [flush,hup,putAll_append]
      rfl
    · simp

section Flush

variable (hup : cfg.storageUp = true)

include hup

theorem flushPending_storage (now : Int)
    {order : List (GoString × State F)} (hit : s.pending.Iterates order) (key : GoString) :
    ((flushPending cfg s now order).storage.get key).map State.persisted =
      (queued s key).map State.persisted := by
  unfold flushPending queued
  by_cases hn : order = []
  · have hnn : s.pending.get key = none := by
      refine eq_none_iff_forall_ne_some.mpr fun st hst => ?_
      have hm := (hit.mem_iff key st).mpr hst
      simp [hn] at hm
    simp [hn,hnn]
  · simp [if_neg hn,flushLoop_eq hup]
    cases hp : s.pending.get key with
    | none =>
      have hke : key ∉ (order.map fun e => (e.1,e.2.stamp now)).map Prod.fst := by
        rw [List.map_map]
        intro hm
        obtain ⟨⟨k,st⟩,he,hk⟩ := List.mem_map.mp hm
        have hg := (hit.mem_iff k st).mp he
        rw [show k = key from hk,hp] at hg
        cases hg
      simp [get_putAll_of_notMem hke]
    | some st =>
      have hno : ((order.map fun e => (e.1,e.2.stamp now)).map Prod.fst).Nodup := by
        rw [List.map_map]
        exact hit.nodup
      have hm : (key,st.stamp now) ∈
          order.map fun e => (e.1,e.2.stamp now) :=
        List.mem_map.mpr ⟨(key,st),(hit.mem_iff key st).mpr hp,rfl⟩
      simp [get_putAll_of_mem hno hm]

theorem flushPending_cache (now : Int)
    (order : List (GoString × State F)) : (flushPending cfg s now order).cache = s.cache := by
  unfold flushPending
  split_ifs
  · rfl
  · rw [flushLoop_eq hup]

theorem flushPending_pending (now : Int)
    {order : List (GoString × State F)} (hit : s.pending.Iterates order) (key : GoString) :
    (flushPending cfg s now order).pending.get key = none := by
  unfold flushPending
  by_cases hn : order = []
  · rw [if_pos hn]
    refine eq_none_iff_forall_ne_some.mpr fun st hst => ?_
    have hm := (hit.mem_iff key st).mpr hst
    simp [hn] at hm
  · rw [if_neg hn,flushLoop_eq hup]
    exact get_empty key

end Flush

variable [Zero F]

variable [DecidableEq F] in
theorem get_cacheFor {sc : Scoring F} {svc : ServiceName} {key : GoString} {id : Id} {st : State F}
    (h : (cacheFor cfg sc s svc key).get id = some st) : s.cache.get id = some st := by
  unfold cacheFor at h
  split_ifs at h with hh hf
  · exact h
  · rw [pruneUninformative,GoMap.get_filter] at h
    exact eq_some_of_filter_eq_some h
  · exact h

theorem resetMatching_get (hup : cfg.storageUp = true) (now : Int)
    (hit : s.cache.Iterates order) (svc : ServiceName) (target : GoString) (id : Id) :
    (resetMatching cfg s now order svc target).1.cache.get id =
        (if resetHits s svc target id then some (.start cfg.initialScore) else s.cache.get id) ∧
      queued (resetMatching cfg s now order svc target).1 (keyOfId id) =
        (s.pending.get (keyOfId id)).or
          (if resetHits s svc target id then
            some ((State.start cfg.initialScore).stamp now)
          else s.storage.get (keyOfId id)) := by
  have hm : id ∈ (resetKeys order svc target).map (fun key => (svc,key)) ↔
      resetHits s svc target id = true := by
    obtain ⟨svc',key⟩ := id
    simp only [List.mem_map,mem_resetKeys hit,Prod.mk.injEq]
    constructor
    · rintro ⟨key',h,rfl,rfl⟩
      exact h
    · intro h
      have hs : svc' = svc := by
        simp [resetHits] at h
        exact h.1.1
      subst hs
      exact ⟨key,h,rfl,rfl⟩
  have hk : keyOfId id ∈ (resetKeys order svc target).map (scoreKey svc) ↔
      resetHits s svc target id = true := by
    rw [← hm]
    simp only [List.mem_map,scoreKey_eq_keyOfId,keyOfId_injective.eq_iff]
  unfold resetMatching
  by_cases hn : resetKeys order svc target = []
  · have hno : ¬resetHits s svc target id = true := by
      rw [← hm,hn]
      simp
    simp [hn,hno,queued]
  · simp only [if_neg hn,forceWrites_eq hup,queued,get_putAll_const,hm,hk,and_self]

variable [LT F] [DecidableLT F]

theorem rebaseKey_get (hl : cfg.isLeader = true) (floor : F) (svc : ServiceName) (key : GoString)
    (id : Id) :
    (rebaseKey cfg floor svc s key).1.cache.get id =
        (if lowers cfg s floor svc [key] id then some { stateOf cfg s id with score := floor }
          else s.cache.get id) ∧
      queued (rebaseKey cfg floor svc s key).1 (keyOfId id) =
        if lowers cfg s floor svc [key] id then some { stateOf cfg s id with score := floor }
          else queued s (keyOfId id) := by
  have hid : lowers cfg s floor svc [key] id = true ↔
      id = (svc,key) ∧ floor < (stateOf cfg s (svc,key)).score := by
    obtain ⟨svc',key'⟩ := id
    simp only [lowers,mem_singleton,Bool.and_eq_true,decide_eq_true_eq,Prod.mk.injEq]
    constructor
    · rintro ⟨⟨rfl,rfl⟩,h⟩
      exact ⟨⟨rfl,rfl⟩,h⟩
    · rintro ⟨⟨rfl,rfl⟩,h⟩
      exact ⟨⟨rfl,rfl⟩,h⟩
  unfold rebaseKey
  by_cases hlt : floor < (stateOf cfg s (svc,key)).score
  · simp [if_pos hlt,cache_enqueue,scoreKey_eq_keyOfId,queued_enqueue hl,get_put]
    by_cases he : id = (svc,key)
    · have ht := hid.mpr ⟨he,hlt⟩
      subst he
      simp [ht]
    · have hf : ¬lowers cfg s floor svc [key] id = true := fun h => he (hid.mp h).1
      simp [if_neg hf,if_neg he]
  · have hf : ¬lowers cfg s floor svc [key] id = true := fun h => hlt (hid.mp h).2
    simp [if_neg hlt,if_neg hf]

theorem rebaseLoop_get (hl : cfg.isLeader = true) (floor : F) (svc : ServiceName)
    (keys seen : List GoString) (s : Service F) (n : Nat) (id : Id) :
    (rebaseLoop cfg floor svc keys seen s n).1.cache.get id =
        (if lowers cfg s floor svc keys id ∧ id.2 ∉ seen then
          some { stateOf cfg s id with score := floor } else s.cache.get id) ∧
      queued (rebaseLoop cfg floor svc keys seen s n).1 (keyOfId id) =
        if lowers cfg s floor svc keys id ∧ id.2 ∉ seen then
          some { stateOf cfg s id with score := floor } else queued s (keyOfId id) := by
  induction keys generalizing seen s n with
  | nil => simp [rebaseLoop,lowers]
  | cons key keys ih =>
    by_cases hse : key ∈ seen
    · have hif : (lowers cfg s floor svc (key :: keys) id ∧ id.2 ∉ seen) ↔
          (lowers cfg s floor svc keys id ∧ id.2 ∉ seen) := by
        refine and_congr_left fun hn => ?_
        have hne : id.2 ≠ key := fun h => hn (h ▸ hse)
        simp [lowers,hne]
      simpa [rebaseLoop,if_pos hse,hif] using ih seen s n
    · obtain ⟨hc,hq⟩ := rebaseKey_get (s := s) hl floor svc key id
      have hih := ih (key :: seen) (rebaseKey cfg floor svc s key).1
        (if (rebaseKey cfg floor svc s key).2 then n + 1 else n)
      simp [rebaseLoop,if_neg hse]
      rw [hih.1,hih.2]
      by_cases hid : id.1 = svc ∧ id.2 = key
      · have hsk : ¬(lowers cfg (rebaseKey cfg floor svc s key).1 floor svc keys id ∧
            id.2 ∉ key :: seen) := fun h => h.2 (hid.2 ▸ (.head _))
        have hif : (lowers cfg s floor svc (key :: keys) id ∧ id.2 ∉ seen) ↔
            lowers cfg s floor svc [key] id := by
          simp [lowers,hid.1,hid.2,hse]
        simp only [if_neg hsk,hif,hc,hq,and_self]
      · have hno : ¬lowers cfg s floor svc [key] id = true := by
          intro h
          simp [lowers] at h
          exact hid h.1
        rw [if_neg hno] at hc hq
        have hst : stateOf cfg (rebaseKey cfg floor svc s key).1 id = stateOf cfg s id := by
          simp [stateOf,hc]
        have hif : (lowers cfg (rebaseKey cfg floor svc s key).1 floor svc keys id ∧
            id.2 ∉ key :: seen) ↔ (lowers cfg s floor svc (key :: keys) id ∧ id.2 ∉ seen) := by
          simp [lowers,hst]
          constructor
          · rintro ⟨⟨⟨hs,hk⟩,hf⟩,hne,hn⟩
            exact ⟨⟨⟨hs,.inr hk⟩,hf⟩,hn⟩
          · rintro ⟨⟨⟨hs,hk⟩,hf⟩,hn⟩
            have hne : id.2 ≠ key := fun h => hid ⟨hs,h⟩
            exact ⟨⟨⟨hs,hk.resolve_left hne⟩,hf⟩,hne,hn⟩
        simp only [hif,hst,hc,hq,and_self]

variable [DecidableEq F]

theorem tracks_rebase (hl : cfg.isLeader = true) (hT : Tracks s stale) (floor : F)
    (svc : ServiceName) (endpoints : List EndpointAddr) (t : RPCType) :
    Tracks (rebaseAfterDrain cfg floor s svc endpoints t).1
      (staleAfter cfg s stale (.rebase floor svc endpoints t)) := by
  intro id st hst
  obtain ⟨hc,hq⟩ := rebaseLoop_get hl floor svc (endpoints.map fun ep => cfg.keyOf ep t)
    [] s 0 id
  simp at hc hq
  unfold rebaseAfterDrain at hst ⊢
  rw [hc] at hst
  simp only [Queued,hq,staleAfter]
  split_ifs at hst ⊢ with hlo
  · cases hst
    simp
  · exact hT id st hst

theorem tracks_reset (hup : cfg.storageUp = true) (hT : Tracks s stale) (now : Int)
    (hit : s.cache.Iterates order) (svc : ServiceName)
    (target : GoString) :
    Tracks (resetMatching cfg s now order svc target).1
      (staleAfter cfg s stale (.reset now order svc target)) := by
  intro id st hst
  obtain ⟨hc,hq⟩ := resetMatching_get hup now hit svc target id
  rw [hc] at hst
  simp only [Queued,hq,staleAfter]
  split_ifs at hst ⊢ with hh
  · cases hst
    unfold pendingDiffers
    cases hp : s.pending.get (keyOfId id) with
    | none | some st' => simp
  · exact hT id st hst

theorem tracks_flush (hup : cfg.storageUp = true) (hT : Tracks s stale) (now : Int)
    {order : List (GoString × State F)} (hit : s.pending.Iterates order) :
    Tracks (flushPending cfg s now order) (staleAfter cfg s stale (.flush now order)) := by
  intro id st hst
  rw [flushPending_cache hup] at hst
  unfold Queued
  rw [queued,flushPending_pending hup now hit,none_or,flushPending_storage hup now hit]
  exact hT id st hst

variable [One F] [Add F] [Sub F] [Mul F]

theorem tracks_record (hl : cfg.isLeader = true) (hT : Tracks s stale) (sc : Scoring F) (now : Int)
    (svc : ServiceName) (endpoint : EndpointAddr) (t : RPCType) (signal : Signal) :
    Tracks (recordSignal cfg sc s now svc endpoint t signal)
      (staleAfter cfg s stale (.record sc now svc endpoint t signal)) := by
  intro id st hst
  unfold recordSignal at hst ⊢
  simp [cache_enqueue,get_put] at hst
  simp only [Queued,scoreKey_eq_keyOfId,queued_enqueue hl,staleAfter]
  split_ifs at hst ⊢ with hid
  · cases hst
    simp
  · exact hT id st (get_cacheFor hst)

theorem tracks_step (hl : cfg.isLeader = true) (hup : cfg.storageUp = true)
    {x x' : Service F × (Id → Bool)} {c : Call F} (hT : Tracks x.1 x.2)
    (h : trackedStep cfg x c = some x') : Tracks x'.1 x'.2 := by
  obtain ⟨s',hs',rfl⟩ := map_eq_some_iff.mp h
  cases c with
  | record sc now svc endpoint t signal =>
    cases hs'
    exact tracks_record hl hT sc now svc endpoint t signal
  | rebase floor svc endpoints t =>
    cases hs'
    exact tracks_rebase hl hT floor svc endpoints t
  | reset now order svc target =>
    obtain ⟨hit,rfl⟩ := Run.guard_pos hs'
    exact tracks_reset hup hT now hit svc target
  | flush now order =>
    obtain ⟨hit,rfl⟩ := Run.guard_pos hs'
    exact tracks_flush hup hT now hit

def Synced (s : Service F) : Prop := ∀ id st, s.cache.get id = some st → Queued s id st

theorem tracks_run (hl : cfg.isLeader = true) (hup : cfg.storageUp = true) (hs : Synced s)
    {x : Service F × (Id → Bool)}
    (h : Run.Reaches (trackedStep cfg) (fun _ _ => True) (s,fun _ => false) x) :
    Tracks x.1 x.2 := by
  refine h.invariant (fun x => Tracks x.1 x.2) ?_ ?_
  · intro id st hst
    exact iff_of_true rfl (hs id st hst)
  · intro x c x' hT _ hse
    exact tracks_step hl hup hT hse

theorem flushed_storage_agrees_iff {s₀ : Service F} (hl : cfg.isLeader = true)
    (hup : cfg.storageUp = true) (hs : Synced s₀) {x : Service F × (Id → Bool)}
    (h : Run.Reaches (trackedStep cfg) (fun _ _ => True) (s₀,fun _ => false) x) (now : Int)
    {order : List (GoString × State F)} (hit : x.1.pending.Iterates order) :
    (∀ id st, (flushPending cfg x.1 now order).cache.get id = some st →
      ((flushPending cfg x.1 now order).storage.get (keyOfId id)).map State.persisted =
        some st.persisted) ↔
      ∀ id, x.1.cache.has id = true → x.2 id = false := by
  have hT := tracks_run hl hup hs h
  rw [flushPending_cache hup]
  constructor
  · intro ha id hh
    obtain ⟨st,hst⟩ := (has_iff _ _).mp hh
    refine (hT id st hst).mpr ?_
    rw [Queued,← flushPending_storage hup now hit]
    exact ha id st hst
  · intro hc id st hst
    rw [flushPending_storage hup now hit]
    exact (hT id st hst).mp (hc id ((has_iff _ _).mpr ⟨st,hst⟩))

end Invariant

section Example

def intConfig : Config Int where
  initialScore := 100
  maxScore := 100
  half := 0
  pow _ _ := 1
  fadeWS _ := 1
  millis n := n / 1000000
  latencyAlpha := 0
  keyOf ep t := EndpointAddr.hostOfURL ((EndpointAddr.url ep).getD []) ++ '|' :: t.text
  shardOf _ := 0
  isLeader := true
  storageUp := true

def intScoring : Scoring Int where
  impact
    | .success => 5
    | .minorError => -3
    | .majorError => -10
    | .criticalError => -25
    | .fatalError => -50
  rateEnabled := false
  lambda := 0
  penalty _ := 0
  minThreshold := 10
  initialScoreOf _ _ := 100

def coldService : Service Int := ⟨∅,∅,∅⟩

def ethService : ServiceName := ⟨"eth".toList,by decide⟩

def fatalSignal : Call Int :=
  .record intScoring 0 ethService "pokt1a-https://a.example".toList .jsonRPC
    ⟨.fatalError,some 1000000000,0,[],false,false,0⟩

def afterSignal : Service Int := (step intConfig coldService fatalSignal).getD coldService

def operatorReset : Call Int := .reset 2 afterSignal.cache.toList ethService "a.example".toList

def afterReset : Service Int := (step intConfig afterSignal operatorReset).getD afterSignal

theorem pending_write_undoes_reset :
    Run.run (step intConfig) (fun _ _ => True) coldService [fatalSignal,operatorReset] =
      some afterReset ∧
    afterReset.pending.Iterates afterReset.pending.toList ∧
    ((flushPending intConfig afterReset 3 afterReset.pending.toList).cache.get
      (ethService,"a.example|json_rpc".toList)).map State.persisted = some (100,0,0,0,0) ∧
    ((flushPending intConfig afterReset 3 afterReset.pending.toList).storage.get
      "eth:a.example|json_rpc".toList).map State.persisted = some (50,0,1,1,1) :=
  ⟨rfl,iterates_toList _,by decide,by decide⟩

theorem signal_then_flush_agrees :
    Run.run (step intConfig) (fun _ _ => True) coldService [fatalSignal] = some afterSignal ∧
    ∀ id st, (flushPending intConfig afterSignal 3 afterSignal.pending.toList).cache.get id =
    some st →
      ((flushPending intConfig afterSignal 3 afterSignal.pending.toList).storage.get
        (keyOfId id)).map State.persisted = some st.persisted := by
  have hc : Synced coldService := by
    nofun
  have hr : Run.Reaches (trackedStep intConfig) (fun _ _ => True) (coldService,fun _ => false)
      (afterSignal,staleAfter intConfig coldService (fun _ => false) fatalSignal) :=
    Run.Reaches.start.next (a := fatalSignal) trivial rfl
  refine ⟨rfl,(flushed_storage_agrees_iff rfl rfl hc hr 3 (iterates_toList _)).mpr ?_⟩
  intro id _
  exact ite_self _

end Example

end SageGateway.Reputation
