import SageGateway.CircuitBreaker
import SageGateway.Lib.Run

namespace SageGateway.CircuitBreaker

open List Option GoMap
open Function (update_eq_self update_of_ne update_self)

structure Codec (W : Type) where
  marshal : BrokenState → W
  unmarshal : W → Option BrokenState
  unmarshal_marshal : ∀ st, unmarshal (marshal st) = some st

abbrev Entries (W : Type) := GoMap GoString W

section Values

variable {W : Type}

def Entries.state (C : Codec W) (entries : Entries W) (domain : GoString) : Option BrokenState :=
  (GoMap.get entries domain).bind C.unmarshal

def mergeRow (C : Codec W) (svc : GoString) (now : Int) (broken : GoMap Key BrokenState)
    (row : GoString × W) : GoMap Key BrokenState :=
  match C.unmarshal row.2 with
  | none => broken
  | some st =>
      if st.isExpired now then broken
      else match broken.get ⟨svc,row.1⟩ with
        | none => broken.put ⟨svc,row.1⟩ st
        | some existing =>
            if existing.expiry < st.expiry then broken.put ⟨svc,row.1⟩ st else broken

def Breaker.survives (b : Breaker) (svc : GoString) (entries : Entries W) (now : Int) (k : Key) :
    Bool :=
  k.serviceID ≠ svc || entries.has k.domain ||
    match b.brokenLocally.get k with
    | some brokenAt => GoTime.sub now brokenAt < defaultCacheTTL
    | none => false

def mergeRedisEntries (C : Codec W) (b : Breaker) (svc : GoString) (entries : Entries W)
    (now : Int) :
    Breaker :=
  { b with
    broken := entries.toList.foldl (mergeRow C svc now)
      (b.broken.filter fun k _ => b.survives svc entries now k)
    brokenLocally := b.brokenLocally.filter fun k _ =>
      b.survives svc entries now k || !b.broken.has k }

end Values

structure Redis (W : Type) where
  hashes : GoMap GoString (Entries W)
  expireAt : GoMap GoString Int

namespace Redis

variable {W : Type}

def entries (r : Redis W) (svc : GoString) : Entries W := (r.hashes.get svc).getD ∅

def lapsed (r : Redis W) (svc : GoString) (now : Int) : Bool :=
  match r.expireAt.get svc with
  | some t => t < now
  | none => false

def live (r : Redis W) (svc : GoString) (now : Int) : Redis W :=
  if r.lapsed svc now then ⟨r.hashes.del svc,r.expireAt.del svc⟩ else r

def hset (r : Redis W) (k : Key) (raw : W) : Redis W :=
  { r with hashes := r.hashes.put k.serviceID ((r.entries k.serviceID).put k.domain raw) }

def expire (r : Redis W) (svc : GoString) (at' : Int) : Redis W :=
  if r.hashes.has svc then { r with expireAt := r.expireAt.put svc at' } else r

def state (C : Codec W) (r : Redis W) (k : Key) : Option BrokenState :=
  (r.entries k.serviceID).state C k.domain

end Redis

structure Fleet (ι W : Type) where
  clock : Int
  redis : Redis W
  replicas : ι → Replica
  refreshes : GoMap Nat (ι × GoString × Entries W)

namespace Fleet

inductive Act (ι : Type) where
  | tick (t : Int)
  | call (i : ι) (a : Replica.Act)
  | hset (i : ι) (n : Nat)
  | expire (i : ι) (n : Nat)
  | hgetall (m : Nat) (i : ι) (svc : GoString)
  | merge (m : Nat)

variable {ι W F : Type} [DecidableEq ι] [Add F] [Div F] [NatCast F] [LT F] [DecidableLT F]

def start (clock : Int) : Fleet ι W := ⟨clock,⟨∅,∅⟩,fun _ => .new,∅⟩

def setReplica (s : Fleet ι W) (i : ι) (r : Replica) : Fleet ι W :=
  { s with replicas := Function.update s.replicas i r }

def hsetCall (C : Codec W) (s : Fleet ι W) (i : ι) (n : Nat) : Option (Fleet ι W) :=
  match (s.replicas i).calls.get n with
  | some (.persisting k st) =>
      let redis := (s.redis.live k.serviceID s.clock).hset k (C.marshal st)
      some ({ s with redis := redis }.setReplica i ((s.replicas i).setCall n (.expiring k)))
  | _ => none

def expireCall (s : Fleet ι W) (i : ι) (n : Nat) : Option (Fleet ι W) :=
  match (s.replicas i).calls.get n with
  | some (.expiring k) =>
      let redis := (s.redis.live k.serviceID s.clock).expire k.serviceID
        (s.clock + defaultMaxTTL + GoTime.minute)
      some ({ s with redis := redis }.setReplica i ((s.replicas i).endCall n))
  | _ => none

def fetch (s : Fleet ι W) (m : Nat) (i : ι) (svc : GoString) : Option (Fleet ι W) :=
  if s.refreshes.has m then none
  else
    let redis := s.redis.live svc s.clock
    some { s with redis := redis, refreshes := s.refreshes.put m (i,svc,redis.entries svc) }

def mergeFetched (C : Codec W) (s : Fleet ι W) (m : Nat) : Option (Fleet ι W) :=
  match s.refreshes.get m with
  | some (i,svc,entries) =>
      let r := s.replicas i
      let breaker := mergeRedisEntries C r.breaker svc entries s.clock
      some ({ s with refreshes := s.refreshes.del m }.setReplica i { r with breaker := breaker })
  | none => none

def step (g : Gate F) (C : Codec W) (s : Fleet ι W) : Act ι → Option (Fleet ι W)
  | .tick t => if s.clock ≤ t then some { s with clock := t } else none
  | .call i a => ((s.replicas i).step g true s.clock a).map fun r => s.setReplica i r
  | .hset i n => s.hsetCall C i n
  | .expire i n => s.expireCall i n
  | .hgetall m i svc => s.fetch m i svc
  | .merge m => s.mergeFetched C m

theorem setReplica_self (s : Fleet ι W) (i : ι) (r : Replica) :
    (s.setReplica i r).replicas i = r := by
  simp [setReplica]

theorem setReplica_ne (s : Fleet ι W) {i j : ι} (h : j ≠ i) (r : Replica) :
    (s.setReplica i r).replicas j = s.replicas j := by
  simp [setReplica,update_of_ne h]

end Fleet

structure WatchedFleet (ι W : Type) where
  fleet : Fleet ι W
  latest : GoMap Key Int
  calm : List Nat
  settled : List (ι × GoString)

namespace WatchedFleet

variable {ι W F : Type} [DecidableEq ι] [Fintype ι] [Add F] [Div F] [NatCast F] [LT F]
  [DecidableLT F]

def start (clock : Int) : WatchedFleet ι W := ⟨.start clock,∅,[],[]⟩

def raise (latest : GoMap Key Int) (k : Key) (expiry : Int) : GoMap Key Int :=
  match latest.get k with
  | some l => if l < expiry then latest.put k expiry else latest
  | none => latest.put k expiry

def Quiet (s : Fleet ι W) : Prop := ∀ i, (s.replicas i).calls.len = 0

instance (s : Fleet ι W) : Decidable (Quiet s) := Fintype.decidableForallFintype

def watch (s : WatchedFleet ι W) (fleet : Fleet ι W) : MarkEvent → WatchedFleet ι W
  | .published _ k _ st => ⟨fleet,raise s.latest k st.expiry,[],[]⟩
  | _ => { s with fleet := fleet }

def settledAfter (s : WatchedFleet ι W) (m : Nat) : List (ι × GoString) :=
  match s.fleet.refreshes.get m with
  | some (i,svc,_) =>
      if m ∈ s.calm then (i,svc) :: s.settled else s.settled.filter (· ≠ (i,svc))
  | none => s.settled

def step (g : Gate F) (C : Codec W) (s : WatchedFleet ι W) (a : Fleet.Act ι) :
    Option (WatchedFleet ι W) :=
  (s.fleet.step g C a).map fun fleet =>
    match a with
    | .call i a => s.watch fleet ((s.fleet.replicas i).event g s.fleet.clock a)
    | .hgetall m _ _ => { s with
        fleet := fleet
        calm := if Quiet s.fleet then m :: s.calm else s.calm.filter (· ≠ m) }
    | .merge m => { s with
        fleet := fleet
        calm := s.calm.filter (· ≠ m)
        settled := s.settledAfter m }
    | _ => { s with fleet := fleet }

def lowers (C : Codec W) (s : Fleet ι W) (k : Key) (st : BrokenState) : Bool :=
  match (s.redis.live k.serviceID s.clock).state C k with
  | some held => !held.isExpired s.clock && st.expiry < held.expiry
  | none => false

def dropsLive (C : Codec W) (s : Fleet ι W) (svc : GoString) : Bool :=
  s.redis.lapsed svc s.clock && (s.redis.entries svc).toList.any fun row =>
    match C.unmarshal row.2 with
    | some st => !st.isExpired s.clock
    | none => false

def spoils (C : Codec W) (s : Fleet ι W) : Fleet.Act ι → Bool
  | .hset i n =>
      match (s.replicas i).calls.get n with
      | some (.persisting k st) => lowers C s k st || dropsLive C s k.serviceID
      | _ => false
  | .expire i n =>
      match (s.replicas i).calls.get n with
      | some (.expiring k) => dropsLive C s k.serviceID
      | _ => false
  | .hgetall _ _ svc => dropsLive C s svc
  | _ => false

def Allowed (C : Codec W) (s : WatchedFleet ι W) (a : Fleet.Act ι) : Prop :=
  spoils C s.fleet a = false

instance (C : Codec W) (s : WatchedFleet ι W) (a : Fleet.Act ι) : Decidable (Allowed C s a) :=
  inferInstanceAs (Decidable (_ = _))

def At (held : Option BrokenState) (expiry : Int) : Prop :=
  ∃ st, held = some st ∧ st.expiry = expiry

structure Agrees (s : WatchedFleet ι W) (svc : GoString) : Prop where
  holdsLatest : ∀ domain l, s.latest.get ⟨svc,domain⟩ = some l → s.fleet.clock ≤ l →
    ∀ i, At ((s.fleet.replicas i).breaker.broken.get ⟨svc,domain⟩) l
  onlyLatest : ∀ domain i st, (s.fleet.replicas i).breaker.broken.get ⟨svc,domain⟩ = some st →
    s.fleet.clock ≤ st.expiry → s.latest.get ⟨svc,domain⟩ = some st.expiry

end WatchedFleet

section Merge

variable {W : Type}

def mergeAt (C : Codec W) (now : Int) (raw : W) (held : Option BrokenState) :
    Option BrokenState :=
  match C.unmarshal raw with
  | none => held
  | some st =>
      if st.isExpired now then held
      else match held with
        | none => some st
        | some existing => if existing.expiry < st.expiry then some st else held

variable (C : Codec W) (b : Breaker) (svc : GoString) (entries : Entries W) (now : Int)

theorem key_injective : Function.Injective (Key.mk svc) := by
  rintro domain domain' h
  cases h
  rfl

theorem get_mergeRow_ne (broken : GoMap Key BrokenState) (row : GoString × W) (k : Key)
    (h : k ≠ ⟨svc,row.1⟩) : (mergeRow C svc now broken row).get k = broken.get k := by
  unfold mergeRow
  split
  · rfl
  · split_ifs
    · rfl
    · split
      · exact get_put_ne _ _ h
      · split_ifs
        · exact get_put_ne _ _ h
        · rfl

theorem get_mergeRow_self (broken : GoMap Key BrokenState) (row : GoString × W) :
    (mergeRow C svc now broken row).get ⟨svc,row.1⟩ =
      mergeAt C now row.2 (broken.get ⟨svc,row.1⟩) := by
  unfold mergeRow mergeAt
  cases C.unmarshal row.2 with
  | none => rfl
  | some st =>
    cases hg : broken.get ⟨svc,row.1⟩ with
    | none | some existing =>
      simp only
      split_ifs <;> simp [hg]

theorem get_mergeRedisEntries_listed {domain : GoString} {raw : W}
    (h : entries.get domain = some raw) :
    (mergeRedisEntries C b svc entries now).broken.get ⟨svc,domain⟩ =
      mergeAt C now raw (b.broken.get ⟨svc,domain⟩) := by
  have hie := iterates_toList entries
  have hs : b.survives svc entries now ⟨svc,domain⟩ = true := by
    simp [Breaker.survives,has,h]
  have hr := get_foldl_of_mem (key_injective svc)
    (fun m row k hk => get_mergeRow_ne C svc now m row k hk)
    (fun m row => get_mergeRow_self C svc now m row) hie.nodup ((hie.mem_iff domain raw).mpr h)
    (b.broken.filter fun k _ => b.survives svc entries now k)
  refine hr.trans ?_
  rw [GoMap.get_filter]
  cases b.broken.get ⟨svc,domain⟩ with
  | none => rfl
  | some st => rw [filter_some,if_pos hs]

theorem get_mergeRedisEntries_unlisted {k : Key}
    (h : k.serviceID = svc → entries.get k.domain = none) :
    (mergeRedisEntries C b svc entries now).broken.get k =
      (b.broken.get k).filter fun _ => b.survives svc entries now k := by
  refine (get_foldl_of_notMem (Key.mk svc)
    (fun m row j hj => get_mergeRow_ne C svc now m row j hj) ?_ _).trans (GoMap.get_filter _ _ _)
  rintro ⟨domain,raw⟩ hr rfl
  have hg := ((iterates_toList entries).mem_iff domain raw).mp hr
  rw [h rfl] at hg
  cases hg

theorem get_mergeRedisEntries_other {k : Key} (h : k.serviceID ≠ svc) :
    (mergeRedisEntries C b svc entries now).broken.get k = b.broken.get k := by
  rw [get_mergeRedisEntries_unlisted C b svc entries now fun hk => absurd hk h]
  cases b.broken.get k with
  | none => rfl
  | some st => simp [Breaker.survives,h]

theorem merged_from {k : Key} {st : BrokenState}
    (h : (mergeRedisEntries C b svc entries now).broken.get k = some st) :
    b.broken.get k = some st ∨ k.serviceID = svc ∧ entries.state C k.domain = some st := by
  obtain ⟨svc',domain⟩ := k
  by_cases hsv : svc' = svc
  · subst hsv
    cases hr : entries.get domain with
    | none =>
      rw [get_mergeRedisEntries_unlisted C b svc' entries now fun _ => hr] at h
      exact .inl (filter_eq_some_iff.mp h).1
    | some raw =>
      rw [get_mergeRedisEntries_listed C b svc' entries now hr] at h
      have hs : entries.state C domain = C.unmarshal raw := by
        rw [Entries.state,hr,bind_some]
      rw [hs]
      unfold mergeAt at h
      split at h
      · exact .inl h
      · rename_i st' hs'
        split_ifs at h
        · exact .inl h
        · split at h
          · exact .inr ⟨rfl,hs'.trans h⟩
          · split_ifs at h
            · exact .inr ⟨rfl,hs'.trans h⟩
            · exact .inl h
  · rw [get_mergeRedisEntries_other C b svc entries now hsv] at h
    exact .inl h

theorem merged_at {domain : GoString} {st : BrokenState}
    (hs : entries.state C domain = some st) (hl : st.isExpired now = false)
    (hh : ∀ held, b.broken.get ⟨svc,domain⟩ = some held → held.expiry ≤ st.expiry) :
    WatchedFleet.At
    ((mergeRedisEntries C b svc entries now).broken.get ⟨svc,domain⟩) st.expiry := by
  obtain ⟨raw,hr,hst⟩ := bind_eq_some_iff.mp hs
  rw [get_mergeRedisEntries_listed C b svc entries now hr,mergeAt,hst]
  cases hg : b.broken.get ⟨svc,domain⟩ with
  | none => exact ⟨st,by simp [hl],rfl⟩
  | some held =>
    simp [hl]
    split_ifs with hlt
    · exact ⟨st,rfl,rfl⟩
    · exact ⟨held,rfl,le_antisymm (hh held hg) (not_lt.mp hlt)⟩

end Merge

namespace Redis

variable {W : Type} {C : Codec W} {r : Redis W} {svc : GoString} {now : Int}

theorem entries_live (r : Redis W) (svc other : GoString) (now : Int) :
    (r.live svc now).entries other =
      if r.lapsed svc now ∧ other = svc then ∅ else r.entries other := by
  unfold live
  split_ifs with hl hb hb
  · rw [entries,hb.2,get_del_self,getD_none]
  · have hne : other ≠ svc := fun h => hb ⟨hl,h⟩
    rw [entries,get_del_ne _ hne,entries]
  · exact absurd hb.1 hl
  · rfl

theorem state_of_live {k : Key} {st : BrokenState} (h : (r.live svc now).state C k = some st) :
    r.state C k = some st := by
  rw [state,entries_live] at h
  split_ifs at h
  · cases h
  · exact h

theorem state_hset (k : Key) (raw : W) (j : Key) :
    (r.hset k raw).state C j = if j = k then C.unmarshal raw else r.state C j := by
  obtain ⟨svc,domain⟩ := j
  unfold state hset
  by_cases hs : svc = k.serviceID
  · have he : Redis.entries { r with
        hashes := r.hashes.put k.serviceID ((r.entries k.serviceID).put k.domain raw) } svc =
          (r.entries k.serviceID).put k.domain raw := by
      rw [entries,hs,get_put_self,getD_some]
    rw [he,Entries.state]
    by_cases hd : domain = k.domain
    · rw [if_pos (by rw [hs,hd]),hd,get_put_self,bind_some]
    · rw [if_neg (fun h => hd (congrArg Key.domain h)),get_put_ne _ _ hd,hs,
        Entries.state]
  · rw [if_neg (fun h => hs (congrArg Key.serviceID h)),entries,get_put_ne _ _ hs,
      ← entries]

theorem state_expire (svc : GoString) (t : Int) (k : Key) :
    (r.expire svc t).state C k = r.state C k := by
  unfold expire
  split_ifs <;> rfl

end Redis

theorem isExpired_eq_false {st : BrokenState} {now : Int} (h : now ≤ st.expiry) :
    st.isExpired now = false := decide_eq_false (not_lt.mpr h)

namespace MarkEvent

def publishes : MarkEvent → Bool
  | .published _ _ _ _ => true
  | _ => false

theorem broken_apply {ev : MarkEvent} (h : ev.publishes = false) (redis : Bool) (v : MarkView) :
    (ev.apply redis v).broken = v.broken := by
  cases ev <;> first | rfl | cases h

theorem persisting_apply {ev : MarkEvent} (h : ev.publishes = false) {clock : Int} {v : MarkView}
    (hf : ev.Fits clock v) (redis : Bool) (m : Nat) (k : Key) (st : BrokenState) :
    (ev.apply redis v).calls.get m = some (.persisting k st) ↔
      v.calls.get m = some (.persisting k st) := by
  have hp : ∀ n c, c.reading ≠ none → (∀ d, v.calls.get n = some d → d.reading ≠ none) →
      ((v.calls.put n c).get m = some (.persisting k st) ↔
        v.calls.get m = some (.persisting k st)) := by
    intro n c hc hold
    rw [get_put_eq_some]
    constructor
    · rintro (⟨-,rfl⟩ | ⟨-,hg⟩)
      · exact absurd rfl hc
      · exact hg
    · refine fun hg => .inr ⟨?_,hg⟩
      rintro rfl
      exact hold _ hg rfl
  cases ev with
  | quiet => rfl
  | called n k' reason now =>
    exact hp n _ nofun fun d hd => by rw [hf.1] at hd; cases hd
  | ended n =>
    obtain ⟨c,hg,hc⟩ := hf
    refine get_del_eq_some.trans ⟨And.right,fun hm => ⟨?_,hm⟩⟩
    rintro rfl
    cases hg.symm.trans hm
    exact hc rfl
  | passed n k' reason now =>
    exact hp n _ nofun fun d hd => by rw [hf.1] at hd; cases hd; exact nofun
  | decided n k' now st' =>
    obtain ⟨⟨reason,hg⟩,-⟩ := hf
    exact hp n _ nofun fun d hd => by rw [hg] at hd; cases hd; exact nofun
  | published n k' now st' => cases h

end MarkEvent

namespace WatchedFleet

variable {ι W F : Type}

def Below (latest : GoMap Key Int) (k : Key) (st : BrokenState) : Prop :=
  ∃ l, latest.get k = some l ∧ st.expiry ≤ l

def Sends (s : Fleet ι W) (k : Key) (st : BrokenState) : Prop :=
  ∃ i n, (s.replicas i).calls.get n = some (.persisting k st)

structure Inv (C : Codec W) (s : WatchedFleet ι W) : Prop where
  held : ∀ i k st, (s.fleet.replicas i).breaker.broken.get k = some st → Below s.latest k st
  stored : ∀ k st, s.fleet.redis.state C k = some st → Below s.latest k st
  fetched : ∀ m i svc entries domain st, s.fleet.refreshes.get m = some (i,svc,entries) →
    entries.state C domain = some st → Below s.latest ⟨svc,domain⟩ st
  sending : ∀ k st, Sends s.fleet k st → Below s.latest k st
  carried : ∀ k l, s.latest.get k = some l → s.fleet.clock ≤ l →
    At (s.fleet.redis.state C k) l ∨ ∃ st, Sends s.fleet k st ∧ st.expiry = l
  calm : ∀ m i svc entries, m ∈ s.calm → s.fleet.refreshes.get m = some (i,svc,entries) →
    ∀ domain l, s.latest.get ⟨svc,domain⟩ = some l → s.fleet.clock ≤ l →
      At (entries.state C domain) l
  settled : ∀ i svc, (i,svc) ∈ s.settled →
    ∀ domain l, s.latest.get ⟨svc,domain⟩ = some l → s.fleet.clock ≤ l →
      At ((s.fleet.replicas i).breaker.broken.get ⟨svc,domain⟩) l

theorem inv_start (C : Codec W) (clock : Int) : Inv C (start clock : WatchedFleet ι W) where
  held i k st h := by cases h
  stored k st h := by cases h
  fetched m i svc entries domain st h := by cases h
  sending k st h := by
    obtain ⟨i,n,hg⟩ := h
    cases hg
  carried k l h := by cases h
  calm m i svc entries h := by cases h
  settled i svc h := by cases h

variable {st : BrokenState} {s : Fleet ι W} {j k : Key} {n : Nat} {i : ι}

theorem state_live {C : Codec W} {svc : GoString} (h : dropsLive C s svc = false)
    (hst : s.redis.state C k = some st) (hli : s.clock ≤ st.expiry) :
    (s.redis.live svc s.clock).state C k = some st := by
  rw [Redis.state,Redis.entries_live]
  split_ifs with hd
  · obtain ⟨hl,hs⟩ := hd
    obtain ⟨raw,hr,hu⟩ := bind_eq_some_iff.mp hst
    rw [hs] at hr
    refine absurd h (Bool.not_eq_false _ ▸ ?_)
    refine Bool.and_eq_true_iff.mpr ⟨hl,List.any_eq_true.mpr ⟨(k.domain,raw),?_,?_⟩⟩
    · exact ((iterates_toList _).mem_iff _ _).mpr hr
    · simp [hu,isExpired_eq_false hli]
  · exact hst

theorem get_raise (latest : GoMap Key Int) (j k : Key) (expiry : Int) :
    (raise latest k expiry).get j =
      if j = k then some (max ((latest.get k).getD expiry) expiry) else latest.get j := by
  unfold raise
  cases hl : latest.get k with
  | none => simp [get_put]
  | some l =>
    by_cases hlt : l < expiry
    · simp [hlt,get_put,max_eq_right hlt.le]
    · simp only [if_neg hlt,getD_some,max_eq_left (not_lt.mp hlt)]
      split_ifs with hj
      · rw [hj,hl]
      · rfl

theorem Below.raise {latest : GoMap Key Int} (expiry : Int) (h : Below latest j st) :
    Below (raise latest k expiry) j st := by
  obtain ⟨l,hl,hle⟩ := h
  rw [Below,get_raise]
  split_ifs with hj
  · rw [← hj,hl]
    exact ⟨_,rfl,hle.trans (le_max_left _ _)⟩
  · exact ⟨l,hl,hle⟩

theorem below_raise_self (latest : GoMap Key Int) (k : Key) (st : BrokenState) :
    Below (raise latest k st.expiry) k st :=
  ⟨_,(get_raise latest k k _).trans (if_pos rfl),le_max_right _ _⟩

theorem of_get_raise {latest : GoMap Key Int} {expiry l : Int}
    (h : (raise latest k expiry).get j = some l) :
    latest.get j = some l ∨ j = k ∧ l = expiry := by
  rw [get_raise] at h
  split_ifs at h with hj
  · cases h
    cases hl : latest.get k with
    | none => exact .inr ⟨hj,max_self _⟩
    | some l =>
      rw [hj,hl]
      exact (max_choice l expiry).imp (congrArg some ·.symm) fun hm => ⟨rfl,hm⟩
  · exact .inl h

theorem not_sends_of_quiet (h : Quiet s) (k : Key) (st : BrokenState) :
    ¬ Sends s k st := by
  rintro ⟨i,n,hg⟩
  rw [get_of_len_zero (h i)] at hg
  cases hg

theorem expiry_eq_of_not_lowers {C : Codec W} {held : BrokenState}
    (hl : lowers C s k st = false) (hd : dropsLive C s k.serviceID = false)
    (hh : s.redis.state C k = some held) (hli : s.clock ≤ held.expiry)
    (hle : st.expiry ≤ held.expiry) : st.expiry = held.expiry := by
  simp [lowers,state_live hd hh hli,isExpired_eq_false hli] at hl
  exact le_antisymm hle hl

namespace Inv

variable {C : Codec W} {s : WatchedFleet ι W} {fleet : Fleet ι W} {svc : GoString} {m : Nat}
  (h : Inv C s)

include h

theorem of_same (hc : s.fleet.clock ≤ fleet.clock)
    (hsa : ∀ k st, fleet.redis.state C k = some st → s.fleet.redis.state C k = some st)
    (hli : ∀ k st, s.fleet.redis.state C k = some st → s.fleet.clock ≤ st.expiry →
      fleet.redis.state C k = some st)
    (hr : fleet.refreshes = s.fleet.refreshes)
    (hb : ∀ i, (fleet.replicas i).breaker.broken = (s.fleet.replicas i).breaker.broken)
    (hs : ∀ k st, Sends fleet k st ↔ Sends s.fleet k st) :
    Inv C { s with fleet := fleet } where
  held i k st hget := h.held i k st (by rwa [← hb i])
  stored k st hget := h.stored k st (hsa k st hget)
  fetched m i svc entries domain st hget := h.fetched m i svc entries domain st (hr ▸ hget)
  sending k st hsend := h.sending k st ((hs k st).mp hsend)
  carried k l hl hle := by
    have hold := hc.trans hle
    rcases h.carried k l hl hold with ⟨st,hst,rfl⟩ | ⟨st,hsend,he⟩
    · exact .inl ⟨st,hli k st hst hold,rfl⟩
    · exact .inr ⟨st,(hs k st).mpr hsend,he⟩
  calm m i svc entries hm hget domain l hl hle :=
    h.calm m i svc entries hm (hr ▸ hget) domain l hl (hc.trans hle)
  settled i svc hme domain l hl hle := by
    have hat := h.settled i svc hme domain l hl (hc.trans hle)
    rwa [← hb i] at hat

theorem merged_at_latest {entries : Entries W}
    (hm : m ∈ s.calm) (hg : s.fleet.refreshes.get m = some (i,svc,entries)) {domain : GoString}
    {l : Int} (hl : s.latest.get ⟨svc,domain⟩ = some l) (hle : s.fleet.clock ≤ l) :
    At ((mergeRedisEntries C (s.fleet.replicas i).breaker svc entries
      s.fleet.clock).broken.get ⟨svc,domain⟩) l := by
  obtain ⟨st,hst,rfl⟩ := h.calm m i svc entries hm hg domain l hl hle
  refine merged_at C _ svc entries _ hst (isExpired_eq_false hle) fun held hh => ?_
  obtain ⟨l,hl',hle'⟩ := h.held i ⟨svc,domain⟩ held hh
  cases hl.symm.trans hl'
  exact hle'

theorem agrees (ha : ∀ i, (i,svc) ∈ s.settled) : s.Agrees svc where
  holdsLatest domain l hl hle i := h.settled i svc (ha i) domain l hl hle
  onlyLatest domain i st hst hle := by
    obtain ⟨l,hl,hs⟩ := h.held i _ st hst
    obtain ⟨st',hs',rfl⟩ := h.settled i svc (ha i) domain l hl (hle.trans hs)
    cases hst.symm.trans hs'
    exact hl

theorem tick {t : Int} (ht : s.fleet.clock ≤ t) :
    Inv C { s with fleet := { s.fleet with clock := t } } :=
  h.of_same ht (fun _ _ hg => hg) (fun _ _ hg _ => hg) rfl (fun _ => rfl) fun _ _ => Iff.rfl

variable [Fintype ι] in
theorem hgetall (hok : spoils C s.fleet (.hgetall m i svc) = false)
    (hse : s.fleet.fetch m i svc = some fleet) :
    Inv C { s with
      fleet := fleet
      calm := if Quiet s.fleet then m :: s.calm else s.calm.filter (· ≠ m) } := by
  obtain ⟨-,rfl⟩ := Run.guard_neg hse
  have hd : dropsLive C s.fleet svc = false := hok
  have hc : ∀ m', m' ≠ m →
      m' ∈ (if Quiet s.fleet then m :: s.calm else s.calm.filter (· ≠ m)) → m' ∈ s.calm := by
    intro m' hm' hm
    split_ifs at hm
    · exact (mem_cons.mp hm).resolve_left hm'
    · exact (mem_filter.mp hm).1
  have hqu : m ∈ (if Quiet s.fleet then m :: s.calm else s.calm.filter (· ≠ m)) →
      Quiet s.fleet := by
    intro hm
    split_ifs at hm with hq
    · exact hq
    · simp at hm
  refine ⟨h.held,fun k st hst => h.stored k st (Redis.state_of_live hst),?_,h.sending,?_,?_,
    h.settled⟩
  · intro m' j svc' entries domain st hg hst
    rcases get_put_eq_some.mp hg with ⟨-,heq⟩ | ⟨-,hold⟩
    · cases heq
      exact h.stored ⟨svc,domain⟩ st (Redis.state_of_live hst)
    · exact h.fetched m' j svc' entries domain st hold hst
  · intro k l hl hle
    rcases h.carried k l hl hle with ⟨st,hst,rfl⟩ | hs
    · exact .inl ⟨st,state_live hd hst hle,rfl⟩
    · exact .inr hs
  · intro m' j svc' entries hm hg domain l hl hle
    rcases get_put_eq_some.mp hg with ⟨rfl,heq⟩ | ⟨hne,hold⟩
    · cases heq
      rcases h.carried _ l hl hle with ⟨st,hst,rfl⟩ | ⟨st,hs,-⟩
      · exact ⟨st,state_live hd hst hle,rfl⟩
      · exact absurd hs (not_sends_of_quiet (hqu hm) _ _)
    · exact h.calm m' j svc' entries (hc m' hne hm) hold domain l hl hle

end Inv

variable [DecidableEq ι] [Add F] [Div F] [NatCast F] [LT F] [DecidableLT F]

section Sending

variable {r : Replica} {Q : Prop}

theorem Sends.of_setReplica (h : Sends (s.setReplica i r) k st)
    (hr : ∀ n, r.calls.get n = some (.persisting k st) →
      (s.replicas i).calls.get n = some (.persisting k st) ∨ Q) : Sends s k st ∨ Q := by
  obtain ⟨j,n,hg⟩ := h
  by_cases hj : j = i
  · rw [hj,Fleet.setReplica_self] at hg
    exact (hr n hg).imp_left fun h => ⟨i,n,h⟩
  · rw [Fleet.setReplica_ne _ hj] at hg
    exact .inl ⟨j,n,hg⟩

theorem Sends.setReplica (h : Sends s k st)
    (hr : ∀ n, (s.replicas i).calls.get n = some (.persisting k st) →
      r.calls.get n = some (.persisting k st) ∨ Q) : Sends (s.setReplica i r) k st ∨ Q := by
  obtain ⟨j,n,hg⟩ := h
  by_cases hj : j = i
  · subst hj
    exact (hr n hg).imp_left fun h => ⟨j,n,by rwa [Fleet.setReplica_self]⟩
  · exact .inl ⟨j,n,by rwa [Fleet.setReplica_ne _ hj]⟩

theorem sends_setReplica_same (hr : ∀ n, r.calls.get n = some (.persisting k st) ↔
    (s.replicas i).calls.get n = some (.persisting k st)) :
    Sends (s.setReplica i r) k st ↔ Sends s k st :=
  ⟨fun h => (h.of_setReplica fun n hg => .inl ((hr n).mp hg)).elim id False.elim,
    fun h => (h.setReplica fun n hg => .inl ((hr n).mpr hg)).elim id False.elim⟩

end Sending

theorem broken_setReplica (s : Fleet ι W) (i j : ι) {r : Replica}
    (h : r.breaker.broken = (s.replicas i).breaker.broken) :
    ((s.setReplica i r).replicas j).breaker.broken = (s.replicas j).breaker.broken := by
  by_cases hj : j = i
  · subst hj
    rw [Fleet.setReplica_self,h]
  · rw [Fleet.setReplica_ne _ hj]

theorem mem_settledAfter {s : WatchedFleet ι W} {m : Nat} {j : ι} {svc svc' : GoString}
    {entries : Entries W} (hg : s.fleet.refreshes.get m = some (i,svc,entries))
    (hme : (j,svc') ∈ s.settledAfter m) :
    (j = i ∧ svc' = svc ∧ m ∈ s.calm) ∨ ((j = i → svc' ≠ svc) ∧ (j,svc') ∈ s.settled) := by
  simp only [settledAfter,hg] at hme
  split_ifs at hme with hm
  · rcases mem_cons.mp hme with heq | hold
    · cases heq
      exact .inl ⟨rfl,rfl,hm⟩
    · by_cases hp : j = i ∧ svc' = svc
      · exact .inl ⟨hp.1,hp.2,hm⟩
      · exact .inr ⟨fun hj hs => hp ⟨hj,hs⟩,hold⟩
  · obtain ⟨hold,hne⟩ := mem_filter.mp hme
    refine .inr ⟨fun hj hs => of_decide_eq_true hne ?_,hold⟩
    rw [hj,hs]

namespace Inv

variable {C : Codec W} {s : WatchedFleet ι W}

variable {fleet : Fleet ι W} {svc : GoString} {m : Nat} {r : Replica}

section

variable (h : Inv C s)

include h

theorem quietCall (hb : r.breaker.broken = (s.fleet.replicas i).breaker.broken)
    (hc : ∀ m k st, r.calls.get m = some (.persisting k st) ↔
      (s.fleet.replicas i).calls.get m = some (.persisting k st)) :
    Inv C { s with fleet := s.fleet.setReplica i r } := by
  refine h.of_same (Int.le_refl _) (fun _ _ hg => hg) (fun _ _ hg _ => hg) rfl
    (fun j => broken_setReplica s.fleet i j hb) fun k st => ?_
  exact sends_setReplica_same fun m => hc m k st

theorem published (hb : r.breaker.broken = (s.fleet.replicas i).breaker.broken.put k st)
    (hc : r.calls = (s.fleet.replicas i).calls.put n (.persisting k st))
    (hf : ∀ k' st', (s.fleet.replicas i).calls.get n ≠ some (.persisting k' st')) :
    Inv C ⟨s.fleet.setReplica i r,raise s.latest k st.expiry,[],[]⟩ := by
  refine ⟨?_,?_,?_,?_,?_,nofun,nofun⟩
  · intro j k' st' hg
    by_cases hj : j = i
    · subst hj
      rw [Fleet.setReplica_self,hb] at hg
      rcases get_put_eq_some.mp hg with ⟨rfl,rfl⟩ | ⟨-,hold⟩
      · exact below_raise_self s.latest _ _
      · exact Below.raise _ (h.held j k' st' hold)
    · rw [Fleet.setReplica_ne _ hj] at hg
      exact Below.raise _ (h.held j k' st' hg)
  · exact fun k' st' hg => Below.raise _ (h.stored k' st' hg)
  · exact fun m j svc entries domain st' hg hst =>
      Below.raise _ (h.fetched m j svc entries domain st' hg hst)
  · intro k' st' hse
    have hor := hse.of_setReplica (Q := k' = k ∧ st' = st) fun m hm => by
      rw [hc] at hm
      rcases get_put_eq_some.mp hm with ⟨-,hp⟩ | ⟨-,hold⟩
      · cases hp
        exact .inr ⟨rfl,rfl⟩
      · exact .inl hold
    rcases hor with hold | ⟨rfl,rfl⟩
    · exact Below.raise _ (h.sending k' st' hold)
    · exact below_raise_self s.latest _ _
  · intro k' l hl hle
    rcases of_get_raise hl with hold | ⟨rfl,rfl⟩
    · refine (h.carried k' l hold hle).imp_right fun ⟨st',hse,he⟩ => ⟨st',?_,he⟩
      refine (hse.setReplica (Q := False) fun m hm => .inl ?_).elim id False.elim
      have hmn : m ≠ n := by
        rintro rfl
        exact hf k' st' hm
      rw [hc,get_put_ne _ _ hmn,hm]
    · refine .inr ⟨st,⟨i,n,?_⟩,rfl⟩
      rw [Fleet.setReplica_self,hc,get_put_self]

theorem call {g : Gate F} {a : Replica.Act}
    (hs : (s.fleet.replicas i).step g true s.fleet.clock a = some r) :
    Inv C (s.watch (s.fleet.setReplica i r) ((s.fleet.replicas i).event g s.fleet.clock a)) := by
  have hv := Replica.view_step hs
  have hf := Replica.event_fits hs
  cases hev : (s.fleet.replicas i).event g s.fleet.clock a with
  | published n k now st =>
    rw [hev] at hv hf
    refine h.published (congrArg MarkView.broken hv) (congrArg MarkView.calls hv) ?_
    intro k' st' hg
    have hb : (s.fleet.replicas i).calls.get n = some (.breaking k now st) := hf
    cases hg.symm.trans hb
  | _ =>
    rw [hev] at hv hf
    refine h.quietCall ((congrArg MarkView.broken hv).trans (MarkEvent.broken_apply rfl true _)) ?_
    intro m k st
    have hc := MarkEvent.persisting_apply rfl hf true m k st
    rwa [← hv] at hc

theorem sent (hg : (s.fleet.replicas i).calls.get n = some (.persisting k st))
    (hlo : lowers C s.fleet k st = false) (hd : dropsLive C s.fleet k.serviceID = false)
    (hc : fleet.clock = s.fleet.clock) (hr : fleet.refreshes = s.fleet.refreshes)
    (hre : fleet.replicas =
      (s.fleet.setReplica i ((s.fleet.replicas i).setCall n (.expiring k))).replicas)
    (hrd : ∀ j, fleet.redis.state C j =
      if j = k then some st else (s.fleet.redis.live k.serviceID s.fleet.clock).state C j) :
    Inv C { s with fleet := fleet } := by
  have hs : ∀ k' st', Sends fleet k' st' ↔
      Sends (s.fleet.setReplica i ((s.fleet.replicas i).setCall n (.expiring k))) k' st' := by
    intro k' st'
    rw [Sends,Sends,hre]
  have hb : ∀ j, (fleet.replicas j).breaker.broken = (s.fleet.replicas j).breaker.broken := by
    intro j
    rw [hre]
    exact broken_setReplica s.fleet i j rfl
  have hsl : fleet.redis.state C k = some st := by rw [hrd,if_pos rfl]
  have hbe := h.sending k st ⟨i,n,hg⟩
  refine ⟨?_,?_,?_,?_,?_,?_,?_⟩
  · exact fun j k' st' hst => h.held j k' st' (hb j ▸ hst)
  · intro k' st' hst
    rw [hrd] at hst
    split_ifs at hst with hk
    · cases hst
      exact hk ▸ hbe
    · exact h.stored k' st' (Redis.state_of_live hst)
  · exact fun m j svc entries domain st' hm => h.fetched m j svc entries domain st' (hr ▸ hm)
  · intro k' st' hse
    refine h.sending k' st' ((((hs k' st').mp hse).of_setReplica (Q := False)
      fun m hm => ?_).elim id False.elim)
    rcases get_put_eq_some.mp hm with ⟨-,hp⟩ | ⟨-,hold⟩
    · cases hp
    · exact .inl hold
  · intro k' l hl hle
    rw [hc] at hle
    rcases h.carried k' l hl hle with ⟨st',hs',rfl⟩ | ⟨st',hse,he⟩
    · by_cases hk : k' = k
      · subst hk
        obtain ⟨l,hl',hstl⟩ := hbe
        cases hl.symm.trans hl'
        exact .inl ⟨st,hsl,expiry_eq_of_not_lowers hlo hd hs' hle hstl⟩
      · exact .inl ⟨st',by rw [hrd,if_neg hk,state_live hd hs' hle],rfl⟩
    · have hor := hse.setReplica (i := i) (r := (s.fleet.replicas i).setCall n (.expiring k))
          (Q := k' = k ∧ st' = st) fun m hm => by
        by_cases hmn : m = n
        · subst hmn
          cases hg.symm.trans hm
          exact .inr ⟨rfl,rfl⟩
        · refine .inl (Eq.trans ?_ hm)
          exact get_put_ne _ _ hmn
      rcases hor with hke | ⟨rfl,rfl⟩
      · exact .inr ⟨st',(hs k' st').mpr hke,he⟩
      · exact .inl ⟨st',hsl,he⟩
  · exact fun m j svc entries hme hm domain l hl hle =>
      h.calm m j svc entries hme (hr ▸ hm) domain l hl (hc ▸ hle)
  · intro j svc hme domain l hl hle
    rw [hb j]
    exact h.settled j svc hme domain l hl (hc ▸ hle)

theorem hset
    (hok : spoils C s.fleet (.hset i n) = false) (hs : s.fleet.hsetCall C i n = some fleet) :
    Inv C { s with fleet := fleet } := by
  unfold Fleet.hsetCall at hs
  unfold spoils at hok
  split at hs
  · rename_i k st hg
    cases hs
    simp [hg] at hok
    refine h.sent hg hok.1 hok.2 rfl rfl rfl fun j => (Redis.state_hset k _ j).trans ?_
    rw [C.unmarshal_marshal]
  · cases hs

theorem expire
    (hok : spoils C s.fleet (.expire i n) = false) (hs : s.fleet.expireCall i n = some fleet) :
    Inv C { s with fleet := fleet } := by
  unfold Fleet.expireCall at hs
  unfold spoils at hok
  split at hs
  · rename_i k hg
    cases hs
    simp [hg] at hok
    refine h.of_same (Int.le_refl _) ?_ ?_ rfl (fun j => broken_setReplica _ i j rfl) ?_
    · intro k' st' hst
      change (Redis.expire _ _ _).state C k' = some st' at hst
      rw [Redis.state_expire] at hst
      exact Redis.state_of_live hst
    · intro k' st' hst hle
      refine (Redis.state_expire _ _ _).trans ?_
      exact state_live hok hst hle
    · refine fun k' st' => sends_setReplica_same fun m => ?_
      refine get_del_eq_some.trans ⟨And.right,fun hm => ⟨?_,hm⟩⟩
      rintro rfl
      cases hg.symm.trans hm
  · cases hs

theorem merge (hs : s.fleet.mergeFetched C m = some fleet) :
    Inv C { s with
      fleet := fleet
      calm := s.calm.filter (· ≠ m)
      settled := s.settledAfter m } := by
  unfold Fleet.mergeFetched at hs
  split at hs
  · rename_i i svc entries hg
    cases hs
    have hse : ∀ refreshes breaker k st, Sends (Fleet.setReplica
        { s.fleet with refreshes := refreshes } i ⟨breaker,(s.fleet.replicas i).calls⟩) k st ↔
          Sends s.fleet k st :=
      fun _ _ _ _ => sends_setReplica_same fun _ => Iff.rfl
    refine ⟨?_,h.stored,?_,fun k st hsn => h.sending k st ((hse _ _ k st).mp hsn),?_,?_,?_⟩
    · intro j k st hst
      by_cases hj : j = i
      · subst hj
        rw [Fleet.setReplica_self] at hst
        rcases merged_from C _ svc entries _ hst with hold | ⟨rfl,hn⟩
        · exact h.held j k st hold
        · exact h.fetched m j _ entries k.domain st hg hn
      · rw [Fleet.setReplica_ne _ hj] at hst
        exact h.held j k st hst
    · exact fun m' j svc' entries' domain st hm' =>
        h.fetched m' j svc' entries' domain st (get_del_eq_some.mp hm').2
    · intro k l hl hle
      refine (h.carried k l hl hle).imp_right fun ⟨st,hsn,he⟩ => ?_
      exact ⟨st,(hse _ _ k st).mpr hsn,he⟩
    · exact fun m' j svc' entries' hme hm' domain l hl hle =>
        h.calm m' j svc' entries' (mem_filter.mp hme).1 (get_del_eq_some.mp hm').2 domain l
          hl hle
    · intro j svc' hme domain l hl hle
      rcases mem_settledAfter hg hme with ⟨rfl,rfl,hm⟩ | ⟨hp,hold⟩
      · rw [Fleet.setReplica_self]
        exact h.merged_at_latest hm hg hl hle
      · have hat := h.settled j svc' hold domain l hl hle
        by_cases hj : j = i
        · subst hj
          have hsv : svc' ≠ svc := fun heq => hp rfl heq
          rwa [Fleet.setReplica_self,get_mergeRedisEntries_other C _ svc entries _ hsv]
        · rwa [Fleet.setReplica_ne _ hj]
  · cases hs

variable [Fintype ι]

theorem step {g : Gate F} {a : Fleet.Act ι} {s' : WatchedFleet ι W}
    (hok : Allowed C s a) (hs : s.step g C a = some s') : Inv C s' := by
  obtain ⟨fleet,hf,rfl⟩ := map_eq_some_iff.mp hs
  cases a with
  | tick t =>
    obtain ⟨ht,rfl⟩ := Run.guard_pos hf
    exact h.tick ht
  | call i a =>
    obtain ⟨r,hr,rfl⟩ := map_eq_some_iff.mp hf
    exact h.call hr
  | hset i n => exact h.hset hok hf
  | expire i n => exact h.expire hok hf
  | hgetall m i svc => exact h.hgetall hok hf
  | merge m => exact h.merge hf

end

end Inv

variable [Fintype ι]

theorem settled_replicas_agree (g : Gate F) (C : Codec W) (clock : Int) {s : WatchedFleet ι W}
    (h : Run.Reaches (step g C) (Allowed C) (start clock) s) {svc : GoString}
    (hall : ∀ i, (i,svc) ∈ s.settled) : s.Agrees svc := by
  have hin := h.invariant (Inv C) (inv_start C clock) fun _ _ _ hi hok hs => hi.step hok hs
  exact hin.agrees hall

def plainCodec : Codec BrokenState := ⟨id,some,fun _ => rfl⟩

def fiveMarks (i : Bool) (k : Key) (n : Nat) : List (Fleet.Act Bool) :=
  (List.range 5).flatMap fun j => [.call i (.mark (n + j) k []),.call i (.check (n + j)),
    .call i (.gate (n + j))]

def refreshed (m : Nat) (i : Bool) (svc : GoString) : List (Fleet.Act Bool) :=
  [.hgetall m i svc,.merge m]

def expiryAt (s : WatchedFleet Bool BrokenState) (i : Bool) (k : Key) : Option Int :=
  ((s.fleet.replicas i).breaker.broken.get k).map BrokenState.expiry

theorem later_write_of_earlier_break_splits :
    let k : Key := ⟨"eth".toList,"a.example".toList⟩
    let acts := fiveMarks false k 0 ++ [.call false (.publish 4),.tick (10 * GoTime.second)] ++
      fiveMarks true k 0 ++ [.call true (.publish 4),.hset true 4,.hset false 4,.expire true 4,
        .expire false 4,.tick (20 * GoTime.second)] ++
      refreshed 0 false k.serviceID ++ refreshed 1 true k.serviceID
    ∃ s, Run.run (step defaultGate plainCodec) (fun _ _ => True) (start 0) acts = some s ∧
      (∀ i, (i,k.serviceID) ∈ s.settled) ∧ s.fleet.clock = 20 * GoTime.second ∧
      expiryAt s false k = some (60 * GoTime.second) ∧
      expiryAt s true k = some (70 * GoTime.second) ∧ ¬ s.Agrees k.serviceID := by
  intro k acts
  refine Run.ends_of (P := fun s => (∀ i, (i,k.serviceID) ∈ s.settled) ∧
    s.fleet.clock = 20 * GoTime.second ∧ expiryAt s false k = some (60 * GoTime.second) ∧
    expiryAt s true k = some (70 * GoTime.second)) acts (by decide +kernel) ?_
  rintro s - ⟨hst,hc,hf,ht⟩
  refine ⟨hst,hc,hf,ht,fun ha => ?_⟩
  obtain ⟨early,hea,he⟩ := map_eq_some_iff.mp hf
  obtain ⟨late,hl,hel⟩ := map_eq_some_iff.mp ht
  have hfi := ha.onlyLatest k.domain false early hea (by rw [hc,he]; decide)
  have hse := ha.onlyLatest k.domain true late hl (by rw [hc,hel]; decide)
  rw [hfi,he,hel] at hse
  exact absurd hse (by decide)

theorem break_in_order_reaches_both :
    let k : Key := ⟨"eth".toList,"a.example".toList⟩
    let acts := fiveMarks false k 0 ++ [.call false (.publish 4),.tick (10 * GoTime.second)] ++
      fiveMarks true k 0 ++ [.call true (.publish 4),.hset false 4,.hset true 4,.expire true 4,
        .expire false 4,.tick (20 * GoTime.second)] ++
      refreshed 0 false k.serviceID ++ refreshed 1 true k.serviceID
    ∃ s, Run.run (step defaultGate plainCodec) (Allowed plainCodec) (start 0) acts = some s ∧
      (∀ i, (i,k.serviceID) ∈ s.settled) ∧ expiryAt s false k = some (70 * GoTime.second) ∧
      s.Agrees k.serviceID := by
  intro k acts
  refine Run.ends_of (P := fun s => (∀ i, (i,k.serviceID) ∈ s.settled) ∧
    expiryAt s false k = some (70 * GoTime.second)) acts (by decide +kernel) ?_
  rintro s hs ⟨ha,he⟩
  exact ⟨ha,he,settled_replicas_agree defaultGate plainCodec 0 hs ha⟩

end WatchedFleet

end SageGateway.CircuitBreaker
