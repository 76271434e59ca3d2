import SageGateway.Drain.Fleet

namespace SageGateway.Drain

open Option

inductive Command where
  | hset (e : Entry)
  | hdel (fields : List GoString)
  deriving DecidableEq

def Command.apply (C : Codec) (hash : GoMap GoString Payload) : Command → GoMap GoString Payload
  | .hset e => hash.put (redisField C e.key) e.toPayload
  | .hdel fields => fields.foldl GoMap.del hash

def Command.touches (C : Codec) (k : Key) : Command → Prop
  | .hset e => redisField C e.key = redisField C k
  | .hdel fields => redisField C k ∈ fields

instance (C : Codec) (k : Key) : (c : Command) → Decidable (c.touches C k)
  | .hset e => inferInstanceAs (Decidable (redisField C e.key = redisField C k))
  | .hdel fields => inferInstanceAs (Decidable (redisField C k ∈ fields))

namespace Fleet

variable {ι : Type} [DecidableEq ι] {C : Codec} {s s' : Fleet ι}

def sent (C : Codec) (s : Fleet ι) (i : ι) (e : Entry) (fate : Fate) : Option (ι × Command) :=
  if s.clock < e.untilAt ∧ C.marshals e.toPayload ∧ fate.reaches then some (i,.hset e) else none

def removed (i : ι) (fields : List GoString) (fate : Fate) : Option (ι × Command) :=
  if fate.reaches then some (i,.hdel fields) else none

def command (C : Codec) (s : Fleet ι) : Act ι → Option (ι × Command)
  | .send n fate =>
      match s.calls.get n with
      | some (i,.writing e _) => sent C s i e fate
      | _ => none
  | .hdel n fate =>
      match s.calls.get n with
      | some (i,.deleting k) => removed i [redisField C k] fate
      | some (i,.undoing e _) => removed i [redisField C e.key] fate
      | _ => none
  | .resend i fate =>
      match (s.replicas i).refresh with
      | .retrying _ (r :: _) => sent C s i r.entry fate
      | _ => none
  | .undo i fate =>
      match (s.replicas i).refresh with
      | .undoing _ k _ => removed i [redisField C k] fate
      | _ => none
  | .clean i fate =>
      match (s.replicas i).refresh with
      | .cleaning expired => removed i expired fate
      | _ => none
  | _ => none

def hashAfter (C : Codec) (hash : GoMap GoString Payload) (c : Option (ι × Command)) :
    GoMap GoString Payload := c.elim hash fun c => c.2.apply C hash

def clockAfter (s : Fleet ι) : Act ι → Int
  | .tick t => t
  | _ => s.clock

def memAfter (C : Codec) (s : Fleet ι) (i : ι) : Act ι → MemoryStore
  | .set _ j e =>
      if i = j then (s.replicas i).mem.set C s.clock (e.lowered C) else (s.replicas i).mem
  | .release _ j k =>
      if i = j then (s.replicas i).mem.release C s.clock (lowered C k) else (s.replicas i).mem
  | .replace j =>
      if i = j then
        match (s.replicas i).refresh with
        | .retrying run [] => (s.replicas i).mem.replaceAll s.clock run.next run.since
        | _ => (s.replicas i).mem
      else (s.replicas i).mem
  | _ => (s.replicas i).mem

omit [DecidableEq ι] in
theorem propagate_spec (i : ι) (e : Entry) (fate : Fate) :
    (s.propagate C e fate).1 = { s with hash := hashAfter C s.hash (sent C s i e fate) } := by
  unfold propagate sent hashAfter hset
  by_cases hl : s.clock < e.untilAt
  · rw [if_neg (not_le.mpr hl)]
    cases hm : C.marshals e.toPayload with
    | false => simp
    | true => cases fate.reaches <;> simp [hl,Command.apply]
  · simp [not_lt.mp hl,hl]

omit [DecidableEq ι] in
theorem hdelFields_spec (i : ι) (fields : List GoString) (fate : Fate) :
    s.hdelFields fields fate = { s with hash := hashAfter C s.hash (removed i fields fate) } := by
  unfold hdelFields removed hashAfter
  cases fate.reaches <;> rfl

theorem setReplica_replicas (i j : ι) (r : Replica) :
    (s.setReplica i r).replicas j = if j = i then r else s.replicas j :=
  Function.update_apply _ _ _ _

@[simp] theorem setKeys_mem (i j : ι) (keys : KeyStates) :
    ((s.setKeys i keys).replicas j).mem = (s.replicas j).mem := by
  rw [setKeys,setReplica_replicas]
  split_ifs with h
  · rw [h]
  · rfl

@[simp] theorem setRefresh_mem (i j : ι) (f : Refresh) :
    ((s.setRefresh i f).replicas j).mem = (s.replicas j).mem := by
  rw [setRefresh,setReplica_replicas]
  split_ifs with h
  · rw [h]
  · rfl

theorem setMem_mem (i j : ι) (mem : MemoryStore) :
    ((s.setMem i mem).replicas j).mem = if j = i then mem else (s.replicas j).mem := by
  rw [setMem,setReplica_replicas]
  split_ifs <;> rfl

inductive RefreshStep (C : Codec) (s : Fleet ι) (i : ι) : Act ι → Refresh → Refresh → Prop
  | other (a : Act ι) (f : Refresh) : RefreshStep C s i a f f
  | begin : RefreshStep C s i (.refresh i) .idle (.began s.clock)
  | read (since : Int) : RefreshStep C s i (.hgetall i true) (.began since) (.read since s.hash)
  | failed (since : Int) : RefreshStep C s i (.hgetall i false) (.began since) .idle
  | parse (since : Int) (all : GoMap GoString Payload) :
      RefreshStep C s i (.parse i) (.read since all)
        (.parsed ⟨since,s.clock,(readSnapshot [] s.clock all.toList).next,
          (readSnapshot [] s.clock all.toList).expired⟩)
  | take (order : List (Key × KeyState)) (run : RefreshRun) (todo : List Retry) :
      RefreshStep C s i (.take i order) (.parsed run) (.retrying run todo)
  | resend (fate : Fate) (run : RefreshRun) (r : Retry) (result : WriteResult)
      (todo : List Retry) :
      RefreshStep C s i (.resend i fate) (.retrying run (r :: todo)) (.retried run r result todo)
  | refinish (run : RefreshRun) (r : Retry) (result : WriteResult) (todo : List Retry) :
      RefreshStep C s i (.refinish i) (.retried run r result todo)
        (.retrying (RefreshRun.keep run
          ((s.replicas i).keys.finishWrite r.entry r.gen result).2.live) todo)
  | overtaken (run : RefreshRun) (r : Retry) (result : WriteResult) (todo : List Retry) :
      RefreshStep C s i (.refinish i) (.retried run r result todo)
        (.undoing (RefreshRun.keep run
          ((s.replicas i).keys.finishWrite r.entry r.gen result).2.live) r.entry.key todo)
  | undo (fate : Fate) (run : RefreshRun) (k : Key) (todo : List Retry) :
      RefreshStep C s i (.undo i fate) (.undoing run k todo) (.retrying run todo)
  | replace (run : RefreshRun) :
      RefreshStep C s i (.replace i) (.retrying run []) (.cleaning run.expired)
  | replaceIdle (run : RefreshRun) : RefreshStep C s i (.replace i) (.retrying run []) .idle
  | clean (fate : Fate) (expired : List GoString) :
      RefreshStep C s i (.clean i fate) (.cleaning expired) .idle

theorem setReplica_refresh_same {i : ι} {r : Replica} (hr : r.refresh = (s.replicas i).refresh)
    (j : ι) : ((s.setReplica i r).replicas j).refresh = (s.replicas j).refresh := by
  rw [setReplica_replicas]
  split_ifs with h
  · rw [h,hr]
  · rfl

omit [DecidableEq ι] in
theorem RefreshStep.of_same {a : Act ι} {i : ι} {f : Refresh} (h : f = (s.replicas i).refresh) :
    RefreshStep C s i a (s.replicas i).refresh f := h ▸ .other a _

variable {a : Act ι} {fate : Fate} {n : Nat} {i : ι}

theorem RefreshStep.of_setReplica {r : Replica}
    (h : RefreshStep C s i a (s.replicas i).refresh r.refresh) (j : ι) :
    RefreshStep C s j a (s.replicas j).refresh ((s.setReplica i r).replicas j).refresh := by
  rw [setReplica_replicas]
  split_ifs with hj
  · exact hj ▸ h
  · exact .other a _

structure Effect (C : Codec) (s s' : Fleet ι) (a : Act ι) : Prop where
  clock : s'.clock = clockAfter s a
  hash : s'.hash = hashAfter C s.hash (command C s a)
  mem : ∀ j, (s'.replicas j).mem = memAfter C s j a
  refresh : ∀ j, RefreshStep C s j a (s.replicas j).refresh (s'.replicas j).refresh

theorem Effect.of_setKeys {keys : KeyStates} {calls : GoMap Nat (ι × Call)}
    (hcl : clockAfter s a = s.clock) (hc : command C s a = none)
    (hm : ∀ j, memAfter C s j a = (s.replicas j).mem) :
    Effect C s { s.setKeys i keys with calls := calls } a where
  clock := hcl.symm
  hash := by
    rw [hc]
    rfl
  mem j := (setKeys_mem i j keys).trans (hm j).symm
  refresh j := .of_same (setReplica_refresh_same (by rfl) j)

theorem beginCall_effect (h : s.beginCall n = some s') : Effect C s s' (.begin n) := by
  unfold beginCall at h
  split at h
  · split_ifs at h
    · cases h
      exact .of_setKeys rfl rfl fun _ => rfl
    · cases h
      exact .of_setKeys rfl rfl fun _ => rfl
  · cases h
    exact .of_setKeys rfl rfl fun _ => rfl
  · cases h

theorem sendCall_effect (h : s.sendCall C n fate = some s') :
    Effect C s s' (.send n fate) := by
  unfold sendCall at h
  split at h
  · rename_i i e gen hg
    cases h
    simp [propagate_spec i e fate]
    exact ⟨rfl,by simp [command,hg]; rfl,fun _ => rfl,fun _ => .other _ _⟩
  · cases h

theorem finishCall_effect (h : s.finishCall n = some s') : Effect C s s' (.finish n) := by
  unfold finishCall at h
  split at h
  · dsimp only at h
    split_ifs at h
    · cases h
      exact .of_setKeys rfl rfl fun _ => rfl
    · cases h
      exact .of_setKeys rfl rfl fun _ => rfl
  · cases h

theorem hdelCall_effect (h : s.hdelCall C n fate = some s') :
    Effect C s s' (.hdel n fate) := by
  unfold hdelCall at h
  split at h
  · rename_i i k hg
    cases h
    rw [hdelFields_spec (C := C) i]
    exact ⟨rfl,by simp [command,hg]; rfl,fun _ => rfl,fun _ => .other _ _⟩
  · rename_i i e result hg
    cases h
    rw [hdelFields_spec (C := C) i]
    exact ⟨rfl,by simp [command,hg]; rfl,fun _ => rfl,fun _ => .other _ _⟩
  · cases h

theorem resend_effect (h : s.resend C i fate = some s') :
    Effect C s s' (.resend i fate) := by
  unfold resend at h
  split at h
  · rename_i run r todo hg
    cases h
    simp [propagate_spec i r.entry fate]
    exact ⟨rfl,by simp [command,hg]; rfl,fun j => setRefresh_mem _ j _,
      .of_setReplica (hg ▸ .resend fate run r _ todo)⟩
  · cases h

theorem undoRetry_effect (h : s.undoRetry C i fate = some s') :
    Effect C s s' (.undo i fate) := by
  unfold undoRetry at h
  split at h
  · rename_i run k todo hg
    cases h
    rw [hdelFields_spec (C := C) i]
    exact ⟨rfl,by simp [command,hg]; rfl,fun j => setRefresh_mem _ j _,
      .of_setReplica (hg ▸ .undo fate run k todo)⟩
  · cases h

theorem cleanExpired_effect (h : s.cleanExpired i fate = some s') :
    Effect C s s' (.clean i fate) := by
  unfold cleanExpired at h
  split at h
  · rename_i expired hg
    cases h
    rw [hdelFields_spec (C := C) i]
    exact ⟨rfl,by simp [command,hg]; rfl,fun j => setRefresh_mem _ j _,
      .of_setReplica (hg ▸ .clean fate expired)⟩
  · cases h

theorem setReplica_mem_same {r : Replica} (hr : r.mem = (s.replicas i).mem) (j : ι) :
    ((s.setReplica i r).replicas j).mem = (s.replicas j).mem := by
  rw [setReplica_replicas]
  split_ifs with h
  · rw [h,hr]
  · rfl

theorem refresh_effect (h : s.step C (.refresh i) = some s') :
    Effect C s s' (.refresh i) := by
  simp [step] at h
  split at h
  · rename_i hg
    cases h
    exact ⟨rfl,rfl,fun j => setRefresh_mem _ j _,.of_setReplica (hg ▸ .begin)⟩
  · cases h

theorem hgetall_effect {ok : Bool} (h : s.hgetall i ok = some s') :
    Effect C s s' (.hgetall i ok) := by
  unfold hgetall at h
  split at h
  · rename_i since hg
    cases h
    refine ⟨rfl,rfl,fun j => setRefresh_mem _ j _,.of_setReplica ?_⟩
    cases ok with
    | true => exact hg ▸ .read since
    | false => exact hg ▸ .failed since
  · cases h

theorem parseRead_effect (h : s.parseRead i = some s') : Effect C s s' (.parse i) := by
  unfold parseRead at h
  split at h
  · rename_i since all hg
    cases h
    exact ⟨rfl,rfl,fun j => setRefresh_mem _ j _,.of_setReplica (hg ▸ .parse since all)⟩
  · cases h

theorem takeRetries_effect {order : List (Key × KeyState)}
    (h : s.takeRetries i order = some s') : Effect C s s' (.take i order) := by
  unfold takeRetries at h
  split at h
  · rename_i run hg
    obtain ⟨-,hs⟩ := ite_none_right_eq_some.mp h
    cases hs
    exact ⟨rfl,rfl,fun j => setReplica_mem_same (by rfl) j,
      .of_setReplica (hg ▸ .take order run _)⟩
  · cases h

theorem refinish_effect (h : s.refinish i = some s') : Effect C s s' (.refinish i) := by
  unfold refinish at h
  split at h
  · rename_i run r result todo hg
    cases h
    refine ⟨rfl,rfl,fun j => setReplica_mem_same (by rfl) j,.of_setReplica ?_⟩
    rw [hg]
    split_ifs
    · exact .overtaken run r result todo
    · exact .refinish run r result todo
  · cases h

theorem replaceMem_effect (h : s.replaceMem i = some s') : Effect C s s' (.replace i) := by
  unfold replaceMem at h
  split at h
  · rename_i run hg
    cases h
    refine ⟨rfl,rfl,fun j => ?_,.of_setReplica ?_⟩
    · rw [setReplica_replicas]
      by_cases hj : j = i
      · subst hj
        simp [memAfter,hg]
      · simp [memAfter,if_neg hj]
    · rw [hg]
      split_ifs
      · exact .replaceIdle run
      · exact .replace run
  · cases h

theorem Effect.of_setMem {mem : MemoryStore} {calls : GoMap Nat (ι × Call)}
    (hcl : clockAfter s a = s.clock) (hc : command C s a = none)
    (hm : ∀ j, memAfter C s j a = if j = i then mem else (s.replicas j).mem) :
    Effect C s { s.setMem i mem with calls := calls } a where
  clock := hcl.symm
  hash := by
    rw [hc]
    rfl
  mem j := (setMem_mem i j mem).trans (hm j).symm
  refresh j := .of_same (setReplica_refresh_same (by rfl) j)

theorem step_effect (h : s.step C a = some s') : Effect C s s' a := by
  cases a with
  | tick t =>
    obtain ⟨-,hs⟩ := ite_none_right_eq_some.mp h
    cases hs
    exact ⟨rfl,rfl,fun _ => rfl,fun _ => .other _ _⟩
  | set n i e | release n i k =>
    obtain ⟨-,hs⟩ := ite_none_left_eq_some.mp h
    cases hs
    refine .of_setMem rfl rfl fun j => ?_
    simp [memAfter]
    split_ifs with hj
    · rw [hj]
    · rfl
  | begin n => exact beginCall_effect h
  | send n fate => exact sendCall_effect h
  | finish n => exact finishCall_effect h
  | hdel n fate => exact hdelCall_effect h
  | refresh i => exact refresh_effect h
  | hgetall i ok => exact hgetall_effect h
  | parse i => exact parseRead_effect h
  | take i order => exact takeRetries_effect h
  | resend i fate => exact resend_effect h
  | refinish i => exact refinish_effect h
  | undo i fate => exact undoRetry_effect h
  | replace i => exact replaceMem_effect h
  | clean i fate => exact cleanExpired_effect h

theorem clock_le (h : s.step C a = some s') : s.clock ≤ s'.clock := by
  rw [(step_effect h).clock]
  cases a with
  | tick t => exact (ite_none_right_eq_some.mp h).1
  | _ => exact le_rfl

end Fleet

end SageGateway.Drain
