import SageGateway.Drain.LocalDecision

namespace SageGateway.Drain

open Option GoMap
open Function (update_apply)

structure Settling (ι : Type) where
  latest : Option Nat
  landed : Option Int
  settled : Bool
  freshRun : ι → Bool
  fresh : ι → Bool

structure SettlingFleet (ι : Type) where
  fleet : Fleet ι
  drain : Settling ι

namespace SettlingFleet

variable {ι : Type} [DecidableEq ι]

def unsettled (latest : Option Nat) :
    Settling ι := ⟨latest,none,false,fun _ => false,fun _ => false⟩

def start (clock : Int) : SettlingFleet ι := ⟨.start clock,unsettled none⟩

def Concerns (C : Codec) (k k' : Key) : Prop :=
  lowered C k' = k ∨ lowered C (lowered C k') = k

instance (C : Codec) (k k' : Key) : Decidable (Concerns C k k') :=
  inferInstanceAs (Decidable (_ ∨ _))

def landing (C : Codec) (k : Key) (s : Fleet ι) (latest : Option Nat) (n : Nat) (fate : Fate) :
    Option Int :=
  match s.command C (.send n fate) with
  | some (_,.hset e) =>
      if latest = some n ∧ redisField C e.key = redisField C k then some e.untilAt else none
  | _ => none

def succeeds (s : Fleet ι) : Fleet.Act ι → Option Nat
  | .finish n =>
      match s.calls.get n with
      | some (i,.written e gen .ok) =>
          if ((s.replicas i).keys.finishWrite e gen .ok).2.compensate then none else some n
      | _ => none
  | .hdel n _ =>
      match s.calls.get n with
      | some (_,.undoing _ .ok) => some n
      | _ => none
  | _ => none

def returnsNil (s : Fleet ι) (g : Settling ι) (a : Fleet.Act ι) : Settling ι :=
  if g.landed.isSome ∧ (succeeds s a).isSome ∧ succeeds s a = g.latest then
    { g with settled := true }
  else g

def drainAfter (C : Codec) (k : Key) (s : Fleet ι) (g : Settling ι) : Fleet.Act ι → Settling ι
  | .set n _ e => if Concerns C k e.key then unsettled (some n) else g
  | .release _ _ k' => if Concerns C k k' then unsettled none else g
  | .send n fate => { g with landed := g.landed.or (landing C k s g.latest n fate) }
  | .refresh j => { g with freshRun := Function.update g.freshRun j g.settled }
  | .replace j => { g with fresh := Function.update g.fresh j (g.fresh j || g.freshRun j) }
  | a => returnsNil s g a

def step (C : Codec) (k : Key) (s : SettlingFleet ι) (a : Fleet.Act ι) :
    Option (SettlingFleet ι) :=
  (s.fleet.step C a).map fun f => ⟨f,drainAfter C k s.fleet s.drain a⟩

def DrainReported (k : Key) (s : SettlingFleet ι) : Prop :=
  ∀ untilAt, s.drain.settled = true → s.drain.landed = some untilAt → s.fleet.clock < untilAt →
    ∀ j, s.drain.fresh j = true →
      (s.fleet.replicas j).mem.drained s.fleet.clock k.serviceID k.operator k.rpcType = true

def Command.Keeps (C : Codec) (k : Key) (untilAt : Int) (c : Command) : Prop :=
  c.touches C k →
    match c with
    | .hset e => e.untilAt = untilAt
    | .hdel _ => False

instance (C : Codec) (k : Key) (untilAt : Int) :
    (c : Command) → Decidable (Command.Keeps C k untilAt c)
  | .hset e => inferInstanceAs (Decidable (Command.touches C k (.hset e) → e.untilAt = untilAt))
  | .hdel fields => inferInstanceAs (Decidable (Command.touches C k (.hdel fields) → False))

def retryKept (s : Fleet ι) : Fleet.Act ι → Option Entry
  | .refinish j =>
      match (s.replicas j).refresh with
      | .retried run r result _ =>
          ((s.replicas j).keys.finishWrite r.entry r.gen result).2.live.filter
            fun e => run.now < e.untilAt
      | _ => none
  | _ => none

def KeepsDrain (C : Codec) (k : Key) (s : SettlingFleet ι) (a : Fleet.Act ι) : Prop :=
  ∀ untilAt ∈ s.drain.landed, s.fleet.clock < untilAt →
    (∀ c ∈ s.fleet.command C a, Command.Keeps C k untilAt c.2) ∧
      ∀ e ∈ retryKept s.fleet a, e.key = k → e.untilAt = untilAt

instance (C : Codec) (k : Key) (s : SettlingFleet ι) (a : Fleet.Act ι) :
    Decidable (KeepsDrain C k s a) := by
  unfold KeepsDrain
  infer_instance

def Before (mem : MemoryStore) (k : Key) (since : Int) : Prop :=
  ∀ t, mem.releasedAt.get k = some t → t ≤ since

def InNext (k : Key) (untilAt : Int) (run : RefreshRun) : Prop :=
  ∃ e, run.next.get k = some e ∧ e.untilAt = untilAt

def InHash (C : Codec) (k : Key) (untilAt : Int) (hash : GoMap GoString Payload) : Prop :=
  ∃ p, hash.get (redisField C k) = some p ∧ p.untilAt = untilAt

def RunHolds (C : Codec) (k : Key) (untilAt : Int) (mem : MemoryStore) : Refresh → Prop
  | .idle => True
  | .began since => Before mem k since
  | .read since all => Before mem k since ∧ InHash C k untilAt all
  | .parsed run => Before mem k run.since ∧ InNext k untilAt run
  | .retrying run _ => Before mem k run.since ∧ InNext k untilAt run
  | .retried run _ _ _ => Before mem k run.since ∧ InNext k untilAt run
  | .undoing run _ _ => Before mem k run.since ∧ InNext k untilAt run
  | .cleaning _ => True

structure DrainInv (C : Codec) (k : Key) (s : SettlingFleet ι) : Prop where
  stamped : ∀ j, Before (s.fleet.replicas j).mem k s.fleet.clock
  landed : s.drain.settled = true → s.drain.landed.isSome
  running : ∀ j, s.drain.freshRun j = true → s.drain.settled = true
  fresh : ∀ j, s.drain.fresh j = true → s.drain.freshRun j = true
  field : ∀ u, s.drain.landed = some u → s.fleet.clock < u → InHash C k u s.fleet.hash
  runs : ∀ j u, s.drain.freshRun j = true → s.drain.landed = some u → s.fleet.clock < u →
    RunHolds C k u (s.fleet.replicas j).mem (s.fleet.replicas j).refresh
  cells : ∀ j u, s.drain.fresh j = true → s.drain.landed = some u → s.fleet.clock < u →
    ∃ e, (s.fleet.replicas j).mem.entries.get k = some e ∧ e.untilAt = u

section Lemmas

variable {C : Codec} {k : Key} {u : Int}

omit [DecidableEq ι] in
theorem InHash.apply {hash : GoMap GoString Payload} (h : InHash C k u hash) {c : Command}
    (hc : Command.Keeps C k u c) : InHash C k u (c.apply C hash) := by
  obtain ⟨p,hg,hu⟩ := h
  cases c with
  | hset e =>
    by_cases hfield : redisField C k = redisField C e.key
    · refine ⟨e.toPayload,?_,hc hfield.symm⟩
      simp [Command.apply,hfield,get_put_self]
    · exact ⟨p,(get_put_ne _ _ hfield).trans hg,hu⟩
  | hdel fields =>
    refine ⟨p,?_,hu⟩
    simp only [Command.apply,get_foldl_del]
    split_ifs with hm
    · exact (hc hm).elim
    · exact hg

omit [DecidableEq ι] in
theorem InHash.after {hash : GoMap GoString Payload} (h : InHash C k u hash)
    {c : Option (ι × Command)} (hc : ∀ x ∈ c, Command.Keeps C k u x.2) :
    InHash C k u (Fleet.hashAfter C hash c) := by
  cases c with
  | none => exact h
  | some c => exact h.apply (hc c rfl)

omit [DecidableEq ι] in
theorem InNext.keep {run : RefreshRun} (h : InNext k u run) {live : Option Entry}
    (hl : ∀ e ∈ live.filter fun e => run.now < e.untilAt, e.key = k → e.untilAt = u) :
    InNext k u (Fleet.RefreshRun.keep run live) := by
  unfold Fleet.RefreshRun.keep
  split
  · rename_i e
    split_ifs with hn
    · by_cases hk : k = e.key
      · refine ⟨e,?_,hl e ?_ hk.symm⟩
        · simp [hk,get_put_self]
        · simp [Option.filter,hn]
      · obtain ⟨e',hg,hu⟩ := h
        exact ⟨e',(get_put_ne _ _ hk).trans hg,hu⟩
    · exact h
  · exact h

omit [DecidableEq ι] in
theorem keep_since (run : RefreshRun) (live : Option Entry) :
    (Fleet.RefreshRun.keep run live).since = run.since := by
  unfold Fleet.RefreshRun.keep
  split
  · split_ifs <;> rfl
  · rfl

omit [DecidableEq ι] in
theorem RunHolds.step {s : Fleet ι} {j : ι} {a : Fleet.Act ι} {f f' : Refresh}
    {mem : MemoryStore} (hfield : parseRedisField (redisField C k) = some k)
    (h : RunHolds C k u mem f) (hs : Fleet.RefreshStep C s j a f f')
    (hf : f = (s.replicas j).refresh) (hb : Before mem k s.clock) (hh : InHash C k u s.hash)
    (hl : s.clock < u) (hk : ∀ e ∈ retryKept s a, e.key = k → e.untilAt = u) :
    RunHolds C k u mem f' := by
  cases hs with
  | other => exact h
  | begin => exact hb
  | read since => exact ⟨h,hh⟩
  | failed since => exact trivial
  | parse since all =>
    obtain ⟨hbe,p,hg,hu⟩ := h
    exact ⟨hbe,⟨p,k⟩,readSnapshot_get hfield (hu ▸ hl) hg,hu⟩
  | take order run todo | resend fate run r result todo => exact h
  | refinish run r result todo | overtaken run r result todo =>
    refine ⟨(keep_since run _).symm ▸ h.1,h.2.keep fun e he => hk e ?_⟩
    simpa only [retryKept,← hf] using he
  | undo fate run k' todo => exact h
  | replace run | replaceIdle run | clean fate expired => exact trivial

theorem before_after {s : Fleet ι} (a : Fleet.Act ι) {j : ι}
    (h : Before (s.replicas j).mem k s.clock) :
    Before (s.memAfter C j a) k s.clock := by
  intro t ht
  unfold Fleet.memAfter at ht
  split at ht
  · split_ifs at ht
    · unfold MemoryStore.set MemoryStore.release at ht
      split_ifs at ht
      · simp only [get_del] at ht
        split_ifs at ht
        exact h t ht
      · simp [get_put] at ht
        split_ifs at ht
        · cases ht
          exact le_rfl
        · exact h t ht
    · exact h t ht
  · split_ifs at ht
    · simp [MemoryStore.release,get_put] at ht
      split_ifs at ht
      · cases ht
        exact le_rfl
      · exact h t ht
    · exact h t ht
  · split_ifs at ht
    · split at ht
      · simp [MemoryStore.replaceAll] at ht
      · exact h t ht
    · exact h t ht
  · exact h t ht

def Unconcerned (C : Codec) (k : Key) : Fleet.Act ι → Prop
  | .set _ _ e => ¬Concerns C k e.key
  | .release _ _ k' => ¬Concerns C k k'
  | _ => True

theorem cell_same {s : Fleet ι} {a : Fleet.Act ι} (hun : Unconcerned C k a) {j : ι}
    (ha : a ≠ .replace j) :
    (s.memAfter C j a).entries.get k = (s.replicas j).mem.entries.get k ∧
      (s.memAfter C j a).releasedAt.get k = (s.replicas j).mem.releasedAt.get k := by
  unfold Fleet.memAfter
  split
  · rename_i n i e
    have hk : k ≠ lowered C (e.lowered C).key := fun h => hun (Or.inr h.symm)
    split_ifs
    · unfold MemoryStore.set MemoryStore.release
      split_ifs
      · exact ⟨get_put_ne _ _ hk,get_del_ne _ hk⟩
      · exact ⟨get_del_ne _ hk,get_put_ne _ _ hk⟩
    · exact ⟨rfl,rfl⟩
  · rename_i n i k'
    have hk : k ≠ lowered C (lowered C k') := fun h => hun (Or.inr h.symm)
    split_ifs
    · exact ⟨get_del_ne _ hk,get_put_ne _ _ hk⟩
    · exact ⟨rfl,rfl⟩
  · rename_i i
    have hne : j ≠ i := fun h => ha (h ▸ rfl)
    rw [if_neg hne]
    exact ⟨rfl,rfl⟩
  · exact ⟨rfl,rfl⟩

omit [DecidableEq ι] in
theorem RunHolds.congr {mem mem' : MemoryStore} {f : Refresh} (h : RunHolds C k u mem f)
    (hr : mem'.releasedAt.get k = mem.releasedAt.get k) : RunHolds C k u mem' f := by
  have hb : ∀ since, Before mem k since → Before mem' k since := fun since hbe t ht =>
    hbe t (hr ▸ ht)
  cases f with
  | idle => exact trivial
  | began since => exact hb _ h
  | read since all | parsed run | retrying run todo | retried run r result todo
  | undoing run k' todo => exact ⟨hb _ h.1,h.2⟩
  | cleaning expired => exact trivial

variable {s : SettlingFleet ι} {f : Fleet ι} {a : Fleet.Act ι}

theorem DrainInv.stamped_after (hi : DrainInv C k s) (hf : s.fleet.step C a = some f) (j : ι) :
    Before (f.replicas j).mem k f.clock := by
  intro t ht
  rw [(Fleet.step_effect hf).mem j] at ht
  exact (before_after a (hi.stamped j) t ht).trans (Fleet.clock_le hf)

theorem DrainInv.field_after (hi : DrainInv C k s) (hf : s.fleet.step C a = some f)
    (hok : KeepsDrain C k s a) (hl : s.drain.landed = some u) (hli : f.clock < u) :
    InHash C k u f.hash := by
  have hlive' := (Fleet.clock_le hf).trans_lt hli
  rw [(Fleet.step_effect hf).hash]
  exact (hi.field u hl hlive').after (hok u hl hlive').1

section

variable (hi : DrainInv C k s) (hfield : parseRedisField (redisField C k) = some k)
  (hf : s.fleet.step C a = some f) (hok : KeepsDrain C k s a)

include hi hfield hf hok

theorem DrainInv.run_after (hl : s.drain.landed = some u) (hli : f.clock < u) {j : ι}
    (hj : s.drain.freshRun j = true) :
    RunHolds C k u (s.fleet.replicas j).mem (f.replicas j).refresh := by
  have hlive' := (Fleet.clock_le hf).trans_lt hli
  exact (hi.runs j u hj hl hlive').step hfield ((Fleet.step_effect hf).refresh j) rfl (hi.stamped j)
    (hi.field u hl hlive') hlive' (hok u hl hlive').2

theorem DrainInv.frame (hun : Unconcerned C k a) (hre : ∀ j, a ≠ .replace j)
    {g : Settling ι} (hl : g.landed = s.drain.landed) (hr : g.freshRun = s.drain.freshRun)
    (hfr : g.fresh = s.drain.fresh) (hse : s.drain.settled = true → g.settled = true)
    (hla : g.settled = true → g.landed.isSome) : DrainInv C k ⟨f,g⟩ where
  stamped := hi.stamped_after hf
  landed := hla
  running j hj := hse (hi.running j (hr ▸ hj))
  fresh j hj := hr ▸ hi.fresh j (hfr ▸ hj)
  field u hu := hi.field_after hf hok (hl ▸ hu)
  runs j u hj hu hlive := by
    have hm := (Fleet.step_effect hf).mem j
    have hs := (@cell_same ι _ C k s.fleet a hun j (hre j)).2
    exact (hi.run_after hfield hf hok (hl ▸ hu) hlive (hr ▸ hj)).congr (hm ▸ hs)
  cells j u hj hu hlive := by
    have hm := (Fleet.step_effect hf).mem j
    have hs := (@cell_same ι _ C k s.fleet a hun j (hre j)).1
    rw [hm,hs]
    exact hi.cells j u (hfr ▸ hj) (hl ▸ hu) ((Fleet.clock_le hf).trans_lt hlive)

end

theorem DrainInv.reset (hi : DrainInv C k s) (hf : s.fleet.step C a = some f)
    (latest : Option Nat) : DrainInv C k ⟨f,unsettled latest⟩ where
  stamped := hi.stamped_after hf
  landed h := nomatch h
  running _ h := nomatch h
  fresh _ h := nomatch h
  field _ h := nomatch h
  runs _ _ h := nomatch h
  cells _ _ h := nomatch h

omit [DecidableEq ι] in
theorem returnsNil_frame (s : Fleet ι) (g : Settling ι) (a : Fleet.Act ι) :
    (returnsNil s g a).landed = g.landed ∧ (returnsNil s g a).freshRun = g.freshRun ∧
      (returnsNil s g a).fresh = g.fresh ∧
      (g.settled = true → (returnsNil s g a).settled = true) ∧
      ((g.settled = true → g.landed.isSome) →
        (returnsNil s g a).settled = true → (returnsNil s g a).landed.isSome) := by
  unfold returnsNil
  split_ifs with h
  · exact ⟨rfl,rfl,rfl,fun _ => rfl,fun _ _ => h.1⟩
  · exact ⟨rfl,rfl,rfl,id,id⟩

theorem DrainInv.returnsNil (hi : DrainInv C k s)
    (hfield : parseRedisField (redisField C k) = some k) (hf : s.fleet.step C a = some f)
    (hok : KeepsDrain C k s a) (hun : Unconcerned C k a) (hre : ∀ j, a ≠ .replace j) :
    DrainInv C k ⟨f,SettlingFleet.returnsNil s.fleet s.drain a⟩ := by
  obtain ⟨hl,hr,hfr,hse,hla⟩ := returnsNil_frame s.fleet s.drain a
  exact hi.frame hfield hf hok hun hre hl hr hfr hse (hla hi.landed)

theorem landing_inHash {n : Nat} {fate : Fate} (hf : s.fleet.step C (.send n fate) = some f)
    (h : landing C k s.fleet s.drain.latest n fate = some u) : InHash C k u f.hash := by
  rw [(Fleet.step_effect hf).hash]
  unfold landing at h
  split at h
  · rename_i i e hc
    split_ifs at h with ho
    cases h
    rw [hc]
    refine ⟨e.toPayload,?_,rfl⟩
    simp [Fleet.hashAfter,Command.apply,ho.2,get_put_self]
  · cases h

theorem DrainInv.send (hi : DrainInv C k s)
    (hfield : parseRedisField (redisField C k) = some k) {n : Nat} {fate : Fate}
    (hf : s.fleet.step C (.send n fate) = some f) (hok : KeepsDrain C k s (.send n fate)) :
    DrainInv C k ⟨f,drainAfter C k s.fleet s.drain (.send n fate)⟩ := by
  cases hl : s.drain.landed with
  | some u =>
    refine hi.frame hfield hf hok trivial (fun _ h => nomatch h) ?_ rfl rfl id ?_
    · simp [drainAfter,hl]
    · intro _
      simp [drainAfter,hl]
  | none =>
    have hn : s.drain.settled ≠ true := by
      intro hs
      have hso := hi.landed hs
      rw [hl] at hso
      cases hso
    refine ⟨hi.stamped_after hf,fun hs => absurd hs hn,hi.running,hi.fresh,?_,?_,?_⟩
    · intro u hu _
      simp [drainAfter,hl] at hu
      exact landing_inHash hf hu
    · exact fun j u hj => absurd (hi.running j hj) hn
    · exact fun j u hj => absurd (hi.running j (hi.fresh j hj)) hn

theorem refresh_begins {j : ι} {s : Fleet ι} (h : s.step C (.refresh j) = some f) :
    (f.replicas j).refresh = .began s.clock := by
  simp [Fleet.step] at h
  split at h
  · cases h
    simp [Fleet.setRefresh,Fleet.setReplica]
  · cases h

theorem DrainInv.refresh (hi : DrainInv C k s)
    (hfield : parseRedisField (redisField C k) = some k) {i : ι}
    (hf : s.fleet.step C (.refresh i) = some f) (hok : KeepsDrain C k s (.refresh i)) :
    DrainInv C k ⟨f,drainAfter C k s.fleet s.drain (.refresh i)⟩ := by
  have hm : ∀ j, (f.replicas j).mem = (s.fleet.replicas j).mem := (Fleet.step_effect hf).mem
  refine ⟨hi.stamped_after hf,hi.landed,?_,?_,fun u hu => hi.field_after hf hok hu,?_,?_⟩
  · intro j hj
    simp only [drainAfter,update_apply] at hj ⊢
    split_ifs at hj
    · exact hj
    · exact hi.running j hj
  · intro j hj
    have hold := hi.fresh j hj
    simp only [drainAfter,update_apply]
    split_ifs
    · exact hi.running j hold
    · exact hold
  · intro j u hj hu hl
    rw [hm j]
    simp only [drainAfter,update_apply] at hj
    split_ifs at hj with hji
    · subst hji
      rw [refresh_begins hf]
      exact hi.stamped j
    · exact hi.run_after hfield hf hok hu hl hj
  · intro j u hj hu hl
    rw [hm j]
    exact hi.cells j u hj hu ((Fleet.clock_le hf).trans_lt hl)

theorem replace_inv {j : ι} {s : Fleet ι} (h : s.step C (.replace j) = some f) :
    ∃ run, (s.replicas j).refresh = .retrying run [] ∧
      (f.replicas j).mem = (s.replicas j).mem.replaceAll s.clock run.next run.since := by
  have hm := (Fleet.step_effect h).mem j
  simp [Fleet.step,Fleet.replaceMem] at h
  split at h
  · rename_i run hr
    refine ⟨run,hr,?_⟩
    rw [hm]
    simp [Fleet.memAfter,hr]
  · cases h

omit [DecidableEq ι] in
theorem replaceAll_installs {mem : MemoryStore} {run : RefreshRun} {todo : List Retry} {now : Int}
    (h : RunHolds C k u mem (.retrying run todo)) :
    ∃ e, (mem.replaceAll now run.next run.since).entries.get k = some e ∧ e.untilAt = u := by
  obtain ⟨hb,e,hg,hu⟩ := h
  refine ⟨e,?_,hu⟩
  have hn : (mem.releasedAt.get k).any (fun t => run.since < t) = false := by
    rw [any_eq_false]
    intro t ht
    simpa using hb t ht
  rw [MemoryStore.get_replaceAll]
  simp [MemoryStore.replaceAt,hn,hg]

theorem DrainInv.replace (hi : DrainInv C k s)
    (hfield : parseRedisField (redisField C k) = some k) {i : ι}
    (hf : s.fleet.step C (.replace i) = some f) (hok : KeepsDrain C k s (.replace i)) :
    DrainInv C k ⟨f,drainAfter C k s.fleet s.drain (.replace i)⟩ := by
  obtain ⟨run,hru,hm⟩ := replace_inv hf
  have ho : ∀ j, j ≠ i → (f.replicas j).mem = (s.fleet.replicas j).mem := by
    intro j hj
    rw [(Fleet.step_effect hf).mem j]
    simp [Fleet.memAfter,if_neg hj]
  have how : ∀ j, (drainAfter C k s.fleet s.drain (.replace i)).fresh j = true →
      s.drain.freshRun j = true := by
    intro j hj
    simp only [drainAfter,update_apply] at hj
    split_ifs at hj with hji
    · rcases Bool.or_eq_true_iff.mp hj with hfr | hr
      · exact hji ▸ hi.fresh i hfr
      · exact hji ▸ hr
    · exact hi.fresh j hj
  refine ⟨hi.stamped_after hf,hi.landed,hi.running,how,fun u hu => hi.field_after hf hok hu,?_,?_⟩
  · intro j u hj hu hl
    have ha := hi.run_after hfield hf hok hu hl hj
    by_cases hji : j = i
    · subst hji
      rw [hm]
      have hs := (Fleet.step_effect hf).refresh j
      rw [hru] at hs
      generalize (f.replicas j).refresh = f' at ha hs
      cases hs with
      | other =>
        refine ⟨fun t ht => ?_,ha.2⟩
        simp [MemoryStore.replaceAll] at ht
      | replace run | replaceIdle run => exact trivial
    · rwa [ho j hji]
  · intro j u hj hu hl
    have hlive' := (Fleet.clock_le hf).trans_lt hl
    by_cases hji : j = i
    · subst hji
      rw [hm]
      have hh := hi.runs j u (how j hj) hu hlive'
      rw [hru] at hh
      exact replaceAll_installs hh
    · rw [ho j hji]
      simp only [drainAfter,update_apply,if_neg hji] at hj
      exact hi.cells j u hj hu hlive'

theorem DrainInv.step (hi : DrainInv C k s)
    (hfield : parseRedisField (redisField C k) = some k) (hok : KeepsDrain C k s a)
    {s' : SettlingFleet ι} (h : s.step C k a = some s') : DrainInv C k s' := by
  obtain ⟨f,hf,rfl⟩ := map_eq_some_iff.mp h
  cases a with
  | set n i e | release n i k' =>
    simp [drainAfter]
    split_ifs with hc
    · exact hi.reset hf _
    · exact hi.frame hfield hf hok hc (fun _ h => nomatch h) rfl rfl rfl id hi.landed
  | send n fate => exact hi.send hfield hf hok
  | refresh i => exact hi.refresh hfield hf hok
  | replace i => exact hi.replace hfield hf hok
  | _ => exact hi.returnsNil hfield hf hok trivial fun _ h => nomatch h

end Lemmas

theorem settled_drain_reported (C : Codec) (k : Key)
    (hfield : parseRedisField (redisField C k) = some k) (clock : Int) {s : SettlingFleet ι}
    (h : Run.Reaches (step C k) (KeepsDrain C k) (start clock) s) : s.DrainReported k := by
  have hin : DrainInv C k s := by
    refine h.invariant (DrainInv C k) ?_ fun _ _ _ hi hok hs => hi.step hfield hok hs
    refine ⟨fun j t ht => ?_,(nomatch ·),fun _ => (nomatch ·),fun _ => (nomatch ·),
      fun _ => (nomatch ·),fun _ _ => (nomatch ·),fun _ _ => (nomatch ·)⟩
    simp [start,Fleet.start,Replica.new,MemoryStore.new] at ht
  intro u _ hl hli j hj
  obtain ⟨e,hg,hu⟩ := hin.cells j u hj hl hli
  simp [MemoryStore.drained,MemoryStore.liveAt,hg,hu,hli]

section Example

open PromisingFleet

def setOn (i : Bool) (n : Nat) (t : Int) : List (Fleet.Act Bool) :=
  [.set n i (drainUntil t),.begin n,.send n .applied,.finish n]

def refreshOn (i : Bool) : List (Fleet.Act Bool) :=
  [.refresh i,.hgetall i true,.parse i,.take i [],.replace i]

theorem cleanup_removes_new_drain :
    ∃ s, Run.Reaches (step asciiCodec opKey) (fun _ _ => True) (start 0 : SettlingFleet Bool) s ∧
      ¬s.DrainReported opKey := by
  obtain ⟨s,hs,hse,hl,hc,hfr,hd⟩ : ∃ s, Run.Reaches (step asciiCodec opKey)
      (fun _ _ => True) (start 0 : SettlingFleet Bool) s ∧ s.drain.settled = true ∧
      s.drain.landed = some 100 ∧ s.fleet.clock = 21 ∧ s.drain.fresh false = true ∧
      (s.fleet.replicas false).mem.drained s.fleet.clock opKey.serviceID opKey.operator
        opKey.rpcType = false :=
    Run.reaches (setOn false 1 10 ++ [.tick 20] ++ refreshOn true ++ setOn false 2 100 ++
      [.clean true .applied,.tick 21] ++ refreshOn false) (by decide)
  refine ⟨s,hs,fun hr => ?_⟩
  have ht := hr 100 hse hl (by rw [hc]; decide) false hfr
  cases hd.symm.trans ht

theorem settled_drain_reaches_peer :
    ∃ s : SettlingFleet Bool, s.drain.settled = true ∧ s.drain.fresh true = true ∧
      s.DrainReported opKey := by
  obtain ⟨s,hs,hse,hfr⟩ : ∃ s : SettlingFleet Bool, Run.Reaches (step asciiCodec opKey)
      (KeepsDrain asciiCodec opKey) (start 0) s ∧ s.drain.settled = true ∧
      s.drain.fresh true = true :=
    Run.reaches (setOn false 1 100 ++ [.tick 5] ++ refreshOn true) (by decide)
  exact ⟨s,hse,hfr,settled_drain_reported asciiCodec opKey (by decide) 0 hs⟩

end Example

end SettlingFleet

end SageGateway.Drain
