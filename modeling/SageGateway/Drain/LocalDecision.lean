import SageGateway.Drain.Effects
import SageGateway.Lib.Run

namespace SageGateway.Drain

open List Option GoMap

def Keyed (m : GoMap Key Entry) : Prop := ∀ k e, m.get k = some e → e.key = k

theorem Keyed.put {m : GoMap Key Entry} (hm : Keyed m) (e : Entry) : Keyed (m.put e.key e) := by
  intro k e' h
  rw [get_put] at h
  split_ifs at h with hk
  · cases h
    exact hk.symm
  · exact hm k e' h

theorem readRow_keyed (follow : GoString) (now : Int) {out : Snapshot} (h : Keyed out.next)
    (row : GoString × Payload) : Keyed (readRow follow now out row).next := by
  unfold readRow
  split
  · exact h
  · split_ifs
    · exact h
    · exact h
    · exact h.put ⟨row.2,_⟩

theorem foldl_readRow_keyed (follow : GoString) (now : Int) (all : List (GoString × Payload))
    {out : Snapshot} (h : Keyed out.next) : Keyed (all.foldl (readRow follow now) out).next := by
  induction all generalizing out with
  | nil => exact h
  | cons row all ih => exact ih (readRow_keyed follow now h row)

def Refresh.run : Refresh → Option RefreshRun
  | .parsed run => some run
  | .retrying run _ => some run
  | .retried run _ _ _ => some run
  | .undoing run _ _ => some run
  | _ => none

theorem keep_keyed {run : RefreshRun} (h : Keyed run.next) (live : Option Entry) :
    Keyed (Fleet.RefreshRun.keep run live).next := by
  unfold Fleet.RefreshRun.keep
  split
  · split_ifs
    · exact h.put _
    · exact h
  · exact h

theorem MemoryStore.replaceAt_cases {now since : Int} {releasedAt setAt : Option Int}
    {entry next : Option Entry} {e : Entry}
    (h : replaceAt now since releasedAt setAt entry next = some e) :
    next = some e ∨ entry = some e := by
  rcases or_eq_some_iff.mp h with hn | ⟨-,hold⟩
  · split_ifs at hn
    exact Or.inl hn
  · split_ifs at hold
    exact Or.inr (filter_eq_some_iff.mp hold).1

namespace Fleet

variable {ι : Type} [DecidableEq ι] {C : Codec} {s s' : Fleet ι}

structure KeyedStores (s : Fleet ι) : Prop where
  mem : ∀ j, Keyed (s.replicas j).mem.entries
  next : ∀ j run, (s.replicas j).refresh.run = some run → Keyed run.next

theorem set_keyed {m : MemoryStore} (hm : Keyed m.entries) (now : Int) (e : Entry) :
    Keyed (m.set C now e).entries := by
  unfold MemoryStore.set MemoryStore.release
  split_ifs
  · exact hm.put (e.lowered C)
  · intro k e' h
    rw [get_del] at h
    split_ifs at h
    exact hm k e' h

theorem replaceAll_keyed {m : MemoryStore} {next : GoMap Key Entry} (hm : Keyed m.entries)
    (hn : Keyed next) (now since : Int) : Keyed (m.replaceAll now next since).entries := by
  intro k e h
  rw [MemoryStore.get_replaceAll] at h
  rcases MemoryStore.replaceAt_cases h with hne | hold
  · exact hn k e hne
  · exact hm k e hold

theorem KeyedStores.step (hk : KeyedStores s) {a : Act ι} (h : s.step C a = some s') :
    KeyedStores s' := by
  constructor
  · intro j
    rw [(step_effect h).mem j]
    unfold memAfter
    split
    · split_ifs
      · exact set_keyed (hk.mem j) _ _
      · exact hk.mem j
    · split_ifs
      · intro k e hg
        simp only [MemoryStore.release,get_del] at hg
        split_ifs at hg
        exact hk.mem j k e hg
      · exact hk.mem j
    · split_ifs
      · split
        · rename_i run hg
          exact replaceAll_keyed (hk.mem j) (hk.next j run (by rw [hg]; rfl)) _ _
        · exact hk.mem j
      · exact hk.mem j
    · exact hk.mem j
  · intro j run hr
    have hn := hk.next j
    have hs := (step_effect h).refresh j
    generalize (s.replicas j).refresh = f at hs hn
    generalize (s'.replicas j).refresh = f' at hs hr
    cases hs with
    | other => exact hn run hr
    | parse since all =>
      cases hr
      exact foldl_readRow_keyed _ _ _ fun k e hg => by simp at hg
    | take order run' todo | resend fate run' r result todo => exact hn run hr
    | refinish run' r result todo | overtaken run' r result todo =>
      cases hr
      exact keep_keyed (hn run' rfl) _
    | undo fate run' k todo => exact hn run hr
    | _ => cases hr

end Fleet

inductive Decision where
  | set (untilAt : Int)
  | release
  deriving DecidableEq

structure Promise where
  decision : Option (Nat × Decision)
  returned : Bool
  foreign : Bool
  excused : Bool
  deriving DecidableEq

structure PromisingFleet (ι : Type) where
  fleet : Fleet ι
  promise : Promise

namespace PromisingFleet

variable {ι : Type} [DecidableEq ι]

def start (clock : Int) : PromisingFleet ι := ⟨.start clock,⟨none,false,false,false⟩⟩

def returns (s : Fleet ι) : Fleet.Act ι → Option (Nat × Bool)
  | .finish n =>
      match s.calls.get n with
      | some (i,.written e gen result) =>
          if ((s.replicas i).keys.finishWrite e gen result).2.compensate then none
          else some (n,result ≠ .encoding)
      | _ => none
  | .hdel n _ =>
      match s.calls.get n with
      | some (_,.deleting _) => some (n,true)
      | some (_,.undoing _ result) => some (n,result ≠ .encoding)
      | _ => none
  | _ => none

def foreignWrite (C : Codec) (i : ι) (k : Key) (s : Fleet ι) (a : Fleet.Act ι) : Bool :=
  match a with
  | .send .. | .hdel .. => (s.command C a).any fun c => c.1 ≠ i ∧ c.2.touches C k
  | _ => false

def Promise.settle (p : Promise) (n : Nat) (promised : Bool) : Promise :=
  if p.decision.any fun d => d.1 = n then
    if promised then { p with returned := true } else { p with decision := none }
  else p

def promiseAfter (C : Codec) (i : ι) (k : Key) (s : Fleet ι) (p : Promise) :
    Fleet.Act ι → Promise
  | .set n j e =>
      if j = i ∧ lowered C (lowered C e.key) = k then
        ⟨some (n,if s.clock < e.untilAt then .set e.untilAt else .release),false,false,false⟩
      else p
  | .release n j k' =>
      if j = i ∧ lowered C (lowered C k') = k then ⟨some (n,.release),false,false,false⟩ else p
  | .hgetall j true => if j = i then { p with excused := p.foreign } else p
  | .replace j => if j = i ∧ p.excused then { p with decision := none } else p
  | a =>
      let p' := if foreignWrite C i k s a then { p with foreign := true } else p
      (returns s a).elim p' fun r => Promise.settle p' r.1 r.2

def step (C : Codec) (i : ι) (k : Key) (s : PromisingFleet ι) (a : Fleet.Act ι) :
    Option (PromisingFleet ι) :=
  (s.fleet.step C a).map fun f => ⟨f,promiseAfter C i k s.fleet s.promise a⟩

def Reports (clock : Int) (mem : MemoryStore) (k : Key) : Decision → Prop
  | .set untilAt => clock < untilAt →
      mem.drained clock k.serviceID k.operator k.rpcType = true ∧
        ∃ e ∈ mem.active clock k.serviceID, e.key = k ∧ e.untilAt = untilAt
  | .release => mem.liveAt clock k = false ∧
      mem.drained clock k.serviceID k.operator k.rpcType =
        mem.liveAt clock ⟨k.serviceID,k.operator,[]⟩ ∧
      ∀ e ∈ mem.active clock k.serviceID, e.key ≠ k

def PromiseKept (i : ι) (k : Key) (s : PromisingFleet ι) : Prop :=
  s.promise.returned = true → ∀ n d, s.promise.decision = some (n,d) →
    Reports s.fleet.clock (s.fleet.replicas i).mem k d

def Installs (clock : Int) (mem : MemoryStore) (run : RefreshRun) (k : Key) : Decision → Prop
  | .set untilAt => clock < untilAt →
      (∃ e ∈ run.next.get k, e.untilAt = untilAt) ∨
        (run.next.get k = none ∧ ∃ t ∈ mem.setAt.get k, run.since < t)
  | .release =>
      (∀ e ∈ run.next.get k, e.untilAt ≤ clock) ∨ ∃ t ∈ mem.releasedAt.get k, run.since < t

def KeepsDecision (i : ι) (k : Key) (s : PromisingFleet ι) : Fleet.Act ι → Prop
  | .replace j =>
      j = i → s.promise.excused = false → ∀ run ∈ (s.fleet.replicas i).refresh.run,
        ∀ d ∈ s.promise.decision, Installs s.fleet.clock (s.fleet.replicas i).mem run k d.2
  | _ => True

instance (clock : Int) (mem : MemoryStore) (run : RefreshRun) (k : Key) :
    (d : Decision) → Decidable (Installs clock mem run k d)
  | .set untilAt => inferInstanceAs (Decidable (clock < untilAt →
      (∃ e ∈ run.next.get k, e.untilAt = untilAt) ∨
        (run.next.get k = none ∧ ∃ t ∈ mem.setAt.get k, run.since < t)))
  | .release => inferInstanceAs (Decidable
      ((∀ e ∈ run.next.get k, e.untilAt ≤ clock) ∨ ∃ t ∈ mem.releasedAt.get k, run.since < t))

instance (i : ι) (k : Key) (s : PromisingFleet ι) (a : Fleet.Act ι) :
    Decidable (KeepsDecision i k s a) := by
  unfold KeepsDecision
  split <;> infer_instance

def Holds (clock : Int) (mem : MemoryStore) (k : Key) : Decision → Prop
  | .set untilAt => mem.releasedAt.get k = none ∧
      (clock < untilAt → ∃ e, mem.entries.get k = some e ∧ e.untilAt = untilAt)
  | .release => mem.setAt.get k = none ∧ ∀ e, mem.entries.get k = some e → e.untilAt ≤ clock

structure LocalInv (i : ι) (k : Key) (s : PromisingFleet ι) : Prop where
  keyed : Fleet.KeyedStores s.fleet
  holds : ∀ n d, s.promise.decision = some (n,d) →
    Holds s.fleet.clock (s.fleet.replicas i).mem k d

section Store

omit [DecidableEq ι]

variable {C : Codec} {clock : Int} {mem : MemoryStore} {k : Key} {d : Decision}

theorem Holds.mono {clock' : Int} (h : Holds clock mem k d) (hle : clock ≤ clock') :
    Holds clock' mem k d := by
  cases d with
  | set untilAt => exact ⟨h.1,fun hl => h.2 (hle.trans_lt hl)⟩
  | release => exact ⟨h.1,fun e he => (h.2 e he).trans hle⟩

theorem Holds.congr {mem' : MemoryStore} (h : Holds clock mem k d)
    (he : mem'.entries.get k = mem.entries.get k) (hs : mem'.setAt.get k = mem.setAt.get k)
    (hr : mem'.releasedAt.get k = mem.releasedAt.get k) : Holds clock mem' k d := by
  cases d with
  | set untilAt => exact ⟨hr.trans h.1,he ▸ h.2⟩
  | release => exact ⟨hs.trans h.1,he ▸ h.2⟩

theorem holds_release (C : Codec) (clock : Int) (mem : MemoryStore) (k' : Key) :
    Holds clock (mem.release C clock k') (lowered C k') .release := by
  refine ⟨get_del_self _ _,fun e he => ?_⟩
  simp [MemoryStore.release] at he

theorem Holds.release_other (h : Holds clock mem k d) {k' : Key} (hk : lowered C k' ≠ k) :
    Holds clock (mem.release C clock k') k d :=
  h.congr (get_del_ne _ hk.symm) (get_del_ne _ hk.symm) (get_put_ne _ _ hk.symm)

theorem holds_set (C : Codec) (clock : Int) (mem : MemoryStore) (e : Entry) :
    Holds clock (mem.set C clock e) (lowered C e.key)
      (if clock < e.untilAt then .set e.untilAt else .release) := by
  unfold MemoryStore.set
  split_ifs with hl
  · exact ⟨get_del_self _ _,fun _ => ⟨e.lowered C,get_put_self _ _ _,rfl⟩⟩
  · exact holds_release C clock mem e.key

theorem Holds.set_other (h : Holds clock mem k d) {e : Entry} (hk : lowered C e.key ≠ k) :
    Holds clock (mem.set C clock e) k d := by
  unfold MemoryStore.set
  split_ifs
  · exact h.congr (get_put_ne _ _ hk.symm) (get_put_ne _ _ hk.symm)
      (get_del_ne _ hk.symm)
  · exact h.release_other hk

theorem Holds.replaceAll (h : Holds clock mem k d) {run : RefreshRun}
    (hi : Installs clock mem run k d) :
    Holds clock (mem.replaceAll clock run.next run.since) k d := by
  cases d with
  | set untilAt =>
    refine ⟨get_empty k,fun hl => ?_⟩
    rw [MemoryStore.get_replaceAll,h.1]
    simp only [MemoryStore.replaceAt,any_none,Bool.false_eq_true,if_false]
    rcases hi hl with ⟨e,hn,hu⟩ | ⟨hno,t,hset,hla⟩
    · exact ⟨e,by rw [hn,some_or],hu⟩
    · obtain ⟨e,hg,hu⟩ := h.2 hl
      have hs' : mem.setAt.get k = some t := hset
      refine ⟨e,?_,hu⟩
      simp [hno,hs',hla,hg,Option.filter,hu,hl]
  | release =>
    refine ⟨?_,fun e he => ?_⟩
    · simp [MemoryStore.replaceAll,GoMap.get_filter,h.1]
    · rw [MemoryStore.get_replaceAll,h.1] at he
      simp only [MemoryStore.replaceAt,any_none,Bool.false_eq_true,if_false,
        or_none] at he
      rcases hi with hn | ⟨t,hr,hla⟩
      · split_ifs at he
        exact hn e he
      · have hr' : mem.releasedAt.get k = some t := hr
        rw [hr'] at he
        simp [hla] at he

theorem Holds.reports (h : Holds clock mem k d) (hkeyed : Keyed mem.entries) :
    Reports clock mem k d := by
  cases d with
  | set untilAt =>
    intro hl
    obtain ⟨e,hg,hu⟩ := h.2 hl
    refine ⟨?_,e,?_,hkeyed k e hg,hu⟩
    · simp [MemoryStore.drained,MemoryStore.liveAt,hg,hu,hl]
    · have hm := ((iterates_toList mem.entries).mem_iff k e).mpr hg
      simp only [MemoryStore.active,mem_insertionSort,mem_filter,List.mem_map,
        decide_eq_true_eq]
      exact ⟨⟨(k,e),hm,rfl⟩,congrArg Key.serviceID (hkeyed k e hg),hu ▸ hl⟩
  | release =>
    have hd : mem.liveAt clock k = false := by
      cases hg : mem.entries.get k with
      | none => simp [MemoryStore.liveAt,hg]
      | some e => simp [MemoryStore.liveAt,hg,h.2 e hg]
    refine ⟨hd,by simp [MemoryStore.drained,hd],?_⟩
    rintro e hm rfl
    simp only [MemoryStore.active,mem_insertionSort,mem_filter,List.mem_map,
      decide_eq_true_eq] at hm
    obtain ⟨⟨⟨k,e'⟩,hr,rfl⟩,-,hl⟩ := hm
    have hg := ((iterates_toList mem.entries).mem_iff k e').mp hr
    have hk := hkeyed k e' hg
    have hle := h.2 e' (hk ▸ hg)
    exact absurd hl (not_lt.mpr hle)

end Store

variable {C : Codec} {i : ι} {k : Key} {s s' : PromisingFleet ι}

omit [DecidableEq ι] in
theorem settle_decision {p : Promise} {n m : Nat} {promised : Bool} {d : Decision}
    (h : (Promise.settle p n promised).decision = some (m,d)) : p.decision = some (m,d) := by
  unfold Promise.settle at h
  split_ifs at h
  · exact h
  · exact h

theorem other_decision {s : Fleet ι} {p : Promise} {a : Fleet.Act ι} {m : Nat} {d : Decision}
    (h : ((returns s a).elim (if foreignWrite C i k s a then { p with foreign := true } else p)
      fun r => Promise.settle (if foreignWrite C i k s a then { p with foreign := true } else p)
        r.1 r.2).decision = some (m,d)) : p.decision = some (m,d) := by
  have hp : ∀ p' : Promise,
      p' = (if foreignWrite C i k s a then { p with foreign := true } else p) →
        p'.decision = p.decision := by
    rintro p' rfl
    split_ifs <;> rfl
  rw [← hp _ rfl]
  cases hr : returns s a with
  | none =>
    rwa [hr] at h
  | some r =>
    rw [hr] at h
    exact settle_decision h

omit [DecidableEq ι] in
theorem LocalInv.of_same (hi : LocalInv i k s) {f : Fleet ι} {p : Promise}
    (hkeyed : Fleet.KeyedStores f) (hm : (f.replicas i).mem = (s.fleet.replicas i).mem)
    (hc : s.fleet.clock ≤ f.clock)
    (hp : ∀ n d, p.decision = some (n,d) → s.promise.decision = some (n,d)) :
    LocalInv i k ⟨f,p⟩ :=
  ⟨hkeyed,fun n d hd => by
    rw [hm]
    exact (hi.holds n d (hp n d hd)).mono hc⟩

variable {f : Fleet ι} {j : ι}

theorem LocalInv.of_effect {a : Fleet.Act ι} (hkeyed : Fleet.KeyedStores f)
    (he : Fleet.Effect C s.fleet f a)
    (h : ∀ n d, (promiseAfter C i k s.fleet s.promise a).decision = some (n,d) →
      Holds (Fleet.clockAfter s.fleet a) (Fleet.memAfter C s.fleet i a) k d) :
    LocalInv i k ⟨f,promiseAfter C i k s.fleet s.promise a⟩ :=
  ⟨hkeyed,fun n d hd => by
    rw [he.clock,he.mem i]
    exact h n d hd⟩

section

variable (hi : LocalInv i k s) (hkeyed : Fleet.KeyedStores f)

include hi hkeyed

theorem LocalInv.set {n : Nat} {e : Entry} (he : Fleet.Effect C s.fleet f (.set n j e)) :
    LocalInv i k ⟨f,promiseAfter C i k s.fleet s.promise (.set n j e)⟩ := by
  refine .of_effect hkeyed he fun m d hd => ?_
  simp [promiseAfter] at hd
  simp [Fleet.memAfter]
  by_cases ho : j = i ∧ lowered C (lowered C e.key) = k
  · rw [if_pos ho] at hd
    obtain ⟨rfl,rfl⟩ := ho
    cases hd
    rw [if_pos rfl]
    exact holds_set C s.fleet.clock _ (e.lowered C)
  · rw [if_neg ho] at hd
    have hold := hi.holds m d hd
    split_ifs with hj
    · exact hold.set_other fun hk => ho ⟨hj.symm,hk⟩
    · exact hold

theorem LocalInv.release {n : Nat} {k' : Key} (he : Fleet.Effect C s.fleet f (.release n j k')) :
    LocalInv i k ⟨f,promiseAfter C i k s.fleet s.promise (.release n j k')⟩ := by
  refine .of_effect hkeyed he fun m d hd => ?_
  simp [promiseAfter] at hd
  simp [Fleet.memAfter]
  split_ifs at hd with ho
  · obtain ⟨rfl,rfl⟩ := ho
    cases hd
    rw [if_pos rfl]
    exact holds_release C s.fleet.clock _ (lowered C k')
  · have hold := hi.holds m d hd
    split_ifs with hj
    · exact hold.release_other fun hk => ho ⟨hj.symm,hk⟩
    · exact hold

theorem LocalInv.replace (hef : Fleet.Effect C s.fleet f (.replace j))
    (hok : KeepsDecision i k s (.replace j)) :
    LocalInv i k ⟨f,promiseAfter C i k s.fleet s.promise (.replace j)⟩ := by
  refine .of_effect hkeyed hef fun m d hd => ?_
  simp [promiseAfter] at hd
  simp [Fleet.memAfter]
  split_ifs at hd with he
  have hold := hi.holds m d hd
  split_ifs with hj
  · split
    · rename_i run hr
      refine hold.replaceAll (hok hj.symm ?_ run (by rw [hr]; rfl) (m,d) hd)
      cases hx : s.promise.excused with
      | false => rfl
      | true => exact absurd ⟨hj.symm,hx⟩ he
    · exact hold
  · exact hold

end

theorem LocalInv.step (hi : LocalInv i k s) {a : Fleet.Act ι} (hok : KeepsDecision i k s a)
    (h : s.step C i k a = some s') : LocalInv i k s' := by
  obtain ⟨f,hf,rfl⟩ := map_eq_some_iff.mp h
  have hkeyed := hi.keyed.step hf
  have he := Fleet.step_effect hf
  cases a with
  | set n j e => exact hi.set hkeyed he
  | release n j k' => exact hi.release hkeyed he
  | replace j => exact hi.replace hkeyed he hok
  | tick t =>
    obtain ⟨hle,-⟩ := ite_none_right_eq_some.mp hf
    exact hi.of_same hkeyed (he.mem i) (he.clock ▸ hle) fun m d hd => other_decision hd
  | hgetall j ok =>
    refine hi.of_same hkeyed (he.mem i) (le_of_eq he.clock.symm) fun m d hd => ?_
    cases ok with
    | false => exact hd
    | true =>
      simp [promiseAfter] at hd
      split_ifs at hd <;> exact hd
  | _ =>
    exact hi.of_same hkeyed (he.mem i) (le_of_eq he.clock.symm) fun m d hd => other_decision hd

theorem local_decision_kept (C : Codec) (i : ι) (k : Key) (clock : Int) {s : PromisingFleet ι}
    (h : Run.Reaches (step C i k) (KeepsDecision i k) (start clock) s) : s.PromiseKept i k := by
  have hin : LocalInv i k s := by
    refine h.invariant (LocalInv i k) ?_ fun _ _ _ hi hok hs => hi.step hok hs
    refine ⟨⟨fun j k e hg => ?_,fun j run hr => ?_⟩,fun n d hd => ?_⟩
    · simp [start,Fleet.start,Replica.new,MemoryStore.new] at hg
    · cases hr
    · cases hd
  intro _ n d hd
  exact (hin.holds n d hd).reports (hin.keyed.mem i)

section Example

def asciiCodec : Codec := ⟨List.map Char.toLower,fun _ => true⟩

def opKey : Key := ⟨"eth".toList,"op.example".toList,[]⟩

def drainUntil (t : Int) : Entry := ⟨⟨t,"slow".toList⟩,opKey⟩

def setDone (n : Nat) (t : Int) : List (Fleet.Act Unit) :=
  [.set n () (drainUntil t),.begin n,.send n .applied,.finish n]

def refreshDone : List (Fleet.Act Unit) := [.parse (),.take () [],.replace ()]

theorem refresh_rolls_back_longer_drain :
    ∃ s, Run.Reaches (step asciiCodec () opKey) (fun _ _ => True) (start 0) s ∧
      ¬s.PromiseKept () opKey := by
  obtain ⟨s,hs,hr,hd,hc,ha⟩ : ∃ s, Run.Reaches (step asciiCodec () opKey)
      (fun _ _ => True) (start 0) s ∧ s.promise.returned = true ∧
      s.promise.decision = some (2,.set 200) ∧ s.fleet.clock = 2 ∧
      (s.fleet.replicas ()).mem.active s.fleet.clock "eth".toList = [drainUntil 100] :=
    Run.reaches (setDone 1 100 ++ [.tick 1,.refresh (),.hgetall () true,.tick 2] ++
      setDone 2 200 ++ refreshDone) (by decide +kernel)
  refine ⟨s,hs,fun hk => ?_⟩
  obtain ⟨-,e,hm,-,hu⟩ := hk hr 2 (.set 200) hd (by rw [hc]; decide)
  rw [show opKey.serviceID = "eth".toList from rfl,ha,mem_singleton] at hm
  subst hm
  exact absurd hu (by decide)

theorem refresh_after_set_keeps_drain :
    ∃ s : PromisingFleet Unit, s.promise = ⟨some (1,.set 100),true,false,false⟩ ∧
      s.PromiseKept () opKey :=
  Run.reached_and
    (setDone 1 100 ++ [.tick 1,.refresh (),.hgetall () true,.tick 2] ++ refreshDone)
    (by decide +kernel) fun _ hs _ => local_decision_kept asciiCodec () opKey 0 hs

end Example

end PromisingFleet

end SageGateway.Drain
